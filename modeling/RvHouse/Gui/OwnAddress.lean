import RvHouse.Gui.Ignore
import RvHouse.Model.Self

/-!
# Whether the own address is to be ignored

The list of addresses to ignore and the own address, as it is seen from outside, are fetched side by
side, and either may come first or more than once. `window::house` keeps both, in a second store of
blocked addresses, and looks after each of them whether its user is on the list.

`blocked_told_iff` says that the order does not matter: the user is told in a run exactly when at some time
the address that was detected last is covered by an entry of the lists received by then. Each of
the two checks shows a box, with an event loop of its own, when everything has been stored: what
happens in it counts as happening after.
-/

namespace RvHouse

/-- What the window knows of the own address; `ipAsString` is that of the own user, whose node is
not known. -/
structure OwnAddress where
  self : SelfModel := {}
  ipAsString : String := ""
  globalIpBlock : IpBlock := {}
deriving DecidableEq

/-- What reaches it. -/
inductive OwnAddressEvent where
  /-- A `message_string`. -/
  | messageString (id : MsgId) (str : String)
  /-- A message of another class. -/
  | message (m : Message)
  /-- `message_global_ignore`, which `house_app` takes apart. -/
  | globalIgnoreList (ips : List IpEntry)
deriving DecidableEq

/-- What comes of it. -/
inductive OwnAddressNews where
  /-- The box with the text "app/self_on_global_ignore". -/
  | onGlobalIgnore
  | net (m : Message)
deriving DecidableEq

namespace OwnAddress

variable (env : IgnoreEnv)

/-- `house::_check_if_self_blocked`. -/
def checkIfSelfBlocked (s : OwnAddress) : List OwnAddressNews :=
  if s.ipAsString = "" ∨ s.globalIpBlock.size = 0 then []
  else
    match env.inetAton s.ipAsString with
    | none => []
    | some a =>
      if s.globalIpBlock.isBlockedEarly (env.ntohl a) then [.onGlobalIgnore] else []

/-- `house::handle_external_ip_message`. -/
def handleExternalIpMessage (s : OwnAddress) (id : MsgId) (str : String) :
    OwnAddress × List OwnAddressNews :=
  match id with
  | .externalIpFetchDone =>
    let s := { s with ipAsString := str }
    (s, s.checkIfSelfBlocked env)
  | _ => (s, [])

/-- `house::handle_global_block_users`. -/
def handleGlobalBlockUsers (s : OwnAddress) (mb : Message) : OwnAddress × List OwnAddressNews :=
  let s := { s with globalIpBlock := s.globalIpBlock.handleMessage mb }
  (s, s.checkIfSelfBlocked env)

/-- `house::handle_message`, for a message that is no `message_string`. -/
def handleMessage (s : OwnAddress) (m : Message) : OwnAddress × List OwnAddressNews :=
  match m.id, m.body with
  | .blockUsers, .blockUsers _ _ globalIgnore =>
    if globalIgnore then s.handleGlobalBlockUsers env m else (s, [])
  | _, _ => (s, [])

/-- `house_app::_handle_global_ignore`: the message goes to the window of the house first. -/
def handleGlobalIgnore (s : OwnAddress) (ips : List IpEntry) : OwnAddress × List OwnAddressNews :=
  let (sequence, self) := s.self.sequence
  let mb := { env with me := s.self.user, sequence : IgnoreEnv }.handleGlobalIgnore ips
  match mb with
  | none => ({ s with self }, [])
  | some mb =>
    let (s, news) := { s with self : OwnAddress }.handleMessage env mb
    (s, news ++ [.net mb])

/-- One event. -/
def step (s : OwnAddress) : OwnAddressEvent → OwnAddress × List OwnAddressNews
  | .messageString id str => s.handleExternalIpMessage env id str
  | .message m => s.handleMessage env m
  | .globalIgnoreList ips => s.handleGlobalIgnore env ips

/-- The window as a machine. -/
def machine : Mealy OwnAddress OwnAddressEvent OwnAddressNews := ⟨step env⟩

/-! ## What the events bring -/

/-- The address that an event tells. -/
def detected : OwnAddressEvent → Option String
  | .messageString .externalIpFetchDone str => some str
  | _ => none

/-- The entries that an event brings. -/
def entries : OwnAddressEvent → List IpAndMask
  | .message ⟨.blockUsers, _, _, _, .blockUsers _ ips true⟩ => ips
  | .globalIgnoreList ips => ips.filterMap env.globalIgnoreEntry
  | _ => []

/-- The address that was detected last. -/
def lastDetected (es : List OwnAddressEvent) : String :=
  es.foldl (fun ip e => (detected e).getD ip) ""

/-- The address that was detected last is covered by an entry received so far. -/
def OnList (es : List OwnAddressEvent) : Prop :=
  lastDetected es ≠ "" ∧ ∃ a, env.inetAton (lastDetected es) = some a ∧
    ∃ c ∈ es.flatMap (entries env), IpBlock.Accepted c ∧ IpBlock.Covers c (env.ntohl a)

/-! ## One event -/

/-- The address that the window knows is blocked in its store. -/
def Listed (s : OwnAddress) : Prop :=
  s.ipAsString ≠ "" ∧ ∃ a, env.inetAton s.ipAsString = some a ∧
    s.globalIpBlock.isBlockedEarly (env.ntohl a) = true

theorem mem_checkIfSelfBlocked (s : OwnAddress) :
    .onGlobalIgnore ∈ s.checkIfSelfBlocked env ↔ s.Listed env := by
  unfold checkIfSelfBlocked Listed
  by_cases hip : s.ipAsString = ""
  · simp [hip]
  · by_cases hsize : s.globalIpBlock.size = 0
    · obtain ⟨hstore, hmask⟩ := Nat.add_eq_zero_iff.1 hsize
      simp [hsize, IpBlock.isBlockedEarly, List.eq_nil_of_length_eq_zero hstore,
        List.eq_nil_of_length_eq_zero hmask]
    · cases ha : env.inetAton s.ipAsString with
      | none => simp [hip, hsize]
      | some a => simp [hip, hsize]

theorem handleGlobalBlockUsers_spec (s : OwnAddress) (mb : Message) :
    (s.handleGlobalBlockUsers env mb).1 =
        { s with globalIpBlock := s.globalIpBlock.addAll mb.ips } ∧
      (.onGlobalIgnore ∈ (s.handleGlobalBlockUsers env mb).2 ↔
        (s.handleGlobalBlockUsers env mb).1.Listed env) := by
  refine ⟨?_, mem_checkIfSelfBlocked env _⟩
  rw [handleGlobalBlockUsers, IpBlock.handleMessage_eq]

/-- The window looks after every event that brings something, and tells what it finds. -/
structure Looks (s : OwnAddress) (e : OwnAddressEvent)
    (r : OwnAddress × List OwnAddressNews) : Prop where
  ipAsString : r.1.ipAsString = (detected e).getD s.ipAsString
  globalIpBlock : r.1.globalIpBlock = s.globalIpBlock.addAll (entries env e)
  told : (.onGlobalIgnore ∈ r.2 ↔ r.1.Listed env) ∨
    .onGlobalIgnore ∉ r.2 ∧ detected e = none ∧ entries env e = []

/-- An event that brings nothing. -/
theorem looks_nothing {s s' : OwnAddress} {e : OwnAddressEvent}
    (hip : s'.ipAsString = s.ipAsString) (hblock : s'.globalIpBlock = s.globalIpBlock)
    (hdetected : detected e = none) (hentries : entries env e = []) : Looks env s e (s', []) where
  ipAsString := by rw [hdetected]; exact hip
  globalIpBlock := by rw [hentries]; exact hblock
  told := .inr ⟨List.not_mem_nil, hdetected, hentries⟩

theorem looks_blockUsers {s s' : OwnAddress} {e : OwnAddressEvent} {mb : Message}
    (hip : s'.ipAsString = s.ipAsString) (hblock : s'.globalIpBlock = s.globalIpBlock)
    (hdetected : detected e = none) (hentries : entries env e = mb.ips) :
    Looks env s e (s'.handleGlobalBlockUsers env mb) := by
  obtain ⟨hstate, htold⟩ := s'.handleGlobalBlockUsers_spec env mb
  refine ⟨?_, ?_, .inl htold⟩
  · rw [hdetected, hstate]
    exact hip
  · rw [hentries, hstate, hblock]

theorem looks_message (s : OwnAddress) (m : Message) :
    Looks env s (.message m) (s.handleMessage env m) := by
  obtain ⟨id, senderId, sequence, groupBase, body⟩ := m
  by_cases hid : id = .blockUsers
  · subst hid
    cases body with
    | blockUsers user ips globalIgnore =>
      cases globalIgnore with
      | false => exact looks_nothing env rfl rfl rfl rfl
      | true => exact looks_blockUsers env rfl rfl rfl rfl
    | _ => exact looks_nothing env rfl rfl rfl rfl
  · have hnone : s.handleMessage env ⟨id, senderId, sequence, groupBase, body⟩ = (s, []) := by
      unfold handleMessage
      split
      · rename_i h _
        exact absurd h hid
      · rfl
    rw [hnone]
    refine looks_nothing env rfl rfl rfl ?_
    unfold entries
    split
    · rename_i h
      cases h
      exact absurd rfl hid
    · rename_i h
      cases h
    · rfl

theorem looks_messageString (s : OwnAddress) (id : MsgId) (str : String) :
    Looks env s (.messageString id str) (s.handleExternalIpMessage env id str) := by
  by_cases hid : id = .externalIpFetchDone
  · subst hid
    exact ⟨rfl, rfl, .inl (mem_checkIfSelfBlocked env _)⟩
  · cases id with
    | externalIpFetchDone => exact absurd rfl hid
    | _ => exact looks_nothing env rfl rfl rfl rfl

/-- The message that `house_app` makes of a list is one that the window stores. -/
theorem handleMessage_of_globalIgnore {env' : IgnoreEnv} {ips : List IpEntry} {mb : Message}
    (h : env'.handleGlobalIgnore ips = some mb) (s : OwnAddress) :
    s.handleMessage env mb = s.handleGlobalBlockUsers env mb := by
  unfold IgnoreEnv.handleGlobalIgnore at h
  dsimp only at h
  split at h
  · cases h
    rfl
  · cases h

theorem looks_globalIgnoreList (s : OwnAddress) (ips : List IpEntry) :
    Looks env s (.globalIgnoreList ips) (s.handleGlobalIgnore env ips) := by
  have hips := IgnoreEnv.ips_handleGlobalIgnore
    { env with me := s.self.user, sequence := s.self.sequence.1 } ips
  unfold handleGlobalIgnore
  dsimp only
  cases hmb : IgnoreEnv.handleGlobalIgnore
      { env with me := s.self.user, sequence := s.self.sequence.1 } ips with
  | none =>
    rw [hmb] at hips
    exact looks_nothing env rfl rfl rfl hips.symm
  | some mb =>
    rw [hmb] at hips
    have hlooks : Looks env s (.globalIgnoreList ips)
        (({ s with self := s.self.sequence.2 } : OwnAddress).handleGlobalBlockUsers env mb) :=
      looks_blockUsers env rfl rfl rfl hips.symm
    dsimp only
    rw [handleMessage_of_globalIgnore env hmb]
    refine ⟨hlooks.ipAsString, hlooks.globalIpBlock, ?_⟩
    simpa using hlooks.told

theorem looks_step (s : OwnAddress) (e : OwnAddressEvent) : Looks env s e (s.step env e) := by
  cases e with
  | messageString id str => exact looks_messageString env s id str
  | message m => exact looks_message env s m
  | globalIgnoreList ips => exact looks_globalIgnoreList env s ips

/-! ## Runs -/

theorem exec_spec (es : List OwnAddressEvent) :
    ((machine env).exec {} es).ipAsString = lastDetected es ∧
      ((machine env).exec {} es).globalIpBlock = IpBlock.addAll {} (es.flatMap (entries env)) := by
  induction es using List.reverseRecOn with
  | nil => exact ⟨rfl, rfl⟩
  | append_singleton es e ih =>
    have hlooks := looks_step env ((machine env).exec {} es) e
    rw [Mealy.exec_concat]
    refine ⟨hlooks.ipAsString.trans ?_, hlooks.globalIpBlock.trans ?_⟩
    · rw [ih.1, lastDetected, lastDetected, List.foldl_append]
      rfl
    · rw [ih.2, ← IpBlock.addAll_append, List.flatMap_append, List.flatMap_singleton]

theorem listed_exec_iff (es : List OwnAddressEvent) :
    ((machine env).exec {} es).Listed env ↔ OnList env es := by
  obtain ⟨hip, hblock⟩ := exec_spec env es
  unfold Listed OnList
  simp only [hip, hblock, IpBlock.isBlockedEarly_eq, IpBlock.isBlocked_addAll]

/-- While the address is listed the user has been told. -/
theorem told_of_listed {es : List OwnAddressEvent} (h : ((machine env).exec {} es).Listed env) :
    .onGlobalIgnore ∈ (machine env).trace {} es := by
  induction es using List.reverseRecOn with
  | nil => exact absurd rfl h.1
  | append_singleton es e ih =>
    have hlooks := looks_step env ((machine env).exec {} es) e
    rw [Mealy.exec_concat] at h
    rw [Mealy.trace_concat, List.mem_append]
    rcases hlooks.told with htold | ⟨-, hdetected, hentries⟩
    · exact .inr (htold.2 h)
    · refine .inl (ih ?_)
      have hip := hlooks.ipAsString
      have hblock := hlooks.globalIpBlock
      rw [hdetected] at hip
      rw [hentries] at hblock
      unfold Listed at h ⊢
      rwa [show ((machine env).step _ e).1.ipAsString = _ from hip,
        show ((machine env).step _ e).1.globalIpBlock = _ from hblock] at h

/-- **The user learns that he is to be ignored.** He is told in a run exactly when at some time of
it the address that was detected last is covered by an entry of the lists received by then. -/
theorem blocked_told_iff (es : List OwnAddressEvent) :
    .onGlobalIgnore ∈ (machine env).trace {} es ↔ ∃ p, p <+: es ∧ OnList env p := by
  simp only [← listed_exec_iff]
  constructor
  · intro h
    obtain ⟨p, e, hp, hnews⟩ := (machine env).mem_trace_iff.1 h
    rcases (looks_step env ((machine env).exec {} p) e).told with htold | ⟨hnot, -⟩
    · refine ⟨p ++ [e], hp, ?_⟩
      rw [Mealy.exec_concat]
      exact htold.1 hnews
    · exact absurd hnews hnot
  · rintro ⟨p, hp, hlisted⟩
    exact ((machine env).trace_initial {} hp).subset (told_of_listed env hlisted)

/-- The list may come before the address, or after it. -/
example :
    let env : IgnoreEnv :=
      { inetAton := fun t => if t = "80.1.2.3" then some 0x50010203 else some 0xFFFFFF00
        ntohl := id, userConf := fun _ => "", me := {}, sequence := 1 }
    let list := OwnAddressEvent.globalIgnoreList [⟨"80.1.2.3", "255.255.255.0"⟩]
    let ip := OwnAddressEvent.messageString .externalIpFetchDone "80.1.2.3"
    .onGlobalIgnore ∈ (machine env).trace {} [list, ip] ∧
      .onGlobalIgnore ∈ (machine env).trace {} [ip, list] := by decide

end OwnAddress

end RvHouse
