import RvHouse.Lib.Mealy
import RvHouse.Networking.IpRanges

/-!
# Addresses that are never to be blocked

A user can block another user, and a list of addresses to ignore is fetched from the web. Both end
in calls of `ip_block::store::add`, with the same sanity checks on the way: the wildcard address,
the loopback address and the broadcast address are not to be blocked, and no mask is to be empty.

The checks look at the address of a call only, and not at what is under its mask.
`safe_iff_harmless` says when the three addresses stay free: when no call and no entry of a list
covers one of them. A block of one user is always harmless, as its mask is full
(`harmless_of_full`).
-/

namespace RvHouse

/-- `message_global_ignore::ip_entry`. -/
structure IpEntry where
  ip : String := ""
  mask : String := "255.255.255.255"
deriving DecidableEq

/-- What the GUI thread knows when it blocks somebody; `inet_aton` gives the `s_addr` of a text. -/
structure IgnoreEnv where
  inetAton : String → Option UInt32
  ntohl : UInt32 → UInt32
  /-- The entry of a login in the section "users" of the user's configuration. -/
  userConf : String → String
  me : User
  sequence : UInt32

namespace IgnoreEnv

open IpBlock

variable (env : IgnoreEnv)

/-- The address that is no address of a user. -/
def InvalidIp (a : UInt32) : Prop := a = inAddrAny ∨ a = inAddrLoopback ∨ a = inAddrNone

instance (a : UInt32) : Decidable (InvalidIp a) := inferInstanceAs (Decidable (_ ∨ _))

/-- The body of the loop of `house_app::_handle_global_ignore`; `none` when it goes on with the next
entry. -/
def globalIgnoreEntry (e : IpEntry) : Option IpAndMask := do
  let a ← env.inetAton e.ip
  let m ← env.inetAton e.mask
  let a := env.ntohl a
  let m := env.ntohl m
  if InvalidIp a ∨ m = inAddrAny then none else some ⟨a, m⟩

/-- `house_app::_handle_global_ignore`: the message that it sends. -/
def handleGlobalIgnore (ips : List IpEntry) : Option Message :=
  let mb := Message.ofBlockUsers .blockUsers env.me env.sequence 0
  let list := ips.filterMap env.globalIgnoreEntry
  if list.length > 0 then
    some { mb with body := .blockUsers { env.me with sequence := env.sequence } list true }
  else none

/-- The block of one user, by the text of its address. -/
def blockUser (ipstr : String) : Option Message := do
  let a ← env.inetAton ipstr
  let a := env.ntohl a
  if InvalidIp a then none
  else
    some { Message.ofBlockUsers .blockUsers env.me env.sequence 0 with
      body := .blockUsers { env.me with sequence := env.sequence } [{ ip := a }] false }

/-- `view::users::block_selected_user`, on the address of the selected user. -/
def blockSelectedUser (ipstr : String) : Option Message := env.blockUser ipstr

/-- `window::house::user_added`: the message that it sends. -/
def userAdded (loginId ipstr : String) : Option Message :=
  if env.userConf loginId.toLower = "block" then env.blockUser ipstr else none

/-- What is done to the store of the networking thread. -/
inductive BlockEvent where
  | add (ip mask : UInt32)
  | globalIgnore (ips : List IpEntry)
  | blockSelectedUser (ipstr : String)
  | userAdded (loginId ipstr : String)

/-- The store handles a message if there is one. -/
def handled (s : IpBlock) (m : Option Message) : IpBlock := (m.map s.handleMessage).getD s

/-- One event. -/
def step (s : IpBlock) : BlockEvent → IpBlock
  | .add ip mask => s.add ip mask
  | .globalIgnore ips => handled s (env.handleGlobalIgnore ips)
  | .blockSelectedUser ipstr => handled s (env.blockSelectedUser ipstr)
  | .userAdded loginId ipstr => handled s (env.userAdded loginId ipstr)

/-- The store as a machine. -/
def machine : Mealy IpBlock BlockEvent Empty := ⟨fun s e => (env.step s e, [])⟩

/-- None of the three addresses is blocked. -/
structure Safe (s : IpBlock) : Prop where
  wildcard : s.isBlockedEarly inAddrAny = false
  loopback : s.isBlockedEarly inAddrLoopback = false
  broadcast : s.isBlockedEarly inAddrNone = false

/-- A call that `add` rejects, or that covers none of the three addresses. -/
def HarmlessCall (c : IpAndMask) : Prop :=
  InvalidIp c.ip ∨ c.mask = inAddrAny ∨
    (c.ip &&& c.mask ≠ 0 ∧ c.ip &&& c.mask ≠ inAddrLoopback &&& c.mask ∧ c.ip &&& c.mask ≠ c.mask)

instance (c : IpAndMask) : Decidable (HarmlessCall c) := inferInstanceAs (Decidable (_ ∨ _ ∨ _))

/-- No call of the event covers one of the three addresses. -/
def Harmless : BlockEvent → Prop
  | .add ip mask => HarmlessCall ⟨ip, mask⟩
  | .globalIgnore ips =>
    ∀ e ∈ ips, ∀ a ∈ env.inetAton e.ip, ∀ m ∈ env.inetAton e.mask,
      HarmlessCall ⟨env.ntohl a, env.ntohl m⟩
  | .blockSelectedUser _ => True
  | .userAdded _ _ => True

/-! ## Calls of `add` -/

theorem accepted_iff (c : IpAndMask) :
    Accepted c ↔ ¬ (InvalidIp c.ip ∨ c.mask = inAddrAny) := by
  simp only [Accepted, InvalidIp, not_or, and_assoc, ne_eq]

/-- A harmless call covers none of the three addresses, or is not accepted. -/
theorem harmlessCall_iff (c : IpAndMask) :
    HarmlessCall c ↔ ¬ (Accepted c ∧ (Covers c inAddrAny ∨ Covers c inAddrLoopback ∨
      Covers c inAddrNone)) := by
  have hfull : (inAddrNone : UInt32) = -1 := by decide
  have hany : Covers c inAddrAny ↔ c.ip &&& c.mask = 0 := by
    rw [Covers, inAddrAny, UInt32.zero_and, eq_comm]
  have hloop : Covers c inAddrLoopback ↔ c.ip &&& c.mask = inAddrLoopback &&& c.mask := by
    rw [Covers, eq_comm]
  have hnone : Covers c inAddrNone ↔ c.ip &&& c.mask = c.mask := by
    rw [Covers, hfull, UInt32.neg_one_and, eq_comm]
  rw [accepted_iff, hany, hloop, hnone, not_and_or, not_not, not_or, not_or, or_assoc]
  exact Iff.rfl

/-- The three addresses stay free when every call is harmless, and only then. -/
theorem safe_addAll_iff (cs : List IpAndMask) :
    Safe (addAll {} cs) ↔ ∀ c ∈ cs, HarmlessCall c := by
  have hfree : ∀ x, (addAll {} cs).isBlockedEarly x = false ↔
      ∀ c ∈ cs, ¬ (Accepted c ∧ Covers c x) := by
    intro x
    rw [isBlockedEarly_eq, ← Bool.not_eq_true, isBlocked_addAll]
    simp
  simp only [harmlessCall_iff]
  constructor
  · rintro ⟨hw, hl, hb⟩ c hc ⟨hacc, hcov | hcov | hcov⟩
    · exact (hfree _).1 hw c hc ⟨hacc, hcov⟩
    · exact (hfree _).1 hl c hc ⟨hacc, hcov⟩
    · exact (hfree _).1 hb c hc ⟨hacc, hcov⟩
  · intro h
    refine ⟨(hfree _).2 fun c hc hx => ?_, (hfree _).2 fun c hc hx => ?_,
      (hfree _).2 fun c hc hx => ?_⟩
    · exact h c hc ⟨hx.1, .inl hx.2⟩
    · exact h c hc ⟨hx.1, .inr (.inl hx.2)⟩
    · exact h c hc ⟨hx.1, .inr (.inr hx.2)⟩

/-- A call with the full mask is harmless. -/
theorem harmless_of_full {c : IpAndMask} (h : c.mask = inAddrNone) : HarmlessCall c := by
  rw [harmlessCall_iff]
  rintro ⟨⟨hany, hloop, hnone, -⟩, hcov⟩
  simp only [covers_of_full h] at hcov
  rcases hcov with hx | hx | hx
  · exact hany hx.symm
  · exact hloop hx.symm
  · exact hnone hx.symm

/-! ## Events -/

/-- The calls of `add` that an event comes to. -/
def calls : BlockEvent → List IpAndMask
  | .add ip mask => [⟨ip, mask⟩]
  | .globalIgnore ips => ips.filterMap env.globalIgnoreEntry
  | .blockSelectedUser ipstr => ((env.blockSelectedUser ipstr).map Message.ips).getD []
  | .userAdded loginId ipstr => ((env.userAdded loginId ipstr).map Message.ips).getD []

theorem handled_eq (s : IpBlock) (m : Option Message) :
    handled s m = s.addAll ((m.map Message.ips).getD []) := by
  cases m with
  | none => rfl
  | some m => exact handleMessage_eq s m

theorem ips_handleGlobalIgnore (ips : List IpEntry) :
    ((env.handleGlobalIgnore ips).map Message.ips).getD [] =
      ips.filterMap env.globalIgnoreEntry := by
  unfold handleGlobalIgnore
  dsimp only
  split
  · rfl
  · rename_i hnone
    exact (List.eq_nil_of_length_eq_zero (Nat.eq_zero_of_not_pos hnone)).symm

theorem step_eq (s : IpBlock) (e : BlockEvent) : env.step s e = s.addAll (env.calls e) := by
  cases e with
  | add ip mask => rfl
  | globalIgnore ips => exact (handled_eq s _).trans (by rw [ips_handleGlobalIgnore]; rfl)
  | blockSelectedUser ipstr => exact handled_eq s _
  | userAdded loginId ipstr => exact handled_eq s _

/-- A run does the calls of its events. -/
theorem exec_eq (s : IpBlock) (es : List BlockEvent) :
    env.machine.exec s es = s.addAll (es.flatMap env.calls) := by
  induction es generalizing s with
  | nil => rfl
  | cons e es ih =>
    have hstep : (env.machine.step s e).1 = s.addAll (env.calls e) := env.step_eq s e
    rw [Mealy.exec_cons, ih, hstep, List.flatMap_cons, addAll_append]

theorem mask_of_blockUser {ipstr : String} {m : Message} (h : env.blockUser ipstr = some m) :
    ∀ c ∈ m.ips, c.mask = inAddrNone := by
  obtain ⟨a, -, h⟩ := Option.bind_eq_some_iff.1 h
  dsimp only at h
  split at h
  · cases h
  · cases h
    exact fun c hc => congrArg IpAndMask.mask (List.mem_singleton.1 hc)

theorem harmless_blockUser (ipstr : String) :
    ∀ c ∈ ((env.blockUser ipstr).map Message.ips).getD [], HarmlessCall c := by
  cases hm : env.blockUser ipstr with
  | none => simp
  | some m => exact fun c hc => harmless_of_full (env.mask_of_blockUser hm c hc)

theorem harmless_globalIgnoreEntry (e : IpEntry) :
    (∀ c ∈ env.globalIgnoreEntry e, HarmlessCall c) ↔
      ∀ a ∈ env.inetAton e.ip, ∀ m ∈ env.inetAton e.mask,
        HarmlessCall ⟨env.ntohl a, env.ntohl m⟩ := by
  unfold globalIgnoreEntry
  cases ha : env.inetAton e.ip with
  | none => simp
  | some a =>
    cases hm : env.inetAton e.mask with
    | none => simp
    | some m =>
      by_cases hcheck : InvalidIp (env.ntohl a) ∨ env.ntohl m = inAddrAny
      · have hreject : HarmlessCall ⟨env.ntohl a, env.ntohl m⟩ := hcheck.imp_right .inl
        simp [hcheck, hreject]
      · simp [hcheck]

/-- An event is harmless when its calls are. -/
theorem forall_calls_iff (e : BlockEvent) :
    (∀ c ∈ env.calls e, HarmlessCall c) ↔ env.Harmless e := by
  cases e with
  | add ip mask => exact List.forall_mem_singleton
  | globalIgnore ips =>
    rw [calls, List.forall_mem_filterMap]
    exact forall₂_congr fun e _ => env.harmless_globalIgnoreEntry e
  | blockSelectedUser ipstr => exact iff_of_true (env.harmless_blockUser ipstr) trivial
  | userAdded loginId ipstr =>
    refine iff_of_true ?_ trivial
    unfold calls userAdded
    dsimp only
    split
    · exact env.harmless_blockUser ipstr
    · simp

/-- **When the three addresses stay free.** They do at every point of a run exactly when every event
of it is harmless. -/
theorem safe_iff_harmless (es : List BlockEvent) :
    (∀ p, p <+: es → Safe (env.machine.exec {} p)) ↔ ∀ e ∈ es, env.Harmless e := by
  have hrun : ∀ p, Safe (env.machine.exec {} p) ↔ ∀ e ∈ p, env.Harmless e := by
    intro p
    rw [exec_eq, safe_addAll_iff, List.forall_mem_flatMap]
    simp only [forall_calls_iff]
  constructor
  · intro h
    exact (hrun es).1 (h es (List.prefix_refl es))
  · intro h p hp
    exact (hrun p).2 fun e he => h e (hp.subset he)

/-- `ntohl` where the lowest byte comes first. -/
def swapBytes (n : UInt32) : UInt32 :=
  (n <<< 24) ||| ((n &&& (0xFF00 : UInt32)) <<< 8) ||| ((n >>> 8) &&& (0xFF00 : UInt32)) |||
    (n >>> 24)

/-- The list has one entry, 127.0.0.2 under the mask 255.0.0.0. -/
theorem not_safe_of_masked :
    let env : IgnoreEnv :=
      { inetAton := fun t =>
          if t = "127.0.0.2" then some 0x0200007F else if t = "255.0.0.0" then some 0x000000FF
          else none
        ntohl := swapBytes, userConf := fun _ => "", me := {}, sequence := 1 }
    (env.machine.exec {} [.globalIgnore [⟨"127.0.0.2", "255.0.0.0"⟩]]).isBlockedEarly
        inAddrLoopback = true ∧
      ¬ ∀ p, p <+: [.globalIgnore [⟨"127.0.0.2", "255.0.0.0"⟩]] →
        Safe (env.machine.exec {} p) := by
  intro env
  have hblocked : (env.machine.exec {} [.globalIgnore [⟨"127.0.0.2", "255.0.0.0"⟩]]).isBlockedEarly
      inAddrLoopback = true := by decide
  refine ⟨hblocked, fun h => ?_⟩
  have hfree := (h _ (List.prefix_refl _)).loopback
  rw [hblocked] at hfree
  cases hfree

end IgnoreEnv

end RvHouse
