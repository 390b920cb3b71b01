import RvHouse.Networking.HandlerSpec

/-!
# Blocking

All groups of the worker share one store of blocked addresses. A message `block_users` first goes
to the store and then to the handler of every group, which removes the users that are blocked now.
`no_blocked_user`: between any two steps of the worker no house has a user with a blocked address,
and data from such an address do nothing.

A handler keeps the invariant because it lets in only nodes whose address is not blocked
(`admitted_step`), and the sweep restores it after the store has grown
(`userFind_removeNodes`).
-/

namespace RvHouse

/-- What reaches the handler of one group only. -/
def Event.isLocal : Event → Bool
  | .blockUsers _ => false
  | _ => true

/-- The groups of the worker; `ipBlock` is `net_ip_block()`, which every handler reads. -/
structure Groups where
  ipBlock : IpBlock := {}
  gas : List Handler

/-- What the worker handles: an event of the group at a place in `_gas`, or `block_users`. -/
inductive GroupsEvent where
  | group (i : ℕ) (e : { e : Event // e.isLocal })
  | blockUsers (m : Message)

namespace Handler

/-- The handler as it finds the store of blocked addresses. -/
def reading (h : Handler) (b : IpBlock) : Handler := { h with ipBlock := b }

/-- No user has a blocked address. -/
def NoBlocked (h : Handler) (b : IpBlock) : Prop :=
  ∀ n, h.house.userFind (.ofNode n) ≠ none → b.isBlocked n.ip = false

/-! ## The events of one group -/

/-- Every node of `h'` is in `h`, or its address is not blocked. -/
def Admitted (h h' : Handler) : Prop :=
  ∀ n, h'.house.userFind (.ofNode n) ≠ none →
    h.house.userFind (.ofNode n) ≠ none ∨ h.ipBlock.isBlocked n.ip = false

theorem admitted_rfl (h : Handler) : Admitted h h := fun _ hn => .inl hn

theorem admitted_nodeRemoved (h : Handler) (n : Node) : Admitted h (h.nodeRemoved n).1 := by
  intro m hm
  rw [userFind_nodeRemoved] at hm
  split at hm
  · exact absurd rfl hm
  · exact .inl hm

theorem userFind_userStore_ne_none {h : House} {u : User} {n : Node}
    (hn : (h.userStore u).userFind (.ofNode n) ≠ none) : h.userFind (.ofNode n) ≠ none := by
  rw [House.userFind_userStore] at hn
  intro hnone
  simp [hnone] at hn

theorem admitted_recvUserUpdate (h : Handler) (w : UserWire) (n : Node) (now : Int) :
    Admitted h (h.recvUserUpdate w n now).1 := by
  intro m hm
  cases hf : h.house.userFind (.ofNode n) with
  | none =>
    rw [recvUserUpdate_of_none hf] at hm
    exact .inl hm
  | some ui =>
    rw [recvUserUpdate_of_find hf] at hm
    have hm' := userFind_userStore_ne_none hm
    rw [userFind_userUpdate_house] at hm'
    exact .inl hm'

theorem admitted_recvRoomUpdate (h : Handler) (w : RoomWire) (n : Node) :
    Admitted h (h.recvRoomUpdate w n).1 := by
  have houtcome := recvRoomUpdate_outcome h w n
  generalize h.recvRoomUpdate w n = r at houtcome
  cases houtcome with
  | ignored => exact admitted_rfl h
  | put _ _ _ hput => exact fun m hm => .inl (hput.users _ ▸ hm)
  | orphan _ _ _ hput => exact fun m hm => .inl (hput.users _ ▸ hm)

theorem admitted_dataReceived (h : Handler) (p : Payload) (n : Node) (now : Int) :
    Admitted h (h.dataReceived p n now).1 := by
  unfold dataReceived
  split
  · exact admitted_rfl h
  · cases p with
    | userReq => exact admitted_rfl h
    | userData hdr body =>
      show Admitted h (h.recvUserData hdr body n).1
      unfold recvUserData
      split <;> exact admitted_rfl h
    | roomUpdate w => exact admitted_recvRoomUpdate h w n
    | userUpdate w => exact admitted_recvUserUpdate h w n now
    | unrecognized => exact admitted_rfl h
    | malformed => exact admitted_rfl h

theorem userFind_selfAdded_ne_none {h : Handler} {n m : Node}
    (hm : (h.selfAdded n).1.house.userFind (.ofNode m) ≠ none) :
    h.house.userFind (.ofNode m) ≠ none := by
  cases hf : h.house.userFind (.ofNode n) with
  | none => rwa [selfAdded_of_none hf] at hm
  | some ui =>
    rw [selfAdded_of_find hf] at hm
    have hm' := userFind_userStore_ne_none hm
    rwa [userFind_userUpdate_house] at hm'

/-- A node is let in only after its address was looked up. -/
theorem admitted_nodeAdded (h : Handler) (n : Node) (now : Int) :
    Admitted h (h.nodeAdded n now).1 := by
  rw [nodeAdded_eq]
  cases hblocked : h.ipBlock.isBlocked n.ip with
  | true => exact admitted_rfl h
  | false =>
    have hadapter : Admitted h (h.adapterNodeAdded n now).1 := by
      have houtcome := adapterNodeAdded_outcome h n now
      generalize h.adapterNodeAdded n now = r at houtcome
      cases houtcome with
      | present => exact admitted_rfl h
      | added _ husers =>
        intro m hm
        rw [husers] at hm
        split at hm
        · rename_i hmn
          obtain rfl : m = n := by simpa using hmn
          exact .inr hblocked
        · exact .inl hm
    simp only [Bool.false_eq_true, if_false]
    split
    · exact fun m hm => hadapter m (userFind_selfAdded_ne_none hm)
    · exact hadapter

theorem admitted_step (h : Handler) {e : Event} (he : e.isLocal) : Admitted h (h.step e).1 := by
  cases e with
  | nodeAdded n now => exact admitted_nodeAdded h n now
  | nodeRemoved n => exact admitted_nodeRemoved h n
  | dataReceived p n now => exact admitted_dataReceived h p n now
  | updateUser => exact admitted_rfl h
  | updateRoom => exact admitted_rfl h
  | blockUsers => cases he
  | selfChanged => exact admitted_rfl h

theorem NoBlocked.step {h : Handler} {b : IpBlock} (hb : h.NoBlocked b) {e : Event}
    (he : e.isLocal) : ((h.reading b).step e).1.NoBlocked b := by
  intro n hn
  rcases admitted_step (h.reading b) he n hn with hold | hnew
  · exact hb n hold
  · exact hnew

/-! ## The sweep -/

theorem userFind_removeNodes (seq : UInt32) (h : Handler) (ns : List Node) (n : Node) :
    (removeNodes seq h ns).1.house.userFind (.ofNode n) =
      if n ∈ ns then none else h.house.userFind (.ofNode n) := by
  induction ns generalizing h with
  | nil => rfl
  | cons m ns ih =>
    show (removeNodes seq (h.nodeRemoved m).1 ns).1.house.userFind _ = _
    rw [ih, userFind_nodeRemoved]
    by_cases hnm : n = m
    · subst hnm
      simp
    · simp [hnm]

/-- The sweep removes every user with a blocked address. -/
theorem noBlocked_removeBlockedUsers (h : Handler) (b : IpBlock) (seq : UInt32) :
    ((h.reading b).removeBlockedUsers seq).1.NoBlocked b := by
  intro n hn
  rw [removeBlockedUsers, userFind_removeNodes] at hn
  split at hn
  · exact absurd rfl hn
  · rename_i hnot
    rw [mem_blockedNodes, not_and, Bool.not_eq_true] at hnot
    exact hnot hn

end Handler

namespace Groups

/-- `message::block_users` in `worker::handle_message`: the store takes the message first, and then
the handler of every group. -/
def handleBlockUsers (w : Groups) (m : Message) : Groups × List Effect :=
  let b := w.ipBlock.handleMessage m
  let rs := w.gas.map fun h => (h.reading b).removeBlockedUsers m.sequence
  (⟨b, rs.map (·.1)⟩, rs.flatMap (·.2))

/-- One step of the worker. -/
def step (w : Groups) : GroupsEvent → Groups × List Effect
  | .group i e =>
    match w.gas[i]? with
    | some h =>
      let r := (h.reading w.ipBlock).step e.val
      ({ w with gas := w.gas.set i r.1 }, r.2)
    | none => (w, [])
  | .blockUsers m => w.handleBlockUsers m

/-- The groups as a system. -/
def machine : Mealy Groups GroupsEvent Effect := ⟨step⟩

/-- The worker as it is constructed, with any groups. -/
def init (bases : List Int) : Groups := { gas := bases.map Handler.init }

/-- No house has a user with a blocked address. -/
def NoBlocked (w : Groups) : Prop := ∀ h ∈ w.gas, h.NoBlocked w.ipBlock

theorem step_group_of_none {w : Groups} {i : ℕ} (hi : w.gas[i]? = none)
    (e : { e : Event // e.isLocal }) : w.step (.group i e) = (w, []) := by
  simp only [step, hi]

theorem step_group_of_some {w : Groups} {i : ℕ} {h : Handler} (hi : w.gas[i]? = some h)
    (e : { e : Event // e.isLocal }) :
    w.step (.group i e) =
      ({ w with gas := w.gas.set i ((h.reading w.ipBlock).step e.val).1 },
        ((h.reading w.ipBlock).step e.val).2) := by
  simp only [step, hi]

theorem NoBlocked.step {w : Groups} (hw : w.NoBlocked) (e : GroupsEvent) :
    (w.step e).1.NoBlocked := by
  cases e with
  | group i e =>
    cases hi : w.gas[i]? with
    | none => rwa [step_group_of_none hi]
    | some h =>
      rw [step_group_of_some hi]
      intro h' hh'
      rcases List.mem_or_eq_of_mem_set hh' with hmem | rfl
      · exact hw h' hmem
      · exact (hw h (List.mem_of_getElem? hi)).step e.2
  | blockUsers m =>
    intro h' hh'
    simp only [Groups.step, handleBlockUsers, List.map_map, List.mem_map] at hh' ⊢
    obtain ⟨h, -, rfl⟩ := hh'
    exact h.noBlocked_removeBlockedUsers _ _

/-- **Blocking is complete.** After every run no house has a user with a blocked address, and data
from a blocked address leave the houses as they are and post nothing. -/
theorem no_blocked_user (bases : List Int) (es : List GroupsEvent) :
    let w := machine.exec (init bases) es
    (∀ h ∈ w.gas, ∀ u ∈ h.house.users.toList, ∀ n, u.id.node = some n →
      w.ipBlock.isBlocked n.ip = false) ∧
    ∀ i p n now, w.ipBlock.isBlocked n.ip = true →
      let r := machine.step w (.group i ⟨.dataReceived p n now, rfl⟩)
      r.1.gas.map Handler.house = w.gas.map Handler.house ∧ posted r.2 = [] := by
  intro w
  have hinit : (init bases).NoBlocked := by
    intro h hh n hn
    obtain ⟨base, -, rfl⟩ := List.mem_map.1 hh
    exact absurd (House.userFind_empty _) hn
  have hw : w.NoBlocked := machine.invariant_all (fun s e hs => hs.step e) hinit es
  refine ⟨fun h hh u hu n hn => hw h hh n ?_, fun i p n now hblocked => ?_⟩
  · have hnode : (UserKey.ofNode n).node = u.id.node := hn.symm
    rw [House.userFind_congr hnode, House.mem_users.1 hu]
    exact Option.some_ne_none u
  · show (w.step _).1.gas.map Handler.house = _ ∧ posted (w.step _).2 = []
    cases hi : w.gas[i]? with
    | none => simp [step_group_of_none hi]
    | some h =>
      have hdata : (h.reading w.ipBlock).step (.dataReceived p n now) =
          (h.reading w.ipBlock, []) := if_pos hblocked
      have hhouse : (w.gas.map Handler.house)[i]? = some h.house := by simp [hi]
      simp only [step_group_of_some hi, hdata, List.map_set, posted_nil, and_true]
      obtain ⟨hlt, hget⟩ := List.getElem?_eq_some_iff.1 hhouse
      show (w.gas.map Handler.house).set i h.house = _
      rw [← hget, List.set_getElem_self]

end Groups

end RvHouse
