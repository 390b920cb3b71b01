import RvHouse.Networking.HandlerSpec

/-!
# The unchecked search of a user update

`user_update` looks for the room that the sender leaves and reads the owner of what it finds without
comparing the iterator with `room_end()`; `user_erased`, which does the same search, compares.
`endDeref_iff_guarded` says when a run is free of the slip: exactly when every update leaves a room
that is in the house and that the update has not closed itself (`RoomLeftKnown`).
`endDeref_of_cancelled` is a run in which a host names its room and then cancels it, as
`room_settings::reject` does: the room was never announced.
-/

namespace RvHouse.Handler

/-- The update can look up the room that it leaves: the room is in the house, and it is not the room
of a host that comes back under another name, which `user_erased` has closed by then. -/
def FindsRoom (h : House) (old upd : User) : Prop :=
  Leaves old upd → h.roomFind old.roomId ≠ none ∧ ¬ (Restarts old upd ∧ h.Hosts old)

/-- The event is not a user update, or the update finds the room that it leaves. -/
def RoomLeftKnown (s : Handler) : Event → Prop
  | .dataReceived (.userUpdate w) n now =>
    s.ipBlock.isBlocked n.ip = false → ∀ ui, s.house.userFind (.ofNode n) = some ui →
      FindsRoom s.house ui (decoded w n now)
  | .nodeAdded n _ =>
    s.ipBlock.isBlocked n.ip = false → s.grpSelf = some n →
      ∀ ui, s.house.userFind (.ofNode n) = some ui → FindsRoom s.house ui s.selfUser
  | _ => True

/-- No iterator equal to `room_end()` is dereferenced. -/
def NoEndDeref (out : List Effect) : Prop := ∀ o ∈ out, ∀ rid, o ≠ .derefRoomEnd rid

@[simp] theorem noEndDeref_append (out out' : List Effect) :
    NoEndDeref (out ++ out') ↔ NoEndDeref out ∧ NoEndDeref out' :=
  List.forall_mem_append

@[simp] theorem noEndDeref_map_post (ms : List Message) : NoEndDeref (ms.map .post) := by
  intro o ho rid
  obtain ⟨m, -, rfl⟩ := List.mem_map.1 ho
  simp

theorem noEndDeref_userUpdate (base : Int) (h : House) (old upd : User) :
    NoEndDeref (userUpdate base h old upd).out ↔ FindsRoom h old upd := by
  have hmem : NoEndDeref (userUpdate base h old upd).out ↔
      ∀ rid, .derefRoomEnd rid ∉ (userUpdate base h old upd).out :=
    ⟨fun hno rid hrid => hno _ hrid rid rfl, fun hno o ho rid heq => hno rid (heq ▸ ho)⟩
  simp only [hmem, derefRoomEnd_mem_userUpdate, FindsRoom]
  grind

theorem noEndDeref_nodeRemoved (s : Handler) (n : Node) : NoEndDeref (s.nodeRemoved n).2 := by
  cases hf : s.house.userFind (.ofNode n) with
  | none => simp [nodeRemoved_of_none hf, NoEndDeref]
  | some ui =>
    rw [nodeRemoved_of_find hf]
    exact noEndDeref_map_post _

theorem noEndDeref_removeNodes (seq : UInt32) (s : Handler) (ns : List Node) :
    NoEndDeref (removeNodes seq s ns).2 := by
  induction ns generalizing s with
  | nil => simp [removeNodes, NoEndDeref]
  | cons n ns ih =>
    have hcons : NoEndDeref ((s.nodeRemoved n).2 ++ (removeNodes seq (s.nodeRemoved n).1 ns).2) :=
      (noEndDeref_append _ _).2 ⟨noEndDeref_nodeRemoved s n, ih _⟩
    intro o ho
    rcases List.mem_cons.1 ho with rfl | ho
    · simp
    · exact hcons o ho

theorem noEndDeref_recvRoomUpdate (s : Handler) (w : RoomWire) (n : Node) :
    NoEndDeref (s.recvRoomUpdate w n).2 := by
  have hr := recvRoomUpdate_outcome s w n
  generalize s.recvRoomUpdate w n = r at hr ⊢
  cases hr <;> simp [NoEndDeref]

theorem noEndDeref_recvUserUpdate (s : Handler) (w : UserWire) (n : Node) (now : Int) :
    NoEndDeref (s.recvUserUpdate w n now).2 ↔
      ∀ ui, s.house.userFind (.ofNode n) = some ui → FindsRoom s.house ui (decoded w n now) := by
  cases hf : s.house.userFind (.ofNode n) with
  | none => simp [recvUserUpdate_of_none hf, NoEndDeref]
  | some ui => simp [recvUserUpdate_of_find hf, noEndDeref_userUpdate]

theorem noEndDeref_selfAdded (s : Handler) (n : Node) :
    NoEndDeref (s.selfAdded n).2 ↔
      ∀ ui, s.house.userFind (.ofNode n) = some ui → FindsRoom s.house ui s.selfUser := by
  cases hf : s.house.userFind (.ofNode n) with
  | none => simp [selfAdded_of_none hf, NoEndDeref]
  | some ui => simp [selfAdded_of_find hf, noEndDeref_userUpdate]

theorem noEndDeref_nodeAdded (s : Handler) (n : Node) (now : Int) :
    NoEndDeref (s.nodeAdded n now).2 ↔ RoomLeftKnown s (.nodeAdded n now) := by
  rw [nodeAdded_eq]
  by_cases hb : s.ipBlock.isBlocked n.ip = true
  · simp [RoomLeftKnown, hb, NoEndDeref]
  have hout : NoEndDeref (if s.grpSelf = some n then
      (((s.adapterNodeAdded n now).1.selfAdded n).1,
        (s.adapterNodeAdded n now).2 ++ ((s.adapterNodeAdded n now).1.selfAdded n).2)
      else s.adapterNodeAdded n now).2 ↔ NoEndDeref (s.adapterNodeAdded n now).2 ∧
        (s.grpSelf = some n → NoEndDeref ((s.adapterNodeAdded n now).1.selfAdded n).2) := by
    split <;> simp [*]
  simp only [hb, Bool.false_eq_true, if_false, hout, noEndDeref_selfAdded, RoomLeftKnown,
    true_implies]
  have ha := adapterNodeAdded_outcome s n now
  generalize s.adapterNodeAdded n now = a at ha ⊢
  cases ha with
  | present => simp [NoEndDeref]
  | added hf husers _ =>
    -- A node that has just been added has no room to leave.
    have hfresh : ∀ h, FindsRoom h (User.ofNode n now) s.selfUser := fun _ hl => absurd rfl hl.1
    simp [NoEndDeref, hf, husers, hfresh]

theorem noEndDeref_dataReceived (s : Handler) (p : Payload) (n : Node) (now : Int) :
    NoEndDeref (s.dataReceived p n now).2 ↔ RoomLeftKnown s (.dataReceived p n now) := by
  by_cases hb : s.ipBlock.isBlocked n.ip = true
  · cases p <;> simp [dataReceived, RoomLeftKnown, hb, NoEndDeref]
  cases p with
  | userUpdate w =>
    simpa [dataReceived, RoomLeftKnown, hb] using noEndDeref_recvUserUpdate s w n now
  | roomUpdate w =>
    simpa [dataReceived, RoomLeftKnown, hb] using noEndDeref_recvRoomUpdate s w n
  | userReq =>
    simp only [dataReceived, RoomLeftKnown, hb, recvUserReq, Bool.false_eq_true,
      if_false]
    split <;> simp [NoEndDeref]
  | userData hdr body =>
    simp only [dataReceived, RoomLeftKnown, hb, recvUserData, Bool.false_eq_true,
      if_false]
    cases s.house.userFind (.ofNode n) with
    | none => simp [NoEndDeref]
    | some ui => cases userDataAvailable s.grpMsgBase ui hdr body <;> simp [NoEndDeref]
  | unrecognized _ => simp [dataReceived, RoomLeftKnown, NoEndDeref]
  | malformed => simp [dataReceived, RoomLeftKnown, NoEndDeref]

/-- An event searches in vain for no room exactly when the update in it knows the room left. -/
theorem noEndDeref_step (s : Handler) (e : Event) :
    NoEndDeref (s.step e).2 ↔ RoomLeftKnown s e := by
  cases e with
  | nodeAdded n now => exact noEndDeref_nodeAdded s n now
  | nodeRemoved n => exact iff_of_true (noEndDeref_nodeRemoved s n) trivial
  | dataReceived p n now => exact noEndDeref_dataReceived s p n now
  | updateUser u now => simp [step, updateUser, RoomLeftKnown, NoEndDeref]
  | updateRoom r => simp [step, updateRoom, RoomLeftKnown, NoEndDeref]
  | blockUsers m => exact iff_of_true (noEndDeref_removeNodes m.sequence _ _) trivial
  | selfChanged n => simp [step, RoomLeftKnown, NoEndDeref]

/-- **When a run dereferences `room_end()`.** It never does exactly when each of its user updates
knows the room that it leaves. -/
theorem endDeref_iff_guarded (s : Handler) (es : List Event) :
    (∀ rid, Effect.derefRoomEnd rid ∉ machine.trace s es) ↔ machine.Guarded RoomLeftKnown s es := by
  rw [← machine.forall_trace_iff_guarded noEndDeref_step]
  exact ⟨fun h o ho rid heq => h rid (heq ▸ ho), fun h rid hrid => h _ hrid rid rfl⟩

/-- A host names its room, and the creation of the room is cancelled before it is announced. -/
theorem endDeref_of_cancelled :
    Effect.derefRoomEnd "5:a" ∈ machine.trace (init 29)
      [.nodeAdded ⟨1, 2⟩ 0,
        .dataReceived (.userUpdate { idStr := "a", roomId := "5:a" }) ⟨1, 2⟩ 0,
        .dataReceived (.userUpdate { idStr := "a" }) ⟨1, 2⟩ 0] := by
  decide

end RvHouse.Handler
