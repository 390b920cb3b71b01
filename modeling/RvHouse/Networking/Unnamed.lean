import RvHouse.Networking.HandlerSpec

/-!
# Updates without an id

The adapter means to ignore updates without an id. For rooms the id is compared as a string and the
check holds; for users it is a key, and no key equals the key without a node that it is compared
with, so the update of a user is taken over and posted like any other.
`unnamed_ignored_iff` says which updates without an id are ignored, and `not_ignored_of_unnamed` is
one that is not.
-/

namespace RvHouse

open Handler

/-- An update whose id is empty, as the receiver decodes it. -/
def Payload.Unnamed : Payload → Prop
  | .userUpdate w => w.idStr = ""
  | .roomUpdate w => w.id = ""
  | _ => False

namespace Handler

/-- The house stays as it is, and nothing is posted to the GUI. -/
def Ignored (s : Handler) (r : Handler × List Effect) : Prop :=
  r.1.house = s.house ∧ posted r.2 = []

theorem ignored_self (s : Handler) : s.Ignored (s, []) := ⟨rfl, rfl⟩

theorem recvRoomUpdate_of_unnamed (s : Handler) {w : RoomWire} (hw : w.id = "") (n : Node) :
    s.recvRoomUpdate w n = (s, []) := by
  simp [recvRoomUpdate, hw]

/-- An update of a user that is in the house is posted, whatever its id. -/
theorem posted_recvUserUpdate {s : Handler} {n : Node}
    (hknown : (s.house.userFind (.ofNode n)).isSome = true) (w : UserWire) (now : Int) :
    posted (s.recvUserUpdate w n now).2 ≠ [] := by
  obtain ⟨ui, hui⟩ := Option.isSome_iff_exists.1 hknown
  rw [recvUserUpdate_of_find hui]
  simp [RvHouse.userUpdate, posted, Effect.message?]

/-- **Updates without an id.** Such an update, when it is not of an unknown user, is ignored if it
is of a room, or if its sender is blocked and it does not reach the adapter; else it is not. -/
theorem unnamed_ignored_iff (s : Handler) (p : Payload) (n : Node) (now : Int) (hp : p.Unnamed)
    (hknown : ∀ w, p = .userUpdate w → (s.house.userFind (.ofNode n)).isSome = true) :
    s.Ignored (s.dataReceived p n now) ↔
      (∃ w, p = .roomUpdate w) ∨ s.ipBlock.isBlocked n.ip = true := by
  unfold dataReceived
  cases hblock : s.ipBlock.isBlocked n.ip with
  | true => simp [ignored_self]
  | false =>
    cases p with
    | roomUpdate w =>
      simp only [Bool.false_eq_true, if_false, recvRoomUpdate_of_unnamed s hp]
      exact iff_of_true s.ignored_self (.inl ⟨w, rfl⟩)
    | userUpdate w =>
      simp only [Bool.false_eq_true, if_false, or_false]
      refine iff_of_false (fun h => ?_) (fun ⟨_, hw⟩ => by cases hw)
      exact posted_recvUserUpdate (hknown w rfl) w now h.2
    | _ => exact hp.elim

/-- The room of a node that has come, and then the node itself, without an id. -/
theorem unnamed_ignored_iff_room :
    ((machine.exec (init 29) [.nodeAdded ⟨1, 2⟩ 0]).Ignored
      ((machine.exec (init 29) [.nodeAdded ⟨1, 2⟩ 0]).dataReceived (.roomUpdate {}) ⟨1, 2⟩ 0)) :=
  (unnamed_ignored_iff (machine.exec (init 29) [.nodeAdded ⟨1, 2⟩ 0]) (.roomUpdate {}) ⟨1, 2⟩ 0 rfl
    (fun _ h => Payload.noConfusion h)).2 (.inl ⟨_, rfl⟩)

/-- A node comes and announces itself with a login but no id string: the login is taken over, and
the update posted. -/
theorem not_ignored_of_unnamed :
    let s := machine.exec (init 29) [.nodeAdded ⟨1, 2⟩ 0]
    let r := s.dataReceived (.userUpdate { loginId := "x" }) ⟨1, 2⟩ 0
    (s.house.userFind (.ofNode ⟨1, 2⟩)).map (·.loginId) = some "" ∧
      (r.1.house.userFind (.ofNode ⟨1, 2⟩)).map (·.loginId) = some "x" ∧
      (posted r.2).map (·.id) = [.user] := by
  decide

end Handler

end RvHouse
