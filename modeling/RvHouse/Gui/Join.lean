import RvHouse.Model.House
import RvHouse.Model.Self
import RvHouse.Networking.Worker

/-!
# Answers to join requests

The host decides about a join request in the GUI thread (`handleRoomJoin`) and posts the decision to
the worker, which encodes it. `answered_iff` says which requests are answered: those for the room
that the host is in and hosts. A refusal has no case in the worker's switch, so it is lost:
`not_answered_of_refused` is such a request.
-/

namespace RvHouse

/-- The answers to a join request. -/
inductive Decision where
  | refused
  | password
  | full
  | ack
deriving DecidableEq, Repr

namespace Decision

/-- The message to the worker. -/
def msgId : Decision → MsgId
  | refused => .roomJoinNack
  | password => .roomJoinPass
  | full => .roomJoinFull
  | ack => .roomJoinAck

/-- The response code of the data unit to the joiner. -/
def rspCode : Decision → PduId
  | refused => .roomJoinRefused
  | password => .roomJoinPassword
  | full => .roomJoinFull
  | ack => .roomJoinAck

end Decision

/-- `house_app::_handle_room_join`: the model afterwards and the message to the worker; `none` when
the message has another class or its group is not allowed and the search for the user throws. -/
def handleRoomJoin (self : SelfModel) (hm : ModelHouse) (m : Message) :
    Option (ModelHouse × Message) := do
  let (rid, pass) ← m.body.asRoomJoin
  let r := self.hostingRoom
  if self.user.roomId ≠ r.id ∨ self.user.roomId ≠ rid then
    return (hm, { m with id := .roomJoinNack })
  else if r.password ≠ "" ∧ r.password ≠ pass then
    return (hm, { m with id := .roomJoinPass })
  else if r.maxPlayers ≤ hm.roomSize rid then
    return (hm, { m with id := .roomJoinFull })
  else
    -- The joiner is put into the room to reserve the place; it need not be found.
    let hm ← hm.setRoomId m.senderId m.groupBase rid
    return (hm, { m with id := .roomJoinAck })

/-- The host is in the room that it hosts, and that is the room asked for. -/
def Hosting (self : SelfModel) (rid : String) : Prop :=
  self.user.roomId = self.hostingRoom.id ∧ self.user.roomId = rid

/-- The room has a password, and it is another one. -/
def WrongPassword (self : SelfModel) (pass : String) : Prop :=
  self.hostingRoom.password ≠ "" ∧ self.hostingRoom.password ≠ pass

/-- As many users as the room may hold are in it. -/
def IsFull (self : SelfModel) (hm : ModelHouse) (rid : String) : Prop :=
  self.hostingRoom.maxPlayers ≤ hm.roomSize rid

instance (self : SelfModel) (rid : String) : Decidable (Hosting self rid) :=
  inferInstanceAs (Decidable (_ ∧ _))

instance (self : SelfModel) (pass : String) : Decidable (WrongPassword self pass) :=
  inferInstanceAs (Decidable (_ ∧ _))

instance (self : SelfModel) (hm : ModelHouse) (rid : String) : Decidable (IsFull self hm rid) :=
  inferInstanceAs (Decidable (_ ≤ _))

/-- What the host decides about a request. -/
def decision (self : SelfModel) (hm : ModelHouse) (rid pass : String) : Decision :=
  if ¬ Hosting self rid then .refused
  else if WrongPassword self pass then .password
  else if IsFull self hm rid then .full
  else .ack

theorem decision_eq_refused {self : SelfModel} {hm : ModelHouse} {rid pass : String} :
    decision self hm rid pass = .refused ↔ ¬ Hosting self rid := by
  unfold decision
  constructor
  · intro h
    by_contra hh
    rw [if_neg (not_not.2 hh)] at h
    split at h
    · cases h
    · split at h <;> cases h
  · exact fun hh => if_pos hh

theorem decision_eq_ack {self : SelfModel} {hm : ModelHouse} {rid pass : String} :
    decision self hm rid pass = .ack ↔
      Hosting self rid ∧ ¬ WrongPassword self pass ∧ ¬ IsFull self hm rid := by
  unfold decision
  by_cases hh : Hosting self rid <;> by_cases hw : WrongPassword self pass <;>
    by_cases hf : IsFull self hm rid <;> simp [hh, hw, hf]

/-- The message posted is the request under the id of the decision; only an acknowledgement needs
the model to know the group. -/
theorem handleRoomJoin_ofRoomJoin (self : SelfModel) (hm : ModelHouse) (rid pass : String)
    (uid : UserKey) (seq : UInt32) (base : Int) :
    handleRoomJoin self hm (.ofRoomJoin .roomJoin rid pass uid seq base) =
      (if decision self hm rid pass = .ack then hm.setRoomId uid base rid else some hm).map
        fun hm' => (hm', .ofRoomJoin (decision self hm rid pass).msgId rid pass uid seq base) := by
  have hrefuse : (self.user.roomId ≠ self.hostingRoom.id ∨ self.user.roomId ≠ rid) ↔
      ¬ Hosting self rid := by
    rw [Hosting, not_and_or]
  unfold handleRoomJoin decision
  by_cases hh : Hosting self rid
  · have hh' : ¬ (self.user.roomId ≠ self.hostingRoom.id ∨ self.user.roomId ≠ rid) := by
      rwa [hrefuse, not_not]
    by_cases hw : WrongPassword self pass
    · have hw' := hw
      simp only [WrongPassword] at hw'
      simp [Message.ofRoomJoin, Body.asRoomJoin, Decision.msgId, hh, hh', hw, hw']
    · have hw' := hw
      simp only [WrongPassword] at hw'
      by_cases hf : IsFull self hm rid
      · have hf' := hf
        simp only [IsFull] at hf'
        simp [Message.ofRoomJoin, Body.asRoomJoin, Decision.msgId, hh, hh', hw, hw', hf, hf']
      · have hf' := hf
        simp only [IsFull] at hf'
        cases hset : hm.setRoomId uid base rid <;>
          simp [Message.ofRoomJoin, Body.asRoomJoin, Decision.msgId, hh, hh', hw, hw', hf, hf', hset]
  · have hh' := hrefuse.2 hh
    simp [Message.ofRoomJoin, Body.asRoomJoin, Decision.msgId, hh, hh']

/-! ## What the adapters are told -/

/-- The calls of the adapters that a message to `_handle_room_join` leads to. -/
def joinCalls {α : Type*} (gas : List α) (self : SelfModel) (hm : ModelHouse) (m : Message) :
    List (α × AdapterCall) :=
  match handleRoomJoin self hm m with
  | some (_, smsg) => Worker.adapterCalls gas smsg
  | none => []

/-- Each adapter is called once, with the code of the decision and the sequence of the request. -/
def Answered {α : Type*} (gas : List α) (self : SelfModel) (hm : ModelHouse) (rid pass : String)
    (uid : UserKey) (seq : UInt32) (base : Int) : Prop :=
  joinCalls gas self hm (.ofRoomJoin .roomJoin rid pass uid seq base) =
    gas.map fun a => (a, .joinRsp uid (decision self hm rid pass).rspCode seq)

/-- The worker passes every decision on but a refusal. -/
theorem adapterCalls_decision {α : Type*} (gas : List α) (d : Decision) (rid pass : String)
    (uid : UserKey) (seq : UInt32) (base : Int) :
    Worker.adapterCalls gas (.ofRoomJoin d.msgId rid pass uid seq base) =
      if d = .refused then [] else gas.map fun a => (a, .joinRsp uid d.rspCode seq) := by
  cases d <;>
    simp [Worker.adapterCalls, Worker.handleMessage, Worker.joinRsp, Worker.combine,
      Message.ofRoomJoin, Body.asRoomJoin, Decision.msgId, Decision.rspCode]

theorem joinCalls_of_nil {α : Type*} (self : SelfModel) (hm : ModelHouse) (m : Message) :
    joinCalls ([] : List α) self hm m = [] := by
  unfold joinCalls
  split
  · exact Worker.adapterCalls_of_nil _
  · rfl

/-- A request that passes the checks is answered when the model knows its group. -/
theorem joinCalls_of_ack {α : Type*} (gas : List α) {self : SelfModel} {hm : ModelHouse}
    {rid pass : String} (hack : decision self hm rid pass = .ack) (uid : UserKey) (seq : UInt32)
    (base : Int) :
    joinCalls gas self hm (.ofRoomJoin .roomJoin rid pass uid seq base) =
      if hm.houseFind base = none then []
      else gas.map fun a => (a, .joinRsp uid Decision.ack.rspCode seq) := by
  cases hset : hm.setRoomId uid base rid with
  | none =>
    have hgrp : hm.houseFind base = none := ModelHouse.setRoomId_eq_none.1 hset
    simp [joinCalls, handleRoomJoin_ofRoomJoin, hack, hset, hgrp]
  | some hm' =>
    have hgrp : hm.houseFind base ≠ none := fun h => by
      rw [ModelHouse.setRoomId_eq_none.2 h] at hset
      cases hset
    simp [joinCalls, handleRoomJoin_ofRoomJoin, hack, hset, hgrp, adapterCalls_decision]

/-- Any other request is answered unless it is refused. -/
theorem joinCalls_of_ne_ack {α : Type*} (gas : List α) {self : SelfModel} {hm : ModelHouse}
    {rid pass : String} (hack : decision self hm rid pass ≠ .ack) (uid : UserKey) (seq : UInt32)
    (base : Int) :
    joinCalls gas self hm (.ofRoomJoin .roomJoin rid pass uid seq base) =
      if decision self hm rid pass = .refused then []
      else gas.map fun a => (a, .joinRsp uid (decision self hm rid pass).rspCode seq) := by
  simp [joinCalls, handleRoomJoin_ofRoomJoin, hack, adapterCalls_decision]

/-- **When a join request is answered.** The adapters are called, each once and with the decision,
exactly when the host is in the room asked for and hosts it; to acknowledge the request the model
must also know its group. -/
theorem answered_iff {α : Type*} (gas : List α) (self : SelfModel) (hm : ModelHouse)
    (rid pass : String) (uid : UserKey) (seq : UInt32) (base : Int) :
    Answered gas self hm rid pass uid seq base ↔
      gas = [] ∨ Hosting self rid ∧
        (hm.houseFind base ≠ none ∨ WrongPassword self pass ∨ IsFull self hm rid) := by
  unfold Answered
  by_cases hgas : gas = []
  · subst hgas
    simp [joinCalls_of_nil]
  have hmap : ∀ c : AdapterCall, gas.map (fun a => (a, c)) ≠ [] := by simp [hgas]
  rw [or_iff_right hgas]
  by_cases hack : decision self hm rid pass = .ack
  · obtain ⟨hh, hw, hf⟩ := decision_eq_ack.1 hack
    rw [joinCalls_of_ack gas hack, hack]
    by_cases hgrp : hm.houseFind base = none
    · rw [if_pos hgrp]
      exact iff_of_false (hmap _).symm (by simp [hgrp, hw, hf])
    · rw [if_neg hgrp]
      exact iff_of_true rfl ⟨hh, .inl hgrp⟩
  · rw [joinCalls_of_ne_ack gas hack]
    by_cases hh : Hosting self rid
    · have hother : WrongPassword self pass ∨ IsFull self hm rid := by
        by_contra hnot
        rw [not_or] at hnot
        exact hack (decision_eq_ack.2 ⟨hh, hnot.1, hnot.2⟩)
      rw [if_neg fun hr => decision_eq_refused.1 hr hh]
      exact iff_of_true rfl ⟨hh, .inr hother⟩
    · rw [if_pos (decision_eq_refused.2 hh)]
      exact iff_of_false (hmap _).symm fun h => hh h.1

/-- A client that hosts nothing is asked to let somebody in: nobody is told that it refused. -/
theorem not_answered_of_refused :
    ¬ Answered [()] {} {} "5:a" "" (.ofIdStr "b") 1 29 := by
  unfold Answered
  decide

end RvHouse
