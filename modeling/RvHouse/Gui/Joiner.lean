import RvHouse.Gui.Client

/-!
# Joining the right room

A client asks to join one room at a time, may give up, and takes the first acknowledgement that
arrives while it waits, whoever sent it and whichever attempt it answers. `rightRoom_iff_guarded`
says in which runs an acknowledgement puts the client only into the room that its sender owns and
that it answers for: those in which every acknowledgement that meets a waiting client is from the
owner of the room it waits for, and answers no attempt to join another room (`Answers`).
`not_rightRoom_of_late_ack` is a run in which a late acknowledgement puts the client into a room
whose host was never heard of.
-/

namespace RvHouse

namespace Client

/-! ## Acknowledgements -/

/-- The sender of the message owns the room, as `window::room::_handle_room_launch` checks it. -/
def IsOwner (hm : ModelHouse) (rid : String) (m : Message) : Prop :=
  ∃ ui ∈ hm.userFindIn m.senderId m.groupBase, ∃ ri ∈ hm.roomFindIn rid m.groupBase,
    ri.ownerId.eqv ui.id = true

/-- The acknowledgement answers for the room: its sender owns the room, and it answers no attempt to
join another one. -/
def AnswersFor (s : Client) (rid : String) (m : Message) : Prop :=
  IsOwner s.house rid m ∧ ∀ a ∈ s.attempts, a.seq = m.sequence → a.rid = rid

/-- An acknowledgement puts the client into a room only if the client waits for the room and the
acknowledgement answers for it. -/
def RightRoom (s : Client) : ClientEvent → Prop
  | .message m => ∀ rid, m.id = .roomJoinAck → s.self.user.roomId ≠ rid →
      (s.handleMessage m).1.self.user.roomId = rid →
      s.self.joiningRoom = rid ∧ s.AnswersFor rid m
  | _ => True

/-- An acknowledgement that is not a duplicate meets a waiting client only if it answers for the
room that the client waits for. -/
def Answers (s : Client) : ClientEvent → Prop
  | .message m => m.id = .roomJoinAck → (filterMessage m s.filterMap).1 = false →
      s.self.joiningRoom ≠ "" → s.AnswersFor s.self.joiningRoom m
  | _ => True

/-- What an acknowledgement does to the room of the client. -/
theorem roomId_handleMessage_ack {s : Client} {m : Message} (hid : m.id = .roomJoinAck) :
    (s.handleMessage m).1.self.user.roomId =
      if (filterMessage m s.filterMap).1 = false ∧ s.self.joiningRoom ≠ "" then s.self.joiningRoom
      else s.self.user.roomId := by
  unfold handleMessage
  rw [ModelHouse.handleModelUpdate_other (by simp [hid])]
  cases hdup : (filterMessage m s.filterMap).1 with
  | true => simp [hdup]
  | false =>
    by_cases hwait : s.self.joiningRoom = ""
    · simp [hdup, hid, handleRoomJoinAck, hwait]
    · simp [hdup, hid, handleRoomJoinAck, hwait, SelfModel.userAsMessage, SelfModel.sequence]

/-! ## Runs -/

/-- A client that waits is in no room. -/
def Outside (s : Client) : Prop := s.self.joiningRoom ≠ "" → s.self.user.roomId = ""

theorem outside_init (u : User) : (init u).Outside := fun _ => rfl

theorem outside_request {s : Client} (hs : s.self.user.roomId = "") (r : Room) :
    (s.request r).1.Outside := fun _ => hs

theorem outside_roomJoinSelected {s : Client} (h : s.Outside) (rid : String)
    (pass : Option String) : (s.roomJoinSelected rid pass).1.Outside := by
  unfold roomJoinSelected
  by_cases hroom : s.self.user.roomId = ""
  · simp only [hroom, ne_eq, not_true_eq_false, if_false]
    split
    · exact h
    · split
      · exact h
      · split
        · exact h
        · split
          · split
            · exact h
            · exact outside_request hroom _
          · exact outside_request hroom _
  · simpa [hroom] using h

theorem outside_handleRoomJoinAck {s : SelfModel} (h : s.joiningRoom ≠ "" → s.user.roomId = "")
    (m : Message) : (handleRoomJoinAck s m).1.joiningRoom ≠ "" →
      (handleRoomJoinAck s m).1.user.roomId = "" := by
  unfold handleRoomJoinAck
  split
  · exact h
  · split <;> first | exact h | exact fun hne => absurd rfl hne

theorem outside_handleMessage {s : Client} (h : s.Outside) (m : Message) :
    (s.handleMessage m).1.Outside := by
  simp only [handleMessage]
  split
  · exact h
  · split
    · exact h
    · split
      · split <;> exact h
      · exact outside_handleRoomJoinAck h m
      · exact outside_handleRoomJoinAck h m
      · exact outside_handleRoomJoinAck h m
      · exact outside_handleRoomJoinAck h m
      · exact h

theorem outside_step {s : Client} (h : s.Outside) (e : ClientEvent) : (s.step e).1.Outside := by
  cases e with
  | roomJoinSelected rid pass => exact outside_roomJoinSelected h rid pass
  | interrupt =>
    simp only [step, interrupt]
    split
    · exact fun hne => absurd rfl hne
    · exact h
  | message m => exact outside_handleMessage h m
  | closeRoom => exact fun _ => rfl
  | draw => exact h

/-- An acknowledgement leads to the right room exactly when it answers for the room that the client
waits for. -/
theorem rightRoom_iff_answers {s : Client} (h : s.Outside) (e : ClientEvent) :
    s.RightRoom e ↔ s.Answers e := by
  cases e with
  | message m =>
    constructor
    · intro hright hid hnew hwait
      have hroom := (roomId_handleMessage_ack (s := s) hid).trans (if_pos ⟨hnew, hwait⟩)
      have hne : s.self.user.roomId ≠ s.self.joiningRoom := by
        rw [h hwait]
        exact hwait.symm
      exact (hright s.self.joiningRoom hid hne hroom).2
    · intro hans rid hid hne hroom
      rw [roomId_handleMessage_ack hid] at hroom
      split at hroom
      · rename_i hcond
        subst hroom
        exact ⟨rfl, hans hid hcond.1 hcond.2⟩
      · exact absurd hroom hne
  | _ => exact Iff.rfl

/-- **When a client gets into the right room.** At every event of a run an acknowledgement puts the
client only into the room it waits for, from its owner and not in answer to an attempt to join
another room, exactly when no other acknowledgement meets the client while it waits. -/
theorem rightRoom_iff_guarded (u : User) (es : List ClientEvent) :
    machine.Guarded RightRoom (init u) es ↔ machine.Guarded Answers (init u) es := by
  refine machine.guarded_congr fun p _ e => ?_
  have hout : (machine.exec (init u) p).Outside :=
    machine.invariant_all (I := Outside) (fun s e h => outside_step h e) (outside_init u) p
  exact rightRoom_iff_answers hout e

/-- Two hosts open a room each. The client asks the first, gives up and asks the second; then the
first acknowledges. -/
def lateAck : List ClientEvent :=
  [.message (.ofUser .user { id := ⟨some ⟨1, 2⟩, "a"⟩, roomId := "5:a" } 0 29),
    .message (.ofRoom .room { id := "5:a", ownerId := ⟨some ⟨1, 2⟩, "a"⟩ } ⟨some ⟨1, 2⟩, "a"⟩ 0 29),
    .message (.ofUser .user { id := ⟨some ⟨3, 4⟩, "b"⟩, roomId := "5:b" } 0 29),
    .message (.ofRoom .room { id := "5:b", ownerId := ⟨some ⟨3, 4⟩, "b"⟩ } ⟨some ⟨3, 4⟩, "b"⟩ 0 29),
    .roomJoinSelected "5:a" none, .interrupt, .roomJoinSelected "5:b" none,
    .message (.ofGrouped .roomJoinAck ⟨some ⟨1, 2⟩, "a"⟩ 1 29)]

/-- The client is in the second room, and the second host never answered. -/
theorem not_rightRoom_of_late_ack : ¬ machine.Guarded RightRoom (init {}) lateAck := by
  rintro ⟨-, -, -, -, -, -, -, hlast, -⟩
  have hans := (hlast "5:b" rfl (by decide) (by decide)).2
  exact absurd (hans.2 ⟨"5:a", 1⟩ (by decide) rfl) (by decide)

end Client

end RvHouse
