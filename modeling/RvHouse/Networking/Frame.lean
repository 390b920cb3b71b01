import RvHouse.Networking.HandlerSpec

/-!
# What a remote node can touch

`remote_frame`: whatever a node sends, and when it goes, the entries of the other users stay as they
are, so do the rooms whose owner has another node, and every message to the GUI names the node as
its sender. Each path has its own reason: the users are found by the node of the sender, a room is
closed only when the sender's entry hosts it (`roomFind_close_of_owner`), and a room that is there
is overwritten only by its owner (`RoomOutcome.put`).
-/

namespace RvHouse.Handler

/-- A reaction to the node `n` that leaves the users and the rooms of other nodes alone. -/
structure Frame (s : Handler) (n : Node) (r : Handler × List Effect) : Prop where
  users : ∀ k : UserKey, k.node ≠ some n → r.1.house.userFind k = s.house.userFind k
  rooms : ∀ id room m, s.house.roomFind id = some room → room.ownerId.node = some m → m ≠ n →
    r.1.house.roomFind id = some room
  senders : ∀ m ∈ posted r.2, m.senderId.node = some n

/-- To close the room of a user spares the rooms of other owners. -/
theorem roomFind_close_of_owner {h : House} {u : User} {id : String} {room : Room} {n m : Node}
    (hu : u.id.node = some n) (hr : h.roomFind id = some room) (ho : room.ownerId.node = some m)
    (hm : m ≠ n) : (h.close u).roomFind id = some room := by
  rw [House.roomFind_close, if_neg, hr]
  rintro ⟨hh, rfl⟩
  have howner := (UserKey.eqv_of_node hu).1 ((House.hosts_iff_of_find hr).1 hh).2
  exact hm (Option.some.inj (ho.symm.trans howner))

theorem senders_userUpdate {h : House} {base : Int} {old upd : User} {m : Message}
    (hm : m ∈ posted (userUpdate base h old upd).out) : m.senderId.node = old.id.node := by
  rcases mem_posted_userUpdate hm with ⟨r, k, hk, rfl⟩ | rfl | rfl
  · exact hk
  · rfl
  · rfl

theorem frame_rfl (s : Handler) (n : Node) : Frame s n (s, []) :=
  ⟨fun _ _ => rfl, fun _ _ _ hr _ _ => hr, by simp⟩

theorem frame_recvUserReq (s : Handler) (n : Node) (now : Int) :
    Frame s n (s.recvUserReq n now) where
  users _ _ := rfl
  rooms _ _ _ hr _ _ := hr
  senders m hm := by
    simp only [recvUserReq] at hm
    split at hm <;> simp at hm

theorem frame_recvUserUpdate (s : Handler) (w : UserWire) (n : Node) (now : Int) :
    Frame s n (s.recvUserUpdate w n now) := by
  cases hf : s.house.userFind (.ofNode n) with
  | none =>
    rw [recvUserUpdate_of_none hf]
    exact frame_rfl s n
  | some ui =>
    have hn : ui.id.node = some n := House.node_of_userFind hf
    rw [recvUserUpdate_of_find hf]
    refine ⟨fun k hk => ?_, fun id room m hr ho hm => ?_, fun m hm => ?_⟩
    · rw [House.userFind_userStore, if_neg, userUpdate_house]
      · split <;> simp
      · rw [updated_node, hn]
        exact hk ∘ Eq.symm
    · rw [House.roomFind_userStore, userUpdate_house]
      split
      · exact roomFind_close_of_owner hn hr ho hm
      · exact hr
    · exact (senders_userUpdate hm).trans hn

theorem frame_recvRoomUpdate (s : Handler) (w : RoomWire) (n : Node) :
    Frame s n (s.recvRoomUpdate w n) := by
  have hr := recvRoomUpdate_outcome s w n
  generalize s.recvRoomUpdate w n = r at hr ⊢
  cases hr with
  | ignored => exact frame_rfl s n
  | put hid hf howner hput =>
    refine ⟨fun k _ => hput.users k, fun id room m hr ho hm => ?_, fun m hm => ?_⟩
    · refine (hput.rooms id).trans ?_
      rw [if_neg, hr]
      -- The room in this place would be one of `n` itself.
      rintro rfl
      exact hm (Option.some.inj (ho.symm.trans (howner room hr)))
    · rw [List.mem_singleton.1 hm]
      exact House.node_of_userFind hf
  | orphan hid hf hnone hput =>
    refine ⟨fun k _ => hput.users k, fun id room m hr ho hm => ?_, by simp⟩
    refine (hput.rooms id).trans ?_
    rw [if_neg, hr]
    rintro rfl
    simp [hnone] at hr

theorem frame_recvUserData (s : Handler) (hdr : PduHeader) (body : PduBody) (n : Node) :
    Frame s n (s.recvUserData hdr body n) := by
  unfold recvUserData
  cases hf : s.house.userFind (.ofNode n) with
  | none => exact frame_rfl s n
  | some ui =>
    refine ⟨fun _ _ => rfl, fun _ _ _ hr _ _ => hr, fun m hm => ?_⟩
    have hm' : userDataAvailable s.grpMsgBase ui hdr body = some m := by
      simpa [mem_posted] using hm
    rw [senderId_userDataAvailable hm']
    exact House.node_of_userFind hf

theorem frame_nodeRemoved (s : Handler) (n : Node) : Frame s n (s.nodeRemoved n) := by
  cases hf : s.house.userFind (.ofNode n) with
  | none =>
    rw [nodeRemoved_of_none hf]
    exact frame_rfl s n
  | some ui =>
    have hn : ui.id.node = some n := House.node_of_userFind hf
    rw [nodeRemoved_of_find hf]
    refine ⟨fun k hk => ?_, fun id room m hr ho hm => ?_, fun m hm => ?_⟩
    · rw [House.userFind_userErase, if_neg, House.userFind_close]
      rw [hn]
      exact hk ∘ Eq.symm
    · rw [House.roomFind_userErase]
      exact roomFind_close_of_owner hn hr ho hm
    · rw [posted_map_post] at hm
      rcases List.mem_append.1 hm with hm | hm
      · obtain ⟨r, rfl⟩ := House.mem_closeMsgs hm
        exact hn
      · rw [List.mem_singleton.1 hm]
        exact hn

/-- **The frame of remote events.** -/
theorem remote_frame (s : Handler) (n : Node) :
    (∀ p now, Frame s n (s.dataReceived p n now)) ∧ Frame s n (s.nodeRemoved n) := by
  refine ⟨fun p now => ?_, frame_nodeRemoved s n⟩
  unfold dataReceived
  split
  · exact frame_rfl s n
  cases p with
  | userReq => exact frame_recvUserReq s n now
  | userUpdate w => exact frame_recvUserUpdate s w n now
  | userData hdr body => exact frame_recvUserData s hdr body n
  | roomUpdate w => exact frame_recvRoomUpdate s w n
  | unrecognized _ => exact frame_rfl s n
  | malformed => exact frame_rfl s n

end RvHouse.Handler
