import RvHouse.Networking.Frame

/-!
# Where the entries of a house come from

A user entry is what an earlier state left, or a new node without data, or the last user update of
its node, or the client's own data (`EntryOf`); a room is what an earlier state left or a room
update (`RoomOf`). One event of the handler leaves no other entries: `entry_step`, `room_step`. What
an event does to the client's own data is `profile_selfUser_step`.

A `Profile` is what of a user is for the eyes of others, apart from the name.
-/

namespace RvHouse

/-- The data of a user that others are shown. -/
structure Profile where
  roomId : String := ""
  loginId : String := ""
  validation : String := ""
  status : Status := .chatting
  statusMsg : String := ""
  fields : Int := 0
deriving DecidableEq, Repr

def User.profile (u : User) : Profile :=
  ⟨u.roomId, u.loginId, u.validation, u.status, u.statusMsg, u.fields⟩

def UserWire.profile (w : UserWire) : Profile :=
  ⟨w.roomId, w.loginId, w.validation, w.status, w.statusMsg, w.fields⟩

@[simp] theorem User.profile_ofNode (n : Node) (now : Int) : (User.ofNode n now).profile = {} := rfl

@[simp] theorem User.profile_save (u : User) (now : Int) : (u.save now).1.profile = u.profile := rfl

@[simp] theorem User.profile_save_wire (u : User) (now : Int) :
    (u.save now).2.profile = u.profile := rfl

@[simp] theorem User.profile_assign (u o : User) : (u.assign o).profile = o.profile := rfl

namespace Handler

@[simp] theorem profile_updated (old upd : User) : (updated old upd).profile = upd.profile := rfl

@[simp] theorem profile_selfUpdated (old upd : User) :
    (selfUpdated old upd).profile = upd.profile := rfl

@[simp] theorem profile_decoded (w : UserWire) (n : Node) (now : Int) :
    (decoded w n now).profile = w.profile := rfl

theorem idStr_updated (old upd : User) :
    (updated old upd).id.idStr = if upd.id.idStr = "" then old.id.idStr else upd.id.idStr := by
  rw [updated_id]
  split <;> rfl

@[simp] theorem idStr_selfUpdated (old upd : User) :
    (selfUpdated old upd).id.idStr = upd.id.idStr := rfl

/-! ## Users -/

/-- Where the entry of the node `a` after an event may come from. -/
inductive EntryOf (s : Handler) (a : Node) : Event → User → Prop where
  | kept {e u} (hu : s.house.userFind (.ofNode a) = some u) : EntryOf s a e u
  | added {now} (hf : s.house.userFind (.ofNode a) = none) :
    EntryOf s a (.nodeAdded a now) (User.ofNode a now)
  | updated {w now u} (hu : s.house.userFind (.ofNode a) = some u)
      (hb : s.ipBlock.isBlocked a.ip = false) :
    EntryOf s a (.dataReceived (.userUpdate w) a now) (updated u (decoded w a now))
  /-- The client itself. -/
  | self {now u} (hself : s.grpSelf = some a) :
    EntryOf s a (.nodeAdded a now) (selfUpdated u s.selfUser)

variable {s : Handler} {a : Node} {u' : User}

theorem eq_of_userFind_ofNode {h : House} {u : User} {n : Node} (hu : u.id.node = some n)
    (hf : (h.userStore u).userFind (.ofNode n) = some u') : u' = u := by
  rw [House.userFind_userStore, if_pos (by simpa using hu)] at hf
  obtain ⟨-, -, h⟩ := Option.map_eq_some_iff.1 hf
  exact h.symm

/-- The update of the own entry. -/
theorem userFind_selfAdded {n : Node}
    (h : (s.selfAdded n).1.house.userFind (.ofNode a) = some u') :
    s.house.userFind (.ofNode a) = some u' ∨ a = n ∧ ∃ u, u' = selfUpdated u s.selfUser := by
  cases hf : s.house.userFind (.ofNode n) with
  | none =>
    rw [selfAdded_of_none hf] at h
    exact .inl h
  | some ui =>
    rw [selfAdded_of_find hf] at h
    have hn : (selfUpdated ui s.selfUser).id.node = some n := House.node_of_userFind hf
    by_cases han : a = n
    · subst han
      exact .inr ⟨rfl, ui, eq_of_userFind_ofNode hn h⟩
    · simp only at h
      rw [House.userFind_userStore, hn, userFind_userUpdate_house, if_neg] at h
      · exact .inl h
      · simpa using Ne.symm han

theorem entry_nodeAdded {n : Node} {now : Int}
    (h : (s.nodeAdded n now).1.house.userFind (.ofNode a) = some u') :
    EntryOf s a (.nodeAdded n now) u' := by
  have hadd {u : User} (h : (s.adapterNodeAdded n now).1.house.userFind (.ofNode a) = some u) :
      EntryOf s a (.nodeAdded n now) u := by
    have ha := adapterNodeAdded_outcome s n now
    generalize s.adapterNodeAdded n now = r at ha h
    cases ha with
    | present => exact .kept h
    | added hf husers =>
      rw [husers] at h
      split at h
      · rename_i han
        obtain rfl : a = n := by simpa using han
        cases h
        exact .added hf
      · exact .kept h
  have hgrp := grpSelf_adapterNodeAdded s n now
  have hself : (s.adapterNodeAdded n now).1.selfUser = s.selfUser := by
    simp only [adapterNodeAdded]
    split <;> rfl
  rw [nodeAdded_eq] at h
  split at h
  · exact .kept h
  · split at h
    · rename_i hn
      rcases userFind_selfAdded h with h | ⟨rfl, u, rfl⟩
      · exact hadd h
      · rw [hself]
        exact .self hn
    · exact hadd h

theorem entry_recvUserUpdate {w : UserWire} {n : Node} {now : Int}
    (hb : s.ipBlock.isBlocked n.ip = false)
    (h : (s.recvUserUpdate w n now).1.house.userFind (.ofNode a) = some u') :
    EntryOf s a (.dataReceived (.userUpdate w) n now) u' := by
  by_cases han : a = n
  · subst han
    cases hf : s.house.userFind (.ofNode a) with
    | none =>
      rw [recvUserUpdate_of_none hf, hf] at h
      cases h
    | some ui =>
      have hn : (updated ui (decoded w a now)).id.node = some a := House.node_of_userFind hf
      rw [recvUserUpdate_of_find hf] at h
      obtain rfl := eq_of_userFind_ofNode hn h
      exact .updated hf hb
  · rw [(frame_recvUserUpdate s w n now).users _ (by simpa using han)] at h
    exact .kept h

theorem entry_removeNodes {seq : UInt32} {ns : List Node}
    (h : (removeNodes seq s ns).1.house.userFind (.ofNode a) = some u') :
    s.house.userFind (.ofNode a) = some u' := by
  induction ns generalizing s with
  | nil => exact h
  | cons n ns ih =>
    have hrest : (removeNodes seq (s.nodeRemoved n).1 ns).1.house.userFind (.ofNode a) = some u' := h
    have hn := ih hrest
    rw [userFind_nodeRemoved] at hn
    split at hn
    · cases hn
    · exact hn

/-- **Where the entry of a node comes from.** -/
theorem entry_step {e : Event} (h : (s.step e).1.house.userFind (.ofNode a) = some u') :
    EntryOf s a e u' := by
  cases e with
  | nodeAdded n now => exact entry_nodeAdded h
  | nodeRemoved n =>
    simp only [step] at h
    rw [userFind_nodeRemoved] at h
    split at h
    · cases h
    · exact .kept h
  | dataReceived p n now =>
    simp only [step, dataReceived] at h
    split at h
    · exact .kept h
    · rename_i hb
      cases p with
      | userReq => exact .kept h
      | userUpdate w => exact entry_recvUserUpdate (by simpa using hb) h
      | userData hdr body =>
        have hsame : (s.recvUserData hdr body n).1 = s := by
          unfold recvUserData
          split <;> rfl
        simp only [hsame] at h
        exact .kept h
      | roomUpdate w =>
        have hr := recvRoomUpdate_outcome s w n
        simp only at h
        generalize s.recvRoomUpdate w n = r at hr h
        cases hr with
        | ignored => exact .kept h
        | put _ _ _ hput => exact .kept ((hput.users _).symm.trans h)
        | orphan _ _ _ hput => exact .kept ((hput.users _).symm.trans h)
      | unrecognized => exact .kept h
      | malformed => exact .kept h
  | updateUser => exact .kept h
  | updateRoom => exact .kept h
  | blockUsers m =>
    have hold := entry_removeNodes (s := { s with ipBlock := s.ipBlock.handleMessage m }) h
    exact .kept hold
  | selfChanged => exact .kept h

/-! ## Rooms -/

/-- Where the room with an id after an event may come from. -/
inductive RoomOf (s : Handler) (id : String) : Event → Room → Prop where
  | kept {e r} (hr : s.house.roomFind id = some r) : RoomOf s id e r
  | announced {w n now ui} (hid : w.id = id) (hne : id ≠ "")
      (hu : s.house.userFind (.ofNode n) = some ui) :
    RoomOf s id (.dataReceived (.roomUpdate w) n now) (announced w ui)
  | orphan {w n now} (hid : w.id = id) (hne : id ≠ "")
      (hu : s.house.userFind (.ofNode n) = none) :
    RoomOf s id (.dataReceived (.roomUpdate w) n now) w.toRoom

variable {id : String} {r : Room}

theorem roomFind_of_userUpdate {base : Int} {h : House} {old upd : User}
    (hr : (userUpdate base h old upd).house.roomFind id = some r) : h.roomFind id = some r := by
  rw [userUpdate_house] at hr
  split at hr
  · exact House.roomFind_of_close hr
  · exact hr

theorem roomFind_of_nodeAdded {n : Node} {now : Int}
    (hr : (s.nodeAdded n now).1.house.roomFind id = some r) : s.house.roomFind id = some r := by
  have hadd (hr : (s.adapterNodeAdded n now).1.house.roomFind id = some r) :
      s.house.roomFind id = some r := by
    have ha := adapterNodeAdded_outcome s n now
    generalize s.adapterNodeAdded n now = a at ha hr
    cases ha with
    | present => exact hr
    | added _ _ hrooms => exact (hrooms id).symm.trans hr
  rw [nodeAdded_eq] at hr
  split at hr
  · exact hr
  · split at hr
    · cases hf : (s.adapterNodeAdded n now).1.house.userFind (.ofNode n) with
      | none =>
        simp only [selfAdded_of_none hf] at hr
        exact hadd hr
      | some ui =>
        simp only [selfAdded_of_find hf, House.roomFind_userStore] at hr
        exact hadd (roomFind_of_userUpdate hr)
    · exact hadd hr

theorem roomFind_of_removeNodes {seq : UInt32} {ns : List Node}
    (hr : (removeNodes seq s ns).1.house.roomFind id = some r) : s.house.roomFind id = some r := by
  induction ns generalizing s with
  | nil => exact hr
  | cons n ns ih =>
    have hrest : (removeNodes seq (s.nodeRemoved n).1 ns).1.house.roomFind id = some r := hr
    exact (roomFind_nodeRemoved.1 (ih hrest)).1

theorem room_recvRoomUpdate {w : RoomWire} {n : Node} {now : Int}
    (hr : (s.recvRoomUpdate w n).1.house.roomFind id = some r) :
    RoomOf s id (.dataReceived (.roomUpdate w) n now) r := by
  have hout := recvRoomUpdate_outcome s w n
  generalize s.recvRoomUpdate w n = out at hout hr
  cases hout with
  | ignored => exact .kept hr
  | put hne hu _ hput =>
    rw [hput.rooms] at hr
    split at hr
    · rename_i hid
      obtain rfl : w.id = id := hid
      cases hr
      exact .announced rfl hne hu
    · exact .kept hr
  | orphan hne hu _ hput =>
    rw [hput.rooms] at hr
    split at hr
    · rename_i hid
      obtain rfl : w.id = id := hid
      cases hr
      exact .orphan rfl hne hu
    · exact .kept hr

/-- **Where a room comes from.** -/
theorem room_step {e : Event} (hr : (s.step e).1.house.roomFind id = some r) :
    RoomOf s id e r := by
  cases e with
  | nodeAdded n now => exact .kept (roomFind_of_nodeAdded hr)
  | nodeRemoved n => exact .kept (roomFind_nodeRemoved.1 hr).1
  | dataReceived p n now =>
    simp only [step, dataReceived] at hr
    split at hr
    · exact .kept hr
    cases p with
    | userReq => exact .kept hr
    | userUpdate w =>
      cases hf : s.house.userFind (.ofNode n) with
      | none =>
        simp only [recvUserUpdate_of_none hf] at hr
        exact .kept hr
      | some ui =>
        simp only [recvUserUpdate_of_find hf, House.roomFind_userStore] at hr
        exact .kept (roomFind_of_userUpdate hr)
    | userData hdr body =>
      have hsame : (s.recvUserData hdr body n).1 = s := by
        unfold recvUserData
        split <;> rfl
      simp only [hsame] at hr
      exact .kept hr
    | roomUpdate w => exact room_recvRoomUpdate hr
    | unrecognized => exact .kept hr
    | malformed => exact .kept hr
  | updateUser => exact .kept hr
  | updateRoom => exact .kept hr
  | blockUsers m =>
    have hold := roomFind_of_removeNodes (s := { s with ipBlock := s.ipBlock.handleMessage m }) hr
    exact .kept hold
  | selfChanged => exact .kept hr

/-! ## The client itself -/

/-- What the client is to others, and what it knows of itself, stays as it is. -/
structure SelfKept (s s' : Handler) : Prop where
  profile : s'.selfUser.profile = s.selfUser.profile
  idStr : s'.selfUser.id.idStr = s.selfUser.id.idStr
  selfRoom : s'.selfRoom = s.selfRoom
  grpSelf : s'.grpSelf = s.grpSelf
  ipBlock : s'.ipBlock = s.ipBlock

theorem SelfKept.rfl (s : Handler) : SelfKept s s := by
  constructor <;> exact Eq.refl _

theorem SelfKept.trans {s s' s'' : Handler} (h : SelfKept s s') (h' : SelfKept s' s'') :
    SelfKept s s'' where
  profile := h'.profile.trans h.profile
  idStr := h'.idStr.trans h.idStr
  selfRoom := h'.selfRoom.trans h.selfRoom
  grpSelf := h'.grpSelf.trans h.grpSelf
  ipBlock := h'.ipBlock.trans h.ipBlock

theorem selfKept_nodeRemoved (s : Handler) (n : Node) : SelfKept s (s.nodeRemoved n).1 := by
  cases hf : s.house.userFind (.ofNode n) with
  | none => simpa only [nodeRemoved_of_none hf] using SelfKept.rfl s
  | some ui =>
    rw [nodeRemoved_of_find hf]
    constructor <;> rfl

theorem selfKept_removeNodes (seq : UInt32) (s : Handler) (ns : List Node) :
    SelfKept s (removeNodes seq s ns).1 := by
  induction ns generalizing s with
  | nil => exact .rfl s
  | cons n ns ih => exact (selfKept_nodeRemoved s n).trans (ih (s.nodeRemoved n).1)

theorem selfKept_nodeAdded (s : Handler) (n : Node) (now : Int) :
    SelfKept s (s.nodeAdded n now).1 := by
  have hadd : SelfKept s (s.adapterNodeAdded n now).1 := by
    simp only [adapterNodeAdded]
    split
    · exact .rfl s
    · constructor <;> rfl
  have hself (s : Handler) : SelfKept s (s.selfAdded n).1 := by
    cases hf : s.house.userFind (.ofNode n) with
    | none => simpa only [selfAdded_of_none hf] using SelfKept.rfl s
    | some ui =>
      rw [selfAdded_of_find hf]
      constructor <;> rfl
  rw [nodeAdded_eq]
  split
  · exact .rfl s
  · split
    · exact hadd.trans (hself _)
    · exact hadd

theorem selfKept_dataReceived (s : Handler) (p : Payload) (n : Node) (now : Int) :
    SelfKept s (s.dataReceived p n now).1 := by
  unfold dataReceived
  split
  · exact .rfl s
  cases p with
  | userReq => constructor <;> rfl
  | userUpdate w =>
    cases hf : s.house.userFind (.ofNode n) with
    | none => simpa only [recvUserUpdate_of_none hf] using SelfKept.rfl s
    | some ui =>
      simp only [recvUserUpdate_of_find hf]
      constructor <;> rfl
  | userData hdr body =>
    simp only [recvUserData]
    split <;> exact .rfl s
  | roomUpdate w =>
    have hr := recvRoomUpdate_outcome s w n
    simp only
    generalize s.recvRoomUpdate w n = r at hr
    cases hr with
    | ignored => exact .rfl s
    | put => constructor <;> rfl
    | orphan => constructor <;> rfl
  | unrecognized => exact .rfl s
  | malformed => exact .rfl s

/-- The own profile is the one announced last. -/
theorem profile_selfUser_step (s : Handler) (e : Event) :
    (s.step e).1.selfUser.profile =
      match e with
      | .updateUser u _ => u.profile
      | _ => s.selfUser.profile := by
  cases e with
  | nodeAdded n now => exact (selfKept_nodeAdded s n now).profile
  | nodeRemoved n => exact (selfKept_nodeRemoved s n).profile
  | dataReceived p n now => exact (selfKept_dataReceived s p n now).profile
  | updateUser u now =>
    simp only [step, updateUser]
    split <;> rfl
  | updateRoom => rfl
  | blockUsers m => exact (selfKept_removeNodes m.sequence { s with ipBlock := _ } _).profile
  | selfChanged => rfl

/-- The own name is an announced one. -/
theorem idStr_selfUser_step (s : Handler) (e : Event) :
    (s.step e).1.selfUser.id.idStr = s.selfUser.id.idStr ∨
      ∃ u now, e = .updateUser u now ∧ (s.step e).1.selfUser.id.idStr = u.id.idStr := by
  cases e with
  | nodeAdded n now => exact .inl (selfKept_nodeAdded s n now).idStr
  | nodeRemoved n => exact .inl (selfKept_nodeRemoved s n).idStr
  | dataReceived p n now => exact .inl (selfKept_dataReceived s p n now).idStr
  | updateUser u now =>
    simp only [step, updateUser]
    split
    · exact .inr ⟨u, now, rfl, rfl⟩
    · exact .inl rfl
  | updateRoom => exact .inl rfl
  | blockUsers m =>
    exact .inl (selfKept_removeNodes m.sequence { s with ipBlock := _ } _).idStr
  | selfChanged => exact .inl rfl

/-- The own room is the one announced last. -/
theorem selfRoom_step (s : Handler) (e : Event) :
    (s.step e).1.selfRoom = match e with
      | .updateRoom r => r
      | _ => s.selfRoom := by
  cases e with
  | nodeAdded n now => exact (selfKept_nodeAdded s n now).selfRoom
  | nodeRemoved n => exact (selfKept_nodeRemoved s n).selfRoom
  | dataReceived p n now => exact (selfKept_dataReceived s p n now).selfRoom
  | updateUser => rfl
  | updateRoom => rfl
  | blockUsers m => exact (selfKept_removeNodes m.sequence { s with ipBlock := _ } _).selfRoom
  | selfChanged => rfl

theorem grpSelf_step (s : Handler) (e : Event) :
    (s.step e).1.grpSelf = match e with
      | .selfChanged n => n
      | _ => s.grpSelf := by
  cases e with
  | nodeAdded n now => exact (selfKept_nodeAdded s n now).grpSelf
  | nodeRemoved n => exact (selfKept_nodeRemoved s n).grpSelf
  | dataReceived p n now => exact (selfKept_dataReceived s p n now).grpSelf
  | updateUser => rfl
  | updateRoom => rfl
  | blockUsers m => exact (selfKept_removeNodes m.sequence { s with ipBlock := _ } _).grpSelf
  | selfChanged => rfl

end Handler

end RvHouse
