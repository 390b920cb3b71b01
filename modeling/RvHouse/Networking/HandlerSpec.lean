import RvHouse.Networking.Handler

/-!
# What the handler's functions do

One lemma for each function of the handler, in terms of the lookups of the house. `userErased_eq`
and the `userUpdate` lemmas say which room is closed: the one that the stored entry names, provided
that the room is there and is owned by the node of the entry (`House.Hosts`). `userUpdate` closes it
when the new data name another room or give a named entry another name (`Restarts`).

The results about runs (`EndDeref`, `Frame`, `Orphans`) use these lemmas and never unfold the
functions themselves.
-/

namespace RvHouse

namespace House

/-- The room that the user names is in the house and is owned by the user. -/
def Hosts (h : House) (u : User) : Prop :=
  u.roomId ≠ "" ∧ ∃ r ∈ h.roomFind u.roomId, r.ownerId.eqv u.id = true

instance (h : House) (u : User) : Decidable (h.Hosts u) :=
  inferInstanceAs (Decidable (_ ∧ ∃ r ∈ h.roomFind u.roomId, _))

/-- The house without the room of a user that hosts it. -/
def close (h : House) (u : User) : House := if h.Hosts u then h.roomErase u.roomId else h

/-- The messages of that. -/
def closeMsgs (h : House) (base : Int) (u : User) (senderId : UserKey) : List Message :=
  if h.Hosts u then (h.roomFind u.roomId).toList.map fun r => .ofRoom .roomRemove r senderId 0 base
  else []

@[simp] theorem userFind_close (h : House) (u : User) (k : UserKey) :
    (h.close u).userFind k = h.userFind k := by
  unfold close
  split <;> rfl

theorem roomFind_close (h : House) (u : User) (id : String) :
    (h.close u).roomFind id = if h.Hosts u ∧ u.roomId = id then none else h.roomFind id := by
  unfold close
  by_cases hh : h.Hosts u
  · simp only [hh, if_true, true_and, roomFind_roomErase]
  · simp [hh]

theorem roomFind_of_close {h : House} {u : User} {id : String} {r : Room}
    (hr : (h.close u).roomFind id = some r) : h.roomFind id = some r := by
  rw [roomFind_close] at hr
  split at hr
  · cases hr
  · exact hr

theorem hosts_iff_of_find {h : House} {u : User} {r : Room} (hr : h.roomFind u.roomId = some r) :
    h.Hosts u ↔ u.roomId ≠ "" ∧ r.ownerId.eqv u.id = true := by
  simp [Hosts, hr]

theorem not_hosts_of_find {h : House} {u : User} (hr : h.roomFind u.roomId = none) :
    ¬ h.Hosts u := by
  simp [Hosts, hr]

theorem close_of_find {h : House} {u : User} (hr : h.roomFind u.roomId = none) : h.close u = h :=
  if_neg (not_hosts_of_find hr)

theorem closeMsgs_of_find {h : House} {u : User} (hr : h.roomFind u.roomId = none) (base : Int)
    (senderId : UserKey) : h.closeMsgs base u senderId = [] :=
  if_neg (not_hosts_of_find hr)

theorem mem_closeMsgs {h : House} {base : Int} {u : User} {senderId : UserKey} {m : Message}
    (hm : m ∈ h.closeMsgs base u senderId) : ∃ r, m = .ofRoom .roomRemove r senderId 0 base := by
  unfold closeMsgs at hm
  split at hm
  · obtain ⟨r, -, rfl⟩ := List.mem_map.1 hm
    exact ⟨r, rfl⟩
  · cases hm

theorem not_hosts_close (h : House) (u : User) : ¬ (h.close u).Hosts u := by
  rintro ⟨hne, r, hr, ho⟩
  rw [Option.mem_def, roomFind_close] at hr
  split at hr
  · cases hr
  · rename_i hh
    exact hh ⟨⟨hne, r, hr, ho⟩, rfl⟩

@[simp] theorem close_close (h : House) (u : User) : (h.close u).close u = h.close u :=
  if_neg (not_hosts_close h u)

@[simp] theorem closeMsgs_close (h : House) (base : Int) (u : User) (senderId : UserKey) :
    (h.close u).closeMsgs base u senderId = [] :=
  if_neg (not_hosts_close h u)

end House

/-! ## Posted messages -/

@[simp] theorem posted_nil : posted [] = [] := rfl

@[simp] theorem posted_post (m : Message) (out : List Effect) :
    posted (.post m :: out) = m :: posted out := rfl

@[simp] theorem posted_send (p : Payload) (d : Option Node) (out : List Effect) :
    posted (.send p d :: out) = posted out := rfl

@[simp] theorem posted_derefRoomEnd (rid : String) (out : List Effect) :
    posted (.derefRoomEnd rid :: out) = posted out := rfl

@[simp] theorem posted_append (out out' : List Effect) :
    posted (out ++ out') = posted out ++ posted out' := List.filterMap_append

@[simp] theorem posted_map_post (ms : List Message) : posted (ms.map .post) = ms := by
  induction ms with
  | nil => rfl
  | cons m ms ih => simp [ih]

theorem mem_posted {m : Message} {out : List Effect} : m ∈ posted out ↔ .post m ∈ out := by
  simp only [posted, List.mem_filterMap]
  constructor
  · rintro ⟨_ | _ | _, he, hm⟩ <;> cases hm
    exact he
  · exact fun he => ⟨_, he, rfl⟩

/-! ## Users that leave -/

theorem roomClosedUpdate_of_hosts {h : House} {u : User} (hh : h.Hosts u) (base : Int)
    (senderId : UserKey) :
    roomClosedUpdate base h u.roomId senderId =
      (h.close u, (h.closeMsgs base u senderId).map .post) := by
  obtain ⟨-, r, hr, -⟩ := id hh
  rw [Option.mem_def] at hr
  simp [roomClosedUpdate, House.close, House.closeMsgs, hh, hr, House.id_of_roomFind hr]

theorem userErased_eq (base : Int) (h : House) (u : User) :
    userErased base h u =
      (h.close u, (h.closeMsgs base u u.id ++ [Message.ofUser .userLeft u 0 base]).map .post) := by
  by_cases hh : h.Hosts u
  · obtain ⟨hne, r, hr, ho⟩ := id hh
    rw [Option.mem_def] at hr
    simp [userErased, hne, hr, ho, roomClosedUpdate_of_hosts hh]
  · have hclose : h.close u = h := if_neg hh
    have hmsgs : h.closeMsgs base u u.id = [] := if_neg hh
    rw [hclose, hmsgs]
    unfold userErased
    by_cases hne : u.roomId = ""
    · simp [hne]
    · cases hr : h.roomFind u.roomId with
      | none => simp [hne]
      | some r =>
        have ho : r.ownerId.eqv u.id ≠ true := fun ho => hh ((House.hosts_iff_of_find hr).2 ⟨hne, ho⟩)
        simp [hne, ho]

/-! ## Users that change -/

/-- The data give a named entry another name. -/
def Restarts (old upd : User) : Prop :=
  old.id.idStr ≠ "" ∧ upd.id.idStr ≠ "" ∧ old.id.idStr ≠ upd.id.idStr

instance (old upd : User) : Decidable (Restarts old upd) :=
  inferInstanceAs (Decidable (_ ∧ _))

/-- The data name another room than the entry. -/
def Leaves (old upd : User) : Prop := old.roomId ≠ "" ∧ old.roomId ≠ upd.roomId

instance (old upd : User) : Decidable (Leaves old upd) :=
  inferInstanceAs (Decidable (_ ∧ _))

/-- The data under the node of the entry. -/
def User.under (upd old : User) : User := { upd with id := { upd.id with node := old.id.node } }

/-- The name of the entry after the update. -/
def User.rename (old upd : User) : User :=
  { old with
    id := { old.id with idStr := if upd.id.idStr = "" then old.id.idStr else upd.id.idStr } }

namespace User

@[simp] theorem under_idStr (upd old : User) : (upd.under old).id.idStr = upd.id.idStr := rfl

end User

theorem userRename_eq (base : Int) (h : House) (old upd : User) :
    userRename base h old (upd.under old) =
      (if Restarts old upd then h.close old else h, old.rename upd,
        if Restarts old upd then (userErased base h old).2 else []) := by
  obtain ⟨⟨_, i⟩, _⟩ := old
  obtain ⟨⟨_, j⟩, _⟩ := upd
  by_cases hi : i = ""
  · subst hi
    by_cases hj : j = "" <;> simp [userRename, Restarts, User.rename, User.under, hj]
  · by_cases hj : j = ""
    · simp [userRename, Restarts, User.rename, User.under, hi, hj]
    · by_cases hij : i = j
      · subst hij
        simp [userRename, Restarts, User.rename, User.under, hi]
      · simp [userRename, Restarts, User.rename, User.under, userErased_eq, hi, hj, hij]

theorem userLeave_eq (base : Int) (h : House) {old upd : User} (hn : upd.id.node = old.id.node) :
    userLeave base h old upd =
      if Leaves old upd then
        if h.roomFind old.roomId = none then (h, [.derefRoomEnd old.roomId])
        else (h.close old, (h.closeMsgs base old upd.id).map .post)
      else (h, []) := by
  by_cases hl : Leaves old upd
  · rw [if_pos hl]
    refine (if_pos hl).trans ?_
    cases hr : h.roomFind old.roomId with
    | none => rfl
    | some r =>
      have ho : r.ownerId.eqv upd.id = r.ownerId.eqv old.id := UserKey.eqv_congr hn
      by_cases hh : h.Hosts old
      · simp [ho, ((House.hosts_iff_of_find hr).1 hh).2, roomClosedUpdate_of_hosts hh]
      · have hne : r.ownerId.eqv old.id ≠ true := fun h' =>
          hh ((House.hosts_iff_of_find hr).2 ⟨hl.1, h'⟩)
        simp [ho, hne, House.close, House.closeMsgs, hh]
  · rw [if_neg hl]
    exact if_neg hl

/-- What `userUpdate` leaves of the house before it looks for the room left. -/
def afterRename (h : House) (old upd : User) : House :=
  if Restarts old upd then h.close old else h

theorem userUpdate_eq (base : Int) (h : House) (old upd : User) :
    userUpdate base h old upd =
      ⟨if Leaves old upd then (afterRename h old upd).close old else afterRename h old upd,
        old.rename upd, upd.under old,
        (if Restarts old upd then (userErased base h old).2 else []) ++
          (if Leaves old upd then
            if (afterRename h old upd).roomFind old.roomId = none then [.derefRoomEnd old.roomId]
            else ((afterRename h old upd).closeMsgs base old (upd.under old).id).map .post
          else []) ++
          [.post (.ofUser .user (upd.under old) upd.sequence base)]⟩ := by
  have hu : userUpdate base h old upd =
      let r := userRename base h old (upd.under old)
      let l := userLeave base r.1 r.2.1 (upd.under old)
      ⟨l.1, r.2.1, upd.under old,
        r.2.2 ++ l.2 ++ [.post (.ofUser .user (upd.under old) upd.sequence base)]⟩ := rfl
  have hleave : userLeave base (afterRename h old upd) (old.rename upd) (upd.under old) =
      if Leaves old upd then
        if (afterRename h old upd).roomFind old.roomId = none then
          (afterRename h old upd, [.derefRoomEnd old.roomId])
        else ((afterRename h old upd).close old,
          ((afterRename h old upd).closeMsgs base old (upd.under old).id).map .post)
      else (afterRename h old upd, []) := userLeave_eq base _ rfl
  rw [hu, userRename_eq]
  refine (congrArg (fun l : House × List Effect => Updated.mk l.1 _ _ (_ ++ l.2 ++ _)) hleave).trans ?_
  by_cases hl : Leaves old upd
  · by_cases hr : (afterRename h old upd).roomFind old.roomId = none
    · simp [hl, hr, House.close_of_find hr]
    · simp [hl, hr]
  · simp [hl]

/-- The house after an update has lost the room of a host that restarts or leaves. -/
theorem userUpdate_house (base : Int) (h : House) (old upd : User) :
    (userUpdate base h old upd).house =
      if Restarts old upd ∨ Leaves old upd then h.close old else h := by
  rw [userUpdate_eq]
  by_cases hl : Leaves old upd <;> by_cases hr : Restarts old upd <;> simp [afterRename, hl, hr]

theorem userFind_userUpdate_house (base : Int) (h : House) (old upd : User) (k : UserKey) :
    (userUpdate base h old upd).house.userFind k = h.userFind k := by
  rw [userUpdate_house]
  split <;> simp

@[simp] theorem userUpdate_old (base : Int) (h : House) (old upd : User) :
    (userUpdate base h old upd).old = old.rename upd := by
  rw [userUpdate_eq]

@[simp] theorem userUpdate_upd (base : Int) (h : House) (old upd : User) :
    (userUpdate base h old upd).upd = upd.under old := rfl

/-- The messages of an update. -/
theorem posted_userUpdate (base : Int) (h : House) (old upd : User) :
    posted (userUpdate base h old upd).out =
      (if Restarts old upd then
        h.closeMsgs base old old.id ++ [Message.ofUser .userLeft old 0 base]
      else if Leaves old upd then h.closeMsgs base old (upd.under old).id
      else []) ++ [.ofUser .user (upd.under old) upd.sequence base] := by
  rw [userUpdate_eq]
  by_cases hr : Restarts old upd
  · simp only [afterRename, hr, if_true, userErased_eq, House.closeMsgs_close]
    by_cases hl : Leaves old upd <;> simp [hl]
    split <;> simp
  · simp only [afterRename, hr, if_false]
    by_cases hl : Leaves old upd <;> simp [hl]
    split
    · rename_i hnone
      simp [House.closeMsgs_of_find hnone]
    · simp

/-- An update posts the removal of a room, the departure of the entry, and the entry itself. -/
theorem mem_posted_userUpdate {base : Int} {h : House} {old upd : User} {m : Message}
    (hm : m ∈ posted (userUpdate base h old upd).out) :
    (∃ r k, k.node = old.id.node ∧ m = .ofRoom .roomRemove r k 0 base) ∨
      m = .ofUser .userLeft old 0 base ∨ m = .ofUser .user (upd.under old) upd.sequence base := by
  rw [posted_userUpdate] at hm
  rcases List.mem_append.1 hm with hm | hm
  · split at hm
    · rcases List.mem_append.1 hm with hm | hm
      · obtain ⟨r, rfl⟩ := House.mem_closeMsgs hm
        exact .inl ⟨r, old.id, rfl, rfl⟩
      · exact .inr (.inl (List.mem_singleton.1 hm))
    · split at hm
      · obtain ⟨r, rfl⟩ := House.mem_closeMsgs hm
        exact .inl ⟨r, (upd.under old).id, rfl, rfl⟩
      · cases hm
  · exact .inr (.inr (List.mem_singleton.1 hm))

/-- When an update searches in vain for the room left. -/
theorem derefRoomEnd_mem_userUpdate (base : Int) (h : House) (old upd : User) (rid : String) :
    .derefRoomEnd rid ∈ (userUpdate base h old upd).out ↔
      Leaves old upd ∧ rid = old.roomId ∧
        (h.roomFind old.roomId = none ∨ Restarts old upd ∧ h.Hosts old) := by
  rw [userUpdate_eq]
  by_cases hl : Leaves old upd <;> by_cases hr : Restarts old upd <;>
    simp only [afterRename, userErased_eq, hl, hr, House.roomFind_close, if_true, if_false]
  · by_cases hh : h.Hosts old <;> by_cases hnone : h.roomFind old.roomId = none <;>
      simp [hh, hnone]
  · by_cases hnone : h.roomFind old.roomId = none <;> simp [hnone]
  · simp
  · simp

/-- User data are passed on under the key of the sender. -/
theorem senderId_userDataAvailable {base : Int} {u : User} {hdr : PduHeader} {body : PduBody}
    {m : Message} (hm : userDataAvailable base u hdr body = some m) : m.senderId = u.id := by
  unfold userDataAvailable at hm
  split at hm <;> cases hm <;> rfl

namespace Handler

/-! ## The events -/

/-- The entry that an update leaves in the house. -/
def updated (old upd : User) : User := (old.rename upd).assign (upd.under old)

@[simp] theorem updated_node (old upd : User) : (updated old upd).id.node = old.id.node := rfl

theorem updated_id (old upd : User) : (updated old upd).id =
    if upd.id.idStr = "" then old.id else { old.id with idStr := upd.id.idStr } := by
  by_cases hid : upd.id.idStr = "" <;> simp [updated, User.rename, hid]

@[simp] theorem updated_roomId (old upd : User) : (updated old upd).roomId = upd.roomId := rfl

@[simp] theorem updated_loginId (old upd : User) : (updated old upd).loginId = upd.loginId := rfl

@[simp] theorem updated_status (old upd : User) : (updated old upd).status = upd.status := rfl

/-- A user update as the receiver decodes it. -/
def decoded (w : UserWire) (n : Node) (now : Int) : User := (User.ofNode n now).load w now

@[simp] theorem decoded_idStr (w : UserWire) (n : Node) (now : Int) :
    (decoded w n now).id.idStr = w.idStr := rfl

theorem recvUserUpdate_of_none {s : Handler} {n : Node} (hf : s.house.userFind (.ofNode n) = none)
    (w : UserWire) (now : Int) : s.recvUserUpdate w n now = (s, []) := by
  simp [recvUserUpdate, hf]

theorem recvUserUpdate_of_find {s : Handler} {n : Node} {ui : User}
    (hf : s.house.userFind (.ofNode n) = some ui) (w : UserWire) (now : Int) :
    s.recvUserUpdate w n now =
      ({ s with
          house := (userUpdate s.grpMsgBase s.house ui (decoded w n now)).house.userStore
            (updated ui (decoded w n now)) },
        (userUpdate s.grpMsgBase s.house ui (decoded w n now)).out) := by
  simp [recvUserUpdate, hf, decoded, updated]

theorem nodeRemoved_of_none {s : Handler} {n : Node} (hf : s.house.userFind (.ofNode n) = none) :
    s.nodeRemoved n = (s, []) := by
  simp [nodeRemoved, hf]

theorem nodeRemoved_of_find {s : Handler} {n : Node} {ui : User}
    (hf : s.house.userFind (.ofNode n) = some ui) :
    s.nodeRemoved n =
      ({ s with house := (s.house.close ui).userErase ui.id },
        (s.house.closeMsgs s.grpMsgBase ui ui.id ++
          [Message.ofUser .userLeft ui 0 s.grpMsgBase]).map .post) := by
  simp [nodeRemoved, hf, userErased_eq]

theorem userFind_nodeRemoved (s : Handler) (n : Node) (k : UserKey) :
    (s.nodeRemoved n).1.house.userFind k =
      if k.node = some n then none else s.house.userFind k := by
  cases hf : s.house.userFind (.ofNode n) with
  | none =>
    rw [nodeRemoved_of_none hf]
    split
    · rename_i hk
      exact (House.userFind_congr hk).trans hf
    · rfl
  | some ui =>
    rw [nodeRemoved_of_find hf, House.userFind_userErase, House.userFind_close,
      House.node_of_userFind hf]
    simp only [UserKey.ofNode_node, eq_comm]

theorem userFind_nodeRemoved_self (s : Handler) (n : Node) :
    (s.nodeRemoved n).1.house.userFind (.ofNode n) = none := by
  simp [userFind_nodeRemoved]

/-- A room stays unless the node that goes hosts it. -/
theorem roomFind_nodeRemoved {s : Handler} {n : Node} {id : String} {r : Room} :
    (s.nodeRemoved n).1.house.roomFind id = some r ↔
      s.house.roomFind id = some r ∧ ∀ ui, s.house.userFind (.ofNode n) = some ui →
        s.house.Hosts ui → ui.roomId ≠ id := by
  cases hf : s.house.userFind (.ofNode n) with
  | none => simp [nodeRemoved_of_none hf]
  | some ui =>
    rw [nodeRemoved_of_find hf, House.roomFind_userErase, House.roomFind_close]
    by_cases hh : s.house.Hosts ui <;> by_cases hid : ui.roomId = id <;> simp [hh, hid]

theorem mem_blockedNodes {s : Handler} {n : Node} :
    n ∈ s.blockedNodes ↔
      s.house.userFind (.ofNode n) ≠ none ∧ s.ipBlock.isBlocked n.ip = true := by
  simp only [blockedNodes, List.mem_filter, List.mem_filterMap, Option.ne_none_iff_exists']
  refine and_congr_left fun _ => ⟨?_, ?_⟩
  · rintro ⟨u, hu, hn⟩
    exact ⟨u, (House.userFind_congr hn.symm).trans (House.mem_users.1 hu)⟩
  · rintro ⟨u, hu⟩
    have hn := House.node_of_userFind hu
    exact ⟨u, House.mem_users.2 ((House.userFind_congr hn).trans hu), hn⟩

/-- The entry that the update of the own node leaves in the house: its name is the own name, also
when that is empty. -/
def selfUpdated (old upd : User) : User :=
  { updated old upd with id := { old.id with idStr := upd.id.idStr } }

theorem selfAdded_of_none {s : Handler} {n : Node} (hf : s.house.userFind (.ofNode n) = none) :
    s.selfAdded n = (s, []) := by
  simp [selfAdded, hf]

theorem selfAdded_of_find {s : Handler} {n : Node} {ui : User}
    (hf : s.house.userFind (.ofNode n) = some ui) :
    s.selfAdded n =
      ({ s with
          house := (userUpdate s.grpMsgBase s.house ui s.selfUser).house.userStore
            (selfUpdated ui s.selfUser)
          selfUser := { s.selfUser.under ui with
            id := { ui.id with idStr := s.selfUser.id.idStr } } },
        (userUpdate s.grpMsgBase s.house ui s.selfUser).out) := by
  simp [selfAdded, hf, selfUpdated, updated, User.rename]

/-- `h'` is `h` with `r` in the place of its id. -/
structure RoomPut (h : House) (r : Room) (h' : House) : Prop where
  users : ∀ k, h'.userFind k = h.userFind k
  rooms : ∀ id, h'.roomFind id = if r.id = id then some r else h.roomFind id

/-- The room of a room update, as the house keeps it when the sender is known. -/
def announced (w : RoomWire) (ui : User) : Room := { w.toRoom with ownerId := ui.id }

/-- What a room update can do. -/
inductive RoomOutcome (s : Handler) (w : RoomWire) (n : Node) : Handler × List Effect → Prop where
  /-- The update has no id, or the room is there and the sender is not a present owner of it. -/
  | ignored (h : w.id = "" ∨ ∃ ri, s.house.roomFind w.id = some ri ∧
      (ri.ownerId.node = some n → s.house.userFind (.ofNode n) = none)) :
    RoomOutcome s w n (s, [])
  | put {ui : User} {h' : House} (hid : w.id ≠ "") (hf : s.house.userFind (.ofNode n) = some ui)
      (howner : ∀ ri, s.house.roomFind w.id = some ri → ri.ownerId.node = some n)
      (hput : RoomPut s.house (announced w ui) h') :
    RoomOutcome s w n ({ s with house := h' },
      [.post (.ofRoom .room (announced w ui) ui.id w.sequence s.grpMsgBase)])
  /-- The room is new and the sender is not in the house. -/
  | orphan {h' : House} (hid : w.id ≠ "") (hf : s.house.userFind (.ofNode n) = none)
      (hr : s.house.roomFind w.id = none) (hput : RoomPut s.house w.toRoom h') :
    RoomOutcome s w n ({ s with house := h' }, [])

theorem roomPut_roomStore {h : House} {r ri : Room} (hr : h.roomFind r.id = some ri) :
    RoomPut h r (h.roomStore r) where
  users _ := rfl
  rooms id := by
    rw [House.roomFind_roomStore]
    split
    · rename_i hid
      rw [← hid, hr, Option.map_some]
    · rfl

theorem roomPut_roomInsert {h h' : House} {r : Room} (hr : h.roomInsert r = some h') :
    RoomPut h r h' where
  users k := House.userFind_roomInsert hr k
  rooms id := House.roomFind_roomInsert hr id

theorem RoomPut.trans {h h' h'' : House} {r r' : Room} (hr : RoomPut h r h')
    (hr' : RoomPut h' r' h'') (hid : r.id = r'.id) : RoomPut h r' h'' where
  users k := (hr'.users k).trans (hr.users k)
  rooms id := by
    rw [hr'.rooms, hr.rooms, hid]
    split <;> rfl

/-- The notification gives the room its owner and posts it. -/
theorem roomUpdate_of_find {h h' : House} {r : Room} {n : Node} {ui : User} (hput : RoomPut h r h')
    (hf : h.userFind (.ofNode n) = some ui) (base : Int) :
    RoomPut h { r with ownerId := ui.id } (roomUpdate base h' r n).1 ∧
      (roomUpdate base h' r n).2 =
        [.post (.ofRoom .room { r with ownerId := ui.id } ui.id r.sequence base)] := by
  have hf' : h'.userFind (.ofNode n) = some ui := (hput.users _).trans hf
  have hr : h'.roomFind ({ r with ownerId := ui.id } : Room).id = some r := by
    rw [hput.rooms, if_pos rfl]
  simp only [roomUpdate, hf', and_true]
  exact hput.trans (roomPut_roomStore hr) rfl

/-- The update of a room that the house has: its owner's, or anybody else's. -/
theorem recvRoomUpdate_outcome_of_some {s : Handler} {w : RoomWire} {ri : Room}
    (hr : s.house.roomFind w.id = some ri) (hid : w.id ≠ "") (n : Node) :
    RoomOutcome s w n (s.recvRoomUpdate w n) := by
  unfold recvRoomUpdate
  simp only [Room.toRoom_id, hid, if_false, hr]
  cases hui : s.house.userFind ri.ownerId with
  | none =>
    simp only
    refine .ignored (.inr ⟨ri, hr, fun hn => ?_⟩)
    rw [← hui]
    exact House.userFind_congr hn.symm
  | some ui =>
    have hnode : ui.id.node = ri.ownerId.node := House.node_of_userFind hui
    by_cases hn : ui.id.node = some n
    · have hf : s.house.userFind (.ofNode n) = some ui :=
        (House.userFind_congr (hn.symm.trans hnode)).trans hui
      have hri : s.house.roomFind (ri.assign w.toRoom).id = some ri := by
        rw [Room.assign_id, House.id_of_roomFind hr, hr]
      have hassign : ri.assign w.toRoom = w.toRoom := by
        simp [Room.assign, House.id_of_roomFind hr, RoomWire.toRoom]
      obtain ⟨hput, hout⟩ := roomUpdate_of_find (roomPut_roomStore hri) hf s.grpMsgBase
      rw [hassign] at hput hout
      simp only [hn, if_true, hassign, hout]
      refine .put hid hf (fun ri' hri' => ?_) hput
      rw [hr] at hri'
      cases hri'
      exact hnode.symm.trans hn
    · simp only [hn, if_false]
      exact .ignored (.inr ⟨ri, hr, fun h => absurd (hnode.trans h) hn⟩)

/-- A room that is new to the house, of a node that is known or not. -/
theorem recvRoomUpdate_outcome_of_none {s : Handler} {w : RoomWire}
    (hr : s.house.roomFind w.id = none) (hid : w.id ≠ "") (n : Node) :
    RoomOutcome s w n (s.recvRoomUpdate w n) := by
  unfold recvRoomUpdate
  simp only [Room.toRoom_id, hid, if_false, hr]
  obtain ⟨h', hins⟩ : ∃ h', s.house.roomInsert w.toRoom = some h' :=
    ⟨_, House.roomInsert_eq_some.2 ⟨hr, rfl⟩⟩
  have hput := roomPut_roomInsert hins
  simp only [hins]
  cases hf : s.house.userFind (.ofNode n) with
  | none =>
    have hf' : h'.userFind (.ofNode n) = none := (hput.users _).trans hf
    simp only [roomUpdate, hf']
    exact .orphan hid hf hr hput
  | some ui =>
    obtain ⟨hput', hout⟩ := roomUpdate_of_find hput hf s.grpMsgBase
    simp only [hout]
    exact .put hid hf (fun ri' hri' => by simp [hr] at hri') hput'

theorem recvRoomUpdate_outcome (s : Handler) (w : RoomWire) (n : Node) :
    RoomOutcome s w n (s.recvRoomUpdate w n) := by
  by_cases hid : w.id = ""
  · simpa [recvRoomUpdate, hid] using .ignored (.inl hid)
  cases hr : s.house.roomFind w.id with
  | some ri => exact recvRoomUpdate_outcome_of_some hr hid n
  | none => exact recvRoomUpdate_outcome_of_none hr hid n

/-- What the arrival of a node can do, its being the client itself aside. -/
inductive AddOutcome (s : Handler) (n : Node) (now : Int) : Handler × List Effect → Prop where
  | present (h : s.house.userFind (.ofNode n) ≠ none) : AddOutcome s n now (s, [])
  | added {h' : House} (h : s.house.userFind (.ofNode n) = none)
      (husers : ∀ k, h'.userFind k =
        if k.node = some n then some (User.ofNode n now) else s.house.userFind k)
      (hrooms : ∀ id, h'.roomFind id = s.house.roomFind id) :
    AddOutcome s n now ({ s with house := h' },
      [.post (.ofUser .user (User.ofNode n now) 0 s.grpMsgBase), .send .userReq (some n)])

theorem adapterNodeAdded_outcome (s : Handler) (n : Node) (now : Int) :
    AddOutcome s n now (s.adapterNodeAdded n now) := by
  simp only [adapterNodeAdded]
  cases hins : s.house.userInsert (User.ofNode n now) with
  | none =>
    refine .present fun h => ?_
    simp [House.userInsert, h] at hins
  | some h' =>
    refine .added (House.userInsert_eq_some.1 hins).1 (fun k => ?_) (House.roomFind_userInsert hins)
    rw [House.userFind_userInsert hins]
    simp only [User.ofNode_id, UserKey.ofNode_node, eq_comm]

theorem grpSelf_adapterNodeAdded (s : Handler) (n : Node) (now : Int) :
    (s.adapterNodeAdded n now).1.grpSelf = s.grpSelf := by
  simp only [adapterNodeAdded]
  split <;> rfl

theorem nodeAdded_eq (s : Handler) (n : Node) (now : Int) :
    s.nodeAdded n now =
      if s.ipBlock.isBlocked n.ip then (s, [])
      else if s.grpSelf = some n then
        (((s.adapterNodeAdded n now).1.selfAdded n).1,
          (s.adapterNodeAdded n now).2 ++ ((s.adapterNodeAdded n now).1.selfAdded n).2)
      else s.adapterNodeAdded n now := by
  have hself := grpSelf_adapterNodeAdded s n now
  unfold nodeAdded
  split
  · rfl
  · simp only [hself]

end Handler

end RvHouse
