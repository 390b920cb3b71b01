import RvHouse.Model.House
import RvHouse.MultiFeed.UserMap
import RvHouse.Networking.Worker

/-!
# The view of the users

`gui::view::users` shows one item for each person. An item has a feed for each group in which the
person is seen, under the id string; `v.Shows s grp` says that the item of `s` has a feed for the
group. The lemmas say what an update adds to this relation and what a removal takes from it
(`shows_updateUser`, `shows_removeUser`), and that the labels of the items are the strings that have
a feed (`count_labels`).
-/

namespace RvHouse

open Std

/-- `gui::view::users`. Of an item only the feeds are modelled. -/
structure UsersView where
  roomId : String := ""
  userItemMap : UserMap FeedIdMap := {}

namespace UsersView

/-! ## Messages -/

/-- `user_item::user_remove`; true when the item is to be removed for good. -/
def userRemove (item : FeedIdMap) (grp : Int) : FeedIdMap × Bool :=
  (item.erase grp, (item.erase grp).isEmpty)

/-- `users::_new_user`. The feed is set after the item has been put into the map. -/
def newUser (v : UsersView) (u : User) (grp : Int) : UsersView :=
  { v with
    userItemMap := (v.userItemMap.insert u.id ((∅ : FeedIdMap).insert grp u.id)).resolve u.id }

/-- `users::_remove_user`. -/
def removeUser (v : UsersView) (id : UserKey) (grp : Int) : UsersView :=
  match v.userItemMap.find id with
  | none => v
  | some item =>
    let map := v.userItemMap.modify id fun item => (userRemove item grp).1
    { v with
      userItemMap := if (userRemove item grp).2 then map.erase id else map.resolve id }

/-- `users::_update_user(const user &, int)`. -/
def updateUser (v : UsersView) (u : User) (grp : Int) : UsersView :=
  match v.userItemMap.find u.id with
  | none => if v.roomId = "" ∨ v.roomId = u.roomId then v.newUser u grp else v
  | some _ =>
    if v.roomId = "" ∨ v.roomId = u.roomId then
      { v with
        userItemMap := (v.userItemMap.modify u.id (·.insert grp u.id)).resolve u.id }
    else v.removeUser u.id grp

/-- `users::_update_user(const id_type &, int)`; `none` when the group is not allowed. -/
def updateUserById (v : UsersView) (hm : ModelHouse) (uid : UserKey) (grp : Int) :
    Option UsersView := do
  let g ← hm.houseFind grp
  return match g.userFind uid with
    | some ui => v.updateUser ui grp
    | none => v

/-- `users::_update_users`. -/
def updateUsers (v : UsersView) (hm : ModelHouse) (rid : String) (grp : Int) :
    Option UsersView := do
  let g ← hm.houseFind grp
  let ids := (g.house.users.toList.filter (·.roomId == rid)).map (·.id)
  ids.foldlM (fun v uid => v.updateUserById hm uid grp) v

/-- `users::_room_update`; `hmp` is the model before the message. -/
def roomUpdate (v : UsersView) (hmp hmc : ModelHouse) (rid : String) (grp : Int) :
    Option UsersView := do
  let _ ← hmc.houseFind grp
  let _ ← hmp.houseFind grp
  match hmc.roomFindIn rid grp, hmp.roomFindIn rid grp with
  | some ric, some rip => if ric.topic = rip.topic then return v else v.updateUsers hmc rid grp
  | _, _ => v.updateUsers hmc rid grp

/-- `users::_remove_dropped`. -/
def removeDropped (v : UsersView) : UsersView :=
  { v with userItemMap := v.userItemMap.dropAll }

/-- `users::handle_message`; `none` when a cast or a search throws. -/
def handleMessage (v : UsersView) (hmp hmc : ModelHouse) (m : Message) : Option UsersView :=
  match m.id with
  | .user => do
    let u ← m.body.asUser
    return (← v.updateUserById hmc u.id m.groupBase).removeDropped
  | .userLeft => do
    let u ← m.body.asUser
    return (v.removeUser u.id m.groupBase).removeDropped
  | .room => do
    let r ← m.body.asRoom
    v.roomUpdate hmp hmc r.id m.groupBase
  | _ => some v

/-- `users::users`, for the users of a room. -/
def ofRoom (hm : ModelHouse) (rid : String) : UsersView :=
  hm.groups.keys.foldl (fun v grp => (v.updateUsers hm rid grp).getD v) { roomId := rid }

/-! ## The observer -/

/-- The users of whom `_update_user` tells the observer that they have come: `_new_user` tells it of
those with a login. -/
def added (v : UsersView) (u : User) : List User :=
  if v.userItemMap.find u.id = none ∧ (v.roomId = "" ∨ v.roomId = u.roomId) ∧ u.loginId ≠ "" then
    [u]
  else []

/-- The same for `_update_user(const id_type &, int)`. -/
def addedById (v : UsersView) (hm : ModelHouse) (uid : UserKey) (grp : Int) : List User :=
  (hm.userFindIn uid grp).elim [] v.added

/-- The same for the loop of `_update_users`. -/
def addedByIds (hm : ModelHouse) (grp : Int) : UsersView → List UserKey → List User
  | _, [] => []
  | v, uid :: ids =>
    v.addedById hm uid grp ++
      ((v.updateUserById hm uid grp).elim [] fun v => addedByIds hm grp v ids)

/-- The same for `_room_update`. -/
def addedByRoom (v : UsersView) (hmp hmc : ModelHouse) (rid : String) (grp : Int) : List User :=
  let all := (hmc.houseFind grp).elim [] fun g => v.addedByIds hmc grp (g.house.userIdsInRoom rid)
  match hmc.roomFindIn rid grp, hmp.roomFindIn rid grp with
  | some ric, some rip => if ric.topic = rip.topic then [] else all
  | _, _ => all

/-- The same for `users::handle_message`. -/
def addedOn (v : UsersView) (hmp hmc : ModelHouse) (m : Message) : List User :=
  match m.id with
  | .user => m.body.asUser.elim [] fun u => v.addedById hmc u.id m.groupBase
  | .room => m.body.asRoom.elim [] fun r => v.addedByRoom hmp hmc r.id m.groupBase
  | _ => []

/-! ## What is shown -/

/-- The labels of the items; an item without an id string has an empty one. -/
def labels (v : UsersView) : List String :=
  v.userItemMap.idMap.keys ++ v.userItemMap.unidList.map (·.1.idStr)

/-- The item of the id string has a feed for the group. -/
def Shows (v : UsersView) (s : String) (grp : Int) : Prop :=
  ∃ item, v.userItemMap.idMap[s]? = some item ∧ grp ∈ item

/-- Every item found by an id string has a feed and a string, and those in the list have none. -/
structure Good (v : UsersView) : Prop where
  feeds : ∀ (s : String) (item : FeedIdMap), v.userItemMap.idMap[s]? = some item →
    s ≠ "" ∧ ∃ grp, grp ∈ item
  unnamed : v.userItemMap.Unnamed

theorem good_empty : ({} : UsersView).Good where
  feeds s item h := by simp at h
  unnamed p hp := by cases hp

/-- There is one item for each string that has a feed. -/
theorem count_labels {v : UsersView} (h : v.Good) {s : String} (hs : s ≠ "") :
    (v.labels.count s = 1 ↔ ∃ grp, v.Shows s grp) ∧
      (v.labels.count s = 0 ↔ ¬ ∃ grp, v.Shows s grp) := by
  have hunid : (v.userItemMap.unidList.map (·.1.idStr)).count s = 0 := by
    rw [List.count_eq_zero]
    intro hmem
    obtain ⟨p, hp, rfl⟩ := List.mem_map.1 hmem
    exact hs (h.unnamed p hp)
  have hcount : v.labels.count s = v.userItemMap.idMap.keys.count s := by
    rw [labels, List.count_append, hunid, Nat.add_zero]
  have hmem : s ∈ v.userItemMap.idMap.keys ↔ ∃ grp, v.Shows s grp := by
    rw [TreeMap.mem_keys, TreeMap.mem_iff_isSome_getElem?, Option.isSome_iff_exists]
    constructor
    · rintro ⟨item, hitem⟩
      obtain ⟨-, grp, hgrp⟩ := h.feeds s item hitem
      exact ⟨grp, item, hitem, hgrp⟩
    · rintro ⟨grp, item, hitem, -⟩
      exact ⟨item, hitem⟩
  have hnodup : v.userItemMap.idMap.keys.Nodup := TreeMap.nodup_keys
  rw [hcount, ← hmem]
  refine ⟨⟨fun hone => ?_, fun hin => List.count_eq_one_of_mem hnodup hin⟩, List.count_eq_zero⟩
  exact List.count_pos_iff.1 (by omega)

/-! ## Updates and removals -/

/-- The feed of the user is set in its item, which is made when there is none. -/
theorem shows_updateUser {v : UsersView} (hv : v.roomId = "") (u : User) (grp : Int) (s : String)
    (grp' : Int) :
    (v.updateUser u grp).Shows s grp' ↔
      v.Shows s grp' ∨ u.id.idStr ≠ "" ∧ u.id.idStr = s ∧ grp' = grp := by
  unfold updateUser
  cases hf : v.userItemMap.find u.id with
  | none =>
    simp only [hv, true_or, if_true, Shows, newUser, UserMap.idMap_resolve]
    rw [UserMap.getElem?_insert hf]
    split
    · rename_i hs
      obtain ⟨hne, rfl⟩ := hs
      have hnone := (v.userItemMap.find_of_named hne).symm.trans hf
      simp [hnone, hne, @eq_comm Int grp']
    · rename_i hs
      rw [not_and] at hs
      refine ⟨.inl, fun h => h.elim id fun h' => absurd h'.2.1 (hs h'.1)⟩
  | some item =>
    simp only [hv, true_or, if_true, Shows, UserMap.idMap_resolve]
    rw [UserMap.getElem?_modify]
    split
    · rename_i hs
      obtain ⟨hne, rfl⟩ := hs
      have hitem := (v.userItemMap.find_of_named hne).symm.trans hf
      simp [hitem, hne, or_comm, @eq_comm Int grp']
    · rename_i hs
      rw [not_and] at hs
      refine ⟨.inl, fun h => h.elim id fun h' => absurd h'.2.1 (hs h'.1)⟩

/-- To remove a user leaves the items of other strings alone. -/
theorem shows_removeUser_of_ne (v : UsersView) {id : UserKey} {s : String}
    (hs : ¬ (id.idStr ≠ "" ∧ id.idStr = s)) (grp grp' : Int) :
    (v.removeUser id grp).Shows s grp' ↔ v.Shows s grp' := by
  unfold removeUser Shows
  cases v.userItemMap.find id with
  | none => exact Iff.rfl
  | some item =>
    dsimp only
    split
    · rw [UserMap.getElem?_erase, if_neg hs, UserMap.getElem?_modify, if_neg hs]
    · rw [UserMap.idMap_resolve, UserMap.getElem?_modify, if_neg hs]

/-- The item of a string without the feed of the group, which goes when that was its last one. -/
theorem shows_removeUser_self (v : UsersView) {id : UserKey} (hne : id.idStr ≠ "") {grp : Int}
    {item : FeedIdMap} (hf : v.userItemMap.find id = some item) (grp' : Int) :
    (v.removeUser id grp).Shows id.idStr grp' ↔ grp' ∈ item ∧ grp' ≠ grp := by
  have hitem := (v.userItemMap.find_of_named hne).symm.trans hf
  unfold removeUser
  rw [hf]
  by_cases hlast : (item.erase grp).isEmpty = true
  · have hnot : ∀ g, g ∉ item.erase grp := by
      simpa using TreeMap.isEmpty_iff_forall_not_mem.1 hlast
    have honly : grp' ∈ item → grp' = grp := fun hmem => by
      by_contra hne'
      exact hnot grp' (by simpa [hmem] using Ne.symm hne')
    simp only [Shows, userRemove, hlast, if_true, UserMap.getElem?_erase, hne, ne_eq,
      not_false_eq_true, true_and]
    simpa using honly
  · simp only [Shows, userRemove, hlast, if_false, Bool.false_eq_true, UserMap.idMap_resolve,
      UserMap.getElem?_modify, hne, ne_eq, not_false_eq_true, true_and, if_true, hitem]
    simp [and_comm, @eq_comm Int grp']

/-- The feed of the group is taken out of the item of the id string, whichever node it stands for. -/
theorem shows_removeUser (v : UsersView) (id : UserKey) (grp : Int) (s : String) (grp' : Int) :
    (v.removeUser id grp).Shows s grp' ↔
      v.Shows s grp' ∧ ¬ (id.idStr ≠ "" ∧ id.idStr = s ∧ grp' = grp) := by
  by_cases hs : id.idStr ≠ "" ∧ id.idStr = s
  · obtain ⟨hne, rfl⟩ := hs
    simp only [ne_eq, hne, not_false_eq_true, true_and]
    have hfind := v.userItemMap.find_of_named hne
    cases hf : v.userItemMap.find id with
    | none =>
      have hnone : ¬ v.Shows id.idStr grp' := by
        rintro ⟨item, hitem, -⟩
        rw [← hfind, hf] at hitem
        cases hitem
      have hsame : v.removeUser id grp = v := by
        unfold removeUser
        rw [hf]
      rw [hsame]
      exact ⟨fun h => absurd h hnone, And.left⟩
    | some item =>
      have hshows : v.Shows id.idStr grp' ↔ grp' ∈ item := by
        rw [Shows, ← hfind, hf]
        simp
      rw [shows_removeUser_self v hne hf, hshows]
  · rw [shows_removeUser_of_ne v hs]
    exact ⟨fun h => ⟨h, fun h' => hs ⟨h'.1, h'.2.1⟩⟩, And.left⟩

@[simp] theorem roomId_updateUser (v : UsersView) (u : User) (grp : Int) :
    (v.updateUser u grp).roomId = v.roomId := by
  unfold updateUser
  split
  · split <;> rfl
  · split
    · rfl
    · unfold removeUser
      split <;> rfl

@[simp] theorem roomId_removeUser (v : UsersView) (id : UserKey) (grp : Int) :
    (v.removeUser id grp).roomId = v.roomId := by
  unfold removeUser
  split <;> rfl

/-- Items with a feed stay such, and new ones have one. -/
theorem Good.of_map {v : UsersView} (h : v.Good) {m : UserMap FeedIdMap} (hunnamed : m.Unnamed)
    (hfeeds : ∀ (s : String) (item : FeedIdMap), m.idMap[s]? = some item →
      v.userItemMap.idMap[s]? = some item ∨ s ≠ "" ∧ ∃ grp, grp ∈ item) :
    ({ v with userItemMap := m } : UsersView).Good where
  feeds s item hitem := (hfeeds s item hitem).elim (h.feeds s item) id
  unnamed := hunnamed

theorem Good.removeUser {v : UsersView} (h : v.Good) (id : UserKey) (grp : Int) :
    (v.removeUser id grp).Good := by
  unfold UsersView.removeUser
  cases hf : v.userItemMap.find id with
  | none => exact h
  | some item =>
    have hmod := h.unnamed.modify id fun item => (userRemove item grp).1
    by_cases hlast : (userRemove item grp).2 = true
    · simp only [hlast, if_true]
      refine h.of_map (hmod.erase id) fun s item' hitem' => ?_
      rw [UserMap.getElem?_erase] at hitem'
      split at hitem'
      · cases hitem'
      · rename_i hs
        rw [UserMap.getElem?_modify, if_neg hs] at hitem'
        exact .inl hitem'
    · simp only [hlast, if_false, Bool.false_eq_true]
      refine h.of_map (hmod.resolve id) fun s item' hitem' => ?_
      rw [UserMap.idMap_resolve, UserMap.getElem?_modify] at hitem'
      split at hitem'
      · rename_i hs
        obtain ⟨hne, rfl⟩ := hs
        have hitem := (v.userItemMap.find_of_named hne).symm.trans hf
        rw [hitem, Option.map_some, Option.some.injEq] at hitem'
        subst hitem'
        have hsome : ¬ ∀ g, g ∉ item.erase grp := fun hall =>
          absurd (TreeMap.isEmpty_iff_forall_not_mem.2 hall) (by simpa [userRemove] using hlast)
        exact .inr ⟨hne, by simpa [userRemove] using not_forall_not.1 hsome⟩
      · exact .inl hitem'

theorem Good.updateUser {v : UsersView} (h : v.Good) (u : User) (grp : Int) :
    (v.updateUser u grp).Good := by
  unfold UsersView.updateUser
  cases hf : v.userItemMap.find u.id with
  | none =>
    simp only
    split
    · refine h.of_map ((h.unnamed.insert u.id _).resolve u.id) fun s item' hitem' => ?_
      rw [UserMap.idMap_resolve, UserMap.getElem?_insert hf] at hitem'
      split at hitem'
      · rename_i hs
        obtain ⟨hne, rfl⟩ := hs
        cases hitem'
        exact .inr ⟨hne, grp, by simp⟩
      · exact .inl hitem'
    · exact h
  | some item =>
    simp only
    split
    · refine h.of_map ((h.unnamed.modify u.id _).resolve u.id) fun s item' hitem' => ?_
      rw [UserMap.idMap_resolve, UserMap.getElem?_modify] at hitem'
      split at hitem'
      · rename_i hs
        obtain ⟨hne, rfl⟩ := hs
        obtain ⟨item₀, -, rfl⟩ := Option.map_eq_some_iff.1 hitem'
        exact .inr ⟨hne, grp, by simp⟩
      · exact .inl hitem'
    · exact h.removeUser u.id grp

theorem Good.removeDropped {v : UsersView} (h : v.Good) : v.removeDropped.Good :=
  ⟨h.feeds, h.unnamed⟩

end UsersView

end RvHouse
