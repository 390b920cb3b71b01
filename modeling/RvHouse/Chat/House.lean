import RvHouse.Chat.User
import RvHouse.Lib.IndexedList

/-!
# The house

`chat::house`: the users and the rooms of a group, each in a list that is indexed by key. A write
through an iterator is `userStore` or `roomStore`, the object written having the key of the one
that it replaces. The lookups after each operation (`userFind_userInsert`, `userFind_userErase`,
`userFind_userStore`, and the same for rooms) are all that the group handler's proofs know of the
containers: a user is found by node, a room by id.
-/

namespace RvHouse

open Std

/-- `chat::house`. -/
structure House where
  users : IndexedList UserKey.cmp User.id := .empty
  rooms : IndexedList (compare : String → String → Ordering) Room.id := .empty

namespace House

/-! ## Operations -/

/-- `house::user_find`. -/
def userFind (h : House) (k : UserKey) : Option User := h.users.get? k

/-- `chat_gaming::house::user_find(const std::string &)`: the first user with that string. -/
def userFindStr (h : House) (idStr : String) : Option User :=
  h.users.toList.find? (·.id.idStr == idStr)

/-- `house::user_insert`; `none` when the key is in use and `user_end()` is returned. -/
def userInsert (h : House) (u : User) : Option House :=
  if (h.userFind u.id).isSome then none else some { h with users := h.users.insert u }

/-- `house::user_erase`. -/
def userErase (h : House) (k : UserKey) : House := { h with users := h.users.erase k }

/-- The entry with the key of `u` becomes `u`. -/
def userStore (h : House) (u : User) : House :=
  { h with users := h.users.modify u.id (fun _ => u) fun _ _ => ReflCmp.compare_self }

/-- `house::room_find`. -/
def roomFind (h : House) (id : String) : Option Room := h.rooms.get? id

/-- `house::room_insert`; `none` when the id is in use and `room_end()` is returned. -/
def roomInsert (h : House) (r : Room) : Option House :=
  if (h.roomFind r.id).isSome then none else some { h with rooms := h.rooms.insert r }

/-- `house::room_erase`. -/
def roomErase (h : House) (id : String) : House := { h with rooms := h.rooms.erase id }

/-- The entry with the id of `r` becomes `r`. -/
def roomStore (h : House) (r : Room) : House :=
  { h with rooms := h.rooms.modify r.id (fun _ => r) fun _ _ => ReflCmp.compare_self }

/-- `house::user_ids_in_room`. -/
def userIdsInRoom (h : House) (id : String) : List UserKey :=
  (h.users.toList.filter (·.roomId == id)).map User.id

variable {h h' : House}

/-! ## Users -/

theorem userFind_congr {k k' : UserKey} (hk : k.node = k'.node) : h.userFind k = h.userFind k' :=
  IndexedList.get?_congr (UserKey.cmp_eq_iff.2 hk)

theorem node_of_userFind {k : UserKey} {u : User} (hu : h.userFind k = some u) :
    u.id.node = k.node :=
  UserKey.cmp_eq_iff.1 (IndexedList.cmp_of_get? hu)

theorem mem_users {u : User} : u ∈ h.users.toList ↔ h.userFind u.id = some u :=
  IndexedList.mem_toList

@[simp] theorem userFind_empty (k : UserKey) : ({} : House).userFind k = none :=
  IndexedList.get?_empty k

theorem userInsert_eq_some {u : User} :
    h.userInsert u = some h' ↔
      h.userFind u.id = none ∧ h' = { h with users := h.users.insert u } := by
  unfold userInsert
  cases h.userFind u.id <;> simp [eq_comm]

theorem userFind_userInsert {u : User} (hu : h.userInsert u = some h') (k : UserKey) :
    h'.userFind k = if u.id.node = k.node then some u else h.userFind k := by
  obtain ⟨hnone, rfl⟩ := userInsert_eq_some.1 hu
  simp only [userFind, IndexedList.get?_insert hnone, UserKey.cmp_eq_iff]

theorem userFind_userErase (h : House) (k k' : UserKey) :
    (h.userErase k).userFind k' = if k.node = k'.node then none else h.userFind k' := by
  simp only [userFind, userErase, IndexedList.get?_erase, UserKey.cmp_eq_iff]

theorem userFind_userStore (h : House) (u : User) (k : UserKey) :
    (h.userStore u).userFind k =
      if u.id.node = k.node then (h.userFind k).map fun _ => u else h.userFind k := by
  simp only [userFind, userStore, IndexedList.get?_modify, UserKey.cmp_eq_iff]

theorem userFind_roomInsert {r : Room} (hr : h.roomInsert r = some h') (k : UserKey) :
    h'.userFind k = h.userFind k := by
  unfold roomInsert at hr
  split at hr
  · cases hr
  · cases hr
    rfl

/-! ## Rooms -/

theorem id_of_roomFind {id : String} {r : Room} (hr : h.roomFind id = some r) : r.id = id :=
  LawfulEqOrd.eq_of_compare (IndexedList.cmp_of_get? hr)

@[simp] theorem roomFind_empty (id : String) : ({} : House).roomFind id = none :=
  IndexedList.get?_empty id

theorem roomInsert_eq_some {r : Room} :
    h.roomInsert r = some h' ↔
      h.roomFind r.id = none ∧ h' = { h with rooms := h.rooms.insert r } := by
  unfold roomInsert
  cases h.roomFind r.id <;> simp [eq_comm]

theorem roomFind_roomInsert {r : Room} (hr : h.roomInsert r = some h') (id : String) :
    h'.roomFind id = if r.id = id then some r else h.roomFind id := by
  obtain ⟨hnone, rfl⟩ := roomInsert_eq_some.1 hr
  simp only [roomFind, IndexedList.get?_insert hnone, LawfulEqOrd.compare_eq_iff_eq]

theorem roomFind_roomErase (h : House) (id id' : String) :
    (h.roomErase id).roomFind id' = if id = id' then none else h.roomFind id' := by
  simp only [roomFind, roomErase, IndexedList.get?_erase, LawfulEqOrd.compare_eq_iff_eq]

theorem roomFind_roomStore (h : House) (r : Room) (id : String) :
    (h.roomStore r).roomFind id =
      if r.id = id then (h.roomFind id).map fun _ => r else h.roomFind id := by
  simp only [roomFind, roomStore, IndexedList.get?_modify, LawfulEqOrd.compare_eq_iff_eq]

@[simp] theorem roomFind_userErase (h : House) (k : UserKey) (id : String) :
    (h.userErase k).roomFind id = h.roomFind id := rfl

@[simp] theorem roomFind_userStore (h : House) (u : User) (id : String) :
    (h.userStore u).roomFind id = h.roomFind id := rfl

theorem roomFind_userInsert {u : User} (hu : h.userInsert u = some h') (id : String) :
    h'.roomFind id = h.roomFind id := by
  obtain ⟨-, rfl⟩ := userInsert_eq_some.1 hu
  rfl

end House

end RvHouse
