import Mathlib.Data.Option.Basic
import RvHouse.Messaging.Message

/-!
# The model of the GUI

`model::house`: for each allowed group a house of its own and a map from id strings to the keys of
the users, so that a user can be found by its id string alone. The GUI thread keeps it up to date
from the messages of the group handlers (`handleModelUpdate`).

What one group's part does is stated as lookups (`userFind_userUpdate`, `userFind_userErase` and
the same for rooms); `houseFind_handleModelUpdate` says that a message changes its own group only.
-/

namespace RvHouse

open Std

/-- The entries of `_house_map`, `_grp_str_map` and `_grp_dsc_map` for one group. -/
structure GroupHouse where
  house : House := {}
  strMap : TreeMap String UserKey := ∅
  dsc : String := ""

namespace GroupHouse

/-! ## One group -/

/-- `model::house::user_update`. The iterator returned designates the entry with the key given, and
none when the entry that it designates has been erased. -/
def userUpdate (g : GroupHouse) (u : User) : GroupHouse × Option UserKey :=
  match g.house.userFind u.id with
  | none =>
    ({ g with
        house := (g.house.userInsert u).getD g.house
        strMap :=
          if u.id.idStr ≠ "" then g.strMap.insertIfNew u.id.idStr u.id else g.strMap },
      some u.id)
  | some ui =>
    -- An update without an id string is not taken over.
    if u.id.idStr = "" then (g, some ui.id)
    else if ui.id.idStr ≠ u.id.idStr then
      let h := g.house.userErase ui.id
      ({ g with
          house := (h.userInsert u).getD h
          strMap := (g.strMap.erase ui.id.idStr).insertIfNew u.id.idStr u.id },
        none)
    else ({ g with house := g.house.userStore (ui.assign u) }, some ui.id)

/-- `model::house::user_erase`. -/
def userErase (g : GroupHouse) (id : UserKey) : GroupHouse × Bool :=
  ({ g with house := g.house.userErase id, strMap := g.strMap.erase id.idStr },
    (g.house.userFind id).isSome)

/-- `model::house::_user_find`. -/
def userFind (g : GroupHouse) (id : UserKey) : Option User :=
  let sid :=
    if id.node = none then
      match g.strMap[id.idStr]? with
      | some k => { id with node := k.node }
      | none => id
    else id
  g.house.userFind sid

/-- `model::house::room_update`. -/
def roomUpdate (g : GroupHouse) (r : Room) : GroupHouse :=
  match g.house.roomFind r.id with
  | none => { g with house := (g.house.roomInsert r).getD g.house }
  | some ri => { g with house := g.house.roomStore (ri.assign r) }

/-- `model::house::room_erase`. -/
def roomErase (g : GroupHouse) (id : String) : GroupHouse × Bool :=
  ({ g with house := g.house.roomErase id }, (g.house.roomFind id).isSome)

/-- The entry of the node of `u` after `userUpdate`. -/
theorem userFind_userUpdate (g : GroupHouse) (u : User) (k : UserKey) :
    (g.userUpdate u).1.house.userFind k =
      if u.id.node = k.node then
        if u.id.idStr = "" ∧ (g.house.userFind u.id).isSome then g.house.userFind u.id else some u
      else g.house.userFind k := by
  unfold userUpdate
  cases hf : g.house.userFind u.id with
  | none =>
    have hins : g.house.userInsert u = some { g.house with users := g.house.users.insert u } :=
      House.userInsert_eq_some.2 ⟨hf, rfl⟩
    simp [hins, House.userFind_userInsert hins]
  | some ui =>
    have hnode : ui.id.node = u.id.node := House.node_of_userFind hf
    by_cases hid : u.id.idStr = ""
    · simp only [hid, if_true, true_and, Option.isSome_some]
      split
      · rename_i hk
        rw [← hf]
        exact House.userFind_congr hk.symm
      · rfl
    · by_cases hne : ui.id.idStr = u.id.idStr
      · have hassign : ui.assign u = u := by
          have hkey : ui.id = u.id := UserKey.ext hnode hne
          simp [User.assign, hkey]
        simp only [hid, hne, hassign, if_false, ne_eq, not_true_eq_false, false_and,
          House.userFind_userStore]
        split
        · rename_i hk
          rw [← House.userFind_congr hk, hf, Option.map_some]
        · rfl
      · have hgone : (g.house.userErase ui.id).userFind u.id = none := by
          rw [House.userFind_userErase, if_pos hnode]
        obtain ⟨h', hins⟩ : ∃ h', (g.house.userErase ui.id).userInsert u = some h' :=
          ⟨_, House.userInsert_eq_some.2 ⟨hgone, rfl⟩⟩
        simp only [hid, hne, hins, if_false, ne_eq, not_false_eq_true, if_true, false_and,
          Option.getD_some, House.userFind_userInsert hins, House.userFind_userErase, hnode]
        split <;> simp [*]

@[simp] theorem roomFind_userUpdate (g : GroupHouse) (u : User) (id : String) :
    (g.userUpdate u).1.house.roomFind id = g.house.roomFind id := by
  have hins : ∀ h : House, ((h.userInsert u).getD h).roomFind id = h.roomFind id := by
    intro h
    cases hh : h.userInsert u with
    | none => rfl
    | some h' => exact House.roomFind_userInsert hh id
  unfold userUpdate
  split
  · exact hins g.house
  · split
    · rfl
    · split
      · exact hins _
      · rfl

theorem userFind_userErase (g : GroupHouse) (id k : UserKey) :
    (g.userErase id).1.house.userFind k =
      if id.node = k.node then none else g.house.userFind k :=
  House.userFind_userErase g.house id k

@[simp] theorem userFind_roomUpdate (g : GroupHouse) (r : Room) (k : UserKey) :
    (g.roomUpdate r).house.userFind k = g.house.userFind k := by
  unfold roomUpdate
  split
  · cases hh : g.house.roomInsert r with
    | none => rfl
    | some h' => exact House.userFind_roomInsert hh k
  · rfl

/-- The entry of the id of `r` after `roomUpdate`. -/
theorem roomFind_roomUpdate (g : GroupHouse) (r : Room) (id : String) :
    (g.roomUpdate r).house.roomFind id = if r.id = id then some r else g.house.roomFind id := by
  unfold roomUpdate
  cases hr : g.house.roomFind r.id with
  | none =>
    have hins : g.house.roomInsert r = some { g.house with rooms := g.house.rooms.insert r } :=
      House.roomInsert_eq_some.2 ⟨hr, rfl⟩
    simp [hins, House.roomFind_roomInsert hins]
  | some ri =>
    have hassign : ri.assign r = r := by simp [Room.assign, House.id_of_roomFind hr]
    simp only [hassign, House.roomFind_roomStore]
    split
    · rename_i hid
      rw [← hid, hr, Option.map_some]
    · rfl

@[simp] theorem userFind_roomErase (g : GroupHouse) (id : String) (k : UserKey) :
    (g.roomErase id).1.house.userFind k = g.house.userFind k := rfl

theorem roomFind_roomErase (g : GroupHouse) (id id' : String) :
    (g.roomErase id).1.house.roomFind id' = if id = id' then none else g.house.roomFind id' :=
  House.roomFind_roomErase g.house id id'

end GroupHouse

/-! ## All groups -/

/-- `model::house`. -/
structure ModelHouse where
  groups : TreeMap Int GroupHouse := ∅

namespace ModelHouse

/-- `model::house::allow_group`. -/
def allowGroup (m : ModelHouse) (dsc : String) (grp : Int) : ModelHouse :=
  { groups := m.groups.insert grp { dsc } }

/-- `model::house::_house_find`; `none` when the group is not allowed and the call throws. -/
def houseFind (m : ModelHouse) (grp : Int) : Option GroupHouse := m.groups[grp]?

/-- `model::house::user_update`; `none` when its assertion fails or it throws. -/
def userUpdate (m : ModelHouse) (u : User) (grp : Int) : Option ModelHouse := do
  guard (u.id.node ≠ none)
  let g ← m.houseFind grp
  return { groups := m.groups.insert grp (g.userUpdate u).1 }

/-- `model::house::user_erase`. -/
def userErase (m : ModelHouse) (id : UserKey) (grp : Int) : Option ModelHouse := do
  let g ← m.houseFind grp
  return { groups := m.groups.insert grp (g.userErase id).1 }

/-- `model::house::user_find(id)`: the first group in which the user is found. -/
def userFind (m : ModelHouse) (id : UserKey) : Option User :=
  m.groups.toList.findSome? fun g => g.2.userFind id

/-- `model::house::user_find(id, grp)`. -/
def userFindIn (m : ModelHouse) (id : UserKey) (grp : Int) : Option User := do
  (← m.houseFind grp).userFind id

/-- `room_id` of the entry that `user_find(id, grp)` gives is set, if there is one. -/
def setRoomId (m : ModelHouse) (id : UserKey) (grp : Int) (rid : String) : Option ModelHouse := do
  let g ← m.houseFind grp
  return match g.userFind id with
    | some ui =>
      { groups := m.groups.insert grp
          { g with house := g.house.userStore { ui with roomId := rid } } }
    | none => m

/-- `model::house::room_update`. -/
def roomUpdate (m : ModelHouse) (r : Room) (grp : Int) : Option ModelHouse := do
  let g ← m.houseFind grp
  return { groups := m.groups.insert grp (g.roomUpdate r) }

/-- `model::house::room_erase`. -/
def roomErase (m : ModelHouse) (id : String) (grp : Int) : Option ModelHouse := do
  let g ← m.houseFind grp
  return { groups := m.groups.insert grp (g.roomErase id).1 }

/-- `model::house::room_find(id)`. -/
def roomFind (m : ModelHouse) (id : String) : Option Room :=
  m.groups.toList.findSome? fun g => g.2.house.roomFind id

/-- `model::house::room_find(id, grp)`. -/
def roomFindIn (m : ModelHouse) (id : String) (grp : Int) : Option Room := do
  (← m.houseFind grp).house.roomFind id

/-- The id strings that `model::house::room_size` collects. -/
def roomMembers (m : ModelHouse) (id : String) : List String :=
  (m.groups.toList.flatMap fun g =>
    (g.2.house.users.toList.filter (·.roomId == id)).map (·.id.idStr)).filter (· ≠ "")

/-- `model::house::room_size`: the number of keys of the map filled with them. -/
def roomSize (m : ModelHouse) (id : String) : ℕ := (m.roomMembers id).dedup.length

/-! ## Messages -/

/-- `house_app::_handle_user_model_update`. -/
def handleUserModelUpdate (m : ModelHouse) (msg : Message) : Option ModelHouse :=
  match msg.body, msg.id with
  | .user u, .user => m.userUpdate u msg.groupBase
  | .user u, .userLeft => m.userErase u.id msg.groupBase
  | _, _ => some m

/-- `house_app::_handle_room_model_update`. -/
def handleRoomModelUpdate (m : ModelHouse) (msg : Message) : Option ModelHouse :=
  match msg.body, msg.id with
  | .room r, .room => m.roomUpdate r msg.groupBase
  | .room r, .roomRemove => m.roomErase r.id msg.groupBase
  | _, _ => some m

/-- `house_app::_handle_model_update`. -/
def handleModelUpdate (m : ModelHouse) (msg : Message) : Option ModelHouse := do
  (← m.handleUserModelUpdate msg).handleRoomModelUpdate msg

/-- The messages of a batch, in order. -/
def handleModelUpdates (m : ModelHouse) (msgs : List Message) : Option ModelHouse :=
  msgs.foldlM handleModelUpdate m

end ModelHouse

/-- What a message does to the part of its own group. -/
def GroupHouse.handle (g : GroupHouse) (msg : Message) : GroupHouse :=
  match msg.body, msg.id with
  | .user u, .user => (g.userUpdate u).1
  | .user u, .userLeft => (g.userErase u.id).1
  | .room r, .room => g.roomUpdate r
  | .room r, .roomRemove => (g.roomErase r.id).1
  | _, _ => g

/-- The parts of a group after a batch of its messages. -/
def GroupHouse.handleAll (g : GroupHouse) (msgs : List Message) : GroupHouse :=
  msgs.foldl GroupHouse.handle g

@[simp] theorem handleAll_nil (g : GroupHouse) : g.handleAll [] = g := rfl

@[simp] theorem handleAll_cons (g : GroupHouse) (m : Message) (ms : List Message) :
    g.handleAll (m :: ms) = (g.handle m).handleAll ms := rfl

theorem handleAll_append (g : GroupHouse) (ms ms' : List Message) :
    g.handleAll (ms ++ ms') = (g.handleAll ms).handleAll ms' := List.foldl_append

@[simp] theorem handle_user (g : GroupHouse) (u : User) (seq : UInt32) (base : Int) :
    g.handle (.ofUser .user u seq base) = (g.userUpdate { u with sequence := seq }).1 := rfl

@[simp] theorem handle_userLeft (g : GroupHouse) (u : User) (seq : UInt32) (base : Int) :
    g.handle (.ofUser .userLeft u seq base) = (g.userErase u.id).1 := rfl

@[simp] theorem handle_room (g : GroupHouse) (r : Room) (uid : UserKey) (seq : UInt32)
    (base : Int) :
    g.handle (.ofRoom .room r uid seq base) = g.roomUpdate { r with sequence := seq } := rfl

@[simp] theorem handle_roomRemove (g : GroupHouse) (r : Room) (uid : UserKey) (seq : UInt32)
    (base : Int) : g.handle (.ofRoom .roomRemove r uid seq base) = (g.roomErase r.id).1 := rfl

namespace ModelHouse

theorem houseFind_insert (m : ModelHouse) (grp : Int) (g : GroupHouse) (grp' : Int) :
    ({ groups := m.groups.insert grp g } : ModelHouse).houseFind grp' =
      if grp = grp' then some g else m.houseFind grp' := by
  simp only [houseFind, TreeMap.getElem?_insert, LawfulEqOrd.compare_eq_iff_eq]

theorem houseFind_allowGroup (m : ModelHouse) (dsc : String) (grp grp' : Int) :
    (m.allowGroup dsc grp).houseFind grp' =
      if grp = grp' then some { dsc } else m.houseFind grp' :=
  houseFind_insert m grp { dsc } grp'

theorem setRoomId_eq_none {m : ModelHouse} {id : UserKey} {grp : Int} {rid : String} :
    m.setRoomId id grp rid = none ↔ m.houseFind grp = none := by
  unfold setRoomId
  cases m.houseFind grp <;> simp

/-- Only four kinds of messages are about the model. -/
theorem handleModelUpdate_other {msg : Message}
    (h : msg.id ∉ [MsgId.user, .userLeft, .room, .roomRemove]) (m : ModelHouse) :
    m.handleModelUpdate msg = some m := by
  obtain ⟨id, sender, seq, gb, body⟩ := msg
  simp only [List.mem_cons, List.not_mem_nil, or_false, not_or] at h
  obtain ⟨huser, hleft, hroom, hremove⟩ := h
  have hu : m.handleUserModelUpdate ⟨id, sender, seq, gb, body⟩ = some m := by
    cases body <;> simp [handleUserModelUpdate, huser, hleft]
  have hr : m.handleRoomModelUpdate ⟨id, sender, seq, gb, body⟩ = some m := by
    cases body <;> simp [handleRoomModelUpdate, hroom, hremove]
  rw [handleModelUpdate, hu]
  exact hr

/-- One group is put in the place of what it was. -/
theorem houseFind_put {m m' : ModelHouse} {gb : Int} {f : GroupHouse → GroupHouse}
    (h : (do let g ← m.houseFind gb
             return ({ groups := m.groups.insert gb (f g) } : ModelHouse)) = some m') (grp : Int) :
    m'.houseFind grp = if gb = grp then (m.houseFind grp).map f else m.houseFind grp := by
  obtain ⟨g, hg, hm'⟩ := Option.bind_eq_some_iff.1 h
  cases hm'
  rw [houseFind_insert]
  split
  · rename_i hgrp
    rw [← hgrp, hg, Option.map_some]
  · rfl

/-- A message changes its own group, as `GroupHouse.handle` says, and no other. -/
theorem houseFind_handleModelUpdate {m m' : ModelHouse} {msg : Message}
    (h : m.handleModelUpdate msg = some m') (grp : Int) :
    m'.houseFind grp =
      if msg.groupBase = grp then (m.houseFind grp).map (·.handle msg) else m.houseFind grp := by
  obtain ⟨id, sender, seq, gb, body⟩ := msg
  have hsame : some m = some m' → m'.houseFind grp =
      if gb = grp then (m.houseFind grp).map fun g => g else m.houseFind grp := by
    rintro ⟨⟩
    simp
  cases body with
  | user u =>
    cases id with
    | user =>
      have hu : m.userUpdate u gb = some m' := by
        simpa [handleModelUpdate, handleUserModelUpdate, handleRoomModelUpdate] using h
      obtain ⟨-, -, hput⟩ := Option.bind_eq_some_iff.1 hu
      exact @houseFind_put m m' gb (fun g => (g.userUpdate u).1) hput grp
    | userLeft =>
      have hu : m.userErase u.id gb = some m' := by
        simpa [handleModelUpdate, handleUserModelUpdate, handleRoomModelUpdate] using h
      exact @houseFind_put m m' gb (fun g => (g.userErase u.id).1) hu grp
    | _ => exact hsame h
  | room r =>
    cases id with
    | room => exact @houseFind_put m m' gb (fun g => g.roomUpdate r) h grp
    | roomRemove => exact @houseFind_put m m' gb (fun g => (g.roomErase r.id).1) h grp
    | _ => exact hsame h
  | _ => cases id <;> exact hsame h

/-- A message of an allowed group is taken into the model. -/
theorem exists_handleModelUpdate {m : ModelHouse} {grp : Int} {g : GroupHouse} {msg : Message}
    (hg : m.houseFind grp = some g) (hmsg : msg.Of grp) :
    ∃ m', m.handleModelUpdate msg = some m' := by
  obtain ⟨id, sender, seq, gb, body⟩ := msg
  obtain ⟨rfl, hnode⟩ := hmsg
  cases body with
  | user u =>
    have hu : u.id.node ≠ none := hnode u rfl
    cases id with
    | user =>
      simp [handleModelUpdate, handleUserModelUpdate, handleRoomModelUpdate, userUpdate, hg, hu]
    | userLeft =>
      simp [handleModelUpdate, handleUserModelUpdate, handleRoomModelUpdate, userErase, hg]
    | _ => exact ⟨m, rfl⟩
  | room r =>
    cases id with
    | room =>
      simp [handleModelUpdate, handleUserModelUpdate, handleRoomModelUpdate, roomUpdate, hg]
    | roomRemove =>
      simp [handleModelUpdate, handleUserModelUpdate, handleRoomModelUpdate, roomErase, hg]
    | _ => exact ⟨m, rfl⟩
  | _ => cases id <;> exact ⟨m, rfl⟩

theorem handleModelUpdate_of {m : ModelHouse} {grp : Int} {g : GroupHouse} {msg : Message}
    (hg : m.houseFind grp = some g) (hmsg : msg.Of grp) :
    ∃ m', m.handleModelUpdate msg = some m' ∧ m'.houseFind grp = some (g.handle msg) ∧
      ∀ grp', grp' ≠ grp → m'.houseFind grp' = m.houseFind grp' := by
  obtain ⟨m', h⟩ := exists_handleModelUpdate hg hmsg
  refine ⟨m', h, ?_, fun grp' hne => ?_⟩
  · rw [houseFind_handleModelUpdate h, if_pos hmsg.group, hg, Option.map_some]
  · rw [houseFind_handleModelUpdate h, hmsg.group, if_neg (Ne.symm hne)]

theorem handleModelUpdates_of {m : ModelHouse} {grp : Int} {g : GroupHouse} {msgs : List Message}
    (hg : m.houseFind grp = some g) (hmsgs : ∀ msg ∈ msgs, msg.Of grp) :
    ∃ m', m.handleModelUpdates msgs = some m' ∧ m'.houseFind grp = some (g.handleAll msgs) ∧
      ∀ grp', grp' ≠ grp → m'.houseFind grp' = m.houseFind grp' := by
  induction msgs generalizing m g with
  | nil => exact ⟨m, rfl, hg, fun _ _ => rfl⟩
  | cons msg msgs ih =>
    obtain ⟨hmsg, hmsgs⟩ := List.forall_mem_cons.1 hmsgs
    obtain ⟨m₁, h₁, hg₁, hrest₁⟩ := handleModelUpdate_of hg hmsg
    obtain ⟨m₂, h₂, hg₂, hrest₂⟩ := ih hg₁ hmsgs
    refine ⟨m₂, ?_, hg₂, fun grp' hne => (hrest₂ grp' hne).trans (hrest₁ grp' hne)⟩
    simpa [handleModelUpdates, h₁] using h₂

end ModelHouse

end RvHouse
