import Mathlib.Data.List.Dedup
import Mathlib.Data.Set.Card
import Mathlib.Data.List.Perm.Subperm
import RvHouse.Model.House

/-!
# Who is in a room

`model::house::room_size` counts the id strings of the users that the model has in a room
(`mem_roomMembers`, `roomSize_eq_ncard`). The model loses track of a user only when a message
overwrites or erases the entry that had the user in the room: `mem_roomMembers_handleModelUpdate`
asks for an entry that the message spares. Reserving a place (`setRoomId`) loses track of nobody.
-/

namespace RvHouse

open Std

namespace ModelHouse

/-- The model has the entry `u` in the group. -/
def HasEntry (m : ModelHouse) (grp : Int) (u : User) : Prop :=
  ∃ g, m.houseFind grp = some g ∧ g.house.userFind u.id = some u

/-- The entry `u` of the group has a user in the room. -/
structure Seats (m : ModelHouse) (rid id : String) (grp : Int) (u : User) : Prop where
  entry : m.HasEntry grp u
  room : u.roomId = rid
  idStr : u.id.idStr = id

theorem mem_groups_toList {m : ModelHouse} {grp : Int} {g : GroupHouse} :
    (grp, g) ∈ m.groups.toList ↔ m.houseFind grp = some g :=
  TreeMap.mem_toList_iff_getElem?_eq_some

theorem mem_roomMembers {m : ModelHouse} {rid id : String} :
    id ∈ m.roomMembers rid ↔ id ≠ "" ∧ ∃ grp u, m.Seats rid id grp u := by
  simp only [roomMembers, List.mem_filter, List.mem_flatMap, List.mem_map, Prod.exists,
    decide_eq_true_eq, beq_iff_eq, House.mem_users]
  constructor
  · rintro ⟨⟨grp, g, hg, u, ⟨hu, hroom⟩, hid⟩, hne⟩
    exact ⟨hne, grp, u, ⟨g, mem_groups_toList.1 hg, hu⟩, hroom, hid⟩
  · rintro ⟨hne, grp, u, ⟨g, hg, hu⟩, hroom, hid⟩
    exact ⟨⟨grp, g, mem_groups_toList.2 hg, u, ⟨hu, hroom⟩, hid⟩, hne⟩

/-- The users of a room that have an id string, over all groups. -/
def roomUsers (m : ModelHouse) (rid : String) : Set String :=
  {id | id ≠ "" ∧ ∃ grp u, m.Seats rid id grp u}

/-- The size of a room is the number of its users. -/
theorem roomSize_eq_ncard (m : ModelHouse) (rid : String) :
    m.roomSize rid = (m.roomUsers rid).ncard := by
  have hset : m.roomUsers rid = ((m.roomMembers rid).toFinset : Set String) := by
    ext id
    rw [List.coe_toFinset]
    exact mem_roomMembers.symm
  rw [hset, Set.ncard_coe_finset, List.card_toFinset, roomSize]

theorem ne_empty_of_mem_roomMembers {m : ModelHouse} {rid id : String}
    (h : id ∈ m.roomMembers rid) : id ≠ "" :=
  (mem_roomMembers.1 h).1

/-- Users that the model has in the room, and one more, are at most one more than it counts. -/
theorem length_dedup_le_roomSize {m : ModelHouse} {rid idStr : String} {ids : List String}
    (h : ∀ id ∈ ids, id = idStr ∨ id ∈ m.roomMembers rid) :
    ids.dedup.length ≤ m.roomSize rid + 1 := by
  have hsub : ids.dedup ⊆ idStr :: (m.roomMembers rid).dedup := fun id hid =>
    List.mem_cons.2 ((h id (List.mem_dedup.1 hid)).imp_right List.mem_dedup.2)
  exact ((List.nodup_dedup ids).subperm hsub).length_le

/-! ## Messages -/

/-- The message leaves the user where the entry has it: it neither erases the entry nor overwrites
it with another id string or another room. -/
def Spares (msg : Message) (grp : Int) (u : User) : Prop :=
  msg.groupBase = grp → ∀ v, msg.body = .user v → v.id.node = u.id.node →
    msg.id ≠ .userLeft ∧
      (msg.id = .user → v.id.idStr = "" ∨ v.id.idStr = u.id.idStr ∧ v.roomId = u.roomId)

theorem exists_userFind_userUpdate {g : GroupHouse} {u v : User}
    (hu : g.house.userFind u.id = some u)
    (hv : v.id.node = u.id.node →
      v.id.idStr = "" ∨ v.id.idStr = u.id.idStr ∧ v.roomId = u.roomId) :
    ∃ w, (g.userUpdate v).1.house.userFind w.id = some w ∧ w.roomId = u.roomId ∧
      w.id.idStr = u.id.idStr := by
  by_cases hnode : v.id.node = u.id.node
  · have hfind : g.house.userFind v.id = some u := (House.userFind_congr hnode).trans hu
    rcases hv hnode with hempty | ⟨hid, hroom⟩
    · exact ⟨u, by simp [g.userFind_userUpdate, hnode, hempty, hfind], rfl, rfl⟩
    · by_cases hempty : v.id.idStr = ""
      · exact ⟨u, by simp [g.userFind_userUpdate, hnode, hempty, hfind], rfl, rfl⟩
      · exact ⟨v, by simp [g.userFind_userUpdate, hempty], hroom, hid⟩
  · exact ⟨u, by rw [g.userFind_userUpdate, if_neg hnode, hu], rfl, rfl⟩

theorem exists_userFind_handle {g : GroupHouse} {grp : Int} {u : User} {msg : Message}
    (hu : g.house.userFind u.id = some u) (hgrp : msg.groupBase = grp) (hmsg : Spares msg grp u) :
    ∃ w, (g.handle msg).house.userFind w.id = some w ∧ w.roomId = u.roomId ∧
      w.id.idStr = u.id.idStr := by
  have hspare := hmsg hgrp
  obtain ⟨id, sender, seq, gb, body⟩ := msg
  cases body with
  | user v =>
    cases id with
    | user => exact exists_userFind_userUpdate hu fun hnode => (hspare v rfl hnode).2 rfl
    | userLeft =>
      have hnode : v.id.node ≠ u.id.node := fun hnode => (hspare v rfl hnode).1 rfl
      exact ⟨u, by rw [GroupHouse.handle, g.userFind_userErase, if_neg hnode, hu], rfl, rfl⟩
    | _ => exact ⟨u, hu, rfl, rfl⟩
  | room r =>
    cases id with
    | room => exact ⟨u, by rw [GroupHouse.handle, g.userFind_roomUpdate, hu], rfl, rfl⟩
    | roomRemove => exact ⟨u, hu, rfl, rfl⟩
    | _ => exact ⟨u, hu, rfl, rfl⟩
  | _ => cases id <;> exact ⟨u, hu, rfl, rfl⟩

/-- A user stays in the room when the message spares an entry that has it there. -/
theorem mem_roomMembers_handleModelUpdate {m m' : ModelHouse} {msg : Message} {rid id : String}
    {grp : Int} {u : User} (h : m.handleModelUpdate msg = some m') (hne : id ≠ "")
    (hu : m.Seats rid id grp u) (hmsg : Spares msg grp u) : id ∈ m'.roomMembers rid := by
  obtain ⟨⟨g, hg, hfind⟩, hroom, hid⟩ := hu
  have hg' := houseFind_handleModelUpdate h grp
  rw [hg, Option.map_some] at hg'
  by_cases hgrp : msg.groupBase = grp
  · rw [if_pos hgrp] at hg'
    obtain ⟨w, hw, hwroom, hwid⟩ := exists_userFind_handle hfind hgrp hmsg
    exact mem_roomMembers.2 ⟨hne, grp, w, ⟨_, hg', hw⟩, hwroom.trans hroom, hwid.trans hid⟩
  · rw [if_neg hgrp] at hg'
    exact mem_roomMembers.2 ⟨hne, grp, u, ⟨g, hg', hfind⟩, hroom, hid⟩

/-! ## Reserving a place -/

/-- The user that is found is an entry of its group. -/
theorem house_userFind_of_userFind {g : GroupHouse} {id : UserKey} {ui : User}
    (h : g.userFind id = some ui) : g.house.userFind ui.id = some ui := by
  unfold GroupHouse.userFind at h
  rwa [House.userFind_congr (House.node_of_userFind h)]

/-- The user that is found is put into the room, and nobody else changes. -/
theorem setRoomId_cases {m m' : ModelHouse} {id : UserKey} {grp : Int} {rid : String}
    (h : m.setRoomId id grp rid = some m') :
    m.userFindIn id grp = none ∧ m' = m ∨
      ∃ g ui g', m.houseFind grp = some g ∧ m.userFindIn id grp = some ui ∧
        g.house.userFind ui.id = some ui ∧ m'.houseFind grp = some g' ∧
        (∀ grp', grp ≠ grp' → m'.houseFind grp' = m.houseFind grp') ∧
        ∀ k, g'.house.userFind k =
          if ui.id.node = k.node then some { ui with roomId := rid } else g.house.userFind k := by
  obtain ⟨g, hg, hset⟩ := Option.bind_eq_some_iff.1 h
  have hfindIn : m.userFindIn id grp = g.userFind id := by simp [userFindIn, hg]
  cases hfind : g.userFind id with
  | none =>
    simp only [hfind] at hset
    cases hset
    exact .inl ⟨hfindIn.trans hfind, rfl⟩
  | some ui =>
    simp only [hfind] at hset
    cases hset
    refine .inr ⟨g, ui, { g with house := g.house.userStore { ui with roomId := rid } }, hg,
      hfindIn.trans hfind, house_userFind_of_userFind hfind, ?_, fun grp' hne => ?_, fun k => ?_⟩
    · exact (houseFind_insert _ _ _ _).trans (if_pos rfl)
    · exact (houseFind_insert _ _ _ _).trans (if_neg hne)
    · rw [House.userFind_userStore]
      split
      · rename_i hnode
        rw [← House.userFind_congr hnode, house_userFind_of_userFind hfind, Option.map_some]
      · rfl

/-- The user that is found is in the room afterwards. -/
theorem mem_roomMembers_of_userFindIn {m m' : ModelHouse} {id : UserKey} {grp : Int} {rid : String}
    {ui : User} (h : m.setRoomId id grp rid = some m') (hui : m.userFindIn id grp = some ui)
    (hne : ui.id.idStr ≠ "") : ui.id.idStr ∈ m'.roomMembers rid := by
  rcases setRoomId_cases h with ⟨hnone, -⟩ | ⟨g, ui', g', -, hui', -, hg', -, hfind⟩
  · rw [hnone] at hui
    cases hui
  · obtain rfl : ui' = ui := Option.some.inj (hui'.symm.trans hui)
    have hentry : m'.HasEntry grp { ui' with roomId := rid } :=
      ⟨g', hg', (hfind _).trans (if_pos rfl)⟩
    exact mem_roomMembers.2 ⟨hne, grp, _, hentry, rfl, rfl⟩

theorem mem_roomMembers_setRoomId {m m' : ModelHouse} {id : UserKey} {grp : Int}
    {rid idStr : String} (h : m.setRoomId id grp rid = some m') (hid : idStr ∈ m.roomMembers rid) :
    idStr ∈ m'.roomMembers rid := by
  rcases setRoomId_cases h with ⟨-, rfl⟩ | ⟨g, ui, g', hg, hui, hold, hg', hrest, hfind⟩
  · exact hid
  · obtain ⟨hne, grp', u, ⟨g₁, hg₁, hu⟩, hroom, hstr⟩ := mem_roomMembers.1 hid
    by_cases hgrp : grp = grp'
    · subst hgrp
      obtain rfl : g = g₁ := Option.some.inj (hg.symm.trans hg₁)
      by_cases hnode : ui.id.node = u.id.node
      · -- The entry is the one that is written, which keeps its id string.
        have hnow : g.house.userFind ui.id = some u := (House.userFind_congr hnode).trans hu
        obtain rfl : ui = u := Option.some.inj (hold.symm.trans hnow)
        subst hstr
        exact mem_roomMembers_of_userFindIn h hui hne
      · have hentry : m'.HasEntry grp u := ⟨g', hg', by rw [hfind, if_neg hnode, hu]⟩
        exact mem_roomMembers.2 ⟨hne, grp, u, hentry, hroom, hstr⟩
    · have hentry : m'.HasEntry grp' u := ⟨g₁, (hrest grp' hgrp).trans hg₁, hu⟩
      exact mem_roomMembers.2 ⟨hne, grp', u, hentry, hroom, hstr⟩

end ModelHouse

end RvHouse
