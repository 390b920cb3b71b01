import RvHouse.Lib.Distinct
import RvHouse.Model.Maps
import RvHouse.Model.Members

/-!
# Two ways to count a room

Whether one more player may come into a room depends on `model::house::room_size`, which goes
through the map of the houses and makes every id string it meets a key of a map. The list of the
participants is written by `multi_feed::users_in_room`, which goes through the map of the
descriptions, takes the keys of the users from each group first, and writes out the strings that it
has not seen.

`roomSize_usersInRoom` says that they find the same: each user of the room with an id string once,
over all groups. `roomSize_eq` connects them to the `ModelHouse.roomSize` of the other modules.
-/

namespace RvHouse.HouseMaps

open Std

/-- `model::house::user_ids_in_room`, with the number that it returns. -/
def userIdsInRoom (s : HouseMaps) (id : String) (grp : Int) : Option (List UserKey × ℕ) := do
  let h ← s.houseFind grp
  let userIds := h.userIdsInRoom id
  return (userIds, userIds.length)

/-- The body of the loops of `model::house::room_size`. -/
def countUser (id : String) (m : TreeMap String Bool) (u : User) : TreeMap String Bool :=
  if u.roomId = id ∧ u.id.idStr ≠ "" then m.insert u.id.idStr true else m

/-- The map that `model::house::room_size` fills. -/
def roomMap (s : HouseMaps) (id : String) : TreeMap String Bool :=
  s.houseMap.toList.foldl (fun m g => List.foldl (countUser id) m g.2.users.toList) ∅

/-- `model::house::room_size`. -/
def roomSize (s : HouseMaps) (id : String) : ℕ := (s.roomMap id).size

/-- The body of the inner loop of `multi_feed::users_in_room`. -/
def collectUser (d : Distinct String) (k : UserKey) : Distinct String :=
  if k.idStr ≠ "" then d.add k.idStr else d

/-- The body of the outer loop of `multi_feed::users_in_room`. -/
def collectGroup (s : HouseMaps) (id : String) (d : Distinct String) (g : Int × String) :
    Option (Distinct String) := do
  let (userIds, _) ← s.userIdsInRoom id g.1
  return userIds.foldl collectUser d

/-- `multi_feed::users_in_room`: the number that it returns and the strings that it writes out;
`none` when it throws. -/
def usersInRoom (s : HouseMaps) (id : String) : Option (ℕ × List String) := do
  let d ← s.grpDscMap.toList.foldlM (s.collectGroup id) .empty
  return (d.seen.size, d.out)

/-- The user is in the room under the id string, which is not empty. -/
structure InRoom (rid idStr : String) (u : User) : Prop where
  room : u.roomId = rid
  name : u.id.idStr = idStr
  ne : idStr ≠ ""

/-! ## The two loops -/

theorem mem_countUser (rid idStr : String) (m : TreeMap String Bool) (u : User) :
    idStr ∈ countUser rid m u ↔ idStr ∈ m ∨ InRoom rid idStr u := by
  unfold countUser
  split
  · rename_i h
    rw [Distinct.mem_insert_iff]
    refine or_congr_right ⟨?_, fun hu => hu.name.symm⟩
    rintro rfl
    exact ⟨h.1, rfl, h.2⟩
  · rename_i h
    refine ⟨.inl, fun hm => hm.resolve_right fun hu => h ⟨hu.room, ?_⟩⟩
    exact hu.name.symm ▸ hu.ne

/-- The keys of the map of `room_size`. -/
theorem mem_roomMap (s : HouseMaps) (rid idStr : String) :
    idStr ∈ s.roomMap rid ↔
      ∃ g ∈ s.houseMap.toList, ∃ u ∈ g.2.users.toList, InRoom rid idStr u := by
  have hgroup : ∀ (m : TreeMap String Bool) (g : Int × House),
      idStr ∈ List.foldl (countUser rid) m g.2.users.toList ↔
        idStr ∈ m ∨ ∃ u ∈ g.2.users.toList, InRoom rid idStr u := fun m g =>
    Distinct.foldl_gains (Q := fun m => idStr ∈ m) (mem_countUser rid idStr) g.2.users.toList m
  rw [roomMap, Distinct.foldl_gains (Q := fun m => idStr ∈ m) hgroup]
  simp

theorem mem_collectUser (idStr : String) (d : Distinct String) (k : UserKey) :
    idStr ∈ (collectUser d k).out ↔ idStr ∈ d.out ∨ k.idStr = idStr ∧ idStr ≠ "" := by
  unfold collectUser
  split
  · rename_i h
    rw [Distinct.mem_add]
    refine or_congr_right ⟨?_, fun hk => hk.1.symm⟩
    rintro rfl
    exact ⟨rfl, h⟩
  · rename_i h
    refine ⟨.inl, fun hd => hd.resolve_right fun hk => h ?_⟩
    exact hk.1.symm ▸ hk.2

/-- The strings of one group. -/
theorem mem_foldl_collectUser (h : House) (rid idStr : String) (d : Distinct String) :
    idStr ∈ ((h.userIdsInRoom rid).foldl collectUser d).out ↔
      idStr ∈ d.out ∨ ∃ u ∈ h.users.toList, InRoom rid idStr u := by
  rw [Distinct.foldl_gains (Q := fun d : Distinct String => idStr ∈ d.out)
    (mem_collectUser idStr)]
  refine or_congr_right ⟨?_, ?_⟩
  · rintro ⟨k, hk, hid, hne⟩
    obtain ⟨u, hu, rfl⟩ := List.mem_map.1 hk
    obtain ⟨hmem, hroom⟩ := List.mem_filter.1 hu
    exact ⟨u, hmem, beq_iff_eq.1 hroom, hid, hne⟩
  · rintro ⟨u, hu, hroom, hid, hne⟩
    refine ⟨u.id, List.mem_map_of_mem (List.mem_filter.2 ⟨hu, ?_⟩), hid, hne⟩
    exact beq_iff_eq.2 hroom

/-! ## The groups -/

/-- A user of the house of the group is in the room under the id string. -/
def Seats (s : HouseMaps) (rid idStr : String) (grp : Int) (u : User) : Prop :=
  ∃ h, s.houseFind grp = some h ∧ u ∈ h.users.toList ∧ InRoom rid idStr u

theorem mem_houseMap_toList {s : HouseMaps} {grp : Int} {h : House} :
    (grp, h) ∈ s.houseMap.toList ↔ s.houseFind grp = some h :=
  TreeMap.mem_toList_iff_getElem?_eq_some

theorem mem_roomMap_iff_seats (s : HouseMaps) (rid idStr : String) :
    idStr ∈ s.roomMap rid ↔ ∃ grp u, s.Seats rid idStr grp u := by
  rw [mem_roomMap]
  constructor
  · rintro ⟨⟨grp, h⟩, hg, u, hu, hroom⟩
    exact ⟨grp, u, h, mem_houseMap_toList.1 hg, hu, hroom⟩
  · rintro ⟨grp, u, h, hg, hu, hroom⟩
    exact ⟨(grp, h), mem_houseMap_toList.2 hg, u, hu, hroom⟩

/-- A group with a description has a house. -/
theorem houseFind_of_described {s : HouseMaps} (hs : s.Described) {g : Int × String}
    (hg : g ∈ s.grpDscMap.toList) : ∃ h, s.houseFind g.1 = some h := by
  have hdsc : g.1 ∈ s.grpDscMap :=
    TreeMap.mem_keys.1 (TreeMap.map_fst_toList_eq_keys ▸ List.mem_map_of_mem hg)
  exact Option.isSome_iff_exists.1 (TreeMap.mem_iff_isSome_getElem?.1 ((hs g.1).1 hdsc))

/-- A group with a house has a description. -/
theorem mem_grpDscMap_of_described {s : HouseMaps} (hs : s.Described) {grp : Int} {h : House}
    (hg : s.houseFind grp = some h) : ∃ dsc, (grp, dsc) ∈ s.grpDscMap.toList := by
  have hhouse : grp ∈ s.houseMap :=
    TreeMap.mem_iff_isSome_getElem?.2 (Option.isSome_of_eq_some hg)
  obtain ⟨dsc, hdsc⟩ :=
    Option.isSome_iff_exists.1 (TreeMap.mem_iff_isSome_getElem?.1 ((hs grp).2 hhouse))
  exact ⟨dsc, TreeMap.mem_toList_iff_getElem?_eq_some.2 hdsc⟩

theorem exists_collectGroup {s : HouseMaps} (hs : s.Described) (rid : String)
    (d : Distinct String) {g : Int × String} (hg : g ∈ s.grpDscMap.toList) :
    ∃ d', s.collectGroup rid d g = some d' ∧
      ∀ idStr, idStr ∈ d'.out ↔ idStr ∈ d.out ∨ ∃ u, s.Seats rid idStr g.1 u := by
  obtain ⟨h, hh⟩ := houseFind_of_described hs hg
  refine ⟨(h.userIdsInRoom rid).foldl collectUser d, ?_, fun idStr => ?_⟩
  · simp [collectGroup, userIdsInRoom, hh]
  · rw [mem_foldl_collectUser]
    simp [Seats, hh]

/-- What `users_in_room` collects when the maps have the same groups. -/
theorem exists_usersInRoom {s : HouseMaps} (hs : s.Described) (rid : String) :
    ∃ d : Distinct String, s.usersInRoom rid = some (d.seen.size, d.out) ∧
      ∀ idStr, idStr ∈ d.out ↔ ∃ grp u, s.Seats rid idStr grp u := by
  obtain ⟨d, hd, hout⟩ :=
    Distinct.foldlM_gains (Q := fun idStr (d : Distinct String) => idStr ∈ d.out)
      (P := fun idStr (g : Int × String) => ∃ u, s.Seats rid idStr g.1 u)
      (fun d g hg => exists_collectGroup hs rid d hg) .empty
  refine ⟨d, by rw [usersInRoom, hd]; rfl, fun idStr => ?_⟩
  rw [hout]
  constructor
  · rintro (hempty | ⟨g, -, u, hu⟩)
    · cases hempty
    · exact ⟨g.1, u, hu⟩
  · rintro ⟨grp, u, h, hg, hu⟩
    obtain ⟨dsc, hdsc⟩ := mem_grpDscMap_of_described hs hg
    exact .inr ⟨(grp, dsc), hdsc, u, h, hg, hu⟩

/-- **The number of players and the list of the participants.** After any calls, and for every
room, both ways find each user of the room with an id string once, over all groups. -/
theorem roomSize_usersInRoom (cs : List ModelCall) (rid : String) :
    ∃ n out, (machine.exec {} cs).usersInRoom rid = some (n, out) ∧
      (machine.exec {} cs).roomSize rid = n ∧ out.length = n ∧ out.Nodup ∧
      ∀ idStr, idStr ∈ out ↔
        idStr ≠ "" ∧ ∃ grp h u, (machine.exec {} cs).houseFind grp = some h ∧
          u ∈ h.users.toList ∧ u.roomId = rid ∧ u.id.idStr = idStr := by
  obtain ⟨d, hd, hout⟩ := exists_usersInRoom (described cs) rid
  have hsize : (machine.exec {} cs).roomSize rid = d.seen.size := by
    rw [d.size_seen]
    refine Distinct.size_eq_length d.nodup fun idStr => ?_
    rw [mem_roomMap_iff_seats, hout]
  refine ⟨d.seen.size, d.out, hd, hsize, d.size_seen.symm, d.nodup, fun idStr => ?_⟩
  rw [hout]
  constructor
  · rintro ⟨grp, u, h, hg, hu, hroom, hname, hne⟩
    exact ⟨hne, grp, h, u, hg, hu, hroom, hname⟩
  · rintro ⟨hne, grp, h, u, hg, hu, hroom, hname⟩
    exact ⟨grp, u, h, hg, hu, hroom, hname, hne⟩

/-! ## The model -/

theorem seats_iff {s : HouseMaps} {m : ModelHouse} (h : s.Agrees m) (rid idStr : String) :
    (∃ grp u, s.Seats rid idStr grp u) ↔ idStr ∈ m.roomMembers rid := by
  rw [ModelHouse.mem_roomMembers]
  have hpart : ∀ grp, m.houseFind grp = s.part grp := fun grp => (h grp).symm
  constructor
  · rintro ⟨grp, u, house, hg, hu, hroom, hname, hne⟩
    refine ⟨hne, grp, u, ⟨⟨house, s.grpStrMap.getD grp ∅, s.grpDscMap.getD grp ""⟩, ?_, ?_⟩, hroom,
      hname⟩
    · rw [hpart, part, hg]
      rfl
    · exact House.mem_users.1 hu
  · rintro ⟨hne, grp, u, ⟨g, hg, hu⟩, hroom, hname⟩
    rw [hpart] at hg
    obtain ⟨house, hhouse, hpure⟩ := Option.bind_eq_some_iff.1 hg
    cases hpure
    exact ⟨grp, u, house, hhouse, House.mem_users.2 hu, hroom, hname, hne⟩

/-- The size of a room is the one that the model gives. -/
theorem roomSize_eq {s : HouseMaps} {m : ModelHouse} (h : s.Agrees m) (rid : String) :
    s.roomSize rid = m.roomSize rid := by
  refine Distinct.size_eq_length (List.nodup_dedup _) fun idStr => ?_
  rw [mem_roomMap_iff_seats, seats_iff h, List.mem_dedup]

/-- The participants are the users that the model has in the room, after any calls. -/
theorem mem_usersInRoom (cs : List ModelCall) {rid : String} {n : ℕ} {out : List String}
    (h : (machine.exec {} cs).usersInRoom rid = some (n, out)) (idStr : String) :
    idStr ∈ out ↔ idStr ∈ (ModelHouse.machine.exec {} cs).roomUsers rid := by
  obtain ⟨d, hd, hout⟩ := exists_usersInRoom (described cs) rid
  obtain rfl : d.out = out := congrArg Prod.snd (Option.some.inj (hd.symm.trans h))
  rw [hout, seats_iff (agrees_exec agrees_empty cs), ModelHouse.mem_roomMembers]
  rfl

end RvHouse.HouseMaps
