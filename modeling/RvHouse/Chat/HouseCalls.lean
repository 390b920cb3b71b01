import RvHouse.Lib.Mealy
import RvHouse.Chat.House

/-!
# The house and its clients

`House` holds only lists that agree with their index. `HouseContainers` are the four containers of
the source by themselves, and `HouseCall` is what the clients do to them: calls of the member
functions, and writes through iterators, which are numbers of cells here. A write of the whole entry
keeps the id; the id may be changed too, but its node may not.

`bijection_exec`: whatever the clients call and write, lists and indices stay in bijection, and
every call does and gives back what the ids that the entries have at the time say (`Meets`): a
search gives the entry with an equivalent id, or the end, and a removal takes this entry out and no
other. The operations of `House` are such calls and writes (`House.containers_userStore` and its
neighbours).
-/

namespace RvHouse

open Std IndexedList

/-- The containers of `chat::house`. -/
structure HouseContainers where
  users : Raw UserKey User UserKey.cmp := {}
  rooms : Raw String Room compare := {}

/-- What a client does. -/
inductive HouseCall where
  | userInsert (u : User)
  | userErase (id : UserKey)
  /-- `user_erase(user_iterator)`. -/
  | userEraseAt (ui : ℕ)
  | userFind (id : UserKey)
  /-- `*ui = u`. -/
  | userAssign (ui : ℕ) (u : User)
  /-- `ui->id(id)`. -/
  | userSetId (ui : ℕ) (id : UserKey)
  | roomInsert (r : Room)
  | roomErase (id : String)
  /-- `room_erase(room_iterator)`. -/
  | roomEraseAt (ri : ℕ)
  | roomFind (id : String)
  /-- `*ri = r`. -/
  | roomAssign (ri : ℕ) (r : Room)
  /-- `ri->owner_id(id)`. -/
  | roomSetOwner (ri : ℕ) (id : UserKey)

/-- What a client gets back: an iterator, `none` being the end, or whether something was erased. -/
inductive HouseResult where
  | iterator (i : Option ℕ)
  | erased (b : Bool)
deriving DecidableEq

namespace HouseContainers

/-! ## The members -/

/-- `house::user_find`. -/
def userFind (h : HouseContainers) (id : UserKey) : Option ℕ := (h.users.find? id).map (·.1)

/-- The entry that an iterator leads to. -/
def userAt (h : HouseContainers) (ui : ℕ) : Option User :=
  (h.users.cells.find? (·.1 == ui)).map (·.2)

/-- `house::user_insert`. -/
def userInsert (h : HouseContainers) (u : User) : HouseContainers × Option ℕ :=
  if h.users.index.contains u.id then (h, none)
  else ({ h with users := h.users.insert u.id u }, some h.users.next)

/-- `house::user_erase(const id_type &)`. -/
def userErase (h : HouseContainers) (id : UserKey) : HouseContainers × Bool :=
  ({ h with users := h.users.erase id }, h.users.index.contains id)

/-- `house::room_find`. -/
def roomFind (h : HouseContainers) (id : String) : Option ℕ := (h.rooms.find? id).map (·.1)

/-- The entry that an iterator leads to. -/
def roomAt (h : HouseContainers) (ri : ℕ) : Option Room :=
  (h.rooms.cells.find? (·.1 == ri)).map (·.2)

/-- `house::room_insert`. -/
def roomInsert (h : HouseContainers) (r : Room) : HouseContainers × Option ℕ :=
  if h.rooms.index.contains r.id then (h, none)
  else ({ h with rooms := h.rooms.insert r.id r }, some h.rooms.next)

/-- `house::room_erase(const id_type &)`. -/
def roomErase (h : HouseContainers) (id : String) : HouseContainers × Bool :=
  ({ h with rooms := h.rooms.erase id }, h.rooms.index.contains id)

/-- One call or write. The end of the list is not erased. -/
def step (h : HouseContainers) : HouseCall → HouseContainers × List HouseResult
  | .userInsert u => let r := h.userInsert u; (r.1, [.iterator r.2])
  | .userErase id => let r := h.userErase id; (r.1, [.erased r.2])
  | .userEraseAt ui =>
    match h.userAt ui with
    | some u => let r := h.userErase u.id; (r.1, [.erased r.2])
    | none => (h, [.erased false])
  | .userFind id => (h, [.iterator (h.userFind id)])
  | .userAssign ui u => ({ h with users := h.users.update ui (·.assign u) }, [])
  | .userSetId ui id => ({ h with users := h.users.update ui ({ · with id := id }) }, [])
  | .roomInsert r => let r := h.roomInsert r; (r.1, [.iterator r.2])
  | .roomErase id => let r := h.roomErase id; (r.1, [.erased r.2])
  | .roomEraseAt ri =>
    match h.roomAt ri with
    | some r => let r := h.roomErase r.id; (r.1, [.erased r.2])
    | none => (h, [.erased false])
  | .roomFind id => (h, [.iterator (h.roomFind id)])
  | .roomAssign ri r => ({ h with rooms := h.rooms.update ri (·.assign r) }, [])
  | .roomSetOwner ri id => ({ h with rooms := h.rooms.update ri ({ · with ownerId := id }) }, [])

/-- The house as a system. -/
def calls : Mealy HouseContainers HouseCall HouseResult := ⟨step⟩

/-- What the clients keep to: keys have a node, and an id that is written has the node of the id
before. -/
def Kept (h : HouseContainers) : HouseCall → Prop
  | .userInsert u => u.id.node ≠ none
  | .userErase id => id.node ≠ none
  | .userFind id => id.node ≠ none
  | .userSetId ui id => ∀ u, (ui, u) ∈ h.users.cells → id.node = u.id.node
  | _ => True

/-! ## The invariant -/

/-- Both lists agree with their index. -/
structure WF (h : HouseContainers) : Prop where
  users : h.users.WF User.id
  rooms : h.rooms.WF Room.id

theorem wf_empty : ({} : HouseContainers).WF := ⟨Raw.WF.empty, Raw.WF.empty⟩

theorem WF.step {h : HouseContainers} (hw : h.WF) {c : HouseCall} (hc : h.Kept c) :
    (h.step c).1.WF := by
  obtain ⟨hu, hr⟩ := hw
  cases c with
  | userInsert u =>
    show (h.userInsert u).1.WF
    unfold userInsert
    split
    · exact ⟨hu, hr⟩
    · exact ⟨hu.insert u, hr⟩
  | userErase id => exact ⟨hu.erase id, hr⟩
  | userEraseAt ui =>
    cases hat : h.userAt ui with
    | none => simpa only [HouseContainers.step, hat] using ⟨hu, hr⟩
    | some u => simpa only [HouseContainers.step, hat] using ⟨hu.erase u.id, hr⟩
  | userFind id => exact ⟨hu, hr⟩
  | userAssign ui u =>
    exact ⟨hu.update (f := (·.assign u)) fun _ _ => ReflCmp.compare_self, hr⟩
  | userSetId ui id =>
    refine ⟨hu.update (f := ({ · with id := id })) fun u hmem => ?_, hr⟩
    exact UserKey.cmp_eq_iff.2 (hc u hmem)
  | roomInsert r =>
    show (h.roomInsert r).1.WF
    unfold roomInsert
    split
    · exact ⟨hu, hr⟩
    · exact ⟨hu, hr.insert r⟩
  | roomErase id => exact ⟨hu, hr.erase id⟩
  | roomEraseAt ri =>
    cases hat : h.roomAt ri with
    | none => simpa only [HouseContainers.step, hat] using ⟨hu, hr⟩
    | some r => simpa only [HouseContainers.step, hat] using ⟨hu, hr.erase r.id⟩
  | roomFind id => exact ⟨hu, hr⟩
  | roomAssign ri r =>
    exact ⟨hu, hr.update (f := (·.assign r)) fun _ _ => ReflCmp.compare_self⟩
  | roomSetOwner ri id =>
    exact ⟨hu, hr.update (f := ({ · with ownerId := id })) fun _ _ => ReflCmp.compare_self⟩

/-! ## What the calls do and give back -/

/-- What a call or a write leads to and gives back, told by the ids that the entries have at the
time. -/
def Meets (h : HouseContainers) (c : HouseCall) (r : HouseContainers × List HouseResult) : Prop :=
  match c with
  | .userInsert u => r.1.rooms = h.rooms ∧
      ∃ i, r.2 = [.iterator i] ∧ h.users.Inserts User.id r.1.users u i
  | .userErase id => r.1.rooms = h.rooms ∧
      ∃ b, r.2 = [.erased b] ∧ h.users.Erases User.id r.1.users id b
  | .userEraseAt ui => r.1.rooms = h.rooms ∧
      ∃ b, r.2 = [.erased b] ∧ h.users.ErasesAt r.1.users ui b
  | .userFind id => r.1 = h ∧ ∃ i, r.2 = [.iterator i] ∧ h.users.Finds User.id id i
  | .userAssign _ _ | .userSetId _ _ => r.1.rooms = h.rooms ∧ r.2 = [] ∧
      h.users.Keeps User.id r.1.users
  | .roomInsert x => r.1.users = h.users ∧
      ∃ i, r.2 = [.iterator i] ∧ h.rooms.Inserts Room.id r.1.rooms x i
  | .roomErase id => r.1.users = h.users ∧
      ∃ b, r.2 = [.erased b] ∧ h.rooms.Erases Room.id r.1.rooms id b
  | .roomEraseAt ri => r.1.users = h.users ∧
      ∃ b, r.2 = [.erased b] ∧ h.rooms.ErasesAt r.1.rooms ri b
  | .roomFind id => r.1 = h ∧ ∃ i, r.2 = [.iterator i] ∧ h.rooms.Finds Room.id id i
  | .roomAssign _ _ | .roomSetOwner _ _ => r.1.users = h.users ∧ r.2 = [] ∧
      h.rooms.Keeps Room.id r.1.rooms

/-- The entry that an iterator leads to is in its cell. -/
theorem at_cases {E : Type*} (cells : List (ℕ × E)) (i : ℕ) :
    ((cells.find? (·.1 == i)).map (·.2) = none ∧ ∀ e, (i, e) ∉ cells) ∨
      ∃ e, (cells.find? (·.1 == i)).map (·.2) = some e ∧ (i, e) ∈ cells := by
  cases hc : cells.find? (·.1 == i) with
  | none =>
    refine .inl ⟨rfl, fun e he => ?_⟩
    simpa using List.find?_eq_none.1 hc (i, e) he
  | some c =>
    obtain ⟨j, e⟩ := c
    obtain rfl : j = i := by simpa using List.find?_some hc
    exact .inr ⟨e, rfl, List.mem_of_find?_eq_some hc⟩

theorem WF.meets {h : HouseContainers} (hw : h.WF) {c : HouseCall} (hc : h.Kept c) :
    h.Meets c (h.step c) := by
  obtain ⟨hu, hr⟩ := hw
  cases c with
  | userInsert u =>
    by_cases hin : h.users.index.contains u.id = true
    · simpa [Meets, HouseContainers.step, HouseContainers.userInsert, hin]
        using hu.inserts_of_contains hin
    · simpa [Meets, HouseContainers.step, HouseContainers.userInsert, hin]
        using hu.inserts_of_not_contains hin
  | userErase id => exact ⟨rfl, _, rfl, hu.erases id⟩
  | userEraseAt ui =>
    rcases at_cases h.users.cells ui with ⟨hat, hno⟩ | ⟨u, hat, hmem⟩
    · simp only [HouseContainers.step, userAt, hat]
      exact ⟨rfl, _, rfl, Raw.erasesAt_of_not_mem hno⟩
    · simp only [HouseContainers.step, userAt, hat]
      exact ⟨rfl, _, rfl, hu.erasesAt hmem⟩
  | userFind id => exact ⟨rfl, _, rfl, hu.finds id⟩
  | userAssign ui u =>
    exact ⟨rfl, rfl, h.users.keeps_update (f := (·.assign u)) fun _ _ => ReflCmp.compare_self⟩
  | userSetId ui id =>
    refine ⟨rfl, rfl, h.users.keeps_update (f := ({ · with id := id })) fun u hmem => ?_⟩
    exact UserKey.cmp_eq_iff.2 (hc u hmem)
  | roomInsert x =>
    by_cases hin : h.rooms.index.contains x.id = true
    · simpa [Meets, HouseContainers.step, HouseContainers.roomInsert, hin]
        using hr.inserts_of_contains hin
    · simpa [Meets, HouseContainers.step, HouseContainers.roomInsert, hin]
        using hr.inserts_of_not_contains hin
  | roomErase id => exact ⟨rfl, _, rfl, hr.erases id⟩
  | roomEraseAt ri =>
    rcases at_cases h.rooms.cells ri with ⟨hat, hno⟩ | ⟨x, hat, hmem⟩
    · simp only [HouseContainers.step, roomAt, hat]
      exact ⟨rfl, _, rfl, Raw.erasesAt_of_not_mem hno⟩
    · simp only [HouseContainers.step, roomAt, hat]
      exact ⟨rfl, _, rfl, hr.erasesAt hmem⟩
  | roomFind id => exact ⟨rfl, _, rfl, hr.finds id⟩
  | roomAssign ri x =>
    exact ⟨rfl, rfl, h.rooms.keeps_update (f := (·.assign x)) fun _ _ => ReflCmp.compare_self⟩
  | roomSetOwner ri id =>
    exact ⟨rfl, rfl,
      h.rooms.keeps_update (f := ({ · with ownerId := id })) fun _ _ => ReflCmp.compare_self⟩

/-- **The lists and their indices stay in bijection**, whatever the clients call and write, and
every call does and gives back what the ids of the entries at the time say. -/
theorem bijection_exec {cs : List HouseCall} (h : calls.Guarded Kept {} cs) :
    (calls.exec {} cs).users.Bijection User.id ∧ (calls.exec {} cs).rooms.Bijection Room.id ∧
      ∀ p c, p ++ [c] <+: cs → Meets (calls.exec {} p) c (calls.step (calls.exec {} p) c) := by
  have hwf {p : List HouseCall} (hp : p <+: cs) : (calls.exec {} p).WF :=
    calls.invariant_along (fun _ _ hw hc => hw.step hc) wf_empty h hp
  have hend := hwf (List.prefix_refl cs)
  refine ⟨hend.users.bijection, hend.rooms.bijection, fun p c hp => ?_⟩
  exact (hwf ((List.prefix_append p [c]).trans hp)).meets
    ((calls.guarded_iff_forall {} cs).1 h p c hp)

/-- An entry is inserted, written, renamed and erased through its iterator. -/
theorem bijection_exec_rename :
    let cs : List HouseCall :=
      [.userInsert { id := .ofNode ⟨1, 2⟩ }, .userAssign 0 { loginId := "a" },
        .userSetId 0 ⟨some ⟨1, 2⟩, "a"⟩, .userFind (.ofNode ⟨1, 2⟩), .roomInsert { id := "5:a" },
        .userEraseAt 0]
    (calls.exec {} cs).users.Bijection User.id ∧ (calls.exec {} cs).rooms.Bijection Room.id ∧
      ∀ p c, p ++ [c] <+: cs → Meets (calls.exec {} p) c (calls.step (calls.exec {} p) c) := by
  apply bijection_exec
  refine ⟨Option.some_ne_none _, trivial, ?_, Option.some_ne_none _, trivial, trivial, trivial⟩
  intro u hu
  simp [calls, step, userInsert, Raw.insert, Raw.update] at hu
  simp [hu, User.assign]

end HouseContainers

namespace House

/-! ## The operations of `House` -/

/-- The containers of a house. -/
def containers (h : House) : HouseContainers := ⟨h.users.raw, h.rooms.raw⟩

theorem containers_userInsert {h h' : House} {u : User} (hu : h.userInsert u = some h') :
    h'.containers = (HouseContainers.calls.step h.containers (.userInsert u)).1 := by
  obtain ⟨hnone, rfl⟩ := userInsert_eq_some.1 hu
  have hnew : h.users.raw.index.contains u.id = false := by
    rw [IndexedList.contains_index]
    exact congrArg Option.isSome hnone
  simp [HouseContainers.calls, HouseContainers.step, HouseContainers.userInsert, containers, hnew,
    IndexedList.insert]

theorem containers_userErase (h : House) (id : UserKey) :
    (h.userErase id).containers = (HouseContainers.calls.step h.containers (.userErase id)).1 :=
  rfl

theorem containers_roomInsert {h h' : House} {r : Room} (hr : h.roomInsert r = some h') :
    h'.containers = (HouseContainers.calls.step h.containers (.roomInsert r)).1 := by
  obtain ⟨hnone, rfl⟩ := roomInsert_eq_some.1 hr
  have hnew : h.rooms.raw.index.contains r.id = false := by
    rw [IndexedList.contains_index]
    exact congrArg Option.isSome hnone
  simp [HouseContainers.calls, HouseContainers.step, HouseContainers.roomInsert, containers, hnew,
    IndexedList.insert]

theorem containers_roomErase (h : House) (id : String) :
    (h.roomErase id).containers = (HouseContainers.calls.step h.containers (.roomErase id)).1 :=
  rfl

/-- A store is a write of the entry and one of its id, which keeps the node. -/
theorem containers_userStore {h : House} {u : User} {i : ℕ}
    (hi : h.containers.userFind u.id = some i) :
    let cs : List HouseCall := [.userAssign i u, .userSetId i u.id]
    (h.userStore u).containers = HouseContainers.calls.exec h.containers cs ∧
      HouseContainers.calls.Guarded HouseContainers.Kept h.containers cs := by
  obtain ⟨⟨j, e⟩, hfind, rfl⟩ := Option.map_eq_some_iff.1 hi
  have hfind' : h.users.raw.find? u.id = some (j, e) := hfind
  obtain ⟨hmem, hk⟩ := h.users.wf.find?_eq_some.1 hfind'
  have hindex : h.users.raw.index[u.id]? = some j := (h.users.wf.index_iff _ _).2 ⟨e, hmem, hk⟩
  refine ⟨?_, trivial, ?_, trivial⟩
  · have hcells : ∀ c : ℕ × User, (if c.1 = j then (c.1, u) else c) =
        (fun c => if c.1 = j then (c.1, { c.2 with id := u.id }) else c)
          (if c.1 = j then (c.1, c.2.assign u) else c) := by
      intro c
      by_cases hc : c.1 = j <;> simp [hc, User.assign]
    simp only [userStore, IndexedList.modify, Raw.modify, containers, hindex, hcells,
      HouseContainers.calls, Mealy.exec, HouseContainers.step, Raw.update, List.map_map]
    rfl
  · intro v hv
    obtain ⟨⟨j', d⟩, hd, hdv⟩ := List.mem_map.1 hv
    by_cases hj : j' = j
    · subst hj
      rw [if_pos rfl] at hdv
      obtain ⟨-, rfl⟩ := Prod.mk.inj hdv
      obtain rfl := h.users.wf.eq_of_mem hd hmem
      exact (UserKey.cmp_eq_iff.1 hk).symm
    · rw [if_neg hj] at hdv
      exact absurd (Prod.mk.inj hdv).1 hj

theorem containers_roomStore {h : House} {r : Room} {i : ℕ}
    (hi : h.containers.roomFind r.id = some i) :
    (h.roomStore r).containers = HouseContainers.calls.exec h.containers [.roomAssign i r] := by
  obtain ⟨⟨j, e⟩, hfind, rfl⟩ := Option.map_eq_some_iff.1 hi
  have hfind' : h.rooms.raw.find? r.id = some (j, e) := hfind
  obtain ⟨hmem, hk⟩ := h.rooms.wf.find?_eq_some.1 hfind'
  have hindex : h.rooms.raw.index[r.id]? = some j := (h.rooms.wf.index_iff _ _).2 ⟨e, hmem, hk⟩
  have hcells : (h.rooms.raw.cells.map fun c => if c.1 = j then (c.1, r) else c) =
      h.rooms.raw.cells.map fun c => if c.1 = j then (c.1, c.2.assign r) else c := by
    apply List.map_congr_left
    rintro ⟨j', d⟩ hd
    by_cases hj : j' = j
    · subst hj
      obtain rfl := h.rooms.wf.eq_of_mem hd hmem
      have hid : d.id = r.id := LawfulEqOrd.eq_of_compare hk
      simp [Room.assign, hid]
    · simp [hj]
  simp only [roomStore, IndexedList.modify, Raw.modify, containers, hindex, hcells]
  rfl

end House

end RvHouse
