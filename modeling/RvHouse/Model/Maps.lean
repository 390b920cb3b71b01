import RvHouse.Lib.Mealy
import RvHouse.Model.House

/-!
# The three maps of the model

`model::house` keeps the houses, the id strings and the descriptions of its groups in three maps.
`allow_group` is the only call that gives a map a new group, and it gives it to all three, so that
they have the same groups after any calls (`described`). `ModelHouse` has the three entries of a
group together; `agrees_exec` says that the maps do after any calls what it does.
-/

namespace RvHouse

open Std

/-- `model::house`, with its maps. -/
structure HouseMaps where
  houseMap : TreeMap Int House := ∅
  grpStrMap : TreeMap Int (TreeMap String UserKey) := ∅
  grpDscMap : TreeMap Int String := ∅

/-- A call on the model of the GUI. -/
inductive ModelCall where
  | allowGroup (dsc : String) (grp : Int)
  | userUpdate (u : User) (grp : Int)
  | userErase (id : UserKey) (grp : Int)

namespace HouseMaps

/-- `model::house::allow_group`. -/
def allowGroup (s : HouseMaps) (dsc : String) (grp : Int) : HouseMaps where
  grpDscMap := s.grpDscMap.insert grp dsc
  grpStrMap := s.grpStrMap.insert grp ∅
  houseMap := s.houseMap.insert grp {}

/-- `model::house::_house_find`; `none` when it throws. -/
def houseFind (s : HouseMaps) (grp : Int) : Option House := s.houseMap[grp]?

/-- The entries of a group. -/
def part (s : HouseMaps) (grp : Int) : Option GroupHouse := do
  let house ← s.houseFind grp
  return { house, strMap := s.grpStrMap.getD grp ∅, dsc := s.grpDscMap.getD grp "" }

/-- The house and the id strings of a group are written. -/
def put (s : HouseMaps) (grp : Int) (g : GroupHouse) : HouseMaps :=
  { s with
    houseMap := s.houseMap.insert grp g.house
    grpStrMap := s.grpStrMap.insert grp g.strMap }

/-- `model::house::user_update`; `none` when its assertion fails or it throws. -/
def userUpdate (s : HouseMaps) (u : User) (grp : Int) : Option HouseMaps := do
  guard (u.id.node ≠ none)
  let g ← s.part grp
  return s.put grp (g.userUpdate u).1

/-- `model::house::user_erase`. -/
def userErase (s : HouseMaps) (id : UserKey) (grp : Int) : Option HouseMaps := do
  let g ← s.part grp
  return s.put grp (g.userErase id).1

/-- The model after a call; one that throws leaves it as it is. -/
def step (s : HouseMaps) : ModelCall → HouseMaps
  | .allowGroup dsc grp => s.allowGroup dsc grp
  | .userUpdate u grp => (s.userUpdate u grp).getD s
  | .userErase id grp => (s.userErase id grp).getD s

/-- The maps as a machine. -/
def machine : Mealy HouseMaps ModelCall Empty := ⟨fun s c => (s.step c, [])⟩

end HouseMaps

namespace ModelHouse

/-- The model after a call; one that throws leaves it as it is. -/
def step (m : ModelHouse) : ModelCall → ModelHouse
  | .allowGroup dsc grp => m.allowGroup dsc grp
  | .userUpdate u grp => (m.userUpdate u grp).getD m
  | .userErase id grp => (m.userErase id grp).getD m

/-- The model as a machine. -/
def machine : Mealy ModelHouse ModelCall Empty := ⟨fun m c => (m.step c, [])⟩

end ModelHouse

namespace HouseMaps

/-! ## One call -/

/-- A call that is no `allow_group` changes nothing, or writes a group that has a house. -/
theorem step_cases (s : HouseMaps) (c : ModelCall) :
    (∃ dsc grp, c = .allowGroup dsc grp) ∨ s.step c = s ∨
      ∃ grp g g', s.part grp = some g ∧ s.step c = s.put grp g' := by
  cases c with
  | allowGroup dsc grp => exact .inl ⟨dsc, grp, rfl⟩
  | userUpdate u grp =>
    refine .inr ?_
    by_cases hnode : u.id.node = none
    · exact .inl (by simp [step, userUpdate, hnode])
    · cases hg : s.part grp with
      | none => exact .inl (by simp [step, userUpdate, hnode, hg])
      | some g =>
        exact .inr ⟨grp, g, (g.userUpdate u).1, hg, by simp [step, userUpdate, hnode, hg]⟩
  | userErase id grp =>
    refine .inr ?_
    cases hg : s.part grp with
    | none => exact .inl (by simp [step, userErase, hg])
    | some g => exact .inr ⟨grp, g, (g.userErase id).1, hg, by simp [step, userErase, hg]⟩

/-! ## The groups of the maps -/

/-- The maps describe the groups that they have houses for. -/
def Described (s : HouseMaps) : Prop := ∀ grp, grp ∈ s.grpDscMap ↔ grp ∈ s.houseMap

theorem mem_of_part {s : HouseMaps} {grp : Int} {g : GroupHouse} (h : s.part grp = some g) :
    grp ∈ s.houseMap := by
  obtain ⟨house, hhouse, -⟩ := Option.bind_eq_some_iff.1 h
  exact TreeMap.mem_iff_isSome_getElem?.2 (Option.isSome_of_eq_some hhouse)

theorem described_allowGroup {s : HouseMaps} (hs : s.Described) (dsc : String) (grp : Int) :
    (s.allowGroup dsc grp).Described := by
  intro grp'
  simp only [allowGroup, TreeMap.mem_insert, hs grp']

theorem described_put {s : HouseMaps} (hs : s.Described) {grp : Int} {g : GroupHouse}
    (h : s.part grp = some g) (g' : GroupHouse) : (s.put grp g').Described := by
  intro grp'
  simp only [put, TreeMap.mem_insert, LawfulEqOrd.compare_eq_iff_eq, hs grp']
  refine ⟨.inr, fun hgrp => hgrp.elim ?_ id⟩
  rintro rfl
  exact mem_of_part h

theorem described_step {s : HouseMaps} (hs : s.Described) (c : ModelCall) :
    (s.step c).Described := by
  rcases s.step_cases c with ⟨dsc, grp, rfl⟩ | hsame | ⟨grp, g, g', hg, hput⟩
  · exact described_allowGroup hs dsc grp
  · rw [hsame]
    exact hs
  · rw [hput]
    exact described_put hs hg g'

/-- After any calls the maps have the same groups. -/
theorem described (cs : List ModelCall) : (machine.exec {} cs).Described :=
  machine.invariant_all (I := Described) (fun _ c hs => described_step hs c)
    (s := {}) (fun grp => by simp) cs

/-! ## The maps and the model -/

/-- Every group has the same entries. -/
def Agrees (s : HouseMaps) (m : ModelHouse) : Prop := ∀ grp, s.part grp = m.houseFind grp

theorem part_allowGroup (s : HouseMaps) (dsc : String) (grp grp' : Int) :
    (s.allowGroup dsc grp).part grp' = if grp = grp' then some { dsc } else s.part grp' := by
  simp only [part, houseFind, allowGroup, TreeMap.getElem?_insert, TreeMap.getD_insert,
    LawfulEqOrd.compare_eq_iff_eq]
  split <;> rfl

theorem part_put (s : HouseMaps) (grp : Int) (g : GroupHouse) (grp' : Int) :
    (s.put grp g).part grp' =
      if grp = grp' then some { g with dsc := s.grpDscMap.getD grp "" } else s.part grp' := by
  simp only [part, houseFind, put, TreeMap.getElem?_insert, TreeMap.getD_insert,
    LawfulEqOrd.compare_eq_iff_eq]
  split
  · rename_i hgrp
    rw [← hgrp]
    rfl
  · rfl

theorem dsc_of_part {s : HouseMaps} {grp : Int} {g : GroupHouse} (h : s.part grp = some g) :
    g.dsc = s.grpDscMap.getD grp "" := by
  obtain ⟨house, -, hg⟩ := Option.bind_eq_some_iff.1 h
  cases hg
  rfl

theorem agrees_allowGroup {s : HouseMaps} {m : ModelHouse} (h : s.Agrees m) (dsc : String)
    (grp : Int) : (s.allowGroup dsc grp).Agrees (m.allowGroup dsc grp) := by
  intro grp'
  rw [part_allowGroup, ModelHouse.houseFind_allowGroup, h]

theorem agrees_put {s : HouseMaps} {m : ModelHouse} (h : s.Agrees m) {grp : Int}
    {g g' : GroupHouse} (hg : m.houseFind grp = some g) (hdsc : g'.dsc = g.dsc) :
    (s.put grp g').Agrees { groups := m.groups.insert grp g' } := by
  intro grp'
  have hsame : ({ g' with dsc := s.grpDscMap.getD grp "" } : GroupHouse) = g' := by
    rw [← dsc_of_part ((h grp).trans hg), ← hdsc]
  rw [part_put, ModelHouse.houseFind_insert, h, hsame]

theorem dsc_userUpdate (g : GroupHouse) (u : User) : (g.userUpdate u).1.dsc = g.dsc := by
  unfold GroupHouse.userUpdate
  split
  · rfl
  · split
    · rfl
    · split <;> rfl

theorem agrees_step {s : HouseMaps} {m : ModelHouse} (h : s.Agrees m) (c : ModelCall) :
    (s.step c).Agrees (m.step c) := by
  cases c with
  | allowGroup dsc grp => exact agrees_allowGroup h dsc grp
  | userUpdate u grp =>
    simp only [step, ModelHouse.step, userUpdate, ModelHouse.userUpdate, h grp]
    by_cases hnode : u.id.node = none
    · simpa [hnode] using h
    · cases hg : m.houseFind grp with
      | none => simpa [hnode] using h
      | some g => simpa [hnode] using agrees_put h hg (dsc_userUpdate g u)
  | userErase id grp =>
    simp only [step, ModelHouse.step, userErase, ModelHouse.userErase, h grp]
    cases hg : m.houseFind grp with
    | none => exact h
    | some g => exact agrees_put h hg rfl

/-- **The maps refine the model**, over any calls. -/
theorem agrees_exec {s : HouseMaps} {m : ModelHouse} (h : s.Agrees m) (cs : List ModelCall) :
    (machine.exec s cs).Agrees (ModelHouse.machine.exec m cs) := by
  induction cs generalizing s m with
  | nil => exact h
  | cons c cs ih => exact ih (agrees_step h c)

theorem agrees_empty : ({} : HouseMaps).Agrees {} := by
  intro grp
  simp [part, houseFind, ModelHouse.houseFind]

end HouseMaps

end RvHouse
