import Mathlib.Data.List.Nodup
import Mathlib.Data.List.Pairwise

/-!
# Lists with an index

A linked list whose cells are found through a search tree: the list keeps the order of arrival, the
tree maps a key to the number of the cell that holds the element with that key. Keys are compared
by `cmp` only, so several keys may stand for the same cell.

`Raw` has the two containers and the operations on them, `Raw.WF` says that they agree, and
`IndexedList` is a pair that agrees. The operations keep the invariant (`Raw.WF.insert`,
`Raw.WF.erase`, `Raw.WF.update`), which makes list and index a bijection (`Raw.WF.bijection`) and
the operations do what the keys of the elements say (`Raw.WF.finds`, `Raw.WF.erases` and the
others); seen through `toList` and `get?`, an indexed list is a list of elements with inequivalent
keys.
-/

namespace IndexedList

open Std

variable {K E : Type*} {cmp : K → K → Ordering}

/-- The two containers: numbered cells in the order of arrival, and the search tree. -/
structure Raw (K E : Type*) (cmp : K → K → Ordering) where
  cells : List (ℕ × E) := []
  index : TreeMap K ℕ cmp := ∅
  next : ℕ := 0

namespace Raw

/-- The cell found through the index, with the element in it. -/
def find? (l : Raw K E cmp) (k : K) : Option (ℕ × E) :=
  l.index[k]?.bind fun i => l.cells.find? (·.1 == i)

/-- Append a cell unless an equivalent key is indexed. -/
def insert (l : Raw K E cmp) (k : K) (e : E) : Raw K E cmp :=
  if l.index.contains k then l
  else ⟨l.cells ++ [(l.next, e)], l.index.insert k l.next, l.next + 1⟩

/-- Remove the cell found through the index, and its entry there. -/
def erase (l : Raw K E cmp) (k : K) : Raw K E cmp :=
  match l.index[k]? with
  | none => l
  | some i => ⟨l.cells.filter (·.1 != i), l.index.erase k, l.next⟩

/-- Change the element in the cell found through the index, in place. -/
def modify (l : Raw K E cmp) (k : K) (f : E → E) : Raw K E cmp :=
  match l.index[k]? with
  | none => l
  | some i => { l with cells := l.cells.map fun c => if c.1 = i then (c.1, f c.2) else c }

/-- Change the element in a cell, in place. -/
def update (l : Raw K E cmp) (i : ℕ) (f : E → E) : Raw K E cmp :=
  { l with cells := l.cells.map fun c => if c.1 = i then (c.1, f c.2) else c }

/-- The list and the index agree: cells have distinct numbers, and a key is indexed exactly when
the cell it leads to holds an element with an equivalent key. -/
structure WF (key : E → K) (l : Raw K E cmp) : Prop where
  nodup : (l.cells.map Prod.fst).Nodup
  fresh : ∀ c ∈ l.cells, c.1 < l.next
  index_iff : ∀ k i, l.index[k]? = some i ↔ ∃ e, (i, e) ∈ l.cells ∧ cmp (key e) k = .eq

variable {key : E → K} {l : Raw K E cmp}

namespace WF

theorem eq_of_mem (h : WF key l) {i : ℕ} {e e' : E} (he : (i, e) ∈ l.cells)
    (he' : (i, e') ∈ l.cells) : e = e' :=
  congrArg Prod.snd (List.inj_on_of_nodup_map h.nodup he he' rfl)

theorem find?_eq_some (h : WF key l) {k : K} {c : ℕ × E} :
    l.find? k = some c ↔ c ∈ l.cells ∧ cmp (key c.2) k = .eq := by
  obtain ⟨i, e⟩ := c
  constructor
  · intro hf
    obtain ⟨j, hj, hc⟩ := Option.bind_eq_some_iff.1 hf
    have hmem := List.mem_of_find?_eq_some hc
    obtain rfl : i = j := by simpa using List.find?_some hc
    obtain ⟨e', he', hcmp⟩ := (h.index_iff k i).1 hj
    exact ⟨hmem, h.eq_of_mem he' hmem ▸ hcmp⟩
  · rintro ⟨hmem, hcmp⟩
    refine Option.bind_eq_some_iff.2 ⟨i, (h.index_iff k i).2 ⟨e, hmem, hcmp⟩, ?_⟩
    cases hc : l.cells.find? (·.1 == i) with
    | none => exact absurd hmem (by simpa using List.find?_eq_none.1 hc (i, e))
    | some c =>
      obtain ⟨j, e'⟩ := c
      obtain rfl : j = i := by simpa using List.find?_some hc
      rw [h.eq_of_mem (List.mem_of_find?_eq_some hc) hmem]

/-- Equivalent keys lead to one cell. -/
theorem cell_unique (h : WF key l) {k : K} {c c' : ℕ × E} (hc : c ∈ l.cells) (hc' : c' ∈ l.cells)
    (hk : cmp (key c.2) k = .eq) (hk' : cmp (key c'.2) k = .eq) : c = c' :=
  Option.some.inj ((h.find?_eq_some.2 ⟨hc, hk⟩).symm.trans (h.find?_eq_some.2 ⟨hc', hk'⟩))

theorem index_eq_none (h : WF key l) {k : K} :
    l.index[k]? = none ↔ ∀ c ∈ l.cells, cmp (key c.2) k ≠ .eq := by
  simp only [Option.eq_none_iff_forall_ne_some, ne_eq, h.index_iff, not_exists, not_and, Prod.forall]

/-- To erase a key removes the cells with an equivalent one, of which there is at most one. -/
theorem cells_erase (h : WF key l) (k : K) :
    (l.erase k).cells = l.cells.filter fun c => cmp (key c.2) k ≠ .eq := by
  unfold Raw.erase
  split
  · rename_i hnone
    refine (List.filter_eq_self.2 fun c hc => ?_).symm
    simpa using h.index_eq_none.1 hnone c hc
  · rename_i i hi
    obtain ⟨e, he, hk⟩ := (h.index_iff k i).1 hi
    apply List.filter_congr
    intro c hc
    have hiff : c.1 = i ↔ cmp (key c.2) k = .eq := by
      constructor
      · rintro rfl
        exact h.eq_of_mem hc he ▸ hk
      · exact fun hck => congrArg Prod.fst (h.cell_unique hc he hck hk)
    simp only [bne, ne_eq, decide_not, Bool.not_eq_eq_eq_not, Bool.not_not]
    rw [Bool.eq_iff_iff]
    simpa using hiff

variable [TransCmp cmp]

theorem empty : WF key ({} : Raw K E cmp) where
  nodup := List.nodup_nil
  fresh := by simp
  index_iff := by simp

theorem insert (h : WF key l) (e : E) : WF key (l.insert (key e) e) := by
  unfold Raw.insert
  split
  · exact h
  rename_i hnew
  rw [TreeMap.contains_eq_isSome_getElem?] at hnew
  have habs : l.index[key e]? = none := Option.not_isSome_iff_eq_none.1 hnew
  have hfresh : ∀ c ∈ l.cells, c.1 ≠ l.next := fun c hc => Nat.ne_of_lt (h.fresh c hc)
  refine ⟨?_, ?_, fun k i => ?_⟩
  · simp only [List.map_append, List.map_cons, List.map_nil]
    refine List.nodup_append.2 ⟨h.nodup, List.nodup_singleton _, ?_⟩
    intro i hi j hj
    obtain ⟨c, hc, rfl⟩ := List.mem_map.1 hi
    rw [List.mem_singleton.1 hj]
    exact hfresh c hc
  · intro c hc
    rcases List.mem_append.1 hc with hc | hc
    · exact Nat.lt_trans (h.fresh c hc) (Nat.lt_succ_self _)
    · rw [List.mem_singleton.1 hc]
      exact Nat.lt_succ_self _
  · rw [TreeMap.getElem?_insert]
    by_cases hk : cmp (key e) k = .eq
    · rw [if_pos hk]
      have hnone := h.index_eq_none.1 habs
      constructor
      · rintro ⟨⟩
        exact ⟨e, by simp, hk⟩
      · rintro ⟨e', he', hk'⟩
        rcases List.mem_append.1 he' with he' | he'
        · exact absurd (TransCmp.eq_trans hk' (OrientedCmp.eq_symm hk)) (hnone _ he')
        · rw [(Prod.mk.inj (List.mem_singleton.1 he')).1]
    · rw [if_neg hk, h.index_iff]
      refine exists_congr fun e' => ?_
      simp only [List.mem_append, List.mem_singleton, Prod.mk.injEq]
      constructor
      · rintro ⟨he', hk'⟩
        exact ⟨.inl he', hk'⟩
      · rintro ⟨he' | ⟨-, rfl⟩, hk'⟩
        · exact ⟨he', hk'⟩
        · exact absurd hk' hk

theorem erase (h : WF key l) (k : K) : WF key (l.erase k) := by
  unfold Raw.erase
  split
  · exact h
  rename_i i hi
  obtain ⟨e, he, hk⟩ := (h.index_iff k i).1 hi
  refine ⟨h.nodup.sublist (List.filter_sublist.map _), fun c hc => h.fresh c (List.mem_filter.1 hc).1,
    fun k' j => ?_⟩
  rw [TreeMap.getElem?_erase]
  by_cases hkk : cmp k k' = .eq
  · rw [if_pos hkk]
    constructor
    · rintro ⟨⟩
    · rintro ⟨e', he', hk'⟩
      obtain ⟨hmem, hne⟩ := List.mem_filter.1 he'
      have := h.cell_unique hmem he (TransCmp.eq_trans hk' (OrientedCmp.eq_symm hkk)) hk
      exact absurd (congrArg Prod.fst this) (by simpa using hne)
  · rw [if_neg hkk, h.index_iff]
    refine exists_congr fun e' => ⟨?_, ?_⟩
    · rintro ⟨he', hk'⟩
      refine ⟨List.mem_filter.2 ⟨he', ?_⟩, hk'⟩
      suffices j ≠ i by simpa using this
      rintro rfl
      rw [h.eq_of_mem he' he] at hk'
      exact hkk (TransCmp.eq_trans (OrientedCmp.eq_symm hk) hk')
    · rintro ⟨he', hk'⟩
      exact ⟨(List.mem_filter.1 he').1, hk'⟩

/-- An in-place change keeps the invariant when it keeps the class of the key. -/
theorem update (h : WF key l) {i : ℕ} {f : E → E}
    (hf : ∀ e, (i, e) ∈ l.cells → cmp (key (f e)) (key e) = .eq) : WF key (l.update i f) := by
  have hfst : (l.update i f).cells.map Prod.fst = l.cells.map Prod.fst := by
    simp only [Raw.update, List.map_map]
    apply List.map_congr_left
    intro c _
    simp only [Function.comp_apply]
    split <;> rfl
  refine ⟨hfst ▸ h.nodup, fun c hc => ?_, fun k' j => ?_⟩
  · have : c.1 ∈ l.cells.map Prod.fst := hfst ▸ List.mem_map_of_mem hc
    obtain ⟨d, hd, hdc⟩ := List.mem_map.1 this
    exact hdc ▸ h.fresh d hd
  · show l.index[k']? = some j ↔ _
    rw [h.index_iff]
    constructor
    · rintro ⟨e', he', hk'⟩
      by_cases hj : j = i
      · subst hj
        refine ⟨f e', List.mem_map.2 ⟨(j, e'), he', if_pos rfl⟩, ?_⟩
        exact TransCmp.eq_trans (hf e' he') hk'
      · exact ⟨e', List.mem_map.2 ⟨(j, e'), he', if_neg hj⟩, hk'⟩
    · rintro ⟨e', he', hk'⟩
      obtain ⟨⟨j', d⟩, hd, hdj⟩ := List.mem_map.1 he'
      by_cases hj : j' = i
      · subst hj
        rw [if_pos rfl] at hdj
        obtain ⟨rfl, rfl⟩ := Prod.mk.inj hdj
        exact ⟨d, hd, TransCmp.eq_trans (OrientedCmp.eq_symm (hf d hd)) hk'⟩
      · rw [if_neg hj] at hdj
        obtain ⟨rfl, rfl⟩ := Prod.mk.inj hdj
        exact ⟨d, hd, hk'⟩

theorem modify (h : WF key l) {k : K} {f : E → E}
    (hf : ∀ e, cmp (key e) k = .eq → cmp (key (f e)) k = .eq) : WF key (l.modify k f) := by
  unfold Raw.modify
  split
  · exact h
  · rename_i i hi
    obtain ⟨e, he, hk⟩ := (h.index_iff k i).1 hi
    show WF key (l.update i f)
    apply h.update
    intro e' he'
    obtain rfl := h.eq_of_mem he' he
    exact TransCmp.eq_trans (hf e' hk) (OrientedCmp.eq_symm hk)

end WF

/-! ## The bijection -/

/-- List and index are in bijection, and search and removal follow the keys that the elements have
now. -/
structure Bijection (key : E → K) (l : Raw K E cmp) : Prop where
  /-- Every entry of the index leads to a cell, whose key is equivalent to that of the entry. -/
  leads : ∀ p ∈ l.index.toList, ∃ c ∈ l.cells, c.1 = p.2 ∧ cmp (key c.2) p.1 = .eq
  /-- Every cell is reached by one entry. -/
  reached : ∀ c ∈ l.cells, ∃! p, p ∈ l.index.toList ∧ p.2 = c.1
  apart : l.cells.Pairwise fun c d => cmp (key c.2) (key d.2) ≠ .eq
  find : ∀ k c, l.find? k = some c ↔ c ∈ l.cells ∧ cmp (key c.2) k = .eq
  erase : ∀ k, (l.erase k).cells = l.cells.filter fun c => cmp (key c.2) k ≠ .eq

theorem WF.bijection [TransCmp cmp] (h : WF key l) : Bijection key l where
  leads := by
    rintro ⟨k, i⟩ hp
    have hki : l.index[k]? = some i :=
      TreeMap.getElem?_eq_some_iff_exists_compare_eq_eq_and_mem_toList.2
        ⟨k, ReflCmp.compare_self, hp⟩
    obtain ⟨e, he, hk⟩ := (h.index_iff k i).1 hki
    exact ⟨(i, e), he, rfl, hk⟩
  reached := by
    rintro ⟨i, e⟩ hc
    have hi : l.index[key e]? = some i := (h.index_iff _ _).2 ⟨e, hc, ReflCmp.compare_self⟩
    obtain ⟨k, hk, hmem⟩ :=
      TreeMap.getElem?_eq_some_iff_exists_compare_eq_eq_and_mem_toList.1 hi
    refine ⟨(k, i), ⟨hmem, rfl⟩, ?_⟩
    rintro ⟨k', i'⟩ ⟨hmem', rfl⟩
    have hk' : l.index[k']? = some i' :=
      TreeMap.getElem?_eq_some_iff_exists_compare_eq_eq_and_mem_toList.2
        ⟨k', ReflCmp.compare_self, hmem'⟩
    obtain ⟨e', he', hek'⟩ := (h.index_iff k' i').1 hk'
    obtain rfl := h.eq_of_mem he' hc
    by_contra hne
    have hpair := l.index.distinct_keys_toList
    have : Std.Symm fun a b : K × ℕ => ¬ cmp a.1 b.1 = .eq :=
      ⟨fun _ _ hab hba => hab (OrientedCmp.eq_symm hba)⟩
    exact hpair.forall hmem' hmem hne
      (TransCmp.eq_trans (OrientedCmp.eq_symm hek') hk)
  apart := by
    have hnodup : l.cells.Nodup := h.nodup.of_map
    refine (List.Pairwise.and_mem.1 hnodup).imp ?_
    rintro c d ⟨hc, hd, hne⟩ heq
    exact hne (h.cell_unique hc hd heq ReflCmp.compare_self)
  find _ _ := h.find?_eq_some
  erase k := h.cells_erase k

/-! ## What the operations do -/

/-- A search for `k` gave the cell `i`, or the end. -/
def Finds (key : E → K) (l : Raw K E cmp) (k : K) (i : Option ℕ) : Prop :=
  ∀ j, i = some j ↔ ∃ e, (j, e) ∈ l.cells ∧ cmp (key e) k = .eq

/-- To put `e` in led to `l'`, and to the cell `i` unless an equivalent key was in use. -/
def Inserts (key : E → K) (l l' : Raw K E cmp) (e : E) (i : Option ℕ) : Prop :=
  ((∃ c ∈ l.cells, cmp (key c.2) (key e) = .eq) ∧ l' = l ∧ i = none) ∨
    ((∀ c ∈ l.cells, cmp (key c.2) (key e) ≠ .eq) ∧
      ∃ j, i = some j ∧ l'.cells = l.cells ++ [(j, e)] ∧ ∀ c ∈ l.cells, c.1 ≠ j)

/-- To erase `k` led to `l'`, and `b` tells whether there was such an element. -/
def Erases (key : E → K) (l l' : Raw K E cmp) (k : K) (b : Bool) : Prop :=
  l'.cells = l.cells.filter (fun c => cmp (key c.2) k ≠ .eq) ∧
    (b = true ↔ ∃ c ∈ l.cells, cmp (key c.2) k = .eq)

/-- To erase the cell `i` led to `l'`, and `b` tells whether there was such a cell. -/
def ErasesAt (l l' : Raw K E cmp) (i : ℕ) (b : Bool) : Prop :=
  l'.cells = l.cells.filter (·.1 ≠ i) ∧ (b = true ↔ ∃ e, (i, e) ∈ l.cells)

/-- A write left the index, the cells and the classes of their keys. -/
structure Keeps (key : E → K) (l l' : Raw K E cmp) : Prop where
  index : l'.index = l.index
  cells : List.Forall₂ (fun c d => c.1 = d.1 ∧ cmp (key c.2) (key d.2) = .eq) l'.cells l.cells

namespace WF

theorem finds (h : WF key l) (k : K) : l.Finds key k ((l.find? k).map (·.1)) := by
  intro j
  rw [Option.map_eq_some_iff]
  constructor
  · rintro ⟨⟨j, e⟩, hc, rfl⟩
    exact ⟨e, h.find?_eq_some.1 hc⟩
  · rintro ⟨e, hc⟩
    exact ⟨(j, e), h.find?_eq_some.2 hc, rfl⟩

/-- A key is indexed when some element has an equivalent one. -/
theorem contains_iff [TransCmp cmp] (h : WF key l) (k : K) :
    l.index.contains k = true ↔ ∃ c ∈ l.cells, cmp (key c.2) k = .eq := by
  rw [TreeMap.contains_eq_isSome_getElem?, ← Option.ne_none_iff_isSome, ne_eq, h.index_eq_none]
  simp only [not_forall, not_not, exists_prop]

theorem inserts_of_contains [TransCmp cmp] (h : WF key l) {e : E}
    (he : l.index.contains (key e) = true) : l.Inserts key l e none :=
  .inl ⟨(h.contains_iff _).1 he, rfl, rfl⟩

theorem inserts_of_not_contains [TransCmp cmp] (h : WF key l) {e : E}
    (he : ¬ l.index.contains (key e) = true) :
    l.Inserts key (l.insert (key e) e) e (some l.next) := by
  have hnone : ∀ c ∈ l.cells, cmp (key c.2) (key e) ≠ .eq := by
    simpa only [h.contains_iff, not_exists, not_and] using he
  refine .inr ⟨hnone, l.next, rfl, ?_, fun c hc => Nat.ne_of_lt (h.fresh c hc)⟩
  rw [Raw.insert, if_neg he]

theorem erases [TransCmp cmp] (h : WF key l) (k : K) :
    l.Erases key (l.erase k) k (l.index.contains k) :=
  ⟨h.cells_erase k, h.contains_iff k⟩

/-- To erase the key of a cell erases this cell and no other. -/
theorem erasesAt [TransCmp cmp] (h : WF key l) {i : ℕ} {e : E} (he : (i, e) ∈ l.cells) :
    l.ErasesAt (l.erase (key e)) i (l.index.contains (key e)) := by
  refine ⟨?_, iff_of_true ((h.contains_iff _).2 ⟨_, he, ReflCmp.compare_self⟩) ⟨e, he⟩⟩
  rw [h.cells_erase]
  apply List.filter_congr
  intro c hc
  have hiff : cmp (key c.2) (key e) = .eq ↔ c.1 = i := by
    constructor
    · exact fun hk => congrArg Prod.fst (h.cell_unique hc he hk ReflCmp.compare_self)
    · rintro rfl
      rw [h.eq_of_mem hc he]
      exact ReflCmp.compare_self
  simp only [ne_eq, hiff]

end WF

theorem erasesAt_of_not_mem {i : ℕ} (hi : ∀ e, (i, e) ∉ l.cells) : l.ErasesAt l i false := by
  refine ⟨(List.filter_eq_self.2 fun c hc => ?_).symm, iff_of_false Bool.false_ne_true ?_⟩
  · simp only [ne_eq, decide_not, Bool.not_eq_true', decide_eq_false_iff_not]
    rintro rfl
    exact hi c.2 hc
  · rintro ⟨e, he⟩
    exact hi e he

theorem keeps_update [TransCmp cmp] (l : Raw K E cmp) {i : ℕ} {f : E → E}
    (hf : ∀ e, (i, e) ∈ l.cells → cmp (key (f e)) (key e) = .eq) : l.Keeps key (l.update i f) where
  index := rfl
  cells := by
    rw [Raw.update, List.forall₂_map_left_iff, List.forall₂_same]
    rintro ⟨j, e⟩ hc
    by_cases hj : j = i
    · subst hj
      rw [if_pos rfl]
      exact ⟨rfl, hf e hc⟩
    · rw [if_neg hj]
      exact ⟨rfl, ReflCmp.compare_self⟩

end Raw

end IndexedList

/-! ## Indexed lists -/

open Std

/-- A list of elements with inequivalent keys, each found through its key. -/
structure IndexedList {K E : Type*} (cmp : K → K → Ordering) (key : E → K) where
  raw : IndexedList.Raw K E cmp
  wf : raw.WF key

namespace IndexedList

variable {K E : Type*} {cmp : K → K → Ordering} {key : E → K}

/-- The elements in the order of arrival. -/
def toList (l : IndexedList cmp key) : List E := l.raw.cells.map Prod.snd

/-- The element with a key equivalent to `k`. -/
def get? (l : IndexedList cmp key) (k : K) : Option E := (l.raw.find? k).map Prod.snd

variable {l : IndexedList cmp key}

theorem get?_eq_some {k : K} {e : E} :
    l.get? k = some e ↔ e ∈ l.toList ∧ cmp (key e) k = .eq := by
  simp only [get?, Option.map_eq_some_iff, l.wf.find?_eq_some, toList, List.mem_map, Prod.exists]
  constructor
  · rintro ⟨i, e', ⟨hmem, hk⟩, rfl⟩
    exact ⟨⟨i, e', hmem, rfl⟩, hk⟩
  · rintro ⟨⟨i, e', hmem, rfl⟩, hk⟩
    exact ⟨i, e', ⟨hmem, hk⟩, rfl⟩

theorem cmp_of_get? {k : K} {e : E} (h : l.get? k = some e) : cmp (key e) k = .eq :=
  (get?_eq_some.1 h).2

theorem get?_eq_none {k : K} : l.get? k = none ↔ ∀ e ∈ l.toList, cmp (key e) k ≠ .eq := by
  simp [Option.eq_none_iff_forall_ne_some, get?_eq_some]

variable [TransCmp cmp]

/-- The empty list. -/
def empty : IndexedList cmp key := ⟨{}, Raw.WF.empty⟩

/-- Append an element unless one with an equivalent key is there. -/
def insert (l : IndexedList cmp key) (e : E) : IndexedList cmp key :=
  ⟨l.raw.insert (key e) e, l.wf.insert e⟩

/-- Remove the element with a key equivalent to `k`. -/
def erase (l : IndexedList cmp key) (k : K) : IndexedList cmp key := ⟨l.raw.erase k, l.wf.erase k⟩

/-- Change the element with a key equivalent to `k` in place, its key staying equivalent to `k`. -/
def modify (l : IndexedList cmp key) (k : K) (f : E → E)
    (hf : ∀ e, cmp (key e) k = .eq → cmp (key (f e)) k = .eq) : IndexedList cmp key :=
  ⟨l.raw.modify k f, l.wf.modify hf⟩

theorem mem_toList {e : E} : e ∈ l.toList ↔ l.get? (key e) = some e := by
  simp [get?_eq_some, ReflCmp.compare_self]

theorem get?_congr {k k' : K} (h : cmp k k' = .eq) : l.get? k = l.get? k' := by
  ext e
  simp only [get?_eq_some]
  exact and_congr_right fun _ =>
    ⟨fun hk => TransCmp.eq_trans hk h, fun hk => TransCmp.eq_trans hk (OrientedCmp.eq_symm h)⟩

@[simp] theorem toList_empty : (empty : IndexedList cmp key).toList = [] := rfl

@[simp] theorem get?_empty (k : K) : (empty : IndexedList cmp key).get? k = none := by
  simp [get?_eq_none]

theorem contains_index (l : IndexedList cmp key) (k : K) :
    l.raw.index.contains k = (l.get? k).isSome := by
  rw [TreeMap.contains_eq_isSome_getElem?]
  cases hi : l.raw.index[k]? with
  | none => simp [get?, Raw.find?, hi]
  | some i =>
    obtain ⟨e, he, hk⟩ := (l.wf.index_iff k i).1 hi
    have hc : (i, e) ∈ l.raw.cells ∧ cmp (key (i, e).2) k = .eq := ⟨he, hk⟩
    simp [get?, l.wf.find?_eq_some.2 hc]

theorem toList_insert {e : E} (h : l.get? (key e) = none) :
    (l.insert e).toList = l.toList ++ [e] := by
  have : l.raw.index.contains (key e) = false := by rw [contains_index, h]; rfl
  simp [insert, Raw.insert, this, toList]

theorem get?_insert {e : E} (h : l.get? (key e) = none) (k : K) :
    (l.insert e).get? k = if cmp (key e) k = .eq then some e else l.get? k := by
  ext e'
  rw [get?_eq_some, toList_insert h, List.mem_append, List.mem_singleton]
  split
  · rename_i hk
    rw [Option.some.injEq]
    constructor
    · rintro ⟨he' | rfl, hk'⟩
      · exact absurd (TransCmp.eq_trans hk' (OrientedCmp.eq_symm hk)) (get?_eq_none.1 h e' he')
      · rfl
    · rintro rfl
      exact ⟨.inr rfl, hk⟩
  · rename_i hk
    rw [get?_eq_some]
    constructor
    · rintro ⟨he' | rfl, hk'⟩
      · exact ⟨he', hk'⟩
      · exact absurd hk' hk
    · rintro ⟨he', hk'⟩
      exact ⟨.inl he', hk'⟩

theorem mem_toList_erase {k : K} {e : E} :
    e ∈ (l.erase k).toList ↔ e ∈ l.toList ∧ cmp (key e) k ≠ .eq := by
  simp only [erase, Raw.erase, toList]
  cases hi : l.raw.index[k]? with
  | none =>
    have hnone := l.wf.index_eq_none.1 hi
    constructor
    · intro he
      obtain ⟨c, hc, rfl⟩ := List.mem_map.1 he
      exact ⟨he, hnone c hc⟩
    · exact And.left
  | some i =>
    obtain ⟨d, hd, hk⟩ := (l.wf.index_iff k i).1 hi
    simp only [List.mem_map, List.mem_filter]
    constructor
    · rintro ⟨c, ⟨hc, hne⟩, rfl⟩
      refine ⟨⟨c, hc, rfl⟩, fun heq => ?_⟩
      exact absurd (congrArg Prod.fst (l.wf.cell_unique hc hd heq hk)) (by simpa using hne)
    · rintro ⟨⟨c, hc, rfl⟩, hne⟩
      refine ⟨c, ⟨hc, ?_⟩, rfl⟩
      suffices c.1 ≠ i by simpa using this
      rintro rfl
      exact hne (l.wf.eq_of_mem hc hd ▸ hk)

theorem get?_erase (k k' : K) :
    (l.erase k).get? k' = if cmp k k' = .eq then none else l.get? k' := by
  ext e
  rw [get?_eq_some, mem_toList_erase]
  split
  · rename_i hkk
    simp only [reduceCtorEq, iff_false, not_and]
    rintro ⟨-, hne⟩ hk'
    exact hne (TransCmp.eq_trans hk' (OrientedCmp.eq_symm hkk))
  · rename_i hkk
    rw [get?_eq_some]
    refine ⟨fun h => ⟨h.1.1, h.2⟩, fun h => ⟨⟨h.1, fun hk => hkk ?_⟩, h.2⟩⟩
    exact TransCmp.eq_trans (OrientedCmp.eq_symm hk) h.2

theorem toList_modify {k : K} {f : E → E} {hf} :
    (l.modify k f hf).toList = l.toList.map fun e => if cmp (key e) k = .eq then f e else e := by
  simp only [modify, Raw.modify, toList]
  cases hi : l.raw.index[k]? with
  | none =>
    have hnone := l.wf.index_eq_none.1 hi
    rw [List.map_map]
    exact List.map_congr_left fun c hc => (if_neg (hnone c hc)).symm
  | some i =>
    obtain ⟨d, hd, hk⟩ := (l.wf.index_iff k i).1 hi
    have hcell : ∀ c ∈ l.raw.cells, (c.1 = i ↔ cmp (key c.2) k = .eq) := by
      rintro ⟨j, d'⟩ hc
      constructor
      · rintro rfl
        exact l.wf.eq_of_mem hc hd ▸ hk
      · exact fun heq => congrArg Prod.fst (l.wf.cell_unique hc hd heq hk)
    rw [List.map_map, List.map_map]
    refine List.map_congr_left fun c hc => ?_
    simp only [Function.comp_apply, ← hcell c hc]
    split <;> rfl

theorem mem_toList_modify {k : K} {f : E → E} {hf} {e : E} :
    e ∈ (l.modify k f hf).toList ↔ ∃ d ∈ l.toList, e = if cmp (key d) k = .eq then f d else d := by
  simp only [toList_modify, List.mem_map, eq_comm]

/-- The elements keep their keys. -/
theorem cmp_modify_eq_iff {k : K} {f : E → E} {d : E}
    (hf : cmp (key d) k = .eq → cmp (key (f d)) k = .eq) (k' : K) :
    cmp (key (if cmp (key d) k = .eq then f d else d)) k' = .eq ↔ cmp (key d) k' = .eq := by
  split
  · rename_i hd
    have hfd : cmp (key (f d)) (key d) = .eq :=
      TransCmp.eq_trans (hf hd) (OrientedCmp.eq_symm hd)
    exact ⟨fun h => TransCmp.eq_trans (OrientedCmp.eq_symm hfd) h,
      fun h => TransCmp.eq_trans hfd h⟩
  · rfl

theorem get?_modify {k : K} {f : E → E} {hf} (k' : K) :
    (l.modify k f hf).get? k' = if cmp k k' = .eq then (l.get? k').map f else l.get? k' := by
  ext e
  rw [get?_eq_some, mem_toList_modify]
  constructor
  · rintro ⟨⟨d, hd, rfl⟩, hk'⟩
    have hdk : cmp (key d) k' = .eq := (cmp_modify_eq_iff (hf d) k').1 hk'
    have hd' : l.get? k' = some d := get?_eq_some.2 ⟨hd, hdk⟩
    have hiff : cmp (key d) k = .eq ↔ cmp k k' = .eq :=
      ⟨fun h => TransCmp.eq_trans (OrientedCmp.eq_symm h) hdk,
        fun h => TransCmp.eq_trans hdk (OrientedCmp.eq_symm h)⟩
    simp only [hiff, hd']
    split <;> rfl
  · intro h
    split at h
    · rename_i hkk
      obtain ⟨d, hd, rfl⟩ := Option.map_eq_some_iff.1 h
      obtain ⟨hmd, hdk⟩ := get?_eq_some.1 hd
      have hdk' : cmp (key d) k = .eq := TransCmp.eq_trans hdk (OrientedCmp.eq_symm hkk)
      have hfd := (cmp_modify_eq_iff (hf d) k').2 hdk
      rw [if_pos hdk'] at hfd
      exact ⟨⟨d, hmd, (if_pos hdk').symm⟩, hfd⟩
    · rename_i hkk
      obtain ⟨hme, hek⟩ := get?_eq_some.1 h
      have hek' : cmp (key e) k ≠ .eq := fun hk =>
        hkk (TransCmp.eq_trans (OrientedCmp.eq_symm hk) hek)
      exact ⟨⟨e, hme, (if_neg hek').symm⟩, hek⟩

/-! ## One key and the others -/

/-- The elements whose keys are not equivalent to `k`, in the order of arrival. -/
def others (l : IndexedList cmp key) (k : K) : List E :=
  l.toList.filter fun e => cmp (key e) k ≠ .eq

theorem nodup_toList (l : IndexedList cmp key) : l.toList.Nodup := by
  refine List.Pairwise.map _ (fun c d hcd heq => ?_) l.wf.bijection.apart
  rw [heq] at hcd
  exact hcd ReflCmp.compare_self

/-- Exactly one element has a key equivalent to `k` when one is found. -/
theorem filter_of_get? {k : K} {e : E} (h : l.get? k = some e) :
    (l.toList.filter fun d => cmp (key d) k = .eq) = [e] := by
  rw [← List.perm_singleton, List.perm_ext_iff_of_nodup (l.nodup_toList.filter _)
    (List.nodup_singleton e)]
  intro d
  rw [List.mem_filter, decide_eq_true_eq, ← get?_eq_some, h, Option.some.injEq,
    List.mem_singleton, eq_comm]

theorem others_congr {k k' : K} (h : cmp k k' = .eq) : l.others k = l.others k' := by
  refine List.filter_congr fun e _ => ?_
  have hiff : cmp (key e) k = .eq ↔ cmp (key e) k' = .eq :=
    ⟨fun hk => TransCmp.eq_trans hk h, fun hk => TransCmp.eq_trans hk (OrientedCmp.eq_symm h)⟩
  simp only [ne_eq, hiff]

theorem others_insert {e : E} (h : l.get? (key e) = none) :
    (l.insert e).others (key e) = l.others (key e) := by
  unfold others
  rw [toList_insert h, List.filter_append, List.filter_singleton]
  simp [ReflCmp.compare_self]

theorem toList_erase (k : K) : (l.erase k).toList = l.others k := by
  unfold others
  show (l.raw.erase k).cells.map Prod.snd = (l.raw.cells.map Prod.snd).filter _
  rw [l.wf.cells_erase, List.filter_map]
  rfl

theorem others_erase (k : K) : (l.erase k).others k = l.others k := by
  rw [others, toList_erase, others, List.filter_filter]
  simp

theorem others_modify {k : K} {f : E → E}
    (hf : ∀ e, cmp (key e) k = .eq → cmp (key (f e)) k = .eq) :
    (l.modify k f hf).others k = l.others k := by
  have hkeys : ((fun e => decide (cmp (key e) k ≠ .eq)) ∘
      fun e => if cmp (key e) k = .eq then f e else e) = fun e => decide (cmp (key e) k ≠ .eq) := by
    funext e
    simp only [Function.comp_apply, ne_eq, cmp_modify_eq_iff (hf e) k]
  rw [others, toList_modify, List.filter_map, hkeys]
  refine (List.map_congr_left fun e he => ?_).trans (List.map_id _)
  have hne : cmp (key e) k ≠ .eq := by simpa using (List.mem_filter.1 he).2
  exact if_neg hne

end IndexedList
