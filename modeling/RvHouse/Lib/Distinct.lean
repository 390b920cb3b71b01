import Mathlib.Data.List.Dedup
import Mathlib.Data.List.Perm.Basic
import Std.Data.TreeMap.Lemmas

/-!
# Collecting distinct elements

Two ways in which a program finds out how many different elements it meets: it makes each of them a
key of a map and asks for the size of the map, or it looks each of them up in such a map and writes
it out when it was not there.

* `size_eq_length`: a map whose keys are the elements of a list without repetitions has its length;
* `Distinct`: the second way, whose list has no repetitions by construction (`Distinct.mem_add`,
  `Distinct.size_seen`);
* `foldl_gains`, `foldlM_gains`: a loop has what it had before and what its steps gain.
-/

namespace Distinct

open Std

/-! ## Loops that gain -/

variable {S A : Type*}

/-- A loop has a property that it had before, or that one of its steps gained. -/
theorem foldl_gains {f : S → A → S} {Q : S → Prop} {P : A → Prop}
    (hf : ∀ s a, Q (f s a) ↔ Q s ∨ P a) (as : List A) (s : S) :
    Q (as.foldl f s) ↔ Q s ∨ ∃ a ∈ as, P a := by
  induction as generalizing s with
  | nil => simp
  | cons a as ih =>
    rw [List.foldl_cons, ih, hf, or_assoc]
    simp

/-- The same for a loop whose steps can fail, and do not, and for a family of properties. -/
theorem foldlM_gains {ι : Type*} {f : S → A → Option S} {Q : ι → S → Prop} {P : ι → A → Prop}
    {as : List A}
    (hf : ∀ s, ∀ a ∈ as, ∃ s', f s a = some s' ∧ ∀ i, Q i s' ↔ Q i s ∨ P i a) (s : S) :
    ∃ s', as.foldlM f s = some s' ∧ ∀ i, Q i s' ↔ Q i s ∨ ∃ a ∈ as, P i a := by
  induction as generalizing s with
  | nil => exact ⟨s, rfl, fun i => by simp⟩
  | cons a as ih =>
    obtain ⟨s₁, hs₁, hQ₁⟩ := hf s a List.mem_cons_self
    obtain ⟨s₂, hs₂, hQ₂⟩ := ih (fun s b hb => hf s b (List.mem_cons_of_mem a hb)) s₁
    refine ⟨s₂, ?_, fun i => ?_⟩
    · rw [List.foldlM_cons, hs₁]
      exact hs₂
    · rw [hQ₂, hQ₁, or_assoc]
      simp

/-! ## Keys -/

variable {K V : Type*} [Ord K] [TransOrd K] [LawfulEqOrd K]

/-- The number of keys of a map. -/
theorem size_eq_length {m : TreeMap K V} {ks : List K} (hks : ks.Nodup)
    (h : ∀ k, k ∈ m ↔ k ∈ ks) : m.size = ks.length := by
  have hperm : m.keys.Perm ks :=
    (List.perm_ext_iff_of_nodup m.nodup_keys hks).2 fun k => TreeMap.mem_keys.trans (h k)
  rw [← TreeMap.length_keys, hperm.length_eq]

theorem mem_insert_iff {m : TreeMap K V} {k k' : K} {v : V} :
    k' ∈ m.insert k v ↔ k' ∈ m ∨ k' = k := by
  rw [TreeMap.mem_insert, LawfulEqOrd.compare_eq_iff_eq, or_comm, eq_comm]

end Distinct

open Std

/-- The elements written out so far, and the map in which they are looked up. -/
structure Distinct (K : Type*) [Ord K] where
  seen : TreeMap K Bool := ∅
  out : List K := []
  nodup : out.Nodup
  mem_seen : ∀ k, k ∈ seen ↔ k ∈ out

namespace Distinct

variable {K : Type*} [Ord K] [TransOrd K] [LawfulEqOrd K]

/-- Nothing is written out yet. -/
def empty : Distinct K where
  nodup := List.nodup_nil
  mem_seen k := by simp

/-- An element is written out unless it was seen. -/
def add (d : Distinct K) (k : K) : Distinct K :=
  if h : k ∈ d.seen then d
  else
    { seen := d.seen.insert k true
      out := d.out ++ [k]
      nodup := by
        refine List.nodup_append.2 ⟨d.nodup, List.nodup_singleton k, fun a ha b hb hab => ?_⟩
        rw [List.mem_singleton.1 hb] at hab
        exact h ((d.mem_seen k).2 (hab ▸ ha))
      mem_seen := fun k' => by
        rw [mem_insert_iff, d.mem_seen, List.mem_append, List.mem_singleton] }

theorem mem_add (d : Distinct K) (k k' : K) : k' ∈ (d.add k).out ↔ k' ∈ d.out ∨ k' = k := by
  unfold add
  split
  · rename_i hk
    refine ⟨.inl, fun h => h.elim id ?_⟩
    rintro rfl
    exact (d.mem_seen k').1 hk
  · rw [List.mem_append, List.mem_singleton]

/-- As many were seen as are written out. -/
theorem size_seen (d : Distinct K) : d.seen.size = d.out.length :=
  size_eq_length d.nodup d.mem_seen

end Distinct
