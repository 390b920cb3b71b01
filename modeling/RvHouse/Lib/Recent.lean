import Mathlib.Data.List.Basic

/-!
# The last items of each key

A log holds items, newest first, some of them under a key. `recent n key f log k` is what a memory
of bounded length knows of the key `k`: the last `n` items under it, as `f` shows them. The rules
say how it grows with the log (`recent_cons_of_key`, `recent_cons_of_ne`) and that to push an item
and to drop the oldest one when there are too many is to keep the last `n` (`push_eq_take`).
-/

namespace Recent

variable {α β κ : Type*} [DecidableEq κ] (n : ℕ) (key : α → Option κ) (f : α → β)

/-- The last `n` items under the key `k`, newest first. -/
def recent (log : List α) (k : κ) : List β := ((log.filter (key · = some k)).take n).map f

@[simp] theorem recent_nil (k : κ) : recent n key f [] k = [] := by
  simp [recent]

theorem length_recent_le (log : List α) (k : κ) : (recent n key f log k).length ≤ n := by
  rw [recent, List.length_map]
  exact List.length_take_le _ _

theorem recent_cons_of_ne {a : α} {k : κ} (h : key a ≠ some k) (log : List α) :
    recent n key f (a :: log) k = recent n key f log k := by
  simp [recent, h]

theorem recent_cons_of_key {a : α} {k : κ} (h : key a = some k) (log : List α) :
    recent n key f (a :: log) k = (f a :: recent n key f log k).take n := by
  cases n with
  | zero => simp [recent]
  | succ n =>
    have hfilter : (a :: log).filter (key · = some k) = a :: log.filter (key · = some k) := by
      simp [h]
    have hmin : min n (n + 1) = n := by omega
    simp only [recent, hfilter, List.take_succ_cons, List.map_cons, ← List.map_take,
      List.take_take, hmin]

theorem recent_map {γ : Type*} (g : γ → α) (log : List γ) (k : κ) :
    recent n key f (log.map g) k = (recent n (key ∘ g) id log k).map (f ∘ g) := by
  simp only [recent, List.filter_map, ← List.map_take, List.map_map]
  rfl

/-- An item that is recent is in the log under its key. -/
theorem exists_of_mem_recent {log : List α} {k : κ} {b : β} (h : b ∈ recent n key f log k) :
    ∃ a ∈ log, key a = some k ∧ f a = b := by
  obtain ⟨a, ha, rfl⟩ := List.mem_map.1 h
  have hmem := List.mem_filter.1 (List.mem_of_mem_take ha)
  exact ⟨a, hmem.1, by simpa using hmem.2, rfl⟩

/-- An item is recent while fewer than `n` newer ones are under its key. -/
theorem mem_recent_append {a : α} {k : κ} (h : key a = some k) {new : List α}
    (hnew : new.countP (key · = some k) < n) (old : List α) :
    f a ∈ recent n key f (new ++ a :: old) k := by
  have hfilter : (new ++ a :: old).filter (key · = some k) =
      new.filter (key · = some k) ++ a :: old.filter (key · = some k) := by
    simp [h]
  rw [List.countP_eq_length_filter] at hnew
  obtain ⟨d, hd⟩ := Nat.exists_eq_add_of_lt hnew
  apply List.mem_map_of_mem
  rw [hfilter, List.take_append, List.mem_append]
  refine .inr ?_
  rw [show n - (new.filter (key · = some k)).length = d + 1 by omega, List.take_succ_cons]
  exact List.mem_cons_self

/-- To push an item, and to drop the last one when there are more than `n`, keeps the last `n`. -/
theorem push_eq_take {xs : List β} (h : xs.length ≤ n) (x : β) :
    (if n < (x :: xs).length then (x :: xs).dropLast else x :: xs) = (x :: xs).take n := by
  by_cases hlen : n < (x :: xs).length
  · have hn : (x :: xs).length - 1 = n := by
      rw [List.length_cons] at hlen ⊢
      omega
    rw [if_pos hlen, List.dropLast_eq_take, hn]
  · rw [if_neg hlen, List.take_of_length_le (by omega)]

end Recent
