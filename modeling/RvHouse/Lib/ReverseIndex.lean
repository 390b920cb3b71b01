import Mathlib.Logic.Function.Basic

/-!
# An index from labels back to holders

Holders carry labels, several holders may carry the same one, and an index gives for each label one
of its holders. `Finds label entry s` says what a search for the label `s` needs of the entry that
the index has for it. The rules say, for each way in which a label is given or taken, when the
search stays correct: `finds_give`, `finds_give_other`, `finds_drop` and `finds_take`.
-/

namespace ReverseIndex

open Function

variable {N L : Type*}

/-- The search for `s` finds a holder exactly when there is one. -/
structure Finds (label : N → Option L) (entry : Option N) (s : L) : Prop where
  sound : ∀ n l, entry = some n → label n = some l → l = s
  complete : ∀ n, label n = some s → ∃ m, entry = some m ∧ label m = some s

variable [DecidableEq N] {label : N → Option L} {entry : Option N} {s : L} {n : N}

/-- A holder gets the label, and becomes its entry if there is none. -/
theorem finds_give (h : Finds label entry s) (hn : label n ≠ some s) :
    Finds (update label n (some s)) (entry.or (some n)) s ↔
      ∀ m, m ≠ n → entry = some m → label m ≠ none := by
  cases he : entry with
  | none =>
    refine iff_of_true ⟨fun m l hm hl => ?_, fun m hm => ⟨n, rfl, by simp⟩⟩ (by simp)
    obtain rfl : n = m := by simpa using hm
    simpa [eq_comm] using hl
  | some k =>
    constructor
    · rintro h' m hne ⟨⟩ hm
      obtain ⟨m', hm', hl⟩ := h'.complete n (by simp)
      obtain rfl : k = m' := by simpa using hm'
      simp [hne, hm] at hl
    · intro hlive
      refine ⟨fun m l hm hl => ?_, fun m _ => ⟨k, rfl, ?_⟩⟩
      · obtain rfl : k = m := by simpa using hm
        by_cases hkn : k = n
        · subst hkn
          simpa [eq_comm] using hl
        · rw [update_of_ne hkn] at hl
          exact h.sound k l he hl
      · by_cases hkn : k = n
        · simp [hkn]
        · rw [update_of_ne hkn]
          obtain ⟨l, hl⟩ := Option.ne_none_iff_exists'.1 (hlive k hkn rfl)
          rw [hl, h.sound k l he hl]

/-- A holder without the label gets another one. -/
theorem finds_give_other (h : Finds label entry s) (hn : label n ≠ some s) {l : L} (hl : l ≠ s) :
    Finds (update label n (some l)) entry s ↔ entry ≠ some n := by
  constructor
  · intro h' he
    exact hl (h'.sound n l he (by simp))
  · intro he
    refine ⟨fun m l' hm hl' => ?_, fun m hm => ?_⟩
    · have hmn : m ≠ n := by
        rintro rfl
        exact he hm
      rw [update_of_ne hmn] at hl'
      exact h.sound m l' hm hl'
    · have hmn : m ≠ n := by
        rintro rfl
        simp [hl] at hm
      rw [update_of_ne hmn] at hm
      obtain ⟨k, hk, hks⟩ := h.complete m hm
      have hkn : k ≠ n := by
        rintro rfl
        exact he hk
      exact ⟨k, hk, by rw [update_of_ne hkn, hks]⟩

/-- A holder loses the label, and the label its entry. -/
theorem finds_drop {x : Option L} (hx : x ≠ some s) :
    Finds (update label n x) none s ↔ ∀ m, label m = some s → m = n := by
  constructor
  · intro h' m hm
    by_contra hmn
    obtain ⟨k, hk, -⟩ := h'.complete m (by rw [update_of_ne hmn, hm])
    cases hk
  · intro honly
    refine ⟨fun m l hm _ => by simp at hm, fun m hm => ?_⟩
    by_cases hmn : m = n
    · subst hmn
      simp [hx] at hm
    · rw [update_of_ne hmn] at hm
      exact absurd (honly m hm) hmn

/-- A holder goes, and the entry stays. -/
theorem finds_take (h : Finds label entry s) :
    Finds (update label n none) entry s ↔
      (label n = some s → entry = some n → ∀ m, label m = some s → m = n) := by
  constructor
  · intro h' _ he m hm
    by_contra hmn
    obtain ⟨k, hk, hks⟩ := h'.complete m (by rw [update_of_ne hmn, hm])
    obtain rfl : n = k := Option.some.inj (he.symm.trans hk)
    simp at hks
  · intro honly
    refine ⟨fun m l hm hl => ?_, fun m hm => ?_⟩
    · by_cases hmn : m = n
      · subst hmn
        simp at hl
      · rw [update_of_ne hmn] at hl
        exact h.sound m l hm hl
    · have hmn : m ≠ n := by
        rintro rfl
        simp at hm
      rw [update_of_ne hmn] at hm
      obtain ⟨k, hk, hks⟩ := h.complete m hm
      have hkn : k ≠ n := by
        rintro rfl
        exact hmn (honly hks hk m hm)
      exact ⟨k, hk, by rw [update_of_ne hkn, hks]⟩

end ReverseIndex
