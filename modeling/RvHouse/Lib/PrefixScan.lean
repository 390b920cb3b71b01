import Mathlib.Data.List.DropRight

/-!
# Automata for prefixes

A deterministic automaton with a partial table reads a list of tokens and shall tell whether one of
some words is a prefix of it. Each state has the words that are still to come for a label; the table
respects the labels when an entry's label is what the token leaves of the words (`Respects`).
`exists_prefix_iff`: then the run from a state ends in a state that waits for nothing just when a
word of its label is a prefix.

The last section has what trimming a list at its end does to a list in two parts.
-/

namespace PrefixScan

variable {σ τ α : Type*}

section Words

variable [DecidableEq τ]

/-- What a token leaves of a word. -/
def residual (t : τ) : List τ → Option (List τ)
  | [] => some []
  | t' :: p => if t' = t then some p else none

theorem exists_prefix_cons {ps : List (List τ)} {t : τ} {ts : List τ} :
    (∃ p ∈ ps, p <+: t :: ts) ↔ ∃ p ∈ ps.filterMap (residual t), p <+: ts := by
  have hword : ∀ p : List τ, p <+: t :: ts ↔ ∃ p', residual t p = some p' ∧ p' <+: ts := by
    intro p
    cases p with
    | nil => simp [residual]
    | cons t' p =>
      rw [List.cons_prefix_cons, residual]
      split
      · rename_i ht
        simp [ht]
      · rename_i ht
        simp [ht]
  simp only [hword, List.mem_filterMap]
  constructor
  · rintro ⟨p, hp, p', hres, hpre⟩
    exact ⟨p', ⟨p, hp, hres⟩, hpre⟩
  · rintro ⟨p', ⟨p, hp, hres⟩, hpre⟩
    exact ⟨p, hp, p', hres, hpre⟩

/-- The table respects the labels at a token. -/
def Respects (table : σ → τ → Option σ) (label : σ → List (List τ)) (t : τ) : Prop :=
  ∀ s, (label s).filterMap (residual t) = (table s t).elim [] label

/-- **The run tells the prefixes.** -/
theorem exists_prefix_iff {table : σ → τ → Option σ} {label : σ → List (List τ)} {ts : List τ}
    (h : ∀ t ∈ ts, Respects table label t) (s : σ) :
    (∃ p ∈ label s, p <+: ts) ↔ ∃ s', ts.foldlM table s = some s' ∧ [] ∈ label s' := by
  induction ts generalizing s with
  | nil => simp
  | cons t ts ih =>
    rw [exists_prefix_cons, h t List.mem_cons_self s, List.foldlM_cons]
    cases htable : table s t with
    | none => simp
    | some s₁ => exact ih (fun t' ht' => h t' (List.mem_cons_of_mem t ht')) s₁

end Words

/-! ## Trimming at the end -/

variable {p : α → Bool}

theorem rdropWhile_append (l₁ l₂ : List α) :
    (l₁ ++ l₂).rdropWhile p =
      if l₂.rdropWhile p = [] then l₁.rdropWhile p else l₁ ++ l₂.rdropWhile p := by
  induction l₂ using List.reverseRecOn with
  | nil => simp
  | append_singleton l₂ x ih =>
    rw [← List.append_assoc, List.rdropWhile_concat, List.rdropWhile_concat]
    split
    · exact ih
    · simp

end PrefixScan
