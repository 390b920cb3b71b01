import RvHouse.Lib.Mealy
import Mathlib.Tactic.Linarith

/-!
# Amortised rates

How many outputs can a machine give in a span of time? Each output is to cost the time `cost`. A
potential `φ` of the state keeps the account: an output may be paid with time that has passed since
the last one, or by raising the potential, which is bounded (`Pays`).

`cost_mul_le` is the rule: if all steps of a run pay, then `k` outputs after another one take the
time `cost * k`, less what the potential can swing.
-/

namespace Mealy

variable {σ ε ω : Type*} (M : Mealy σ ε ω) (clock φ : σ → ℤ) (time : ω → ℤ)

/-- The step gives no output, and lowers neither the clock nor the potential; or it gives one and
pays for it. The clock shows the time of the last output. -/
def Pays (cost : ℤ) (s : σ) (e : ε) : Prop :=
  ((M.step s e).2 = [] ∧ clock (M.step s e).1 = clock s ∧ φ s ≤ φ (M.step s e).1) ∨
    ∃ o, (M.step s e).2 = [o] ∧ clock (M.step s e).1 = time o ∧
      φ s + cost ≤ φ (M.step s e).1 + (time o - clock s)

variable {M clock φ time} {C : σ → ε → Prop} {cost lo hi : ℤ}

/-- The time from the clock to the output with the number `k`. -/
theorem cost_mul_le_since (hpay : ∀ s e, C s e → M.Pays clock φ time cost s e)
    (hhi : ∀ s, φ s ≤ hi) {s : σ} {es : List ε} (hes : M.Guarded C s es) {k : ℕ} {o : ω}
    (ho : (M.trace s es)[k]? = some o) :
    cost * (k + 1) ≤ time o - clock s + (hi - φ s) := by
  induction es generalizing s k with
  | nil => simp at ho
  | cons e es ih =>
    obtain ⟨he, hes⟩ := hes
    rw [trace_cons] at ho
    rcases hpay s e he with ⟨hout, hclock, hφ⟩ | ⟨o', hout, hclock, hφ⟩
    · rw [hout, List.nil_append] at ho
      have hrest := ih hes ho
      linarith
    · rw [hout, List.singleton_append] at ho
      cases k with
      | zero =>
        obtain rfl : o' = o := by simpa using ho
        have hmax := hhi (M.step s e).1
        push_cast
        linarith
      | succ k =>
        have hrest := ih hes (by simpa using ho)
        push_cast at hrest ⊢
        linarith

/-- **The rule of the amortised rate.** The time between two outputs of a run. -/
theorem cost_mul_le (hpay : ∀ s e, C s e → M.Pays clock φ time cost s e) (hhi : ∀ s, φ s ≤ hi)
    (hlo : ∀ s e, C s e → lo ≤ φ (M.step s e).1) (hswing : 0 ≤ hi - lo) {s : σ} {es : List ε}
    (hes : M.Guarded C s es) {i k : ℕ} {a b : ω} (ha : (M.trace s es)[i]? = some a)
    (hb : (M.trace s es)[i + k]? = some b) :
    cost * k ≤ time b - time a + (hi - lo) := by
  induction es generalizing s i with
  | nil => simp at ha
  | cons e es ih =>
    obtain ⟨he, hes⟩ := hes
    rw [trace_cons] at ha hb
    rcases hpay s e he with ⟨hout, -, -⟩ | ⟨o, hout, hclock, -⟩
    · rw [hout, List.nil_append] at ha hb
      exact ih hes ha hb
    · rw [hout, List.singleton_append] at ha hb
      cases i with
      | zero =>
        obtain rfl : o = a := by simpa using ha
        cases k with
        | zero =>
          obtain rfl : o = b := by simpa using hb
          push_cast
          linarith
        | succ k =>
          rw [Nat.zero_add, List.getElem?_cons_succ] at hb
          have hrest := cost_mul_le_since hpay hhi hes hb
          have hmin := hlo s e he
          push_cast
          linarith
      | succ i =>
        rw [Nat.succ_add] at hb
        exact ih hes (by simpa using ha) (by simpa using hb)

end Mealy
