import Mathlib.Algebra.BigOperators.Group.List.Basic
import Mathlib.Data.List.Infix

/-!
# Mealy machines

A deterministic system that answers every input with a list of outputs. `exec` is the state after
a run, `trace` what the run put out, and `Guarded C` says that every input met the condition `C` in
the state that it found.

The rules split a statement about runs into statements about steps:

* `invariant`: what every guarded step keeps holds after every guarded run;
* `invariant_trace`: the same for a relation of the state and the outputs;
* `forall_along_iff_guarded`: when a guard is exact for a step, it is exact for a run;
* `forall_along_iff_guarded_of`: the same for a part of the invariant;
* `forall_steps_iff_guarded`: the same for a property of steps;
* `forall_trace_iff_guarded`: the same for a property of the outputs;
* `simulation` and `forall_along_consumer_iff_guarded`: a relation to a second system that consumes
  the outputs;
* `invariant_observed`: a relation to an observer of the run;
* `conservation`: what the inputs bring is in the state or in the outputs;
* `conservation_in_order`: the same when it leaves the state in the order in which it came.
-/

/-- A system with states `σ`, inputs `ε` and outputs `ω`. -/
structure Mealy (σ ε ω : Type*) where
  step : σ → ε → σ × List ω

namespace Mealy

variable {σ ε ω τ : Type*} (M : Mealy σ ε ω)

/-- The state after a run. -/
def exec : σ → List ε → σ
  | s, [] => s
  | s, e :: es => exec (M.step s e).1 es

/-- The outputs of a run, in order. -/
def trace : σ → List ε → List ω
  | _, [] => []
  | s, e :: es => (M.step s e).2 ++ trace (M.step s e).1 es

/-- Every input of the run meets `C` in the state that it finds. -/
def Guarded (C : σ → ε → Prop) : σ → List ε → Prop
  | _, [] => True
  | s, e :: es => C s e ∧ Guarded C (M.step s e).1 es

instance decidableGuarded (C : σ → ε → Prop) [∀ s e, Decidable (C s e)] :
    ∀ s es, Decidable (M.Guarded C s es)
  | _, [] => .isTrue trivial
  | s, e :: es =>
    have := decidableGuarded C (M.step s e).1 es
    inferInstanceAs (Decidable (C s e ∧ M.Guarded C (M.step s e).1 es))

@[simp] theorem exec_nil (s : σ) : M.exec s [] = s := rfl

@[simp] theorem exec_cons (s : σ) (e : ε) (es : List ε) :
    M.exec s (e :: es) = M.exec (M.step s e).1 es := rfl

@[simp] theorem trace_nil (s : σ) : M.trace s [] = [] := rfl

@[simp] theorem trace_cons (s : σ) (e : ε) (es : List ε) :
    M.trace s (e :: es) = (M.step s e).2 ++ M.trace (M.step s e).1 es := rfl

theorem exec_append (s : σ) (es fs : List ε) :
    M.exec s (es ++ fs) = M.exec (M.exec s es) fs := by
  induction es generalizing s with
  | nil => rfl
  | cons e es ih => exact ih _

theorem trace_append (s : σ) (es fs : List ε) :
    M.trace s (es ++ fs) = M.trace s es ++ M.trace (M.exec s es) fs := by
  induction es generalizing s with
  | nil => rfl
  | cons e es ih => simp [ih]

theorem exec_concat (s : σ) (es : List ε) (e : ε) :
    M.exec s (es ++ [e]) = (M.step (M.exec s es) e).1 := M.exec_append s es [e]

theorem trace_concat (s : σ) (es : List ε) (e : ε) :
    M.trace s (es ++ [e]) = M.trace s es ++ (M.step (M.exec s es) e).2 := by
  rw [trace_append, trace_cons, trace_nil, List.append_nil]

/-- The outputs of the beginning of a run come first. -/
theorem trace_initial (s : σ) {p es : List ε} (hp : p <+: es) : M.trace s p <+: M.trace s es := by
  obtain ⟨fs, rfl⟩ := hp
  rw [trace_append]
  exact List.prefix_append _ _

/-- An output of a run is one of a step. -/
theorem mem_trace_iff {s : σ} {es : List ε} {o : ω} :
    o ∈ M.trace s es ↔ ∃ p e, p ++ [e] <+: es ∧ o ∈ (M.step (M.exec s p) e).2 := by
  constructor
  · induction es using List.reverseRecOn with
    | nil => exact fun h => absurd h List.not_mem_nil
    | append_singleton es e ih =>
      rw [trace_concat, List.mem_append]
      rintro (h | h)
      · obtain ⟨p, f, hp, hf⟩ := ih h
        exact ⟨p, f, hp.trans (List.prefix_append es [e]), hf⟩
      · exact ⟨es, e, List.prefix_refl _, h⟩
  · rintro ⟨p, e, hp, h⟩
    refine (M.trace_initial s hp).subset ?_
    rw [trace_concat]
    exact List.mem_append_right _ h

theorem guarded_append {C : σ → ε → Prop} (s : σ) (es fs : List ε) :
    M.Guarded C s (es ++ fs) ↔ M.Guarded C s es ∧ M.Guarded C (M.exec s es) fs := by
  induction es generalizing s with
  | nil => simp [Guarded]
  | cons e es ih => simp [Guarded, ih, and_assoc]

/-- What every step keeps and what gives the guard makes a run guarded. -/
theorem guarded_of_invariant {I : σ → Prop} {C : σ → ε → Prop} (hC : ∀ s e, I s → C s e)
    (hstep : ∀ s e, I s → I (M.step s e).1) {s : σ} (hs : I s) (es : List ε) :
    M.Guarded C s es := by
  induction es generalizing s with
  | nil => trivial
  | cons e es ih => exact ⟨hC s e hs, ih (hstep s e hs)⟩

theorem guarded_of_forall {C : σ → ε → Prop} (h : ∀ s e, C s e) (s : σ) (es : List ε) :
    M.Guarded C s es :=
  M.guarded_of_invariant (fun s e _ => h s e) (I := fun _ => True) (fun _ _ _ => trivial) trivial es

theorem Guarded.initial {C : σ → ε → Prop} {s : σ} {p es : List ε} (h : M.Guarded C s es)
    (hp : p <+: es) : M.Guarded C s p := by
  obtain ⟨fs, rfl⟩ := hp
  exact ((M.guarded_append s p fs).1 h).1

/-- Guards that agree in the states of a run agree on the run. -/
theorem guarded_congr {C D : σ → ε → Prop} {s : σ} {es : List ε}
    (h : ∀ p, p <+: es → ∀ e, C (M.exec s p) e ↔ D (M.exec s p) e) :
    M.Guarded C s es ↔ M.Guarded D s es := by
  induction es generalizing s with
  | nil => exact Iff.rfl
  | cons e es ih =>
    refine and_congr (h [] List.nil_prefix e) (ih fun p hp => ?_)
    obtain ⟨fs, rfl⟩ := hp
    exact h (e :: p) ⟨fs, rfl⟩

theorem guarded_iff_forall {C : σ → ε → Prop} (s : σ) (es : List ε) :
    M.Guarded C s es ↔ ∀ p e, p ++ [e] <+: es → C (M.exec s p) e := by
  constructor
  · intro h p e hp
    exact ((M.guarded_append s p [e]).1 (h.initial M hp)).2.1
  · intro h
    induction es generalizing s with
    | nil => trivial
    | cons e es ih =>
      refine ⟨h [] e ⟨es, rfl⟩, ih _ fun p f hp => ?_⟩
      exact h (e :: p) f (List.cons_prefix_cons.2 ⟨rfl, hp⟩)

theorem guarded_and {C D : σ → ε → Prop} {s : σ} {es : List ε} :
    M.Guarded (fun s e => C s e ∧ D s e) s es ↔ M.Guarded C s es ∧ M.Guarded D s es := by
  simp only [guarded_iff_forall]
  exact ⟨fun h => ⟨fun p e hp => (h p e hp).1, fun p e hp => (h p e hp).2⟩,
    fun h p e hp => ⟨h.1 p e hp, h.2 p e hp⟩⟩

/-! ## Invariants -/

/-- **The invariant rule.** What every guarded step keeps holds after every guarded run. -/
theorem invariant {I : σ → Prop} {C : σ → ε → Prop}
    (hstep : ∀ s e, I s → C s e → I (M.step s e).1) {s : σ} {es : List ε} (hs : I s)
    (hes : M.Guarded C s es) : I (M.exec s es) := by
  induction es generalizing s with
  | nil => exact hs
  | cons e es ih => exact ih (hstep s e hs hes.1) hes.2

/-- The invariant rule for every state that the run passes through. -/
theorem invariant_along {I : σ → Prop} {C : σ → ε → Prop}
    (hstep : ∀ s e, I s → C s e → I (M.step s e).1) {s : σ} {es : List ε} (hs : I s)
    (hes : M.Guarded C s es) {p : List ε} (hp : p <+: es) : I (M.exec s p) :=
  M.invariant hstep hs (Guarded.initial M hes hp)

/-- The invariant rule for what every step keeps. -/
theorem invariant_all {I : σ → Prop} (hstep : ∀ s e, I s → I (M.step s e).1) {s : σ} (hs : I s)
    (es : List ε) : I (M.exec s es) := by
  induction es generalizing s with
  | nil => exact hs
  | cons e es ih => exact ih (hstep s e hs)

/-- **The invariant rule with the outputs.** A relation of the state and what has been put out that
every step keeps holds after every run. -/
theorem invariant_trace {R : σ → List ω → Prop}
    (hstep : ∀ s out e, R s out → R (M.step s e).1 (out ++ (M.step s e).2)) {s : σ} (hs : R s [])
    (es : List ε) : R (M.exec s es) (M.trace s es) := by
  suffices h : ∀ out, R s out → R (M.exec s es) (out ++ M.trace s es) from h [] hs
  clear hs
  induction es generalizing s with
  | nil =>
    intro out hs
    rwa [exec_nil, trace_nil, List.append_nil]
  | cons e es ih =>
    intro out hs
    rw [exec_cons, trace_cons, ← List.append_assoc]
    exact ih _ (hstep s out e hs)

/-- **A guard that is exact for a step is exact for a run.** -/
theorem forall_along_iff_guarded {I : σ → Prop} {C : σ → ε → Prop}
    (hstep : ∀ s e, I s → (I (M.step s e).1 ↔ C s e)) {s : σ} (hs : I s) (es : List ε) :
    (∀ p, p <+: es → I (M.exec s p)) ↔ M.Guarded C s es := by
  constructor
  · intro h
    induction es generalizing s with
    | nil => trivial
    | cons e es ih =>
      have h₁ : I (M.step s e).1 := h [e] ⟨es, rfl⟩
      refine ⟨(hstep s e hs).1 h₁, ih h₁ fun p hp => ?_⟩
      obtain ⟨fs, rfl⟩ := hp
      exact h (e :: p) ⟨fs, rfl⟩
  · intro h p hp
    exact M.invariant_along (fun s e hI hC => (hstep s e hI).2 hC) hs h hp

/-- **A guard that is exact for a property of steps, and keeps what the steps rely on, is exact for
those of a run.** -/
theorem forall_steps_iff_guarded {I : σ → Prop} {P C : σ → ε → Prop}
    (hkeep : ∀ s e, I s → C s e → I (M.step s e).1) (hiff : ∀ s e, I s → (P s e ↔ C s e))
    {s : σ} (hs : I s) (es : List ε) :
    (∀ p e, p ++ [e] <+: es → P (M.exec s p) e) ↔ M.Guarded C s es := by
  rw [← M.guarded_iff_forall s es]
  induction es generalizing s with
  | nil => exact Iff.rfl
  | cons e es ih =>
    simp only [Guarded, hiff s e hs]
    exact and_congr_right fun hC => ih (hkeep s e hs hC)

/-- A property holds along a run when it holds at the start and after every step. -/
theorem forall_along_iff_steps {Q : σ → Prop} (s : σ) (es : List ε) :
    (∀ p, p <+: es → Q (M.exec s p)) ↔
      Q s ∧ ∀ p e, p ++ [e] <+: es → Q (M.step (M.exec s p) e).1 := by
  constructor
  · intro h
    refine ⟨h [] List.nil_prefix, fun p e hp => ?_⟩
    rw [← exec_concat]
    exact h _ hp
  · rintro ⟨hs, hstep⟩ p hp
    induction p using List.reverseRecOn with
    | nil => exact hs
    | append_singleton p e _ =>
      rw [exec_concat]
      exact hstep p e hp

/-- **A guard that is exact for what an invariant says**, and keeps the invariant, is exact for a
run. -/
theorem forall_along_iff_guarded_of {I Q : σ → Prop} {C : σ → ε → Prop} (hI : ∀ s, I s → Q s)
    (hkeep : ∀ s e, I s → C s e → I (M.step s e).1)
    (hexact : ∀ s e, I s → Q (M.step s e).1 → C s e) {s : σ} (hs : I s) (es : List ε) :
    (∀ p, p <+: es → Q (M.exec s p)) ↔ M.Guarded C s es := by
  rw [M.forall_along_iff_steps, and_iff_right (hI s hs)]
  exact M.forall_steps_iff_guarded (P := fun s e => Q (M.step s e).1) hkeep
    (fun s e hs => ⟨hexact s e hs, fun hC => hI _ (hkeep s e hs hC)⟩) hs es

/-! ## Outputs -/

/-- **A guard that is exact for the outputs of a step is exact for those of a run.** -/
theorem forall_trace_iff_guarded {P : ω → Prop} {C : σ → ε → Prop}
    (hstep : ∀ s e, (∀ o ∈ (M.step s e).2, P o) ↔ C s e) (s : σ) (es : List ε) :
    (∀ o ∈ M.trace s es, P o) ↔ M.Guarded C s es := by
  induction es generalizing s with
  | nil => simp [Guarded]
  | cons e es ih => simp only [trace_cons, List.forall_mem_append, hstep, ih, Guarded]

/-- **The simulation rule.** A second system consumes the outputs one by one; a relation that every
guarded step keeps, the consumer having caught up, holds after every guarded run. -/
theorem simulation {R : σ → τ → Prop} {C : σ → ε → Prop} (consume : τ → ω → τ)
    (hstep : ∀ s e t, R s t → C s e → R (M.step s e).1 ((M.step s e).2.foldl consume t))
    {s : σ} {t : τ} {es : List ε} (hs : R s t) (hes : M.Guarded C s es) :
    R (M.exec s es) ((M.trace s es).foldl consume t) := by
  induction es generalizing s t with
  | nil => exact hs
  | cons e es ih =>
    rw [exec_cons, trace_cons, List.foldl_append]
    exact ih (hstep s e t hs hes.1) hes.2

/-- **A guard that is exact for a relation to a consumer of the outputs.** -/
theorem forall_along_consumer_iff_guarded {R : σ → τ → Prop} {C : σ → ε → Prop}
    (consume : τ → ω → τ)
    (hstep : ∀ s e t, R s t → (R (M.step s e).1 ((M.step s e).2.foldl consume t) ↔ C s e))
    {s : σ} {t : τ} (hs : R s t) (es : List ε) :
    (∀ p, p <+: es → R (M.exec s p) ((M.trace s p).foldl consume t)) ↔ M.Guarded C s es := by
  constructor
  · intro h
    induction es generalizing s t with
    | nil => trivial
    | cons e es ih =>
      have h₁ : R (M.step s e).1 ((M.step s e).2.foldl consume t) := by
        simpa using h [e] ⟨es, rfl⟩
      refine ⟨(hstep s e t hs).1 h₁, ih h₁ fun p hp => ?_⟩
      obtain ⟨fs, rfl⟩ := hp
      have h₂ := h (e :: p) ⟨fs, rfl⟩
      rwa [exec_cons, trace_cons, List.foldl_append] at h₂
  · intro h p hp
    exact M.simulation consume (fun s e t hR hC => (hstep s e t hR).2 hC) hs (h.initial M hp)

/-- A function of the state keeps up with a consumer of the outputs over a run exactly when it does
in every step. -/
theorem forall_along_eq_iff {consume : τ → ω → τ} {v : σ → τ} (s : σ) (es : List ε) :
    (∀ p, p <+: es → (M.trace s p).foldl consume (v s) = v (M.exec s p)) ↔
      ∀ p e, p ++ [e] <+: es → (M.step (M.exec s p) e).2.foldl consume (v (M.exec s p)) =
        v (M.step (M.exec s p) e).1 := by
  constructor
  · intro h p e hp
    have hlast := h (p ++ [e]) hp
    have hfirst := h p ((List.prefix_append p [e]).trans hp)
    rwa [trace_append, List.foldl_append, hfirst, exec_append, trace_cons, trace_nil,
      List.append_nil] at hlast
  · intro h p
    induction p using List.reverseRecOn with
    | nil => exact fun _ => rfl
    | append_singleton p e ih =>
      intro hp
      have hfirst := ih ((List.prefix_append p [e]).trans hp)
      rw [trace_append, List.foldl_append, hfirst, exec_append, trace_cons, trace_nil,
        List.append_nil]
      exact h p e hp

/-! ## Observers -/

/-- What an observer makes of a run, who sees every input with the state that it finds. -/
def observe (note : τ → σ → ε → τ) : σ → τ → List ε → τ
  | _, t, [] => t
  | s, t, e :: es => observe note (M.step s e).1 (note t s e) es

@[simp] theorem observe_nil (note : τ → σ → ε → τ) (s : σ) (t : τ) : M.observe note s t [] = t :=
  rfl

@[simp] theorem observe_cons (note : τ → σ → ε → τ) (s : σ) (t : τ) (e : ε) (es : List ε) :
    M.observe note s t (e :: es) = M.observe note (M.step s e).1 (note t s e) es := rfl

/-- **The invariant rule with an observer.** A relation that every guarded step keeps holds after
every guarded run. -/
theorem invariant_observed {R : σ → τ → Prop} {C : σ → ε → Prop} (note : τ → σ → ε → τ)
    (hstep : ∀ s t e, R s t → C s e → R (M.step s e).1 (note t s e)) {s : σ} {t : τ}
    {es : List ε} (hs : R s t) (hes : M.Guarded C s es) :
    R (M.exec s es) (M.observe note s t es) := by
  induction es generalizing s t with
  | nil => exact hs
  | cons e es ih => exact ih (hstep s t e hs hes.1) hes.2

/-- The rule for a relation that every step keeps. -/
theorem invariant_observed_all {R : σ → τ → Prop} (note : τ → σ → ε → τ)
    (hstep : ∀ s t e, R s t → R (M.step s e).1 (note t s e)) {s : σ} {t : τ} (hs : R s t)
    (es : List ε) : R (M.exec s es) (M.observe note s t es) :=
  M.invariant_observed note (fun s t e hR _ => hstep s t e hR) hs
    (M.guarded_of_forall (C := fun _ _ => True) (fun _ _ => trivial) s es)

/-! ## Conservation -/

/-- **The rule of conservation.** If the measure of the state and the outputs of every guarded step
account for what its input brings, those of a guarded run account for what its inputs bring. -/
theorem conservation {A : Type*} [AddCommMonoid A] {C : σ → ε → Prop} (μ : σ → A) (inp : ε → A)
    (out : ω → A)
    (hstep : ∀ s e, C s e → μ (M.step s e).1 + ((M.step s e).2.map out).sum = μ s + inp e)
    {s : σ} {es : List ε} (hes : M.Guarded C s es) :
    μ (M.exec s es) + ((M.trace s es).map out).sum = μ s + (es.map inp).sum := by
  induction es generalizing s with
  | nil => simp
  | cons e es ih =>
    have hhead := hstep s e hes.1
    have htail := ih hes.2
    rw [exec_cons, trace_cons, List.map_append, List.sum_append, List.map_cons, List.sum_cons,
      add_left_comm, htail, ← add_assoc, add_comm _ (μ _), hhead, add_assoc]

/-- What a run brings, in order, if an input brings `inp s e` in the state `s` that it finds. -/
def brought {A : Type*} (inp : σ → ε → List A) : σ → List ε → List A
  | _, [] => []
  | s, e :: es => inp s e ++ brought inp (M.step s e).1 es

@[simp] theorem brought_nothing {A : Type*} (s : σ) (es : List ε) :
    M.brought (fun _ _ => ([] : List A)) s es = [] := by
  induction es generalizing s with
  | nil => rfl
  | cons e es ih => exact ih _

/-- **First in, first out.** If every guarded step puts out what is first in line and lets in what
its input brings at the end of it, then so does a guarded run. -/
theorem conservation_in_order {A : Type*} {I : σ → Prop} {C : σ → ε → Prop} (line : σ → List A)
    (inp : σ → ε → List A) (out : ω → List A) (hkeep : ∀ s e, I s → I (M.step s e).1)
    (hstep : ∀ s e, I s → C s e →
      (M.step s e).2.flatMap out ++ line (M.step s e).1 = line s ++ inp s e)
    {s : σ} {es : List ε} (hs : I s) (hes : M.Guarded C s es) :
    (M.trace s es).flatMap out ++ line (M.exec s es) = line s ++ M.brought inp s es := by
  induction es generalizing s with
  | nil => simp [brought]
  | cons e es ih =>
    have hhead := hstep s e hs hes.1
    have htail := ih (hkeep s e hs) hes.2
    rw [exec_cons, trace_cons, brought, List.flatMap_append, List.append_assoc, htail,
      ← List.append_assoc, hhead, List.append_assoc]

end Mealy
