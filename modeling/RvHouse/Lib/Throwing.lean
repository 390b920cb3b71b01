/-!
# Computations that may throw

`Throwing σ α` changes a state `σ` and returns an `α` or throws; what was done before the exception
stays done. A scope guard (`inScope`) runs its destructor in both cases, and `catchAll` turns an
exception into a handler's work.

`Keeps f m` says that `m` leaves the part `f` of the state alone, whether it returns or throws; the
rules `keeps_bind`, `keeps_ite` and so on follow the text of a computation.
-/

/-- A computation on states `σ` that returns an `α`, or throws (`none`). -/
def Throwing (σ α : Type) : Type := σ → Option α × σ

namespace Throwing

variable {σ τ α β γ : Type}

/-- Return at once. -/
def ret (a : α) : Throwing σ α := fun s => (some a, s)

/-- Throw at once. -/
def throw : Throwing σ α := fun s => (none, s)

/-- Run `k` on what `m` returns; an exception of `m` goes on. -/
def andThen (m : Throwing σ α) (k : α → Throwing σ β) : Throwing σ β := fun s =>
  match m s with
  | (some a, s) => k a s
  | (none, s) => (none, s)

instance : Monad (Throwing σ) where
  pure := ret
  bind := andThen

/-- The state. -/
def get : Throwing σ σ := fun s => (some s, s)

/-- Change the state. -/
def modify (f : σ → σ) : Throwing σ Unit := fun s => (some (), f s)

/-- Return what is there, and throw when nothing is. -/
def ofOption : Option α → Throwing σ α
  | some a => ret a
  | none => throw

/-- Run a computation on a part of the state. -/
def onPart (part : σ → τ) (put : τ → σ → σ) (m : Throwing τ α) : Throwing σ α := fun s =>
  let (r, t) := m (part s)
  (r, put t s)

/-- Run the destructor of a local object when its scope is left, in one way or the other. -/
def inScope (destroy : σ → σ) (m : Throwing σ α) : Throwing σ α := fun s =>
  let (r, s) := m s
  (r, destroy s)

/-- The state after `m`, or after the handler when `m` throws. -/
def catchAll (handler : σ → σ) (m : Throwing σ Unit) (s : σ) : σ :=
  match m s with
  | (some _, s) => s
  | (none, s) => handler s

/-- The computation returns from the state `s`. -/
def Returns (m : Throwing σ α) (s : σ) : Prop := (m s).1.isSome = true

instance (m : Throwing σ α) (s : σ) : Decidable (m.Returns s) :=
  inferInstanceAs (Decidable (_ = true))

theorem bind_of_some {m : Throwing σ α} {s s' : σ} {a : α} (h : m s = (some a, s'))
    (k : α → Throwing σ β) : (m >>= k) s = k a s' := by
  show m.andThen k s = k a s'
  unfold andThen
  rw [h]

theorem bind_of_none {m : Throwing σ α} {s s' : σ} (h : m s = (none, s'))
    (k : α → Throwing σ β) : (m >>= k) s = (none, s') := by
  show m.andThen k s = (none, s')
  unfold andThen
  rw [h]

theorem bind_ofOption_some (a : α) (k : α → Throwing σ β) (s : σ) :
    (ofOption (some a) >>= k) s = k a s := rfl

theorem bind_get (k : σ → Throwing σ β) (s : σ) : (get >>= k) s = k s s := rfl

theorem bind_modify (f : σ → σ) (k : Unit → Throwing σ β) (s : σ) :
    (modify f >>= k) s = k () (f s) := rfl

theorem catchAll_of_returns {m : Throwing σ Unit} {s : σ} (h : m.Returns s) (handler : σ → σ) :
    catchAll handler m s = (m s).2 := by
  unfold Returns at h
  unfold catchAll
  split
  · rename_i heq
    rw [heq]
  · rename_i heq
    rw [heq] at h
    cases h

theorem catchAll_of_throws {m : Throwing σ Unit} {s : σ} (h : ¬ m.Returns s) (handler : σ → σ) :
    catchAll handler m s = handler (m s).2 := by
  unfold Returns at h
  unfold catchAll
  split
  · rename_i heq
    rw [heq] at h
    exact absurd rfl h
  · rename_i heq
    rw [heq]

/-! ## What is left alone -/

/-- The computation leaves the part `f` of the state alone. -/
def Keeps (f : σ → γ) (m : Throwing σ α) : Prop := ∀ s, f (m s).2 = f s

variable {f : σ → γ}

theorem keeps_pure (a : α) : Keeps f (pure a : Throwing σ α) := fun _ => rfl

theorem keeps_throw : Keeps f (throw : Throwing σ α) := fun _ => rfl

theorem keeps_get : Keeps f (get : Throwing σ σ) := fun _ => rfl

theorem keeps_modify {g : σ → σ} (h : ∀ s, f (g s) = f s) : Keeps f (modify g) := h

theorem keeps_ofOption (o : Option α) : Keeps f (ofOption o : Throwing σ α) := by
  cases o <;> exact fun _ => rfl

/-- A sequence leaves alone what both parts do. -/
theorem keeps_bind {m : Throwing σ α} {k : α → Throwing σ β} (hm : Keeps f m)
    (hk : ∀ a, Keeps f (k a)) : Keeps f (m >>= k) := by
  intro s
  cases hrun : m s with
  | mk r s' =>
    have hs : f s' = f s := by
      have hs := hm s
      rwa [hrun] at hs
    cases r with
    | some a => rw [bind_of_some hrun, hk a s', hs]
    | none => rw [bind_of_none hrun, hs]

theorem keeps_ite {p : Prop} [Decidable p] {m n : Throwing σ α} (hm : Keeps f m)
    (hn : Keeps f n) : Keeps f (if p then m else n) := by
  split
  · exact hm
  · exact hn

end Throwing
