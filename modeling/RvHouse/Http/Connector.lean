import RvHouse.Http.FetcherHandler

/-!
# One fetch

`http::fetcher` hands a `fetcher_handler` to a connector of ACE with a timer. The connection is made
(`open`), or it fails (`handle_close`), or the timer comes first: then the connector calls
`handle_timeout`, and `handle_close` only if that returns -1, and lets go of the handler. Once the
connection is made, the reactor calls the handler.

`protocol_iff_guarded` says in which runs the user's `http::handler` gets one report at most and one
`handle_close` at the end: those in which the connection does not time out, and no failed `recv` and
no end of the stream meets an empty buffer. `not_protocol_of_failed` and `not_protocol_of_timeout`
are the shortest runs in which it gets two reports, and no `handle_close`.
-/

namespace RvHouse

/-- Where a fetch is. -/
inductive FetchPhase where
  /-- The timer of the connector runs. -/
  | connecting
  | connected
  /-- The connector has let go of the handler. -/
  | timedOut
deriving DecidableEq, Repr

namespace FetchPhase

/-- The calls that can come. -/
def allows : FetchPhase → FetchEvent → Bool
  | .connecting, .handleInput _ => false
  | .connecting, _ => true
  | .connected, .handleInput _ => true
  | .connected, .handleClose => true
  | _, _ => false

/-- The phase after a call. -/
def after : FetchPhase → FetchEvent → FetchPhase
  | _, .opened => .connected
  | _, .handleTimeout => .timedOut
  | p, _ => p

end FetchPhase

/-- A fetch whose connection has been begun. -/
structure Fetch where
  phase : FetchPhase := .connecting
  handler : FetcherHandler := {}
deriving DecidableEq

namespace Fetch

/-- Nothing is called any more. -/
def isOver (f : Fetch) : Bool := f.handler.deleted || f.phase = .timedOut

/-- The call comes. -/
def Takes (f : Fetch) (e : FetchEvent) : Prop := f.isOver = false ∧ f.phase.allows e = true

instance (f : Fetch) (e : FetchEvent) : Decidable (f.Takes e) := inferInstanceAs (Decidable (_ ∧ _))

/-- One call of the connector or the reactor. -/
def step (f : Fetch) (e : FetchEvent) : Fetch × List HttpCall :=
  if f.Takes e then
    let (handler, calls) := f.handler.step e
    (⟨f.phase.after e, handler⟩, calls)
  else (f, [])

/-- A fetch as a system; its outputs are the calls of the user's handler. -/
def machine : Mealy Fetch FetchEvent HttpCall := ⟨step⟩

/-- The calls of the user's handler are as it expects them: one report at most, and when the fetch
is over one `handle_close`, at the end. -/
structure Protocol (calls : List HttpCall) (isOver : Bool) : Prop where
  once : calls.countP HttpCall.isReport ≤ 1
  last : if isOver then ∃ cs, calls = cs ++ [.handleClose] ∧ .handleClose ∉ cs
    else .handleClose ∉ calls

/-- A call that comes is not that of the timer, and if it ends the connection, then with some bytes
in the buffer. -/
def EndsWell (f : Fetch) (e : FetchEvent) : Prop :=
  f.Takes e → e ≠ .handleTimeout ∧ f.handler.EndsWithBytes e

/-! ## One call -/

theorem step_of_not_takes {f : Fetch} {e : FetchEvent} (h : ¬ f.Takes e) : f.step e = (f, []) :=
  if_neg h

theorem step_of_takes {f : Fetch} {e : FetchEvent} (h : f.Takes e) :
    f.step e = (⟨f.phase.after e, (f.handler.step e).1⟩, (f.handler.step e).2) :=
  if_pos h

theorem deleted_of_takes {f : Fetch} {e : FetchEvent} (h : f.Takes e) :
    f.handler.deleted = false :=
  (Bool.or_eq_false_iff.1 h.1).1

/-- The timer ends the fetch, and the user's handler is not called. -/
theorem step_handleTimeout {f : Fetch} (h : f.Takes .handleTimeout) :
    (f.step .handleTimeout).1.isOver = true ∧ (f.step .handleTimeout).2 = [] := by
  rw [step_of_takes h, f.handler.step_of_idle (.inr rfl)]
  exact ⟨Bool.or_true _, rfl⟩

/-- Any other call ends the fetch when it takes the handler away. -/
theorem isOver_step {f : Fetch} {e : FetchEvent} (h : f.Takes e) (he : e ≠ .handleTimeout) :
    (f.step e).1.isOver = (f.handler.step e).1.deleted := by
  have hphase : f.phase ≠ .timedOut := by simpa using (Bool.or_eq_false_iff.1 h.1).2
  have hafter : f.phase.after e ≠ .timedOut := by
    cases e with
    | opened => exact nofun
    | handleTimeout => exact absurd rfl he
    | _ => exact hphase
  rw [step_of_takes h, isOver, decide_eq_false hafter, Bool.or_false]

/-- A call of a fetch that goes on leaves it so in silence, or ends it as it should, or not. -/
theorem step_cases {f : Fetch} (hopen : f.isOver = false) (e : FetchEvent) :
    ((f.step e).1.isOver = false ∧ (f.step e).2 = [] ∧ f.EndsWell e) ∨
      ((f.step e).1.isOver = true ∧ (Protocol (f.step e).2 true ↔ f.EndsWell e)) := by
  by_cases htakes : f.Takes e
  · have hwell : f.EndsWell e ↔ e ≠ .handleTimeout ∧ f.handler.EndsWithBytes e :=
      ⟨fun h => h htakes, fun h _ => h⟩
    by_cases he : e = .handleTimeout
    · subst he
      obtain ⟨hover, hcalls⟩ := step_handleTimeout htakes
      rw [hwell, hover, hcalls]
      refine .inr ⟨rfl, iff_of_false (fun hp => ?_) fun h => h.1 rfl⟩
      obtain ⟨cs, hcs, -⟩ := hp.last
      exact absurd hcs.symm (List.append_ne_nil_of_right_ne_nil _ (List.cons_ne_nil _ _))
    · rw [hwell, isOver_step htakes he, and_iff_right he, step_of_takes htakes]
      rcases FetcherHandler.step_cases (deleted_of_takes htakes) e with ⟨hdel, hcalls, hends⟩ |
        ⟨hdel, hcalls, hends⟩ | ⟨hdel, hends, report, hreport, hcalls⟩ |
        ⟨hdel, hends, reason, details, hcalls⟩
      · exact .inl ⟨hdel, hcalls, hends⟩
      · refine .inr ⟨hdel, iff_of_true ?_ hends⟩
        rw [hcalls]
        exact ⟨by decide, [], rfl, List.not_mem_nil⟩
      · refine .inr ⟨hdel, iff_of_true ?_ hends⟩
        have hone : [report, .handleClose].countP HttpCall.isReport = 1 := by
          rw [List.countP_cons_of_pos hreport]
          rfl
        have hne : HttpCall.handleClose ∉ [report] := by
          rw [List.mem_singleton]
          rintro rfl
          cases hreport
        rw [hcalls]
        exact ⟨hone.le, [report], rfl, hne⟩
      · refine .inr ⟨hdel, iff_of_false (fun hp => ?_) hends⟩
        rw [hcalls] at hp
        have hone : 2 ≤ 1 := hp.once
        omega
  · rw [step_of_not_takes htakes]
    exact .inl ⟨hopen, rfl, fun h => absurd h htakes⟩

/-! ## Runs -/

/-- A fetch that is over stays so, in silence. -/
theorem trace_of_isOver {f : Fetch} (hover : f.isOver = true) (es : List FetchEvent) :
    machine.trace f es = [] ∧ (machine.exec f es).isOver = true := by
  induction es with
  | nil => exact ⟨rfl, hover⟩
  | cons e es ih =>
    have hstep : machine.step f e = (f, []) :=
      step_of_not_takes fun h => by simp [h.1] at hover
    simpa only [Mealy.trace_cons, Mealy.exec_cons, hstep, List.nil_append] using ih

/-- What is asked of the calls that come holds from then on. -/
theorem guarded_of_isOver {f : Fetch} (hover : f.isOver = true) {C : Fetch → FetchEvent → Prop}
    (es : List FetchEvent) : machine.Guarded (fun f e => f.Takes e → C f e) f es := by
  refine machine.guarded_of_invariant (I := fun f => f.isOver = true)
    (fun f e hf htakes => ?_) (fun f e hf => ?_) hover es
  · rw [htakes.1] at hf
    cases hf
  · exact (trace_of_isOver hf [e]).2

/-- **The protocol of the callbacks.** The user's handler gets one report at most, and one
`handle_close` at the end, in the runs in which the connection does not time out and what ends it
finds some bytes in the buffer, and in no others. -/
theorem protocol_iff_guarded (es : List FetchEvent) :
    Protocol (machine.trace {} es) (machine.exec {} es).isOver ↔
      machine.Guarded EndsWell {} es := by
  suffices h : ∀ f : Fetch, f.isOver = false →
      (Protocol (machine.trace f es) (machine.exec f es).isOver ↔
        machine.Guarded EndsWell f es) from h {} rfl
  induction es with
  | nil =>
    intro f hopen
    simp only [Mealy.trace_nil, Mealy.exec_nil, hopen, Mealy.Guarded, iff_true]
    exact ⟨by simp, by simp⟩
  | cons e es ih =>
    intro f hopen
    simp only [Mealy.trace_cons, Mealy.exec_cons, Mealy.Guarded]
    show Protocol ((f.step e).2 ++ machine.trace (f.step e).1 es)
      (machine.exec (f.step e).1 es).isOver ↔ f.EndsWell e ∧
        machine.Guarded EndsWell (f.step e).1 es
    rcases step_cases hopen e with ⟨hover, hcalls, hends⟩ | ⟨hover, hiff⟩
    · rw [hcalls, List.nil_append, ih _ hover, and_iff_right hends]
    · obtain ⟨htrace, hexec⟩ := trace_of_isOver hover es
      have hguard : machine.Guarded EndsWell (f.step e).1 es := guarded_of_isOver hover es
      rw [htrace, hexec, List.append_nil, hiff, and_iff_left hguard]

/-- The connection is reset before a byte arrives: the error is reported, and a timeout after it. -/
theorem not_protocol_of_failed :
    machine.trace {} [.opened, .handleInput (.failed false)] =
        [.handleError .socket "recv failed", .handleError .timeout "Connect/read timeout",
          .handleClose] ∧
      ¬ Protocol (machine.trace {} [.opened, .handleInput (.failed false)])
        (machine.exec {} [.opened, .handleInput (.failed false)]).isOver := by
  refine ⟨by decide, fun hp => ?_⟩
  exact absurd hp.once (by decide)

/-- The connection is not made in time, and the user's handler hears nothing of it. -/
theorem not_protocol_of_timeout :
    machine.trace {} [.handleTimeout] = [] ∧
      ¬ Protocol (machine.trace {} [.handleTimeout]) (machine.exec {} [.handleTimeout]).isOver := by
  refine ⟨by decide, fun hp => ?_⟩
  obtain ⟨cs, hcs, -⟩ := hp.last
  cases cs <;> cases hcs

end Fetch

end RvHouse
