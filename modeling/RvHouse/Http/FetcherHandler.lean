import RvHouse.Lib.Mealy
import Mathlib.Data.UInt

/-!
# The handler of an HTTP connection

`networking::http::fetcher_handler`: it receives the reply of one fetch and reports to the user's
`http::handler`, which is told the response or an error, and at last that the connection is closed.
An error is reported in three places. `handle_close` takes an empty buffer for a timeout, also when
something else was reported already (`step_cases`).
-/

namespace RvHouse

/-- The errors of `http::handler`. -/
inductive HttpError where
  | invalidReply
  | outOfMemory
  | timeout
  | socket
deriving DecidableEq, Repr

/-- A call of the user's `http::handler`. -/
inductive HttpCall where
  | handleResponse (content : List UInt8)
  | handleError (reason : HttpError) (details : String)
  | handleClose
deriving DecidableEq, Repr

/-- A response or an error. -/
def HttpCall.isReport : HttpCall → Bool
  | .handleClose => false
  | _ => true

/-- What `recv` gives; no bytes at the end of the stream. -/
inductive Recv where
  | received (buf : { l : List UInt8 // l.length < 4096 })
  /-- `wouldBlock` tells whether the error is `EWOULDBLOCK`. -/
  | failed (wouldBlock : Bool)
deriving DecidableEq

/-- What the reactor or the connector calls. -/
inductive FetchEvent where
  /-- `open`, when the connection is made. -/
  | opened
  | handleInput (r : Recv)
  /-- The timer of the connector. -/
  | handleTimeout
  | handleClose
deriving DecidableEq

/-- `std::strstr`, as an offset. -/
def strstr (s pat : List UInt8) : Option ℕ :=
  (List.range (s.length + 1)).find? fun i => pat.isPrefixOf (s.drop i)

/-- `networking::http::fetcher_handler`; `deleted` after `delete this`. -/
structure FetcherHandler where
  recvMb : List UInt8 := []
  deleted : Bool := false
deriving DecidableEq

namespace FetcherHandler

/-- `fetcher_handler::_max_response_size`. -/
def maxResponseSize : ℕ := 32768

/-- `ACE_Message_Block::space`. -/
def space (h : FetcherHandler) : ℕ := maxResponseSize - h.recvMb.length

/-- `fetcher_handler::_handle_response`. The delimiter is searched for in a C string, which ends
before the first zero. -/
def handleResponse (h : FetcherHandler) : HttpCall :=
  if h.space = 0 then .handleError .outOfMemory "no space for NULL"
  else
    let buf := h.recvMb.takeWhile (· ≠ 0)
    match strstr buf [13, 10, 13, 10], strstr buf [10, 10] with
    | some i, _ => .handleResponse (h.recvMb.drop (i + 4))
    | none, some i => .handleResponse (h.recvMb.drop (i + 2))
    | none, none => .handleError .invalidReply "HTTP header delimiter not found"

/-- `fetcher_handler::handle_input`: the report that it makes when it returns -1, and else the
handler that goes on. -/
def handleInput (h : FetcherHandler) : Recv → HttpCall ⊕ FetcherHandler
  | .failed false => .inl (.handleError .socket "recv failed")
  -- The count is -1 then, and no buffer has space for that many.
  | .failed true => .inl (.handleError .outOfMemory "copying data failed")
  | .received ⟨buf, _⟩ =>
    if buf.length = 0 then .inl h.handleResponse
    else if h.space < buf.length then .inl (.handleError .outOfMemory "copying data failed")
    else .inr { h with recvMb := h.recvMb ++ buf }

/-- `fetcher_handler::handle_close`. -/
def handleClose (h : FetcherHandler) : FetcherHandler × List HttpCall :=
  ({ h with deleted := true },
    (if h.recvMb.length = 0 then [.handleError .timeout "Connect/read timeout"] else []) ++
      [.handleClose])

/-- One call. The reactor closes a handler whose `handle_input` returns -1; `handle_timeout` does
nothing and returns 0, so that the connector does not call `handle_close` after it. -/
def step (h : FetcherHandler) (e : FetchEvent) : FetcherHandler × List HttpCall :=
  if h.deleted then (h, [])
  else
    match e with
    | .opened => (h, [])
    | .handleTimeout => (h, [])
    | .handleInput r =>
      match h.handleInput r with
      | .inl report => (h.handleClose.1, report :: h.handleClose.2)
      | .inr h => (h, [])
    | .handleClose => h.handleClose

/-- A connection as a system; its outputs are the calls of the user's handler. -/
def machine : Mealy FetcherHandler FetchEvent HttpCall := ⟨step⟩

/-- What ends the connection finds some bytes in the buffer. -/
def EndsWithBytes (h : FetcherHandler) : FetchEvent → Prop
  | .handleInput (.failed _) => h.deleted ∨ h.recvMb ≠ []
  | .handleInput (.received buf) => buf.val = [] → h.deleted ∨ h.recvMb ≠ []
  | _ => True

/-! ## What a call leads to -/

theorem step_of_deleted {h : FetcherHandler} (hd : h.deleted = true) (e : FetchEvent) :
    h.step e = (h, []) := by
  simp [step, hd]

/-- The calls that do nothing. -/
theorem step_of_idle (h : FetcherHandler) {e : FetchEvent} (he : e = .opened ∨ e = .handleTimeout) :
    h.step e = (h, []) := by
  unfold step
  rcases he with rfl | rfl <;> split <;> rfl

theorem step_handleClose {h : FetcherHandler} (hopen : h.deleted = false) :
    h.step .handleClose = h.handleClose := by
  simp [step, hopen]

theorem step_of_report {h : FetcherHandler} (hopen : h.deleted = false) {r : Recv}
    {report : HttpCall} (hr : h.handleInput r = .inl report) :
    h.step (.handleInput r) = (h.handleClose.1, report :: h.handleClose.2) := by
  simp [step, hopen, hr]

theorem step_of_received {h h' : FetcherHandler} (hopen : h.deleted = false) {r : Recv}
    (hr : h.handleInput r = .inr h') : h.step (.handleInput r) = (h', []) := by
  simp [step, hopen, hr]

theorem isReport_handleResponse (h : FetcherHandler) : h.handleResponse.isReport = true := by
  unfold handleResponse
  split
  · rfl
  · dsimp only
    split <;> rfl

theorem isReport_handleInput {h : FetcherHandler} {r : Recv} {report : HttpCall}
    (hr : h.handleInput r = .inl report) : report.isReport = true := by
  unfold handleInput at hr
  split at hr
  · cases hr
    rfl
  · cases hr
    rfl
  · split at hr
    · cases hr
      exact isReport_handleResponse h
    · split at hr <;> cases hr
      rfl

theorem handleClose_of_empty {h : FetcherHandler} (hempty : h.recvMb = []) :
    h.handleClose.2 = [.handleError .timeout "Connect/read timeout", .handleClose] := by
  simp [FetcherHandler.handleClose, hempty]

theorem handleClose_of_bytes {h : FetcherHandler} (hne : h.recvMb ≠ []) :
    h.handleClose.2 = [.handleClose] := by
  simp [FetcherHandler.handleClose, hne]

/-- The call leads to a response. -/
def Responds (h : FetcherHandler) (e : FetchEvent) (content : List UInt8) : Prop :=
  (h.step e).2.head? = some (.handleResponse content)

/-- The calls of the handler after a report of another kind. -/
def Silent (calls : List HttpCall) : Prop := ∀ content, HttpCall.handleResponse content ∉ calls

theorem silent_handleClose (h : FetcherHandler) : Silent h.handleClose.2 := by
  intro content
  by_cases hempty : h.recvMb = []
  · simp [handleClose_of_empty hempty]
  · simp [handleClose_of_bytes hempty]

/-- A call leads to one report and then only to errors, or to nothing. -/
theorem silent_tail (h : FetcherHandler) (e : FetchEvent) : Silent (h.step e).2.tail := by
  cases hdel : h.deleted with
  | true =>
    rw [step_of_deleted hdel]
    exact fun content => List.not_mem_nil
  | false =>
    cases e with
    | opened => exact fun content => (h.step_of_idle (.inl rfl)) ▸ List.not_mem_nil
    | handleTimeout => exact fun content => (h.step_of_idle (.inr rfl)) ▸ List.not_mem_nil
    | handleClose =>
      rw [step_handleClose hdel]
      exact fun content hmem => silent_handleClose h content (List.mem_of_mem_tail hmem)
    | handleInput r =>
      cases hr : h.handleInput r with
      | inl report =>
        rw [step_of_report hdel hr]
        exact silent_handleClose h
      | inr h' =>
        rw [step_of_received hdel hr]
        exact fun content => List.not_mem_nil

/-- A handler that goes on has got some bytes, and is open as before. -/
theorem goesOn_of_handleInput {h h' : FetcherHandler} {r : Recv} (hr : h.handleInput r = .inr h') :
    h'.deleted = h.deleted ∧ h.EndsWithBytes (.handleInput r) := by
  cases r with
  | failed wouldBlock => cases wouldBlock <;> cases hr
  | received buf =>
    obtain ⟨l, hl⟩ := buf
    simp only [handleInput] at hr
    split at hr
    · cases hr
    · rename_i hne
      split at hr
      · cases hr
      · cases hr
        exact ⟨rfl, fun hnil => absurd (List.length_eq_zero_iff.2 hnil) hne⟩

/-- What makes `handle_input` report ends with bytes exactly when there are some: the copy does not
fail when the whole buffer is free. -/
theorem endsWithBytes_iff_of_report {h : FetcherHandler} (hopen : h.deleted = false) {r : Recv}
    {report : HttpCall} (hr : h.handleInput r = .inl report) :
    h.EndsWithBytes (.handleInput r) ↔ h.recvMb ≠ [] := by
  cases r with
  | failed wouldBlock => simp [EndsWithBytes, hopen]
  | received buf =>
    by_cases hbuf : buf.val = []
    · simp [EndsWithBytes, hopen, hbuf]
    · simp only [EndsWithBytes, hbuf, false_implies, true_iff]
      intro hempty
      obtain ⟨l, hl⟩ := buf
      simp only [handleInput, List.length_eq_zero_iff, show l ≠ [] from hbuf, if_false, space,
        hempty, List.length_nil, maxResponseSize] at hr
      split at hr
      · omega
      · cases hr

theorem handleResponse_of_empty {h : FetcherHandler} (hempty : h.recvMb = []) :
    h.handleResponse = .handleError .invalidReply "HTTP header delimiter not found" := by
  simp only [handleResponse, space, hempty, List.length_nil, maxResponseSize]
  rfl

/-- A report that finds no bytes is an error. -/
theorem report_of_empty {h : FetcherHandler} (hempty : h.recvMb = []) {r : Recv}
    {report : HttpCall} (hr : h.handleInput r = .inl report) :
    ∃ reason details, report = .handleError reason details := by
  cases r with
  | failed wouldBlock => cases wouldBlock <;> cases hr <;> exact ⟨_, _, rfl⟩
  | received buf =>
    simp only [handleInput, handleResponse_of_empty hempty] at hr
    split at hr
    · cases hr
      exact ⟨_, _, rfl⟩
    · split at hr
      · cases hr
        exact ⟨_, _, rfl⟩
      · cases hr

/-- A call leaves the connection open and says nothing, or ends it: with a report before that of the
timeout when it does not find the bytes, else with one report at most. -/
theorem step_cases {h : FetcherHandler} (hopen : h.deleted = false) (e : FetchEvent) :
    ((h.step e).1.deleted = false ∧ (h.step e).2 = [] ∧ h.EndsWithBytes e) ∨
      ((h.step e).1.deleted = true ∧ (h.step e).2 = [.handleClose] ∧ h.EndsWithBytes e) ∨
      ((h.step e).1.deleted = true ∧ h.EndsWithBytes e ∧
        ∃ report : HttpCall, report.isReport = true ∧ (h.step e).2 = [report, .handleClose]) ∨
      ((h.step e).1.deleted = true ∧ ¬ h.EndsWithBytes e ∧ ∃ reason details, (h.step e).2 =
        [.handleError reason details, .handleError .timeout "Connect/read timeout",
          .handleClose]) := by
  cases e with
  | opened =>
    rw [h.step_of_idle (.inl rfl)]
    exact .inl ⟨hopen, rfl, trivial⟩
  | handleTimeout =>
    rw [h.step_of_idle (.inr rfl)]
    exact .inl ⟨hopen, rfl, trivial⟩
  | handleClose =>
    rw [step_handleClose hopen]
    by_cases hempty : h.recvMb = []
    · exact .inr (.inr (.inl ⟨rfl, trivial, _, rfl, handleClose_of_empty hempty⟩))
    · exact .inr (.inl ⟨rfl, handleClose_of_bytes hempty, trivial⟩)
  | handleInput r =>
    cases hr : h.handleInput r with
    | inr h' =>
      rw [step_of_received hopen hr]
      obtain ⟨hdel, hends⟩ := goesOn_of_handleInput hr
      exact .inl ⟨hdel.trans hopen, rfl, hends⟩
    | inl report =>
      rw [step_of_report hopen hr, endsWithBytes_iff_of_report hopen hr]
      by_cases hempty : h.recvMb = []
      · obtain ⟨reason, details, rfl⟩ := report_of_empty hempty hr
        refine .inr (.inr (.inr ⟨rfl, not_not_intro hempty, reason, details, ?_⟩))
        rw [handleClose_of_empty hempty]
      · refine .inr (.inr (.inl ⟨rfl, hempty, report, isReport_handleInput hr, ?_⟩))
        rw [handleClose_of_bytes hempty]

/-- What ends a connection ends with one `handle_close`. -/
theorem open_or_closes {h : FetcherHandler} (hopen : h.deleted = false) (e : FetchEvent) :
    ((h.step e).1.deleted = false ∧ (h.step e).2 = []) ∨
      ((h.step e).1.deleted = true ∧
        ∃ cs, (h.step e).2 = cs ++ [.handleClose] ∧ HttpCall.handleClose ∉ cs) := by
  rcases step_cases hopen e with ⟨hdel, hcalls, -⟩ | ⟨hdel, hcalls, -⟩ |
    ⟨hdel, -, report, hreport, hcalls⟩ | ⟨hdel, -, reason, details, hcalls⟩
  · exact .inl ⟨hdel, hcalls⟩
  · exact .inr ⟨hdel, [], hcalls, List.not_mem_nil⟩
  · refine .inr ⟨hdel, [report], hcalls, ?_⟩
    rw [List.mem_singleton]
    rintro rfl
    cases hreport
  · exact .inr ⟨hdel, [.handleError reason details, .handleError .timeout "Connect/read timeout"],
      hcalls, by simp⟩

/-! ## Runs -/

/-- A handler that is gone is called no more. -/
theorem trace_of_deleted {h : FetcherHandler} (hd : h.deleted = true) (es : List FetchEvent) :
    machine.trace h es = [] ∧ (machine.exec h es).deleted = true := by
  induction es with
  | nil => exact ⟨rfl, hd⟩
  | cons e es ih =>
    have hstep : machine.step h e = (h, []) := step_of_deleted hd e
    simpa only [Mealy.trace_cons, Mealy.exec_cons, hstep, List.nil_append] using ih

end FetcherHandler

end RvHouse
