import RvHouse.Http.FetcherHandler
import RvHouse.Http.RequestHeader

/-!
# The sending of a request

`fetcher_handler::handle_output` sends the blocks of the message queue while the socket takes them.
What is left of a block goes back to the head of the queue, and the reactor is told to call again as
long as there is some. The calls that receive the reply come in between.

`request_sent` says what is sent over a run: a beginning of the request and nothing twice, all of it
when the handler no longer waits for the socket, and after as many calls as it has bytes if each of
them finds the socket ready to take one. The sending leaves the receiving alone.
-/

namespace RvHouse

/-- A connected `fetcher_handler`. `msgQueue` has the blocks of its message queue, each with the
bytes from its read to its write position, and `wakeup` tells whether the reactor waits until the
socket takes some. -/
structure Connection where
  handler : FetcherHandler := {}
  msgQueue : List (List UInt8) := []
  wakeup : Bool := true
deriving DecidableEq

/-- What the reactor calls. -/
inductive ConnectionEvent where
  /-- `rooms` are the bytes that the socket has room for at each call of `send`, none if it fails. -/
  | handleOutput (rooms : List (Option ℕ))
  | fetch (e : FetchEvent)
deriving DecidableEq

/-- What comes of it. -/
inductive ConnectionAct where
  | send (bytes : List UInt8)
  | call (c : HttpCall)
deriving DecidableEq

/-- The bytes that are sent. -/
def ConnectionAct.sent : ConnectionAct → List UInt8
  | .send bytes => bytes
  | .call _ => []

/-- The call of the user's handler. -/
def ConnectionAct.call? : ConnectionAct → Option HttpCall
  | .send _ => none
  | .call c => some c

/-- The event of the receiving side. -/
def ConnectionEvent.fetch? : ConnectionEvent → Option FetchEvent
  | .handleOutput _ => none
  | .fetch e => some e

/-- The socket takes a byte at least. -/
def ConnectionEvent.Takes : ConnectionEvent → Prop
  | .handleOutput (some (_ + 1) :: _) => True
  | _ => False

instance : DecidablePred ConnectionEvent.Takes
  | .handleOutput (some (_ + 1) :: _) => .isTrue trivial
  | .handleOutput (some 0 :: _) => .isFalse id
  | .handleOutput (none :: _) => .isFalse id
  | .handleOutput [] => .isFalse id
  | .fetch _ => .isFalse id

namespace Request

theorem cText_ne_nil (r : Request) : r.cText ≠ [] := by
  have hlen : 0 < r.cText.length := by
    simp only [cText, headers, List.length_append]
    have hhost : (ascii "Host: ").length = 6 := rfl
    omega
  exact List.length_pos_iff.1 hlen

end Request

namespace Connection

/-- The connection after `fetcher_handler::open`: the reactor waits for both directions. -/
def opened (msgQueue : List (List UInt8)) : Connection := { msgQueue }

/-- The loop of `fetcher_handler::handle_output`: the queue that it leaves, and what it sends. -/
def sendLoop : List (List UInt8) → List (Option ℕ) → List (List UInt8) × List UInt8
  | [], _ => ([], [])
  | mb :: queue, rooms =>
    -- A `send` that fails leaves the read position.
    let sendCnt := min (rooms.head?.join.getD 0) mb.length
    if 0 < (mb.drop sendCnt).length then (mb.drop sendCnt :: queue, mb.take sendCnt)
    else
      let (left, bytes) := sendLoop queue rooms.tail
      (left, mb.take sendCnt ++ bytes)

/-- `fetcher_handler::handle_output`: a wake-up is cancelled or scheduled at its end. -/
def handleOutput (s : Connection) (rooms : List (Option ℕ)) : Connection × List UInt8 :=
  let (msgQueue, bytes) := sendLoop s.msgQueue rooms
  ({ s with msgQueue, wakeup := !msgQueue.isEmpty }, bytes)

/-- One call. The reactor calls `handle_output` only while it waits for the socket. -/
def step (s : Connection) : ConnectionEvent → Connection × List ConnectionAct
  | .handleOutput rooms =>
    if s.handler.deleted ∨ s.wakeup = false then (s, [])
    else
      let (s, bytes) := s.handleOutput rooms
      (s, [.send bytes])
  | .fetch e =>
    let (handler, calls) := s.handler.step e
    ({ s with handler }, calls.map .call)

/-- A connection as a system. -/
def machine : Mealy Connection ConnectionEvent ConnectionAct := ⟨step⟩

/-! ## The loop -/

/-- What is sent goes before what is left. -/
theorem sendLoop_append (queue : List (List UInt8)) (rooms : List (Option ℕ)) :
    (sendLoop queue rooms).2 ++ (sendLoop queue rooms).1.flatten = queue.flatten := by
  induction queue generalizing rooms with
  | nil => rfl
  | cons mb queue ih =>
    rw [sendLoop]
    dsimp only
    split
    · rw [List.flatten_cons, ← List.append_assoc, List.take_append_drop, List.flatten_cons]
    · rename_i hleft
      have hall : mb.drop (min (rooms.head?.join.getD 0) mb.length) = [] :=
        List.length_eq_zero_iff.1 (Nat.eq_zero_of_not_pos hleft)
      have htake := List.take_append_drop (min (rooms.head?.join.getD 0) mb.length) mb
      rw [hall, List.append_nil] at htake
      rw [htake, List.append_assoc, ih, List.flatten_cons]

/-- The blocks that are left have bytes. -/
theorem ne_nil_of_mem_sendLoop {queue : List (List UInt8)} (h : ∀ mb ∈ queue, mb ≠ [])
    (rooms : List (Option ℕ)) : ∀ mb ∈ (sendLoop queue rooms).1, mb ≠ [] := by
  induction queue generalizing rooms with
  | nil => simp [sendLoop]
  | cons mb queue ih =>
    obtain ⟨-, hqueue⟩ := List.forall_mem_cons.1 h
    rw [sendLoop]
    dsimp only
    split
    · rename_i hleft
      exact List.forall_mem_cons.2 ⟨List.ne_nil_of_length_pos hleft, hqueue⟩
    · exact ih hqueue _

/-- A socket that takes a byte gets one. -/
theorem sendLoop_ne_nil {queue : List (List UInt8)} (h : ∀ mb ∈ queue, mb ≠ []) (hne : queue ≠ [])
    {rooms : List (Option ℕ)} (hroom : 0 < rooms.head?.join.getD 0) :
    (sendLoop queue rooms).2 ≠ [] := by
  cases queue with
  | nil => exact absurd rfl hne
  | cons mb queue =>
    have hpos : 0 < mb.length := List.length_pos_iff.2 (h mb List.mem_cons_self)
    have htake : mb.take (min (rooms.head?.join.getD 0) mb.length) ≠ [] := by
      rw [← List.length_pos_iff, List.length_take]
      omega
    rw [sendLoop]
    dsimp only
    by_cases hleft : 0 < (mb.drop (min (rooms.head?.join.getD 0) mb.length)).length
    · rw [if_pos hleft]
      exact htake
    · rw [if_neg hleft]
      exact List.append_ne_nil_of_left_ne_nil htake _

/-! ## One call -/

/-- The reactor waits for the socket exactly while there is something to send. -/
structure Waiting (s : Connection) : Prop where
  bytes : ∀ mb ∈ s.msgQueue, mb ≠ []
  wakeup : s.wakeup = !s.msgQueue.isEmpty

theorem waiting_opened {queue : List (List UInt8)} (h : ∀ mb ∈ queue, mb ≠ [])
    (hne : queue ≠ []) : (opened queue).Waiting where
  bytes := h
  wakeup := by simp [opened, hne]

theorem waiting_step {s : Connection} (hs : s.Waiting) (e : ConnectionEvent) :
    (s.step e).1.Waiting := by
  cases e with
  | fetch e => exact ⟨hs.bytes, hs.wakeup⟩
  | handleOutput rooms =>
    rw [step]
    split
    · exact hs
    · exact ⟨ne_nil_of_mem_sendLoop hs.bytes rooms, rfl⟩

/-- What a call sends leaves the queue at its head. -/
theorem sent_step (s : Connection) (e : ConnectionEvent) :
    (s.step e).2.flatMap ConnectionAct.sent ++ (s.step e).1.msgQueue.flatten =
      s.msgQueue.flatten := by
  cases e with
  | fetch e => simp [step, ConnectionAct.sent, List.flatMap_map]
  | handleOutput rooms =>
    rw [step]
    split
    · rfl
    · simpa [handleOutput, ConnectionAct.sent] using sendLoop_append s.msgQueue rooms

/-- A call that the socket has room for sends something, if there is something. -/
theorem sent_ne_nil {s : Connection} (hs : s.Waiting) (hopen : s.handler.deleted = false)
    (hne : s.msgQueue ≠ []) {e : ConnectionEvent} (he : e.Takes) :
    (s.step e).2.flatMap ConnectionAct.sent ≠ [] := by
  match e, he with
  | .handleOutput (some (n + 1) :: rooms), _ =>
    have hwaits : ¬ (s.handler.deleted = true ∨ s.wakeup = false) := by
      simp [hopen, hs.wakeup, hne]
    have hroom : 0 < (some (n + 1) :: rooms).head?.join.getD 0 := Nat.succ_pos n
    rw [step, if_neg hwaits]
    simpa [handleOutput, ConnectionAct.sent] using sendLoop_ne_nil hs.bytes hne hroom

theorem deleted_step {s : Connection} (hs : s.handler.deleted = true) (e : ConnectionEvent) :
    (s.step e).1.handler.deleted = true := by
  cases e with
  | fetch e =>
    rw [step, FetcherHandler.step_of_deleted hs]
    exact hs
  | handleOutput rooms => rwa [step, if_pos (.inl hs)]

/-- Nothing comes back into an empty queue. -/
theorem empty_step {s : Connection} (hs : s.msgQueue = []) (e : ConnectionEvent) :
    (s.step e).1.msgQueue = [] := by
  cases e with
  | fetch e => exact hs
  | handleOutput rooms =>
    rw [step]
    split
    · exact hs
    · simp [handleOutput, hs, sendLoop]

/-! ## Runs -/

theorem waiting_exec {s : Connection} (hs : s.Waiting) (es : List ConnectionEvent) :
    (machine.exec s es).Waiting :=
  machine.invariant_all (I := Waiting) (fun _ e hs => waiting_step hs e) hs es

/-- What has been sent goes before what is left. -/
theorem sent_exec (s : Connection) (es : List ConnectionEvent) :
    (machine.trace s es).flatMap ConnectionAct.sent ++ (machine.exec s es).msgQueue.flatten =
      s.msgQueue.flatten := by
  have hline := machine.conservation_in_order (I := fun _ => True) (C := fun _ _ => True)
    (fun s => s.msgQueue.flatten) (fun _ _ => []) ConnectionAct.sent (fun _ _ _ => trivial)
    (fun s e _ _ => by rw [List.append_nil]; exact sent_step s e) (s := s) trivial
    (machine.guarded_of_forall (fun _ _ => trivial) s es)
  rwa [Mealy.brought_nothing, List.append_nil] at hline

/-- While something is left, every call that the socket had room for has sent a byte. -/
theorem takes_le {s : Connection} (hs : s.Waiting) {es : List ConnectionEvent}
    (hopen : (machine.exec s es).handler.deleted = false)
    (hne : (machine.exec s es).msgQueue ≠ []) :
    es.countP (fun e => decide e.Takes) ≤
      ((machine.trace s es).flatMap ConnectionAct.sent).length := by
  induction es generalizing s with
  | nil => exact Nat.zero_le _
  | cons e es ih =>
    have htail := ih (waiting_step hs e) hopen hne
    have hhead : e.Takes → 0 < ((s.step e).2.flatMap ConnectionAct.sent).length := by
      intro he
      refine List.length_pos_iff.2 (sent_ne_nil hs ?_ ?_ he)
      · by_contra hdel
        have hend := machine.invariant_all (I := fun s => s.handler.deleted = true)
          (fun _ e hs => deleted_step hs e) (Bool.eq_true_of_not_eq_false hdel) (e :: es)
        rw [hopen] at hend
        cases hend
      · intro hnil
        exact hne (machine.invariant_all (I := fun s => s.msgQueue = [])
          (fun _ e hs => empty_step hs e) hnil (e :: es))
    rw [Mealy.trace_cons, List.flatMap_append, List.length_append, List.countP_cons]
    split
    · rename_i he
      have hpos := hhead (of_decide_eq_true he)
      exact Nat.add_comm _ 1 ▸ Nat.add_le_add hpos htail
    · exact htail.trans (Nat.le_add_left _ _)

/-- The receiving side of a connection is the handler of the model of the replies. -/
theorem calls_eq (s : Connection) (es : List ConnectionEvent) :
    (machine.trace s es).filterMap ConnectionAct.call? =
      FetcherHandler.machine.trace s.handler (es.filterMap ConnectionEvent.fetch?) := by
  induction es generalizing s with
  | nil => rfl
  | cons e es ih =>
    rw [Mealy.trace_cons, List.filterMap_append, ih]
    cases e with
    | fetch e =>
      have hcalls : ((s.step (.fetch e)).2).filterMap ConnectionAct.call? = (s.handler.step e).2 := by
        simp [step, List.filterMap_map, Function.comp_def, ConnectionAct.call?]
      exact congrArg (· ++ _) hcalls
    | handleOutput rooms =>
      show ((s.step _).2).filterMap _ ++ FetcherHandler.machine.trace (s.step _).1.handler _ = _
      rw [step]
      split <;> rfl

/-- The bytes that a run sends. -/
def sent (s : Connection) (es : List ConnectionEvent) : List UInt8 :=
  (machine.trace s es).flatMap ConnectionAct.sent

/-- **The sending of a request.** Of a request that fits, a run of the connection sends a beginning
in order; it is complete exactly when the reactor does not wait for the socket any longer, and it is
so, on a connection that is open, after as many calls with room in the socket as it has bytes. The
user's handler is called as if nothing were sent. -/
theorem request_sent (mem : ℕ → UInt8) {r : Request} (hfit : r.cText.length < Request.maxHeaderSize)
    (es : List ConnectionEvent) :
    let s := opened [(r.construct mem).1.contents]
    sent s es <+: r.cText ∧
      (sent s es = r.cText ↔ (machine.exec s es).wakeup = false) ∧
      ((machine.exec s es).handler.deleted = false →
        r.cText.length ≤ es.countP (fun e => decide e.Takes) → sent s es = r.cText) ∧
      (machine.trace s es).filterMap ConnectionAct.call? =
        FetcherHandler.machine.trace {} (es.filterMap ConnectionEvent.fetch?) := by
  intro s
  have hcontents : (r.construct mem).1.contents = r.cText := (r.construct_of_lt mem hfit).2.1
  have hs : s.Waiting :=
    waiting_opened (by simp [hcontents, Request.cText_ne_nil]) (List.cons_ne_nil _ _)
  have hsent : sent s es ++ (machine.exec s es).msgQueue.flatten = r.cText := by
    rw [sent, sent_exec]
    simp [s, opened, hcontents]
  have hexec := waiting_exec hs es
  have hleft : (machine.exec s es).msgQueue.flatten = [] ↔ (machine.exec s es).msgQueue = [] := by
    rw [List.flatten_eq_nil_iff]
    constructor
    · intro h
      rw [List.eq_nil_iff_forall_not_mem]
      exact fun mb hmb => hexec.bytes mb hmb (h mb hmb)
    · rintro h
      simp [h]
  have hall : sent s es = r.cText ↔ (machine.exec s es).msgQueue = [] := by
    rw [← hleft, ← hsent, List.self_eq_append_right]
  refine ⟨⟨_, hsent⟩, ?_, fun hopen htakes => ?_, calls_eq s es⟩
  · rw [hall, hexec.wakeup]
    simp
  · by_contra hne
    have hqueue := mt hall.2 hne
    have hle : r.cText.length ≤ (sent s es).length := htakes.trans (takes_le hs hopen hqueue)
    have hpre : sent s es <+: r.cText := ⟨_, hsent⟩
    exact hne (hpre.eq_of_length_le hle)

/-- The request of a list of addresses. -/
def listRequest : Request := ⟨ascii "GET", ascii "/list", ascii "revoltzone.net"⟩

/-- The socket takes ten bytes, then none, then the rest. -/
theorem request_sent_list :
    sent (opened [(listRequest.construct fun _ => 0).1.contents])
      [.handleOutput [some 10], .handleOutput [none], .handleOutput [some 100]] =
        listRequest.cText := by
  have hrun := request_sent (fun _ => 0) (r := listRequest) (by decide)
    [.handleOutput [some 10], .handleOutput [none], .handleOutput [some 100]]
  exact hrun.2.1.2 (by decide)

end Connection

end RvHouse
