import RvHouse.Lib.Mealy
import RvHouse.Model.Self

/-!
# Connecting again to the centralized group

`window::house` requests a connect when the user has logged in, and again when the centralized group
is not joined: the message installs a one-shot timer, unless five attempts have been made since the
group was joined last. A timer that fires reads one flag, which every message of the group sets.

`reconnect_pending_or_requested`: after a message that the group is not joined, a timer is pending
that will request a connect, or a connect has been requested since; and the attempts do not exceed
five when no such message comes while a connect is outstanding, unless there is room for one more.
`not_reconnect_pending` has the runs in which neither is more than that: nothing is pending once the
timer has fired, nothing once the server is reported as unreachable, and of two timers each makes an
attempt.
-/

namespace RvHouse

/-- What `window::house` knows of the centralized group. `timers` are the pending one-shot timers,
each with its seconds, and `autoConnect` tells that `house_app::start` has a connect to request. -/
structure CtzConnection where
  self : SelfModel := {}
  connTries : ℕ := 0
  ctzDisconnected : Bool := true
  statusCtz : String := ""
  timers : List ℕ := []
  autoConnect : Bool := true
deriving DecidableEq

/-- What happens to it. -/
inductive CtzEvent where
  /-- The user has logged in. -/
  | start
  /-- A message of the networking thread. -/
  | message (id : MsgId)
  /-- One of the pending timers fires. -/
  | timer (i : ℕ)
deriving DecidableEq

namespace CtzConnection

/-- `house::net_connect`. -/
def netConnect (s : CtzConnection) : CtzConnection × List Message :=
  let (seq, self) := s.self.sequence
  ({ s with self, connTries := s.connTries + 1 }, [.ofUser .connect s.self.user seq 0])

/-- `house::reconnect`. -/
def reconnect (s : CtzConnection) : CtzConnection × List Message :=
  if s.ctzDisconnected then s.netConnect else (s, [])

/-- `house::handle_ctz_message`, and whether it handles the message. -/
def handleCtzMessage (s : CtzConnection) (id : MsgId) : CtzConnection × Bool :=
  let handled (s : CtzConnection) : CtzConnection × Bool :=
    ({ s with ctzDisconnected := decide (id = .ctzGroupNotJoined) }, true)
  match id with
  | .ctzGroupJoining => handled { s with statusCtz := "main_win/ctz_connecting" }
  | .ctzGroupJoined => handled { s with statusCtz := "main_win/ctz_connected", connTries := 0 }
  | .ctzGroupLeaving => handled { s with statusCtz := "main_win/ctz_disconnecting" }
  | .ctzGroupNotJoined =>
    handled { s with
      ctzDisconnected := true
      statusCtz := "main_win/ctz_disconnected"
      timers := if s.connTries < 5 then s.timers ++ [30 * s.connTries] else s.timers }
  | .ctzGroupServerUnreachable => handled s
  | _ => (s, false)

/-- One event; a connect request goes to the worker. -/
def step (s : CtzConnection) : CtzEvent → CtzConnection × List Message
  | .start =>
    if s.autoConnect then ({ s with autoConnect := false } : CtzConnection).netConnect else (s, [])
  | .message id => ((s.handleCtzMessage id).1, [])
  | .timer i =>
    if i < s.timers.length then
      ({ s with timers := s.timers.eraseIdx i } : CtzConnection).reconnect
    else (s, [])

/-- The window as a machine that sends messages to the worker. -/
def machine : Mealy CtzConnection CtzEvent Message := ⟨step⟩

/-- A connect request is made by an event. -/
def Requests (s : CtzConnection) (e : CtzEvent) : Prop := ∃ m ∈ (s.step e).2, m.id = .connect

/-- Some pending timer will request a connect when it fires. -/
def ReconnectPending (s : CtzConnection) : Prop := ∃ i < s.timers.length, s.Requests (.timer i)

/-- The connects outstanding: one for each pending timer, and the one after the login. -/
def outstanding (s : CtzConnection) : ℕ := s.timers.length + s.autoConnect.toNat

/-- A message that the group is not joined comes when no connect is outstanding, or when the attempts
made and outstanding are still fewer than five. -/
def HasRoom (s : CtzConnection) : CtzEvent → Prop
  | .message .ctzGroupNotJoined => s.outstanding = 0 ∨ s.connTries + s.outstanding < 5
  | _ => True

instance (s : CtzConnection) (e : CtzEvent) : Decidable (s.Requests e) :=
  inferInstanceAs (Decidable (∃ m ∈ (s.step e).2, m.id = .connect))

instance (s : CtzConnection) : Decidable s.ReconnectPending :=
  inferInstanceAs (Decidable (∃ i < s.timers.length, s.Requests (.timer i)))

instance (s : CtzConnection) (e : CtzEvent) : Decidable (s.HasRoom e) := by
  unfold HasRoom
  split <;> infer_instance

end CtzConnection

/-- The messages that tell the state of the centralized group. -/
def ctzStates : List MsgId :=
  [.ctzGroupJoining, .ctzGroupJoined, .ctzGroupLeaving, .ctzGroupNotJoined]

/-- What an observer keeps of a run: the last message that told the state of the group, the connect
requests since the group was joined last, and whether a connect was requested, and the server
reported as unreachable, since the message. -/
structure CtzLog where
  last : Option MsgId := none
  attempts : ℕ := 0
  requested : Bool := false
  unreachable : Bool := false
deriving DecidableEq

/-- The observer sees an event. -/
def CtzLog.note (l : CtzLog) (s : CtzConnection) (e : CtzEvent) : CtzLog :=
  match e with
  | .message id =>
    if id ∈ ctzStates then
      { last := some id, attempts := if id = .ctzGroupJoined then 0 else l.attempts }
    else if id = .ctzGroupServerUnreachable then { l with unreachable := true }
    else l
  | e => if s.Requests e then { l with attempts := l.attempts + 1, requested := true } else l

namespace CtzConnection

/-! ## What an event does -/

theorem requests_start_iff {s : CtzConnection} : s.Requests .start ↔ s.autoConnect = true := by
  unfold Requests step
  cases s.autoConnect with
  | true => exact iff_of_true ⟨_, List.mem_singleton.2 rfl, rfl⟩ rfl
  | false => simp

theorem requests_timer_iff {s : CtzConnection} {i : ℕ} :
    s.Requests (.timer i) ↔ i < s.timers.length ∧ s.ctzDisconnected = true := by
  unfold Requests step reconnect
  by_cases hi : i < s.timers.length
  · cases hd : s.ctzDisconnected with
    | true => simpa [hi] using ⟨_, List.mem_singleton.2 rfl, rfl⟩
    | false => simp [hi]
  · simp [hi]

theorem reconnectPending_iff {s : CtzConnection} :
    s.ReconnectPending ↔ s.timers ≠ [] ∧ s.ctzDisconnected = true := by
  simp only [ReconnectPending, requests_timer_iff, ← List.length_pos_iff]
  constructor
  · rintro ⟨i, hi, -, hd⟩
    exact ⟨by omega, hd⟩
  · rintro ⟨hpos, hd⟩
    exact ⟨0, hpos, hpos, hd⟩

/-- What the initial connect and a timer do: they make an attempt, or they are gone without one. -/
theorem step_connect (s : CtzConnection) {e : CtzEvent} (he : ∀ id, e ≠ .message id) :
    (s.step e).1.ctzDisconnected = s.ctzDisconnected ∧
      ((s.Requests e ∧ (s.step e).1.connTries = s.connTries + 1 ∧
          (s.step e).1.outstanding + 1 = s.outstanding) ∨
        (¬ s.Requests e ∧ (s.step e).1.connTries = s.connTries ∧
          (s.step e).1.outstanding ≤ s.outstanding ∧
          (s.ctzDisconnected = true → (s.step e).1 = s))) := by
  cases e with
  | message id => exact absurd rfl (he id)
  | start =>
    rw [requests_start_iff]
    cases ha : s.autoConnect with
    | true => simp [step, ha, netConnect, outstanding]
    | false => simp [step, ha]
  | timer i =>
    rw [requests_timer_iff]
    by_cases hi : i < s.timers.length
    · have hlen := List.length_eraseIdx_add_one hi
      cases hd : s.ctzDisconnected with
      | true =>
        simp only [step, hi, reconnect, hd, netConnect, outstanding, if_true, and_self, true_and,
          not_true_eq_false, false_and, or_false]
        omega
      | false =>
        simp only [step, hi, reconnect, hd, outstanding, if_true, Bool.false_eq_true, if_false,
          and_false, false_and, not_false_eq_true, true_and, false_or, false_implies, and_true]
        omega
    · simp [step, hi]

/-- What a message does. -/
theorem step_message (s : CtzConnection) (id : MsgId) :
    (s.step (.message id)).1.autoConnect = s.autoConnect ∧
      (s.step (.message id)).1.connTries =
        (if id = .ctzGroupJoined then 0 else s.connTries) ∧
      (s.step (.message id)).1.timers =
        (if id = .ctzGroupNotJoined ∧ s.connTries < 5 then s.timers ++ [30 * s.connTries]
          else s.timers) ∧
      (s.step (.message id)).1.ctzDisconnected =
        (if id ∈ ctzStates ∨ id = .ctzGroupServerUnreachable then decide (id = .ctzGroupNotJoined)
          else s.ctzDisconnected) := by
  cases id <;> simp [step, handleCtzMessage, ctzStates]

/-! ## Runs -/

/-- What the observer keeps agrees with the window. -/
structure Tracks (s : CtzConnection) (l : CtzLog) : Prop where
  attempts : s.connTries = l.attempts
  awaiting : l.last = some .ctzGroupNotJoined → l.unreachable = false →
    s.ctzDisconnected = true ∧ (l.attempts < 5 → s.timers ≠ [] ∨ l.requested = true)

theorem note_connect (l : CtzLog) (s : CtzConnection) {e : CtzEvent}
    (he : ∀ id, e ≠ .message id) : l.note s e =
      if s.Requests e then { l with attempts := l.attempts + 1, requested := true } else l := by
  cases e with
  | message id => exact absurd rfl (he id)
  | _ => rfl

theorem tracks_message {s : CtzConnection} {l : CtzLog} (id : MsgId) (h : Tracks s l) :
    Tracks (s.step (.message id)).1 (l.note s (.message id)) := by
  obtain ⟨-, htries, htimers, hflag⟩ := s.step_message id
  simp only [CtzLog.note]
  split
  · refine ⟨by rw [htries, h.attempts], ?_⟩
    rintro ⟨⟩ -
    refine ⟨by rw [hflag]; simp [ctzStates], fun hlt => .inl ?_⟩
    have hlt' : s.connTries < 5 := by
      rw [h.attempts]
      exact hlt
    simp [htimers, hlt']
  · rename_i hstate
    have hne : ∀ st ∈ ctzStates, id ≠ st := fun st hst heq => hstate (heq ▸ hst)
    rw [if_neg (hne _ (by decide))] at htries
    rw [if_neg fun hc => hne _ (by decide) hc.1] at htimers
    split
    · exact ⟨htries.trans h.attempts, fun _ hu => Bool.noConfusion hu⟩
    · rename_i hreach
      rw [if_neg (not_or.2 ⟨hstate, hreach⟩)] at hflag
      refine ⟨htries.trans h.attempts, fun hl hu => ?_⟩
      rw [hflag, htimers]
      exact h.awaiting hl hu

theorem tracks_connect {s : CtzConnection} {l : CtzLog} {e : CtzEvent}
    (he : ∀ id, e ≠ .message id) (h : Tracks s l) : Tracks (s.step e).1 (l.note s e) := by
  rw [note_connect l s he]
  obtain ⟨hflag, ⟨hreq, htries, -⟩ | ⟨hreq, htries, -, hsame⟩⟩ := s.step_connect he
  · rw [if_pos hreq]
    refine ⟨by rw [htries, h.attempts], fun hl hu => ?_⟩
    rw [hflag]
    exact ⟨(h.awaiting hl hu).1, fun _ => .inr rfl⟩
  · rw [if_neg hreq]
    refine ⟨htries.trans h.attempts, fun hl hu => ?_⟩
    obtain ⟨hd, hpending⟩ := h.awaiting hl hu
    rw [hsame hd]
    exact ⟨hd, hpending⟩

theorem tracks_step {s : CtzConnection} {l : CtzLog} (e : CtzEvent) (h : Tracks s l) :
    Tracks (s.step e).1 (l.note s e) := by
  cases e with
  | message id => exact tracks_message id h
  | start => exact tracks_connect (fun _ => CtzEvent.noConfusion) h
  | timer i => exact tracks_connect (fun _ => CtzEvent.noConfusion) h

/-- The attempts made and outstanding are five at most. -/
def Bounded (s : CtzConnection) : Prop := s.connTries + s.outstanding ≤ 5

theorem bounded_step {s : CtzConnection} {e : CtzEvent} (h : s.Bounded) (he : s.HasRoom e) :
    (s.step e).1.Bounded := by
  unfold Bounded at h ⊢
  have hconnect : (∀ id, e ≠ .message id) →
      (s.step e).1.connTries + (s.step e).1.outstanding ≤ 5 := by
    intro hne
    obtain ⟨-, ⟨-, htries, hout⟩ | ⟨-, htries, hout, -⟩⟩ := s.step_connect hne
    · omega
    · omega
  cases e with
  | start => exact hconnect fun _ => CtzEvent.noConfusion
  | timer i => exact hconnect fun _ => CtzEvent.noConfusion
  | message id =>
    obtain ⟨hauto, htries, htimers, -⟩ := s.step_message id
    have hle : (s.step (.message id)).1.connTries ≤ s.connTries := by
      rw [htries]
      split
      · exact Nat.zero_le _
      · exact le_rfl
    rw [outstanding, hauto, htimers]
    split
    · rename_i hinstalls
      obtain ⟨rfl, hlt⟩ := hinstalls
      have hroom : s.timers.length + s.autoConnect.toNat = 0 ∨
          s.connTries + (s.timers.length + s.autoConnect.toNat) < 5 := he
      rw [List.length_append, List.length_singleton]
      omega
    · have hsum : s.connTries + (s.timers.length + s.autoConnect.toNat) ≤ 5 := h
      omega

/-- The window at the start. -/
def init (self : SelfModel) (autoConnect : Bool) : CtzConnection := { self, autoConnect }

/-- **Connecting again.** In every run, after a message that the group is not joined, and before the
server is reported as unreachable, some pending timer will request a connect when it fires, or a
connect has been requested since the message, as long as fewer than five attempts have been made
since the group was joined last. If such a message comes only when no connect is outstanding, or
while there is room for one more, the attempts never exceed five. -/
theorem reconnect_pending_or_requested (self : SelfModel) (autoConnect : Bool)
    (es : List CtzEvent) :
    let s := machine.exec (init self autoConnect) es
    let l := machine.observe CtzLog.note (init self autoConnect) {} es
    (l.last = some .ctzGroupNotJoined → l.unreachable = false → l.attempts < 5 →
        s.ReconnectPending ∨ l.requested = true) ∧
      (machine.Guarded HasRoom (init self autoConnect) es → l.attempts ≤ 5) := by
  intro s l
  have htracks : Tracks s l :=
    machine.invariant_observed_all CtzLog.note (fun _ _ e h => tracks_step e h)
      ⟨rfl, fun hl => absurd hl (Option.some_ne_none _).symm⟩ es
  constructor
  · intro hlast hreach hlt
    obtain ⟨hd, hpending⟩ := htracks.awaiting hlast hreach
    exact (hpending hlt).imp_left fun hne => reconnectPending_iff.2 ⟨hne, hd⟩
  · intro hes
    have hinit : (init self autoConnect).Bounded := by
      have hle := Bool.toNat_le autoConnect
      show 0 + (0 + autoConnect.toNat) ≤ 5
      omega
    have hbound : s.Bounded := machine.invariant (fun _ _ h he => bounded_step h he) hinit hes
    unfold Bounded at hbound
    rw [← htracks.attempts]
    omega

/-- The group is not joined after the first connect: the timer is pending, and the one attempt has
been made with nothing else outstanding. -/
theorem reconnect_pending_or_requested_start :
    let es : List CtzEvent := [.start, .message .ctzGroupJoining, .message .ctzGroupNotJoined]
    let l := machine.observe CtzLog.note (init {} true) {} es
    l.last = some .ctzGroupNotJoined ∧ l.attempts = 1 ∧
      (machine.exec (init {} true) es).timers = [30] ∧
      ((machine.exec (init {} true) es).ReconnectPending ∨ l.requested = true) ∧
      l.attempts ≤ 5 := by
  have h := reconnect_pending_or_requested {} true
    [.start, .message .ctzGroupJoining, .message .ctzGroupNotJoined]
  exact ⟨by decide, by decide, by decide, h.1 (by decide) (by decide) (by decide),
    h.2 (by decide)⟩

/-- Three runs in which the last state was that the group is not joined: the server was reported as
unreachable after it, so that the timer does nothing; the only timer has fired; and two timers were
installed at the fourth attempt, so that there are six. -/
theorem not_reconnect_pending :
    (∃ es : List CtzEvent, es = [.start, .message .ctzGroupNotJoined,
        .message .ctzGroupServerUnreachable] ∧
      machine.observe CtzLog.note (init {} true) {} es =
        ⟨some .ctzGroupNotJoined, 1, false, true⟩ ∧
      ¬ (machine.exec (init {} true) es).ReconnectPending) ∧
    (∃ es : List CtzEvent, es = [.start, .message .ctzGroupNotJoined, .timer 0] ∧
      machine.observe CtzLog.note (init {} true) {} es =
        ⟨some .ctzGroupNotJoined, 2, true, false⟩ ∧
      ¬ (machine.exec (init {} true) es).ReconnectPending) ∧
    ∃ es : List CtzEvent, es = [.start, .message .ctzGroupNotJoined, .timer 0,
        .message .ctzGroupNotJoined, .timer 0, .message .ctzGroupNotJoined, .timer 0,
        .message .ctzGroupNotJoined, .message .ctzGroupNotJoined, .timer 0, .timer 0] ∧
      (machine.observe CtzLog.note (init {} true) {} es).attempts = 6 :=
  ⟨⟨_, rfl, by decide, by decide⟩, ⟨_, rfl, by decide, by decide⟩, ⟨_, rfl, by decide⟩⟩

end CtzConnection

end RvHouse
