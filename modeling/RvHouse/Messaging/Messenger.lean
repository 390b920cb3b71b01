import RvHouse.Lib.Mealy
import Mathlib.Algebra.BigOperators.Group.Multiset.Basic
import Mathlib.Data.List.Nodup
import Mathlib.Data.Multiset.Basic

/-!
# The messengers between the threads

`messenger`: a queue that one thread appends to and that another one empties when it is woken.
Every message sends a wake-up of its own (`send_msg`), and whoever is woken takes all messages that
are there (`collect_msgs`) and handles them one by one (`house_app::_handle_messenger`,
`worker::handle_exception`). The handling of a message may run an event loop of its own, as a dialog
does, and so be woken again before the batch is at its end: the batches form a stack.

* `perm_trace`: no message is lost or handled twice;
* `awake_exec`: while messages are waiting a wake-up is on its way;
* `delivered`: so a thread that has nothing more to do has handled every message;
* `inOrder_iff_guarded`: the messages are handled in the order in which they were sent exactly when
  nobody is woken inside a batch whose messages are overtaken by new ones.

No handling throws: the `catch` clauses of both threads drop what is left of the batch, which is
left out.
-/

namespace RvHouse

/-- A messenger and the thread that it wakes. -/
structure Messenger (α : Type*) where
  /-- `_msgs`. -/
  msgs : List α := []
  /-- The events of `wake_target` that the loop has not delivered yet. -/
  wakes : ℕ := 0
  /-- What is left of the batches that are being handled, innermost first. -/
  batches : List (List α) := []
deriving DecidableEq

/-- What the thread does, and a message of the other one. -/
inductive MessengerEvent (α : Type*) where
  | sendMsg (m : α)
  /-- An event loop delivers a wake-up: `collect_msgs` starts a batch. -/
  | collectMsgs
  /-- The loop over the innermost batch goes on with its next message. -/
  | handleMessage
  /-- The innermost batch is at its end. -/
  | finish
deriving DecidableEq

namespace Messenger

variable {α : Type*}

/-- `messenger::send_msg`. -/
def sendMsg (s : Messenger α) (m : α) : Messenger α :=
  { s with msgs := s.msgs ++ [m], wakes := s.wakes + 1 }

/-- `messenger::collect_msgs`, on a wake-up. -/
def collectMsgs (s : Messenger α) : Messenger α :=
  match s.wakes with
  | 0 => s
  | k + 1 => ⟨[], k, s.msgs :: s.batches⟩

/-- The next message of the innermost batch, if there is one. -/
def handleMessage (s : Messenger α) : Messenger α × List α :=
  match s.batches with
  | (m :: ms) :: bs => ({ s with batches := ms :: bs }, [m])
  | _ => (s, [])

def finish (s : Messenger α) : Messenger α :=
  match s.batches with
  | [] :: bs => { s with batches := bs }
  | _ => s

/-- One event. -/
def step (s : Messenger α) : MessengerEvent α → Messenger α × List α
  | .sendMsg m => (s.sendMsg m, [])
  | .collectMsgs => (s.collectMsgs, [])
  | .handleMessage => s.handleMessage
  | .finish => (s.finish, [])

/-- The messenger as a machine that puts out the messages as they are handled. -/
def machine (α : Type*) : Mealy (Messenger α) (MessengerEvent α) α := ⟨step⟩

@[simp] theorem machine_step (s : Messenger α) (e : MessengerEvent α) :
    (machine α).step s e = s.step e := rfl

/-- The messages that are still to be handled: first those of the batches, then the queue. -/
def pending (s : Messenger α) : List α := s.batches.flatten ++ s.msgs

/-- The messages sent in a run. -/
def sent : List (MessengerEvent α) → List α
  | [] => []
  | .sendMsg m :: es => m :: sent es
  | _ :: es => sent es

/-- No message of an open batch is overtaken. -/
def InTurn (s : Messenger α) : MessengerEvent α → Prop
  | .collectMsgs => 0 < s.wakes → s.batches.flatten = [] ∨ s.msgs = []
  | _ => True

instance (s : Messenger α) : ∀ e : MessengerEvent α, Decidable (s.InTurn e)
  | .collectMsgs => inferInstanceAs (Decidable (_ → _ ∨ _))
  | .sendMsg _ => .isTrue trivial
  | .handleMessage => .isTrue trivial
  | .finish => .isTrue trivial

/-! ## Single events -/

@[simp] theorem pending_sendMsg (s : Messenger α) (m : α) :
    (s.sendMsg m).pending = s.pending ++ [m] := by
  simp [pending, sendMsg]

/-- A batch goes before the others. -/
theorem pending_collectMsgs (s : Messenger α) :
    s.collectMsgs.pending =
      if s.wakes = 0 then s.pending else s.msgs ++ s.batches.flatten := by
  unfold collectMsgs
  cases s.wakes <;> simp [pending]

theorem pending_handleMessage (s : Messenger α) :
    s.handleMessage.2 ++ s.handleMessage.1.pending = s.pending := by
  obtain ⟨msgs, wakes, batches⟩ := s
  rcases batches with _ | ⟨_ | ⟨m, ms⟩, bs⟩ <;> simp [handleMessage, pending]

@[simp] theorem pending_finish (s : Messenger α) : s.finish.pending = s.pending := by
  obtain ⟨msgs, wakes, batches⟩ := s
  rcases batches with _ | ⟨_ | ⟨m, ms⟩, bs⟩ <;> simp [finish, pending]

/-- The message of an event. -/
def brought : MessengerEvent α → List α
  | .sendMsg m => [m]
  | _ => []

theorem sent_cons (e : MessengerEvent α) (es : List (MessengerEvent α)) :
    sent (e :: es) = brought e ++ sent es := by
  cases e <;> rfl

theorem sent_append (es fs : List (MessengerEvent α)) : sent (es ++ fs) = sent es ++ sent fs := by
  induction es with
  | nil => rfl
  | cons e es ih => simp only [List.cons_append, sent_cons, ih, List.append_assoc]

/-- An event in turn keeps the order. -/
theorem pending_step {s : Messenger α} {e : MessengerEvent α} (he : s.InTurn e) :
    (s.step e).2 ++ (s.step e).1.pending = s.pending ++ brought e := by
  cases e with
  | sendMsg m => simp [step, brought]
  | collectMsgs =>
    simp only [step, brought, pending_collectMsgs, List.nil_append, List.append_nil]
    split
    · rfl
    · rename_i hw
      rcases he (Nat.pos_of_ne_zero hw) with h | h <;> simp [pending, h]
  | handleMessage => simpa [step, brought] using s.pending_handleMessage
  | finish => simp [step, brought]

/-- Any event keeps the messages. -/
theorem perm_step (s : Messenger α) (e : MessengerEvent α) :
    ((s.step e).2 ++ (s.step e).1.pending).Perm (s.pending ++ brought e) := by
  cases e with
  | collectMsgs =>
    simp only [step, brought, pending_collectMsgs, List.nil_append, List.append_nil]
    split
    · rfl
    · exact List.perm_append_comm
  | sendMsg m => exact .of_eq (pending_step (e := .sendMsg m) trivial)
  | handleMessage => exact .of_eq (pending_step (e := .handleMessage) trivial)
  | finish => exact .of_eq (pending_step (e := .finish) trivial)

/-! ## Runs -/

/-- **Exactly once.** What was handled and what is still to be handled is what was sent. -/
theorem perm_trace (s : Messenger α) (es : List (MessengerEvent α)) :
    ((machine α).trace s es ++ ((machine α).exec s es).pending).Perm (s.pending ++ sent es) := by
  induction es generalizing s with
  | nil => simp [sent]
  | cons e es ih =>
    rw [Mealy.trace_cons, Mealy.exec_cons, machine_step, sent_cons, List.append_assoc]
    have htail := (ih (s.step e).1).append_left (s.step e).2
    have hhead := (s.perm_step e).append_right (sent es)
    rw [List.append_assoc, List.append_assoc] at hhead
    exact htail.trans hhead

/-- There are at least as many wake-ups on their way as messages in the queue. -/
def Awake (s : Messenger α) : Prop := s.msgs.length ≤ s.wakes

theorem Awake.step {s : Messenger α} (hs : s.Awake) (e : MessengerEvent α) : (s.step e).1.Awake := by
  cases e with
  | sendMsg m => simpa [Awake, Messenger.step, sendMsg] using hs
  | collectMsgs =>
    simp only [Messenger.step, collectMsgs]
    split
    · exact hs
    · exact Nat.zero_le _
  | handleMessage =>
    simp only [Messenger.step, handleMessage]
    split <;> exact hs
  | finish =>
    simp only [Messenger.step, finish]
    split <;> exact hs

/-- **Wake-ups are not lost.** -/
theorem awake_exec {s : Messenger α} (hs : s.Awake) (es : List (MessengerEvent α)) :
    ((machine α).exec s es).Awake :=
  (machine α).invariant_all (fun _ e hs => hs.step e) hs es

/-- A thread that is not woken any more and is at no batch has nothing left to handle. -/
theorem Awake.pending {s : Messenger α} (hs : s.Awake) (hw : s.wakes = 0) (hb : s.batches = []) :
    s.pending = [] := by
  have hmsgs : s.msgs = [] := List.length_eq_zero_iff.1 (Nat.le_zero.1 (hw ▸ hs))
  simp [Messenger.pending, hmsgs, hb]

/-- **Every message is handled.** What was handled and what is still to be handled is what was sent,
and a thread that has nothing more to do has handled everything. -/
theorem delivered (es : List (MessengerEvent α)) :
    ((machine α).trace {} es ++ ((machine α).exec {} es).pending).Perm (sent es) ∧
      (((machine α).exec {} es).wakes = 0 ∧ ((machine α).exec {} es).batches = [] →
        ((machine α).trace {} es).Perm (sent es)) := by
  have hperm := perm_trace {} es
  refine ⟨hperm, fun ⟨hw, hb⟩ => ?_⟩
  have hempty := (awake_exec (s := {}) (Nat.zero_le _) es).pending hw hb
  rwa [hempty, List.append_nil] at hperm

/-- Events in turn keep the order. -/
theorem inOrder_of_guarded {s : Messenger α} {es : List (MessengerEvent α)}
    (hes : (machine α).Guarded InTurn s es) :
    (machine α).trace s es ++ ((machine α).exec s es).pending = s.pending ++ sent es := by
  induction es generalizing s with
  | nil => simp [sent]
  | cons e es ih =>
    have hhead := pending_step hes.1
    have htail := ih hes.2
    rw [machine_step] at htail
    rw [Mealy.trace_cons, Mealy.exec_cons, machine_step, List.append_assoc, htail,
      ← List.append_assoc, hhead, sent_cons, List.append_assoc]

theorem append_comm_iff {l l' : List α} (h : (l ++ l').Nodup) :
    l' ++ l = l ++ l' ↔ l = [] ∨ l' = [] := by
  constructor
  · intro heq
    cases l with
    | nil => exact .inl rfl
    | cons x l =>
      cases l' with
      | nil => exact .inr rfl
      | cons y l' =>
        obtain rfl : y = x := (List.cons.inj heq).1
        simp at h
  · rintro (rfl | rfl) <;> simp

/-- **In order.** Messages that can be told apart are handled in the order in which they were sent
exactly when no batch is overtaken. -/
theorem inOrder_iff_guarded {es : List (MessengerEvent α)} (hes : (sent es).Nodup) :
    (∀ p, p <+: es → (machine α).trace {} p ++ ((machine α).exec {} p).pending = sent p) ↔
      (machine α).Guarded InTurn {} es := by
  constructor
  · intro h
    rw [Mealy.guarded_iff_forall]
    intro p e hp
    cases e with
    | collectMsgs =>
      intro hw
      have hlast := h _ hp
      have hfirst := h p ((List.prefix_append p _).trans hp)
      rw [Mealy.trace_append, Mealy.exec_append, sent_append, ← hfirst,
        List.append_assoc, List.append_assoc] at hlast
      have hswap := List.append_cancel_left hlast
      simp only [Mealy.trace_cons, Mealy.trace_nil, Mealy.exec_cons, Mealy.exec_nil, machine_step,
        step, sent, List.append_nil, List.nil_append, pending_collectMsgs] at hswap
      rw [if_neg (Nat.pos_iff_ne_zero.1 hw)] at hswap
      have hnodup : ((machine α).exec {} p).pending.Nodup := by
        have hsub : (sent p).Sublist (sent es) := by
          obtain ⟨fs, rfl⟩ := (List.prefix_append p _).trans hp
          rw [sent_append]
          exact List.sublist_append_left _ _
        have hnodup := hes.sublist hsub
        rw [← hfirst] at hnodup
        exact hnodup.of_append_right
      exact (append_comm_iff hnodup).1 hswap
    | _ => trivial
  · intro h p hp
    simpa [pending] using inOrder_of_guarded (h.initial _ hp)

theorem inOrder_numbers :
    (sent [.sendMsg 1, .sendMsg 2, .collectMsgs, .handleMessage]).Nodup ∧
      ∀ p, p <+: [.sendMsg 1, .sendMsg 2, .collectMsgs, .handleMessage] →
        (machine ℕ).trace {} p ++ ((machine ℕ).exec {} p).pending = sent p :=
  ⟨by decide, (inOrder_iff_guarded (by decide)).2 (by decide)⟩

end Messenger

end RvHouse
