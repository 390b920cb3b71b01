import RvHouse.Messaging.Messenger
import RvHouse.Model.Mirror

/-!
# The two threads

The handler of a group runs in the networking thread and posts messages, one after another; the GUI
thread takes them in when it gets to them. `Threads` is the two with the messenger between them. In
each state the messages that are still to be posted or handled are what the model of the GUI lacks:
with them it would show the house of the handler (`MirrorsPending`). So whenever neither thread has
anything more to do, the model shows that house (`mirror_of_orderly`), whatever their speed.

Two things are asked for: that single events can be mirrored at all (`Mirrorable`), and that no
message overtakes an older one, which happens when a dialog is open while a batch is not at its end.
`not_mirror_of_overtaken` is a run in which a node goes and comes back during a dialog: the model
loses it for good.
-/

namespace RvHouse

open Handler

/-- The handler of a group, the model that the GUI has of it, and the messages between them. -/
structure Threads where
  handler : Handler
  /-- What the event of the networking thread that is under way is still to post. -/
  posting : List Message := []
  messenger : Messenger Message := {}
  model : GroupHouse := {}

/-- What happens in one of the threads. -/
inductive ThreadsEvent where
  /-- An event of the networking thread, when the last one is over. -/
  | net (e : Event)
  /-- The next `messenger::send_msg` of that event. -/
  | sendMsg
  /-- `messenger::collect_msgs` in the GUI thread. -/
  | collectMsgs
  /-- The next message of `house_app::_handle_messenger`. -/
  | handleMessage
  /-- A batch is at its end. -/
  | finish
deriving DecidableEq

namespace Threads

/-- One event. -/
def step (s : Threads) : ThreadsEvent → Threads × List Message
  | .net e =>
    match s.posting with
    | [] => ({ s with handler := (s.handler.step e).1, posting := posted (s.handler.step e).2 }, [])
    | _ :: _ => (s, [])
  | .sendMsg =>
    match s.posting with
    | [] => (s, [])
    | m :: ms => ({ s with posting := ms, messenger := s.messenger.sendMsg m }, [])
  | .collectMsgs => ({ s with messenger := s.messenger.collectMsgs }, [])
  | .handleMessage =>
    let r := s.messenger.handleMessage
    ({ s with messenger := r.1, model := s.model.handleAll r.2 }, r.2)
  | .finish => ({ s with messenger := s.messenger.finish }, [])

/-- The threads as a machine that puts out the messages as the GUI takes them in. -/
def machine : Mealy Threads ThreadsEvent Message := ⟨step⟩

/-- The threads at the start. -/
def init (base : Int) : Threads := { handler := .init base }

/-- An event of the handler that can be mirrored, and no message overtakes another one. -/
def Orderly (s : Threads) : ThreadsEvent → Prop
  | .net e => s.posting = [] → Mirrorable s.handler e
  | .collectMsgs => s.messenger.InTurn .collectMsgs
  | _ => True

/-- With the messages that are still to be handled or posted, the model shows the house of the
handler. -/
def MirrorsPending (s : Threads) : Prop :=
  Mirror s.handler.house (s.model.handleAll (s.messenger.pending ++ s.posting)).house

theorem MirrorsPending.step {s : Threads} (hs : s.MirrorsPending) {e : ThreadsEvent}
    (he : s.Orderly e) : (s.step e).1.MirrorsPending := by
  cases e with
  | net e =>
    rw [Threads.step]
    split
    · rename_i hnone
      unfold MirrorsPending at hs ⊢
      rw [hnone, List.append_nil] at hs
      dsimp only
      rw [handleAll_append]
      exact (mirror_step s.handler e _ hs).2 (he hnone)
    · exact hs
  | sendMsg =>
    rw [Threads.step]
    split
    · exact hs
    · rename_i m ms hposting
      unfold MirrorsPending at hs ⊢
      rw [Messenger.pending_sendMsg, List.append_assoc, List.singleton_append, ← hposting]
      exact hs
  | collectMsgs =>
    have hpending := Messenger.pending_step (e := .collectMsgs) he
    simp only [Messenger.step, Messenger.brought, List.nil_append, List.append_nil] at hpending
    unfold MirrorsPending
    simp only [Threads.step]
    rw [hpending]
    exact hs
  | handleMessage =>
    unfold MirrorsPending
    simp only [Threads.step]
    rw [← handleAll_append, ← List.append_assoc, s.messenger.pending_handleMessage]
    exact hs
  | finish =>
    unfold MirrorsPending
    simp only [Threads.step, Messenger.pending_finish]
    exact hs

theorem mirrorsPending_init (base : Int) : (init base).MirrorsPending where
  users k := by simp [init, Handler.init, Messenger.pending]
  rooms id := by simp [init, Handler.init, Messenger.pending]

theorem awake_step {s : Threads} (hs : s.messenger.Awake) (e : ThreadsEvent) :
    (s.step e).1.messenger.Awake := by
  cases e with
  | net e =>
    rw [step]
    split
    · exact hs
    · exact hs
  | sendMsg =>
    rw [step]
    split
    · exact hs
    · rename_i m _ _
      exact hs.step (.sendMsg m)
  | collectMsgs => exact hs.step .collectMsgs
  | handleMessage => exact hs.step .handleMessage
  | finish => exact hs.step .finish

/-- **The GUI catches up.** In an orderly run the model lacks nothing but the messages that are still
to be posted or handled, and when neither thread has anything more to do, it shows the house of the
handler. -/
theorem mirror_of_orderly (base : Int) (es : List ThreadsEvent)
    (hes : machine.Guarded Orderly (init base) es) :
    let s := machine.exec (init base) es
    s.MirrorsPending ∧
      (s.posting = [] ∧ s.messenger.wakes = 0 ∧ s.messenger.batches = [] →
        Mirror s.handler.house s.model.house) := by
  intro s
  have hpending : s.MirrorsPending :=
    machine.invariant (fun _ _ hs he => hs.step he) (mirrorsPending_init base) hes
  refine ⟨hpending, fun ⟨hposting, hw, hb⟩ => ?_⟩
  have hawake : s.messenger.Awake :=
    machine.invariant_all (I := fun s => s.messenger.Awake) (fun _ e hs => awake_step hs e)
      (Nat.zero_le _) es
  have hnone := hawake.pending hw hb
  simpa [MirrorsPending, hnone, hposting] using hpending

theorem mirror_of_orderly_come :
    let s := machine.exec (init 1)
      [.net (.nodeAdded ⟨1, 1⟩ 0), .sendMsg, .collectMsgs, .handleMessage, .finish]
    Mirror s.handler.house s.model.house := by
  have hes : machine.Guarded Orderly (init 1)
      [.net (.nodeAdded ⟨1, 1⟩ 0), .sendMsg, .collectMsgs, .handleMessage, .finish] :=
    ⟨fun _ _ h => (Option.some_ne_none _ h.symm).elim, trivial, fun _ => .inl rfl, trivial, trivial,
      trivial⟩
  exact (mirror_of_orderly 1 _ hes).2 (by decide +kernel)

/-! ## A dialog -/

/-- A host refuses the client and goes. While the dialog about the refusal is open, it comes back. -/
def backDuringDialog (n : Node) : List ThreadsEvent :=
  [.net (.nodeAdded n 0), .sendMsg, .collectMsgs, .handleMessage, .finish,
    .net (.dataReceived (.userData ⟨.roomJoinRefused, 3⟩ .none) n 0), .sendMsg,
    .net (.nodeRemoved n), .sendMsg, .collectMsgs, .handleMessage,
    .net (.nodeAdded n 1), .sendMsg, .collectMsgs, .handleMessage, .finish,
    .handleMessage, .finish, .collectMsgs, .finish]

/-- The host is there, and the GUI does not show it, although neither thread has anything more to
do. -/
theorem not_mirror_of_overtaken :
    let s := machine.exec (init 1) (backDuringDialog ⟨1, 1⟩)
    s.posting = [] ∧ s.messenger.wakes = 0 ∧ s.messenger.batches = [] ∧
      ¬ Mirror s.handler.house s.model.house := by
  refine ⟨by decide +kernel, by decide +kernel, by decide +kernel, fun hm => ?_⟩
  have hshown := hm.users (.ofNode ⟨1, 1⟩)
  revert hshown
  decide +kernel

end Threads

end RvHouse
