import RvHouse.Lib.Mealy
import RvHouse.Messaging.Message
import RvHouse.Networking.VersionUpdate

/-!
# Dialogs that wait for the end of a game

The notice of a new version and the help on routers are dialogs that come up by themselves
(`modal_dialog_guard`). They are not to come up while the user is playing: a dialog that is created
then waits in the list of the watched objects, and tries again with every message that reaches the
windows. The one of a version that has to be installed quits the application when it is destroyed.
A dialog is destroyed as it is closed; the event loop, which really does it a little later
(`WA_DeleteOnClose`), is left out.

* `comes_up_iff`: a dialog comes up, once, exactly when the user is not playing when it is created or
  when some later message is handled;
* `quit_iff`: the application quits exactly when a notice of a forced version has come up and is
  closed;
* `help_iff`: the help is created, once, exactly when a timer finds the DHT disconnected.
-/

namespace RvHouse

/-- The classes derived from `modal_dialog_guard`. -/
inductive Notice where
  | routerFwHelp
  | versionUpdate (msg : VersionMsg)
deriving DecidableEq

/-- A dialog; the number stands for its address. -/
structure Dialog where
  number : ℕ
  notice : Notice
  shown : Bool := false
deriving DecidableEq

/-- The dialogs in `_watched_list`, in order, and what their creation and their display depend on.
`status` is that of the own user, and `dhtTimers` are the pending timers of the house window. -/
structure Dialogs where
  status : Status := .chatting
  lastDhtStatusMessageId : Int := 0
  dhtTimers : ℕ := 0
  routerFwHelpShowed : Bool := false
  created : ℕ := 0
  watched : List Dialog := []
deriving DecidableEq

/-- What happens to them. -/
inductive DialogEvent where
  /-- A message reaches the windows. -/
  | message (id : MsgId)
  /-- One that tells of a version. -/
  | version (m : VersionMsg)
  /-- A timer fires; the configuration may say that there is to be no help. -/
  | dhtTimer (noRouterFwHelp : Bool)
  /-- The status of the own user is set. -/
  | status (st : Status)
  /-- The user closes a dialog, which destroys it. -/
  | close (number : ℕ)
deriving DecidableEq

/-- What comes of it. -/
inductive DialogNews where
  | opened (number : ℕ) (notice : Notice)
  | shown (number : ℕ)
  | quit
deriving DecidableEq

/-- The number of a dialog that comes up. -/
def DialogNews.shown? : DialogNews → Option ℕ
  | .shown number => some number
  | _ => none

/-- The help has been created. -/
def DialogNews.isHelp : DialogNews → Bool
  | .opened _ .routerFwHelp => true
  | _ => false

/-- The windows handle a message. -/
def DialogEvent.IsMessage : DialogEvent → Prop
  | .message _ | .version _ => True
  | _ => False

/-- The notice quits the application when it is destroyed. -/
def Notice.forced : Notice → Bool
  | .routerFwHelp => false
  | .versionUpdate m => m.force

/-- The id of a `message_version`. -/
def VersionMsg.id (m : VersionMsg) : MsgId := if m.force then .versionForce else .version

namespace Dialogs

/-- `modal_dialog_guard::can_display`. -/
def canDisplay (s : Dialogs) : Bool := s.status ≠ .playing

/-- `modal_dialog_guard::display_if_possible`; a dialog that is there is not shown again. -/
def displayIfPossible (s : Dialogs) (d : Dialog) : Dialog × List DialogNews :=
  if s.canDisplay then ({ d with shown := true }, if d.shown then [] else [.shown d.number])
  else (d, [])

/-- The constructor, with which the dialog is watched, and `show_when_possible`. -/
def create (s : Dialogs) (notice : Notice) : Dialogs × List DialogNews :=
  let (d, news) := s.displayIfPossible { number := s.created, notice }
  ({ s with watched := s.watched ++ [d], created := s.created + 1 },
    .opened s.created notice :: news)

/-- The messages that tell the state of the DHT. -/
def dhtStates : List MsgId :=
  [.dhtConnecting, .dhtConnected, .dhtDisconnecting, .dhtDisconnected]

/-- `house::handle_dht_message`, but for the texts. -/
def handleDhtMessage (s : Dialogs) (id : MsgId) : Dialogs :=
  let s := if id ∈ dhtStates then { s with lastDhtStatusMessageId := id.code } else s
  if id = .dhtDisconnected then { s with dhtTimers := s.dhtTimers + 1 } else s

/-- The loop of `house_app::_handle_messenger` over the watched objects, of which the window of the
house is the first one. -/
def handleMessage (s : Dialogs) (id : MsgId) : Dialogs × List DialogNews :=
  let s := s.handleDhtMessage id
  ({ s with watched := s.watched.map fun d => (s.displayIfPossible d).1 },
    s.watched.flatMap fun d => (s.displayIfPossible d).2)

/-- `house::dht_disconnected`. -/
def dhtDisconnected (s : Dialogs) (noRouterFwHelp : Bool) : Dialogs × List DialogNews :=
  if s.lastDhtStatusMessageId ≠ MsgId.dhtDisconnected.code then (s, [])
  else if noRouterFwHelp then (s, [])
  else if !s.routerFwHelpShowed then
    let (s, news) := s.create .routerFwHelp
    ({ s with routerFwHelpShowed := true }, news)
  else (s, [])

/-- The dialog is the one that is closed; it has come up. -/
def closes (number : ℕ) (d : Dialog) : Bool := d.number = number && d.shown

/-- A dialog is closed and destroyed; `version_update::~version_update` may quit. -/
def close (s : Dialogs) (number : ℕ) : Dialogs × List DialogNews :=
  ({ s with watched := s.watched.filter fun d => !closes number d },
    (s.watched.filter (closes number)).flatMap fun d => if d.notice.forced then [.quit] else [])

/-- One event. -/
def step (s : Dialogs) : DialogEvent → Dialogs × List DialogNews
  | .message id => s.handleMessage id
  | .version m =>
    let (s, news) := s.handleMessage m.id
    let (s, news') := s.create (.versionUpdate m)
    (s, news ++ news')
  | .dhtTimer noRouterFwHelp =>
    match s.dhtTimers with
    | 0 => (s, [])
    | k + 1 => { s with dhtTimers := k : Dialogs }.dhtDisconnected noRouterFwHelp
  | .status st => ({ s with status := st }, [])
  | .close number => s.close number

/-- The dialogs as a machine. -/
def machine : Mealy Dialogs DialogEvent DialogNews := ⟨step⟩

/-! ## What the operations do -/

/-- A dialog that has just been created comes up at once, or waits. -/
theorem create_eq (s : Dialogs) (notice : Notice) :
    s.create notice =
      ({ s with
          watched := s.watched ++ [{ number := s.created, notice, shown := s.canDisplay }]
          created := s.created + 1 },
        .opened s.created notice :: if s.canDisplay then [.shown s.created] else []) := by
  cases hcan : s.canDisplay <;> simp [create, displayIfPossible, hcan]

/-- A dialog that is offered to come up. -/
def offered (s : Dialogs) (d : Dialog) : Dialog := { d with shown := d.shown || s.canDisplay }

/-- The numbers of the dialogs that come up when all are offered to. -/
def coming (s : Dialogs) : List ℕ :=
  (s.watched.filter fun d => s.canDisplay && !d.shown).map Dialog.number

/-- A message about the DHT leaves the dialogs alone. -/
theorem frame_handleDhtMessage (s : Dialogs) (id : MsgId) :
    (s.handleDhtMessage id).watched = s.watched ∧ (s.handleDhtMessage id).created = s.created ∧
      (s.handleDhtMessage id).status = s.status ∧
      (s.handleDhtMessage id).routerFwHelpShowed = s.routerFwHelpShowed := by
  unfold handleDhtMessage
  dsimp only
  split <;> split <;> exact ⟨rfl, rfl, rfl, rfl⟩

theorem handleMessage_eq (s : Dialogs) (id : MsgId) :
    s.handleMessage id =
      ({ s.handleDhtMessage id with watched := s.watched.map s.offered },
        s.coming.map .shown) := by
  obtain ⟨hwatched, -, hstatus, -⟩ := s.frame_handleDhtMessage id
  have hcan : (s.handleDhtMessage id).canDisplay = s.canDisplay := by
    rw [canDisplay, canDisplay, hstatus]
  have hfst : ∀ d, ((s.handleDhtMessage id).displayIfPossible d).1 = s.offered d := by
    intro d
    unfold displayIfPossible offered
    rw [hcan]
    cases s.canDisplay <;> simp
  have hsnd : ∀ d, ((s.handleDhtMessage id).displayIfPossible d).2 =
      if s.canDisplay && !d.shown then [.shown d.number] else [] := by
    intro d
    unfold displayIfPossible
    rw [hcan]
    cases s.canDisplay <;> cases d.shown <;> rfl
  rw [handleMessage]
  simp only [hwatched, hfst, hsnd, Prod.mk.injEq, true_and, coming, List.map_map]
  induction s.watched with
  | nil => rfl
  | cons d ds ih =>
    rw [List.flatMap_cons, ih, List.filter_cons]
    split <;> simp_all

theorem canDisplay_handleMessage (s : Dialogs) (id : MsgId) :
    (s.handleMessage id).1.canDisplay = s.canDisplay := by
  obtain ⟨-, -, hstatus, -⟩ := s.frame_handleDhtMessage id
  rw [handleMessage_eq]
  exact congrArg (fun st => decide (st ≠ Status.playing)) hstatus

theorem mem_coming {s : Dialogs} {n : ℕ} :
    n ∈ s.coming ↔ ∃ d ∈ s.watched, (s.canDisplay = true ∧ d.shown = false) ∧ d.number = n := by
  simp [coming, and_assoc]

/-- What the dialogs and the news of a run have in common. -/
structure Settled (s : Dialogs) (out : List DialogNews) : Prop where
  number : ∀ n k, .opened n k ∈ out → n < s.created
  opened : ∀ d ∈ s.watched, .opened d.number d.notice ∈ out
  shown : ∀ d ∈ s.watched, d.shown = true ↔ .shown d.number ∈ out
  shownOpened : ∀ n, .shown n ∈ out → ∃ k, .opened n k ∈ out
  watched : ∀ n k, .opened n k ∈ out → (∃ d ∈ s.watched, d.number = n ∧ d.notice = k) ∨
    .shown n ∈ out ∧ (k.forced = true → .quit ∈ out)
  once : (out.filterMap DialogNews.shown?).Nodup
  distinct : (s.watched.map Dialog.number).Nodup

theorem settled_init : Settled {} [] where
  number := by simp
  opened := by simp
  shown := by simp
  shownOpened := by simp
  watched := by simp
  once := List.nodup_nil
  distinct := List.nodup_nil

/-- The other fields do not matter. -/
theorem Settled.congr {s s' : Dialogs} {out : List DialogNews} (h : s.Settled out)
    (hcreated : s'.created = s.created) (hwatched : s'.watched = s.watched) : s'.Settled out where
  number := by rw [hcreated]; exact h.number
  opened := by rw [hwatched]; exact h.opened
  shown := by rw [hwatched]; exact h.shown
  shownOpened := h.shownOpened
  watched := by rw [hwatched]; exact h.watched
  once := h.once
  distinct := by rw [hwatched]; exact h.distinct

theorem mem_shown? {out : List DialogNews} {n : ℕ} :
    n ∈ out.filterMap DialogNews.shown? ↔ .shown n ∈ out := by
  rw [List.mem_filterMap]
  constructor
  · rintro ⟨o, ho, hn⟩
    cases o with
    | shown number =>
      cases hn
      exact ho
    | _ => cases hn
  · exact fun h => ⟨_, h, rfl⟩

/-- A dialog that is not there yet has not come up. -/
theorem Settled.not_shown {s : Dialogs} {out : List DialogNews} (h : s.Settled out) :
    DialogNews.shown s.created ∉ out := by
  intro hmem
  obtain ⟨k, hk⟩ := h.shownOpened _ hmem
  exact lt_irrefl _ (h.number _ _ hk)

theorem Settled.lt {s : Dialogs} {out : List DialogNews} (h : s.Settled out) {d : Dialog}
    (hd : d ∈ s.watched) : d.number < s.created := h.number _ _ (h.opened d hd)

theorem Settled.create {s : Dialogs} {out : List DialogNews} (h : s.Settled out)
    (notice : Notice) : (s.create notice).1.Settled (out ++ (s.create notice).2) := by
  rw [create_eq]
  set news : List DialogNews :=
    .opened s.created notice :: if s.canDisplay then [.shown s.created] else [] with hnews
  have hopened : ∀ n k, .opened n k ∈ out ++ news ↔
      .opened n k ∈ out ∨ n = s.created ∧ k = notice := by
    intro n k
    cases hcan : s.canDisplay <;> simp [hnews, hcan]
  have hshown : ∀ n, .shown n ∈ out ++ news ↔
      .shown n ∈ out ∨ s.canDisplay = true ∧ n = s.created := by
    intro n
    cases hcan : s.canDisplay <;> simp [hnews, hcan]
  constructor
  · intro n k hmem
    rcases (hopened n k).1 hmem with hmem | ⟨rfl, -⟩
    · exact Nat.lt_succ_of_lt (h.number n k hmem)
    · exact Nat.lt_succ_self _
  · intro d hd
    rw [hopened]
    rcases List.mem_append.1 hd with hd | hd
    · exact .inl (h.opened d hd)
    · rw [List.mem_singleton.1 hd]
      exact .inr ⟨rfl, rfl⟩
  · intro d hd
    rw [hshown]
    rcases List.mem_append.1 hd with hd | hd
    · have hne : d.number ≠ s.created := (h.lt hd).ne
      simp [h.shown d hd, hne]
    · rw [List.mem_singleton.1 hd]
      simp [h.not_shown]
  · intro n hmem
    simp only [hopened]
    rcases (hshown n).1 hmem with hmem | ⟨-, rfl⟩
    · obtain ⟨k, hk⟩ := h.shownOpened n hmem
      exact ⟨k, .inl hk⟩
    · exact ⟨notice, .inr ⟨rfl, rfl⟩⟩
  · intro n k hmem
    rcases (hopened n k).1 hmem with hmem | ⟨rfl, rfl⟩
    · rcases h.watched n k hmem with ⟨d, hd, hdk⟩ | ⟨hs, hq⟩
      · exact .inl ⟨d, List.mem_append_left _ hd, hdk⟩
      · exact .inr ⟨List.mem_append_left _ hs, fun hk => List.mem_append_left _ (hq hk)⟩
    · exact .inl ⟨_, List.mem_append_right _ (List.mem_singleton_self _), rfl, rfl⟩
  · have hnumbers : news.filterMap DialogNews.shown? =
        if s.canDisplay then [s.created] else [] := by
      cases hcan : s.canDisplay <;> simp only [hnews, hcan] <;> rfl
    rw [List.filterMap_append, hnumbers]
    split
    · refine List.nodup_append.2 ⟨h.once, List.nodup_singleton _, ?_⟩
      rintro n hn m hm rfl
      rw [List.mem_singleton.1 hm] at hn
      exact h.not_shown (mem_shown?.1 hn)
    · rw [List.append_nil]
      exact h.once
  · rw [List.map_append]
    refine List.nodup_append.2 ⟨h.distinct, List.nodup_singleton _, ?_⟩
    rintro n hn m hm rfl
    obtain ⟨d, hd, hnum⟩ := List.mem_map.1 hn
    have hlt := h.lt hd
    rw [hnum, List.mem_singleton.1 hm] at hlt
    exact lt_irrefl _ hlt

theorem Settled.handleMessage {s : Dialogs} {out : List DialogNews} (h : s.Settled out)
    (id : MsgId) : (s.handleMessage id).1.Settled (out ++ (s.handleMessage id).2) := by
  rw [handleMessage_eq]
  obtain ⟨-, hcreated, -, -⟩ := s.frame_handleDhtMessage id
  have hopened : ∀ n k, .opened n k ∈ out ++ s.coming.map .shown ↔ .opened n k ∈ out := by
    intro n k
    simp
  have hshown : ∀ n, .shown n ∈ out ++ s.coming.map .shown ↔ .shown n ∈ out ∨ n ∈ s.coming := by
    intro n
    simp
  constructor
  · intro n k hmem
    exact hcreated ▸ h.number n k ((hopened n k).1 hmem)
  · intro d' hd'
    obtain ⟨d, hd, rfl⟩ := List.mem_map.1 hd'
    exact List.mem_append_left _ (h.opened d hd)
  · intro d' hd'
    obtain ⟨d, hd, rfl⟩ := List.mem_map.1 hd'
    rw [hshown, mem_coming]
    show (d.shown || s.canDisplay) = true ↔ .shown d.number ∈ out ∨ _
    rw [← h.shown d hd, Bool.or_eq_true]
    refine ⟨fun hor => ?_, fun hor => hor.imp_right fun ⟨_, _, hcan, _⟩ => hcan.1⟩
    cases hd' : d.shown with
    | true => exact .inl rfl
    | false => exact .inr ⟨d, hd, ⟨hor.resolve_left (by simp [hd']), hd'⟩, rfl⟩
  · intro n hmem
    simp only [hopened]
    rcases (hshown n).1 hmem with hmem | hmem
    · exact h.shownOpened n hmem
    · obtain ⟨d, hd, -, rfl⟩ := mem_coming.1 hmem
      exact ⟨_, h.opened d hd⟩
  · intro n k hmem
    rcases h.watched n k ((hopened n k).1 hmem) with ⟨d, hd, hdk⟩ | ⟨hs, hq⟩
    · exact .inl ⟨s.offered d, List.mem_map_of_mem hd, hdk⟩
    · exact .inr ⟨List.mem_append_left _ hs, fun hk => List.mem_append_left _ (hq hk)⟩
  · have hnumbers : (s.coming.map DialogNews.shown).filterMap DialogNews.shown? = s.coming := by
      rw [List.filterMap_map]
      exact List.filterMap_some
    rw [List.filterMap_append, hnumbers]
    refine List.nodup_append.2 ⟨h.once, h.distinct.sublist (List.filter_sublist.map _), ?_⟩
    rintro n hn m hm rfl
    obtain ⟨d, hd, ⟨-, hwaits⟩, rfl⟩ := mem_coming.1 hm
    rw [(h.shown d hd).2 (mem_shown?.1 hn)] at hwaits
    cases hwaits
  · rw [List.map_map]
    exact h.distinct

theorem mem_close {s : Dialogs} {number : ℕ} {o : DialogNews} :
    o ∈ (s.close number).2 ↔
      o = .quit ∧ ∃ d ∈ s.watched, closes number d = true ∧ d.notice.forced = true := by
  simp only [close, List.mem_flatMap, List.mem_filter]
  constructor
  · rintro ⟨d, ⟨hd, hcloses⟩, ho⟩
    split at ho
    · rename_i hforced
      exact ⟨List.mem_singleton.1 ho, d, hd, hcloses, hforced⟩
    · cases ho
  · rintro ⟨rfl, d, hd, hcloses, hforced⟩
    exact ⟨d, ⟨hd, hcloses⟩, by rw [if_pos hforced]; exact List.mem_singleton_self _⟩

theorem Settled.close {s : Dialogs} {out : List DialogNews} (h : s.Settled out)
    (number : ℕ) : (s.close number).1.Settled (out ++ (s.close number).2) := by
  have hstays : ∀ d, d ∈ (s.close number).1.watched ↔
      d ∈ s.watched ∧ closes number d = false := by
    intro d
    simp [Dialogs.close]
  have hopened : ∀ n k, .opened n k ∈ out ++ (s.close number).2 ↔ .opened n k ∈ out := by
    intro n k
    simp [mem_close]
  have hshown : ∀ n, .shown n ∈ out ++ (s.close number).2 ↔ .shown n ∈ out := by
    intro n
    simp [mem_close]
  constructor
  · exact fun n k hmem => h.number n k ((hopened n k).1 hmem)
  · exact fun d hd => (hopened _ _).2 (h.opened d ((hstays d).1 hd).1)
  · exact fun d hd => (h.shown d ((hstays d).1 hd).1).trans (hshown _).symm
  · intro n hmem
    obtain ⟨k, hk⟩ := h.shownOpened n ((hshown n).1 hmem)
    exact ⟨k, (hopened n k).2 hk⟩
  · intro n k hmem
    rw [hshown]
    rcases h.watched n k ((hopened n k).1 hmem) with ⟨d, hd, rfl, rfl⟩ | ⟨hs, hq⟩
    · cases hcloses : closes number d with
      | false => exact .inl ⟨d, (hstays d).2 ⟨hd, hcloses⟩, rfl, rfl⟩
      | true =>
        have hup : d.shown = true := (Bool.and_eq_true_iff.1 hcloses).2
        refine .inr ⟨(h.shown d hd).1 hup, fun hforced => ?_⟩
        exact List.mem_append_right _ (mem_close.2 ⟨rfl, d, hd, hcloses, hforced⟩)
    · exact .inr ⟨hs, fun hk => List.mem_append_left _ (hq hk)⟩
  · have hnone : (s.close number).2.filterMap DialogNews.shown? = [] := by
      rw [List.filterMap_eq_nil_iff]
      intro o ho
      rw [(mem_close.1 ho).1]
      rfl
    rw [List.filterMap_append, hnone, List.append_nil]
    exact h.once
  · exact h.distinct.sublist (List.filter_sublist.map _)

theorem step_version (s : Dialogs) (m : VersionMsg) :
    s.step (.version m) = (((s.handleMessage m.id).1.create (.versionUpdate m)).1,
      (s.handleMessage m.id).2 ++ ((s.handleMessage m.id).1.create (.versionUpdate m)).2) := rfl

theorem settled_step (s : Dialogs) (out : List DialogNews) (e : DialogEvent)
    (h : s.Settled out) : (s.step e).1.Settled (out ++ (s.step e).2) := by
  have hsame : s.Settled (out ++ []) := by rwa [List.append_nil]
  cases e with
  | message id => exact h.handleMessage id
  | version m =>
    have hcreate := (h.handleMessage m.id).create (.versionUpdate m)
    rwa [List.append_assoc] at hcreate
  | dhtTimer noRouterFwHelp =>
    unfold step
    dsimp only
    split
    · exact hsame
    · rename_i k _
      have htimer : ({ s with dhtTimers := k } : Dialogs).Settled out := h.congr rfl rfl
      unfold dhtDisconnected
      dsimp only
      split
      · exact hsame.congr rfl rfl
      · split
        · exact hsame.congr rfl rfl
        · split
          · exact (htimer.create .routerFwHelp).congr rfl rfl
          · exact hsame.congr rfl rfl
  | status st => exact hsame.congr rfl rfl
  | close number => exact h.close number

theorem settled_exec (es : List DialogEvent) :
    (machine.exec {} es).Settled (machine.trace {} es) :=
  machine.invariant_trace settled_step settled_init es

/-! ## When a dialog comes up -/

/-- After a message that finds the user not playing every dialog has come up. -/
theorem shown_of_message {s : Dialogs} (hcan : s.canDisplay = true) {e : DialogEvent}
    (he : e.IsMessage) : ∀ d ∈ (s.step e).1.watched, d.shown = true := by
  have hall : ∀ id, ∀ d ∈ (s.handleMessage id).1.watched, d.shown = true := by
    intro id d' hd'
    rw [handleMessage_eq] at hd'
    obtain ⟨d, -, rfl⟩ := List.mem_map.1 hd'
    simp [offered, hcan]
  cases e with
  | message id => exact hall id
  | version m =>
    intro d hd
    rw [step_version, create_eq, canDisplay_handleMessage] at hd
    rcases List.mem_append.1 hd with hd | hd
    · exact hall _ d hd
    · rw [List.mem_singleton.1 hd]
      exact hcan
  | _ => exact he.elim

/-- The timer opens the help, unless it has been opened. -/
def HelpDue (s : Dialogs) : DialogEvent → Prop
  | .dhtTimer noRouterFwHelp =>
    0 < s.dhtTimers ∧ s.lastDhtStatusMessageId = MsgId.dhtDisconnected.code ∧ noRouterFwHelp = false
  | _ => False

theorem step_dhtTimer (s : Dialogs) (noRouterFwHelp : Bool) :
    s.HelpDue (.dhtTimer noRouterFwHelp) ∧ s.routerFwHelpShowed = false ∧
        (s.step (.dhtTimer noRouterFwHelp)).2 = (s.create .routerFwHelp).2 ∧
        (s.step (.dhtTimer noRouterFwHelp)).1.routerFwHelpShowed = true ∨
      (s.HelpDue (.dhtTimer noRouterFwHelp) → s.routerFwHelpShowed = true) ∧
        (s.step (.dhtTimer noRouterFwHelp)).2 = [] ∧
        (s.step (.dhtTimer noRouterFwHelp)).1.routerFwHelpShowed = s.routerFwHelpShowed := by
  unfold step HelpDue
  dsimp only
  split
  · rename_i htimers
    exact .inr ⟨fun h => absurd h.1 (by omega), rfl, rfl⟩
  · rename_i k htimers
    unfold dhtDisconnected
    dsimp only
    split
    · rename_i hlast
      exact .inr ⟨fun h => absurd h.2.1 hlast, rfl, rfl⟩
    · rename_i hlast
      split
      · rename_i hconf
        exact .inr ⟨fun h => by simp [h.2.2] at hconf, rfl, rfl⟩
      · rename_i hconf
        split
        · rename_i hshowed
          refine .inl ⟨⟨by omega, not_not.1 hlast, by simpa using hconf⟩, by simpa using hshowed,
            ?_, rfl⟩
          rw [create_eq, create_eq]
          rfl
        · rename_i hshowed
          exact .inr ⟨fun _ => by simpa using hshowed, rfl, rfl⟩

theorem shown_mem_create {s : Dialogs} {notice : Notice} {n : ℕ} :
    .shown n ∈ (s.create notice).2 ↔ s.canDisplay = true ∧ n = s.created := by
  rw [create_eq]
  cases s.canDisplay <;> simp

theorem opened_mem_create {s : Dialogs} {notice k : Notice} {n : ℕ} :
    .opened n k ∈ (s.create notice).2 ↔ n = s.created ∧ k = notice := by
  rw [create_eq]
  cases s.canDisplay <;> simp

theorem shown_mem_handleMessage {s : Dialogs} {id : MsgId} {n : ℕ} :
    .shown n ∈ (s.handleMessage id).2 ↔ n ∈ s.coming := by
  rw [handleMessage_eq]
  simp

theorem opened_not_mem_handleMessage {s : Dialogs} {id : MsgId} {n : ℕ} {k : Notice} :
    .opened n k ∉ (s.handleMessage id).2 := by
  rw [handleMessage_eq]
  simp

/-- What comes up in a step was there when a message was handled, or has just been created. -/
theorem of_shown_step {s : Dialogs} {e : DialogEvent} {n : ℕ} (h : .shown n ∈ (s.step e).2) :
    s.canDisplay = true ∧
      ((∃ k, .opened n k ∈ (s.step e).2) ∨ e.IsMessage ∧ ∃ d ∈ s.watched, d.number = n) := by
  cases e with
  | message id =>
    obtain ⟨d, hd, ⟨hcan, -⟩, hnum⟩ := mem_coming.1 (shown_mem_handleMessage.1 h)
    exact ⟨hcan, .inr ⟨trivial, d, hd, hnum⟩⟩
  | version m =>
    rw [step_version] at h ⊢
    rcases List.mem_append.1 h with h | h
    · obtain ⟨d, hd, ⟨hcan, -⟩, hnum⟩ := mem_coming.1 (shown_mem_handleMessage.1 h)
      exact ⟨hcan, .inr ⟨trivial, d, hd, hnum⟩⟩
    · obtain ⟨hcan, rfl⟩ := shown_mem_create.1 h
      rw [canDisplay_handleMessage] at hcan
      exact ⟨hcan, .inl ⟨_, List.mem_append_right _ (opened_mem_create.2 ⟨rfl, rfl⟩)⟩⟩
  | dhtTimer noRouterFwHelp =>
    rcases s.step_dhtTimer noRouterFwHelp with ⟨-, -, hnews, -⟩ | ⟨-, hnews, -⟩
    · rw [hnews] at h ⊢
      obtain ⟨hcan, rfl⟩ := shown_mem_create.1 h
      exact ⟨hcan, .inl ⟨_, opened_mem_create.2 ⟨rfl, rfl⟩⟩⟩
    · rw [hnews] at h
      cases h
  | status st => cases h
  | close number => cases (mem_close.1 h).1

/-- What is created while the user is not playing comes up at once. -/
theorem shown_of_opened {s : Dialogs} (hcan : s.canDisplay = true) {e : DialogEvent} {n : ℕ}
    {k : Notice} (h : .opened n k ∈ (s.step e).2) : .shown n ∈ (s.step e).2 := by
  cases e with
  | message id => exact absurd h opened_not_mem_handleMessage
  | version m =>
    rw [step_version] at h ⊢
    obtain ⟨rfl, -⟩ := opened_mem_create.1
      ((List.mem_append.1 h).resolve_left opened_not_mem_handleMessage)
    refine List.mem_append_right _ (shown_mem_create.2 ⟨?_, rfl⟩)
    rwa [canDisplay_handleMessage]
  | dhtTimer noRouterFwHelp =>
    rcases s.step_dhtTimer noRouterFwHelp with ⟨-, -, hnews, -⟩ | ⟨-, hnews, -⟩
    · rw [hnews] at h ⊢
      exact shown_mem_create.2 ⟨hcan, (opened_mem_create.1 h).1⟩
    · rw [hnews] at h
      cases h
  | status st => cases h
  | close number => cases (mem_close.1 h).1

/-- **Dialogs wait for the end of a game.** No dialog comes up twice, and a dialog comes up in a run
exactly when the user is not playing when it is created, or when some later message is handled. -/
theorem comes_up_iff (es : List DialogEvent) :
    ((machine.trace {} es).filterMap DialogNews.shown?).Nodup ∧
      ∀ n, .shown n ∈ machine.trace {} es ↔
        ∃ p e, p ++ [e] <+: es ∧ (machine.exec {} p).status ≠ .playing ∧
          ((∃ k, .opened n k ∈ ((machine.exec {} p).step e).2) ∨
            e.IsMessage ∧ ∃ k, .opened n k ∈ machine.trace {} p) := by
  refine ⟨(settled_exec es).once, fun n => ⟨fun h => ?_, ?_⟩⟩
  · obtain ⟨p, e, hp, hshown⟩ := machine.mem_trace_iff.1 h
    obtain ⟨hcan, hcase⟩ := of_shown_step hshown
    refine ⟨p, e, hp, by simpa [canDisplay] using hcan, hcase.imp_right (And.imp_right ?_)⟩
    rintro ⟨d, hd, rfl⟩
    exact ⟨_, (settled_exec p).opened d hd⟩
  · rintro ⟨p, e, hp, hstatus, hcase⟩
    have hcan : (machine.exec {} p).canDisplay = true := by simpa [canDisplay] using hstatus
    rcases hcase with ⟨k, hk⟩ | ⟨hmsg, k, hk⟩
    · exact machine.mem_trace_iff.2 ⟨p, e, hp, shown_of_opened hcan hk⟩
    · have hsettled := settled_exec (p ++ [e])
      have hopened : .opened n k ∈ machine.trace {} (p ++ [e]) :=
        (machine.trace_initial {} (List.prefix_append p [e])).subset hk
      refine (machine.trace_initial {} hp).subset ?_
      rcases hsettled.watched n k hopened with ⟨d, hd, rfl, -⟩ | ⟨hs, -⟩
      · refine (hsettled.shown d hd).1 (shown_of_message hcan hmsg d ?_)
        rwa [Mealy.exec_concat] at hd
      · exact hs

/-! ## When the application quits -/

/-- Only the closing of a dialog quits. -/
theorem of_quit_step {s : Dialogs} {e : DialogEvent} (h : .quit ∈ (s.step e).2) :
    ∃ number, e = .close number ∧
      ∃ d ∈ s.watched, closes number d = true ∧ d.notice.forced = true := by
  have hcreate : ∀ (s : Dialogs) (k : Notice), .quit ∉ (s.create k).2 := by
    intro s k
    rw [create_eq]
    cases s.canDisplay <;> simp
  have hmessage : ∀ id, .quit ∉ (s.handleMessage id).2 := by
    intro id
    rw [handleMessage_eq]
    simp
  cases e with
  | message id => exact absurd h (hmessage id)
  | version m => exact ((List.mem_append.1 h).elim (hmessage _) (hcreate _ _)).elim
  | dhtTimer noRouterFwHelp =>
    rcases s.step_dhtTimer noRouterFwHelp with ⟨-, -, hnews, -⟩ | ⟨-, hnews, -⟩
    · rw [hnews] at h
      exact absurd h (hcreate _ _)
    · rw [hnews] at h
      cases h
  | status st => cases h
  | close number => exact ⟨number, rfl, (mem_close.1 h).2⟩

theorem forced_iff {k : Notice} : k.forced = true ↔ ∃ m, k = .versionUpdate m ∧ m.force = true := by
  cases k with
  | routerFwHelp => simp [Notice.forced]
  | versionUpdate m => simp [Notice.forced]

/-- **A forced version.** The application is quit by a dialog exactly when a notice of a version
that has to be installed has come up and is closed. -/
theorem quit_iff (es : List DialogEvent) :
    .quit ∈ machine.trace {} es ↔
      ∃ p number m, p ++ [.close number] <+: es ∧ m.force = true ∧
        .opened number (.versionUpdate m) ∈ machine.trace {} p ∧
        .shown number ∈ machine.trace {} p := by
  constructor
  · intro h
    obtain ⟨p, e, hp, hquit⟩ := machine.mem_trace_iff.1 h
    obtain ⟨number, rfl, d, hd, hcloses, hforced⟩ := of_quit_step hquit
    obtain ⟨hnumber, hup⟩ := Bool.and_eq_true_iff.1 hcloses
    obtain ⟨m, hm, hforce⟩ := forced_iff.1 hforced
    obtain rfl := of_decide_eq_true hnumber
    have hsettled := settled_exec p
    exact ⟨p, d.number, m, hp, hforce, hm ▸ hsettled.opened d hd, (hsettled.shown d hd).1 hup⟩
  · rintro ⟨p, number, m, hp, hforce, hopened, hshown⟩
    have hsettled := settled_exec p
    rcases hsettled.watched _ _ hopened with ⟨d, hd, rfl, hk⟩ | ⟨-, hquit⟩
    · refine machine.mem_trace_iff.2 ⟨p, _, hp, mem_close.2 ⟨rfl, d, hd, ?_, ?_⟩⟩
      · exact Bool.and_eq_true_iff.2 ⟨decide_eq_true rfl, (hsettled.shown d hd).2 hshown⟩
      · exact forced_iff.2 ⟨m, hk, hforce⟩
    · have hpre : p <+: es := (List.prefix_append p _).trans hp
      exact (machine.trace_initial {} hpre).subset (hquit hforce)

/-- A version that has to be installed is announced during a game: the notice comes up with the
first message after it, and the application goes when it is closed. -/
example :
    machine.trace {} [.status .playing, .version { force := true }, .message .room,
      .status .chatting, .message .room, .close 0] =
      [.opened 0 (.versionUpdate { force := true }), .shown 0, .quit] := by decide

/-! ## When the help is created -/

/-- The state of the DHT that a message tells. -/
def dhtState : DialogEvent → Option MsgId
  | .message id => if id ∈ dhtStates then some id else none
  | _ => none

theorem lastDht_create (s : Dialogs) (k : Notice) :
    (s.create k).1.lastDhtStatusMessageId = s.lastDhtStatusMessageId := by rw [create_eq]

theorem lastDht_handleMessage (s : Dialogs) (id : MsgId) :
    (s.handleMessage id).1.lastDhtStatusMessageId =
      if id ∈ dhtStates then id.code else s.lastDhtStatusMessageId := by
  rw [handleMessage_eq]
  dsimp only [handleDhtMessage]
  split <;> split <;> rfl

theorem lastDht_step (s : Dialogs) (e : DialogEvent) :
    (s.step e).1.lastDhtStatusMessageId =
      ((dhtState e).map MsgId.code).getD s.lastDhtStatusMessageId := by
  cases e with
  | message id =>
    refine (s.lastDht_handleMessage id).trans ?_
    unfold dhtState
    dsimp only
    split <;> rfl
  | version m =>
    have hid : m.id ∉ dhtStates := by
      unfold VersionMsg.id
      split <;> decide
    rw [step_version, lastDht_create, lastDht_handleMessage, if_neg hid]
    rfl
  | dhtTimer noRouterFwHelp =>
    unfold step
    dsimp only
    split
    · rfl
    · unfold dhtDisconnected
      dsimp only
      split
      · rfl
      · split
        · rfl
        · split
          · exact lastDht_create _ .routerFwHelp
          · rfl
  | status st => rfl
  | close number => rfl

/-- The window remembers the state of the DHT that it was told last. -/
theorem lastDht_exec (es : List DialogEvent) :
    (machine.exec {} es).lastDhtStatusMessageId =
      ((es.filterMap dhtState).getLast?.map MsgId.code).getD 0 := by
  induction es using List.reverseRecOn with
  | nil => rfl
  | append_singleton es e ih =>
    have hstep := lastDht_step (machine.exec {} es) e
    rw [Mealy.exec_concat, List.filterMap_append, List.getLast?_append]
    refine hstep.trans ?_
    cases hstate : dhtState e with
    | none => simp [hstate, ih]
    | some id => simp [hstate]

theorem code_eq_dhtDisconnected_iff {id : MsgId} :
    id.code = MsgId.dhtDisconnected.code ↔ id = .dhtDisconnected := by
  cases id <;> decide

theorem lastDht_eq_iff (es : List DialogEvent) :
    (machine.exec {} es).lastDhtStatusMessageId = MsgId.dhtDisconnected.code ↔
      (es.filterMap dhtState).getLast? = some .dhtDisconnected := by
  rw [lastDht_exec]
  cases (es.filterMap dhtState).getLast? with
  | none => decide
  | some id => simpa using code_eq_dhtDisconnected_iff

theorem countP_create (s : Dialogs) (k : Notice) :
    (s.create k).2.countP DialogNews.isHelp = if k = .routerFwHelp then 1 else 0 := by
  rw [create_eq]
  cases s.canDisplay <;> cases k <;> rfl

theorem countP_handleMessage (s : Dialogs) (id : MsgId) :
    (s.handleMessage id).2.countP DialogNews.isHelp = 0 := by
  rw [handleMessage_eq, List.countP_eq_zero]
  intro o ho
  obtain ⟨n, -, rfl⟩ := List.mem_map.1 ho
  exact Bool.false_ne_true

theorem showed_handleMessage (s : Dialogs) (id : MsgId) :
    (s.handleMessage id).1.routerFwHelpShowed = s.routerFwHelpShowed := by
  rw [handleMessage_eq]
  exact (s.frame_handleDhtMessage id).2.2.2

/-- What a step does to the help. -/
theorem help_step (s : Dialogs) (e : DialogEvent) :
    ((s.step e).1.routerFwHelpShowed = true ↔ s.routerFwHelpShowed = true ∨ s.HelpDue e) ∧
      s.routerFwHelpShowed.toNat + (s.step e).2.countP DialogNews.isHelp =
        (s.step e).1.routerFwHelpShowed.toNat := by
  cases e with
  | message id =>
    rw [step, showed_handleMessage, countP_handleMessage]
    exact ⟨(or_iff_left not_false).symm, rfl⟩
  | version m =>
    have hshowed : (s.step (.version m)).1.routerFwHelpShowed = s.routerFwHelpShowed := by
      rw [step_version, create_eq]
      exact s.showed_handleMessage m.id
    rw [hshowed, step_version, List.countP_append, countP_handleMessage, countP_create]
    exact ⟨(or_iff_left not_false).symm, rfl⟩
  | dhtTimer noRouterFwHelp =>
    rcases s.step_dhtTimer noRouterFwHelp with ⟨hdue, hold, hnews, hshowed⟩ | ⟨hdue, hnews, hshowed⟩
    · rw [hnews, hshowed, hold, countP_create]
      exact ⟨iff_of_true rfl (.inr hdue), rfl⟩
    · rw [hnews, hshowed]
      exact ⟨(or_iff_left_of_imp hdue).symm, rfl⟩
  | status st => exact ⟨(or_iff_left not_false).symm, rfl⟩
  | close number =>
    have hnone : (s.close number).2.countP DialogNews.isHelp = 0 := by
      rw [List.countP_eq_zero]
      intro o ho
      rw [(mem_close.1 ho).1]
      exact Bool.false_ne_true
    rw [step, hnone]
    exact ⟨(or_iff_left not_false).symm, rfl⟩

/-- The flag of the window tells how often the help has been created. -/
theorem countP_trace (es : List DialogEvent) :
    (machine.trace {} es).countP DialogNews.isHelp =
      (machine.exec {} es).routerFwHelpShowed.toNat :=
  machine.invariant_trace (R := fun s out => out.countP DialogNews.isHelp = s.routerFwHelpShowed.toNat)
    (fun s out e h => by rw [List.countP_append, h]; exact (help_step s e).2) rfl es

theorem showed_exec (es : List DialogEvent) :
    (machine.exec {} es).routerFwHelpShowed = true ↔
      ∃ p e, p ++ [e] <+: es ∧ (machine.exec {} p).HelpDue e := by
  induction es using List.reverseRecOn with
  | nil => simp
  | append_singleton es e ih =>
    rw [Mealy.exec_concat]
    refine (help_step (machine.exec {} es) e).1.trans ?_
    rw [ih]
    constructor
    · rintro (⟨p, f, hp, hdue⟩ | hdue)
      · exact ⟨p, f, hp.trans (List.prefix_append _ _), hdue⟩
      · exact ⟨es, e, List.prefix_refl _, hdue⟩
    · rintro ⟨p, f, hp, hdue⟩
      rcases List.prefix_concat_iff.1 hp with heq | hp
      · obtain ⟨rfl, hf⟩ := List.append_inj' heq rfl
        cases hf
        exact .inr hdue
      · exact .inl ⟨p, f, hp, hdue⟩

/-- **The help.** It is created once at most, and exactly when a timer fires that finds no better
news of the DHT than that it is disconnected. -/
theorem help_iff (es : List DialogEvent) :
    (machine.trace {} es).countP DialogNews.isHelp ≤ 1 ∧
      ((∃ number, .opened number .routerFwHelp ∈ machine.trace {} es) ↔
        ∃ p, p ++ [.dhtTimer false] <+: es ∧ 0 < (machine.exec {} p).dhtTimers ∧
          (p.filterMap dhtState).getLast? = some .dhtDisconnected) := by
  have hcount := countP_trace es
  refine ⟨hcount ▸ Bool.toNat_le _, ?_⟩
  have hflag : (∃ number, .opened number .routerFwHelp ∈ machine.trace {} es) ↔
      (machine.exec {} es).routerFwHelpShowed = true := by
    have hpos : 0 < (machine.exec {} es).routerFwHelpShowed.toNat ↔
        (machine.exec {} es).routerFwHelpShowed = true := by
      cases (machine.exec {} es).routerFwHelpShowed <;> decide
    rw [← hpos, ← hcount, List.countP_pos_iff]
    constructor
    · rintro ⟨number, h⟩
      exact ⟨_, h, rfl⟩
    · rintro ⟨o, ho, hhelp⟩
      match o, hhelp with
      | .opened number .routerFwHelp, _ => exact ⟨number, ho⟩
  rw [hflag, showed_exec]
  simp only [← lastDht_eq_iff]
  constructor
  · rintro ⟨p, e, hp, hdue⟩
    cases e with
    | dhtTimer noRouterFwHelp =>
      obtain ⟨htimers, hlast, rfl⟩ := hdue
      exact ⟨p, hp, htimers, hlast⟩
    | _ => exact hdue.elim
  · rintro ⟨p, hp, htimers, hlast⟩
    exact ⟨p, _, hp, htimers, hlast, rfl⟩

end Dialogs

end RvHouse
