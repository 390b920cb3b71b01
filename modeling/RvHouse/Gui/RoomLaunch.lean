import RvHouse.Executable.Launcher
import RvHouse.Gui.CommandLine
import RvHouse.Gui.RoomWindow
import RvHouse.Gui.UsersView
import RvHouse.MultiFeed.Values

/-!
# Starting the game

`room::launch_rv`, from the button of the room window or five seconds after the host's command. It
sets the command line of the game, starts it and shows a box; only when the box is closed does it go
on, tell the others that the user is back, and put the command line back. While the box is open its
event loop takes in messages and timers, so a second `launch_rv` may run inside the first.
`RoomLaunch` keeps what is still to be done as a stack (`frames`).

* `commandLine_iff`: the command line is put back, unless one that cannot be read was there;
* `playing_told_iff_guarded`: the others are told that the user plays just while a box about the
  game is open, in the runs in which no such box is closed above another one and the user does not
  set the status by hand, and in no others;
* `quiet`: while a box is open, other than the box that says that it is too late to join, no message
  closes the window or starts the game; a host goes on telling its address to users who are new in
  the room.

The launcher and the boxes answer as they like; what else the client does is in the messages and in
`selfChanged`. The box that says that it is too late does not set `_running_modal`, so that a message
can close the window under it. The window is then deleted with its box; what the `launch_rv` that
waits for the box does afterwards is undefined, and the model lets it go on. The lines that the
window writes into its chat are left out.
-/

namespace RvHouse

/-- The boxes of `launch_rv`. -/
inductive RoomBox where
  /-- `_launched_display`. -/
  | launched
  /-- `_launcher_error`. -/
  | error
  | tooLate
deriving DecidableEq

/-- What is done once a box is closed. -/
structure LaunchFrame where
  box : RoomBox
  /-- What the guard of `_running_modal` puts back, if there is one. -/
  modal : Option Bool
  /-- What the destructor of the builder puts back, if it does. -/
  cmdLine : Option (List UInt8)
deriving DecidableEq

/-- What the window does. -/
inductive RoomLaunchAct where
  | startHost (rvgl : Bool)
  | startClient (rvgl : Bool) (hostId : String)
  | box (topic content : String) (args : List String)
  | close
  /-- A `send_notification` for a user, with its text given as that of a box. -/
  | notify (text : String) (args : List String) (uid : UserKey) (channel : String) (seq : UInt32)
  | send (m : Message)
deriving DecidableEq

/-- `window::room` as it starts the game, with the variables of the application that it uses. -/
structure RoomLaunch where
  window : RoomWindow
  /-- `_users_view`. -/
  usersView : UsersView := {}
  hosting : Bool
  /-- Whether `_action_launch` is enabled. -/
  launchEnabled : Bool
  self : SelfModel
  house : ModelHouse
  cmdLine : CommandLine
  /-- What is still to be done for the open boxes, the innermost first. -/
  frames : List LaunchFrame := []
  /-- The timers that end in `launch_rv`. -/
  timers : ℕ := 0
  closed : Bool := false
  /-- `last_change` of `house::_change_user_status`. -/
  lastChange : Int := 0

/-- What happens to the window. -/
inductive RoomLaunchEvent where
  /-- A message that the filter lets through; `hm` is the model when it has taken the message in, and
  `hmp` the one before. The preference `general/send_ip` is `sendIp`. -/
  | message (hmp hm : ModelHouse) (m : Message) (sendIp : Bool)
  /-- The user clicks on the launch button; `ret` is the answer of the launcher. -/
  | button (p : LaunchPrefs) (ret : Option LaunchError) (now : Int)
  /-- One of the timers. -/
  | timer (p : LaunchPrefs) (ret : Option LaunchError) (now : Int)
  /-- The user closes the innermost box. -/
  | closeBox (now : Int)
  /-- The user closes the window. -/
  | closeWindow
  /-- The user sets the status by the menu of the main window. -/
  | changeUserStatus (status : Status) (now : Int)
  /-- The own user changes in some other way; its status does not. -/
  | selfChanged (self : SelfModel)

/-- `room::_playing_host`. -/
def ModelHouse.playingHost (hm : ModelHouse) (rid : String) : Option User :=
  hm.groups.toList.findSome? fun g => do
    let ri ← g.2.house.roomFind rid
    let host ← g.2.userFind ri.ownerId
    guard (host.status = .playing)
    return host

namespace RoomLaunch

-- What `ip_as_string` gives for the own user, which has no node.
variable (ownIp : String)

/-- The window at the end of `room::room`. -/
def init (self : SelfModel) (house : ModelHouse) (cmdLine : CommandLine) (rid : String)
    (lastChange : Int) : RoomLaunch where
  window := .init house rid
  usersView := .ofRoom house rid
  hosting := decide (rid = self.hostingRoom.id)
  launchEnabled := decide (rid = self.hostingRoom.id) || (house.playingHost rid).isSome
  self
  house
  cmdLine
  lastChange

/-- `user.status(status)` and `user_send`. -/
def tellStatus (s : RoomLaunch) (status : Status) (now : Int) : RoomLaunch × List RoomLaunchAct :=
  let (msg, self) :=
    { s.self with user := s.self.user.setStatus status now : SelfModel }.userAsMessage
  ({ s with self }, [.send msg])

/-- A box is opened in a `launch_rv` that is to put `kept` back. -/
def openBox (s : RoomLaunch) (box : RoomBox) (kept : Option (List UInt8)) : RoomLaunch :=
  if box = .tooLate then { s with frames := ⟨box, none, kept⟩ :: s.frames }
  else
    { s with
      window := { s.window with runningModal := true }
      frames := ⟨box, some s.window.runningModal, kept⟩ :: s.frames }

/-- `launch_rv` ends without a box. -/
def endLaunch (s : RoomLaunch) (kept : Option (List UInt8)) : RoomLaunch :=
  { s with cmdLine := registry.leave s.cmdLine kept }

/-- `room::_launcher_error`. -/
def launcherError (s : RoomLaunch) (err : LaunchError) (kept : Option (List UInt8)) :
    RoomLaunch × List RoomLaunchAct :=
  let content := if err = .appNotFound then "rv_launch/not_found" else "rv_launch/other"
  (s.openBox .error kept, [.box "rv_launch/title" content []])

/-- `room::_launched_display`, up to the box. -/
def launchedDisplay (s : RoomLaunch) (now : Int) (kept : Option (List UInt8)) :
    RoomLaunch × List RoomLaunchAct :=
  let (s, acts) := s.tellStatus .playing now
  (s.openBox .launched kept, acts ++ [.box "rv_launch/title" "rv_launch/text" []])

/-- `room::_launch_host`. -/
def launchHost (s : RoomLaunch) (p : LaunchPrefs) (ret : Option LaunchError) (now : Int)
    (kept : Option (List UInt8)) : RoomLaunch × List RoomLaunchAct :=
  let start := if p.noLaunch then [] else [.startHost (p.roomVersion && p.roomVersionRvgl)]
  match if p.noLaunch then none else ret with
  | some err =>
    let (s, acts) := s.launcherError err kept
    (s, start ++ acts)
  | none =>
    let (seq, self) := s.self.sequence
    let msg := Message.ofRoomCommand .roomLaunch s.window.roomId {} self.user.id seq 0
    let (s, acts) := { s with self }.launchedDisplay now kept
    (s, start ++ .send msg :: acts)

/-- `room::_launch_join`. -/
def launchJoin (s : RoomLaunch) (host : User) (p : LaunchPrefs) (ret : Option LaunchError)
    (now : Int) (kept : Option (List UInt8)) : RoomLaunch × List RoomLaunchAct :=
  if p.noLaunch then s.launchedDisplay now kept
  else
    match s.house.roomFind s.window.roomId with
    | none => (s.endLaunch kept, [])
    | some ri =>
      let ip := String.ofList host.ipAsString
      let start := RoomLaunchAct.startClient ri.versionRvgl
        (if ri.versionRvgl ∧ ownIp = ip then "0" else ip)
      let (s, acts) :=
        match ret with
        | some err => s.launcherError err kept
        | none => s.launchedDisplay now kept
      (s, start :: acts)

/-- `room::launch_rv`, up to its box. -/
def launchRv (s : RoomLaunch) (p : LaunchPrefs) (ret : Option LaunchError) (now : Int) :
    RoomLaunch × List RoomLaunchAct :=
  let kept := if p.builder.isSetCmdline then some (registry.read s.cmdLine) else none
  let s :=
    if p.builder.isSetCmdline then
      { s with cmdLine := registry.write s.cmdLine p.builder.cmdline }
    else s
  if s.window.roomId = s.self.hostingRoom.id then s.launchHost p ret now kept
  else
    match s.house.playingHost s.window.roomId with
    | none => (s.endLaunch kept, [])
    | some host =>
      if now - host.statusTime > p.rejoinTime then
        (s.openBox .tooLate kept,
          [.box "room_win/join_too_late_title" "room_win/join_too_late"
            [toString (p.rejoinTime.tdiv 60)]])
      else s.launchJoin ownIp host p ret now kept

/-- The innermost box is closed, and its `launch_rv` goes on. -/
def closeBox (s : RoomLaunch) (now : Int) : RoomLaunch × List RoomLaunchAct :=
  match s.frames with
  | [] => (s, [])
  | f :: frames =>
    let (s, acts) := if f.box = .launched then s.tellStatus .chatting now else (s, [])
    ({ s with
        frames
        window := { s.window with runningModal := f.modal.getD s.window.runningModal }
        cmdLine := registry.leave s.cmdLine f.cmdLine },
      acts)

/-- `house::_change_user_status`, which a box keeps the user from. -/
def changeUserStatus (s : RoomLaunch) (status : Status) (now : Int) :
    RoomLaunch × List RoomLaunchAct :=
  if s.frames ≠ [] ∨ now - s.lastChange < 1 ∨ status = s.self.user.status then (s, [])
  else { s with lastChange := now }.tellStatus status now

/-- `room::user_added`: the host tells a user who is new in the room its address. -/
def userAdded (s : RoomLaunch) (sendIp : Bool) (u : User) : RoomLaunch × List RoomLaunchAct :=
  if s.hosting ∧ sendIp ∧ u.id.idStr ≠ s.self.user.id.idStr then
    let externalIp := if ownIp = "" then "<undetected>" else ownIp
    let (seq, self) := s.self.sequence
    ({ s with self }, [.notify "chat/host_ip" [externalIp] u.id s.window.roomId seq])
  else (s, [])

/-- The calls of `user_added` on one message. -/
def usersAdded (sendIp : Bool) : RoomLaunch → List User → RoomLaunch × List RoomLaunchAct
  | s, [] => (s, [])
  | s, u :: us =>
    let (s, acts) := s.userAdded ownIp sendIp u
    let (s, acts') := usersAdded sendIp s us
    (s, acts ++ acts')

/-- `room::handle_message`, with `_buttons_state`. -/
def handleMessage (s : RoomLaunch) (hmp hm : ModelHouse) (m : Message) (sendIp : Bool) :
    RoomLaunch × List RoomLaunchAct :=
  let s := { s with house := hm }
  if s.closed then (s, [])
  else
    match s.usersView.handleMessage hmp hm m with
    | none => (s, [])
    | some usersView =>
      let (s, told) :=
        { s with usersView }.usersAdded ownIp sendIp (s.usersView.addedOn hmp hm m)
      match s.window.handleMessage s.self hm m with
      | none => (s, told)
      | some acts =>
        if .close ∈ acts then ({ s with closed := true, timers := 0 }, told ++ [.close])
        else
          let ours := m.id = .user ∧ m.body.asUser.any (·.roomId = s.window.roomId)
          ({ s with
              timers := s.timers + acts.count .launchTimer
              launchEnabled :=
                if ours ∧ ¬ s.hosting then (hm.playingHost s.window.roomId).isSome
                else s.launchEnabled },
            told)

/-- One event. -/
def step (s : RoomLaunch) : RoomLaunchEvent → RoomLaunch × List RoomLaunchAct
  | .message hmp hm m sendIp => s.handleMessage ownIp hmp hm m sendIp
  | .button p ret now =>
    if s.closed ∨ s.frames ≠ [] ∨ ¬ s.launchEnabled then (s, [])
    else s.launchRv ownIp p ret now
  | .timer p ret now =>
    match s.timers with
    | 0 => (s, [])
    | k + 1 => { s with timers := k }.launchRv ownIp p ret now
  | .closeBox now => s.closeBox now
  | .closeWindow =>
    if s.frames ≠ [] then (s, []) else ({ s with closed := true, timers := 0 }, [])
  | .changeUserStatus status now => s.changeUserStatus status now
  | .selfChanged self =>
    ({ s with self := { self with user := { self.user with status := s.self.user.status } } }, [])

/-- The window as a machine. -/
def machine : Mealy RoomLaunch RoomLaunchEvent RoomLaunchAct := ⟨step ownIp⟩

/-! ## What the others are told -/

/-- The status that the others know after an act. -/
def hear (status : Status) : RoomLaunchAct → Status
  | .send m => (m.body.asUser.map (·.status)).getD status
  | _ => status

/-- The status that the others know after the acts of a run, the one before being known. -/
def told (status : Status) (acts : List RoomLaunchAct) : Status := acts.foldl hear status

/-! ## One launch -/

/-- What a `launch_rv` that is to put `kept` back makes of `s`, and the box that it opens. -/
structure Ends (s : RoomLaunch) (kept : Option (List UInt8)) (r : RoomLaunch × List RoomLaunchAct)
    (box : Option RoomBox) : Prop where
  frames : r.1.frames = (box.map fun b =>
    ⟨b, if b = .tooLate then none else some s.window.runningModal, kept⟩).toList ++ s.frames
  modal : r.1.window.runningModal =
    (decide (box = some .launched ∨ box = some .error) || s.window.runningModal)
  cmdLine : r.1.cmdLine = if box = none then registry.leave s.cmdLine kept else s.cmdLine
  status : r.1.self.user.status = if box = some .launched then .playing else s.self.user.status
  heard : told s.self.user.status r.2 = r.1.self.user.status

/-- Acts that tell nothing, before the others. -/
theorem Ends.cons {s : RoomLaunch} {kept : Option (List UInt8)}
    {r : RoomLaunch × List RoomLaunchAct} {box : Option RoomBox} (h : Ends s kept r box)
    {act : RoomLaunchAct} (hact : hear s.self.user.status act = s.self.user.status) :
    Ends s kept (r.1, act :: r.2) box where
  frames := h.frames
  modal := h.modal
  cmdLine := h.cmdLine
  status := h.status
  heard := by
    show told (hear s.self.user.status act) r.2 = _
    rw [hact]
    exact h.heard

theorem ends_endLaunch (s : RoomLaunch) (kept : Option (List UInt8)) :
    Ends s kept (s.endLaunch kept, []) none :=
  ⟨rfl, rfl, rfl, rfl, rfl⟩

theorem ends_tooLate (s : RoomLaunch) (kept : Option (List UInt8)) (topic content : String)
    (args : List String) :
    Ends s kept (s.openBox .tooLate kept, [.box topic content args]) (some .tooLate) :=
  ⟨rfl, rfl, rfl, rfl, rfl⟩

theorem ends_launcherError (s : RoomLaunch) (err : LaunchError) (kept : Option (List UInt8)) :
    Ends s kept (s.launcherError err kept) (some .error) :=
  ⟨rfl, rfl, rfl, rfl, rfl⟩

theorem ends_launchedDisplay (s : RoomLaunch) (now : Int) (kept : Option (List UInt8)) :
    Ends s kept (s.launchedDisplay now kept) (some .launched) :=
  ⟨rfl, rfl, rfl, rfl, rfl⟩

theorem exists_ends_launchHost (s : RoomLaunch) (p : LaunchPrefs) (ret : Option LaunchError)
    (now : Int) (kept : Option (List UInt8)) :
    ∃ box, Ends s kept (s.launchHost p ret now kept) box := by
  have hdisplay (seq : UInt32) : Ends s kept
      ({ s with self := { s.self with seq } }.launchedDisplay now kept) (some .launched) :=
    ⟨rfl, rfl, rfl, rfl, rfl⟩
  unfold launchHost
  cases p.noLaunch with
  | true => exact ⟨_, (hdisplay _).cons rfl⟩
  | false =>
    cases ret with
    | some err => exact ⟨_, (ends_launcherError s err kept).cons rfl⟩
    | none => exact ⟨_, ((hdisplay _).cons rfl).cons rfl⟩

theorem exists_ends_launchJoin (s : RoomLaunch) (host : User) (p : LaunchPrefs)
    (ret : Option LaunchError) (now : Int) (kept : Option (List UInt8)) :
    ∃ box, Ends s kept (s.launchJoin ownIp host p ret now kept) box := by
  unfold launchJoin
  cases p.noLaunch with
  | true => exact ⟨_, ends_launchedDisplay s now kept⟩
  | false =>
    cases s.house.roomFind s.window.roomId with
    | none => exact ⟨_, ends_endLaunch s kept⟩
    | some ri =>
      cases ret with
      | some err => exact ⟨_, (ends_launcherError s err kept).cons rfl⟩
      | none => exact ⟨_, (ends_launchedDisplay s now kept).cons rfl⟩

/-- What the builder of a launch is to put back. -/
def keptBy (s : RoomLaunch) (p : LaunchPrefs) : Option (List UInt8) :=
  if p.builder.isSetCmdline then some (registry.read s.cmdLine) else none

/-- The state with the command line for the game. -/
def setBy (s : RoomLaunch) (p : LaunchPrefs) : RoomLaunch :=
  { s with
    cmdLine :=
      if p.builder.isSetCmdline then registry.write s.cmdLine p.builder.cmdline else s.cmdLine }

/-- **A launch** opens a box, or none. -/
theorem exists_ends_launchRv (s : RoomLaunch) (p : LaunchPrefs) (ret : Option LaunchError)
    (now : Int) :
    ∃ box, Ends (s.setBy p) (s.keptBy p) (s.launchRv ownIp p ret now) box := by
  have hset : (if p.builder.isSetCmdline then
      { s with cmdLine := registry.write s.cmdLine p.builder.cmdline } else s) = s.setBy p := by
    unfold setBy
    split
    · rfl
    · rfl
  unfold launchRv
  rw [hset]
  dsimp only
  split
  · exact exists_ends_launchHost _ p ret now _
  · split
    · exact ⟨_, ends_endLaunch _ _⟩
    · split
      · exact ⟨_, ends_tooLate _ _ _ _ _⟩
      · exact exists_ends_launchJoin ownIp _ _ p ret now _

/-! ## One event -/

/-- The preferences of the `launch_rv` that an event runs, if it runs one. -/
def launch (s : RoomLaunch) : RoomLaunchEvent → Option LaunchPrefs
  | .button p _ _ => if s.closed ∨ s.frames ≠ [] ∨ ¬ s.launchEnabled then none else some p
  | .timer p _ _ => if s.timers = 0 then none else some p
  | _ => none

/-- The boxes and what they put back stay as they are, and the status becomes `st`. -/
structure Same (s : RoomLaunch) (r : RoomLaunch × List RoomLaunchAct) (st : Status) : Prop where
  frames : r.1.frames = s.frames
  modal : r.1.window.runningModal = s.window.runningModal
  cmdLine : r.1.cmdLine = s.cmdLine
  status : r.1.self.user.status = st
  heard : told s.self.user.status r.2 = st

/-- To tell users the address draws sequences, and does nothing else. -/
theorem exists_usersAdded (sendIp : Bool) (s : RoomLaunch) (us : List User) :
    (∃ seq, (usersAdded ownIp sendIp s us).1 = { s with self := { s.self with seq } }) ∧
      ∀ act ∈ (usersAdded ownIp sendIp s us).2, s.hosting = true ∧ ∃ args, ∃ u ∈ us, ∃ seq,
        act = .notify "chat/host_ip" args u.id s.window.roomId seq := by
  induction us generalizing s with
  | nil => exact ⟨⟨s.self.seq, rfl⟩, fun _ h => nomatch h⟩
  | cons u us ih =>
    have hfirst : (∃ seq, (s.userAdded ownIp sendIp u).1 = { s with self := { s.self with seq } }) ∧
        ∀ act ∈ (s.userAdded ownIp sendIp u).2, s.hosting = true ∧ ∃ args seq,
          act = .notify "chat/host_ip" args u.id s.window.roomId seq := by
      unfold userAdded
      split
      · rename_i hyes
        refine ⟨⟨_, rfl⟩, fun act hact => ⟨hyes.1, _, _, List.mem_singleton.1 hact⟩⟩
      · exact ⟨⟨s.self.seq, rfl⟩, fun _ h => nomatch h⟩
    obtain ⟨⟨seq, hseq⟩, hacts⟩ := hfirst
    obtain ⟨⟨seq', hseq'⟩, hacts'⟩ := ih (s.userAdded ownIp sendIp u).1
    refine ⟨⟨seq', ?_⟩, fun act hact => ?_⟩
    · show (usersAdded ownIp sendIp (s.userAdded ownIp sendIp u).1 us).1 = _
      rw [hseq', hseq]
    · rcases List.mem_append.1 hact with hact | hact
      · obtain ⟨hhost, args, seq₁, rfl⟩ := hacts act hact
        exact ⟨hhost, args, u, List.mem_cons_self, seq₁, rfl⟩
      · obtain ⟨hhost, args, u', hu', seq₁, rfl⟩ := hacts' act hact
        rw [hseq] at hhost ⊢
        exact ⟨hhost, args, u', List.mem_cons_of_mem u hu', seq₁, rfl⟩

/-- Notifications tell no status. -/
theorem told_of_notify {status : Status} {acts : List RoomLaunchAct}
    (h : ∀ act ∈ acts, hear status act = status) : told status acts = status := by
  induction acts with
  | nil => rfl
  | cons act acts ih =>
    obtain ⟨hact, hacts⟩ := List.forall_mem_cons.1 h
    rw [told, List.foldl_cons, hact]
    exact ih hacts

/-- **A message** makes the window tell users who are new in the room the address. What else it does
the window wants. -/
theorem exists_told_handleMessage (s : RoomLaunch) (hmp hm : ModelHouse) (m : Message)
    (sendIp : Bool) :
    let r := s.handleMessage ownIp hmp hm m sendIp
    Same s (r.1, []) s.self.user.status ∧ ∃ told : List RoomLaunchAct,
      (∀ act ∈ told, s.hosting = true ∧ ∃ args, ∃ u ∈ s.usersView.addedOn hmp hm m, ∃ seq,
        act = .notify "chat/host_ip" args u.id s.window.roomId seq) ∧
      (r.1.closed = s.closed ∧ r.1.timers = s.timers ∧ r.2 = told ∨
        (∃ self acts, s.window.handleMessage self hm m = some acts ∧ acts ≠ []) ∧
          (r.2 = told ∨ r.2 = told ++ [.close])) := by
  have hnone : ∀ act ∈ ([] : List RoomLaunchAct), s.hosting = true ∧ ∃ args,
      ∃ u ∈ s.usersView.addedOn hmp hm m, ∃ seq,
        act = .notify "chat/host_ip" args u.id s.window.roomId seq := fun _ h => nomatch h
  unfold handleMessage
  dsimp only
  split
  · exact ⟨⟨rfl, rfl, rfl, rfl, rfl⟩, [], hnone, .inl ⟨rfl, rfl, rfl⟩⟩
  · split
    · exact ⟨⟨rfl, rfl, rfl, rfl, rfl⟩, [], hnone, .inl ⟨rfl, rfl, rfl⟩⟩
    · rename_i usersView _
      obtain ⟨⟨seq, hseq⟩, htold⟩ := exists_usersAdded ownIp sendIp
        { s with house := hm, usersView } (s.usersView.addedOn hmp hm m)
      rw [hseq]
      dsimp only
      split
      · exact ⟨⟨rfl, rfl, rfl, rfl, rfl⟩, _, htold, .inl ⟨rfl, rfl, rfl⟩⟩
      · rename_i acts hacts
        split
        · rename_i hclose
          exact ⟨⟨rfl, rfl, rfl, rfl, rfl⟩, _, htold,
            .inr ⟨⟨_, acts, hacts, List.ne_nil_of_mem hclose⟩, .inr rfl⟩⟩
        · refine ⟨⟨rfl, rfl, rfl, rfl, rfl⟩, _, htold, ?_⟩
          cases acts with
          | nil => exact .inl ⟨rfl, rfl, rfl⟩
          | cons act acts => exact .inr ⟨⟨_, _, hacts, List.cons_ne_nil _ _⟩, .inl rfl⟩

theorem same_handleMessage (s : RoomLaunch) (hmp hm : ModelHouse) (m : Message) (sendIp : Bool) :
    Same s (s.handleMessage ownIp hmp hm m sendIp) s.self.user.status := by
  obtain ⟨hsame, acts, hacts, hr⟩ := s.exists_told_handleMessage ownIp hmp hm m sendIp
  have htold : told s.self.user.status acts = s.self.user.status := by
    refine told_of_notify fun act hact => ?_
    obtain ⟨-, args, u, -, seq, rfl⟩ := hacts act hact
    rfl
  refine ⟨hsame.frames, hsame.modal, hsame.cmdLine, hsame.status, ?_⟩
  rcases hr with ⟨-, -, hr⟩ | ⟨-, hr | hr⟩
  · rw [hr, htold]
  · rw [hr, htold]
  · rw [hr, told, List.foldl_append]
    exact htold

/-- The user can set the status. -/
def Changes (s : RoomLaunch) (status : Status) (now : Int) : Prop :=
  s.frames = [] ∧ 1 ≤ now - s.lastChange ∧ status ≠ s.self.user.status

theorem same_changeUserStatus (s : RoomLaunch) (status : Status) (now : Int) :
    (s.Changes status now ∧ Same s (s.changeUserStatus status now) status) ∨
      (¬ s.Changes status now ∧
        Same s (s.changeUserStatus status now) s.self.user.status) := by
  rw [changeUserStatus]
  split
  · rename_i hno
    refine .inr ⟨?_, ⟨rfl, rfl, rfl, rfl, rfl⟩⟩
    rintro ⟨hframes, htime, hne⟩
    rcases hno with h | h | h
    · exact h hframes
    · omega
    · exact hne h
  · rename_i hyes
    simp only [not_or, not_not, not_lt] at hyes
    exact .inl ⟨hyes, ⟨rfl, rfl, rfl, rfl, rfl⟩⟩

/-- What is left when the box of `f` is closed. -/
structure Closes (s : RoomLaunch) (f : LaunchFrame) (r : RoomLaunch × List RoomLaunchAct) :
    Prop where
  modal : r.1.window.runningModal = f.modal.getD s.window.runningModal
  cmdLine : r.1.cmdLine = registry.leave s.cmdLine f.cmdLine
  status : r.1.self.user.status = if f.box = .launched then .chatting else s.self.user.status
  heard : told s.self.user.status r.2 = r.1.self.user.status

theorem closes_closeBox {s : RoomLaunch} {f : LaunchFrame} {frames : List LaunchFrame}
    (hf : s.frames = f :: frames) (now : Int) :
    (s.closeBox now).1.frames = frames ∧ Closes s f (s.closeBox now) := by
  rw [closeBox, hf]
  dsimp only
  split
  · rename_i hbox
    exact ⟨rfl, rfl, rfl, (if_pos hbox).symm, rfl⟩
  · rename_i hbox
    exact ⟨rfl, rfl, rfl, (if_neg hbox).symm, rfl⟩

/-- No box about the game is closed above another one, and the user does not set the status to
`playing`. -/
def Steady (s : RoomLaunch) : RoomLaunchEvent → Prop
  | .closeBox _ => ∀ f frames, s.frames = f :: frames → f.box = .launched →
      ∀ g ∈ frames, g.box ≠ .launched
  | .changeUserStatus status now => s.Changes status now → status ≠ .playing
  | _ => True

/-- What an event does. -/
inductive Does (s : RoomLaunch) (e : RoomLaunchEvent) (r : RoomLaunch × List RoomLaunchAct) : Prop
  | launch (p : LaunchPrefs) (box : Option RoomBox) (he : s.launch e = some p)
      (h : Ends (s.setBy p) (s.keptBy p) r box)
  | closeBox (f : LaunchFrame) (now : Int) (he : e = .closeBox now)
      (hf : s.frames = f :: r.1.frames) (h : Closes s f r)
  | status (st : Status) (now : Int) (he : e = .changeUserStatus st now) (hc : s.Changes st now)
      (h : Same s r st)
  | other (he : s.launch e = none) (hc : s.Steady e) (h : Same s r s.self.user.status)

/-- **The events.** -/
theorem does_step (s : RoomLaunch) (e : RoomLaunchEvent) : Does s e (s.step ownIp e) := by
  cases e with
  | message hmp hm m sendIp =>
    exact .other rfl trivial (s.same_handleMessage ownIp hmp hm m sendIp)
  | button p ret now =>
    rw [step]
    split
    · rename_i hno
      exact .other (if_pos hno) trivial ⟨rfl, rfl, rfl, rfl, rfl⟩
    · rename_i hyes
      obtain ⟨box, h⟩ := s.exists_ends_launchRv ownIp p ret now
      exact .launch p box (if_neg hyes) h
  | timer p ret now =>
    rw [step]
    split
    · rename_i ht
      exact .other (if_pos ht) trivial ⟨rfl, rfl, rfl, rfl, rfl⟩
    · rename_i k ht
      obtain ⟨box, h⟩ :=
        { s with timers := k }.exists_ends_launchRv ownIp p ret now
      refine .launch p box (if_neg (by omega)) ?_
      exact ⟨h.frames, h.modal, h.cmdLine, h.status, h.heard⟩
  | closeBox now =>
    cases hf : s.frames with
    | nil =>
      refine .other rfl (fun f frames h => ?_) ?_
      · rw [hf] at h
        cases h
      · rw [step, closeBox, hf]
        exact ⟨hf.symm ▸ rfl, rfl, rfl, rfl, rfl⟩
    | cons f frames =>
      obtain ⟨hframes, h⟩ := closes_closeBox hf now
      exact .closeBox f now rfl (hf.trans (by rw [step, hframes])) h
  | closeWindow =>
    rw [step]
    split
    · exact .other rfl trivial ⟨rfl, rfl, rfl, rfl, rfl⟩
    · exact .other rfl trivial ⟨rfl, rfl, rfl, rfl, rfl⟩
  | changeUserStatus status now =>
    rcases s.same_changeUserStatus status now with ⟨hc, h⟩ | ⟨hc, h⟩
    · exact .status status now rfl hc h
    · exact .other rfl (fun hc' => absurd hc' hc) h
  | selfChanged self => exact .other rfl trivial ⟨rfl, rfl, rfl, rfl, rfl⟩

/-! ## The flag -/

/-- The flag is set by the open boxes, all but those that say that it is too late. -/
structure Sound (s : RoomLaunch) : Prop where
  held : Held s.window.runningModal (s.frames.map LaunchFrame.modal)
  kind : ∀ f ∈ s.frames, f.modal = none ↔ f.box = .tooLate

theorem Sound.congr {s s' : RoomLaunch} (hs : s.Sound) (hframes : s'.frames = s.frames)
    (hmodal : s'.window.runningModal = s.window.runningModal) : s'.Sound where
  held := by
    rw [hmodal, hframes]
    exact hs.held
  kind := by
    rw [hframes]
    exact hs.kind

/-- A box is opened. -/
theorem Sound.opened {s s' : RoomLaunch} (hs : s.Sound) {f : LaunchFrame}
    (hkind : f.modal = none ↔ f.box = .tooLate) (hframes : s'.frames = f :: s.frames)
    (hheld : Held s'.window.runningModal (f.modal :: s.frames.map LaunchFrame.modal)) :
    s'.Sound where
  held := by
    rw [hframes]
    exact hheld
  kind := by
    rw [hframes]
    exact List.forall_mem_cons.2 ⟨hkind, hs.kind⟩

theorem Sound.ends {s : RoomLaunch} (hs : s.Sound) {kept : Option (List UInt8)}
    {r : RoomLaunch × List RoomLaunchAct} {box : Option RoomBox} (h : Ends s kept r box) :
    r.1.Sound := by
  cases box with
  | none => exact hs.congr h.frames h.modal
  | some b =>
    cases b with
    | tooLate =>
      refine hs.opened (by simp) h.frames ?_
      rw [h.modal]
      exact .pass hs.held
    | launched =>
      refine hs.opened (by simp) h.frames ?_
      rw [h.modal]
      exact .set hs.held
    | error =>
      refine hs.opened (by simp) h.frames ?_
      rw [h.modal]
      exact .set hs.held

theorem Sound.step {s : RoomLaunch} (hs : s.Sound) (e : RoomLaunchEvent) :
    (s.step ownIp e).1.Sound := by
  cases s.does_step ownIp e with
  | launch p box _ h =>
    have hset : (s.setBy p).Sound := hs.congr rfl rfl
    exact hset.ends h
  | closeBox f now _ hf h =>
    have hheld := hs.held
    have hkind := hs.kind
    rw [hf] at hheld hkind
    refine ⟨?_, (List.forall_mem_cons.1 hkind).2⟩
    rw [h.modal]
    exact hheld.leave
  | status _ _ _ _ h => exact hs.congr h.frames h.modal
  | other _ _ h => exact hs.congr h.frames h.modal

theorem sound_init (self : SelfModel) (house : ModelHouse) (cmdLine : CommandLine) (rid : String)
    (lastChange : Int) : (init self house cmdLine rid lastChange).Sound where
  held := .outside
  kind _ h := by cases h

/-- A host in its room. -/
def hostSelf : SelfModel := { hostingRoom := { id := "r" } }

/-- The command line once the open boxes are closed. -/
def afterBoxes (s : RoomLaunch) : CommandLine :=
  registry.unwind s.cmdLine (s.frames.map LaunchFrame.cmdLine)

/-- The event sets no command line. -/
def Unset (s : RoomLaunch) (e : RoomLaunchEvent) : Prop :=
  ∀ p, s.launch e = some p → p.builder.isSetCmdline = false

/-- No command line has been set in any open `launch_rv`. -/
structure Pristine (c : CommandLine) (s : RoomLaunch) : Prop where
  frames : ∀ x ∈ s.frames.map LaunchFrame.cmdLine, x = none
  cmdLine : s.cmdLine = c

/-- A launch that sets no command line. -/
theorem frames_of_unset {s : RoomLaunch} {p : LaunchPrefs}
    {r : RoomLaunch × List RoomLaunchAct} {box : Option RoomBox}
    (h : Ends (s.setBy p) (s.keptBy p) r box) (hp : p.builder.isSetCmdline = false) :
    r.1.cmdLine = s.cmdLine ∧ (r.1.frames = s.frames ∨
      ∃ f, r.1.frames = f :: s.frames ∧ f.cmdLine = none) := by
  have hcmd := h.cmdLine
  have hframes := h.frames
  simp only [setBy, keptBy, hp, Bool.false_eq_true, if_false, Register.leave_none, ite_self]
    at hcmd hframes
  refine ⟨hcmd, ?_⟩
  cases box with
  | none => exact .inl hframes
  | some b => exact .inr ⟨_, hframes, rfl⟩

/-- A launch that sets the command line. -/
theorem afterBoxes_of_set {s : RoomLaunch} {p : LaunchPrefs}
    {r : RoomLaunch × List RoomLaunchAct} {box : Option RoomBox}
    (h : Ends (s.setBy p) (s.keptBy p) r box) (hp : p.builder.isSetCmdline = true) :
    r.1.afterBoxes =
      registry.unwind (registry.reset s.cmdLine) (s.frames.map LaunchFrame.cmdLine) := by
  have hcmd := h.cmdLine
  have hframes := h.frames
  simp only [setBy, keptBy, hp, if_true] at hcmd hframes
  cases box with
  | none =>
    have hreset : r.1.cmdLine = registry.reset s.cmdLine := by
      rw [hcmd, if_pos rfl, Register.leave, registry.write_write, Register.reset]
    rw [afterBoxes, hreset, hframes]
    rfl
  | some b =>
    rw [afterBoxes, hcmd, hframes, if_neg (by simp)]
    exact registry.unwind_enter _ _ _

theorem Pristine.congr {c : CommandLine} {s s' : RoomLaunch} (hs : Pristine c s)
    (hframes : s'.frames = s.frames) (hcmd : s'.cmdLine = s.cmdLine) : Pristine c s' where
  frames := by
    rw [hframes]
    exact hs.frames
  cmdLine := hcmd.trans hs.cmdLine

theorem Pristine.step {c : CommandLine} {s : RoomLaunch} (hs : Pristine c s) {e : RoomLaunchEvent}
    (he : s.Unset e) : Pristine c (s.step ownIp e).1 := by
  cases s.does_step ownIp e with
  | launch p box hp h =>
    obtain ⟨hcmd, hframes | ⟨f, hframes, hnone⟩⟩ := frames_of_unset h (he p hp)
    · exact hs.congr hframes hcmd
    · refine ⟨?_, hcmd.trans hs.cmdLine⟩
      rw [hframes]
      exact List.forall_mem_cons.2 ⟨hnone, hs.frames⟩
  | closeBox f now _ hf h =>
    have hall := hs.frames
    rw [hf] at hall
    obtain ⟨hnone, hrest⟩ := List.forall_mem_cons.1 hall
    refine ⟨hrest, ?_⟩
    rw [h.cmdLine, hnone, Register.leave_none, hs.cmdLine]
  | status _ _ _ _ h => exact hs.congr h.frames h.cmdLine
  | other _ _ h => exact hs.congr h.frames h.cmdLine

/-- The first command line that is set. -/
theorem afterBoxes_of_first {c : CommandLine} {s : RoomLaunch} (hs : Pristine c s)
    {e : RoomLaunchEvent} (he : ¬ s.Unset e) :
    (s.step ownIp e).1.afterBoxes = registry.reset c := by
  obtain ⟨p, hp, hset⟩ : ∃ p, s.launch e = some p ∧ p.builder.isSetCmdline = true := by
    simpa [Unset] using he
  cases s.does_step ownIp e with
  | launch p' box hp' h =>
    obtain rfl : p' = p := Option.some.inj (hp'.symm.trans hp)
    rw [afterBoxes_of_set h hset, registry.unwind_of_none hs.frames, hs.cmdLine]
  | closeBox f now he _ _ =>
    rw [he] at hp
    cases hp
  | status _ _ he _ _ =>
    rw [he] at hp
    cases hp
  | other hno _ _ =>
    rw [hno] at hp
    cases hp

/-- What is left behind stays reset. -/
theorem afterBoxes_step {c : CommandLine} {s : RoomLaunch}
    (hs : s.afterBoxes = registry.reset c) (e : RoomLaunchEvent) :
    (s.step ownIp e).1.afterBoxes = registry.reset c := by
  cases s.does_step ownIp e with
  | launch p box _ h =>
    cases hset : p.builder.isSetCmdline with
    | false =>
      obtain ⟨hcmd, hframes | ⟨f, hframes, hnone⟩⟩ := frames_of_unset h hset
      · rw [afterBoxes, hcmd, hframes]
        exact hs
      · rw [afterBoxes, hcmd, hframes, List.map_cons, hnone]
        exact hs
    | true =>
      rw [afterBoxes_of_set h hset]
      rcases registry.unwind_reset s.cmdLine (s.frames.map LaunchFrame.cmdLine) with hsame | hreset
      · exact hsame.trans hs
      · rw [hreset]
        show registry.reset s.afterBoxes = _
        rw [hs, registry.reset_reset]
  | closeBox f now _ hf h =>
    rw [afterBoxes, hf] at hs
    rw [afterBoxes, h.cmdLine]
    exact hs
  | status _ _ _ _ h =>
    rw [afterBoxes, h.frames, h.cmdLine]
    exact hs
  | other _ _ h =>
    rw [afterBoxes, h.frames, h.cmdLine]
    exact hs

/-- The command line after a run: the one from before, or what is read of it. -/
theorem afterBoxes_exec {c : CommandLine} {s : RoomLaunch} (hs : Pristine c s)
    (es : List RoomLaunchEvent) :
    ((machine ownIp).Guarded Unset s es → Pristine c ((machine ownIp).exec s es)) ∧
      (¬ (machine ownIp).Guarded Unset s es →
        ((machine ownIp).exec s es).afterBoxes = registry.reset c) := by
  induction es generalizing s with
  | nil => exact ⟨fun _ => hs, fun h => absurd trivial h⟩
  | cons e es ih =>
    by_cases he : s.Unset e
    · obtain ⟨hkept, hreset⟩ := ih (hs.step ownIp he)
      exact ⟨fun h => hkept h.2, fun h => hreset fun hes => h ⟨he, hes⟩⟩
    · refine ⟨fun h => absurd h.1 he, fun _ => ?_⟩
      exact (machine ownIp).invariant_all (I := fun s => s.afterBoxes = registry.reset c)
        (fun _ e hs => afterBoxes_step ownIp hs e) (afterBoxes_of_first ownIp hs he) es

/-- **The command line is put back.** After a run, no box being open, the registry holds the command
line from the start exactly when none was set, or when the one from the start can be read. -/
theorem commandLine_iff (self : SelfModel) (house : ModelHouse) (cmdLine : CommandLine)
    (rid : String) (lastChange : Int) (es : List RoomLaunchEvent)
    (hes : ((machine ownIp).exec (init self house cmdLine rid lastChange) es).frames = []) :
    ((machine ownIp).exec (init self house cmdLine rid lastChange) es).cmdLine = cmdLine ↔
      (machine ownIp).Guarded Unset (init self house cmdLine rid lastChange) es ∨
        ∀ t, cmdLine = some t → t.length < 1024 ∧ 0 ∉ t ∧ 10 ∉ t := by
  have hstart : Pristine cmdLine (init self house cmdLine rid lastChange) :=
    ⟨fun _ h => (by cases h), rfl⟩
  obtain ⟨hkept, hreset⟩ := afterBoxes_exec ownIp hstart es
  rw [afterBoxes, hes] at hreset
  rw [← reset_registry_iff]
  constructor
  · intro h
    by_cases hes' : (machine ownIp).Guarded Unset (init self house cmdLine rid lastChange) es
    · exact .inl hes'
    · exact .inr ((hreset hes').symm.trans h)
  · rintro (h | h)
    · exact (hkept h).cmdLine
    · by_cases hes' : (machine ownIp).Guarded Unset (init self house cmdLine rid lastChange) es
      · exact (hkept hes').cmdLine
      · exact (hreset hes').trans h

/-- A command line of two lines. -/
theorem commandLine_iff_lines :
    ((machine "").exec (init hostSelf {} (some [45, 10, 45]) "r" 0)
        [.button {} none 10, .closeBox 20]).cmdLine = some [45, 10, 45] ↔
      (machine "").Guarded Unset (init hostSelf {} (some [45, 10, 45]) "r" 0)
          [.button {} none 10, .closeBox 20] ∨
        ∀ t, (some [45, 10, 45] : CommandLine) = some t → t.length < 1024 ∧ 0 ∉ t ∧ 10 ∉ t :=
  commandLine_iff "" hostSelf {} (some [45, 10, 45]) "r" 0
    [.button {} none 10, .closeBox 20] rfl

/-! ## The status -/

/-- A box about the running game is open. -/
def GameBox (s : RoomLaunch) : Prop := ∃ f ∈ s.frames, f.box = .launched

/-- The own status is `playing` just while such a box is open. -/
def PlayingInBox (s : RoomLaunch) : Prop := s.self.user.status = .playing ↔ s.GameBox

/-- The others are told every change. -/
theorem told_step (s : RoomLaunch) (e : RoomLaunchEvent) :
    told s.self.user.status (s.step ownIp e).2 = (s.step ownIp e).1.self.user.status := by
  cases s.does_step ownIp e with
  | launch p box _ h => exact h.heard
  | closeBox f now _ _ h => exact h.heard
  | status _ _ _ _ h => exact h.heard.trans h.status.symm
  | other _ _ h => exact h.heard.trans h.status.symm

theorem told_exec (s : RoomLaunch) (es : List RoomLaunchEvent) :
    told s.self.user.status ((machine ownIp).trace s es) =
      ((machine ownIp).exec s es).self.user.status := by
  have hall : (machine ownIp).Guarded (fun _ _ => True) s es :=
    (machine ownIp).guarded_of_forall (fun _ _ => trivial) s es
  refine (machine ownIp).simulation (R := fun s st => st = s.self.user.status) hear ?_ rfl hall
  rintro s e _ rfl -
  exact told_step ownIp s e

/-- **One event** keeps the status in step with the boxes exactly when it is steady. -/
theorem playingInBox_step_iff {s : RoomLaunch} (hs : s.PlayingInBox) (e : RoomLaunchEvent) :
    (s.step ownIp e).1.PlayingInBox ↔ s.Steady e := by
  cases s.does_step ownIp e with
  | launch p box hp h =>
    have hsteady : s.Steady e := by
      cases e with
      | closeBox now => cases hp
      | changeUserStatus st now => cases hp
      | _ => trivial
    refine iff_of_true ?_ hsteady
    unfold PlayingInBox GameBox
    rw [h.status, h.frames]
    by_cases hbox : box = some .launched
    · simp [hbox]
    · rw [if_neg hbox]
      refine hs.trans ?_
      cases box with
      | none => rfl
      | some b =>
        have hb : b ≠ .launched := fun hb => hbox (congrArg some hb)
        simp [GameBox, setBy, hb]
  | closeBox f now he hf h =>
    subst he
    unfold PlayingInBox GameBox
    rw [h.status]
    by_cases hbox : f.box = .launched
    · simp [Steady, hf, hbox]
    · have hkept : s.self.user.status = .playing ↔ ∃ g ∈ s.frames, g.box = .launched := hs
      rw [if_neg hbox, hkept, hf]
      simp [Steady, hf, hbox]
  | status st now he hc h =>
    subst he
    unfold PlayingInBox GameBox
    rw [h.status, h.frames, hc.1]
    simp [Steady, hc]
  | other _ hc h =>
    refine iff_of_true ?_ hc
    unfold PlayingInBox GameBox
    rw [h.status, h.frames]
    exact hs

/-- **What the others know.** They are told that the user plays just while a box about the game is
open, in the steady runs and in no others. -/
theorem playing_told_iff_guarded (self : SelfModel) (house : ModelHouse) (cmdLine : CommandLine)
    (rid : String) (lastChange : Int) (hself : self.user.status ≠ .playing)
    (es : List RoomLaunchEvent) :
    (∀ p, p <+: es →
      (told self.user.status ((machine ownIp).trace (init self house cmdLine rid lastChange) p) =
          .playing ↔
        ∃ f ∈ ((machine ownIp).exec (init self house cmdLine rid lastChange) p).frames,
          f.box = .launched)) ↔
      (machine ownIp).Guarded Steady (init self house cmdLine rid lastChange) es := by
  have hstart : (init self house cmdLine rid lastChange).PlayingInBox :=
    iff_of_false hself fun ⟨f, hf, _⟩ => by cases hf
  rw [← (machine ownIp).forall_along_iff_guarded (I := PlayingInBox)
    (fun s e hs => playingInBox_step_iff ownIp hs e) hstart es]
  refine forall₂_congr fun p _ => ?_
  have htold := told_exec ownIp (init self house cmdLine rid lastChange) p
  rw [PlayingInBox, ← htold]
  rfl

/-- A host starts the game and comes back. -/
theorem playing_told_iff_guarded_host :
    (∀ p, p <+: [.button {} none 10, .closeBox 20] →
      (told .chatting ((machine "").trace (init hostSelf {} none "r" 0) p) = .playing ↔
        ∃ f ∈ ((machine "").exec (init hostSelf {} none "r" 0) p).frames,
          f.box = .launched)) ↔
      (machine "").Guarded Steady (init hostSelf {} none "r" 0)
        [.button {} none 10, .closeBox 20] :=
  playing_told_iff_guarded "" hostSelf {} none "r" 0 (by decide) _

end RoomLaunch

end RvHouse
