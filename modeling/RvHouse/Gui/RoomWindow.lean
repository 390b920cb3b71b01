import RvHouse.Gui.Client

/-!
# The room window

`window::room` is open while the own user is in a room. The GUI thread hands it every message that
the filter lets through, after the model has taken the message in and before anything else happens;
a `user` or `room` message may then open a window (`house_app::_cond_open_room_window`). A window
that closes is forgotten at once and deleted later, which takes the own user out of the room.

The box that a host is shown once while its window is constructed is left out; `runningModal` is
the flag that such boxes set. The views of the window are left out as well: what that of the users
makes of a message, and what the window then tells users who are new in the room, is in
`RoomLaunch`.
-/

namespace RvHouse

/-- `dynamic_ptr_cast<message_room_command>`. -/
def Body.asRoomCommand : Body → Option (String × UserKey)
  | .roomCommand rid tid => some (rid, tid)
  | _ => none

/-- What a client with a room window does. -/
inductive RoomAct where
  /-- The timer that ends in `launch_rv`. -/
  | launchTimer
  /-- The window is closed on a message. -/
  | close
  /-- A message to the worker. -/
  | send (m : Message)
deriving DecidableEq

/-- `window::room`. -/
structure RoomWindow where
  roomId : String
  hostId : UserKey := {}
  runningModal : Bool := false
deriving DecidableEq

namespace RoomWindow

/-- The key that `room::_init` records: the owner of the room in the first group that lists it, as
the first group that knows that user has it. -/
def findHost (hm : ModelHouse) (rid : String) : UserKey :=
  match hm.roomFind rid with
  | none => {}
  | some r =>
    match hm.userFind r.ownerId with
    | none => {}
    | some u => u.id

/-- `room::room`. -/
def init (hm : ModelHouse) (rid : String) : RoomWindow where
  roomId := rid
  hostId := findHost hm rid

/-- `room::_handle_room_launch`: whether the timer is started; `none` when it throws. The room that
the command names is not looked at. -/
def handleRoomLaunch (w : RoomWindow) (self : SelfModel) (hm : ModelHouse) (m : Message) :
    Option Bool :=
  if w.runningModal = true ∨ w.roomId = self.hostingRoom.id then some false
  else do
    let _ ← m.body.asRoomCommand
    let g ← hm.houseFind m.groupBase
    return match g.userFind m.senderId, g.house.roomFind w.roomId with
      | some ui, some ri => ri.ownerId.eqv ui.id
      | _, _ => false

/-- `room::_handle_room_kick`: whether the window is closed; `none` when it throws. -/
def handleRoomKick (w : RoomWindow) (self : SelfModel) (hm : ModelHouse) (m : Message) :
    Option Bool := do
  let (_, tid) ← m.body.asRoomCommand
  let g ← hm.houseFind m.groupBase
  return match g.userFind tid, g.userFind m.senderId, g.house.roomFind w.roomId with
    | some kicked, some kicker, some ri =>
      kicker.id.eqv ri.ownerId && (kicked.id.idStr == self.user.id.idStr && !w.runningModal)
    | _, _, _ => false

/-- `room::handle_message`; `none` when it throws. -/
def handleMessage (w : RoomWindow) (self : SelfModel) (hm : ModelHouse) (m : Message) :
    Option (List RoomAct) :=
  if m.body = .plain then some []
  else
    match m.id with
    | .room => m.body.asRoom.map fun _ => []
    | .roomRemove =>
      -- The window stays while another group lists the room.
      m.body.asRoom.map fun r =>
        if r.id = w.roomId ∧ hm.roomFind w.roomId = none ∧ w.runningModal = false then [.close]
        else []
    | .roomLaunch =>
      (w.handleRoomLaunch self hm m).map fun b => if b = true then [.launchTimer] else []
    | .roomKick => (w.handleRoomKick self hm m).map fun b => if b = true then [.close] else []
    | .user => m.body.asUser.map fun _ => []
    | _ => some []

end RoomWindow

/-- A client with its room window; `closed` counts the windows that are to be deleted. -/
structure RoomClient where
  client : Client := {}
  window : Option RoomWindow := none
  closed : ℕ := 0

/-- What happens to a client with a room window; the `closeRoom` of the client is the deletion of a
window. -/
inductive RoomEvent where
  | client (e : ClientEvent)
  /-- The user closes the window. -/
  | close
  /-- A box over the window opens or closes. -/
  | modal (b : Bool)
  /-- The own user changes in some other way: it creates a room, say. -/
  | selfChanged (self : SelfModel)
deriving DecidableEq

/-- The room whose window `house_app::_cond_open_room_window` opens when there is none. -/
def roomToOpen (self : SelfModel) (hm : ModelHouse) (m : Message) : Option String := do
  guard (m.body ≠ .plain)
  let g ← hm.houseFind m.groupBase
  let su ← g.userFind self.user.id
  guard (su.roomId ≠ "")
  let r ← g.house.roomFind su.roomId
  guard (r.topic ≠ "")
  return r.id

namespace RoomClient

/-- `house_app::_cond_open_room_window`. -/
def condOpenRoomWindow (s : RoomClient) (m : Message) : RoomClient :=
  match s.window with
  | some _ => s
  | none =>
    { s with
      window := (roomToOpen s.client.self s.client.house m).map (RoomWindow.init s.client.house) }

/-- `QWidget::close`: the window is forgotten, and deleted later. -/
def close (s : RoomClient) : RoomClient :=
  match s.window with
  | some _ => { s with window := none, closed := s.closed + 1 }
  | none => s

/-- What the window, if there is one, does on a message that the model has taken in. -/
def windowActs (s : RoomClient) (hm : ModelHouse) (m : Message) : Option (List RoomAct) :=
  match s.window with
  | some w => w.handleMessage s.client.self hm m
  | none => some []

/-- One message of `house_app::_handle_messenger`. -/
def handleMessage (s : RoomClient) (m : Message) : RoomClient × List RoomAct :=
  let (client, msgs) := s.client.handleMessage m
  if (filterMessage m s.client.filterMap).1 = true then ({ s with client }, [])
  else
    match s.client.house.handleModelUpdate m with
    | none => ({ s with client }, [])
    | some hm =>
      match s.windowActs hm m with
      -- The messages on which a window throws are none that the client acts on afterwards.
      | none => ({ s with client }, [])
      | some acts =>
        let s := { if .close ∈ acts then s.close else s with client }
        (if m.id = .room ∨ m.id = .user then s.condOpenRoomWindow m else s,
          acts ++ msgs.map RoomAct.send)

/-- One event. -/
def step (s : RoomClient) : RoomEvent → RoomClient × List RoomAct
  | .client (.message m) => s.handleMessage m
  | .client .closeRoom =>
    match s.closed with
    | 0 => (s, [])
    | n + 1 =>
      let (client, msgs) := s.client.closeRoom
      ({ s with client, closed := n }, msgs.map RoomAct.send)
  | .client e =>
    let (client, msgs) := s.client.step e
    ({ s with client }, msgs.map RoomAct.send)
  | .close => (s.close, [])
  | .modal b => ({ s with window := s.window.map fun w => { w with runningModal := b } }, [])
  | .selfChanged self => ({ s with client := { s.client with self } }, [])

/-- The client with a room window as a machine. -/
def machine : Mealy RoomClient RoomEvent RoomAct := ⟨step⟩

end RoomClient

end RvHouse
