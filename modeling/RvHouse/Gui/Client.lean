import RvHouse.Lib.Mealy
import RvHouse.Gui.Filter
import RvHouse.Gui.Join

/-!
# The client

The GUI thread, as far as joining rooms goes: the user asks to join a room, may give up, and closes
the window of a room; the messages of the networking thread are filtered, taken into the model and
dispatched (`house_app::_handle_messenger`).
-/

namespace RvHouse

/-- An attempt to join a room, by the sequence of the request. -/
structure Attempt where
  rid : String
  seq : UInt32
deriving DecidableEq

/-- A client; `attempts` records its requests, newest first. -/
structure Client where
  self : SelfModel := {}
  house : ModelHouse := {}
  filterMap : FilterDupMap := ∅
  attempts : List Attempt := []

/-- What happens to a client. -/
inductive ClientEvent where
  /-- A room is chosen; `pass` is what the user enters when asked for the password, if anything. -/
  | roomJoinSelected (rid : String) (pass : Option String)
  | interrupt
  /-- A message of the networking thread. -/
  | message (m : Message)
  /-- The room window is closed. -/
  | closeRoom
  /-- A sequence is drawn for a chat message and the like. -/
  | draw
deriving DecidableEq

/-- `house_app::_handle_room_join_ack`. -/
def handleRoomJoinAck (self : SelfModel) (m : Message) : SelfModel × List Message :=
  if self.joiningRoom = "" then (self, [])
  else
    match m.id with
    | .roomJoinFull | .roomJoinPass | .roomJoinNack => ({ self with joiningRoom := "" }, [])
    | .roomJoinAck =>
      -- Neither the sender nor the request is looked at.
      let self := { self with user := { self.user with roomId := self.joiningRoom } }
      let (msg, self) := self.userAsMessage
      ({ self with joiningRoom := "" }, [msg])
    | _ => (self, [])

namespace Client

/-- The end of `window::house::room_join_selected`: the request is sent. -/
def request (s : Client) (r : Room) : Client × List Message :=
  let (seq, self) := s.self.sequence
  ({ s with self := { self with joiningRoom := r.id }, attempts := ⟨r.id, seq⟩ :: s.attempts },
    [.ofRoom .roomJoin r s.self.user.id seq 0])

/-- `window::house::room_join_selected`, `rid` being the room of the item. -/
def roomJoinSelected (s : Client) (rid : String) (pass : Option String) : Client × List Message :=
  if s.self.user.roomId ≠ "" then (s, [])
  else if s.self.joiningRoom ≠ "" then (s, [])
  else if rid = "" then (s, [])
  else
    match s.house.roomFind rid with
    | none => (s, [])
    | some r =>
      if r.hasPassword then
        match pass with
        | none => (s, [])
        | some p => s.request (r.setPassword p)
      else s.request r

/-- `window::house::interrupt`. -/
def interrupt (s : Client) : Client × List Message :=
  if s.self.joiningRoom ≠ "" then
    let (msg, self) := { s.self with joiningRoom := "" : SelfModel }.userAsMessage
    ({ s with self }, [msg])
  else (s, [])

/-- `window::room::~room`. -/
def closeRoom (s : Client) : Client × List Message :=
  let self := { s.self with
    user := { s.self.user with roomId := "" }
    hostingRoom := { s.self.hostingRoom with id := "" } }
  let (msg, self) := self.userAsMessage
  ({ s with self }, [msg])

/-- One message of `house_app::_handle_messenger`. -/
def handleMessage (s : Client) (m : Message) : Client × List Message :=
  let (dup, filterMap) := filterMessage m s.filterMap
  if dup then ({ s with filterMap }, [])
  else
    match s.house.handleModelUpdate m with
    | none => ({ s with filterMap }, [])
    | some house =>
      match m.id with
      | .roomJoin =>
        match handleRoomJoin s.self house m with
        | none => ({ s with filterMap, house }, [])
        | some (house, msg) => ({ s with filterMap, house }, [msg])
      | .roomJoinFull | .roomJoinPass | .roomJoinNack | .roomJoinAck =>
        let (self, out) := handleRoomJoinAck s.self m
        ({ s with filterMap, house, self }, out)
      | _ => ({ s with filterMap, house }, [])

/-- One event. -/
def step (s : Client) : ClientEvent → Client × List Message
  | .roomJoinSelected rid pass => s.roomJoinSelected rid pass
  | .interrupt => s.interrupt
  | .message m => s.handleMessage m
  | .closeRoom => s.closeRoom
  | .draw => ({ s with self := s.self.sequence.2 }, [])

/-- The client as a machine that sends messages to the worker. -/
def machine : Mealy Client ClientEvent Message := ⟨step⟩

/-- The client at the start, when the model knows both groups. -/
def init (u : User) : Client where
  self := { user := { u with roomId := "" } }
  house := (({} : ModelHouse).allowGroup "DHT" MsgId.dhtGroupBase.code).allowGroup "centralized"
    MsgId.ctzGroupBase.code

theorem house_roomJoinSelected (s : Client) (rid : String) (pass : Option String) :
    (s.roomJoinSelected rid pass).1.house = s.house := by
  unfold roomJoinSelected
  split
  · rfl
  · split
    · rfl
    · split
      · rfl
      · split
        · rfl
        · split
          · split <;> rfl
          · rfl

theorem house_interrupt (s : Client) : s.interrupt.1.house = s.house := by
  unfold interrupt
  split <;> rfl

end Client

end RvHouse
