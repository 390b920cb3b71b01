import RvHouse.Chat.UserKey

/-!
# Users and rooms

`chat_gaming::user` and `chat_gaming::room`, and what of them travels in an archive. Assignment of
a user or a room copies everything but the id (`User.assign`, `Room.assign`): the id is the key
under which a house stores the object. An archive holds the identification string of a key and
never its node, so a loaded user keeps the node it had before (`User.load`) and a loaded room
has an owner without a node (`RoomWire.toRoom`). Where the code reads the clock more than once in
one operation (`User.ofNode`, `User.generateId`, `User.save`), the model does so once.
-/

namespace RvHouse

/-- `user::status_enum`; an archive may hold a number that is none of them. -/
inductive Status where
  | chatting
  | playing
  | away
  | dontDisturb
  | other (code : Int)
deriving DecidableEq, Repr

/-- `chat_gaming::user`. -/
structure User where
  id : UserKey := {}
  roomId : String := ""
  sequence : UInt32 := 0
  status : Status := .chatting
  statusMsg : String := ""
  loginId : String := ""
  validation : String := ""
  fields : Int := 0
  userNow : Int := 0
  userStatusTime : Int := 0
  userUsTimeDelta : Int := 0
deriving DecidableEq, Repr

/-- The archived part of a user. -/
structure UserWire where
  sequence : UInt32 := 0
  idStr : String := ""
  roomId : String := ""
  loginId : String := ""
  validation : String := ""
  status : Status := .chatting
  statusMsg : String := ""
  fields : Int := 0
  userNow : Int := 0
  userStatusTime : Int := 0
deriving DecidableEq, Repr

namespace User

/-- `user::_init_extra_vars`, `now` being `time(NULL)`. -/
def initExtraVars (u : User) (now : Int) : User := { u with userUsTimeDelta := now - u.userNow }

/-- `user(const netcomgrp::node *)`. -/
def ofNode (n : Node) (now : Int) : User :=
  initExtraVars { id := .ofNode n, userNow := now, userStatusTime := now } now

/-- `user(NULL)`. -/
def ofNull (now : Int) : User := initExtraVars { userNow := now, userStatusTime := now } now

/-- `user::authenticated`. -/
def authenticated (u : User) : Bool := u.validation == "1"

/-- `user::status(status_enum)`. -/
def setStatus (u : User) (s : Status) (now : Int) : User :=
  { u with userStatusTime := now, status := s }

/-- `user::status_time`. -/
def statusTime (u : User) : Int := u.userUsTimeDelta + u.userStatusTime

/-- `user::generate_id`. -/
def generateId (u : User) (now : Int) : User :=
  let idStr := toString now ++ ":" ++ u.loginId ++ ":" ++ if u.authenticated then "1" else "0"
  initExtraVars { u with id := { u.id with idStr } } now

/-- `user::operator=`, which leaves the id alone. -/
def assign (u o : User) : User := { o with id := u.id }

/-- `user::serialize` into an output archive: the time of the user is set to the present. -/
def save (u : User) (now : Int) : User × UserWire :=
  let u := { u with userNow := now }
  (initExtraVars u now,
    { sequence := u.sequence, idStr := u.id.idStr, roomId := u.roomId, loginId := u.loginId,
      validation := u.validation, status := u.status, statusMsg := u.statusMsg,
      fields := u.fields, userNow := u.userNow, userStatusTime := u.userStatusTime })

/-- `user::serialize` from an input archive. -/
def load (u : User) (w : UserWire) (now : Int) : User :=
  initExtraVars
    { u with
      sequence := w.sequence, id := { u.id with idStr := w.idStr }, roomId := w.roomId,
      loginId := w.loginId, validation := w.validation, status := w.status,
      statusMsg := w.statusMsg, fields := w.fields, userNow := w.userNow,
      userStatusTime := w.userStatusTime } now

@[simp] theorem ofNode_id (n : Node) (now : Int) : (ofNode n now).id = .ofNode n := rfl

@[simp] theorem assign_id (u o : User) : (u.assign o).id = u.id := rfl

end User

/-- `chat_gaming::room`. -/
structure Room where
  id : String := ""
  ownerId : UserKey := {}
  sequence : UInt32 := 0
  topic : String := ""
  password : String := ""
  laps : ℕ := 0
  maxPlayers : ℕ := 0
  pickups : Bool := false
  hasPassword : Bool := false
  versionRvgl : Bool := false
deriving DecidableEq, Repr

/-- The archived part of a room: everything but the password and the node of the owner. -/
structure RoomWire where
  sequence : UInt32 := 0
  id : String := ""
  ownerIdStr : String := ""
  topic : String := ""
  laps : ℕ := 0
  maxPlayers : ℕ := 0
  pickups : Bool := false
  hasPassword : Bool := false
  versionRvgl : Bool := false
deriving DecidableEq, Repr

/-- `room::serialize` from an input archive, into a new room. -/
def RoomWire.toRoom (w : RoomWire) : Room :=
  { id := w.id, ownerId := .ofIdStr w.ownerIdStr, sequence := w.sequence, topic := w.topic,
    laps := w.laps, maxPlayers := w.maxPlayers, pickups := w.pickups,
    hasPassword := w.hasPassword, versionRvgl := w.versionRvgl }

namespace Room

/-- `room::operator=`, which leaves the id alone. -/
def assign (r o : Room) : Room := { o with id := r.id }

/-- `room::generate_id`. -/
def generateId (r : Room) (now : Int) : Room :=
  { r with id := toString now ++ ":" ++ r.ownerId.idStr }

/-- `room::password(const std::string &)`. -/
def setPassword (r : Room) (p : String) : Room := { r with password := p, hasPassword := p ≠ "" }

/-- `room::serialize` into an output archive. -/
def toWire (r : Room) : RoomWire :=
  { sequence := r.sequence, id := r.id, ownerIdStr := r.ownerId.idStr, topic := r.topic,
    laps := r.laps, maxPlayers := r.maxPlayers, pickups := r.pickups,
    hasPassword := r.hasPassword, versionRvgl := r.versionRvgl }

@[simp] theorem assign_id (r o : Room) : (r.assign o).id = r.id := rfl

@[simp] theorem toRoom_id (w : RoomWire) : w.toRoom.id = w.id := rfl

end Room

end RvHouse
