import RvHouse.Lib.Mealy
import RvHouse.Networking.IpBlock

/-!
# The group handler

`networking::group_handler_base` together with the `chat::comm::netcomgrp_adapter` that it owns:
they keep the house of one group in step with the nodes that come and go and with the packets that
the nodes send. `Handler.machine` is the handler as a system that answers each `Event` with the
messages that it posts to the GUI and the packets that it sends.

A user is written through the iterator `ui` of the source: `userUpdate` returns the entry as it
left it, and its callers store it. Where the source dereferences an iterator that may be
`room_end()`, the model records `Effect.derefRoomEnd` and goes on as if there were no room to close.
-/

namespace RvHouse

/-- What the handler does to its surroundings. -/
inductive Effect where
  /-- `gui_messenger()->send_msg`. -/
  | post (m : Message)
  /-- `netcomgrp::group::send`, to one node or to all. -/
  | send (p : Payload) (dest : Option Node)
  /-- The `room_end()` that a search for the room gave was dereferenced. -/
  | derefRoomEnd (roomId : String)
deriving DecidableEq, Repr

/-- The message of an effect that posts one. -/
def Effect.message? : Effect → Option Message
  | .post m => some m
  | _ => none

/-- The messages posted, in order. -/
def posted (out : List Effect) : List Message := out.filterMap Effect.message?

/-- The state of the handler and its adapter; `grpSelf` is `_grp->self()` and `ipBlock` is
`net_ip_block()`. -/
structure Handler where
  grpMsgBase : Int
  house : House := {}
  selfUser : User := {}
  selfRoom : Room := {}
  grpSelf : Option Node := none
  ipBlock : IpBlock := {}

/-- What reaches the handler, `now` being the time of the arrival. -/
inductive Event where
  | nodeAdded (n : Node) (now : Int)
  | nodeRemoved (n : Node)
  | dataReceived (p : Payload) (n : Node) (now : Int)
  /-- `update(const user &)`. -/
  | updateUser (u : User) (now : Int)
  /-- `update(const room &)`. -/
  | updateRoom (r : Room)
  /-- `message::block_users`, which the store of blocked addresses handles first. -/
  | blockUsers (m : Message)
  /-- The group learns or loses the node that is the client itself. -/
  | selfChanged (n : Option Node)
deriving DecidableEq

/-! ## Users and rooms that leave -/

/-- `group_handler_base::_room_closed_update`. -/
def roomClosedUpdate (base : Int) (h : House) (id : String) (senderId : UserKey) :
    House × List Effect :=
  match h.roomFind id with
  | some r => (h.roomErase r.id, [.post (.ofRoom .roomRemove r senderId 0 base)])
  | none => (h, [])

/-- `group_handler_base::user_erased`. -/
def userErased (base : Int) (h : House) (u : User) : House × List Effect :=
  let (h, out) :=
    if u.roomId ≠ "" then
      match h.roomFind u.roomId with
      | some r => if r.ownerId.eqv u.id then roomClosedUpdate base h u.roomId u.id else (h, [])
      | none => (h, [])
    else (h, [])
  (h, out ++ [.post (.ofUser .userLeft u 0 base)])

/-- The two references of `user_update` after the call, and what the call did. -/
structure Updated where
  house : House
  old : User
  upd : User
  out : List Effect

/-- The first part of `group_handler_base::user_update`: the entry takes the name of the data when
it has none yet, and a user with another name is first erased. -/
def userRename (base : Int) (h : House) (old upd : User) : House × User × List Effect :=
  if old.id.idStr = "" then (h, { old with id := upd.id }, [])
  else if upd.id.idStr ≠ "" ∧ old.id.idStr ≠ upd.id.idStr then
    let (h, out) := userErased base h old
    (h, { old with id := upd.id }, out)
  else (h, old, [])

/-- The second part: an update may close the room that the entry was in. -/
def userLeave (base : Int) (h : House) (old upd : User) : House × List Effect :=
  if old.roomId ≠ "" ∧ old.roomId ≠ upd.roomId then
    match h.roomFind old.roomId with
    | some r => if r.ownerId.eqv upd.id then roomClosedUpdate base h old.roomId upd.id else (h, [])
    -- The search is not checked here, unlike in `userErased`.
    | none => (h, [.derefRoomEnd old.roomId])
  else (h, [])

/-- `group_handler_base::user_update`. -/
def userUpdate (base : Int) (h : House) (old upd : User) : Updated :=
  let newKey : UserKey := { upd.id with node := old.id.node }
  let upd := { upd with id := newKey }
  let (h, old, out) := userRename base h old upd
  let (h, out') := userLeave base h old upd
  ⟨h, old, upd, out ++ out' ++ [.post (.ofUser .user upd upd.sequence base)]⟩

/-! ## Notifications of the adapter -/

/-- `group_handler_base::room_update`, `r` being the entry of the house. -/
def roomUpdate (base : Int) (h : House) (r : Room) (sender : Node) : House × List Effect :=
  match h.userFind (.ofNode sender) with
  | none => (h, [])
  | some ui =>
    let r := { r with ownerId := ui.id }
    (h.roomStore r, [.post (.ofRoom .room r ui.id r.sequence base)])

/-- `group_handler_base::user_data_available`. A body that does not fit the header makes the
archive throw. -/
def userDataAvailable (base : Int) (u : User) (hdr : PduHeader) (body : PduBody) :
    Option Message :=
  let seq := hdr.sequence
  match hdr.id, body with
  | .message, .message channel data => some (.ofChannel .send data u.id channel seq base)
  | .messagePrivate, .message channel data =>
    some (.ofChannel .sendPrivate data u.id channel seq base)
  | .messageNotification, .message channel data =>
    some (.ofChannel .sendNotification data u.id channel seq base)
  | .privateRefused, .message channel data =>
    some (.ofChannel .privateRefused data u.id channel seq base)
  | .roomLaunch, .roomCommand rid tid =>
    some (.ofRoomCommand .roomLaunch rid (.ofIdStr tid) u.id seq base)
  | .roomKick, .roomCommand rid tid =>
    some (.ofRoomCommand .roomKick rid (.ofIdStr tid) u.id seq base)
  | .roomJoin, .roomJoin rid pass => some (.ofRoomJoin .roomJoin rid pass u.id seq base)
  | .roomJoinAck, _ => some (.ofGrouped .roomJoinAck u.id seq base)
  | .roomJoinFull, _ => some (.ofGrouped .roomJoinFull u.id seq base)
  | .roomJoinRefused, _ => some (.ofGrouped .roomJoinNack u.id seq base)
  | .roomJoinPassword, _ => some (.ofGrouped .roomJoinPass u.id seq base)
  | .userBlocked, _ => some (.ofBlockUsers .blockUsers u seq base)
  | _, _ => none

namespace Handler

/-! ## The adapter -/

/-- `netcomgrp_adapter::_recv_user_req`. Saving the own user sets its time. -/
def recvUserReq (s : Handler) (sender : Node) (now : Int) : Handler × List Effect :=
  let (self, w) := s.selfUser.save now
  ({ s with selfUser := self },
    .send (.userUpdate w) (some sender) ::
      if self.roomId ≠ "" ∧ self.roomId = s.selfRoom.id then
        [.send (.roomUpdate s.selfRoom.toWire) (some sender)]
      else [])

/-- `netcomgrp_adapter::_recv_user_update`. -/
def recvUserUpdate (s : Handler) (w : UserWire) (sender : Node) (now : Int) :
    Handler × List Effect :=
  match s.house.userFind (.ofNode sender) with
  | none => (s, [])
  | some ui =>
    let userInfo := (User.ofNode sender now).load w now
    -- Meant to ignore updates with an empty id, but no key equals the key without a node.
    if userInfo.id.eqv {} then (s, [])
    else
      let r := userUpdate s.grpMsgBase s.house ui userInfo
      ({ s with house := r.house.userStore (r.old.assign r.upd) }, r.out)

/-- `netcomgrp_adapter::_recv_room_update`. -/
def recvRoomUpdate (s : Handler) (w : RoomWire) (sender : Node) : Handler × List Effect :=
  let roomInfo := w.toRoom
  if roomInfo.id = "" then (s, [])
  else
    match s.house.roomFind roomInfo.id with
    | some ri =>
      match s.house.userFind ri.ownerId with
      | none => (s, [])
      | some ui =>
        if ui.id.node = some sender then
          let ri := ri.assign roomInfo
          let (h, out) := roomUpdate s.grpMsgBase (s.house.roomStore ri) ri sender
          ({ s with house := h }, out)
        else (s, [])
    | none =>
      match s.house.roomInsert roomInfo with
      | none => (s, [])
      | some h =>
        let (h, out) := roomUpdate s.grpMsgBase h roomInfo sender
        ({ s with house := h }, out)

/-- `netcomgrp_adapter::_recv_user_data`. -/
def recvUserData (s : Handler) (hdr : PduHeader) (body : PduBody) (sender : Node) :
    Handler × List Effect :=
  match s.house.userFind (.ofNode sender) with
  | none => (s, [])
  | some ui => (s, ((userDataAvailable s.grpMsgBase ui hdr body).map Effect.post).toList)

/-- `netcomgrp_adapter::node_added`. -/
def adapterNodeAdded (s : Handler) (n : Node) (now : Int) : Handler × List Effect :=
  let u := User.ofNode n now
  match s.house.userInsert u with
  | none => (s, [])
  | some h =>
    ({ s with house := h }, [.post (.ofUser .user u 0 s.grpMsgBase), .send .userReq (some n)])

/-! ## Events of the group -/

/-- The part of `group_handler_base::node_added` for the node that is the client itself. -/
def selfAdded (s : Handler) (n : Node) : Handler × List Effect :=
  match s.house.userFind (.ofNode n) with
  | none => (s, [])
  | some ui =>
    let r := userUpdate s.grpMsgBase s.house ui s.selfUser
    let ui := r.old.assign r.upd
    let newKey := { ui.id with idStr := r.upd.id.idStr }
    ({ s with
        house := r.house.userStore { ui with id := newKey }
        selfUser := { r.upd with id := newKey } }, r.out)

/-- `group_handler_base::node_added`. -/
def nodeAdded (s : Handler) (n : Node) (now : Int) : Handler × List Effect :=
  if s.ipBlock.isBlocked n.ip then (s, [])
  else
    let (s, out) := s.adapterNodeAdded n now
    if s.grpSelf = some n then
      let (s, out') := s.selfAdded n
      (s, out ++ out')
    else (s, out)

/-- `group_handler_base::node_removed`. -/
def nodeRemoved (s : Handler) (n : Node) : Handler × List Effect :=
  match s.house.userFind (.ofNode n) with
  | none => (s, [])
  | some ui =>
    let (h, out) := userErased s.grpMsgBase s.house ui
    ({ s with house := h.userErase ui.id }, out)

/-- `group_handler_base::data_received`. -/
def dataReceived (s : Handler) (p : Payload) (n : Node) (now : Int) : Handler × List Effect :=
  if s.ipBlock.isBlocked n.ip then (s, [])
  else
    match p with
    | .userReq => s.recvUserReq n now
    | .userData hdr body => s.recvUserData hdr body n
    | .roomUpdate w => s.recvRoomUpdate w n
    | .userUpdate w => s.recvUserUpdate w n now
    | .unrecognized _ => (s, [])
    | .malformed => (s, [])

/-- The nodes that `remove_blocked_users` collects. -/
def blockedNodes (s : Handler) : List Node :=
  (s.house.users.toList.filterMap fun u => u.id.node).filter fun n => s.ipBlock.isBlocked n.ip

/-- The loop of `group_handler_base::remove_blocked_users` over the nodes collected. -/
def removeNodes (seq : UInt32) : Handler → List Node → Handler × List Effect
  | s, [] => (s, [])
  | s, n :: ns =>
    let (s, out) := s.nodeRemoved n
    let (s, out') := removeNodes seq s ns
    (s, .send (.userData ⟨.userBlocked, seq⟩ .none) (some n) :: out ++ out')

/-- `group_handler_base::remove_blocked_users`. -/
def removeBlockedUsers (s : Handler) (seq : UInt32) : Handler × List Effect :=
  removeNodes seq s s.blockedNodes

/-! ## Updates of the client itself -/

/-- `group_handler_base::update(const chat_gaming::user &)`. -/
def updateUser (s : Handler) (u : User) (now : Int) : Handler × List Effect :=
  let self := s.selfUser.assign u
  let self := if self.id.empty then { self with id := u.id } else self
  ({ s with selfUser := self }, [.send (.userUpdate (u.save now).2) none])

/-- `group_handler_base::update(const chat_gaming::room &)`. -/
def updateRoom (s : Handler) (r : Room) : Handler × List Effect :=
  ({ s with selfRoom := { s.selfRoom.assign r with id := r.id } },
    [.send (.roomUpdate r.toWire) none])

/-! ## The machine -/

/-- One event. -/
def step (s : Handler) : Event → Handler × List Effect
  | .nodeAdded n now => s.nodeAdded n now
  | .nodeRemoved n => s.nodeRemoved n
  | .dataReceived p n now => s.dataReceived p n now
  | .updateUser u now => s.updateUser u now
  | .updateRoom r => s.updateRoom r
  | .blockUsers m => { s with ipBlock := s.ipBlock.handleMessage m }.removeBlockedUsers m.sequence
  | .selfChanged n => ({ s with grpSelf := n }, [])

/-- The handler as a machine. -/
def machine : Mealy Handler Event Effect := ⟨step⟩

/-- The handler of a group as it is constructed. -/
def init (base : Int) : Handler := { grpMsgBase := base }

end Handler

end RvHouse
