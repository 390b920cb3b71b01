import RvHouse.Lib.Mesh
import RvHouse.Networking.Posts
import RvHouse.Networking.Serverless
import RvHouse.Networking.Worker

/-!
# What a client sends

The calls of `networking::group_handler_base` that do not come from the group: texts to all, to the
users of a room or to one user, and the requests about rooms. `Peer` is the networking thread for
one group, `networking::group_adapter_base` with its handler and the state of the group, and
`Peer.act` what it does with a message of the GUI or an event of the group.

`Tells` is what the data units of a message say and to whom; `mem_act_userData` is the only lemma
that opens the functions for it.
-/

namespace RvHouse

namespace Body

/-- `dynamic_ptr_cast<message_channel>`. -/
def asChannel : Body → Option (String × String)
  | .channel str ch => some (str, ch)
  | _ => none

/-- `dynamic_ptr_cast<message_block_users>`. -/
def asBlockUsers : Body → Option User
  | .blockUsers u _ _ => some u
  | _ => none

end Body

/-! ## The adapter of the house -/

/-- `netcomgrp_adapter::send_to`. -/
def sendTo (hdr : PduHeader) (body : PduBody) (n : Option Node) : Effect :=
  .send (.userData hdr body) n

namespace Handler

/-- `netcomgrp_adapter::send_to_room`. -/
def sendToRoom (s : Handler) (hdr : PduHeader) (body : PduBody) (rid : String) : List Effect :=
  (s.house.userIdsInRoom rid).map fun i => sendTo hdr body i.node

/-! ## The group handler -/

/-- `group_handler_base::send`. -/
def send (msg channel : String) (seq : UInt32) : List Effect :=
  [.send (.userData ⟨.message, seq⟩ (.message channel msg)) none]

/-- `group_handler_base::send_room`; the channel is the id of the room. -/
def sendRoom (s : Handler) (msg rid : String) (seq : UInt32) : List Effect :=
  s.sendToRoom ⟨.message, seq⟩ (.message rid msg) rid

/-- `group_handler_base::refresh`. -/
def refresh (s : Handler) : List Effect :=
  (s.house.users.toList.filterMap (·.id.node)).map fun n => .send .userReq (some n)

/-- `group_handler_base::join`. -/
def join (s : Handler) (r : Room) (seq : UInt32) : List Effect :=
  match s.house.userFind r.ownerId with
  | none => []
  | some ui => [sendTo ⟨.roomJoin, seq⟩ (.roomJoin r.id r.password) ui.id.node]

/-- `group_handler_base::join_rsp`. -/
def joinRsp (s : Handler) (uid : UserKey) (rsp : PduId) (seq : UInt32) : List Effect :=
  match s.house.userFindStr uid.idStr with
  | none => []
  | some ui => [sendTo ⟨rsp, seq⟩ .none ui.id.node]

/-- The id of the data unit for a room command. -/
def roomCommandPdu : MsgId → Option PduId
  | .roomKick => some .roomKick
  | .roomLaunch => some .roomLaunch
  | _ => none

/-- `group_handler_base::handle_room_command_message`. -/
def handleRoomCommandMessage (s : Handler) (msg : Message) : Option (List Effect) :=
  match msg.body with
  | .roomCommand rid tid =>
    match roomCommandPdu msg.id with
    | some cmd => some (s.sendToRoom ⟨cmd, msg.sequence⟩ (.roomCommand rid tid.idStr) rid)
    | none => some []
  | _ => none

/-- `group_handler_base::handle_send_private_message`: to the receiver and, for echo, to the client
itself. -/
def handleSendPrivateMessage (s : Handler) (msg : Message) : Option (List Effect) := do
  let (str, channel) ← msg.body.asChannel
  let userNodes := [(s.house.userFindStr msg.senderId.idStr).bind (·.id.node), s.grpSelf]
  return (userNodes.filterMap id).map fun n =>
    sendTo ⟨.messagePrivate, msg.sequence⟩ (.message channel str) (some n)

/-- `group_handler_base::handle_private_refused`. The node is not checked here. -/
def handlePrivateRefused (s : Handler) (msg : Message) : Option (List Effect) := do
  let (str, channel) ← msg.body.asChannel
  match s.house.userFindStr msg.senderId.idStr with
  | none => return []
  | some ui => return [sendTo ⟨.privateRefused, msg.sequence⟩ (.message channel str) ui.id.node]

/-- `group_handler_base::handle_send_notification_message`. -/
def handleSendNotificationMessage (s : Handler) (msg : Message) : Option (List Effect) := do
  let (str, channel) ← msg.body.asChannel
  let userNodes := [(s.house.userFindStr msg.senderId.idStr).bind (·.id.node)]
  return (userNodes.filterMap id).map fun n =>
    sendTo ⟨.messageNotification, msg.sequence⟩ (.message channel str) (some n)

/-- `group_handler_base::handle_block_users`. -/
def handleBlockUsers (s : Handler) (msg : Message) : Option (Handler × List Effect) := do
  let _ ← msg.body.asBlockUsers
  return s.removeBlockedUsers msg.sequence

/-- `group_handler_base::handle_message`; `none` when a cast throws. -/
def handleMessage (s : Handler) (msg : Message) : Option (Handler × List Effect) :=
  match msg.id with
  | .roomKick | .roomLaunch => (s.handleRoomCommandMessage msg).map (s, ·)
  | .sendPrivate => (s.handleSendPrivateMessage msg).map (s, ·)
  | .sendNotification => (s.handleSendNotificationMessage msg).map (s, ·)
  | .privateRefused => (s.handlePrivateRefused msg).map (s, ·)
  | .blockUsers => s.handleBlockUsers msg
  | _ => some (s, [])

end Handler

/-! ## The client -/

/-- `GROUP_MESSAGE`: the id of the group with the message base `base` that corresponds to `id`. -/
def groupMessage (base : Int) (id : MsgId) : MsgId :=
  .ofCode (id.code - MsgId.groupBase.code + base)

/-- The id that tells of a state. -/
def GroupState.msgId : GroupState → MsgId
  | .joining => .groupJoining
  | .joined => .groupJoined
  | .leaving => .groupLeaving
  | .notJoined => .groupNotJoined

/-- The message of `group_handler_base::state_changed`. -/
def Message.ofGroupState (base : Int) (st : GroupState) : Message :=
  .ofPlain (groupMessage base st.msgId)

example : groupMessage MsgId.ctzGroupBase.code .groupNotJoined = .ctzGroupNotJoined := by decide

/-- `networking::group_adapter_base`; `inState` is `_group->in_state()`. -/
structure Peer where
  handler : Handler
  inState : GroupState := .notJoined

/-- What reaches the networking thread, the packets aside. -/
inductive PeerInput where
  /-- A message of the GUI, which the worker handles. -/
  | message (m : Message) (now : Int)
  | nodeAdded (n : Node) (now : Int)
  | nodeRemoved (n : Node)
  /-- The group has a new state. -/
  | inState (st : GroupState)
  /-- The group learns or loses the node that is the client itself. -/
  | selfKnown (known : Bool)
deriving DecidableEq

namespace Peer

/-- The handler does what it does, and the group stays as it is. -/
def via (s : Peer) (r : Handler × List Effect) : Peer × List Effect :=
  ({ s with handler := r.1 }, r.2)

/-- A call of `group_adapter_base`. The calls that join and leave the group do nothing to the
handler: `group_handler_base::user_self` is empty, and the group reports its states itself. -/
def call (s : Peer) (c : AdapterCall) (now : Int) : Option (Peer × List Effect) :=
  match c with
  | .connect _ | .disconnect => some (s, [])
  | .refresh => some (s, s.handler.refresh)
  | .send msg channel seq =>
    some (s, if s.inState = .joined then Handler.send msg channel seq else [])
  | .sendRoom msg rid seq =>
    some (s, if s.inState = .joined then s.handler.sendRoom msg rid seq else [])
  | .updateUser u => some (s.via (s.handler.updateUser u now))
  | .updateRoom r => some (s.via (s.handler.updateRoom r))
  | .join r seq => some (s, s.handler.join r seq)
  | .joinRsp uid rsp seq => some (s, s.handler.joinRsp uid rsp seq)
  | .handleMessage msg => (s.handler.handleMessage msg).map s.via

/-- What the worker does with a message, as far as the group is concerned. -/
def workerAct (s : Peer) (now : Int) : WorkerAct → Option (Peer × List Effect)
  | .adapter c => s.call c now
  | .ipBlock m =>
    some ({ s with handler.ipBlock := s.handler.ipBlock.handleMessage m }, [])
  | _ => some (s, [])

/-- All that the worker does with a message, in order. -/
def workerActs (now : Int) : Peer → List WorkerAct → Option (Peer × List Effect)
  | s, [] => some (s, [])
  | s, a :: as => do
    let (s, out) ← s.workerAct now a
    let (s, out') ← workerActs now s as
    return (s, out ++ out')

/-- `worker::handle_message`. A cast that throws ends the worker, here without any effect. -/
def message (s : Peer) (m : Message) (now : Int) : Peer × List Effect :=
  ((Worker.handleMessage m).bind (workerActs now s)).getD (s, [])

/-- What a client does, `self` being its node. -/
def act (self : Node) (s : Peer) : Inbound Node PeerInput Payload Int → Peer × List Effect
  | .own (.message m now) => s.message m now
  | .own (.nodeAdded n now) => s.via (s.handler.nodeAdded n now)
  | .own (.nodeRemoved n) => s.via (s.handler.nodeRemoved n)
  | .own (.inState st) =>
    ({ s with inState := st }, [.post (.ofGroupState s.handler.grpMsgBase st)])
  | .own (.selfKnown known) =>
    ({ s with handler.grpSelf := if known then some self else none }, [])
  | .packet src p now => s.via (s.handler.dataReceived p src now)

/-- The client as it is constructed, for the group with a message base. -/
def init (base : Int) : Peer := { handler := .init base }

end Peer

end RvHouse
