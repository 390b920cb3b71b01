import RvHouse.Chat.House

/-!
# Messages between the threads, and data units between the nodes

A `Message` passes between the GUI thread and the networking thread: `message` and its subclasses,
told apart by the `Body`; the sender, the sequence and the group are those of `message_grouped`. A
`PduHeader` with a `PduBody` is what one node sends to another inside an `id_user_data` packet;
`Payload` is a packet as the receiver decodes it.
-/

namespace RvHouse

/-- The message ids, in the order of the source. -/
inductive MsgId where
  | connect | disconnect | statusUpdate | exitNow
  | login | loginErr | loginDone | loginFail
  | reg | regErr | regDone | regFail
  | dhtConnecting | dhtConnected | dhtDisconnecting | dhtDisconnected
  | dhtUpdNodes | dhtUpdNodesDone | dhtUpdNodesFail
  | dhtPeersFindStart | dhtPeersFindStop | dhtAnnounceStart | dhtAnnounceStop
  | groupBase | groupJoining | groupJoined | groupLeaving | groupNotJoined
  | dhtGroupBase | dhtGroupJoining | dhtGroupJoined | dhtGroupLeaving | dhtGroupNotJoined
  | ctzGroupBase | ctzGroupJoining | ctzGroupJoined | ctzGroupLeaving | ctzGroupNotJoined
  | ctzGroupServerUnreachable
  | externalIpFetching | externalIpFetchDone | externalIpFetchFail
  | user | userLeft
  | room | roomRemove | roomLaunch | roomKick
  | roomJoin | roomJoinPass | roomJoinFull | roomJoinAck | roomJoinNack
  | workerException
  | send | sendRoom | sendPrivate | sendNotification | privateRefused
  | refresh
  | version | versionForce | versionFetch
  | rvtmExited
  | blockUsers | globalIgnoreFetch | globalIgnoreList
  | last
deriving DecidableEq, Repr

/-- The number of a message id; the enumeration starts at one. -/
def MsgId.code (i : MsgId) : Int := i.ctorIdx + 1

/-- The message id with a number. -/
def MsgId.ofCode (c : Int) : MsgId := .ofNat (c - 1).toNat

/-- `message_block_users::ipandmask`. -/
structure IpAndMask where
  ip : UInt32 := 0xFFFFFFFF
  mask : UInt32 := 0xFFFFFFFF
deriving DecidableEq, Repr

/-- The class of a message, and what a subclass of `message_grouped` adds to it. -/
inductive Body where
  /-- `message` itself, or a subclass that is not grouped. -/
  | plain
  /-- `message_grouped` itself. -/
  | grouped
  /-- `message_user`. -/
  | user (user : User)
  /-- `message_room`. -/
  | room (room : Room)
  /-- `message_room_join`. -/
  | roomJoin (roomId password : String)
  /-- `message_room_command`. -/
  | roomCommand (roomId : String) (targetUserId : UserKey)
  /-- `message_send`. -/
  | send (str : String)
  /-- `message_send_room`. -/
  | sendRoom (str roomId : String)
  /-- `message_channel`. -/
  | channel (str channel : String)
  /-- `message_block_users`. -/
  | blockUsers (user : User) (ips : List IpAndMask) (globalIgnore : Bool)
deriving DecidableEq, Repr

/-- `message_grouped`, of one class or another. -/
structure Message where
  id : MsgId
  senderId : UserKey
  sequence : UInt32
  groupBase : Int
  body : Body
deriving DecidableEq, Repr

namespace Message

/-- `message(int)`. -/
def ofPlain (id : MsgId) : Message := ⟨id, {}, 0, 0, .plain⟩

/-- `message_user(int, const user &, unsigned, int)`. -/
def ofUser (id : MsgId) (u : User) (seq : UInt32) (groupBase : Int) : Message :=
  ⟨id, u.id, seq, groupBase, .user { u with sequence := seq }⟩

/-- `message_room(int, const room &, const user_key &, unsigned, int)`. -/
def ofRoom (id : MsgId) (r : Room) (uid : UserKey) (seq : UInt32) (groupBase : Int) : Message :=
  ⟨id, uid, seq, groupBase, .room { r with sequence := seq }⟩

/-- `message_room_join(int, id_type, string, user_key, unsigned, int)`. -/
def ofRoomJoin (id : MsgId) (rid pass : String) (uid : UserKey) (seq : UInt32) (groupBase : Int) :
    Message :=
  ⟨id, uid, seq, groupBase, .roomJoin rid pass⟩

/-- `message_room_command(int, id_type, user_key, user_key, unsigned, int)`. -/
def ofRoomCommand (id : MsgId) (rid : String) (tid sid : UserKey) (seq : UInt32)
    (groupBase : Int) : Message :=
  ⟨id, sid, seq, groupBase, .roomCommand rid tid⟩

/-- `message_channel(int, string, user_key, string, unsigned, int)`. -/
def ofChannel (id : MsgId) (str : String) (uid : UserKey) (channel : String) (seq : UInt32)
    (groupBase : Int) : Message :=
  ⟨id, uid, seq, groupBase, .channel str channel⟩

/-- `message_grouped(int, user_key, unsigned, int)`. -/
def ofGrouped (id : MsgId) (uid : UserKey) (seq : UInt32) (groupBase : Int) : Message :=
  ⟨id, uid, seq, groupBase, .grouped⟩

/-- `message_block_users(int, const user &, unsigned, int)`. -/
def ofBlockUsers (id : MsgId) (u : User) (seq : UInt32) (groupBase : Int) : Message :=
  ⟨id, u.id, seq, groupBase, .blockUsers { u with sequence := seq } [] false⟩

/-- A message of the group `grp`, and when it brings a user, one that has a node. -/
structure Of (grp : Int) (msg : Message) : Prop where
  group : msg.groupBase = grp
  node : ∀ u, msg.body = .user u → u.id.node ≠ none

end Message

/-! ## Data units -/

/-- The ids of `chat_gaming::pdu`; a header may hold a number that is none of them. -/
inductive PduId where
  | message | roomJoin | roomJoinAck | roomJoinFull | roomJoinRefused | roomJoinPassword
  | roomLaunch | roomKick
  | messagePrivate | privateRefused
  | userBlocked
  | messageNotification
  | other (code : Int)
deriving DecidableEq, Repr

/-- `chat_gaming::pdu::header`. -/
structure PduHeader where
  id : PduId
  sequence : UInt32
deriving DecidableEq, Repr

/-- What follows the header in a packet of user data. -/
inductive PduBody where
  | none
  /-- `pdu::message`. -/
  | message (channel data : String)
  /-- `pdu::room_join`. -/
  | roomJoin (roomId password : String)
  /-- `pdu::room_command`; the node of the target does not travel. -/
  | roomCommand (roomId targetIdStr : String)
deriving DecidableEq, Repr

/-- A packet, by the payload type of its header. -/
inductive Payload where
  | userReq
  | userUpdate (w : UserWire)
  | userData (hdr : PduHeader) (body : PduBody)
  | roomUpdate (w : RoomWire)
  /-- Any other payload type. -/
  | unrecognized (payloadType : Int)
  /-- The archive ends early or holds something else: reading it throws. -/
  | malformed
deriving DecidableEq, Repr

end RvHouse
