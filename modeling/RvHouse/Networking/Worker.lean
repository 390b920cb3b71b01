import RvHouse.Messaging.Message

/-!
# The worker of the networking thread

`networking::worker::handle_message` turns a message of the GUI into calls of the group adapter, and
`networking::group_adapter_combine` repeats each call for every adapter that it holds. A message
whose class does not fit its id makes `dynamic_ptr_cast` throw, which ends the worker.
-/

namespace RvHouse

/-- A call of a `networking::group_adapter`. -/
inductive AdapterCall where
  | connect (self : User)
  | disconnect
  | refresh
  | send (msg channel : String) (seq : UInt32)
  | sendRoom (msg roomId : String) (seq : UInt32)
  | updateUser (u : User)
  | updateRoom (r : Room)
  | join (r : Room) (seq : UInt32)
  | joinRsp (uid : UserKey) (rspCode : PduId) (seq : UInt32)
  | handleMessage (msg : Message)
deriving DecidableEq

/-- What the worker does with a message. -/
inductive WorkerAct where
  /-- A call of `_group_adapter`. -/
  | adapter (c : AdapterCall)
  /-- `_version_update_client->fetch()`. -/
  | versionFetch
  /-- `_global_ignore_client->fetch()`. -/
  | globalIgnoreFetch
  /-- `_login_manager->login(msg)`. -/
  | login (msg : Message)
  /-- `_login_manager->register_user(msg)`. -/
  | registerUser (msg : Message)
  /-- `net_ip_block()->handle_message(msg)`. -/
  | ipBlock (msg : Message)
  /-- `_quit = true`. -/
  | quit
deriving DecidableEq

namespace Body

/-! ## Casts -/

/-- `dynamic_ptr_cast<message_user>`. -/
def asUser : Body → Option User
  | .user u => some u
  | .blockUsers u _ _ => some u
  | _ => none

/-- `dynamic_ptr_cast<message_room>`. -/
def asRoom : Body → Option Room
  | .room r => some r
  | _ => none

/-- `dynamic_ptr_cast<message_room_join>`. -/
def asRoomJoin : Body → Option (String × String)
  | .roomJoin rid pass => some (rid, pass)
  | _ => none

/-- `dynamic_ptr_cast<message_send>`. -/
def asSend : Body → Option String
  | .send str => some str
  | .sendRoom str _ => some str
  | .channel str _ => some str
  | _ => none

/-- `dynamic_ptr_cast<message_send_room>`. -/
def asSendRoom : Body → Option (String × String)
  | .sendRoom str rid => some (str, rid)
  | _ => none

end Body

namespace Worker

/-- An answer to a join request. -/
def joinRsp (msg : Message) (rspCode : PduId) : Option (List WorkerAct) := do
  let _ ← msg.body.asRoomJoin
  return [.adapter (.joinRsp msg.senderId rspCode msg.sequence)]

/-- `worker::handle_message`; `none` when a cast throws. -/
def handleMessage (msg : Message) : Option (List WorkerAct) :=
  match msg.id with
  | .connect => do return [.adapter (.connect (← msg.body.asUser))]
  | .disconnect => some [.adapter .disconnect]
  | .versionFetch => some [.versionFetch]
  | .globalIgnoreFetch => some [.globalIgnoreFetch]
  | .send => do return [.adapter (.send (← msg.body.asSend) "" msg.sequence)]
  | .sendRoom => do
    let (str, rid) ← msg.body.asSendRoom
    return [.adapter (.sendRoom str rid msg.sequence)]
  | .exitNow => some [.quit]
  | .login => some [.login msg]
  | .refresh => some [.adapter .refresh]
  | .reg => some [.registerUser msg]
  | .user => do return [.adapter (.updateUser (← msg.body.asUser))]
  | .blockUsers => some [.ipBlock msg, .adapter (.handleMessage msg)]
  | .room => do return [.adapter (.updateRoom (← msg.body.asRoom))]
  | .roomLaunch | .roomKick | .sendPrivate | .privateRefused | .sendNotification =>
    some [.adapter (.handleMessage msg)]
  | .roomJoin => do return [.adapter (.join (← msg.body.asRoom) msg.sequence)]
  | .roomJoinPass => joinRsp msg .roomJoinPassword
  | .roomJoinFull => joinRsp msg .roomJoinFull
  | .roomJoinAck => joinRsp msg .roomJoinAck
  -- `room_join_nack` ends up here.
  | _ => some []

/-- The calls of the adapters in `group_adapter_combine`, in order. -/
def combine {α : Type*} (gas : List α) (c : AdapterCall) : List (α × AdapterCall) :=
  gas.map (·, c)

/-- The calls of the adapters that a message leads to. -/
def adapterCalls {α : Type*} (gas : List α) (msg : Message) : List (α × AdapterCall) :=
  ((handleMessage msg).getD []).flatMap fun
    | .adapter c => combine gas c
    | _ => []

theorem adapterCalls_of_nil {α : Type*} (msg : Message) : adapterCalls ([] : List α) msg = [] := by
  unfold adapterCalls
  induction (handleMessage msg).getD [] with
  | nil => rfl
  | cons a as ih => cases a <;> exact ih

end Worker

end RvHouse
