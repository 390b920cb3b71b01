import RvHouse.Networking.Frame
import RvHouse.Networking.Sending

/-!
# What a client does

One lemma for everything that can happen to a client: `Peer.act_outcome` says that it is an event of
the handler's machine, or a message of the GUI that is told to others (`Peer.Tells`). What an event
sends and posts is said once by `Handler.mem_step_send` and `Handler.mem_step_post`.
-/

namespace RvHouse

/-! ## Every user has a node -/

namespace Handler

/-- All keys without a node are one for the house, and none of them is in it. -/
def Noded (s : Handler) : Prop := s.house.userFind {} = none

theorem Noded.of_mem {s : Handler} (hs : s.Noded) {u : User} (hu : u ∈ s.house.users.toList) :
    ∃ n, u.id.node = some n := by
  cases hn : u.id.node with
  | some n => exact ⟨n, rfl⟩
  | none =>
    have hempty : s.house.userFind {} = some u :=
      (House.userFind_congr hn.symm).trans (House.mem_users.1 hu)
    simp [Noded, hempty] at hs

theorem Noded.frame {s : Handler} {n : Node} {r : Handler × List Effect} (hs : s.Noded)
    (hr : Frame s n r) : r.1.Noded :=
  (hr.users {} (by simp)).trans hs

theorem frame_dataReceived (s : Handler) (p : Payload) (n : Node) (now : Int) :
    Frame s n (s.dataReceived p n now) := by
  unfold dataReceived
  split
  · exact frame_rfl s n
  cases p with
  | userReq => exact frame_recvUserReq s n now
  | userUpdate w => exact frame_recvUserUpdate s w n now
  | userData hdr body => exact frame_recvUserData s hdr body n
  | roomUpdate w => exact frame_recvRoomUpdate s w n
  | unrecognized _ => exact frame_rfl s n
  | malformed => exact frame_rfl s n

theorem Noded.selfAdded {s : Handler} (hs : s.Noded) (n : Node) : (s.selfAdded n).1.Noded := by
  cases hf : s.house.userFind (.ofNode n) with
  | none =>
    rw [selfAdded_of_none hf]
    exact hs
  | some ui =>
    rw [selfAdded_of_find hf]
    simp only [Noded] at hs ⊢
    rw [House.userFind_userStore, userFind_userUpdate_house, hs]
    simp

theorem Noded.nodeAdded {s : Handler} (hs : s.Noded) (n : Node) (now : Int) :
    (s.nodeAdded n now).1.Noded := by
  have hadd : (s.adapterNodeAdded n now).1.Noded := by
    have ha := adapterNodeAdded_outcome s n now
    generalize s.adapterNodeAdded n now = a at ha ⊢
    cases ha with
    | present => exact hs
    | added _ husers _ => exact (husers {}).trans ((if_neg (by simp)).trans hs)
  rw [nodeAdded_eq]
  split
  · exact hs
  · split
    · exact hadd.selfAdded n
    · exact hadd

theorem Noded.removeNodes {s : Handler} (hs : s.Noded) (seq : UInt32) (ns : List Node) :
    (Handler.removeNodes seq s ns).1.Noded := by
  induction ns generalizing s with
  | nil => exact hs
  | cons n ns ih => exact ih (hs.frame (frame_nodeRemoved s n))

theorem Noded.step {s : Handler} (hs : s.Noded) (e : Event) : (s.step e).1.Noded := by
  cases e with
  | nodeAdded n now => exact hs.nodeAdded n now
  | nodeRemoved n => exact hs.frame (frame_nodeRemoved s n)
  | dataReceived p n now => exact hs.frame (frame_dataReceived s p n now)
  | updateUser => exact hs
  | updateRoom => exact hs
  | blockUsers m =>
    have hs' : { s with ipBlock := s.ipBlock.handleMessage m }.Noded := hs
    exact hs'.removeNodes m.sequence _
  | selfChanged => exact hs

end Handler

/-! ## What the handler sends and posts -/

namespace Handler

/-- A packet that an event makes the handler send, with its destination. -/
inductive Sends (s : Handler) : Event → Payload → Option Node → Prop where
  | userReq {n now} (hf : s.house.userFind (.ofNode n) = none) :
    Sends s (.nodeAdded n now) .userReq (some n)
  | selfUser {n now} :
    Sends s (.dataReceived .userReq n now) (.userUpdate (s.selfUser.save now).2) (some n)
  | selfRoom {n now} (hroom : s.selfUser.roomId ≠ "" ∧ s.selfUser.roomId = s.selfRoom.id) :
    Sends s (.dataReceived .userReq n now) (.roomUpdate s.selfRoom.toWire) (some n)
  | updateUser {u now} : Sends s (.updateUser u now) (.userUpdate (u.save now).2) none
  | updateRoom {r} : Sends s (.updateRoom r) (.roomUpdate r.toWire) none
  | userBlocked {m n} (hn : n ∈ { s with ipBlock := s.ipBlock.handleMessage m }.blockedNodes) :
    Sends s (.blockUsers m) (.userData ⟨.userBlocked, m.sequence⟩ .none) (some n)

variable {s : Handler} {p : Payload} {d : Option Node}

theorem send_not_mem_map_post {ms : List Message} : .send p d ∉ ms.map Effect.post := by
  simp

theorem send_not_mem_userUpdate {base : Int} {h : House} {old upd : User} :
    .send p d ∉ (userUpdate base h old upd).out := by
  rw [userUpdate_eq]
  simp only [userErased_eq]
  split_ifs <;> simp

theorem send_not_mem_selfAdded {n : Node} : .send p d ∉ (s.selfAdded n).2 := by
  cases hf : s.house.userFind (.ofNode n) with
  | none => simp [selfAdded_of_none hf]
  | some ui =>
    rw [selfAdded_of_find hf]
    exact send_not_mem_userUpdate

theorem send_not_mem_nodeRemoved {n : Node} : .send p d ∉ (s.nodeRemoved n).2 := by
  cases hf : s.house.userFind (.ofNode n) with
  | none => simp [nodeRemoved_of_none hf]
  | some ui =>
    rw [nodeRemoved_of_find hf]
    exact send_not_mem_map_post

theorem mem_removeNodes_send {seq : UInt32} {ns : List Node}
    (h : .send p d ∈ (removeNodes seq s ns).2) :
    p = .userData ⟨.userBlocked, seq⟩ .none ∧ ∃ n ∈ ns, d = some n := by
  induction ns generalizing s with
  | nil => cases h
  | cons n ns ih =>
    simp only [removeNodes, List.mem_append, List.mem_cons] at h
    rcases h with (h | h) | h
    · cases h
      exact ⟨rfl, n, List.mem_cons_self, rfl⟩
    · exact absurd h send_not_mem_nodeRemoved
    · obtain ⟨hp, m, hm, hd⟩ := ih h
      exact ⟨hp, m, List.mem_cons_of_mem n hm, hd⟩

theorem mem_nodeAdded_send {n : Node} {now : Int} (h : .send p d ∈ (s.nodeAdded n now).2) :
    Sends s (.nodeAdded n now) p d := by
  have hadd (h : .send p d ∈ (s.adapterNodeAdded n now).2) : Sends s (.nodeAdded n now) p d := by
    have ha := adapterNodeAdded_outcome s n now
    generalize s.adapterNodeAdded n now = a at ha h
    cases ha with
    | present => cases h
    | added hf =>
      obtain ⟨rfl, rfl⟩ : p = .userReq ∧ d = some n := by simpa using h
      exact .userReq hf
  rw [nodeAdded_eq] at h
  split at h
  · cases h
  · split at h
    · exact hadd ((List.mem_append.1 h).resolve_right send_not_mem_selfAdded)
    · exact hadd h

theorem mem_dataReceived_send {q : Payload} {n : Node} {now : Int}
    (h : .send p d ∈ (s.dataReceived q n now).2) : Sends s (.dataReceived q n now) p d := by
  unfold dataReceived at h
  split at h
  · cases h
  cases q with
  | userReq =>
    simp only [recvUserReq, List.mem_cons] at h
    rcases h with h | h
    · cases h
      exact .selfUser
    · split at h
      · rename_i hroom
        cases List.mem_singleton.1 h
        exact .selfRoom hroom
      · cases h
  | userUpdate w =>
    cases hf : s.house.userFind (.ofNode n) with
    | none => simp [recvUserUpdate_of_none hf] at h
    | some ui =>
      simp only [recvUserUpdate_of_find hf] at h
      exact absurd h send_not_mem_userUpdate
  | userData hdr body =>
    simp only [recvUserData] at h
    split at h
    · cases h
    · simp at h
  | roomUpdate w =>
    have hr := recvRoomUpdate_outcome s w n
    simp only at h
    generalize s.recvRoomUpdate w n = r at hr h
    cases hr <;> simp at h
  | unrecognized => cases h
  | malformed => cases h

/-- **What an event sends.** -/
theorem mem_step_send {e : Event} (h : .send p d ∈ (s.step e).2) : Sends s e p d := by
  cases e with
  | nodeAdded n now => exact mem_nodeAdded_send h
  | nodeRemoved n => exact absurd h send_not_mem_nodeRemoved
  | dataReceived q n now => exact mem_dataReceived_send h
  | updateUser u now =>
    cases List.mem_singleton.1 h
    exact .updateUser
  | updateRoom r =>
    cases List.mem_singleton.1 h
    exact .updateRoom
  | blockUsers m =>
    obtain ⟨rfl, n, hn, rfl⟩ := mem_removeNodes_send h
    exact .userBlocked hn
  | selfChanged n => cases h

/-- The messages that bring the model of the GUI up to date. -/
def news : List MsgId := [.user, .userLeft, .room, .roomRemove]

theorem news_of_userUpdate {base : Int} {h : House} {old upd : User} {m : Message}
    (hm : .post m ∈ (userUpdate base h old upd).out) : m.id ∈ news := by
  rcases mem_posted_userUpdate (mem_posted.2 hm) with ⟨r, k, -, rfl⟩ | rfl | rfl
  · simp [news, Message.ofRoom]
  · simp [news, Message.ofUser]
  · simp [news, Message.ofUser]

theorem news_of_selfAdded {n : Node} {m : Message} (hm : .post m ∈ (s.selfAdded n).2) :
    m.id ∈ news := by
  cases hf : s.house.userFind (.ofNode n) with
  | none => simp [selfAdded_of_none hf] at hm
  | some ui =>
    rw [selfAdded_of_find hf] at hm
    exact news_of_userUpdate hm

theorem news_of_nodeRemoved {n : Node} {m : Message} (hm : .post m ∈ (s.nodeRemoved n).2) :
    m.id ∈ news := by
  cases hf : s.house.userFind (.ofNode n) with
  | none => simp [nodeRemoved_of_none hf] at hm
  | some ui =>
    rw [nodeRemoved_of_find hf, ← mem_posted, posted_map_post, List.mem_append] at hm
    rcases hm with hm | hm
    · obtain ⟨r, rfl⟩ := House.mem_closeMsgs hm
      simp [news, Message.ofRoom]
    · cases List.mem_singleton.1 hm
      simp [news, Message.ofUser]

theorem news_of_removeNodes {seq : UInt32} {ns : List Node} {m : Message}
    (hm : .post m ∈ (removeNodes seq s ns).2) : m.id ∈ news := by
  induction ns generalizing s with
  | nil => cases hm
  | cons n ns ih =>
    simp only [removeNodes, List.mem_append, List.mem_cons] at hm
    rcases hm with (hm | hm) | hm
    · cases hm
    · exact news_of_nodeRemoved hm
    · exact ih hm

theorem news_of_nodeAdded {n : Node} {now : Int} {m : Message}
    (hm : .post m ∈ (s.nodeAdded n now).2) : m.id ∈ news := by
  have hadd (h : .post m ∈ (s.adapterNodeAdded n now).2) : m.id ∈ news := by
    have ha := adapterNodeAdded_outcome s n now
    generalize s.adapterNodeAdded n now = a at ha h
    cases ha with
    | present => cases h
    | added =>
      obtain rfl : m = .ofUser .user (User.ofNode n now) 0 s.grpMsgBase := by simpa using h
      simp [news, Message.ofUser]
  rw [nodeAdded_eq] at hm
  split at hm
  · cases hm
  · split at hm
    · exact (List.mem_append.1 hm).elim hadd news_of_selfAdded
    · exact hadd hm

/-- **What an event posts** is news of the house, or comes from the data unit that arrives. -/
theorem mem_step_post {e : Event} {m : Message} (hm : .post m ∈ (s.step e).2) :
    m.id ∈ news ∨ ∃ hdr body n now ui, e = .dataReceived (.userData hdr body) n now ∧
      s.house.userFind (.ofNode n) = some ui ∧
      userDataAvailable s.grpMsgBase ui hdr body = some m := by
  cases e with
  | nodeAdded n now => exact .inl (news_of_nodeAdded hm)
  | nodeRemoved n => exact .inl (news_of_nodeRemoved hm)
  | dataReceived q n now =>
    simp only [step, dataReceived] at hm
    split at hm
    · cases hm
    cases q with
    | userReq =>
      simp only [recvUserReq] at hm
      split at hm <;> simp at hm
    | userUpdate w =>
      cases hf : s.house.userFind (.ofNode n) with
      | none => simp [recvUserUpdate_of_none hf] at hm
      | some ui =>
        simp only [recvUserUpdate_of_find hf] at hm
        exact .inl (news_of_userUpdate hm)
    | userData hdr body =>
      simp only [recvUserData] at hm
      split at hm
      · cases hm
      · rename_i ui hui
        refine .inr ⟨hdr, body, n, now, ui, rfl, hui, ?_⟩
        simpa using hm
    | roomUpdate w =>
      have hr := recvRoomUpdate_outcome s w n
      simp only at hm
      generalize s.recvRoomUpdate w n = r at hr hm
      cases hr with
      | ignored => cases hm
      | orphan => cases hm
      | put =>
        cases List.mem_singleton.1 hm
        exact .inl (by simp [news, Message.ofRoom])
    | unrecognized => cases hm
    | malformed => cases hm
  | updateUser u now => simp [step, updateUser] at hm
  | updateRoom r => simp [step, updateRoom] at hm
  | blockUsers m => exact .inl (news_of_removeNodes hm)
  | selfChanged n => cases hm

end Handler

/-! ## What a client does -/

namespace Peer

/-- The nodes of the users in a room. -/
def roomNodes (s : Peer) (rid : String) : List Node :=
  (s.handler.house.userIdsInRoom rid).filterMap UserKey.node

/-- The node of the first user with a name. -/
def named (s : Peer) (idStr : String) : Option Node :=
  (s.handler.house.userFindStr idStr).bind (·.id.node)

/-- What reaches the client is this event for the handler. -/
inductive IsEvent (self : Node) : Inbound Node PeerInput Payload Int → Event → Prop where
  | nodeAdded {n now} : IsEvent self (.own (.nodeAdded n now)) (.nodeAdded n now)
  | nodeRemoved {n} : IsEvent self (.own (.nodeRemoved n)) (.nodeRemoved n)
  | selfKnown {known} :
    IsEvent self (.own (.selfKnown known)) (.selfChanged (if known then some self else none))
  | packet {src p now} : IsEvent self (.packet src p now) (.dataReceived p src now)
  | updateUser {m now u} (hid : m.id = .user) (hb : m.body.asUser = some u) :
    IsEvent self (.own (.message m now)) (.updateUser u now)
  | updateRoom {m now r} (hid : m.id = .room) (hb : m.body.asRoom = some r) :
    IsEvent self (.own (.message m now)) (.updateRoom r)
  | blockUsers {m now u} (hid : m.id = .blockUsers) (hb : m.body.asBlockUsers = some u) :
    IsEvent self (.own (.message m now)) (.blockUsers m)

/-- A data unit that the message `m` of the GUI leads to, with its destination. -/
inductive Tells (s : Peer) (m : Message) : PduHeader → PduBody → Option Node → Prop where
  | send {str} (hid : m.id = .send) (hb : m.body.asSend = some str) (hj : s.inState = .joined) :
    Tells s m ⟨.message, m.sequence⟩ (.message "" str) none
  | sendRoom {str rid k} (hid : m.id = .sendRoom) (hb : m.body = .sendRoom str rid)
      (hj : s.inState = .joined) (hk : k ∈ s.handler.house.userIdsInRoom rid) :
    Tells s m ⟨.message, m.sequence⟩ (.message rid str) k.node
  | sendPrivate {str ch n} (hid : m.id = .sendPrivate) (hb : m.body = .channel str ch)
      (hn : s.named m.senderId.idStr = some n ∨ s.handler.grpSelf = some n) :
    Tells s m ⟨.messagePrivate, m.sequence⟩ (.message ch str) (some n)
  | sendNotification {str ch n} (hid : m.id = .sendNotification) (hb : m.body = .channel str ch)
      (hn : s.named m.senderId.idStr = some n) :
    Tells s m ⟨.messageNotification, m.sequence⟩ (.message ch str) (some n)
  | privateRefused {str ch ui} (hid : m.id = .privateRefused) (hb : m.body = .channel str ch)
      (hui : s.handler.house.userFindStr m.senderId.idStr = some ui) :
    Tells s m ⟨.privateRefused, m.sequence⟩ (.message ch str) ui.id.node
  | command {id cmd rid tid k} (hmem : (id, cmd) ∈ [(.roomLaunch, .roomLaunch), (.roomKick, .roomKick)])
      (hid : m.id = id) (hb : m.body = .roomCommand rid tid)
      (hk : k ∈ s.handler.house.userIdsInRoom rid) :
    Tells s m ⟨cmd, m.sequence⟩ (.roomCommand rid tid.idStr) k.node
  | join {r ui} (hid : m.id = .roomJoin) (hb : m.body = .room r)
      (hui : s.handler.house.userFind r.ownerId = some ui) :
    Tells s m ⟨.roomJoin, m.sequence⟩ (.roomJoin r.id r.password) ui.id.node
  | answer {id rsp rid pass ui}
      (hmem : (id, rsp) ∈ [(MsgId.roomJoinAck, PduId.roomJoinAck), (.roomJoinFull, .roomJoinFull),
        (.roomJoinPass, .roomJoinPassword)])
      (hid : m.id = id) (hb : m.body = .roomJoin rid pass)
      (hui : s.handler.house.userFindStr m.senderId.idStr = some ui) :
    Tells s m ⟨rsp, m.sequence⟩ .none ui.id.node
  | blocked {n} (hid : m.id = .blockUsers)
      (hn : n ∈ { s.handler with ipBlock := s.handler.ipBlock.handleMessage m }.blockedNodes) :
    Tells s m ⟨.userBlocked, m.sequence⟩ .none (some n)

/-- What a client does: an event of its handler, or it says something, or the group has a new
state. -/
inductive Outcome (self : Node) (s : Peer) :
    Inbound Node PeerInput Payload Int → Peer × List Effect → Prop where
  | event {x e} (he : IsEvent self x e) : Outcome self s x (s.via (s.handler.step e))
  | speaks {m now out} (hout : ∀ o ∈ out, (∃ n, o = .send .userReq n) ∨
      ∃ hdr body d, o = sendTo hdr body d ∧ s.Tells m hdr body d) :
    Outcome self s (.own (.message m now)) (s, out)
  | inState {st} : Outcome self s (.own (.inState st))
      ({ s with inState := st }, [.post (.ofGroupState s.handler.grpMsgBase st)])

theorem Outcome.idle (self : Node) (s : Peer) (m : Message) (now : Int) :
    Outcome self s (.own (.message m now)) (s, []) :=
  .speaks (by simp)

/-- The message is at most one call. -/
theorem message_of_call {s : Peer} {m : Message} {now : Int} {oc : Option AdapterCall}
    (hm : Worker.handleMessage m = oc.map fun c => [.adapter c]) :
    s.message m now = (oc.bind (s.call · now)).getD (s, []) := by
  unfold message
  rw [hm]
  cases oc with
  | none => rfl
  | some c => cases hc : s.call c now <;> simp [workerActs, workerAct, hc]

theorem mem_sendToRoom {s : Handler} {hdr : PduHeader} {body : PduBody} {rid : String} {o : Effect} :
    o ∈ s.sendToRoom hdr body rid ↔ ∃ k ∈ s.house.userIdsInRoom rid, o = sendTo hdr body k.node := by
  simp only [Handler.sendToRoom, List.mem_map, eq_comm]

section Messages

variable {self : Node} {s : Peer} {m : Message} {now : Int}

theorem outcome_send (hid : m.id = .send) :
    Outcome self s (.own (.message m now)) (s.message m now) := by
  have hm : Worker.handleMessage m = (m.body.asSend.map fun str =>
      AdapterCall.send str "" m.sequence).map fun c => [.adapter c] := by
    simp only [Worker.handleMessage, hid]
    cases m.body.asSend <;> rfl
  rw [message_of_call hm]
  cases hb : m.body.asSend with
  | none => exact .idle self s m now
  | some str =>
    refine .speaks fun o ho => ?_
    split at ho
    · rename_i hj
      exact .inr ⟨_, _, _, List.mem_singleton.1 ho, .send hid hb hj⟩
    · cases ho

theorem outcome_sendRoom (hid : m.id = .sendRoom) :
    Outcome self s (.own (.message m now)) (s.message m now) := by
  have hm : Worker.handleMessage m = (m.body.asSendRoom.map fun p =>
      AdapterCall.sendRoom p.1 p.2 m.sequence).map fun c => [.adapter c] := by
    simp only [Worker.handleMessage, hid]
    cases m.body.asSendRoom <;> rfl
  rw [message_of_call hm]
  cases hb : m.body with
  | sendRoom str rid =>
    refine .speaks fun o ho => ?_
    split at ho
    · rename_i hj
      obtain ⟨k, hk, rfl⟩ := mem_sendToRoom.1 ho
      exact .inr ⟨_, _, _, rfl, .sendRoom hid hb hj hk⟩
    · cases ho
  | _ => exact .idle self s m now

theorem outcome_refresh (hid : m.id = .refresh) :
    Outcome self s (.own (.message m now)) (s.message m now) := by
  have hm : Worker.handleMessage m = (some AdapterCall.refresh).map fun c => [.adapter c] := by
    simp only [Worker.handleMessage, hid, Option.map_some]
  rw [message_of_call hm]
  refine .speaks fun o ho => ?_
  obtain ⟨n, -, rfl⟩ := List.mem_map.1 ho
  exact .inl ⟨some n, rfl⟩

theorem outcome_join (hid : m.id = .roomJoin) :
    Outcome self s (.own (.message m now)) (s.message m now) := by
  have hm : Worker.handleMessage m = (m.body.asRoom.map fun r =>
      AdapterCall.join r m.sequence).map fun c => [.adapter c] := by
    simp only [Worker.handleMessage, hid]
    cases m.body.asRoom <;> rfl
  rw [message_of_call hm]
  cases hb : m.body with
  | room r =>
    refine .speaks fun o ho => ?_
    unfold Handler.join at ho
    split at ho
    · cases ho
    · rename_i ui hui
      exact .inr ⟨_, _, _, List.mem_singleton.1 ho, .join hid hb hui⟩
  | _ => exact .idle self s m now

/-- The three answers to a request to join differ only in their ids. -/
theorem outcome_answer (rsp : PduId) {id : MsgId}
    (hmem : (id, rsp) ∈ [(MsgId.roomJoinAck, PduId.roomJoinAck), (.roomJoinFull, .roomJoinFull),
      (.roomJoinPass, .roomJoinPassword)]) (hid : m.id = id)
    (hw : Worker.handleMessage m = Worker.joinRsp m rsp) :
    Outcome self s (.own (.message m now)) (s.message m now) := by
  have hm : Worker.handleMessage m = (m.body.asRoomJoin.map fun _ =>
      AdapterCall.joinRsp m.senderId rsp m.sequence).map fun c => [.adapter c] := by
    rw [hw, Worker.joinRsp]
    cases m.body.asRoomJoin <;> rfl
  rw [message_of_call hm]
  cases hb : m.body with
  | roomJoin rid pass =>
    refine .speaks fun o ho => ?_
    unfold Handler.joinRsp at ho
    split at ho
    · cases ho
    · rename_i ui hui
      exact .inr ⟨_, _, _, List.mem_singleton.1 ho, .answer hmem hid hb hui⟩
  | _ => exact .idle self s m now

theorem message_of_handled (hw : Worker.handleMessage m = some [.adapter (.handleMessage m)]) :
    s.message m now = ((s.handler.handleMessage m).map s.via).getD (s, []) := by
  have hm : Worker.handleMessage m =
      (some (AdapterCall.handleMessage m)).map fun c => [WorkerAct.adapter c] := hw
  exact message_of_call hm

theorem outcome_command (cmd : PduId) {id : MsgId}
    (hmem : (id, cmd) ∈ [(MsgId.roomLaunch, PduId.roomLaunch), (.roomKick, .roomKick)])
    (hid : m.id = id) : Outcome self s (.own (.message m now)) (s.message m now) := by
  have hcases : (m.id = .roomLaunch ∧ cmd = .roomLaunch) ∨
      (m.id = .roomKick ∧ cmd = .roomKick) := by
    simpa [hid] using hmem
  have hw : Worker.handleMessage m = some [.adapter (.handleMessage m)] := by
    rcases hcases with ⟨h, -⟩ | ⟨h, -⟩ <;> simp only [Worker.handleMessage, h]
  have hm : s.handler.handleMessage m = (s.handler.handleRoomCommandMessage m).map (s.handler, ·) := by
    rcases hcases with ⟨h, -⟩ | ⟨h, -⟩ <;> simp only [Handler.handleMessage, h]
  rw [message_of_handled hw, hm, Handler.handleRoomCommandMessage]
  cases hb : m.body with
  | roomCommand rid tid =>
    have hcmd : Handler.roomCommandPdu m.id = some cmd := by
      rcases hcases with ⟨h, rfl⟩ | ⟨h, rfl⟩ <;> simp only [h, Handler.roomCommandPdu]
    simp only [hcmd]
    refine .speaks fun o ho => ?_
    obtain ⟨k, hk, rfl⟩ := mem_sendToRoom.1 ho
    exact .inr ⟨_, _, _, rfl, .command hmem hid hb hk⟩
  | _ => exact .idle self s m now

theorem outcome_sendPrivate (hid : m.id = .sendPrivate) :
    Outcome self s (.own (.message m now)) (s.message m now) := by
  have hw : Worker.handleMessage m = some [.adapter (.handleMessage m)] := by
    simp only [Worker.handleMessage, hid]
  rw [message_of_handled hw]
  simp only [Handler.handleMessage, hid, Handler.handleSendPrivateMessage]
  cases hb : m.body with
  | channel str ch =>
    refine .speaks fun o ho => ?_
    obtain ⟨n, hn, rfl⟩ := List.mem_map.1 ho
    have hn' : s.named m.senderId.idStr = some n ∨ s.handler.grpSelf = some n := by
      simpa [named, eq_comm] using hn
    exact .inr ⟨_, _, _, rfl, .sendPrivate hid hb hn'⟩
  | _ => exact .idle self s m now

theorem outcome_sendNotification (hid : m.id = .sendNotification) :
    Outcome self s (.own (.message m now)) (s.message m now) := by
  have hw : Worker.handleMessage m = some [.adapter (.handleMessage m)] := by
    simp only [Worker.handleMessage, hid]
  rw [message_of_handled hw]
  simp only [Handler.handleMessage, hid, Handler.handleSendNotificationMessage]
  cases hb : m.body with
  | channel str ch =>
    refine .speaks fun o ho => ?_
    obtain ⟨n, hn, rfl⟩ := List.mem_map.1 ho
    have hn' : s.named m.senderId.idStr = some n := by
      simpa [named, eq_comm] using hn
    exact .inr ⟨_, _, _, rfl, .sendNotification hid hb hn'⟩
  | _ => exact .idle self s m now

theorem outcome_privateRefused (hid : m.id = .privateRefused) :
    Outcome self s (.own (.message m now)) (s.message m now) := by
  have hw : Worker.handleMessage m = some [.adapter (.handleMessage m)] := by
    simp only [Worker.handleMessage, hid]
  rw [message_of_handled hw]
  simp only [Handler.handleMessage, hid, Handler.handlePrivateRefused]
  cases hb : m.body with
  | channel str ch =>
    simp only [Body.asChannel, Option.bind_eq_bind, Option.bind_some]
    cases hui : s.handler.house.userFindStr m.senderId.idStr with
    | none => exact .idle self s m now
    | some ui =>
      refine .speaks fun o ho => ?_
      exact .inr ⟨_, _, _, List.mem_singleton.1 ho, .privateRefused hid hb hui⟩
  | _ => exact .idle self s m now

theorem outcome_user (hid : m.id = .user) :
    Outcome self s (.own (.message m now)) (s.message m now) := by
  have hm : Worker.handleMessage m = (m.body.asUser.map AdapterCall.updateUser).map
      fun c => [.adapter c] := by
    simp only [Worker.handleMessage, hid]
    cases m.body.asUser <;> rfl
  rw [message_of_call hm]
  cases hb : m.body.asUser with
  | none => exact .idle self s m now
  | some u => exact .event (.updateUser hid hb)

theorem outcome_room (hid : m.id = .room) :
    Outcome self s (.own (.message m now)) (s.message m now) := by
  have hm : Worker.handleMessage m = (m.body.asRoom.map AdapterCall.updateRoom).map
      fun c => [.adapter c] := by
    simp only [Worker.handleMessage, hid]
    cases m.body.asRoom <;> rfl
  rw [message_of_call hm]
  cases hb : m.body.asRoom with
  | none => exact .idle self s m now
  | some r => exact .event (.updateRoom hid hb)

/-- The addresses are blocked before the users are removed. -/
theorem outcome_blockUsers (hid : m.id = .blockUsers) :
    Outcome self s (.own (.message m now)) (s.message m now) := by
  have hw : Worker.handleMessage m = some [.ipBlock m, .adapter (.handleMessage m)] := by
    simp only [Worker.handleMessage, hid]
  cases hb : m.body.asBlockUsers with
  | none =>
    have hnone : s.message m now = (s, []) := by
      simp [message, hw, workerActs, workerAct, call, Handler.handleMessage, hid,
        Handler.handleBlockUsers, hb]
    rw [hnone]
    exact .idle self s m now
  | some u =>
    have hsome : s.message m now = s.via (s.handler.step (.blockUsers m)) := by
      simp [message, hw, workerActs, workerAct, call, Handler.handleMessage, hid,
        Handler.handleBlockUsers, hb, Handler.step, via]
    rw [hsome]
    exact .event (.blockUsers hid hb)

theorem message_outcome : Outcome self s (.own (.message m now)) (s.message m now) := by
  have hidle (h : s.message m now = (s, [])) :
      Outcome self s (.own (.message m now)) (s.message m now) := by
    rw [h]
    exact .idle self s m now
  cases h : m.id with
  | send => exact outcome_send h
  | sendRoom => exact outcome_sendRoom h
  | refresh => exact outcome_refresh h
  | roomJoin => exact outcome_join h
  | roomJoinAck =>
    exact outcome_answer .roomJoinAck (by simp) h (by simp only [Worker.handleMessage, h])
  | roomJoinFull =>
    exact outcome_answer .roomJoinFull (by simp) h (by simp only [Worker.handleMessage, h])
  | roomJoinPass =>
    exact outcome_answer .roomJoinPassword (by simp) h (by simp only [Worker.handleMessage, h])
  | roomLaunch => exact outcome_command .roomLaunch (by simp) h
  | roomKick => exact outcome_command .roomKick (by simp) h
  | sendPrivate => exact outcome_sendPrivate h
  | sendNotification => exact outcome_sendNotification h
  | privateRefused => exact outcome_privateRefused h
  | user => exact outcome_user h
  | room => exact outcome_room h
  | blockUsers => exact outcome_blockUsers h
  | connect =>
    refine hidle ?_
    cases hb : m.body.asUser <;>
      simp [message, Worker.handleMessage, h, hb, workerActs, workerAct, call]
  | _ =>
    refine hidle ?_
    simp [message, Worker.handleMessage, h, workerActs, workerAct, call]

end Messages

theorem act_outcome (self : Node) (s : Peer) (x : Inbound Node PeerInput Payload Int) :
    Outcome self s x (act self s x) := by
  rcases x with i | ⟨src, p, now⟩
  · cases i with
    | message m now => exact message_outcome
    | nodeAdded n now => exact .event .nodeAdded
    | nodeRemoved n => exact .event .nodeRemoved
    | inState st => exact .inState
    | selfKnown known => exact .event .selfKnown
  · exact .event .packet

end Peer

end RvHouse
