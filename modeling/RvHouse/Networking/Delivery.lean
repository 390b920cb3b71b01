import RvHouse.Networking.Convergence
import RvHouse.Networking.Posts

/-!
# Words arrive once and in order

`provenance` says that a client hears nothing that was not said. Over a link that keeps its packets
in order, and while the receiver has an entry for the sender, the converse holds too (`delivers`):
what `b` has heard of `a`, followed by what is in flight, is what the GUI of `a` said with `b` in the
audience, every message once.

`wordsTo_message` says what a message of the GUI puts on the link, `heard_act` what a packet
makes the receiver pass on. `Mealy.conservation_in_order` adds the steps up.
-/

namespace RvHouse

/-! ## What is said, and what is heard -/

namespace Message

/-- A message, but for who said it. -/
def words (m : Message) : Message :=
  { m with
    senderId := {}
    body := match m.body with
      | .blockUsers u ips globalIgnore => .blockUsers { sequence := u.sequence } ips globalIgnore
      | b => b }

/-- What others hear of a message of the GUI; `none` for one that is not meant for others. -/
def told (base : Int) (m : Message) : Option Message :=
  match m.id with
  | .send => m.body.asSend.map fun str => .ofChannel .send str {} "" m.sequence base
  | .sendRoom => m.body.asSendRoom.map fun p => .ofChannel .send p.1 {} p.2 m.sequence base
  | .sendPrivate | .sendNotification | .privateRefused =>
    m.body.asChannel.map fun p => .ofChannel m.id p.1 {} p.2 m.sequence base
  | .roomLaunch | .roomKick =>
    match m.body with
    | .roomCommand rid tid =>
      some (.ofRoomCommand m.id rid (.ofIdStr tid.idStr) {} m.sequence base)
    | _ => none
  | .roomJoin =>
    m.body.asRoom.map fun r => .ofRoomJoin .roomJoin r.id r.password {} m.sequence base
  | .roomJoinAck | .roomJoinFull | .roomJoinPass =>
    m.body.asRoomJoin.map fun _ => .ofGrouped m.id {} m.sequence base
  | .blockUsers => m.body.asBlockUsers.map fun _ => .ofBlockUsers .blockUsers {} m.sequence base
  | _ => none

end Message

/-- What a packet says, but for who says it. -/
def Payload.words (base : Int) : Payload → Option Message
  | .userData hdr body => userDataAvailable base {} hdr body
  | _ => none

theorem words_userDataAvailable (base : Int) (u : User) (hdr : PduHeader) (body : PduBody) :
    (userDataAvailable base u hdr body).map Message.words = userDataAvailable base {} hdr body := by
  unfold userDataAvailable
  dsimp only
  split <;> rfl

/-- What the GUI of a client hears of the user at `a`. -/
def Effect.heard (a : Node) : Effect → Option Message
  | .post m => if m.id ∉ Handler.news ∧ m.senderId.node = some a then some m.words else none
  | _ => none

namespace Peer

/-- What `b` is to hear of what the GUI of `a` says. -/
def spoken (base : Int) (a b : Node) (t : Mesh Node Peer Payload) :
    MeshEvent Node PeerInput Int → List Message
  | .own n (.message m _) reach =>
    if n = a ∧ (t.party a).Audience m reach b then (m.told base).toList else []
  | _ => []

/-- What `b` hears of `a`. -/
def heardOf (b a : Node) (p : Node × Effect) : Option Message :=
  if p.1 = b then p.2.heard a else none

/-- What `a` has said to `b` and is in flight. -/
def underway (base : Int) (a b : Node) (t : Mesh Node Peer Payload) : List Message :=
  (t.link a b).filterMap (Payload.words base)

/-! ## The packets of a message -/

variable {self b : Node} {s : Peer} {m : Message} {now : Int} {reach : List Node} {base : Int}

/-- What a client that acts says to `b`. -/
def wordsTo (base : Int) (reach : List Node) (out : List Effect) (b : Node) : List Message :=
  (peers.sentTo reach out b).filterMap (Payload.words base)

theorem wordsTo_sendTo (hdr : PduHeader) (body : PduBody) {ns : List Node} (hns : ns.count b ≤ 1) :
    wordsTo base reach (ns.map fun n => sendTo hdr body (some n)) b =
      if b ∈ ns then (userDataAvailable base {} hdr body).toList else [] := by
  have hsent : peers.sentTo reach (ns.map fun n => sendTo hdr body (some n)) b =
      List.replicate (ns.count b) (.userData hdr body) := by
    clear hns
    induction ns with
    | nil => rfl
    | cons n ns ih =>
      rw [List.map_cons, Parties.sentTo, List.filterMap_cons]
      by_cases hn : n = b
      · subst hn
        simpa [peers, Effect.packet?, sendTo, List.replicate_succ, Parties.sentTo] using ih
      · simpa [peers, Effect.packet?, sendTo, hn, Parties.sentTo] using ih
  unfold wordsTo
  rw [hsent]
  split
  · rename_i hmem
    rw [le_antisymm hns (List.one_le_count_iff.2 hmem)]
    cases hdata : userDataAvailable base {} hdr body <;> simp [Payload.words, hdata]
  · rename_i hmem
    rw [List.count_eq_zero_of_not_mem hmem]
    rfl

theorem wordsTo_eq_nil {out : List Effect} (h : ∀ hdr body d, .send (.userData hdr body) d ∉ out) :
    wordsTo base reach out b = [] := by
  refine List.filterMap_eq_nil_iff.2 fun q hq => ?_
  obtain ⟨o, ho, d, hd, -⟩ := peers.mem_sentTo.1 hq
  cases o with
  | send q' d' =>
    cases hd
    cases q with
    | userData hdr body => exact absurd ho (h hdr body d)
    | _ => rfl
  | post => cases hd
  | derefRoomEnd => cases hd

/-! ## The audiences -/

/-- No two users in a house have the same node. -/
theorem nodup_nodes (h : House) : (h.users.toList.filterMap (·.id.node)).Nodup := by
  refine List.Pairwise.filterMap _ ?_ (h.users.nodup_toList.imp_of_mem (S := fun u v =>
    u.id.node ≠ v.id.node ∨ u.id.node = none) ?_)
  · rintro u v (hne | hnone) n hn n' hn' rfl
    · exact hne ((Option.mem_def.1 hn).trans (Option.mem_def.1 hn').symm)
    · rw [hnone] at hn
      cases hn
  · intro u v hu hv hne
    by_cases hnode : u.id.node = v.id.node
    · have hsame := (House.userFind_congr hnode).symm.trans (House.mem_users.1 hu)
      exact absurd (Option.some.inj (hsame.symm.trans (House.mem_users.1 hv))) hne
    · exact .inl hnode

theorem count_roomNodes_le (s : Peer) (rid : String) (b : Node) :
    (s.roomNodes rid).count b ≤ 1 := by
  have hsub : (s.roomNodes rid).Sublist (s.handler.house.users.toList.filterMap (·.id.node)) := by
    rw [roomNodes, House.userIdsInRoom, List.filterMap_map]
    exact List.filter_sublist.filterMap _
  exact List.nodup_iff_count_le_one.1 ((nodup_nodes _).sublist hsub) b

theorem count_blockedNodes_le (h : Handler) (b : Node) : h.blockedNodes.count b ≤ 1 :=
  List.nodup_iff_count_le_one.1 ((nodup_nodes h.house).filter _) b

theorem count_toList_le (o : Option Node) (b : Node) : o.toList.count b ≤ 1 := by
  cases o with
  | none => exact Nat.zero_le 1
  | some n => exact List.count_le_length.trans le_rfl

theorem sendToRoom_eq (hs : s.handler.Noded) (hdr : PduHeader) (body : PduBody) (rid : String) :
    s.handler.sendToRoom hdr body rid =
      (s.roomNodes rid).map fun n => sendTo hdr body (some n) := by
  have hnode : ∀ k ∈ s.handler.house.userIdsInRoom rid, ∃ n, k.node = some n := by
    intro k hk
    obtain ⟨u, hu, rfl⟩ := List.mem_map.1 hk
    exact hs.of_mem (List.mem_filter.1 hu).1
  unfold Handler.sendToRoom roomNodes
  generalize s.handler.house.userIdsInRoom rid = ks at hnode
  induction ks with
  | nil => rfl
  | cons k ks ih =>
    obtain ⟨⟨n, hn⟩, hks⟩ := List.forall_mem_cons.1 hnode
    rw [List.map_cons, List.filterMap_cons_some hn, List.map_cons, hn, ih hks]

theorem named_eq (hs : s.handler.Noded) {idStr : String} {ui : User}
    (hui : s.handler.house.userFindStr idStr = some ui) : ui.id.node = s.named idStr ∧
      ∃ n, s.named idStr = some n := by
  obtain ⟨n, hn⟩ := hs.of_mem (List.mem_of_find?_eq_some hui)
  have hnamed : s.named idStr = some n := by simp [named, hui, hn]
  exact ⟨hn.trans hnamed.symm, n, hnamed⟩

/-! ## The messages -/

theorem wordsTo_of_targets (hdr : PduHeader) (body : PduBody) (ns : List Node)
    (hout : (s.message m now).2 = ns.map fun n => sendTo hdr body (some n))
    (hns : ns.count b ≤ 1) (haudience : b ∈ ns ↔ s.Audience m reach b)
    (htold : userDataAvailable base {} hdr body = m.told base) :
    wordsTo base reach (s.message m now).2 b =
      if s.Audience m reach b then (m.told base).toList else [] := by
  rw [hout, wordsTo_sendTo hdr body hns, htold]
  exact if_congr haudience rfl rfl

theorem wordsTo_of_cast (hm : s.message m now = (s, [])) (htold : m.told base = none) :
    wordsTo base reach (s.message m now).2 b =
      if s.Audience m reach b then (m.told base).toList else [] := by
  rw [hm, htold]
  simp [wordsTo, Parties.sentTo]

theorem words_send (hid : m.id = .send) :
    wordsTo base reach (s.message m now).2 b =
      if s.Audience m reach b then (m.told base).toList else [] := by
  have hm : Worker.handleMessage m = (m.body.asSend.map fun str =>
      AdapterCall.send str "" m.sequence).map fun c => [.adapter c] := by
    simp only [Worker.handleMessage, hid]
    cases m.body.asSend <;> rfl
  have hmessage : s.message m now = _ := message_of_call hm
  cases hb : m.body.asSend with
  | none =>
    refine wordsTo_of_cast ?_ (by simp [Message.told, hid, hb])
    rw [hmessage, hb]
    rfl
  | some str =>
    rw [hmessage, hb]
    by_cases hj : s.inState = .joined
    · by_cases hreach : b ∈ reach <;>
        simp [call, hj, Handler.send, wordsTo, Parties.sentTo, peers, Effect.packet?, Audience, audience, hid,
          hreach, Payload.words, userDataAvailable, Message.told, hb]
    · simp [call, hj, wordsTo, Parties.sentTo, Audience, audience, hid]

theorem words_sendRoom (hs : s.handler.Noded) (hid : m.id = .sendRoom) :
    wordsTo base reach (s.message m now).2 b =
      if s.Audience m reach b then (m.told base).toList else [] := by
  have hm : Worker.handleMessage m = (m.body.asSendRoom.map fun p =>
      AdapterCall.sendRoom p.1 p.2 m.sequence).map fun c => [.adapter c] := by
    simp only [Worker.handleMessage, hid]
    cases m.body.asSendRoom <;> rfl
  have hmessage : s.message m now = _ := message_of_call hm
  cases hb : m.body with
  | sendRoom str rid =>
    by_cases hj : s.inState = .joined
    · refine wordsTo_of_targets ⟨.message, m.sequence⟩ (.message rid str) _ ?_
        (count_roomNodes_le s rid b) (by simp [Audience, audience, hid, hb, hj]) ?_
      · rw [hmessage, hb, ← sendToRoom_eq hs]
        simp [Body.asSendRoom, call, hj, Handler.sendRoom]
      · simp [Message.told, hid, hb, Body.asSendRoom, userDataAvailable]
    · rw [hmessage, hb]
      simp [Body.asSendRoom, call, hj, wordsTo, Parties.sentTo, Audience, audience, hid, hb]
  | _ =>
    refine wordsTo_of_cast ?_ (by simp [Message.told, hid, hb, Body.asSendRoom])
    rw [hmessage, hb]
    rfl

theorem words_command (hs : s.handler.Noded) (cmd : PduId) {id : MsgId}
    (hmem : (id, cmd) ∈ [(MsgId.roomLaunch, PduId.roomLaunch), (.roomKick, .roomKick)])
    (hid : m.id = id) :
    wordsTo base reach (s.message m now).2 b =
      if s.Audience m reach b then (m.told base).toList else [] := by
  have hcases : (m.id = .roomLaunch ∧ cmd = .roomLaunch) ∨
      (m.id = .roomKick ∧ cmd = .roomKick) := by
    simpa [hid] using hmem
  have hw : Worker.handleMessage m = some [.adapter (.handleMessage m)] := by
    rcases hcases with ⟨h, -⟩ | ⟨h, -⟩ <;> simp only [Worker.handleMessage, h]
  have hm : s.handler.handleMessage m = (s.handler.handleRoomCommandMessage m).map (s.handler, ·) := by
    rcases hcases with ⟨h, -⟩ | ⟨h, -⟩ <;> simp only [Handler.handleMessage, h]
  have hmessage : s.message m now = _ := message_of_handled hw
  rw [hm, Handler.handleRoomCommandMessage] at hmessage
  cases hb : m.body with
  | roomCommand rid tid =>
    have hcmd : Handler.roomCommandPdu m.id = some cmd := by
      rcases hcases with ⟨h, rfl⟩ | ⟨h, rfl⟩ <;> simp only [h, Handler.roomCommandPdu]
    refine wordsTo_of_targets ⟨cmd, m.sequence⟩ (.roomCommand rid tid.idStr) _ ?_
      (count_roomNodes_le s rid b) ?_ ?_
    · rw [hmessage, ← sendToRoom_eq hs]
      simp [hb, hcmd, via]
    · rcases hcases with ⟨h, rfl⟩ | ⟨h, rfl⟩ <;> simp [Audience, audience, h, hb]
    · rcases hcases with ⟨h, rfl⟩ | ⟨h, rfl⟩ <;> simp [Message.told, h, hb, userDataAvailable]
  | _ =>
    refine wordsTo_of_cast (by simp [hmessage, hb]) ?_
    rcases hcases with ⟨h, rfl⟩ | ⟨h, rfl⟩ <;> simp [Message.told, h, hb]

theorem words_join (hs : s.handler.Noded) (hid : m.id = .roomJoin) :
    wordsTo base reach (s.message m now).2 b =
      if s.Audience m reach b then (m.told base).toList else [] := by
  have hm : Worker.handleMessage m = (m.body.asRoom.map fun r =>
      AdapterCall.join r m.sequence).map fun c => [.adapter c] := by
    simp only [Worker.handleMessage, hid]
    cases m.body.asRoom <;> rfl
  have hmessage : s.message m now = _ := message_of_call hm
  cases hb : m.body with
  | room r =>
    let owner := (s.handler.house.userFind r.ownerId).bind (·.id.node)
    refine wordsTo_of_targets ⟨.roomJoin, m.sequence⟩ (.roomJoin r.id r.password)
      owner.toList ?_ (count_toList_le owner b) ?_ ?_
    · rw [hmessage, hb]
      cases hui : s.handler.house.userFind r.ownerId with
      | none => simp [owner, hui, Body.asRoom, call, Handler.join]
      | some ui =>
        have hmem : ui ∈ s.handler.house.users.toList :=
          House.mem_users.2 ((House.userFind_congr (House.node_of_userFind hui)).trans hui)
        obtain ⟨n, hn⟩ := hs.of_mem hmem
        simp [owner, hui, hn, Body.asRoom, call, Handler.join]
    · simp [Audience, audience, hid, hb, owner]
    · simp [Message.told, hid, hb, Body.asRoom, userDataAvailable]
  | _ =>
    refine wordsTo_of_cast ?_ (by simp [Message.told, hid, hb, Body.asRoom])
    rw [hmessage, hb]
    rfl

theorem words_answer (hs : s.handler.Noded) (rsp : PduId) {id : MsgId}
    (hmem : (id, rsp) ∈ [(MsgId.roomJoinAck, PduId.roomJoinAck), (.roomJoinFull, .roomJoinFull),
      (.roomJoinPass, .roomJoinPassword)]) (hid : m.id = id)
    (hw : Worker.handleMessage m = Worker.joinRsp m rsp) :
    wordsTo base reach (s.message m now).2 b =
      if s.Audience m reach b then (m.told base).toList else [] := by
  have hcases : (m.id = .roomJoinAck ∧ rsp = .roomJoinAck) ∨
      (m.id = .roomJoinFull ∧ rsp = .roomJoinFull) ∨
        (m.id = .roomJoinPass ∧ rsp = .roomJoinPassword) := by
    simpa [hid] using hmem
  have hm : Worker.handleMessage m = (m.body.asRoomJoin.map fun _ =>
      AdapterCall.joinRsp m.senderId rsp m.sequence).map fun c => [.adapter c] := by
    rw [hw, Worker.joinRsp]
    cases m.body.asRoomJoin <;> rfl
  have hmessage : s.message m now = _ := message_of_call hm
  cases hb : m.body with
  | roomJoin rid pass =>
    refine wordsTo_of_targets ⟨rsp, m.sequence⟩ .none
      (s.named m.senderId.idStr).toList ?_ (count_toList_le _ b) ?_ ?_
    · rw [hmessage, hb]
      cases hui : s.handler.house.userFindStr m.senderId.idStr with
      | none => simp [named, hui, Body.asRoomJoin, call, Handler.joinRsp]
      | some ui =>
        obtain ⟨hnode, n, hn⟩ := named_eq hs hui
        simp [hn, hnode, hui, Body.asRoomJoin, call, Handler.joinRsp]
    · rcases hcases with ⟨h, rfl⟩ | ⟨h, rfl⟩ | ⟨h, rfl⟩ <;> simp [Audience, audience, h]
    · rcases hcases with ⟨h, rfl⟩ | ⟨h, rfl⟩ | ⟨h, rfl⟩ <;>
        simp [Message.told, h, hb, Body.asRoomJoin, userDataAvailable]
  | _ =>
    refine wordsTo_of_cast ?_ ?_
    · rw [hmessage, hb]
      rfl
    · rcases hcases with ⟨h, rfl⟩ | ⟨h, rfl⟩ | ⟨h, rfl⟩ <;>
        simp [Message.told, h, hb, Body.asRoomJoin]

theorem words_sendPrivate (hself : s.handler.grpSelf ≠ some b) (hid : m.id = .sendPrivate) :
    wordsTo base reach (s.message m now).2 b =
      if s.Audience m reach b then (m.told base).toList else [] := by
  have hw : Worker.handleMessage m = some [.adapter (.handleMessage m)] := by
    simp only [Worker.handleMessage, hid]
  have hmessage : s.message m now = _ := message_of_handled hw
  simp only [Handler.handleMessage, hid, Handler.handleSendPrivateMessage] at hmessage
  cases hb : m.body with
  | channel str ch =>
    -- the copy for the client itself does not go to `b`
    have hcount : (s.named m.senderId.idStr).toList.count b ≤ 1 := count_toList_le _ b
    have hecho : s.handler.grpSelf.toList.count b = 0 :=
      List.count_eq_zero_of_not_mem (by simpa using hself)
    refine wordsTo_of_targets ⟨.messagePrivate, m.sequence⟩ (.message ch str)
      ((s.named m.senderId.idStr).toList ++ s.handler.grpSelf.toList) ?_ ?_ ?_ ?_
    · rw [hmessage]
      cases hn : (s.handler.house.userFindStr m.senderId.idStr).bind (·.id.node) <;>
        cases hg : s.handler.grpSelf <;> simp [hb, Body.asChannel, via, named, hn]
    · rwa [List.count_append, hecho]
    · simp [Audience, audience, hid, hself]
    · simp [Message.told, hid, hb, Body.asChannel, userDataAvailable]
  | _ =>
    exact wordsTo_of_cast (by simp [hmessage, hb, Body.asChannel])
      (by simp [Message.told, hid, hb, Body.asChannel])

theorem words_sendNotification (hid : m.id = .sendNotification) :
    wordsTo base reach (s.message m now).2 b =
      if s.Audience m reach b then (m.told base).toList else [] := by
  have hw : Worker.handleMessage m = some [.adapter (.handleMessage m)] := by
    simp only [Worker.handleMessage, hid]
  have hmessage : s.message m now = _ := message_of_handled hw
  simp only [Handler.handleMessage, hid, Handler.handleSendNotificationMessage] at hmessage
  cases hb : m.body with
  | channel str ch =>
    refine wordsTo_of_targets ⟨.messageNotification, m.sequence⟩ (.message ch str)
      (s.named m.senderId.idStr).toList ?_ (count_toList_le _ b) (by simp [Audience, audience, hid]) ?_
    · rw [hmessage]
      cases hn : (s.handler.house.userFindStr m.senderId.idStr).bind (·.id.node) <;>
        simp [hb, Body.asChannel, via, named, hn]
    · simp [Message.told, hid, hb, Body.asChannel, userDataAvailable]
  | _ =>
    exact wordsTo_of_cast (by simp [hmessage, hb, Body.asChannel])
      (by simp [Message.told, hid, hb, Body.asChannel])

theorem words_privateRefused (hs : s.handler.Noded) (hid : m.id = .privateRefused) :
    wordsTo base reach (s.message m now).2 b =
      if s.Audience m reach b then (m.told base).toList else [] := by
  have hw : Worker.handleMessage m = some [.adapter (.handleMessage m)] := by
    simp only [Worker.handleMessage, hid]
  have hmessage : s.message m now = _ := message_of_handled hw
  simp only [Handler.handleMessage, hid, Handler.handlePrivateRefused] at hmessage
  cases hb : m.body with
  | channel str ch =>
    refine wordsTo_of_targets ⟨.privateRefused, m.sequence⟩ (.message ch str)
      (s.named m.senderId.idStr).toList ?_ (count_toList_le _ b) (by simp [Audience, audience, hid]) ?_
    · rw [hmessage]
      cases hui : s.handler.house.userFindStr m.senderId.idStr with
      | none => simp [hb, Body.asChannel, via, named, hui]
      | some ui =>
        obtain ⟨hnode, n, hn⟩ := named_eq hs hui
        simp [hb, Body.asChannel, via, hn, hnode]
    · simp [Message.told, hid, hb, Body.asChannel, userDataAvailable]
  | _ =>
    exact wordsTo_of_cast (by simp [hmessage, hb, Body.asChannel])
      (by simp [Message.told, hid, hb, Body.asChannel])

theorem wordsTo_removeNodes (seq : UInt32) (h : Handler) (ns : List Node) :
    wordsTo base reach (Handler.removeNodes seq h ns).2 b =
      wordsTo base reach (ns.map fun n => sendTo ⟨.userBlocked, seq⟩ .none (some n)) b := by
  unfold wordsTo
  congr 1
  induction ns generalizing h with
  | nil => rfl
  | cons n ns ih =>
    have hquiet : peers.sentTo reach (h.nodeRemoved n).2 b = [] := by
      refine List.filterMap_eq_nil_iff.2 fun o ho => ?_
      cases o with
      | send p d => exact absurd ho Handler.send_not_mem_nodeRemoved
      | post => rfl
      | derefRoomEnd => rfl
    have hsplit : peers.sentTo reach (Handler.removeNodes seq h (n :: ns)).2 b =
        peers.sentTo reach [sendTo ⟨.userBlocked, seq⟩ .none (some n)] b ++
          (peers.sentTo reach (h.nodeRemoved n).2 b ++
            peers.sentTo reach (Handler.removeNodes seq (h.nodeRemoved n).1 ns).2 b) := by
      simp only [Handler.removeNodes, Parties.sentTo, ← List.filterMap_append]
      rfl
    rw [hsplit, hquiet, List.nil_append, ih]
    simp only [Parties.sentTo, ← List.filterMap_append]
    rfl

theorem words_blockUsers (hid : m.id = .blockUsers) :
    wordsTo base reach (s.message m now).2 b =
      if s.Audience m reach b then (m.told base).toList else [] := by
  have hw : Worker.handleMessage m = some [.ipBlock m, .adapter (.handleMessage m)] := by
    simp only [Worker.handleMessage, hid]
  cases hb : m.body.asBlockUsers with
  | none =>
    refine wordsTo_of_cast ?_ (by simp [Message.told, hid, hb])
    simp [message, hw, workerActs, workerAct, call, Handler.handleMessage, hid,
      Handler.handleBlockUsers, hb]
  | some u =>
    have hmessage : s.message m now = s.via (s.handler.step (.blockUsers m)) := by
      simp [message, hw, workerActs, workerAct, call, Handler.handleMessage, hid,
        Handler.handleBlockUsers, hb, Handler.step, via]
    rw [hmessage]
    show wordsTo base reach (Handler.removeNodes m.sequence _ _).2 b = _
    rw [wordsTo_removeNodes, wordsTo_sendTo _ _ (count_blockedNodes_le _ b)]
    refine if_congr (by simp [Audience, audience, hid]) ?_ rfl
    simp [Message.told, hid, hb, userDataAvailable]

/-- The messages that lead to data units. -/
theorem Tells.id_mem {hdr : PduHeader} {body : PduBody} {d : Option Node} (h : s.Tells m hdr body d) :
    m.id ∈ [.send, .sendRoom, .sendPrivate, .sendNotification, .privateRefused, .roomLaunch,
      .roomKick, .roomJoin, .roomJoinAck, .roomJoinFull, .roomJoinPass, .blockUsers] := by
  cases h with
  | command hmem hid =>
    simp only [List.mem_cons, Prod.mk.injEq, List.not_mem_nil, or_false] at hmem
    rcases hmem with ⟨rfl, -⟩ | ⟨rfl, -⟩ <;> simp [hid]
  | answer hmem hid =>
    simp only [List.mem_cons, Prod.mk.injEq, List.not_mem_nil, or_false] at hmem
    rcases hmem with ⟨rfl, -⟩ | ⟨rfl, -⟩ | ⟨rfl, -⟩ <;> simp [hid]
  | send hid | sendRoom hid | sendPrivate hid | sendNotification hid | privateRefused hid
  | join hid | blocked hid => simp [hid]

/-- **What a message of the GUI says to `b`**, who hears of it once or not at all. -/
theorem wordsTo_message (hs : s.handler.Noded) (hself : s.handler.grpSelf ≠ some b) :
    wordsTo base reach (s.message m now).2 b =
      if s.Audience m reach b then (m.told base).toList else [] := by
  have hquiet (haudience : ¬ s.Audience m reach b)
      (htells : ∀ hdr body d, ¬ s.Tells m hdr body d) :
      wordsTo base reach (s.message m now).2 b =
        if s.Audience m reach b then (m.told base).toList else [] := by
    rw [if_neg haudience]
    refine wordsTo_eq_nil fun hdr body d hmem => ?_
    obtain ⟨m', now', heq, ht⟩ := @mem_act_userData b s (.own (.message m now)) _ _ _ hmem
    cases heq
    exact htells hdr body d ht
  cases hid : m.id with
  | send => exact words_send hid
  | sendRoom => exact words_sendRoom hs hid
  | sendPrivate => exact words_sendPrivate hself hid
  | sendNotification => exact words_sendNotification hid
  | privateRefused => exact words_privateRefused hs hid
  | roomLaunch => exact words_command hs .roomLaunch (by simp) hid
  | roomKick => exact words_command hs .roomKick (by simp) hid
  | roomJoin => exact words_join hs hid
  | roomJoinAck =>
    exact words_answer hs .roomJoinAck (by simp) hid (by simp only [Worker.handleMessage, hid])
  | roomJoinFull =>
    exact words_answer hs .roomJoinFull (by simp) hid (by simp only [Worker.handleMessage, hid])
  | roomJoinPass =>
    exact words_answer hs .roomJoinPassword (by simp) hid (by simp only [Worker.handleMessage, hid])
  | blockUsers => exact words_blockUsers hid
  | _ =>
    refine hquiet (by simp [Audience, audience, hid]) fun hdr body d ht => ?_
    have hmem := ht.id_mem
    simp [hid] at hmem

/-! ## Single acts -/

variable {a : Node} {x : Inbound Node PeerInput Payload Int}

/-- What `b` is to hear when the client at `a`, being `s`, acts on `x`. -/
def spokenOn (base : Int) (s : Peer) (x : Inbound Node PeerInput Payload Int) (reach : List Node)
    (b : Node) : List Message :=
  match x with
  | .own (.message m _) => if s.Audience m reach b then (m.told base).toList else []
  | _ => []

theorem words_act (hs : s.handler.Noded) (hself : s.handler.grpSelf ≠ some b) :
    wordsTo base reach (act self s x).2 b = spokenOn base s x reach b := by
  have hquiet (h : ∀ m now, x ≠ .own (.message m now)) :
      wordsTo base reach (act self s x).2 b = [] := by
    refine wordsTo_eq_nil fun hdr body d hmem => ?_
    obtain ⟨m, now, rfl, -⟩ := mem_act_userData hmem
    exact h m now rfl
  rcases x with i | ⟨src, p, now⟩
  · cases i with
    | message m now => exact wordsTo_message hs hself
    | _ => exact hquiet (by simp)
  · exact hquiet (by simp)

/-- What the GUI of the receiver hears of `a` when the client acts on `x`. -/
def arrived (base : Int) (a : Node) : Inbound Node PeerInput Payload Int → List Message
  | .packet src p _ => if src = a then (p.words base).toList else []
  | .own _ => []

theorem id_userDataAvailable {u : User} {hdr : PduHeader} {body : PduBody} {m : Message}
    (hm : userDataAvailable base u hdr body = some m) : m.id ∉ Handler.news := by
  unfold userDataAvailable at hm
  dsimp only at hm
  split at hm <;> cases hm <;>
    simp [Handler.news, Message.ofChannel, Message.ofRoomCommand, Message.ofRoomJoin,
      Message.ofGrouped, Message.ofBlockUsers]

theorem heard_act (hbase : s.handler.grpMsgBase = base)
    (hblock : s.handler.NoBlocked s.handler.ipBlock)
    (hknown : ∀ p now, x = .packet a p now → s.handler.house.userFind (.ofNode a) ≠ none) :
    (act self s x).2.filterMap (Effect.heard a) = arrived base a x := by
  have hquiet (h : ∀ hdr body now, x ≠ .packet a (.userData hdr body) now) :
      (act self s x).2.filterMap (Effect.heard a) = [] := by
    refine List.filterMap_eq_nil_iff.2 fun o ho => ?_
    cases o with
    | post m =>
      refine if_neg fun hm => ?_
      rcases mem_act_post ho with hnews | ⟨src, hdr, body, now, u, rfl, hu, hdata⟩
      · rcases hnews with hnews | ⟨st, rfl⟩
        · exact hm.1 hnews
        · cases hm.2
      · have hnode := House.node_of_userFind hu
        rw [← senderId_userDataAvailable hdata, hm.2] at hnode
        obtain rfl : a = src := Option.some.inj hnode
        exact h hdr body now rfl
    | send => rfl
    | derefRoomEnd => rfl
  rcases x with i | ⟨src, p, now⟩
  · exact hquiet (by simp)
  · by_cases hsrc : src = a
    · subst hsrc
      cases p with
      | userData hdr body =>
        obtain ⟨u, hu⟩ := Option.ne_none_iff_exists'.1 (hknown _ now rfl)
        have hfree := hblock src (hknown _ now rfl)
        have hout : (act self s (.packet src (.userData hdr body) now)).2 =
            ((userDataAvailable base u hdr body).map Effect.post).toList := by
          simp [act, via, Handler.dataReceived, hfree, Handler.recvUserData, hu, hbase]
        rw [hout, arrived, if_pos rfl, Payload.words, ← words_userDataAvailable base u]
        cases hm : userDataAvailable base u hdr body with
        | none => rfl
        | some m =>
          have hnode : m.senderId.node = some src := by
            rw [senderId_userDataAvailable hm]
            exact House.node_of_userFind hu
          simp [Effect.heard, id_userDataAvailable hm, hnode]
      | _ =>
        rw [hquiet (by simp)]
        simp [arrived, Payload.words]
    · rw [hquiet (by simpa using fun _ _ h => absurd h hsrc), arrived, if_neg hsrc]

/-! ## Single events -/

variable {t : Mesh Node Peer Payload}

theorem heard_perform (n : Node) : (peers.perform t n x reach).2.filterMap (heardOf b a) =
    if n = b then (act n (t.party n) x).2.filterMap (Effect.heard a) else [] := by
  simp only [Parties.perform, List.filterMap_map]
  split
  · rename_i hn
    refine List.filterMap_congr fun o _ => ?_
    simp [heardOf, hn]
  · rename_i hn
    refine List.filterMap_eq_nil_iff.2 fun o _ => ?_
    simp [heardOf, hn]

theorem underway_perform (n : Node) : underway base a b (peers.perform t n x reach).1 =
    underway base a b t ++ if n = a then wordsTo base reach (act n (t.party n) x).2 b else [] := by
  simp only [underway, Parties.perform_link, List.filterMap_append]
  split
  · rename_i hn
    subst hn
    rw [if_pos rfl]
    rfl
  · rename_i hn
    rw [if_neg (Ne.symm hn)]
    rfl

/-- What the clients keep whatever the network does. -/
structure Ready (base : Int) (t : Mesh Node Peer Payload) : Prop extends Sound t where
  noded : ∀ n, (t.party n).handler.Noded
  base : ∀ n, (t.party n).handler.grpMsgBase = base

theorem grpMsgBase_act (n : Node) (s : Peer) (x : Inbound Node PeerInput Payload Int)
    (hs : s.handler.grpMsgBase = base) : (act n s x).1.handler.grpMsgBase = base := by
  have hx := act_outcome n s x
  generalize act n s x = r at hx
  cases hx with
  | event => exact (Handler.inGroup_step s.handler _).base.trans hs
  | speaks => exact hs
  | inState => exact hs

theorem Ready.step (ht : Ready base t) (e : MeshEvent Node PeerInput Int) :
    Ready base (peers.mesh.step t e).1 where
  toSound := ht.toSound.step e
  noded := peers.party_step (I := fun _ s => s.handler.Noded) noded_act ht.noded e
  base := peers.party_step (I := fun _ s => s.handler.grpMsgBase = base) grpMsgBase_act ht.base e

theorem ready_initial (base : Int) : Ready base (initial base) where
  toSound := sound_initial base
  noded _ := noded_init base
  base _ := rfl

/-- What an act puts out and leaves in flight. -/
theorem account_perform (hab : a ≠ b) (ht : Ready base t) (n : Node)
    (x : Inbound Node PeerInput Payload Int) (reach : List Node)
    (hknown : ∀ p now, n = b → x = .packet a p now → entry t b a ≠ none) :
    (peers.perform t n x reach).2.filterMap (heardOf b a) ++
        underway base a b (peers.perform t n x reach).1 =
      (if n = b then arrived base a x else []) ++ underway base a b t ++
        if n = a then spokenOn base (t.party a) x reach b else [] := by
  rw [heard_perform, underway_perform, List.append_assoc]
  congr 1
  · split
    · rename_i hn
      subst hn
      exact heard_act (ht.base n) (ht.noBlocked n) fun p now hx => hknown p now rfl hx
    · rfl
  · congr 1
    split
    · rename_i hn
      subst hn
      exact words_act (ht.noded n) fun hself => hab.symm (ht.grpSelf n b hself)
    · rfl

/-- The packets from `a` to `b` come one by one, in order, to a client that has an entry for `a`. -/
def Carries (a b : Node) (t : Mesh Node Peer Payload) : MeshEvent Node PeerInput Int → Prop
  | .arrive src dst k keep _ _ =>
    src = a ∧ dst = b → k = 0 ∧ keep = false ∧ entry t b a ≠ none
  | .lose src dst _ => ¬ (src = a ∧ dst = b)
  | .own _ _ _ => True

instance (a b : Node) (t : Mesh Node Peer Payload) :
    ∀ e : MeshEvent Node PeerInput Int, Decidable (Carries a b t e)
  | .arrive _ _ _ _ _ _ => inferInstanceAs (Decidable (_ → _))
  | .lose _ _ _ => inferInstanceAs (Decidable (¬ _))
  | .own _ _ _ => .isTrue trivial

theorem underway_drop_of_ne {src dst : Node} (k : ℕ) (h : ¬ (a = src ∧ b = dst)) :
    underway base a b (t.drop src dst k) = underway base a b t := by
  rw [underway, link_drop_of_ne k h, underway]

theorem account_step (hab : a ≠ b) (ht : Ready base t) {e : MeshEvent Node PeerInput Int}
    (he : Carries a b t e) :
    (peers.mesh.step t e).2.filterMap (heardOf b a) ++ underway base a b (peers.mesh.step t e).1 =
      underway base a b t ++ spoken base a b t e := by
  cases e with
  | own n i reach =>
    have haccount := account_perform hab ht n (.own i) reach
      (by rintro p now - ⟨⟩)
    refine haccount.trans ?_
    have hnone : (if n = b then arrived base a (.own i) else []) = [] := by simp [arrived]
    rw [hnone, List.nil_append]
    congr 1
    cases i <;> simp [spoken, spokenOn, ite_and]
  | arrive src dst k keep now reach =>
    have hspoken : spoken base a b t (.arrive src dst k keep now reach) = [] := rfl
    rw [hspoken, List.append_nil]
    cases hk : (t.link src dst)[k]? with
    | none =>
      have hidle : peers.mesh.step t (.arrive src dst k keep now reach) = (t, []) := by
        simp [Parties.mesh, Parties.step, hk]
      rw [hidle]
      rfl
    | some p =>
      let t' := if keep then t else t.drop src dst k
      have hstep : peers.mesh.step t (.arrive src dst k keep now reach) =
          peers.perform t' dst (.packet src p now) reach := by
        simp [Parties.mesh, Parties.step, hk, t']
      have hparty : t'.party = t.party := by
        simp only [t']
        split <;> rfl
      have ht' : Ready base t' := by
        constructor
        · constructor <;> rw [hparty]
          exacts [ht.noBlocked, ht.grpSelf]
        · rw [hparty]
          exact ht.noded
        · rw [hparty]
          exact ht.base
      have haccount := account_perform hab ht' dst (.packet src p now) reach
        (by
          rintro q now' rfl hq
          cases hq
          rw [entry, hparty]
          exact (he ⟨rfl, rfl⟩).2.2)
      have hnone : (if dst = a then spokenOn base (t'.party a) (.packet src p now) reach b else []) =
          [] := by
        simp [spokenOn]
      rw [hstep, haccount, hnone, List.append_nil]
      by_cases hlink : src = a ∧ dst = b
      · -- the packet is the oldest one on the link
        obtain ⟨rfl, rfl⟩ := hlink
        obtain ⟨rfl, rfl, -⟩ := he ⟨rfl, rfl⟩
        cases hl : t.link src dst with
        | nil => simp [hl] at hk
        | cons q qs =>
          obtain rfl : q = p := by simpa [hl] using hk
          cases hq : q.words base <;>
            simp [arrived, underway, Mesh.drop_link, t', hl, hq]
      · have harrived : (if dst = b then arrived base a (.packet src p now) else []) = [] := by
          simpa [arrived] using fun hdst hsrc => absurd ⟨hsrc, hdst⟩ hlink
        rw [harrived, List.nil_append]
        simp only [t']
        split
        · rfl
        · exact underway_drop_of_ne k fun h => hlink ⟨h.1.symm, h.2.symm⟩
  | lose src dst k =>
    have hspoken : spoken base a b t (.lose src dst k) = [] := rfl
    rw [hspoken, List.append_nil]
    exact underway_drop_of_ne k fun h => he ⟨h.1.symm, h.2.symm⟩

/-! ## Runs -/

/-- **Words arrive once and in order.** If in a run the packets from `a` to `b` come in order to a
client that has an entry for `a`, then what `b` has heard of `a`, followed by what is in flight, is
what the GUI of `a` has said with `b` in the audience. -/
theorem delivers (base : Int) {a b : Node} (hab : a ≠ b) (es : Run)
    (hes : peers.mesh.Guarded (Carries a b) (initial base) es) :
    (peers.mesh.trace (initial base) es).filterMap (heardOf b a) ++
        underway base a b (peers.mesh.exec (initial base) es) =
      peers.mesh.brought (spoken base a b) (initial base) es := by
  have hline := peers.mesh.conservation_in_order (I := Ready base) (C := Carries a b)
    (underway base a b) (spoken base a b) (fun o => (heardOf b a o).toList)
    (fun t e ht => ht.step e) (fun t e ht he => ?_) (ready_initial base) hes
  · rw [List.filterMap_eq_flatMap_toList, hline]
    rfl
  · rw [← List.filterMap_eq_flatMap_toList]
    exact account_step hab ht he

/-- What `a` says to `b`, until it has arrived. -/
def whispered (a b : Node) : Run :=
  whisper a b ++ [.arrive a b 0 false 0 [], .arrive a b 0 false 0 []]

theorem delivers_whisper :
    (peers.mesh.trace (initial 1) (whispered ⟨1, 1⟩ ⟨2, 2⟩)).filterMap (heardOf ⟨2, 2⟩ ⟨1, 1⟩) =
      [.ofChannel .sendPrivate "hello" {} "ab" 7 1] := by
  have hrun := delivers 1 (a := ⟨1, 1⟩) (b := ⟨2, 2⟩) (by decide) (whispered ⟨1, 1⟩ ⟨2, 2⟩)
    (by decide +kernel)
  have hnone : underway 1 ⟨1, 1⟩ ⟨2, 2⟩
      (peers.mesh.exec (initial 1) (whispered ⟨1, 1⟩ ⟨2, 2⟩)) = [] := by
    decide +kernel
  have hsaid : peers.mesh.brought (spoken 1 ⟨1, 1⟩ ⟨2, 2⟩) (initial 1)
      (whispered ⟨1, 1⟩ ⟨2, 2⟩) = [.ofChannel .sendPrivate "hello" {} "ab" 7 1] := by
    decide +kernel
  rw [← hsaid, ← hrun, hnone, List.append_nil]

end Peer

end RvHouse
