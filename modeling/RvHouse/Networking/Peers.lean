import RvHouse.Networking.PeerSpec

/-!
# The network of a group

The clients of a group as parties of a network (`peers`). Every packet comes from a client; on the
way packets may be lost, doubled and put in another order, and nodes may come and go as they like.

`provenance`: what a client passes to its GUI as the words of a node was said before by the client
at that node, word for word, and was meant for this client (`Audience`): a private message reaches
nobody but its receiver and the node that sent it, and the texts of a room nobody but the nodes that
the sender had in the room.

`mem_act_userData` says which data units a client sends, `mem_act_post` what it takes from them;
that each of them has an addressee rests on every user having a node (`noded`).
-/

namespace RvHouse

/-- The packet of an effect, with its destination. -/
def Effect.packet? : Effect → Option (Option Node × Payload)
  | .send p d => some (d, p)
  | _ => none

/-- The clients of a group. -/
def peers : Parties Node Peer PeerInput Payload Int Effect := ⟨Peer.act, Effect.packet?⟩

/-- The network before anybody has joined. -/
def Peer.initial (base : Int) : Mesh Node Peer Payload := .init fun _ => .init base

/-! ## What is said -/

/-- `m` says what `id` and `body` say at the client that hears of it; `u` is there the user that said
it. -/
inductive Repeats (m : Message) (u : User) : MsgId → Body → Prop where
  | send {str} (hid : m.id = .send) (hb : m.body.asSend = some str) :
    Repeats m u .send (.channel str "")
  /-- The text of a room becomes a text of the channel with the name of the room. -/
  | sendRoom {str rid} (hid : m.id = .sendRoom) (hb : m.body = .sendRoom str rid) :
    Repeats m u .send (.channel str rid)
  | channel {id str ch} (hmem : id ∈ [.sendPrivate, .sendNotification, .privateRefused])
      (hid : m.id = id) (hb : m.body = .channel str ch) : Repeats m u id (.channel str ch)
  | command {id rid tid} (hmem : id ∈ [.roomLaunch, .roomKick]) (hid : m.id = id)
      (hb : m.body = .roomCommand rid tid) :
    Repeats m u id (.roomCommand rid (.ofIdStr tid.idStr))
  | join {r} (hid : m.id = .roomJoin) (hb : m.body = .room r) :
    Repeats m u .roomJoin (.roomJoin r.id r.password)
  | answer {id rid pass} (hmem : id ∈ [.roomJoinAck, .roomJoinFull, .roomJoinPass]) (hid : m.id = id)
      (hb : m.body = .roomJoin rid pass) : Repeats m u id .grouped
  | blocked (hid : m.id = .blockUsers) :
    Repeats m u .blockUsers (.blockUsers { u with sequence := m.sequence } [] false)

namespace Peer

/-- Those for whom a message of the GUI is meant; `reach` are the nodes of the group. -/
def audience (s : Peer) (m : Message) (reach : List Node) : List Node :=
  match m.id, m.body with
  | .send, _ => if s.inState = .joined then reach else []
  | .sendRoom, .sendRoom _ rid => if s.inState = .joined then s.roomNodes rid else []
  | .roomLaunch, .roomCommand rid _ => s.roomNodes rid
  | .roomKick, .roomCommand rid _ => s.roomNodes rid
  | .sendPrivate, _ => (s.named m.senderId.idStr).toList ++ s.handler.grpSelf.toList
  | .sendNotification, _ => (s.named m.senderId.idStr).toList
  | .privateRefused, _ => (s.named m.senderId.idStr).toList
  | .roomJoin, .room r => ((s.handler.house.userFind r.ownerId).bind (·.id.node)).toList
  | .roomJoinAck, _ => (s.named m.senderId.idStr).toList
  | .roomJoinFull, _ => (s.named m.senderId.idStr).toList
  | .roomJoinPass, _ => (s.named m.senderId.idStr).toList
  | .blockUsers, _ => { s.handler with ipBlock := s.handler.ipBlock.handleMessage m }.blockedNodes
  | _, _ => []

/-- The message is meant for `b`. -/
def Audience (s : Peer) (m : Message) (reach : List Node) (b : Node) : Prop :=
  b ∈ s.audience m reach

instance (s : Peer) (m : Message) (reach : List Node) (b : Node) :
    Decidable (s.Audience m reach b) := inferInstanceAs (Decidable (b ∈ _))

/-- The message tells the GUI of the house, or of a state of the group. -/
def News (s : Peer) (m : Message) : Prop :=
  m.id ∈ Handler.news ∨ ∃ st, m = .ofGroupState s.handler.grpMsgBase st

/-! ## Single acts -/

variable {self : Node} {s : Peer} {x : Inbound Node PeerInput Payload Int}

/-- The data units that a client sends are those of a message of its GUI. -/
theorem mem_act_userData {hdr : PduHeader} {body : PduBody} {d : Option Node}
    (h : .send (.userData hdr body) d ∈ (act self s x).2) :
    ∃ m now, x = .own (.message m now) ∧ s.Tells m hdr body d := by
  have hx := act_outcome self s x
  generalize act self s x = r at hx h
  cases hx with
  | event he =>
    cases Handler.mem_step_send h with
    | userBlocked hn =>
      cases he with
      | blockUsers hid => exact ⟨_, _, rfl, .blocked hid hn⟩
  | speaks hout =>
    rcases hout _ h with ⟨n, hn⟩ | ⟨hdr', body', d', ho, ht⟩
    · cases hn
    · cases ho
      exact ⟨_, _, rfl, ht⟩
  | inState => cases List.mem_singleton.1 h

/-- What a client passes to its GUI is news of the house or of the group, or the data unit that
arrives. -/
theorem mem_act_post {m : Message} (h : .post m ∈ (act self s x).2) :
    s.News m ∨ ∃ src hdr body now ui, x = .packet src (.userData hdr body) now ∧
      s.handler.house.userFind (.ofNode src) = some ui ∧
      userDataAvailable s.handler.grpMsgBase ui hdr body = some m := by
  have hx := act_outcome self s x
  generalize act self s x = r at hx h
  cases hx with
  | event he =>
    refine (Handler.mem_step_post h).imp .inl ?_
    rintro ⟨hdr, body, n, now, ui, rfl, hui, hm⟩
    cases he with
    | packet => exact ⟨_, _, _, _, ui, rfl, hui, hm⟩
  | speaks hout =>
    rcases hout _ h with ⟨n, hn⟩ | ⟨hdr', body', d', ho, -⟩
    · cases hn
    · cases ho
  | inState =>
    cases List.mem_singleton.1 h
    exact .inl (.inr ⟨_, rfl⟩)

/-- A data unit says what the message said. -/
theorem Tells.repeats {m : Message} {hdr : PduHeader} {body : PduBody} {d : Option Node}
    (ht : s.Tells m hdr body d) {base : Int} {u : User} {m' : Message}
    (hm : userDataAvailable base u hdr body = some m') :
    Repeats m u m'.id m'.body ∧ m'.sequence = m.sequence := by
  cases ht with
  | send hid hb =>
    cases hm
    exact ⟨.send hid hb, rfl⟩
  | sendRoom hid hb =>
    cases hm
    exact ⟨.sendRoom hid hb, rfl⟩
  | sendPrivate hid hb =>
    cases hm
    exact ⟨.channel (by simp [Message.ofChannel]) hid hb, rfl⟩
  | sendNotification hid hb =>
    cases hm
    exact ⟨.channel (by simp [Message.ofChannel]) hid hb, rfl⟩
  | privateRefused hid hb =>
    cases hm
    exact ⟨.channel (by simp [Message.ofChannel]) hid hb, rfl⟩
  | command hmem hid hb =>
    simp only [List.mem_cons, Prod.mk.injEq, List.not_mem_nil, or_false] at hmem
    rcases hmem with ⟨rfl, rfl⟩ | ⟨rfl, rfl⟩ <;> cases hm <;>
      exact ⟨.command (by simp [Message.ofRoomCommand]) hid hb, rfl⟩
  | join hid hb =>
    cases hm
    exact ⟨.join hid hb, rfl⟩
  | answer hmem hid hb =>
    simp only [List.mem_cons, Prod.mk.injEq, List.not_mem_nil, or_false] at hmem
    rcases hmem with ⟨rfl, rfl⟩ | ⟨rfl, rfl⟩ | ⟨rfl, rfl⟩ <;> cases hm <;>
      exact ⟨.answer (by simp [Message.ofGrouped]) hid hb, rfl⟩
  | blocked hid =>
    cases hm
    exact ⟨.blocked hid, rfl⟩

theorem mem_roomNodes {rid : String} {k : UserKey} {b : Node}
    (hk : k ∈ s.handler.house.userIdsInRoom rid) (hb : k.node = some b) : b ∈ s.roomNodes rid :=
  List.mem_filterMap.2 ⟨k, hk, hb⟩

theorem named_of_find {idStr : String} {ui : User} {b : Node}
    (hui : s.handler.house.userFindStr idStr = some ui) (hb : ui.id.node = some b) :
    s.named idStr = some b := by
  simp [named, hui, hb]

/-- A data unit goes to those for whom the message is meant. -/
theorem Tells.audience (hs : s.handler.Noded) {m : Message} {hdr : PduHeader} {body : PduBody}
    {d : Option Node} (ht : s.Tells m hdr body d) {reach : List Node} {b : Node}
    (hd : d = some b ∨ d = none ∧ b ∈ reach) : s.Audience m reach b := by
  -- An entry of the house, or a key of one, has a node: the data unit does not go to all.
  have hto {n : Option Node} (hn : ∃ c, n = some c) (hd : n = some b ∨ n = none ∧ b ∈ reach) :
      n = some b := by
    obtain ⟨c, rfl⟩ := hn
    simpa using hd
  have huser {u : User} (hu : u ∈ s.handler.house.users.toList) := hs.of_mem hu
  have hkey {rid : String} {k : UserKey} (hk : k ∈ s.handler.house.userIdsInRoom rid) :
      ∃ c, k.node = some c := by
    obtain ⟨u, hu, rfl⟩ := List.mem_map.1 hk
    exact huser (List.mem_filter.1 hu).1
  have hstr {i : String} {u : User} (hu : s.handler.house.userFindStr i = some u) :=
    huser (List.mem_of_find?_eq_some hu)
  cases ht with
  | send hid hb hj => simpa [Audience, Peer.audience, hid, hj] using hd
  | sendRoom hid hb hj hk =>
    simpa [Audience, Peer.audience, hid, hb, hj] using mem_roomNodes hk (hto (hkey hk) hd)
  | sendPrivate hid hb hn =>
    cases hto ⟨_, rfl⟩ hd
    simpa [Audience, Peer.audience, hid] using hn
  | sendNotification hid hb hn =>
    cases hto ⟨_, rfl⟩ hd
    simpa [Audience, Peer.audience, hid] using hn
  | privateRefused hid hb hui =>
    simpa [Audience, Peer.audience, hid] using named_of_find hui (hto (hstr hui) hd)
  | command hmem hid hb hk =>
    have hroom := mem_roomNodes hk (hto (hkey hk) hd)
    simp only [List.mem_cons, Prod.mk.injEq, List.not_mem_nil, or_false] at hmem
    rcases hmem with ⟨rfl, -⟩ | ⟨rfl, -⟩ <;> simpa [Audience, Peer.audience, hid, hb] using hroom
  | @join r ui hid hb hui =>
    have hmem : ui ∈ s.handler.house.users.toList :=
      House.mem_users.2 ((House.userFind_congr (House.node_of_userFind hui)).trans hui)
    simpa [Audience, Peer.audience, hid, hb, hui] using hto (huser hmem) hd
  | answer hmem hid hb hui =>
    have hnamed := named_of_find hui (hto (hstr hui) hd)
    simp only [List.mem_cons, Prod.mk.injEq, List.not_mem_nil, or_false] at hmem
    rcases hmem with ⟨rfl, -⟩ | ⟨rfl, -⟩ | ⟨rfl, -⟩ <;> simpa [Audience, Peer.audience, hid] using hnamed
  | blocked hid hn =>
    cases hto ⟨_, rfl⟩ hd
    simpa [Audience, Peer.audience, hid] using hn

/-! ## Runs -/

theorem noded_act (self : Node) (s : Peer) (x : Inbound Node PeerInput Payload Int)
    (hs : s.handler.Noded) : (act self s x).1.handler.Noded := by
  have hx := act_outcome self s x
  generalize act self s x = r at hx ⊢
  cases hx with
  | event => exact hs.step _
  | speaks => exact hs
  | inState => exact hs

theorem noded_init (base : Int) : (init base).handler.Noded := House.userFind_empty {}

/-- Every user in a house has a node. -/
theorem noded (base : Int) (es : List (MeshEvent Node PeerInput Int)) (n : Node) :
    ((peers.mesh.exec (initial base) es).party n).handler.Noded :=
  peers.party_invariant (fun n s x h => noded_act n s x h) (fun _ => noded_init base) es n

/-- **Provenance.** What a client passes to its GUI is news of its house or of its group, or it comes
from a user of the house whose client was given the same message by its GUI before, for this client
among others. -/
theorem provenance (base : Int) (es : List (MeshEvent Node PeerInput Int))
    (e : MeshEvent Node PeerInput Int) (b : Node) (m' : Message)
    (hm : (b, .post m') ∈ (peers.mesh.step (peers.mesh.exec (initial base) es) e).2) :
    ((peers.mesh.exec (initial base) es).party b).News m' ∨
      ∃ a u, ((peers.mesh.exec (initial base) es).party b).handler.house.userFind (.ofNode a) =
          some u ∧ m'.senderId = u.id ∧
        ∃ p m now reach, p ++ [.own a (.message m now) reach] <+: es ∧
          Repeats m u m'.id m'.body ∧ m'.sequence = m.sequence ∧
          ((peers.mesh.exec (initial base) p).party a).Audience m reach b := by
  obtain ⟨x, reach', hperf, hpost⟩ := peers.mem_step_snd.1 hm
  refine (mem_act_post hpost).imp_right ?_
  rintro ⟨a, hdr, body, now, u, rfl, hu, hdata⟩
  refine ⟨a, u, hu, senderId_userDataAvailable hdata, ?_⟩
  cases hperf with
  | arrive hk =>
    -- The data unit was sent by `a`, and only a message of the GUI makes a client send one.
    obtain ⟨p, e, x, reach, hp, hact, hsent⟩ := peers.origin (List.mem_of_getElem? hk)
    obtain ⟨o, ho, d, hpacket, hd⟩ := peers.mem_sentTo.1 hsent
    cases o with
    | send q d' =>
      cases hpacket
      obtain ⟨m, now, rfl, htells⟩ := mem_act_userData ho
      cases hact
      obtain ⟨hrepeats, hseq⟩ := htells.repeats hdata
      exact ⟨p, m, now, reach, hp, hrepeats, hseq, htells.audience (noded base p a) hd⟩
    | post => cases hpacket
    | derefRoomEnd => cases hpacket

/-- `a` says something in private to the only user that it knows, which is `b`. -/
def whisper (a b : Node) : List (MeshEvent Node PeerInput Int) :=
  [.own b (.nodeAdded a 0) [], .own a (.nodeAdded b 0) [],
    .own a (.message (.ofChannel .sendPrivate "hello" {} "ab" 7 1) 0) []]

theorem provenance_whisper : ∃ p m now reach,
    p ++ [.own ⟨1, 1⟩ (.message m now) reach] <+: whisper ⟨1, 1⟩ ⟨2, 2⟩ ∧ m.sequence = 7 ∧
      ((peers.mesh.exec (initial 1) p).party ⟨1, 1⟩).Audience m reach ⟨2, 2⟩ := by
  have hrun := provenance 1 (whisper ⟨1, 1⟩ ⟨2, 2⟩) (.arrive ⟨1, 1⟩ ⟨2, 2⟩ 1 false 0 []) ⟨2, 2⟩
    (.ofChannel .sendPrivate "hello" (.ofNode ⟨1, 1⟩) "ab" 7 1) (by decide +kernel)
  rcases hrun with hnews | ⟨a, u, hu, hid, p, m, now, reach, hp, -, hseq, haudience⟩
  · rcases hnews with hnews | ⟨st, hst⟩
    · exact absurd hnews (by decide)
    · cases st <;> cases hst
  · have ha : (⟨1, 1⟩ : Node) = a := by
      have hnode := House.node_of_userFind hu
      rw [← hid] at hnode
      exact Option.some.inj hnode
    subst ha
    exact ⟨p, m, now, reach, hp, hseq.symm, haudience⟩

end Peer

end RvHouse
