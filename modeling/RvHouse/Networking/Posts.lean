import RvHouse.Networking.HandlerSpec

/-!
# What the handler posts

Every message that a handler posts is a message of its group, and a user in it has a node
(`inGroup_trace`), so the model of the GUI neither throws on it nor fails an assertion.
-/

namespace RvHouse.Handler

theorem of_roomRemove (r : Room) (k : UserKey) (base : Int) :
    (Message.ofRoom .roomRemove r k 0 base).Of base :=
  ⟨rfl, fun v hv => by cases hv⟩

theorem of_user {u : User} (hu : u.id.node ≠ none) (id : MsgId) (seq : UInt32) (base : Int) :
    (Message.ofUser id u seq base).Of base :=
  ⟨rfl, fun v hv => by cases hv; exact hu⟩

theorem of_userUpdate {h : House} {base : Int} {old upd : User} (hold : old.id.node ≠ none)
    {m : Message} (hm : m ∈ posted (userUpdate base h old upd).out) : m.Of base := by
  rcases mem_posted_userUpdate hm with ⟨r, k, -, rfl⟩ | rfl | rfl
  · exact of_roomRemove r k base
  · exact of_user hold _ _ _
  · have hupd : (upd.under old).id.node ≠ none := hold
    exact of_user hupd _ _ _

theorem of_userDataAvailable {base : Int} {u : User} {hdr : PduHeader} {body : PduBody}
    {m : Message} (hm : userDataAvailable base u hdr body = some m) : m.Of base := by
  unfold userDataAvailable at hm
  split at hm <;> cases hm <;> exact ⟨rfl, fun v hv => by cases hv⟩

/-! ## Events -/

/-- The state keeps its group, and its messages are of that group. -/
structure InGroup (s : Handler) (r : Handler × List Effect) : Prop where
  base : r.1.grpMsgBase = s.grpMsgBase
  messages : ∀ m ∈ posted r.2, m.Of s.grpMsgBase

theorem inGroup_rfl (s : Handler) : InGroup s (s, []) := ⟨rfl, by simp⟩

theorem node_ne_none {h : House} {n : Node} {ui : User} (hf : h.userFind (.ofNode n) = some ui) :
    ui.id.node ≠ none := by
  rw [House.node_of_userFind hf]
  simp

theorem inGroup_selfAdded (s : Handler) (n : Node) : InGroup s (s.selfAdded n) := by
  cases hf : s.house.userFind (.ofNode n) with
  | none =>
    rw [selfAdded_of_none hf]
    exact inGroup_rfl s
  | some ui =>
    rw [selfAdded_of_find hf]
    exact ⟨rfl, fun m hm => of_userUpdate (node_ne_none hf) hm⟩

theorem inGroup_adapterNodeAdded (s : Handler) (n : Node) (now : Int) :
    InGroup s (s.adapterNodeAdded n now) := by
  have ha := adapterNodeAdded_outcome s n now
  generalize s.adapterNodeAdded n now = a at ha ⊢
  cases ha with
  | present => exact inGroup_rfl s
  | added =>
    refine ⟨rfl, fun m hm => ?_⟩
    rw [List.mem_singleton.1 hm]
    exact of_user (by simp) _ _ _

theorem inGroup_nodeRemoved (s : Handler) (n : Node) : InGroup s (s.nodeRemoved n) := by
  cases hf : s.house.userFind (.ofNode n) with
  | none =>
    rw [nodeRemoved_of_none hf]
    exact inGroup_rfl s
  | some ui =>
    rw [nodeRemoved_of_find hf]
    refine ⟨rfl, fun m hm => ?_⟩
    rw [posted_map_post] at hm
    rcases List.mem_append.1 hm with hm | hm
    · obtain ⟨r, rfl⟩ := House.mem_closeMsgs hm
      exact of_roomRemove r ui.id s.grpMsgBase
    · rw [List.mem_singleton.1 hm]
      exact of_user (node_ne_none hf) _ _ _

theorem inGroup_removeNodes (seq : UInt32) (s : Handler) (ns : List Node) :
    InGroup s (removeNodes seq s ns) := by
  induction ns generalizing s with
  | nil => exact inGroup_rfl s
  | cons n ns ih =>
    have hn := inGroup_nodeRemoved s n
    have hns := ih (s.nodeRemoved n).1
    refine ⟨hns.base.trans hn.base, fun m hm => ?_⟩
    have hm' : m ∈ posted (s.nodeRemoved n).2 ∨
        m ∈ posted (removeNodes seq (s.nodeRemoved n).1 ns).2 := by
      simpa [removeNodes] using hm
    rcases hm' with hm' | hm'
    · exact hn.messages m hm'
    · rw [← hn.base]
      exact hns.messages m hm'

theorem inGroup_recvUserUpdate (s : Handler) (w : UserWire) (n : Node) (now : Int) :
    InGroup s (s.recvUserUpdate w n now) := by
  cases hf : s.house.userFind (.ofNode n) with
  | none =>
    rw [recvUserUpdate_of_none hf]
    exact inGroup_rfl s
  | some ui =>
    rw [recvUserUpdate_of_find hf]
    exact ⟨rfl, fun m hm => of_userUpdate (node_ne_none hf) hm⟩

theorem inGroup_recvRoomUpdate (s : Handler) (w : RoomWire) (n : Node) :
    InGroup s (s.recvRoomUpdate w n) := by
  have hr := recvRoomUpdate_outcome s w n
  generalize s.recvRoomUpdate w n = r at hr ⊢
  cases hr with
  | ignored => exact inGroup_rfl s
  | orphan => exact ⟨rfl, by simp⟩
  | put =>
    refine ⟨rfl, fun m hm => ?_⟩
    rw [List.mem_singleton.1 hm]
    exact ⟨rfl, fun u hu => by cases hu⟩

theorem inGroup_recvUserData (s : Handler) (hdr : PduHeader) (body : PduBody) (n : Node) :
    InGroup s (s.recvUserData hdr body n) := by
  unfold recvUserData
  cases hf : s.house.userFind (.ofNode n) with
  | none => exact inGroup_rfl s
  | some ui =>
    refine ⟨rfl, fun m hm => ?_⟩
    have hm' : userDataAvailable s.grpMsgBase ui hdr body = some m := by
      simpa [mem_posted] using hm
    exact of_userDataAvailable hm'

theorem inGroup_recvUserReq (s : Handler) (n : Node) (now : Int) :
    InGroup s (s.recvUserReq n now) := by
  refine ⟨rfl, fun m hm => ?_⟩
  simp only [recvUserReq] at hm
  split at hm <;> simp at hm

theorem inGroup_step (s : Handler) (e : Event) : InGroup s (s.step e) := by
  cases e with
  | nodeAdded n now =>
    have hadd := inGroup_adapterNodeAdded s n now
    have hself := inGroup_selfAdded (s.adapterNodeAdded n now).1 n
    simp only [step, nodeAdded_eq]
    split
    · exact inGroup_rfl s
    · split
      · refine ⟨hself.base.trans hadd.base, fun m hm => ?_⟩
        rw [posted_append] at hm
        rcases List.mem_append.1 hm with hm | hm
        · exact hadd.messages m hm
        · rw [← hadd.base]
          exact hself.messages m hm
      · exact hadd
  | nodeRemoved n => exact inGroup_nodeRemoved s n
  | dataReceived p n now =>
    simp only [step, dataReceived]
    split
    · exact inGroup_rfl s
    cases p with
    | userReq => exact inGroup_recvUserReq s n now
    | userUpdate w => exact inGroup_recvUserUpdate s w n now
    | userData hdr body => exact inGroup_recvUserData s hdr body n
    | roomUpdate w => exact inGroup_recvRoomUpdate s w n
    | unrecognized _ => exact inGroup_rfl s
    | malformed => exact inGroup_rfl s
  | updateUser u now => exact ⟨rfl, by simp [step, updateUser]⟩
  | updateRoom r => exact ⟨rfl, by simp [step, updateRoom]⟩
  | blockUsers m =>
    have hns := inGroup_removeNodes m.sequence { s with ipBlock := s.ipBlock.handleMessage m }
      { s with ipBlock := s.ipBlock.handleMessage m : Handler }.blockedNodes
    exact ⟨hns.base, hns.messages⟩
  | selfChanged n => exact ⟨rfl, by simp [step]⟩

theorem inGroup_trace (s : Handler) (es : List Event) :
    ∀ m ∈ posted (machine.trace s es), m.Of s.grpMsgBase := by
  induction es generalizing s with
  | nil => simp
  | cons e es ih =>
    intro m hm
    have he := inGroup_step s e
    rw [Mealy.trace_cons, posted_append] at hm
    rcases List.mem_append.1 hm with hm | hm
    · exact he.messages m hm
    · rw [← he.base]
      exact ih (s.step e).1 m hm

end RvHouse.Handler
