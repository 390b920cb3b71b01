import RvHouse.Model.House
import RvHouse.Networking.Posts

/-!
# The GUI's model and the handler's house

The handler of a group changes its house and posts messages; the GUI applies the messages to its own
model of the group. `mirror_iff_guarded` says in which runs the two agree after each event, on the
id string, room, login and status of every user and on the owner and topic of every room: those in
which an update without an id string changes nothing that it should show, and no room is announced
by a node that is not in the house (`Mirrorable`). The model ignores updates without an id string,
whereas the handler means to and does not; and the handler keeps a room of an unknown sender without
a message. `not_mirror_of_unnamed` is a run with such an update.
-/

namespace RvHouse

open Handler

/-! ## What must agree -/

/-- What the model shows of a user. -/
def User.face (u : User) : UserKey × String × String × Status := (u.id, u.roomId, u.loginId, u.status)

/-- What the model shows of a room. -/
def Room.face (r : Room) : UserKey × String := (r.ownerId, r.topic)

/-- The two houses show the same users and the same rooms. -/
structure Mirror (h h' : House) : Prop where
  users : ∀ k, (h'.userFind k).map User.face = (h.userFind k).map User.face
  rooms : ∀ id, (h'.roomFind id).map Room.face = (h.roomFind id).map Room.face

/-- The two houses show the same rooms, and the same users but for the node `n`. -/
structure MirrorBut (n : Node) (h h' : House) : Prop where
  users : ∀ k : UserKey, k.node ≠ some n →
    (h'.userFind k).map User.face = (h.userFind k).map User.face
  rooms : ∀ id, (h'.roomFind id).map Room.face = (h.roomFind id).map Room.face

theorem Mirror.but {h h' : House} (hm : Mirror h h') (n : Node) : MirrorBut n h h' :=
  ⟨fun k _ => hm.users k, hm.rooms⟩

theorem mirror_iff_but {h h' : House} {n : Node} :
    Mirror h h' ↔ MirrorBut n h h' ∧
      (h'.userFind (.ofNode n)).map User.face = (h.userFind (.ofNode n)).map User.face := by
  refine ⟨fun hm => ⟨hm.but n, hm.users _⟩, fun ⟨hm, hn⟩ => ⟨fun k => ?_, hm.rooms⟩⟩
  by_cases hk : k.node = some n
  · have hk' : k.node = (UserKey.ofNode n).node := hk
    rw [House.userFind_congr hk', House.userFind_congr hk', hn]
  · exact hm.users k hk

/-! ## Single messages -/

/-- The messages that close the room of a host close it in the model. -/
theorem mirror_close {h : House} {g : GroupHouse} (hm : Mirror h g.house) (base : Int) (u : User)
    (k : UserKey) : Mirror (h.close u) (g.handleAll (h.closeMsgs base u k)).house := by
  by_cases hh : h.Hosts u
  · obtain ⟨-, r, hr, -⟩ := id hh
    rw [Option.mem_def] at hr
    have hmsgs : h.closeMsgs base u k = [Message.ofRoom .roomRemove r k 0 base] := by
      simp [House.closeMsgs, hh, hr]
    refine ⟨fun k' => ?_, fun id => ?_⟩
    · simpa [hmsgs] using hm.users k'
    · rw [hmsgs, handleAll_cons, handleAll_nil, handle_roomRemove, GroupHouse.roomFind_roomErase,
        House.roomFind_close, House.id_of_roomFind hr]
      by_cases hid : u.roomId = id
      · simp [hh, hid]
      · simpa [hid] using hm.rooms id
  · have hclose : h.close u = h := if_neg hh
    have hmsgs : h.closeMsgs base u k = [] := if_neg hh
    rwa [hclose, hmsgs, handleAll_nil]

/-- A user that leaves takes its entry with it. -/
theorem mirrorBut_userLeft {h : House} {g : GroupHouse} {u : User} {n : Node}
    (hm : Mirror h g.house) (hn : u.id.node = some n) (base : Int) :
    MirrorBut n h (g.handle (.ofUser .userLeft u 0 base)).house ∧
      (g.handle (.ofUser .userLeft u 0 base)).house.userFind (.ofNode n) = none := by
  refine ⟨⟨fun k hk => ?_, fun id => hm.rooms id⟩, ?_⟩
  · rw [handle_userLeft, GroupHouse.userFind_userErase, hn, if_neg (hk ∘ Eq.symm)]
    exact hm.users k
  · rw [handle_userLeft, GroupHouse.userFind_userErase, hn]
    exact if_pos rfl

/-- A user message replaces the entry of its node, unless it brings no id string for a user that is
there. -/
theorem mirrorBut_user {h : House} {g : GroupHouse} {u : User} {n : Node}
    (hm : MirrorBut n h g.house) (hn : u.id.node = some n) (seq : UInt32) (base : Int) :
    MirrorBut n h (g.handle (.ofUser .user u seq base)).house ∧
      (g.handle (.ofUser .user u seq base)).house.userFind (.ofNode n) =
        if u.id.idStr = "" ∧ (g.house.userFind (.ofNode n)).isSome then
          g.house.userFind (.ofNode n)
        else some { u with sequence := seq } := by
  have hkey : g.house.userFind u.id = g.house.userFind (.ofNode n) := House.userFind_congr hn
  refine ⟨⟨fun k hk => ?_, fun id => ?_⟩, ?_⟩
  · rw [handle_user, GroupHouse.userFind_userUpdate]
    simp only [hn]
    rw [if_neg (hk ∘ Eq.symm)]
    exact hm.users k hk
  · rw [handle_user, GroupHouse.roomFind_userUpdate]
    exact hm.rooms id
  · rw [handle_user, GroupHouse.userFind_userUpdate]
    simp only [hn, hkey, UserKey.ofNode_node, if_true]

/-- To store an entry for `n` makes the houses agree again when the model has that entry. -/
theorem mirror_userStore {h h' : House} {e ui : User} {n : Node} (hm : MirrorBut n h h')
    (hn : e.id.node = some n) (hf : h.userFind (.ofNode n) = some ui) :
    Mirror (h.userStore e) h' ↔ (h'.userFind (.ofNode n)).map User.face = some e.face := by
  have hbut : MirrorBut n (h.userStore e) h' := by
    refine ⟨fun k hk => ?_, hm.rooms⟩
    rw [House.userFind_userStore, hn, if_neg (hk ∘ Eq.symm)]
    exact hm.users k hk
  rw [mirror_iff_but, and_iff_right hbut, House.userFind_userStore, hn, hf]
  simp

/-! ## Events -/

theorem userFind_handleAll_closeMsgs (g : GroupHouse) (h : House) (base : Int) (u : User)
    (i k : UserKey) :
    (g.handleAll (h.closeMsgs base u i)).house.userFind k = g.house.userFind k := by
  unfold House.closeMsgs
  split
  · cases h.roomFind u.roomId <;> rfl
  · rfl

/-- After an update, the model has the new data for the node, unless they bring no id string. -/
theorem mirrorBut_userUpdate {h : House} {g : GroupHouse} {ui : User} {n : Node}
    (hm : Mirror h g.house) (hn : ui.id.node = some n) (base : Int) (upd : User) :
    MirrorBut n (userUpdate base h ui upd).house
        (g.handleAll (posted (userUpdate base h ui upd).out)).house ∧
      (g.handleAll (posted (userUpdate base h ui upd).out)).house.userFind (.ofNode n) =
        if upd.id.idStr = "" ∧ (g.house.userFind (.ofNode n)).isSome then
          g.house.userFind (.ofNode n)
        else some (upd.under ui) := by
  have hn' : (upd.under ui).id.node = some n := hn
  rw [userUpdate_house, posted_userUpdate, handleAll_append, handleAll_cons, handleAll_nil]
  by_cases hr : Restarts ui upd
  · rw [if_pos (Or.inl hr), if_pos hr, handleAll_append, handleAll_cons, handleAll_nil]
    have hclose := mirror_close hm base ui ui.id
    obtain ⟨hbut, hnone⟩ := mirrorBut_userLeft hclose hn base
    obtain ⟨hbut', hfind⟩ := mirrorBut_user hbut hn' upd.sequence base
    refine ⟨hbut', hfind.trans ?_⟩
    simp [hr.2.1, User.under]
  · by_cases hl : Leaves ui upd
    · rw [if_pos (Or.inr hl), if_neg hr, if_pos hl]
      have hclose := mirror_close hm base ui (upd.under ui).id
      obtain ⟨hbut, hfind⟩ := mirrorBut_user (hclose.but n) hn' upd.sequence base
      rw [userFind_handleAll_closeMsgs] at hfind
      exact ⟨hbut, hfind⟩
    · rw [if_neg (not_or.2 ⟨hr, hl⟩), if_neg hr, if_neg hl]
      exact mirrorBut_user (hm.but n) hn' upd.sequence base

/-- The houses agree after an update that leaves the entry `e`, unless it brings no id string and
`e` shows something new. -/
theorem mirror_userUpdate {h : House} {g : GroupHouse} {ui e : User} {n : Node}
    (hm : Mirror h g.house) (hf : h.userFind (.ofNode n) = some ui) (base : Int) (upd : User)
    (he : e.id.node = ui.id.node) (hface : upd.id.idStr ≠ "" → (upd.under ui).face = e.face) :
    Mirror ((userUpdate base h ui upd).house.userStore e)
        (g.handleAll (posted (userUpdate base h ui upd).out)).house ↔
      (upd.id.idStr = "" → ui.face = e.face) := by
  have hn : ui.id.node = some n := House.node_of_userFind hf
  obtain ⟨hbut, hfind⟩ := mirrorBut_userUpdate hm hn base upd
  have hent := hm.users (.ofNode n)
  rw [hf] at hent
  obtain ⟨v, hv, hvface⟩ := Option.map_eq_some_iff.1 hent
  have hf' := (userFind_userUpdate_house base h ui upd (.ofNode n)).trans hf
  refine (mirror_userStore hbut (he.trans hn) hf').trans ?_
  rw [hfind, hv]
  by_cases hid : upd.id.idStr = ""
  · -- The model keeps its entry, and the handler takes the data over.
    simp [hid, hvface]
  · simp [hid, hface hid]

/-- The data repeat the room, the login and the status of the entry. -/
def SameFace (old upd : User) : Prop :=
  upd.roomId = old.roomId ∧ upd.loginId = old.loginId ∧ upd.status = old.status

theorem mirror_recvUserUpdate {s : Handler} {g : GroupHouse} (hm : Mirror s.house g.house)
    (w : UserWire) (n : Node) (now : Int) :
    Mirror (s.recvUserUpdate w n now).1.house
        (g.handleAll (posted (s.recvUserUpdate w n now).2)).house ↔
      (w.idStr = "" → ∀ ui, s.house.userFind (.ofNode n) = some ui →
        SameFace ui (decoded w n now)) := by
  cases hf : s.house.userFind (.ofNode n) with
  | none =>
    rw [recvUserUpdate_of_none hf]
    simpa using hm
  | some ui =>
    rw [recvUserUpdate_of_find hf]
    refine (mirror_userUpdate hm hf _ _ (updated_node _ _) fun hid => ?_).trans ?_
    · rw [decoded_idStr] at hid
      simp [User.face, User.under, updated_id, hid]
    · refine forall_congr' fun hid => ?_
      rw [decoded_idStr] at hid
      simp [User.face, SameFace, updated_id, hid, eq_comm]

theorem mirror_selfAdded {s : Handler} {g : GroupHouse} (hm : Mirror s.house g.house) (n : Node) :
    Mirror (s.selfAdded n).1.house (g.handleAll (posted (s.selfAdded n).2)).house ↔
      (s.selfUser.id.idStr = "" → ∀ ui, s.house.userFind (.ofNode n) = some ui →
        ui.id.idStr = "" ∧ SameFace ui s.selfUser) := by
  cases hf : s.house.userFind (.ofNode n) with
  | none =>
    rw [selfAdded_of_none hf]
    simpa using hm
  | some ui =>
    have he : (selfUpdated ui s.selfUser).id.node = ui.id.node := by simp [selfUpdated]
    have hface : s.selfUser.id.idStr ≠ "" →
        (s.selfUser.under ui).face = (selfUpdated ui s.selfUser).face := fun _ => by
      simp [User.face, User.under, selfUpdated]
    rw [selfAdded_of_find hf]
    refine (mirror_userUpdate hm hf _ _ he hface).trans (forall_congr' fun hid => ?_)
    have hkey : ui.id = (selfUpdated ui s.selfUser).id ↔ ui.id.idStr = "" := by
      rw [UserKey.ext_iff]
      simp [selfUpdated, hid]
    simp only [User.face, SameFace, Prod.mk.injEq, hkey, Option.some.injEq, forall_eq']
    exact and_congr_right fun _ => and_congr eq_comm (and_congr eq_comm eq_comm)

/-- A node that arrives is announced with the entry that the house gets. -/
theorem mirror_adapterNodeAdded {s : Handler} {g : GroupHouse} (hm : Mirror s.house g.house)
    (n : Node) (now : Int) :
    Mirror (s.adapterNodeAdded n now).1.house
      (g.handleAll (posted (s.adapterNodeAdded n now).2)).house := by
  have ha := adapterNodeAdded_outcome s n now
  generalize s.adapterNodeAdded n now = a at ha ⊢
  cases ha with
  | present => exact hm
  | @added h' hf husers hrooms =>
    have hn : (User.ofNode n now).id.node = some n := rfl
    have hgone : g.house.userFind (.ofNode n) = none := by
      have hent := hm.users (.ofNode n)
      simpa [hf] using hent
    obtain ⟨hbut, hfind⟩ := mirrorBut_user (hm.but n) hn 0 s.grpMsgBase
    rw [hgone] at hfind
    have hbut' : MirrorBut n h' (g.handle (.ofUser .user (User.ofNode n now) 0 s.grpMsgBase)).house :=
      ⟨fun k hk => by rw [husers, if_neg hk]; exact hbut.users k hk,
        fun id => by rw [hrooms]; exact hbut.rooms id⟩
    refine mirror_iff_but.2 ⟨hbut', ?_⟩
    have hent : h'.userFind (.ofNode n) = some (User.ofNode n now) := by simp [husers]
    rw [hent]
    refine (congrArg (Option.map User.face) hfind).trans ?_
    rw [if_neg (by simp)]
    rfl

theorem mirror_nodeRemoved {s : Handler} {g : GroupHouse} (hm : Mirror s.house g.house) (n : Node) :
    Mirror (s.nodeRemoved n).1.house (g.handleAll (posted (s.nodeRemoved n).2)).house := by
  cases hf : s.house.userFind (.ofNode n) with
  | none =>
    rw [nodeRemoved_of_none hf]
    exact hm
  | some ui =>
    have hn : ui.id.node = some n := House.node_of_userFind hf
    rw [nodeRemoved_of_find hf, posted_map_post, handleAll_append]
    have hclose := mirror_close hm s.grpMsgBase ui ui.id
    obtain ⟨hbut, hnone⟩ := mirrorBut_userLeft hclose hn s.grpMsgBase
    have hbut' : MirrorBut n ((s.house.close ui).userErase ui.id) _ :=
      ⟨fun k hk => by rw [House.userFind_userErase, hn, if_neg (hk ∘ Eq.symm)]; exact hbut.users k hk,
        hbut.rooms⟩
    refine mirror_iff_but.2 ⟨hbut', ?_⟩
    rw [House.userFind_userErase, hn]
    simpa using hnone

theorem mirror_removeNodes (seq : UInt32) {s : Handler} {g : GroupHouse}
    (hm : Mirror s.house g.house) (ns : List Node) :
    Mirror (removeNodes seq s ns).1.house
      (g.handleAll (posted (removeNodes seq s ns).2)).house := by
  induction ns generalizing s g with
  | nil => exact hm
  | cons n ns ih =>
    have hn := mirror_nodeRemoved hm n
    have hout : posted (removeNodes seq s (n :: ns)).2 =
        posted (s.nodeRemoved n).2 ++ posted (removeNodes seq (s.nodeRemoved n).1 ns).2 := by
      simp [removeNodes]
    rw [hout, handleAll_append]
    exact ih hn

/-- The room of an update is announced unless its sender is not in the house. -/
theorem mirror_recvRoomUpdate {s : Handler} {g : GroupHouse} (hm : Mirror s.house g.house)
    (w : RoomWire) (n : Node) :
    Mirror (s.recvRoomUpdate w n).1.house
        (g.handleAll (posted (s.recvRoomUpdate w n).2)).house ↔
      (w.id ≠ "" → s.house.roomFind w.id = none → s.house.userFind (.ofNode n) ≠ none) := by
  have hr := recvRoomUpdate_outcome s w n
  generalize s.recvRoomUpdate w n = r at hr ⊢
  cases hr with
  | ignored h =>
    refine iff_of_true hm fun hid hnone => ?_
    rcases h with h | ⟨ri, hri, -⟩
    · exact absurd h hid
    · rw [hri] at hnone
      cases hnone
  | @put ui h' hid hf howner hput =>
    have hm' : Mirror h' (g.roomUpdate { announced w ui with sequence := w.sequence }).house := by
      refine ⟨fun k => ?_, fun id => ?_⟩
      · rw [GroupHouse.userFind_roomUpdate, hput.users]
        exact hm.users k
      · rw [GroupHouse.roomFind_roomUpdate, hput.rooms]
        have hid' : ({ announced w ui with sequence := w.sequence } : Room).id =
            (announced w ui).id := rfl
        rw [hid']
        split
        · rfl
        · exact hm.rooms id
    refine iff_of_true hm' fun _ _ => ?_
    rw [hf]
    simp
  | orphan hid hf hnone hput =>
    refine iff_of_false (fun hm' => ?_) fun h => h hid hnone hf
    have hgone : g.house.roomFind w.id = none := by
      have hroom := hm.rooms w.id
      simpa [hnone] using hroom
    have hroom := (hm'.rooms w.id).symm.trans (congrArg (Option.map Room.face) hgone)
    rw [hput.rooms, Room.toRoom_id, if_pos rfl] at hroom
    cases hroom

/-- User data are no concern of the model. -/
theorem handle_userDataAvailable {base : Int} {u : User} {hdr : PduHeader} {body : PduBody}
    {m : Message} (hm : userDataAvailable base u hdr body = some m) (g : GroupHouse) :
    g.handle m = g := by
  unfold userDataAvailable at hm
  split at hm <;> cases hm <;> rfl

theorem mirror_recvUserData {s : Handler} {g : GroupHouse} (hm : Mirror s.house g.house)
    (hdr : PduHeader) (body : PduBody) (n : Node) :
    Mirror (s.recvUserData hdr body n).1.house
      (g.handleAll (posted (s.recvUserData hdr body n).2)).house := by
  unfold recvUserData
  cases hf : s.house.userFind (.ofNode n) with
  | none => exact hm
  | some ui =>
    cases hd : userDataAvailable s.grpMsgBase ui hdr body with
    | none => simpa [hd] using hm
    | some m => simpa [hd, handle_userDataAvailable hd] using hm

/-! ## Runs -/

/-- The entry of a node that has arrived. -/
def arrived (s : Handler) (n : Node) (now : Int) : User :=
  (s.house.userFind (.ofNode n)).getD (User.ofNode n now)

/-- An update without an id string repeats what the entry shows, and a new room comes from a node in
the house. -/
def Mirrorable (s : Handler) : Event → Prop
  | .dataReceived (.userUpdate w) n now =>
    s.ipBlock.isBlocked n.ip = false → w.idStr = "" →
      ∀ ui, s.house.userFind (.ofNode n) = some ui → SameFace ui (decoded w n now)
  | .dataReceived (.roomUpdate w) n _ =>
    s.ipBlock.isBlocked n.ip = false → w.id ≠ "" → s.house.roomFind w.id = none →
      s.house.userFind (.ofNode n) ≠ none
  | .nodeAdded n now =>
    s.ipBlock.isBlocked n.ip = false → s.grpSelf = some n → s.selfUser.id.idStr = "" →
      (arrived s n now).id.idStr = "" ∧ SameFace (arrived s n now) s.selfUser
  | _ => True

theorem userFind_adapterNodeAdded (s : Handler) (n : Node) (now : Int) :
    (s.adapterNodeAdded n now).1.house.userFind (.ofNode n) = some (arrived s n now) := by
  have ha := adapterNodeAdded_outcome s n now
  generalize s.adapterNodeAdded n now = a at ha ⊢
  unfold arrived
  cases ha with
  | present hf =>
    obtain ⟨ui, hui⟩ := Option.ne_none_iff_exists'.1 hf
    simp [hui]
  | added hf husers => simp [husers, hf]

theorem selfUser_adapterNodeAdded (s : Handler) (n : Node) (now : Int) :
    (s.adapterNodeAdded n now).1.selfUser = s.selfUser := by
  simp only [adapterNodeAdded]
  split <;> rfl

theorem mirror_nodeAdded {s : Handler} {g : GroupHouse} (hm : Mirror s.house g.house) (n : Node)
    (now : Int) :
    Mirror (s.nodeAdded n now).1.house (g.handleAll (posted (s.nodeAdded n now).2)).house ↔
      Mirrorable s (.nodeAdded n now) := by
  have ha := mirror_adapterNodeAdded hm n now
  rw [nodeAdded_eq]
  unfold Mirrorable
  by_cases hb : s.ipBlock.isBlocked n.ip
  · simpa [hb] using hm
  by_cases hself : s.grpSelf = some n
  · have hadd := mirror_selfAdded ha n
    rw [selfUser_adapterNodeAdded, userFind_adapterNodeAdded] at hadd
    simpa [hb, hself, posted_append, handleAll_append] using hadd
  · simpa [hb, hself] using ha

/-- An event keeps the houses in agreement exactly when it is mirrorable. -/
theorem mirror_step (s : Handler) (e : Event) (g : GroupHouse) (hm : Mirror s.house g.house) :
    Mirror (s.step e).1.house (g.handleAll (posted (s.step e).2)).house ↔ Mirrorable s e := by
  cases e with
  | nodeAdded n now => exact mirror_nodeAdded hm n now
  | nodeRemoved n => exact iff_of_true (mirror_nodeRemoved hm n) trivial
  | dataReceived p n now =>
    simp only [step, dataReceived]
    split
    · rename_i hb
      refine iff_of_true hm ?_
      cases p <;> simp [Mirrorable, hb]
    · rename_i hb
      cases p with
      | roomUpdate w => simpa [Mirrorable, hb] using mirror_recvRoomUpdate hm w n
      | userUpdate w => simpa [Mirrorable, hb] using mirror_recvUserUpdate hm w n now
      | userReq =>
        refine iff_of_true ?_ trivial
        simp only [recvUserReq]
        split <;> exact hm
      | userData hdr body => exact iff_of_true (mirror_recvUserData hm hdr body n) trivial
      | unrecognized _ => exact iff_of_true hm trivial
      | malformed => exact iff_of_true hm trivial
  | updateUser u now => exact iff_of_true hm trivial
  | updateRoom r => exact iff_of_true hm trivial
  | blockUsers m =>
    have hm' : Mirror { s with ipBlock := s.ipBlock.handleMessage m }.house g.house := hm
    exact iff_of_true (mirror_removeNodes m.sequence hm' _) trivial
  | selfChanged n => exact iff_of_true hm trivial

/-- An effect as the model takes it. -/
def consume (g : GroupHouse) : Effect → GroupHouse
  | .post m => g.handle m
  | _ => g

theorem foldl_consume (g : GroupHouse) (out : List Effect) :
    out.foldl consume g = g.handleAll (posted out) := by
  induction out generalizing g with
  | nil => rfl
  | cons o out ih => cases o <;> exact ih _

theorem mirror_init (base : Int) (dsc : String) :
    Mirror (init base).house ({ dsc } : GroupHouse).house := ⟨fun _ => rfl, fun _ => rfl⟩

/-- **When the model mirrors the house.** In every state of a run the model, having applied the
messages posted so far, shows the users and the rooms of the house exactly when each event of the
run is mirrorable. -/
theorem mirror_iff_guarded (base : Int) (dsc : String) (m₀ : ModelHouse) (es : List Event) :
    (∀ fs, fs <+: es → ∃ m g,
        (m₀.allowGroup dsc base).handleModelUpdates (posted (machine.trace (init base) fs)) =
          some m ∧
        m.houseFind base = some g ∧ Mirror (machine.exec (init base) fs).house g.house) ↔
      machine.Guarded Mirrorable (init base) es := by
  have hg₀ : (m₀.allowGroup dsc base).houseFind base = some { dsc } := by
    rw [ModelHouse.houseFind_allowGroup, if_pos rfl]
  have hstep : ∀ (s : Handler) (e : Event) (g : GroupHouse), Mirror s.house g.house →
      (Mirror (machine.step s e).1.house ((machine.step s e).2.foldl consume g).house ↔
        Mirrorable s e) := fun s e g hm => by
    rw [foldl_consume]
    exact mirror_step s e g hm
  refine Iff.trans (forall₂_congr fun fs _ => ?_)
    (machine.forall_along_consumer_iff_guarded (R := fun s g => Mirror s.house g.house) consume
      hstep (mirror_init base dsc) es)
  rw [foldl_consume]
  obtain ⟨m, hm, hg, -⟩ := ModelHouse.handleModelUpdates_of hg₀ (inGroup_trace (init base) fs)
  constructor
  · rintro ⟨m', g', hm', hg', hmir⟩
    rw [hm] at hm'
    cases hm'
    rw [hg] at hg'
    cases hg'
    exact hmir
  · exact fun hmir => ⟨m, _, hm, hg, hmir⟩

/-- A node arrives and sends an update that brings a login but no id string. -/
def unnamedLogin : List Event :=
  [.nodeAdded ⟨1, 2⟩ 0, .dataReceived (.userUpdate { loginId := "x" }) ⟨1, 2⟩ 0]

/-- The house has the login and the model has not. -/
theorem not_mirror_of_unnamed :
    ¬ ∃ m g, (({} : ModelHouse).allowGroup "" 29).handleModelUpdates
          (posted (machine.trace (init 29) unnamedLogin)) = some m ∧
        m.houseFind 29 = some g ∧ Mirror (machine.exec (init 29) unnamedLogin).house g.house := by
  rintro ⟨m, g, hm, hg, hmir⟩
  have hmodel : (((({} : ModelHouse).allowGroup "" 29).handleModelUpdates
      (posted (machine.trace (init 29) unnamedLogin))).bind fun m => (m.houseFind 29).map fun g =>
        (g.house.userFind (.ofNode ⟨1, 2⟩)).map (·.loginId)) = some (some "") := by decide
  have hhouse : ((machine.exec (init 29) unnamedLogin).house.userFind (.ofNode ⟨1, 2⟩)).map
      (·.loginId) = some "x" := by decide
  have hent := congrArg (Option.map fun f => f.2.2.1) (hmir.users (.ofNode ⟨1, 2⟩))
  rw [Option.map_map, Option.map_map] at hent
  rw [hm, Option.bind_some, hg, Option.map_some, Option.some_inj] at hmodel
  exact absurd (hmodel.symm.trans (hent.trans hhouse)) (by decide)

end RvHouse
