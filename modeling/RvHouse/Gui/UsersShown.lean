import RvHouse.Gui.Desk
import RvHouse.Model.Mirror

/-!
# What the view of the users shows

The handlers of the two groups post messages, and the GUI applies them in order. `shows_of_guarded`
says in which runs the view shows exactly one item for each id string that a user carries, after
every message: those in which a node that leaves, or gets another id string, is the only one in its
group with the string it had (`SoleNames`), and in which the own node is not added with an empty id
string when its entry has one. `not_shows_of_shared` is a run in which a person comes back under a
new node and vanishes from the view when the old node times out.
-/

namespace RvHouse

open Function Handler

/-! ## The names of a group -/

/-- The model of the group and the house of its handler agree on the id strings. -/
def Linked (h : House) (g : GroupHouse) : Prop :=
  ∀ k, (g.house.userFind k).map (·.id.idStr) = (h.userFind k).map (·.id.idStr)

/-- They agree but for the node `n`. -/
def LinkedBut (n : Node) (h : House) (g : GroupHouse) : Prop :=
  ∀ k : UserKey, k.node ≠ some n →
    (g.house.userFind k).map (·.id.idStr) = (h.userFind k).map (·.id.idStr)

/-- No other node carries the id string of the node. -/
def Sole (h : House) (n : Node) : Prop :=
  ∀ ui ∈ h.userFind (.ofNode n), ui.id.idStr ≠ "" →
    ∀ v ∈ h.users.toList, v.id.node ≠ some n → v.id.idStr ≠ ui.id.idStr

instance (h : House) (n : Node) : Decidable (Sole h n) :=
  inferInstanceAs (Decidable (∀ ui ∈ h.userFind (.ofNode n), _ → ∀ v ∈ h.users.toList, _))

theorem sole_iff {h : House} {n : Node} : Sole h n ↔
    ∀ ui, h.userFind (.ofNode n) = some ui → ui.id.idStr ≠ "" →
      ∀ k v, h.userFind k = some v → k.node ≠ some n → v.id.idStr ≠ ui.id.idStr := by
  refine forall₃_congr fun ui _ _ => ⟨fun hv k v hk hne => ?_, fun hv v hmem hne => ?_⟩
  · have hn : v.id.node = k.node := House.node_of_userFind hk
    refine hv v (House.mem_users.2 ((House.userFind_congr hn).trans hk)) ?_
    rwa [hn]
  · exact hv v.id v (House.mem_users.1 hmem) hne

theorem Sole.of_sub {h h' : House} {n : Node} (hs : Sole h n)
    (hsub : ∀ k u, h'.userFind k = some u → h.userFind k = some u) : Sole h' n := by
  rw [sole_iff] at hs ⊢
  exact fun ui hui hne k v hv hk => hs ui (hsub _ _ hui) hne k v (hsub _ _ hv) hk

theorem LinkedBut.linked {n : Node} {h : House} {g : GroupHouse} (hl : LinkedBut n h g)
    (hn : (g.house.userFind (.ofNode n)).map (·.id.idStr) =
      (h.userFind (.ofNode n)).map (·.id.idStr)) : Linked h g := by
  intro k
  by_cases hk : k.node = some n
  · have hk' : k.node = (UserKey.ofNode n).node := hk
    rw [House.userFind_congr hk', House.userFind_congr hk', hn]
  · exact hl k hk

/-! ## Batches of messages -/

/-- Each message fits the model that it finds. -/
def FitsAll (g : GroupHouse) : List Message → Prop
  | [] => True
  | m :: ms => Fits g m ∧ FitsAll (g.handle m) ms

/-- The messages fit the model and take it to the house `h`. -/
structure Follows (g : GroupHouse) (ms : List Message) (h : House) : Prop where
  fits : FitsAll g ms
  linked : Linked h (g.handleAll ms)

theorem fitsAll_append {g : GroupHouse} {ms ms' : List Message} :
    FitsAll g (ms ++ ms') ↔ FitsAll g ms ∧ FitsAll (g.handleAll ms) ms' := by
  induction ms generalizing g with
  | nil => simp [FitsAll]
  | cons m ms ih => simp [FitsAll, ih, and_assoc]

theorem Follows.append {g : GroupHouse} {ms ms' : List Message} {h h' : House}
    (hms : Follows g ms h) (hms' : Follows (g.handleAll ms) ms' h') : Follows g (ms ++ ms') h' :=
  ⟨fitsAll_append.2 ⟨hms.fits, hms'.fits⟩, by rw [handleAll_append]; exact hms'.linked⟩

theorem follows_nil {g : GroupHouse} {h : House} (hl : Linked h g) : Follows g [] h :=
  ⟨trivial, hl⟩

theorem follows_single {g : GroupHouse} {m : Message} {h : House} (hfit : Fits g m)
    (hl : Linked h (g.handle m)) : Follows g [m] h :=
  ⟨⟨hfit, trivial⟩, hl⟩

/-! ## Messages of a handler -/

/-- To close the room of a host leaves the users as they are. -/
theorem follows_close {h : House} {g : GroupHouse} (hl : Linked h g) (base : Int) (u : User)
    (k : UserKey) : Follows g (h.closeMsgs base u k) (h.close u) := by
  refine ⟨?_, fun k' => ?_⟩
  · unfold House.closeMsgs
    split
    · cases h.roomFind u.roomId with
      | none => exact trivial
      | some r => exact ⟨.other (by simp [Message.ofRoom]) fun _ => rfl, trivial⟩
    · exact trivial
  · rw [userFind_handleAll_closeMsgs, House.userFind_close]
    exact hl k'

theorem linked_userErase {h : House} {g : GroupHouse} (hl : Linked h g) (id : UserKey) :
    Linked (h.userErase id) (g.userErase id).1 := by
  intro k
  rw [House.userFind_userErase, GroupHouse.userFind_userErase]
  split
  · rfl
  · exact hl k

/-- A user that leaves fits when it was the only one with its name. -/
theorem follows_userLeft {h : House} {g : GroupHouse} (hl : Linked h g) {n : Node} {ui : User}
    (hf : h.userFind (.ofNode n) = some ui) (hs : Sole h n) (base : Int) :
    Follows g [.ofUser .userLeft ui 0 base] (h.userErase ui.id) := by
  have hn : ui.id.node = some n := House.node_of_userFind hf
  have hf' : h.userFind ui.id = some ui := (House.userFind_congr hn).trans hf
  refine follows_single (.userLeft (fun w hw => ?_) fun hne k v hv hk => ?_) (linked_userErase hl _)
  · have hlink := hl ui.id
    rw [hw, hf'] at hlink
    exact Option.some.inj hlink
  · have hlink := hl k
    rw [hv] at hlink
    obtain ⟨v', hv', heq⟩ := Option.map_eq_some_iff.1 hlink.symm
    rw [hn] at hk
    have hother : v'.id.idStr ≠ ui.id.idStr := sole_iff.1 hs ui hf hne k v' hv' hk
    exact fun hv' => hother (heq.trans hv')

/-- A user message fits when the node has no name yet, or the message brings none or the same. -/
theorem follows_user {h h' : House} {g : GroupHouse} {n : Node} (hl : LinkedBut n h g) {u : User}
    (hn : u.id.node = some n) (seq : UInt32) (base : Int)
    (hname : ∀ w, g.house.userFind (.ofNode n) = some w →
      w.id.idStr = "" ∨ u.id.idStr = "" ∨ w.id.idStr = u.id.idStr)
    (hrest : ∀ k : UserKey, k.node ≠ some n → h'.userFind k = h.userFind k) {e : User}
    (he : h'.userFind (.ofNode n) = some e)
    (hent : e.id.idStr = if u.id.idStr = "" then
      ((g.house.userFind (.ofNode n)).map (·.id.idStr)).getD "" else u.id.idStr) :
    Follows g [.ofUser .user u seq base] h' := by
  have hkey : g.house.userFind u.id = g.house.userFind (.ofNode n) := House.userFind_congr hn
  refine follows_single (.user fun w hw => hname w (hkey.symm.trans hw)) ?_
  refine LinkedBut.linked (n := n) (fun k hk => ?_) ?_
  · rw [handle_user, GroupHouse.userFind_userUpdate]
    simp only [hn]
    rw [if_neg (hk ∘ Eq.symm), hl k hk, hrest k hk]
  · rw [handle_user, GroupHouse.userFind_userUpdate]
    simp only [hn, hkey, UserKey.ofNode_node, if_true, he, Option.map_some, hent]
    cases hw : g.house.userFind (.ofNode n) with
    | none => by_cases hid : u.id.idStr = "" <;> simp [hid]
    | some w => by_cases hid : u.id.idStr = "" <;> simp [hid]

/-! ## Events of a handler -/

theorem sole_close {h : House} {n : Node} (hs : Sole h n) (u : User) : Sole (h.close u) n :=
  hs.of_sub fun k v hv => by rwa [House.userFind_close] at hv

theorem follows_leave {h : House} {g : GroupHouse} (hl : Linked h g) {n : Node} {ui : User}
    (hf : h.userFind (.ofNode n) = some ui) (hs : Sole h n) (base : Int) (k : UserKey) :
    Follows g (h.closeMsgs base ui k ++ [Message.ofUser .userLeft ui 0 base])
      ((h.close ui).userErase ui.id) := by
  have hclose := follows_close hl base ui k
  exact hclose.append (follows_userLeft hclose.linked (by rwa [House.userFind_close])
    (sole_close hs ui) base)

/-- An entry goes and comes back under its new name. -/
theorem follows_restart {h h' : House} {g : GroupHouse} (hl : Linked h g) {n : Node} {ui e : User}
    (hf : h.userFind (.ofNode n) = some ui) (base : Int) {upd : User} (hs : Sole h n)
    (hupd : upd.id.idStr ≠ "")
    (hrest : ∀ k : UserKey, k.node ≠ some n → h'.userFind k = h.userFind k)
    (hent : h'.userFind (.ofNode n) = some e) (he : e.id.idStr = upd.id.idStr) :
    Follows g ((h.closeMsgs base ui ui.id ++ [Message.ofUser .userLeft ui 0 base]) ++
      [.ofUser .user (upd.under ui) upd.sequence base]) h' := by
  have hui : ui.id.node = some n := House.node_of_userFind hf
  have hleave := follows_leave hl hf hs base ui.id
  have hgone : (g.handleAll (h.closeMsgs base ui ui.id ++
      [Message.ofUser .userLeft ui 0 base])).house.userFind (.ofNode n) = none := by
    have hlink := hleave.linked (.ofNode n)
    rw [House.userFind_userErase, if_pos (by simpa using hui)] at hlink
    simpa using hlink
  have hunder : (upd.under ui).id.node = some n := hui
  refine hleave.append (follows_user (n := n) (fun k _ => hleave.linked k) hunder _ base
    (fun w hw => ?_) (fun k hk => ?_) hent ?_)
  · rw [hgone] at hw
    cases hw
  · rw [hrest k hk, House.userFind_userErase, hui, if_neg (hk ∘ Eq.symm), House.userFind_close]
  · rw [he, User.under_idStr, if_neg hupd]

/-- An entry keeps its name, or gets its first one, after messages that are about no user. -/
theorem follows_stay {h h₁ h' : House} {g : GroupHouse} {n : Node} {ui e : User}
    (hf : h.userFind (.ofNode n) = some ui) (base : Int) {upd : User} (hr : ¬ Restarts ui upd)
    {ms : List Message} (hms : Follows g ms h₁) (hsame : ∀ k, h₁.userFind k = h.userFind k)
    (hrest : ∀ k : UserKey, k.node ≠ some n → h'.userFind k = h.userFind k)
    (hent : h'.userFind (.ofNode n) = some e)
    (he : e.id.idStr = if upd.id.idStr = "" then ui.id.idStr else upd.id.idStr) :
    Follows g (ms ++ [.ofUser .user (upd.under ui) upd.sequence base]) h' := by
  have hlink := hms.linked (.ofNode n)
  rw [hsame, hf] at hlink
  obtain ⟨w, hw, hwname⟩ := Option.map_eq_some_iff.1 hlink
  have hunder : (upd.under ui).id.node = some n := House.node_of_userFind hf
  refine hms.append (follows_user (n := n) (fun k _ => hms.linked k) hunder _ base
    (fun w' hw' => ?_) (fun k hk => by rw [hrest k hk, hsame]) hent ?_)
  · rw [hw] at hw'
    cases hw'
    by_contra hnot
    simp only [not_or, User.under_idStr] at hnot
    have hwname' : w.id.idStr = ui.id.idStr := hwname
    rw [hwname'] at hnot
    exact hr hnot
  · rw [he, User.under_idStr, hw, Option.map_some, Option.getD_some, hwname]

/-- An update fits when a named user that gets another name was the only one with the old one. -/
theorem follows_userUpdate {h : House} {g : GroupHouse} (hl : Linked h g) {n : Node} {ui e : User}
    (hf : h.userFind (.ofNode n) = some ui) (base : Int) (upd : User)
    (hs : Restarts ui upd → Sole h n) (hn : e.id.node = some n)
    (he : e.id.idStr = if upd.id.idStr = "" then ui.id.idStr else upd.id.idStr) :
    Follows g (posted (userUpdate base h ui upd).out)
      ((userUpdate base h ui upd).house.userStore e) := by
  have hent : ((userUpdate base h ui upd).house.userStore e).userFind (.ofNode n) = some e := by
    rw [House.userFind_userStore, hn, userFind_userUpdate_house, hf]
    simp
  have hrest : ∀ k : UserKey, k.node ≠ some n →
      ((userUpdate base h ui upd).house.userStore e).userFind k = h.userFind k := fun k hk => by
    rw [House.userFind_userStore, hn, if_neg (hk ∘ Eq.symm), userFind_userUpdate_house]
  rw [posted_userUpdate]
  by_cases hr : Restarts ui upd
  · rw [if_pos hr]
    rw [if_neg hr.2.1] at he
    exact follows_restart hl hf base (hs hr) hr.2.1 hrest hent he
  · rw [if_neg hr]
    by_cases hleaves : Leaves ui upd
    · rw [if_pos hleaves]
      have hclose := follows_close hl base ui (upd.under ui).id
      exact follows_stay hf base hr hclose (fun k => House.userFind_close h ui k) hrest hent he
    · rw [if_neg hleaves]
      exact follows_stay hf base hr (follows_nil hl) (fun _ => rfl) hrest hent he

theorem follows_recvUserUpdate {s : Handler} {g : GroupHouse} (hl : Linked s.house g)
    (w : UserWire) (n : Node) (now : Int)
    (hs : ∀ ui ∈ s.house.userFind (.ofNode n), Restarts ui (decoded w n now) → Sole s.house n) :
    Follows g (posted (s.recvUserUpdate w n now).2) (s.recvUserUpdate w n now).1.house := by
  cases hf : s.house.userFind (.ofNode n) with
  | none =>
    rw [recvUserUpdate_of_none hf]
    exact follows_nil hl
  | some ui =>
    rw [recvUserUpdate_of_find hf]
    exact follows_userUpdate hl hf _ _ (hs ui hf) (House.node_of_userFind hf) rfl

theorem follows_selfAdded {s : Handler} {g : GroupHouse} (hl : Linked s.house g) (n : Node)
    (hs : ∀ ui ∈ s.house.userFind (.ofNode n),
      (Restarts ui s.selfUser → Sole s.house n) ∧ (s.selfUser.id.idStr = "" → ui.id.idStr = "")) :
    Follows g (posted (s.selfAdded n).2) (s.selfAdded n).1.house := by
  cases hf : s.house.userFind (.ofNode n) with
  | none =>
    rw [selfAdded_of_none hf]
    exact follows_nil hl
  | some ui =>
    rw [selfAdded_of_find hf]
    obtain ⟨hsole, hempty⟩ := hs ui hf
    refine follows_userUpdate hl hf _ _ hsole (House.node_of_userFind hf) ?_
    by_cases hid : s.selfUser.id.idStr = ""
    · simp [selfUpdated, hid, hempty hid]
    · simp [selfUpdated, hid]

theorem follows_adapterNodeAdded {s : Handler} {g : GroupHouse} (hl : Linked s.house g) (n : Node)
    (now : Int) :
    Follows g (posted (s.adapterNodeAdded n now).2) (s.adapterNodeAdded n now).1.house := by
  have ha := adapterNodeAdded_outcome s n now
  generalize s.adapterNodeAdded n now = a at ha ⊢
  cases ha with
  | present => exact follows_nil hl
  | @added h' hf husers hrooms =>
    have hgone : g.house.userFind (.ofNode n) = none := by
      have hlink := hl (.ofNode n)
      simpa [hf] using hlink
    have hent : h'.userFind (.ofNode n) = some (User.ofNode n now) := by simp [husers]
    refine follows_user (n := n) (fun k _ => hl k) rfl 0 _ (fun w hw => ?_)
      (fun k hk => by rw [husers, if_neg hk]) hent ?_
    · rw [hgone] at hw
      cases hw
    · rw [hgone]
      rfl

theorem follows_nodeRemoved {s : Handler} {g : GroupHouse} (hl : Linked s.house g) {n : Node}
    (hs : Sole s.house n) :
    Follows g (posted (s.nodeRemoved n).2) (s.nodeRemoved n).1.house := by
  cases hf : s.house.userFind (.ofNode n) with
  | none =>
    rw [nodeRemoved_of_none hf]
    exact follows_nil hl
  | some ui =>
    rw [nodeRemoved_of_find hf, posted_map_post]
    exact follows_leave hl hf hs _ _

theorem follows_removeNodes (seq : UInt32) {s : Handler} {g : GroupHouse} (hl : Linked s.house g)
    {ns : List Node} (hs : ∀ n ∈ ns, Sole s.house n) :
    Follows g (posted (removeNodes seq s ns).2) (removeNodes seq s ns).1.house := by
  induction ns generalizing s g with
  | nil => exact follows_nil hl
  | cons n ns ih =>
    have hn := follows_nodeRemoved hl (hs n List.mem_cons_self)
    have hns : ∀ m ∈ ns, Sole (s.nodeRemoved n).1.house m := fun m hm =>
      (hs m (List.mem_cons_of_mem n hm)).of_sub fun k u hu => by
        rw [userFind_nodeRemoved] at hu
        split at hu
        · cases hu
        · exact hu
    have hout : posted (removeNodes seq s (n :: ns)).2 =
        posted (s.nodeRemoved n).2 ++ posted (removeNodes seq (s.nodeRemoved n).1 ns).2 := by
      simp [removeNodes]
    rw [hout]
    exact hn.append (ih hn.linked hns)

theorem follows_recvRoomUpdate {s : Handler} {g : GroupHouse} (hl : Linked s.house g)
    (w : RoomWire) (n : Node) :
    Follows g (posted (s.recvRoomUpdate w n).2) (s.recvRoomUpdate w n).1.house := by
  have hr := recvRoomUpdate_outcome s w n
  generalize s.recvRoomUpdate w n = r at hr ⊢
  cases hr with
  | ignored => exact follows_nil hl
  | orphan hid hf hnone hput =>
    refine follows_nil fun k => ?_
    rw [hput.users]
    exact hl k
  | put hid hf howner hput =>
    refine follows_single .room fun k => ?_
    rw [handle_room, GroupHouse.userFind_roomUpdate, hput.users]
    exact hl k

theorem follows_recvUserData {s : Handler} {g : GroupHouse} (hl : Linked s.house g)
    (hdr : PduHeader) (body : PduBody) (n : Node) :
    Follows g (posted (s.recvUserData hdr body n).2) (s.recvUserData hdr body n).1.house := by
  unfold recvUserData
  cases hf : s.house.userFind (.ofNode n) with
  | none => exact follows_nil hl
  | some ui =>
    cases hd : userDataAvailable s.grpMsgBase ui hdr body with
    | none => simpa [hd] using follows_nil hl
    | some m =>
      have hsame : g.handle m = g := handle_userDataAvailable hd g
      have hfit : Fits g m := by
        refine .other ?_ fun k => by rw [hsame]
        unfold userDataAvailable at hd
        split at hd <;> cases hd <;>
          simp [Message.ofChannel, Message.ofRoomCommand, Message.ofRoomJoin, Message.ofGrouped,
            Message.ofBlockUsers]
      simpa [hd] using follows_single hfit (by rwa [hsame])

/-- A node that leaves, or gets another name, is the only one with the name it had, and the own node
is not added with an empty name when its entry has one. -/
def SoleNames (s : Handler) : Event → Prop
  | .nodeRemoved n => Sole s.house n
  | .blockUsers m =>
    ∀ n ∈ { s with ipBlock := s.ipBlock.handleMessage m : Handler }.blockedNodes, Sole s.house n
  | .dataReceived (.userUpdate w) n now =>
    s.ipBlock.isBlocked n.ip = false →
      ∀ ui ∈ s.house.userFind (.ofNode n), Restarts ui (decoded w n now) → Sole s.house n
  | .nodeAdded n now =>
    s.ipBlock.isBlocked n.ip = false → s.grpSelf = some n →
      (Restarts (arrived s n now) s.selfUser → Sole s.house n) ∧
        (s.selfUser.id.idStr = "" → (arrived s n now).id.idStr = "")
  | _ => True

instance decidableSoleNames (s : Handler) : ∀ e, Decidable (SoleNames s e)
  | .nodeRemoved n => inferInstanceAs (Decidable (Sole s.house n))
  | .blockUsers m =>
    inferInstanceAs (Decidable
      (∀ n ∈ { s with ipBlock := s.ipBlock.handleMessage m : Handler }.blockedNodes, _))
  | .dataReceived (.userUpdate w) n now =>
    inferInstanceAs (Decidable
      (_ → ∀ ui ∈ s.house.userFind (.ofNode n), Restarts ui (decoded w n now) → _))
  | .nodeAdded n now =>
    inferInstanceAs (Decidable
      (_ → s.grpSelf = some n → (Restarts (arrived s n now) s.selfUser → _) ∧ (_ = _ → _ = _)))
  | .dataReceived .userReq _ _ => .isTrue trivial
  | .dataReceived (.userData _ _) _ _ => .isTrue trivial
  | .dataReceived (.roomUpdate _) _ _ => .isTrue trivial
  | .dataReceived (.unrecognized _) _ _ => .isTrue trivial
  | .dataReceived .malformed _ _ => .isTrue trivial
  | .updateUser _ _ => .isTrue trivial
  | .updateRoom _ => .isTrue trivial
  | .selfChanged _ => .isTrue trivial

theorem follows_nodeAdded {s : Handler} {g : GroupHouse} (hl : Linked s.house g) (n : Node)
    (now : Int) (hs : SoleNames s (.nodeAdded n now)) :
    Follows g (posted (s.nodeAdded n now).2) (s.nodeAdded n now).1.house := by
  have hadd := follows_adapterNodeAdded hl n now
  rw [nodeAdded_eq]
  by_cases hb : s.ipBlock.isBlocked n.ip = true
  · simpa [hb] using follows_nil hl
  by_cases hself : s.grpSelf = some n
  · obtain ⟨hsole, hempty⟩ := hs (by simpa using hb) hself
    have hsole' : Sole s.house n → Sole (s.adapterNodeAdded n now).1.house n := by
      have ha := adapterNodeAdded_outcome s n now
      generalize s.adapterNodeAdded n now = a at ha ⊢
      cases ha with
      | present => exact id
      | added hf husers =>
        refine fun _ => sole_iff.2 fun ui hui hne => ?_
        rw [husers, if_pos (UserKey.ofNode_node n)] at hui
        cases hui
        exact absurd rfl hne
    have hsecond := follows_selfAdded hadd.linked n fun ui hui => by
      rw [Option.mem_def, userFind_adapterNodeAdded] at hui
      cases hui
      rw [selfUser_adapterNodeAdded]
      exact ⟨fun hr => hsole' (hsole hr), hempty⟩
    simpa [hb, hself, posted_append] using hadd.append hsecond
  · simpa [hb, hself] using hadd

/-- The messages of an event fit the model and take it along with the house. -/
theorem follows_step {s : Handler} {g : GroupHouse} (hl : Linked s.house g) (e : Event)
    (hs : SoleNames s e) : Follows g (posted (s.step e).2) (s.step e).1.house := by
  cases e with
  | nodeAdded n now => exact follows_nodeAdded hl n now hs
  | nodeRemoved n => exact follows_nodeRemoved hl hs
  | dataReceived p n now =>
    simp only [step, dataReceived]
    split
    · exact follows_nil hl
    · rename_i hb
      cases p with
      | userReq =>
        simp only [recvUserReq]
        split <;> exact follows_nil hl
      | userUpdate w => exact follows_recvUserUpdate hl w n now (hs (by simpa using hb))
      | userData hdr body => exact follows_recvUserData hl hdr body n
      | roomUpdate w => exact follows_recvRoomUpdate hl w n
      | unrecognized _ => exact follows_nil hl
      | malformed => exact follows_nil hl
  | updateUser u now => exact follows_nil hl
  | updateRoom r => exact follows_nil hl
  | blockUsers m =>
    have hl' : Linked { s with ipBlock := s.ipBlock.handleMessage m }.house g := hl
    exact follows_removeNodes m.sequence hl' hs
  | selfChanged n => exact follows_nil hl

/-! ## Both groups -/

/-- The groups. -/
inductive Grp where
  | dht
  | ctz
deriving DecidableEq

/-- `_grp_msg_base` of the handler of the group. -/
def Grp.base : Grp → Int
  | dht => MsgId.dhtGroupBase.code
  | ctz => MsgId.ctzGroupBase.code

/-- The handlers of both groups as one machine. -/
def lobby : Mealy (Grp → Handler) (Grp × Event) Effect :=
  ⟨fun s e => (update s e.1 ((s e.1).step e.2).1, ((s e.1).step e.2).2)⟩

/-- The handlers as they are constructed. -/
def lobbyInit (grp : Grp) : Handler := Handler.init grp.base

/-- The GUI at the start. -/
def Desk.init : Desk where
  house := (({} : ModelHouse).allowGroup "DHT" Grp.dht.base).allowGroup "centralized" Grp.ctz.base

/-- The GUI has caught up with the handlers. -/
structure CaughtUp (s : Grp → Handler) (d : Desk) : Prop where
  represents : Desk.Represents d.house d.view
  base : ∀ grp, (s grp).grpMsgBase = grp.base
  linked : ∀ grp : Grp, ∃ g, d.house.houseFind grp.base = some g ∧ Linked (s grp).house g

theorem caughtUp_init : CaughtUp lobbyInit Desk.init := by
  have hempty : ∀ grp g, Desk.init.house.houseFind grp = some g → g.house = {} := by
    intro grp g hg
    simp only [Desk.init, ModelHouse.houseFind_allowGroup] at hg
    split at hg
    · cases hg
      rfl
    · split at hg
      · cases hg
        rfl
      · simp [ModelHouse.houseFind] at hg
  refine ⟨⟨UsersView.good_empty, rfl, fun s hs grp => ?_⟩, fun _ => rfl, fun grp => ?_⟩
  · refine iff_of_false ?_ ?_
    · rintro ⟨item, hitem, -⟩
      simp [Desk.init] at hitem
    · rintro ⟨g, hg, hc⟩
      obtain ⟨k, u, hu, -⟩ := GroupHouse.carries_iff.1 hc
      rw [hempty grp g hg] at hu
      simp at hu
  · have hg : ∃ g, Desk.init.house.houseFind grp.base = some g := by
      simp only [Desk.init, ModelHouse.houseFind_allowGroup]
      cases grp
      · exact ⟨{ dsc := "DHT" }, by simp [Grp.base, MsgId.code, MsgId.ctorIdx]⟩
      · exact ⟨{ dsc := "centralized" }, by simp⟩
    obtain ⟨g, hg⟩ := hg
    refine ⟨g, hg, fun k => ?_⟩
    rw [hempty _ g hg]
    rfl

theorem handleAll_of_fits {d : Desk} (h : Desk.Represents d.house d.view) {grp : Int}
    {g : GroupHouse} (hg : d.house.houseFind grp = some g) {ms : List Message}
    (hms : ∀ m ∈ ms, m.Of grp) (hfit : FitsAll g ms) :
    ∃ d', d.handleAll ms = some d' ∧ Desk.Represents d'.house d'.view ∧
      d'.house.houseFind grp = some (g.handleAll ms) ∧
      ∀ grp', grp' ≠ grp → d'.house.houseFind grp' = d.house.houseFind grp' := by
  induction ms generalizing d g with
  | nil => exact ⟨d, rfl, h, hg, fun _ _ => rfl⟩
  | cons m ms ih =>
    obtain ⟨hm, hms⟩ := List.forall_mem_cons.1 hms
    obtain ⟨d₁, h₁, hrep₁, hg₁, hrest₁⟩ := Desk.handle_of_fits h hg hm hfit.1
    obtain ⟨d₂, h₂, hrep₂, hg₂, hrest₂⟩ := ih hrep₁ hg₁ hms hfit.2
    refine ⟨d₂, ?_, hrep₂, hg₂, fun grp' hne => (hrest₂ grp' hne).trans (hrest₁ grp' hne)⟩
    simpa [Desk.handleAll, h₁] using h₂

/-- An event takes the GUI along, and the view shows the users after each of its messages. -/
theorem caughtUp_step {s : Grp → Handler} {d : Desk} (h : CaughtUp s d) (e : Grp × Event)
    (hs : SoleNames (s e.1) e.2) :
    (∃ d', d.handleAll (posted (lobby.step s e).2) = some d' ∧ CaughtUp (lobby.step s e).1 d') ∧
      ∀ ms, ms <+: posted (lobby.step s e).2 →
        ∃ d', d.handleAll ms = some d' ∧ d'.ShowsExactly := by
  obtain ⟨grp, e⟩ := e
  obtain ⟨g, hg, hl⟩ := h.linked grp
  have hin := inGroup_step (s grp) e
  have hof : ∀ m ∈ posted ((s grp).step e).2, m.Of grp.base := h.base grp ▸ hin.messages
  have hfollows := follows_step hl e hs
  refine ⟨?_, fun ms hms => ?_⟩
  · obtain ⟨d', hd', hrep, hg', hrest⟩ := handleAll_of_fits h.represents hg hof hfollows.fits
    refine ⟨d', hd', hrep, fun grp' => ?_, fun grp' => ?_⟩
    · by_cases heq : grp' = grp
      · subst heq
        simpa [lobby] using hin.base.trans (h.base grp')
      · simpa [lobby, heq] using h.base grp'
    · by_cases heq : grp' = grp
      · subst heq
        exact ⟨_, hg', by simpa [lobby] using hfollows.linked⟩
      · have hne : grp'.base ≠ grp.base := by
          revert heq
          cases grp <;> cases grp' <;> decide
        rw [hrest _ hne]
        simpa [lobby, heq] using h.linked grp'
  · obtain ⟨rest, hrest⟩ := hms
    have hfits := hfollows.fits
    rw [show posted ((s grp).step e).2 = ms ++ rest from hrest.symm] at hfits hof
    obtain ⟨d', hd', hrep, -, -⟩ := handleAll_of_fits h.represents hg
      (fun m hm => hof m (List.mem_append_left rest hm)) (fitsAll_append.1 hfits).1
    exact ⟨d', hd', Desk.showsExactly_of_represents hrep⟩

/-- The condition on a run of both handlers. -/
def SoleNamesIn (s : Grp → Handler) (e : Grp × Event) : Prop := SoleNames (s e.1) e.2

instance (s : Grp → Handler) (e : Grp × Event) : Decidable (SoleNamesIn s e) :=
  inferInstanceAs (Decidable (SoleNames (s e.1) e.2))

theorem shows_of_caughtUp {s : Grp → Handler} {d : Desk} (h : CaughtUp s d)
    {es : List (Grp × Event)} (hes : lobby.Guarded SoleNamesIn s es) {ms : List Message}
    (hms : ms <+: posted (lobby.trace s es)) :
    ∃ d', d.handleAll ms = some d' ∧ d'.ShowsExactly := by
  induction es generalizing s d ms with
  | nil =>
    obtain rfl : ms = [] := List.prefix_nil.1 hms
    exact ⟨d, rfl, Desk.showsExactly_of_represents h.represents⟩
  | cons e es ih =>
    obtain ⟨⟨d₁, hd₁, hcaught⟩, hfirst⟩ := caughtUp_step h e hes.1
    obtain ⟨rest, hrest⟩ := hms
    rw [Mealy.trace_cons, posted_append] at hrest
    rcases List.append_eq_append_iff.1 hrest with ⟨mid, hmid, -⟩ | ⟨later, rfl, hlater⟩
    · exact hfirst ms ⟨mid, hmid.symm⟩
    · obtain ⟨d', hd', hshows⟩ := ih hcaught hes.2 ⟨rest, hlater.symm⟩
      have happ : d.handleAll (posted (lobby.step s e).2 ++ later) =
          (d.handleAll (posted (lobby.step s e).2)).bind (·.handleAll later) := List.foldlM_append
      refine ⟨d', ?_, hshows⟩
      rw [happ, hd₁]
      exact hd'

/-- **When the view shows the users.** In a run in which no node leaves, or loses, a name that
another node of its group carries, the view shows one item for each id string that a user carries
and none for any other, after each message that the handlers post. -/
theorem shows_of_guarded {es : List (Grp × Event)} (hes : lobby.Guarded SoleNamesIn lobbyInit es)
    {ms : List Message} (hms : ms <+: posted (lobby.trace lobbyInit es)) :
    ∃ d, Desk.init.handleAll ms = some d ∧ d.ShowsExactly :=
  shows_of_caughtUp caughtUp_init hes hms

/-- A person is seen in both groups and times out in one of them. -/
theorem shows_of_two_groups :
    ∃ d, Desk.init.handleAll (posted (lobby.trace lobbyInit
        [(.dht, .nodeAdded ⟨1, 2⟩ 0), (.dht, .dataReceived (.userUpdate { idStr := "a" }) ⟨1, 2⟩ 0),
          (.ctz, .nodeAdded ⟨1, 3⟩ 0), (.ctz, .dataReceived (.userUpdate { idStr := "a" }) ⟨1, 3⟩ 0),
          (.dht, .nodeRemoved ⟨1, 2⟩)])) = some d ∧ d.ShowsExactly :=
  shows_of_guarded (by decide) (List.prefix_refl _)

/-- A person comes back under a new node before the old one times out. -/
def sharedName : List (Grp × Event) :=
  [(.dht, .nodeAdded ⟨1, 2⟩ 0), (.dht, .dataReceived (.userUpdate { idStr := "a" }) ⟨1, 2⟩ 0),
    (.dht, .nodeAdded ⟨3, 4⟩ 0), (.dht, .dataReceived (.userUpdate { idStr := "a" }) ⟨3, 4⟩ 0),
    (.dht, .nodeRemoved ⟨1, 2⟩)]

/-- The person is in the model under the new node, and the view does not show it. -/
theorem not_shows_of_shared :
    ¬ ∃ d, Desk.init.handleAll (posted (lobby.trace lobbyInit sharedName)) = some d ∧
      d.ShowsExactly := by
  rintro ⟨d, hd, hshows⟩
  have hview : (Desk.init.handleAll (posted (lobby.trace lobbyInit sharedName))).map
      (fun d => d.view.labels.count "a") = some 0 := by decide
  have hmodel : (Desk.init.handleAll (posted (lobby.trace lobbyInit sharedName))).bind
      (fun d => (d.house.houseFind Grp.dht.base).bind fun g =>
        (g.house.userFind (.ofNode ⟨3, 4⟩)).map (·.id.idStr)) = some "a" := by decide
  rw [hd, Option.map_some, Option.some_inj] at hview
  rw [hd, Option.bind_some] at hmodel
  obtain ⟨g, hg, hname⟩ := Option.bind_eq_some_iff.1 hmodel
  obtain ⟨u, hu, hs⟩ := Option.map_eq_some_iff.1 hname
  have hcarried : Desk.Carried d.house "a" :=
    ⟨Grp.dht.base, g, hg, GroupHouse.carries_iff.2 ⟨_, u, hu, hs⟩⟩
  have hone := (hshows "a" (by decide)).1 hcarried
  rw [hview] at hone
  cases hone

end RvHouse
