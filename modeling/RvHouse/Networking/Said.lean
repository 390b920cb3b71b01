import RvHouse.Networking.Entries
import RvHouse.Networking.Peers

/-!
# Houses show what was announced

The house of a client is filled by the others. `said`: whatever is lost, doubled or put in another
order on the way, the entry of a node shows a name and data that the client at that node was given
by its GUI at some time, and a room is one that the client of its owner was given, word for word. So
no client can change what a house shows of another one.

The proof is by assume and guarantee: `PacketSaid` is what a client may assume of a packet, and
`HouseSaid` what it keeps.
-/

namespace RvHouse

namespace Peer

/-- The runs of the network. -/
abbrev Run := List (MeshEvent Node PeerInput Int)

/-- The GUI gave the client at `a` these data of the user. -/
def Announces (es : Run) (a : Node) (u : User) : Prop :=
  ∃ m now reach, .own a (.message m now) reach ∈ es ∧ m.id = .user ∧ m.body.asUser = some u

/-- The GUI gave the client at `a` this room. -/
def AnnouncesRoom (es : Run) (a : Node) (r : Room) : Prop :=
  ∃ m now reach, .own a (.message m now) reach ∈ es ∧ m.id = .room ∧ m.body.asRoom = some r

/-- The client at `a` had this name, or still has none. -/
def SaidName (es : Run) (a : Node) (i : String) : Prop :=
  i = "" ∨ ∃ u, Announces es a u ∧ u.id.idStr = i

/-- The client at `a` had these data, or still has those of a new user. -/
def SaidProfile (es : Run) (a : Node) (p : Profile) : Prop :=
  p = {} ∨ ∃ u, Announces es a u ∧ u.profile = p

/-- What a packet of `a` brings was announced there. -/
def PacketSaid (es : Run) (a : Node) : Payload → Prop
  | .userUpdate w => SaidName es a w.idStr ∧ SaidProfile es a w.profile
  | .roomUpdate w => ∃ r, AnnouncesRoom es a r ∧ w = r.toWire
  | _ => True

/-- A room that the client of its owner was given. Its owner, if it has one at all, is the user that
the house has for that client. -/
def RoomSaid (es : Run) (r : Room) : Prop :=
  ∃ a r₀, AnnouncesRoom es a r₀ ∧ r = { r₀.toWire.toRoom with ownerId := r.ownerId } ∧
    (r.ownerId.node = some a ∨ r.ownerId.node = none)

/-- What the client at `n` shows of the others and says of itself was announced. -/
structure HouseSaid (es : Run) (n : Node) (s : Handler) : Prop where
  users : ∀ a u, s.house.userFind (.ofNode a) = some u →
    SaidName es a u.id.idStr ∧ SaidProfile es a u.profile
  rooms : ∀ id r, s.house.roomFind id = some r → RoomSaid es r
  selfUser : SaidName es n s.selfUser.id.idStr ∧ SaidProfile es n s.selfUser.profile
  selfRoom : s.selfRoom = {} ∨ AnnouncesRoom es n s.selfRoom
  grpSelf : ∀ a, s.grpSelf = some a → a = n

/-! ## Longer runs -/

section Longer

variable {es : Run} (f : MeshEvent Node PeerInput Int) {a : Node}

theorem Announces.longer {u : User} (h : Announces es a u) : Announces (es ++ [f]) a u := by
  obtain ⟨m, now, reach, hmem, hm⟩ := h
  exact ⟨m, now, reach, List.mem_append_left _ hmem, hm⟩

theorem AnnouncesRoom.longer {r : Room} (h : AnnouncesRoom es a r) :
    AnnouncesRoom (es ++ [f]) a r := by
  obtain ⟨m, now, reach, hmem, hm⟩ := h
  exact ⟨m, now, reach, List.mem_append_left _ hmem, hm⟩

theorem SaidName.longer {i : String} (h : SaidName es a i) : SaidName (es ++ [f]) a i :=
  h.imp_right fun ⟨u, hu, hi⟩ => ⟨u, hu.longer f, hi⟩

theorem SaidProfile.longer {p : Profile} (h : SaidProfile es a p) : SaidProfile (es ++ [f]) a p :=
  h.imp_right fun ⟨u, hu, hp⟩ => ⟨u, hu.longer f, hp⟩

theorem PacketSaid.longer {p : Payload} (h : PacketSaid es a p) : PacketSaid (es ++ [f]) a p := by
  cases p with
  | userUpdate w => exact h.imp (SaidName.longer f) (SaidProfile.longer f)
  | roomUpdate w => exact h.imp fun r hr => hr.imp_left (AnnouncesRoom.longer f)
  | _ => trivial

theorem RoomSaid.longer {r : Room} (h : RoomSaid es r) : RoomSaid (es ++ [f]) r := by
  obtain ⟨b, r₀, hr₀, hr⟩ := h
  exact ⟨b, r₀, hr₀.longer f, hr⟩

theorem HouseSaid.longer {n : Node} {s : Handler} (h : HouseSaid es n s) :
    HouseSaid (es ++ [f]) n s where
  users a u hu := (h.users a u hu).imp (SaidName.longer f) (SaidProfile.longer f)
  rooms id r hr := (h.rooms id r hr).longer f
  selfUser := h.selfUser.imp (SaidName.longer f) (SaidProfile.longer f)
  selfRoom := h.selfRoom.imp_right (AnnouncesRoom.longer f)
  grpSelf := h.grpSelf

end Longer

/-! ## One event -/

/-- What the client at `n` may rely on when the event `e` reaches its handler. -/
structure Assumes (es : Run) (n : Node) (e : Event) : Prop where
  packet : ∀ p a now, e = .dataReceived p a now → PacketSaid es a p
  updateUser : ∀ u now, e = .updateUser u now → Announces es n u
  updateRoom : ∀ r, e = .updateRoom r → AnnouncesRoom es n r
  self : ∀ a, e = .selfChanged (some a) → a = n

section Event

variable {es : Run} {n : Node} {s : Handler} {e : Event}

theorem HouseSaid.user_step (h : HouseSaid es n s) (he : Assumes es n e) {a : Node} {u : User}
    (hu : (s.step e).1.house.userFind (.ofNode a) = some u) :
    SaidName es a u.id.idStr ∧ SaidProfile es a u.profile := by
  cases Handler.entry_step hu with
  | kept hold => exact h.users a u hold
  | added => exact ⟨.inl rfl, .inl rfl⟩
  | @updated w now old hold =>
    obtain ⟨hname, hprofile⟩ := he.packet _ _ _ rfl
    refine ⟨?_, hprofile⟩
    rw [Handler.idStr_updated, Handler.decoded_idStr]
    split
    · exact (h.users a old hold).1
    · exact hname
  | self hself =>
    obtain rfl := h.grpSelf a hself
    exact h.selfUser

theorem HouseSaid.room_step (h : HouseSaid es n s) (he : Assumes es n e) {id : String} {r : Room}
    (hr : (s.step e).1.house.roomFind id = some r) : RoomSaid es r := by
  cases Handler.room_step hr with
  | kept hold => exact h.rooms id r hold
  | @announced w a now ui _ _ hu =>
    obtain ⟨r₀, hr₀, rfl⟩ := he.packet _ _ _ rfl
    exact ⟨a, r₀, hr₀, rfl, .inl (House.node_of_userFind hu)⟩
  | @orphan w a now =>
    obtain ⟨r₀, hr₀, rfl⟩ := he.packet _ _ _ rfl
    exact ⟨a, r₀, hr₀, rfl, .inr rfl⟩

theorem HouseSaid.step (h : HouseSaid es n s) (he : Assumes es n e) :
    HouseSaid es n (s.step e).1 where
  users a u hu := h.user_step he hu
  rooms id r hr := h.room_step he hr
  selfUser := by
    constructor
    · rcases Handler.idStr_selfUser_step s e with hi | ⟨u, now, rfl, hi⟩
      · exact hi ▸ h.selfUser.1
      · exact .inr ⟨u, he.updateUser u now rfl, hi.symm⟩
    · rw [Handler.profile_selfUser_step]
      split
      · rename_i u now
        exact .inr ⟨u, he.updateUser u now rfl, rfl⟩
      · exact h.selfUser.2
  selfRoom := by
    rw [Handler.selfRoom_step]
    split
    · rename_i r
      exact .inr (he.updateRoom r rfl)
    · exact h.selfRoom
  grpSelf a ha := by
    rw [Handler.grpSelf_step] at ha
    split at ha
    · rename_i m
      exact he.self a (ha ▸ rfl)
    · exact h.grpSelf a ha

/-- What a handler sends was announced. -/
theorem HouseSaid.sends (h : HouseSaid es n s) (he : Assumes es n e) {p : Payload}
    {d : Option Node} (hp : s.Sends e p d) : PacketSaid es n p := by
  cases hp with
  | userReq => trivial
  | selfUser => exact h.selfUser
  | selfRoom hroom =>
    rcases h.selfRoom with hself | hself
    · exact absurd (hroom.2.trans (congrArg Room.id hself)) hroom.1
    · exact ⟨_, hself, rfl⟩
  | @updateUser u now =>
    have hu := he.updateUser u now rfl
    exact ⟨.inr ⟨u, hu, rfl⟩, .inr ⟨u, hu, rfl⟩⟩
  | @updateRoom r => exact ⟨r, he.updateRoom r rfl, rfl⟩
  | userBlocked => trivial

end Event

/-! ## Runs -/

/-- What the event of the network gives the handler to rely on. -/
theorem assumes_of_performs {t : Mesh Node Peer Payload} {es : Run}
    {f : MeshEvent Node PeerInput Int} {n : Node} {x : Inbound Node PeerInput Payload Int}
    {reach : List Node} {e : Event} (hf : Parties.Performs t f n x reach)
    (hp : ∀ src q now, x = .packet src q now → PacketSaid es src q) (he : IsEvent n x e) :
    Assumes (es ++ [f]) n e := by
  cases he with
  | nodeAdded => constructor <;> simp
  | nodeRemoved => constructor <;> simp
  | selfKnown => constructor <;> simp [eq_comm]
  | packet =>
    refine ⟨fun p a now h => ?_, by simp, by simp, by simp⟩
    cases h
    exact (hp _ _ _ rfl).longer f
  | @updateUser m now u hid hb =>
    refine ⟨by simp, fun u' now' h => ?_, by simp, by simp⟩
    cases h
    cases hf
    exact ⟨m, now, reach, by simp, hid, hb⟩
  | @updateRoom m now r hid hb =>
    refine ⟨by simp, by simp, fun r' h => ?_, by simp⟩
    cases h
    cases hf
    exact ⟨m, now, reach, by simp, hid, hb⟩
  | blockUsers => constructor <;> simp

theorem houseSaid_init (base : Int) (n : Node) : HouseSaid [] n (Handler.init base) where
  users a u hu := by simp [Handler.init] at hu
  rooms id r hr := by simp [Handler.init] at hr
  selfUser := ⟨.inl rfl, .inl rfl⟩
  selfRoom := .inl rfl
  grpSelf a ha := by cases ha

/-- **Houses show what was announced.** -/
theorem said (base : Int) (es : Run) (n : Node) :
    HouseSaid es n ((peers.mesh.exec (initial base) es).party n).handler := by
  refine (peers.guarantee (initial base) (I := fun es n s => HouseSaid es n s.handler)
    (P := fun es a _ p => PacketSaid es a p) (fun p e n s h => h.longer e)
    (fun p e a b q h => h.longer e) ?_ (fun n => houseSaid_init base n) ?_ es).1 n
  · intro p f n x reach hf hI hP
    have hx := act_outcome n ((peers.mesh.exec (initial base) p).party n) x
    change HouseSaid (p ++ [f]) n (act n _ x).1.handler ∧
      ∀ b, ∀ q ∈ peers.sentTo reach (act n _ x).2 b, PacketSaid (p ++ [f]) n q
    generalize act n ((peers.mesh.exec (initial base) p).party n) x = r at hx
    cases hx with
    | event he =>
      have hassumes := assumes_of_performs hf hP he
      refine ⟨(hI.longer f).step hassumes, fun b q hq => ?_⟩
      obtain ⟨o, ho, d, hd, -⟩ := peers.mem_sentTo.1 hq
      cases o with
      | send q' d' =>
        cases hd
        exact (hI.longer f).sends hassumes (Handler.mem_step_send ho)
      | post => cases hd
      | derefRoomEnd => cases hd
    | speaks hout =>
      refine ⟨hI.longer f, fun b q hq => ?_⟩
      obtain ⟨o, ho, d, hd, -⟩ := peers.mem_sentTo.1 hq
      rcases hout o ho with ⟨m, rfl⟩ | ⟨hdr, body, d', rfl, -⟩ <;> cases hd <;> trivial
    | inState => exact ⟨hI.longer f, by simp [Parties.sentTo, peers, Effect.packet?]⟩
  · intro a b q hq
    cases hq

end Peer

end RvHouse
