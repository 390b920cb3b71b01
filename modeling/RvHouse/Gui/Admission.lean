import RvHouse.Gui.Places

/-!
# Admission to a room

Who hosts a room opens the settings of the room first (`window::room_settings`), which names the
room, and may cancel them; it closes its window in the end. What closes a room empties its id and
leaves the password and the number of places as they are, and a host that has no room has the empty
id in the two places where `_handle_room_join` looks.

`admitsRightly_iff` says when the answers are right in every state that a host comes to: always but
for one request, that for the room with the empty id while the host is in no room. It is let into no
room, as long as fewer users are in none than the last room had places for
(`not_admitsRightly_of_closed`).
-/

namespace RvHouse

/-- The settings that `_registry_to_room` finds. -/
structure RoomPrefs where
  laps : ℕ := 3
  pickups : Bool := true
  cars : ℕ := 8
deriving DecidableEq

/-- The fields of the dialog as `_form_to_room` reads them: the topic is cut and trimmed, the
password cut. -/
structure RoomForm where
  topic : String
  password : String := ""
  laps : ℕ := 3
  players : ℕ := 8
  pickups : Bool := true
  versionRvgl : Bool := false
deriving DecidableEq

/-- `room_settings::_registry_to_room`. -/
def registryToRoom (p : RoomPrefs) (r : Room) : Room :=
  { r with laps := p.laps, pickups := p.pickups, maxPlayers := p.cars }

/-- `room_settings::_form_to_room`. -/
def formToRoom (f : RoomForm) (r : Room) : Room :=
  let r := { r with topic := f.topic }.setPassword f.password
  { r with laps := f.laps, maxPlayers := f.players, pickups := f.pickups,
           versionRvgl := f.versionRvgl }

/-- A client whose user may host a room; `roomIdPrev` is that of the settings while they are open.
-/
structure HostClient where
  client : Client
  roomIdPrev : Option String := none

/-- What happens to it. -/
inductive HostEvent where
  | client (e : ClientEvent)
  /-- `room_settings` is executed: a room is created or edited. -/
  | openSettings (p : RoomPrefs) (now : Int)
  | accept (f : RoomForm)
  | reject

namespace HostClient

/-- `room_settings::_from_settings_to_form`. -/
def openSettings (s : HostClient) (p : RoomPrefs) (now : Int) : HostClient × List Message :=
  let self := s.client.self
  let r := registryToRoom p self.hostingRoom
  if r.id = "" then
    let r := { r with ownerId := self.user.id }.generateId now
    let self := { self with hostingRoom := r, user := { self.user with roomId := r.id } }
    let (msg, self) := self.userAsMessage
    ({ client := { s.client with self }, roomIdPrev := some "" }, [msg])
  else
    ({ client := { s.client with self := { self with hostingRoom := r } }, roomIdPrev := some r.id },
      [])

/-- `room_settings::accept`. Without a topic the settings stay open. -/
def accept (s : HostClient) (f : RoomForm) : HostClient × List Message :=
  if f.topic = "" then (s, [])
  else
    let self := { s.client.self with hostingRoom := formToRoom f s.client.self.hostingRoom }
    let (seq, self) := self.sequence
    ({ client := { s.client with self }, roomIdPrev := none },
      [.ofRoom .room self.hostingRoom self.user.id seq 0])

/-- `room_settings::reject`. -/
def reject (s : HostClient) (prev : String) : HostClient × List Message :=
  let self := s.client.self
  if prev ≠ self.hostingRoom.id then
    let self := { self with
      user := { self.user with roomId := prev }
      hostingRoom := { self.hostingRoom with id := "" } }
    let (msg, self) := self.userAsMessage
    ({ client := { s.client with self }, roomIdPrev := none }, [msg])
  else ({ s with roomIdPrev := none }, [])

/-- One event. The settings are modal. -/
def step (s : HostClient) : HostEvent → HostClient × List Message
  | .client e =>
    let (client, out) := s.client.step e
    ({ s with client }, out)
  | .openSettings p now => if s.roomIdPrev = none then s.openSettings p now else (s, [])
  | .accept f => if s.roomIdPrev = none then (s, []) else s.accept f
  | .reject =>
    match s.roomIdPrev with
    | some prev => s.reject prev
    | none => (s, [])

/-- The client as a machine that sends messages to the worker. -/
def machine : Mealy HostClient HostEvent Message := ⟨step⟩

/-- The client at the start. -/
def init (u : User) : HostClient := { client := Client.init u }

end HostClient

/-! ## One request -/

/-- The host has a room with the id, is in it, and has a place for the user, who knows the password.
-/
structure Admissible (me : SelfModel) (hm : ModelHouse) (rid pass : String) : Prop where
  named : rid ≠ ""
  hosted : me.hostingRoom.id = rid
  present : me.user.roomId = rid
  password : me.hostingRoom.password = "" ∨ me.hostingRoom.password = pass
  place : (hm.roomUsers rid).ncard < me.hostingRoom.maxPlayers

/-- `_handle_room_join` answers with an acknowledgement. -/
def Acknowledges (self : SelfModel) (hm : ModelHouse) (m : Message) : Prop :=
  ∃ res ∈ handleRoomJoin self hm m, res.2 = { m with id := .roomJoinAck }

/-- The user of the group is in the room after the request, if the model knows it. -/
def InRoomAfter (self : SelfModel) (hm : ModelHouse) (m : Message) (rid : String) : Prop :=
  ∀ res ∈ handleRoomJoin self hm m, ∀ ui ∈ hm.userFindIn m.senderId m.groupBase,
    res.1.userFindIn m.senderId m.groupBase = some { ui with roomId := rid }

/-- Exactly the admissible requests are acknowledged, and then the user is in the room. -/
structure AdmitsRightly (me : SelfModel) (hm : ModelHouse) (rid pass : String) (uid : UserKey)
    (seq : UInt32) (base : Int) : Prop where
  ack : Acknowledges me hm (.ofRoomJoin .roomJoin rid pass uid seq base) ↔
    Admissible me hm rid pass
  entered : Admissible me hm rid pass →
    InRoomAfter me hm (.ofRoomJoin .roomJoin rid pass uid seq base) rid

/-- The request is for the empty id, which the checks take for the room of a host that has none. -/
structure EntersNoRoom (me : SelfModel) (hm : ModelHouse) (rid pass : String) : Prop where
  empty : rid = ""
  present : me.user.roomId = ""
  hosted : me.hostingRoom.id = ""
  password : me.hostingRoom.password = "" ∨ me.hostingRoom.password = pass
  place : (hm.roomUsers "").ncard < me.hostingRoom.maxPlayers

section

variable {self : SelfModel} {hm : ModelHouse} {rid pass : String}

theorem not_wrongPassword_iff : ¬ WrongPassword self pass ↔
    self.hostingRoom.password = "" ∨ self.hostingRoom.password = pass := by
  rw [WrongPassword, not_and_or, not_not, not_not]

theorem not_isFull_iff :
    ¬ IsFull self hm rid ↔ (hm.roomUsers rid).ncard < self.hostingRoom.maxPlayers := by
  rw [IsFull, not_le, ModelHouse.roomSize_eq_ncard]

/-- The checks pass for the requests that are admissible, and for those that enter no room. -/
theorem decision_eq_ack_iff : decision self hm rid pass = .ack ↔
    Admissible self hm rid pass ∨ EntersNoRoom self hm rid pass := by
  rw [decision_eq_ack, not_wrongPassword_iff, not_isFull_iff]
  constructor
  · rintro ⟨⟨hown, hin⟩, hpass, hplace⟩
    by_cases hrid : rid = ""
    · subst hrid
      exact .inr ⟨rfl, hin, hown ▸ hin, hpass, hplace⟩
    · exact .inl ⟨hrid, hown ▸ hin, hin, hpass, hplace⟩
  · rintro (⟨-, hown, hin, hpass, hplace⟩ | ⟨rfl, hin, hown, hpass, hplace⟩)
    · exact ⟨⟨hin.trans hown.symm, hin⟩, hpass, hplace⟩
    · exact ⟨⟨hin.trans hown.symm, hin⟩, hpass, hplace⟩

theorem msgId_eq_roomJoinAck {d : Decision} : d.msgId = .roomJoinAck ↔ d = .ack := by
  cases d <;> simp [Decision.msgId]

/-- With a group that the model knows, a request is acknowledged when it passes the checks. -/
theorem acknowledges_iff {base : Int} (hbase : hm.houseFind base ≠ none) (uid : UserKey)
    (seq : UInt32) : Acknowledges self hm (.ofRoomJoin .roomJoin rid pass uid seq base) ↔
      decision self hm rid pass = .ack := by
  have hset : hm.setRoomId uid base rid ≠ none := fun h => hbase (ModelHouse.setRoomId_eq_none.1 h)
  obtain ⟨hm', hset⟩ := Option.ne_none_iff_exists'.1 hset
  unfold Acknowledges
  rw [handleRoomJoin_ofRoomJoin]
  by_cases hack : decision self hm rid pass = .ack
  · rw [if_pos hack, hset, hack]
    exact iff_of_true ⟨_, rfl, rfl⟩ rfl
  · rw [if_neg hack]
    refine iff_of_false ?_ hack
    rintro ⟨res, hres, hid⟩
    cases hres
    exact hack (msgId_eq_roomJoinAck.1 (congrArg Message.id hid))

end

namespace ModelHouse

/-- The user that is found is found afterwards too, in the room. -/
theorem userFindIn_setRoomId {m m' : ModelHouse} {id : UserKey} {grp : Int} {rid : String}
    {ui : User} (h : m.setRoomId id grp rid = some m') (hui : m.userFindIn id grp = some ui) :
    m'.userFindIn id grp = some { ui with roomId := rid } := by
  obtain ⟨g, hg, hset⟩ := Option.bind_eq_some_iff.1 h
  have hfind : g.userFind id = some ui := by simpa [userFindIn, hg] using hui
  simp only [hfind] at hset
  cases hset
  rw [userFindIn, houseFind_insert, if_pos rfl]
  show GroupHouse.userFind _ id = _
  unfold GroupHouse.userFind at hfind ⊢
  rw [House.userFind_userStore, if_pos (House.node_of_userFind hfind), hfind, Option.map_some]

/-- No message takes a group away. -/
theorem houseFind_ne_none_of_handleModelUpdate {m m' : ModelHouse} {msg : Message}
    (h : m.handleModelUpdate msg = some m') {grp : Int} (hgrp : m.houseFind grp ≠ none) :
    m'.houseFind grp ≠ none := by
  rw [houseFind_handleModelUpdate h]
  split
  · rwa [ne_eq, Option.map_eq_none_iff]
  · exact hgrp

theorem houseFind_ne_none_of_setRoomId {m m' : ModelHouse} {id : UserKey} {grp' : Int}
    {rid : String} (h : m.setRoomId id grp' rid = some m') {grp : Int}
    (hgrp : m.houseFind grp ≠ none) : m'.houseFind grp ≠ none := by
  rcases setRoomId_cases h with ⟨-, rfl⟩ | ⟨g, ui, g', -, -, -, hg', hrest, -⟩
  · exact hgrp
  · by_cases heq : grp' = grp
    · rw [← heq, hg']
      exact Option.some_ne_none g'
    · rwa [hrest grp heq]

end ModelHouse

/-! ## Runs -/

namespace HostClient

/-- The groups whose handlers pass requests on. -/
def groupBases : List Int := [MsgId.dhtGroupBase.code, MsgId.ctzGroupBase.code]

/-- The model knows both groups. -/
def KnowsGroups (s : HostClient) : Prop :=
  ∀ base ∈ groupBases, s.client.house.houseFind base ≠ none

theorem knowsGroups_init (u : User) : (init u).KnowsGroups := by
  intro base hbase
  simp only [init, Client.init, ModelHouse.houseFind_allowGroup]
  simp only [groupBases, List.mem_cons, List.not_mem_nil, or_false] at hbase
  rcases hbase with rfl | rfl
  · rw [if_neg (by decide), if_pos rfl]
    exact Option.some_ne_none _
  · rw [if_pos rfl]
    exact Option.some_ne_none _

theorem knowsGroups_of_house {s s' : HostClient} (h : s.KnowsGroups)
    (hhouse : s'.client.house = s.client.house) : s'.KnowsGroups := by
  intro base hbase
  rw [hhouse]
  exact h base hbase

theorem knowsGroups_message {s : HostClient} (h : s.KnowsGroups) (m : Message) :
    (s.step (.client (.message m))).1.KnowsGroups := by
  intro base hbase
  show (s.client.handleMessage m).1.house.houseFind base ≠ none
  rcases Places.handleMessage_cases s.client m with ⟨-, hsame | hupd⟩ | ⟨pass, -, -, hset⟩
  · rw [hsame]
    exact h base hbase
  · exact ModelHouse.houseFind_ne_none_of_handleModelUpdate hupd (h base hbase)
  · exact ModelHouse.houseFind_ne_none_of_setRoomId hset (h base hbase)

theorem house_openSettings (s : HostClient) (p : RoomPrefs) (now : Int) :
    (s.openSettings p now).1.client.house = s.client.house := by
  unfold openSettings
  dsimp only
  split <;> rfl

theorem house_accept (s : HostClient) (f : RoomForm) :
    (s.accept f).1.client.house = s.client.house := by
  unfold accept
  split <;> rfl

theorem house_reject (s : HostClient) (prev : String) :
    (s.reject prev).1.client.house = s.client.house := by
  unfold reject
  dsimp only
  split <;> rfl

theorem knowsGroups_step {s : HostClient} (h : s.KnowsGroups) (e : HostEvent) :
    (s.step e).1.KnowsGroups := by
  cases e with
  | client e =>
    cases e with
    | message m => exact knowsGroups_message h m
    | roomJoinSelected rid pass =>
      exact knowsGroups_of_house h (Client.house_roomJoinSelected s.client rid pass)
    | interrupt => exact knowsGroups_of_house h (Client.house_interrupt s.client)
    | closeRoom => exact knowsGroups_of_house h rfl
    | draw => exact knowsGroups_of_house h rfl
  | openSettings p now =>
    dsimp only [step]
    split
    · exact knowsGroups_of_house h (house_openSettings s p now)
    · exact h
  | accept f =>
    dsimp only [step]
    split
    · exact h
    · exact knowsGroups_of_house h (house_accept s f)
  | reject =>
    dsimp only [step]
    split
    · exact knowsGroups_of_house h (house_reject s _)
    · exact h

/-- **Who is let in.** After every run of a client that hosts, closes and hosts again, a request is
answered as it should be unless it enters no room. -/
theorem admitsRightly_iff (u : User) (es : List HostEvent) (rid pass : String) (uid : UserKey)
    (seq : UInt32) {base : Int} (hbase : base ∈ groupBases) :
    AdmitsRightly (machine.exec (init u) es).client.self (machine.exec (init u) es).client.house
        rid pass uid seq base ↔
      ¬ EntersNoRoom (machine.exec (init u) es).client.self
        (machine.exec (init u) es).client.house rid pass := by
  have hknown := machine.invariant_all (I := KnowsGroups) (fun s e h => knowsGroups_step h e)
    (knowsGroups_init u) es base hbase
  generalize (machine.exec (init u) es).client = c at hknown ⊢
  constructor
  · intro h hno
    have hack := (acknowledges_iff hknown uid seq).2 (decision_eq_ack_iff.2 (.inr hno))
    exact (h.ack.1 hack).named hno.empty
  · intro hno
    refine ⟨?_, fun hadm => ?_⟩
    · rw [acknowledges_iff hknown, decision_eq_ack_iff, or_iff_left hno]
    · intro res hres ui hui
      have hack : decision c.self c.house rid pass = .ack := decision_eq_ack_iff.2 (.inl hadm)
      rw [handleRoomJoin_ofRoomJoin, if_pos hack] at hres
      obtain ⟨hm', hset, rfl⟩ := Option.map_eq_some_iff.1 hres
      exact ModelHouse.userFindIn_setRoomId hset hui

/-- "h" hosts a room for two. -/
def hosted : List HostEvent :=
  [.openSettings {} 5, .accept { topic := "t", players := 2 }]

/-- "h". -/
def host : User := { id := .ofIdStr "h" }

theorem admitsRightly_hosted :
    AdmitsRightly (machine.exec (init host) hosted).client.self
      (machine.exec (init host) hosted).client.house "5:h" "" (.ofIdStr "a") 1
      MsgId.dhtGroupBase.code :=
  (admitsRightly_iff host hosted "5:h" "" (.ofIdStr "a") 1 (by decide)).2
    fun hno => absurd hno.empty (by decide)

/-- "h" closes the room; then a request for the empty id is acknowledged. -/
theorem not_admitsRightly_of_closed :
    ¬ AdmitsRightly (machine.exec (init host) (hosted ++ [.client .closeRoom])).client.self
      (machine.exec (init host) (hosted ++ [.client .closeRoom])).client.house "" ""
      (.ofIdStr "a") 1 MsgId.dhtGroupBase.code := by
  intro h
  have hack : Acknowledges (machine.exec (init host) (hosted ++ [.client .closeRoom])).client.self
      (machine.exec (init host) (hosted ++ [.client .closeRoom])).client.house
      (.ofRoomJoin .roomJoin "" "" (.ofIdStr "a") 1 MsgId.dhtGroupBase.code) := by
    refine (acknowledges_iff ?_ _ _).2 ?_
    · decide
    · decide
  exact (h.ack.1 hack).named rfl

end HostClient

end RvHouse
