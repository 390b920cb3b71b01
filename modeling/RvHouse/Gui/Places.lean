import RvHouse.Gui.Client
import RvHouse.Model.Members

/-!
# Places in a room

The host keeps no list of the users that it let into its room: it writes the room into the entry
that its model has of the user, and counts the entries with that room at the next request. An
update of the user that was under way overwrites the entry, and a user that the model does not find
is let in all the same. `fits_of_guarded` says when the places suffice: when each user that is let
in is one that the host counts from then on (`Counted`), and no message makes it lose a user that
still holds a place (`KeepsEntries`). `not_fits_of_stale_update` is a run in which a room for two
holds three.
-/

namespace RvHouse

open ModelHouse

/-- A host, and the users that hold a place in its room, by id string as the host tells them apart.
-/
structure Places where
  host : Client
  /-- The acknowledgements under way. -/
  underWay : List String := []
  /-- The users that an acknowledgement reached and that have not left since. -/
  inRoom : List String := []

/-- What happens to a host and to the users that it lets in. -/
inductive PlacesEvent where
  /-- A message reaches the host. -/
  | message (m : Message)
  /-- An acknowledgement reaches its user. -/
  | receiveAck (id : String)
  /-- The user sends an update that leaves the room, or leaves the group. -/
  | leave (id : String)

namespace Places

/-- The users that the acknowledgements among the messages go to. -/
def acked (out : List Message) : List String :=
  (out.filter (·.id = .roomJoinAck)).map (·.senderId.idStr)

/-- One event. -/
def step (s : Places) : PlacesEvent → Places × List Message
  | .message m =>
    let (host, out) := s.host.handleMessage m
    ({ s with host, underWay := s.underWay ++ acked out }, out)
  | .receiveAck id =>
    if id ∈ s.underWay then
      ({ s with underWay := s.underWay.erase id, inRoom := id :: s.inRoom }, [])
    else (s, [])
  | .leave id => ({ s with inRoom := s.inRoom.filter (· ≠ id) }, [])

/-- A host and its room as a machine that sends messages to the worker. -/
def machine : Mealy Places PlacesEvent Message := ⟨step⟩

/-- The users that were let in and hold a place. -/
def guests (s : Places) : List String := s.underWay ++ s.inRoom

/-- The users that hold a place. -/
def holders (s : Places) : List String := s.host.self.user.id.idStr :: s.guests

/-- The places suffice. -/
def Fits (s : Places) : Prop := s.holders.dedup.length ≤ s.host.self.hostingRoom.maxPlayers

instance (s : Places) : Decidable s.Fits := inferInstanceAs (Decidable (_ ≤ _))

/-! ## Letting a user in -/

/-- The message is a request that passes the checks of the host. -/
structure LetsIn (s : Client) (m : Message) (rid pass : String) : Prop where
  id : m.id = .roomJoin
  body : m.body = .roomJoin rid pass
  fresh : (filterMessage m s.filterMap).1 = false
  hosting : Hosting s.self rid
  password : ¬ WrongPassword s.self pass
  free : ¬ IsFull s.self s.house rid

/-- A request that the host answers is refused in one way or another, or passes the checks. -/
theorem handleRoomJoin_cases {self : SelfModel} {hm hm' : ModelHouse} {m smsg : Message}
    (hid : m.id = .roomJoin) (h : handleRoomJoin self hm m = some (hm', smsg)) :
    hm' = hm ∧ acked [smsg] = [] ∨
      ∃ rid pass, m.body = .roomJoin rid pass ∧ decision self hm rid pass = .ack ∧
        acked [smsg] = [m.senderId.idStr] ∧ hm.setRoomId m.senderId m.groupBase rid = some hm' := by
  obtain ⟨id, sender, seq, gb, body⟩ := m
  obtain rfl : id = .roomJoin := hid
  cases body with
  | roomJoin rid pass =>
    have hjoin := handleRoomJoin_ofRoomJoin self hm rid pass sender seq gb
    rw [Message.ofRoomJoin, h] at hjoin
    by_cases hack : decision self hm rid pass = .ack
    · rw [if_pos hack] at hjoin
      obtain ⟨hm₁, hset, heq⟩ := Option.map_eq_some_iff.1 hjoin.symm
      cases heq
      have hacked : acked [Message.ofRoomJoin (decision self hm rid pass).msgId rid pass sender seq gb] =
          [sender.idStr] := by
        simp [acked, hack, Message.ofRoomJoin, Decision.msgId]
      exact .inr ⟨rid, pass, rfl, hack, hacked, hset⟩
    · rw [if_neg hack] at hjoin
      cases hjoin
      refine .inl ⟨rfl, ?_⟩
      cases hd : decision self hm rid pass <;>
        simp_all [acked, Message.ofRoomJoin, Decision.msgId]
  | _ => simp [handleRoomJoin, Body.asRoomJoin] at h

theorem acked_handleRoomJoinAck (self : SelfModel) (m : Message) :
    acked (handleRoomJoinAck self m).2 = [] := by
  unfold handleRoomJoinAck
  split
  · rfl
  · split <;> rfl

/-- What a message does to a host: nobody is let in, and the model changes with the message if at
all; or a user is let in, and its place reserved. -/
theorem handleMessage_cases (s : Client) (m : Message) :
    acked (s.handleMessage m).2 = [] ∧
        ((s.handleMessage m).1.house = s.house ∨
          s.house.handleModelUpdate m = some (s.handleMessage m).1.house) ∨
      ∃ pass, LetsIn s m s.self.hostingRoom.id pass ∧
        acked (s.handleMessage m).2 = [m.senderId.idStr] ∧
        s.house.setRoomId m.senderId m.groupBase s.self.hostingRoom.id =
          some (s.handleMessage m).1.house := by
  unfold Client.handleMessage
  cases hdup : (filterMessage m s.filterMap).1 with
  | true => exact .inl ⟨by simp [hdup, acked], .inl (by simp [hdup])⟩
  | false =>
    cases hupd : s.house.handleModelUpdate m with
    | none => exact .inl ⟨by simp [hdup, acked], .inl (by simp [hdup])⟩
    | some house =>
      simp only [hdup, Bool.false_eq_true, if_false]
      split
      · rename_i hid
        have hother : m.id ∉ [MsgId.user, .userLeft, .room, .roomRemove] := by simp [hid]
        obtain rfl : s.house = house := by
          rw [handleModelUpdate_other hother] at hupd
          exact Option.some.inj hupd
        cases hjoin : handleRoomJoin s.self s.house m with
        | none => exact .inl ⟨rfl, .inl rfl⟩
        | some p =>
          rcases handleRoomJoin_cases hid hjoin with
            ⟨hsame, hnil⟩ | ⟨rid, pass, hbody, hack, hsender, hset⟩
          · exact .inl ⟨hnil, .inl hsame⟩
          · obtain ⟨hhost, hpass, hfree⟩ := decision_eq_ack.1 hack
            obtain rfl : s.self.hostingRoom.id = rid := hhost.1.symm.trans hhost.2
            exact .inr ⟨pass, ⟨hid, hbody, hdup, hhost, hpass, hfree⟩, hsender, hset⟩
      · exact .inl ⟨acked_handleRoomJoinAck s.self m, .inr rfl⟩
      · exact .inl ⟨acked_handleRoomJoinAck s.self m, .inr rfl⟩
      · exact .inl ⟨acked_handleRoomJoinAck s.self m, .inr rfl⟩
      · exact .inl ⟨acked_handleRoomJoinAck s.self m, .inr rfl⟩
      · exact .inl ⟨rfl, .inr rfl⟩

/-- A message changes neither the room that is hosted nor the id of the host. -/
theorem self_handleMessage (s : Client) (m : Message) :
    (s.handleMessage m).1.self.hostingRoom = s.self.hostingRoom ∧
      (s.handleMessage m).1.self.user.id = s.self.user.id := by
  have hack : (handleRoomJoinAck s.self m).1.hostingRoom = s.self.hostingRoom ∧
      (handleRoomJoinAck s.self m).1.user.id = s.self.user.id := by
    unfold handleRoomJoinAck
    split
    · exact ⟨rfl, rfl⟩
    · split <;> exact ⟨rfl, rfl⟩
  simp only [Client.handleMessage]
  split
  · exact ⟨rfl, rfl⟩
  · split
    · exact ⟨rfl, rfl⟩
    · split
      · split <;> exact ⟨rfl, rfl⟩
      all_goals first | exact hack | exact ⟨rfl, rfl⟩

/-! ## Runs -/

/-- The id of the room that is hosted. -/
def rid (s : Places) : String := s.host.self.hostingRoom.id

/-- The host counts the user that it lets in: it has itself in the room, and it has the user there
already, or finds it under its id string. -/
def Counted (s : Places) (m : Message) : Prop :=
  ∀ pass, LetsIn s.host m s.rid pass → s.host.house.houseFind m.groupBase ≠ none →
    s.host.self.user.id.idStr ∈ s.host.house.roomMembers s.rid ∧
      (m.senderId.idStr ∈ s.host.house.roomMembers s.rid ∨
        m.senderId.idStr ≠ "" ∧
          ∃ ui ∈ s.host.house.userFindIn m.senderId m.groupBase, ui.id.idStr = m.senderId.idStr)

/-- The host keeps each guest in the room: the message spares an entry that has the guest there. -/
def KeepsEntries (s : Places) (m : Message) : Prop :=
  ∀ id ∈ s.guests, id ∈ s.host.house.roomMembers s.rid →
    ∃ grp u, s.host.house.Seats s.rid id grp u ∧ Spares m grp u

/-- The host keeps count at the event. -/
def KeepsCount (s : Places) : PlacesEvent → Prop
  | .message m => s.Counted m ∧ s.KeepsEntries m
  | _ => True

/-- The host counts every guest. -/
def Counts (s : Places) : Prop := ∀ id ∈ s.guests, id ∈ s.host.house.roomMembers s.rid

/-- The host before anybody is let in. -/
def opened (host : Client) : Places := { host }

theorem counts_opened (host : Client) : (opened host).Counts := by simp [Counts, guests, opened]

theorem fits_opened {host : Client} (h : 0 < host.self.hostingRoom.maxPlayers) :
    (opened host).Fits := by
  simpa [Fits, holders, guests, opened, Nat.succ_le_iff] using h

/-! ### Messages -/

/-- What a message does to the guests: they stay the same, and the model changes with the message if
at all; or one is let in. -/
theorem step_message_cases (s : Places) (m : Message) :
    (s.step (.message m)).1.guests = s.guests ∧
        ((s.step (.message m)).1.host.house = s.host.house ∨
          s.host.house.handleModelUpdate m = some (s.step (.message m)).1.host.house) ∨
      ∃ pass, LetsIn s.host m s.rid pass ∧ s.host.house.houseFind m.groupBase ≠ none ∧
        (∀ id ∈ (s.step (.message m)).1.guests, id = m.senderId.idStr ∨ id ∈ s.guests) ∧
        s.host.house.setRoomId m.senderId m.groupBase s.rid =
          some (s.step (.message m)).1.host.house := by
  have hguests : (s.step (.message m)).1.guests =
      (s.underWay ++ acked (s.host.handleMessage m).2) ++ s.inRoom := rfl
  rw [hguests]
  rcases handleMessage_cases s.host m with ⟨hnil, hhouse⟩ | ⟨pass, hin, hacked, hset⟩
  · rw [hnil, List.append_nil]
    exact .inl ⟨rfl, hhouse⟩
  · refine .inr ⟨pass, hin, fun hnone => ?_, fun id hid => ?_, hset⟩
    · rw [setRoomId_eq_none.2 hnone] at hset
      cases hset
    · rw [hacked] at hid
      simp only [List.mem_append, List.mem_singleton] at hid
      rcases hid with (hway | hnew) | hroom
      · exact .inr (List.mem_append_left _ hway)
      · exact .inl hnew
      · exact .inr (List.mem_append_right _ hroom)

theorem rid_step_message (s : Places) (m : Message) : (s.step (.message m)).1.rid = s.rid :=
  congrArg Room.id (self_handleMessage s.host m).1

theorem counts_message {s : Places} {m : Message} (h : s.Counts) (hcount : s.Counted m)
    (hkeep : s.KeepsEntries m) : (s.step (.message m)).1.Counts := by
  intro id hid
  rw [rid_step_message]
  rcases step_message_cases s m with ⟨hsame, hhouse⟩ | ⟨pass, hin, hgrp, hguests, hset⟩
  · rw [hsame] at hid
    rcases hhouse with hhouse | hupd
    · rw [hhouse]
      exact h id hid
    · obtain ⟨grp, u, hseat, hspare⟩ := hkeep id hid (h id hid)
      have hne : id ≠ "" := ne_empty_of_mem_roomMembers (h id hid)
      exact mem_roomMembers_handleModelUpdate hupd hne hseat hspare
  · rcases hguests id hid with rfl | hold
    · rcases (hcount pass hin hgrp).2 with hthere | ⟨hne, ui, hui, hstr⟩
      · exact mem_roomMembers_setRoomId hset hthere
      · rw [← hstr] at hne ⊢
        exact mem_roomMembers_of_userFindIn hset hui hne
    · exact mem_roomMembers_setRoomId hset (h id hold)

theorem fits_message {s : Places} {m : Message} (h : s.Counts) (hfits : s.Fits)
    (hcount : s.Counted m) : (s.step (.message m)).1.Fits := by
  obtain ⟨hroom, huser⟩ := self_handleMessage s.host m
  have hholders : (s.step (.message m)).1.holders =
      s.host.self.user.id.idStr :: (s.step (.message m)).1.guests :=
    congrArg (fun k : UserKey => k.idStr :: (s.step (.message m)).1.guests) huser
  have hmax : (s.step (.message m)).1.host.self.hostingRoom.maxPlayers =
      s.host.self.hostingRoom.maxPlayers := congrArg Room.maxPlayers hroom
  rw [Fits, hholders, hmax]
  rcases step_message_cases s m with ⟨hsame, -⟩ | ⟨pass, hin, hgrp, hguests, -⟩
  · rw [hsame]
    exact hfits
  · -- One more than the host counts, and it counts fewer than the room may hold.
    have hmem : ∀ id ∈ s.host.self.user.id.idStr :: (s.step (.message m)).1.guests,
        id = m.senderId.idStr ∨ id ∈ s.host.house.roomMembers s.rid := by
      intro id hid
      rcases List.mem_cons.1 hid with rfl | hguest
      · exact .inr (hcount pass hin hgrp).1
      · exact (hguests id hguest).imp_right (h id)
    have hfree : s.host.house.roomSize s.rid < s.host.self.hostingRoom.maxPlayers :=
      not_le.1 hin.free
    exact (length_dedup_le_roomSize hmem).trans hfree

/-! ### Guests -/

theorem guests_receiveAck (s : Places) (id : String) :
    (s.step (.receiveAck id)).1.guests ⊆ s.guests := by
  intro id' hid'
  simp only [step] at hid'
  split at hid'
  · rename_i hmem
    rcases List.mem_append.1 hid' with hway | hroom
    · exact List.mem_append_left _ (List.mem_of_mem_erase hway)
    · rcases List.mem_cons.1 hroom with rfl | hroom
      · exact List.mem_append_left _ hmem
      · exact List.mem_append_right _ hroom
  · exact hid'

theorem guests_leave (s : Places) (id : String) : (s.step (.leave id)).1.guests ⊆ s.guests := by
  intro id' hid'
  rcases List.mem_append.1 hid' with hway | hroom
  · exact List.mem_append_left _ hway
  · exact List.mem_append_right _ (List.mem_filter.1 hroom).1

theorem host_receiveAck (s : Places) (id : String) : (s.step (.receiveAck id)).1.host = s.host := by
  simp only [step]
  split <;> rfl

/-- When guests only leave, the host still counts them all. -/
theorem Counts.of_subset {s s' : Places} (h : s.Counts) (hhost : s'.host = s.host)
    (hsub : s'.guests ⊆ s.guests) : s'.Counts := by
  intro id hid
  rw [rid, hhost]
  exact h id (hsub hid)

/-- When guests only leave, the places still suffice. -/
theorem Fits.of_subset {s s' : Places} (h : s.Fits) (hhost : s'.host = s.host)
    (hsub : s'.guests ⊆ s.guests) : s'.Fits := by
  have hholders : s'.holders.dedup ⊆ s.holders.dedup := by
    intro id hid
    rw [List.mem_dedup, holders, hhost] at hid
    exact List.mem_dedup.2 (List.cons_subset_cons _ hsub hid)
  have hlen := ((List.nodup_dedup _).subperm hholders).length_le
  rw [Fits, hhost]
  exact hlen.trans h

/-! ### The bound -/

theorem counts_fits_step {s : Places} (h : s.Counts ∧ s.Fits) {e : PlacesEvent}
    (he : s.KeepsCount e) : (s.step e).1.Counts ∧ (s.step e).1.Fits := by
  obtain ⟨hcounts, hfits⟩ := h
  cases e with
  | message m => exact ⟨counts_message hcounts he.1 he.2, fits_message hcounts hfits he.1⟩
  | receiveAck id =>
    have hhost := host_receiveAck s id
    have hsub := guests_receiveAck s id
    exact ⟨hcounts.of_subset hhost hsub, hfits.of_subset hhost hsub⟩
  | leave id =>
    have hsub := guests_leave s id
    exact ⟨hcounts.of_subset rfl hsub, hfits.of_subset rfl hsub⟩

/-- **When the places suffice.** In every run in which the host keeps count, never do more users
hold a place in its room than the room may hold. -/
theorem fits_of_guarded {host : Client} (hmax : 0 < host.self.hostingRoom.maxPlayers)
    {es : List PlacesEvent} (hes : machine.Guarded KeepsCount (opened host) es)
    {p : List PlacesEvent} (hp : p <+: es) : (machine.exec (opened host) p).Fits := by
  have hinit : (opened host).Counts ∧ (opened host).Fits :=
    ⟨counts_opened host, fits_opened hmax⟩
  exact (machine.invariant_along (I := fun s => s.Counts ∧ s.Fits)
    (fun s e h he => counts_fits_step h he) hinit hes hp).2

/-- A host in its room for two. -/
def hostOfTwo : Client :=
  { Client.init {} with
    self := {
      user := { id := ⟨some ⟨9, 9⟩, "h"⟩, roomId := "5:h" }
      hostingRoom := { id := "5:h", ownerId := ⟨some ⟨9, 9⟩, "h"⟩, maxPlayers := 2 } } }

/-- A user is let in, says so, leaves and says so. -/
def inAndOut : List PlacesEvent :=
  [.message (.ofUser .user { id := ⟨some ⟨9, 9⟩, "h"⟩, roomId := "5:h" } 0 29),
    .message (.ofUser .user { id := ⟨some ⟨1, 2⟩, "a"⟩ } 0 29),
    .message (.ofRoomJoin .roomJoin "5:h" "" ⟨some ⟨1, 2⟩, "a"⟩ 1 29), .receiveAck "a",
    .message (.ofUser .user { id := ⟨some ⟨1, 2⟩, "a"⟩, roomId := "5:h" } 0 29), .leave "a",
    .message (.ofUser .user { id := ⟨some ⟨1, 2⟩, "a"⟩ } 0 29)]

theorem fits_of_in_and_out : (machine.exec (opened hostOfTwo) inAndOut).Fits := by
  have hother : ∀ (s : Places) (m : Message), m.id ≠ .roomJoin → s.Counted m :=
    fun s m hid pass hin => absurd hin.id hid
  have hnobody : ∀ (s : Places) (m : Message), s.guests = [] → s.KeepsEntries m :=
    fun s m hnil id hid => by simp [hnil] at hid
  have hes : machine.Guarded KeepsCount (opened hostOfTwo) inAndOut := by
    refine ⟨⟨hother _ _ (by decide), hnobody _ _ rfl⟩, ⟨hother _ _ (by decide), hnobody _ _ ?_⟩,
      ⟨fun pass hin hgrp => ?_, hnobody _ _ ?_⟩, trivial,
      ⟨hother _ _ (by decide), fun id hid hroom => ?_⟩, trivial,
      ⟨hother _ _ (by decide), hnobody _ _ ?_⟩, trivial⟩
    · decide
    · exact ⟨by decide, .inr ⟨by decide, { id := ⟨some ⟨1, 2⟩, "a"⟩ }, by decide, rfl⟩⟩
    · decide
    · obtain ⟨-, grp, u, hu⟩ := mem_roomMembers.1 hroom
      refine ⟨grp, u, hu, fun hgrp v hv hnode => ?_⟩
      cases hv
      have hguest : id = "a" := by
        have hmem : id ∈ ["a"] := hid
        simpa using hmem
      have hroom' : u.roomId = "5:h" := hu.room
      refine ⟨by decide, fun _ => .inr ⟨?_, hroom'.symm⟩⟩
      rw [hu.idStr, hguest]
    · decide
  exact fits_of_guarded (by decide) hes (List.prefix_refl _)

/-- Two users ask for the last place of a room for two; an update that the first sent before the
answer arrives between the requests. -/
def staleUpdate : List PlacesEvent :=
  [.message (.ofUser .user { id := ⟨some ⟨9, 9⟩, "h"⟩, roomId := "5:h" } 0 29),
    .message (.ofUser .user { id := ⟨some ⟨1, 2⟩, "a"⟩ } 0 29),
    .message (.ofUser .user { id := ⟨some ⟨3, 4⟩, "b"⟩ } 0 29),
    .message (.ofRoomJoin .roomJoin "5:h" "" ⟨some ⟨1, 2⟩, "a"⟩ 1 29),
    .message (.ofUser .user { id := ⟨some ⟨1, 2⟩, "a"⟩ } 0 29),
    .message (.ofRoomJoin .roomJoin "5:h" "" ⟨some ⟨3, 4⟩, "b"⟩ 1 29)]

/-- Both are let in. -/
theorem not_fits_of_stale_update : ¬ (machine.exec (opened hostOfTwo) staleUpdate).Fits := by
  decide

end Places

end RvHouse
