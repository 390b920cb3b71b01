import RvHouse.Gui.Places

/-!
# The model before the message

`house_app` keeps its model twice: `house_model` takes a message in before the windows see it,
`house_model_prev` after they have, so that a view can tell what the message changes. A window may
open a box while it handles a message. The box runs an event loop of its own, in which later
messages are handled to the end before the first one is: `HouseApp.handling` has the messages that
are being handled, the innermost first.

To let a user into the room that it hosts, the host writes the room into the entry that
`house_model` has of the user, and not into the other one: the place is reserved until the user
announces the room itself, and the views notice the change then.

* `agree_exec`: what no message that is being handled is about, both models have alike, if messages
  about it were never handled one inside the other; but for the room of the users that were let in
  and of which no update has been taken over since (`Reserved.note`);
* `not_same_of_ack` and `not_same_of_nested` are runs in which the models differ: by a reserved
  place, and because an update of a user came in the box that an older one had opened;
* `client_handleMessage`: a message that is handled alone does to the client what
  `Client.handleMessage` says.
-/

namespace RvHouse

open ModelHouse

/-- The switch of `house_app::_handle_messenger`; `none` when something throws. -/
def Client.dispatch (s : Client) (m : Message) : Option (Client × List Message) :=
  match m.id with
  | .roomJoin =>
    (handleRoomJoin s.self s.house m).map fun (house, msg) => ({ s with house }, [msg])
  | .roomJoinFull | .roomJoinPass | .roomJoinNack | .roomJoinAck =>
    let (self, out) := handleRoomJoinAck s.self m
    some ({ s with self }, out)
  | _ => some (s, [])

/-- `house_app`, with `house_model` and `house_model_prev`; the first is the model of the client. -/
structure HouseApp where
  client : Client
  prev : ModelHouse
  /-- The messages whose handling has begun, the innermost first. -/
  handling : List Message := []
  /-- An exception has left the event loops. -/
  ended : Bool := false

/-- What happens to it. -/
inductive AppEvent where
  /-- The handling of a message begins: it passes the filter, and `house_model` takes it in. -/
  | message (m : Message)
  /-- The innermost message is handled to the end: the windows have seen it, and `house_model_prev`
  takes it in. -/
  | handled
  /-- A window changes the own user. -/
  | ownUser (self : SelfModel)

namespace HouseApp

/-- `_handle_messenger` up to the windows. -/
def begins (s : HouseApp) (m : Message) : HouseApp :=
  let (dup, filterMap) := filterMessage m s.client.filterMap
  let client := { s.client with filterMap }
  if dup then { s with client }
  else
    match client.house.handleModelUpdate m with
    | none => { s with client, ended := true }
    | some house => { s with client := { client with house }, handling := m :: s.handling }

/-- `_handle_messenger` from the switch on. -/
def finish (s : HouseApp) : HouseApp × List Message :=
  match s.handling with
  | [] => (s, [])
  | m :: handling =>
    match s.client.dispatch m with
    | none => ({ s with ended := true }, [])
    | some (client, out) =>
      match s.prev.handleModelUpdate m with
      | none => ({ s with client, ended := true }, out)
      | some prev => ({ s with client, prev, handling }, out)

/-- One event. -/
def step (s : HouseApp) (e : AppEvent) : HouseApp × List Message :=
  if s.ended then (s, [])
  else
    match e with
    | .message m => (s.begins m, [])
    | .handled => s.finish
    | .ownUser self => ({ s with client := { s.client with self } }, [])

/-- The application as a machine that sends messages to the worker. -/
def machine : Mealy HouseApp AppEvent Message := ⟨step⟩

/-- `house_app` at the start: the model is copied when it knows both groups. -/
def init (u : User) : HouseApp := ⟨Client.init u, (Client.init u).house, [], false⟩

/-! ### A message alone -/

theorem begins_of_dup {s : HouseApp} {m : Message}
    (h : (filterMessage m s.client.filterMap).1 = true) :
    s.begins m =
      { s with client := { s.client with filterMap := (filterMessage m s.client.filterMap).2 } } :=
  if_pos h

theorem begins_of_throws {s : HouseApp} {m : Message}
    (h : (filterMessage m s.client.filterMap).1 = false)
    (hupd : s.client.house.handleModelUpdate m = none) :
    s.begins m =
      { s with
        client := { s.client with filterMap := (filterMessage m s.client.filterMap).2 }
        ended := true } := by
  simp [begins, h, hupd]

theorem begins_of_taken {s : HouseApp} {m : Message} {house : ModelHouse}
    (h : (filterMessage m s.client.filterMap).1 = false)
    (hupd : s.client.house.handleModelUpdate m = some house) :
    s.begins m =
      { s with
        client := { s.client with filterMap := (filterMessage m s.client.filterMap).2, house }
        handling := m :: s.handling } := by
  simp [begins, h, hupd]

/-- `Client.handleMessage` is the filter, the model and the switch. -/
theorem client_handleMessage_of_taken {s : Client} {m : Message} {house : ModelHouse}
    (h : (filterMessage m s.filterMap).1 = false)
    (hupd : s.house.handleModelUpdate m = some house) :
    let taken := { s with filterMap := (filterMessage m s.filterMap).2, house }
    s.handleMessage m = (taken.dispatch m).getD (taken, []) := by
  intro taken
  simp only [Client.handleMessage, h, Bool.false_eq_true, if_false, hupd, Client.dispatch]
  cases m.id with
  | roomJoin => cases handleRoomJoin s.self house m <;> simp [taken]
  | _ => rfl

/-- A message that is handled while no other is does to the client what `Client.handleMessage`
says. -/
theorem client_handleMessage {s : HouseApp} (hrun : s.ended = false) (hidle : s.handling = [])
    (m : Message) :
    (machine.exec s [.message m, .handled]).client = (s.client.handleMessage m).1 ∧
      machine.trace s [.message m, .handled] = (s.client.handleMessage m).2 := by
  have hfirst : s.step (.message m) = (s.begins m, []) := by simp [step, hrun]
  have hsecond : machine.exec s [.message m, .handled] = ((s.begins m).step .handled).1 ∧
      machine.trace s [.message m, .handled] = ((s.begins m).step .handled).2 := by
    simp [machine, hfirst]
  rw [hsecond.1, hsecond.2]
  cases hdup : (filterMessage m s.client.filterMap).1 with
  | true => simp [begins_of_dup hdup, step, finish, hrun, hidle, Client.handleMessage, hdup]
  | false =>
    cases hupd : s.client.house.handleModelUpdate m with
    | none => simp [begins_of_throws hdup hupd, step, Client.handleMessage, hdup, hupd]
    | some house =>
      rw [begins_of_taken hdup hupd, client_handleMessage_of_taken hdup hupd]
      simp only [step, hrun, Bool.false_eq_true, if_false, finish, hidle]
      split
      · rename_i hdis
        simp [hdis]
      · rename_i hdis
        simp only [hdis, Option.getD_some]
        split <;> exact ⟨rfl, rfl⟩

end HouseApp

/-! ## Reserved places -/

/-- The rooms in which a place is reserved, by group and node. -/
abbrev Reserved := Int → Option Node → Option String

namespace Reserved

/-- The entry of a node is given a reservation, or loses it. -/
def set (t : Reserved) (grp : Int) (n : Option Node) (rid : Option String) : Reserved :=
  fun grp' n' => if grp = grp' ∧ n = n' then rid else t grp' n'

/-- The user of a node, with the room in which a place is reserved. -/
def fill (t : Reserved) (grp : Int) (n : Option Node) (u : User) : User :=
  match t grp n with
  | some rid => { u with roomId := rid }
  | none => u

/-- The reservations when `house_model` has taken a message in: a user loses its own with an update
that is taken over (one without an id string is not, when there is an entry), or when it leaves. -/
def taken (t : Reserved) (s : Client) (m : Message) : Reserved :=
  match m.body, m.id with
  | .user u, .user =>
    if u.id.idStr = "" ∧
        (s.house.houseFind m.groupBase).any (fun g => (g.house.userFind u.id).isSome) then t
    else t.set m.groupBase u.id.node none
  | .user u, .userLeft => t.set m.groupBase u.id.node none
  | _, _ => t

/-- The reservations after the switch: a user that is let in gets one. -/
def granted (t : Reserved) (s : Client) (m : Message) : Reserved :=
  match m.body, m.id with
  | .roomJoin rid pass, .roomJoin =>
    if decision s.self s.house rid pass = .ack then
      match s.house.userFindIn m.senderId m.groupBase with
      | some ui => t.set m.groupBase ui.id.node (some rid)
      | none => t
    else t
  | _, _ => t

/-- An observer keeps the reservations. -/
def note (t : Reserved) (s : HouseApp) (e : AppEvent) : Reserved :=
  if s.ended then t
  else
    match e with
    | .message m =>
      if (filterMessage m s.client.filterMap).1 ∨ s.client.house.handleModelUpdate m = none then t
      else t.taken s.client m
    | .handled =>
      match s.handling with
      | [] => t
      | m :: _ => t.granted s.client m
    | .ownUser _ => t

theorem fill_of_none {t : Reserved} {grp : Int} {n : Option Node} (h : t grp n = none) (u : User) :
    t.fill grp n u = u := by
  rw [fill, h]

theorem fill_congr {t t' : Reserved} {grp : Int} {n : Option Node} (h : t grp n = t' grp n) :
    t.fill grp n = t'.fill grp n := by
  funext u
  rw [fill, fill, h]

theorem set_same (t : Reserved) (grp : Int) (n : Option Node) (rid : Option String) :
    t.set grp n rid grp n = rid := if_pos ⟨rfl, rfl⟩

/-- A new reservation writes over an older one. -/
theorem fill_set_same (t : Reserved) (grp : Int) (n : Option Node) (rid : String) (u : User) :
    (t.set grp n (some rid)).fill grp n u = { t.fill grp n u with roomId := rid } := by
  unfold fill
  rw [set_same]
  cases t grp n <;> rfl

theorem fill_set_of_ne (t : Reserved) {grp grp' : Int} {n n' : Option Node}
    (h : ¬ (grp = grp' ∧ n = n')) (rid : Option String) :
    (t.set grp n rid).fill grp' n' = t.fill grp' n' :=
  fill_congr (if_neg h)

end Reserved

/-! ## What a message is about -/

/-- The group and the node of the user of whom the message says something. -/
def Message.aboutUser (m : Message) : Option (Int × Option Node) :=
  match m.id, m.body with
  | .user, .user u => some (m.groupBase, u.id.node)
  | .userLeft, .user u => some (m.groupBase, u.id.node)
  | _, _ => none

/-- The room and the group of which the message says something. -/
def Message.aboutRoom (m : Message) : Option (String × Int) :=
  match m.id, m.body with
  | .room, .room r => some (r.id, m.groupBase)
  | .roomRemove, .room r => some (r.id, m.groupBase)
  | _, _ => none

/-- What a message makes of the entry of a user. -/
def Message.putUser (m : Message) (grp : Int) (n : Option Node) (o : Option User) : Option User :=
  if m.aboutUser = some (grp, n) then
    match m.id, m.body with
    | .user, .user u => if u.id.idStr = "" ∧ o.isSome then o else some u
    | _, _ => none
  else o

/-- What a message makes of the entry of a room. -/
def Message.putRoom (m : Message) (grp : Int) (rid : String) (o : Option Room) : Option Room :=
  if m.aboutRoom = some (rid, grp) then
    match m.id, m.body with
    | .room, .room r => some r
    | _, _ => none
  else o

/-- An entry that messages write: the place of a user or of a room in the house of a group. -/
structure HouseEntry (α : Type) where
  grp : Int
  look : GroupHouse → Option α
  About : Message → Prop
  put : Message → Option α → Option α
  look_handle : ∀ (g : GroupHouse) (m : Message), m.groupBase = grp →
    look (g.handle m) = put m (look g)
  put_of_not_about : ∀ m o, ¬ About m → put m o = o
  group_of_about : ∀ m, About m → m.groupBase = grp

namespace HouseEntry

theorem userFind_handle (g : GroupHouse) (m : Message) (k : UserKey) :
    (g.handle m).house.userFind k = m.putUser m.groupBase k.node (g.house.userFind k) := by
  obtain ⟨id, sender, seq, gb, body⟩ := m
  cases body with
  | user u =>
    cases id with
    | user =>
      have hupdate := GroupHouse.userFind_userUpdate g u k
      by_cases hnode : u.id.node = k.node
      · rw [if_pos hnode, House.userFind_congr hnode] at hupdate
        simpa [GroupHouse.handle, Message.putUser, Message.aboutUser, hnode] using hupdate
      · rw [if_neg hnode] at hupdate
        simpa [GroupHouse.handle, Message.putUser, Message.aboutUser, hnode] using hupdate
    | userLeft =>
      have herase := GroupHouse.userFind_userErase g u.id k
      simpa [GroupHouse.handle, Message.putUser, Message.aboutUser] using herase
    | _ => rfl
  | room r =>
    cases id with
    | room => exact GroupHouse.userFind_roomUpdate g r k
    | _ => rfl
  | _ => cases id <;> rfl

theorem roomFind_handle (g : GroupHouse) (m : Message) (rid : String) :
    (g.handle m).house.roomFind rid = m.putRoom m.groupBase rid (g.house.roomFind rid) := by
  obtain ⟨id, sender, seq, gb, body⟩ := m
  cases body with
  | user u =>
    cases id with
    | user => exact GroupHouse.roomFind_userUpdate g u rid
    | _ => rfl
  | room r =>
    cases id with
    | room =>
      simpa [GroupHouse.handle, Message.putRoom, Message.aboutRoom] using
        GroupHouse.roomFind_roomUpdate g r rid
    | roomRemove =>
      simpa [GroupHouse.handle, Message.putRoom, Message.aboutRoom] using
        GroupHouse.roomFind_roomErase g r.id rid
    | _ => rfl
  | _ => cases id <;> rfl

theorem group_of_aboutUser {m : Message} {grp : Int} {n : Option Node}
    (h : m.aboutUser = some (grp, n)) : m.groupBase = grp := by
  unfold Message.aboutUser at h
  split at h <;> cases h <;> rfl

theorem group_of_aboutRoom {m : Message} {grp : Int} {rid : String}
    (h : m.aboutRoom = some (rid, grp)) : m.groupBase = grp := by
  unfold Message.aboutRoom at h
  split at h <;> cases h <;> rfl

/-- The entry of the node of a key. -/
def user (grp : Int) (k : UserKey) : HouseEntry User where
  grp
  look g := g.house.userFind k
  About m := m.aboutUser = some (grp, k.node)
  put m := m.putUser grp k.node
  look_handle g m hgrp := hgrp ▸ userFind_handle g m k
  put_of_not_about _ _ h := if_neg h
  group_of_about _ := group_of_aboutUser

/-- The entry of a room. -/
def room (grp : Int) (rid : String) : HouseEntry Room where
  grp
  look g := g.house.roomFind rid
  About m := m.aboutRoom = some (rid, grp)
  put m := m.putRoom grp rid
  look_handle g m hgrp := hgrp ▸ roomFind_handle g m rid
  put_of_not_about _ _ h := if_neg h
  group_of_about _ := group_of_aboutRoom

instance (grp : Int) (k : UserKey) : DecidablePred (user grp k).About := fun m =>
  inferInstanceAs (Decidable (m.aboutUser = some (grp, k.node)))

instance (grp : Int) (rid : String) : DecidablePred (room grp rid).About := fun m =>
  inferInstanceAs (Decidable (m.aboutRoom = some (rid, grp)))

variable {α : Type} (p : HouseEntry α)

/-- Messages that are about something else leave the entry. -/
theorem foldr_put_of_not_about {ms : List Message} (h : ∀ m ∈ ms, ¬ p.About m) (o : Option α) :
    ms.foldr p.put o = o := by
  induction ms with
  | nil => rfl
  | cons m ms ih =>
    obtain ⟨hm, hms⟩ := List.forall_mem_cons.1 h
    rw [List.foldr_cons, ih hms, p.put_of_not_about m o hm]

/-- A message may be taken in before the others when none of them is about the same. -/
theorem put_foldr {m : Message} {ms : List Message}
    (h : ∀ m' ∈ ms, p.About m → ¬ p.About m') (o : Option α) :
    p.put m (ms.foldr p.put o) = ms.foldr p.put (p.put m o) := by
  by_cases hm : p.About m
  · have hms : ∀ m' ∈ ms, ¬ p.About m' := fun m' hm' => h m' hm' hm
    rw [p.foldr_put_of_not_about hms, p.foldr_put_of_not_about hms]
  · rw [p.put_of_not_about m _ hm, p.put_of_not_about m _ hm]

/-- The messages that are about the entry are handled one after the other. -/
def Apart (s : HouseApp) : AppEvent → Prop
  | .message m => p.About m → ∀ m' ∈ s.handling, ¬ p.About m'
  | _ => True

/-- No message that is being handled is about the entry. -/
def Settled (s : HouseApp) : Prop := ∀ m ∈ s.handling, ¬ p.About m

instance [DecidablePred p.About] (s : HouseApp) (e : AppEvent) : Decidable (p.Apart s e) :=
  match e with
  | .message m => inferInstanceAs (Decidable (p.About m → ∀ m' ∈ s.handling, ¬ p.About m'))
  | .handled => isTrue trivial
  | .ownUser _ => isTrue trivial

instance [DecidablePred p.About] (s : HouseApp) : Decidable (p.Settled s) :=
  inferInstanceAs (Decidable (∀ m ∈ s.handling, ¬ p.About m))

/-- `house_model` is ahead of `house_model_prev` by the messages that are being handled, and it has
the reservations. -/
structure Late (fill : α → α) (s : HouseApp) : Prop where
  apart : s.handling.Pairwise fun m m' => p.About m → ¬ p.About m'
  ahead : ∀ g g', s.client.house.houseFind p.grp = some g → s.prev.houseFind p.grp = some g' →
    p.look g = (s.handling.foldr p.put (p.look g')).map fill

variable {p}

theorem Late.eq_map {fill : α → α} {s : HouseApp} (h : p.Late fill s) (hs : p.Settled s)
    {g g' : GroupHouse} (hg : s.client.house.houseFind p.grp = some g)
    (hg' : s.prev.houseFind p.grp = some g') : p.look g = (p.look g').map fill := by
  rw [h.ahead g g' hg hg', p.foldr_put_of_not_about hs]

/-- What a message makes of the entry of its group. -/
theorem look_of_handleModelUpdate {hm hm' : ModelHouse} {m : Message}
    (hupd : hm.handleModelUpdate m = some hm') {g' : GroupHouse}
    (hg' : hm'.houseFind p.grp = some g') :
    ∃ g, hm.houseFind p.grp = some g ∧ p.look g' = p.put m (p.look g) := by
  rw [houseFind_handleModelUpdate hupd] at hg'
  split at hg'
  · rename_i hgrp
    obtain ⟨g, hg, rfl⟩ := Option.map_eq_some_iff.1 hg'
    exact ⟨g, hg, p.look_handle g m hgrp⟩
  · rename_i hgrp
    refine ⟨g', hg', (p.put_of_not_about m _ fun habout => hgrp ?_).symm⟩
    exact p.group_of_about m habout

/-- A message is taken in by the first model. -/
theorem Late.taken {fill fill' : α → α} {s s' : HouseApp} {m : Message} (h : p.Late fill s)
    (hupd : s.client.house.handleModelUpdate m = some s'.client.house) (hprev : s'.prev = s.prev)
    (hnow : s'.handling = m :: s.handling) (hapart : p.Apart s (.message m))
    (hfill : ∀ g (o : Option α), s.client.house.houseFind p.grp = some g → p.look g = o.map fill →
      p.put m (p.look g) = (p.put m o).map fill') : p.Late fill' s' where
  apart := by
    rw [hnow]
    exact h.apart.cons fun m' hm' hm => hapart hm m' hm'
  ahead g g' hg hg' := by
    obtain ⟨g₀, hg₀, hlook⟩ := look_of_handleModelUpdate hupd hg
    rw [hprev] at hg'
    rw [hlook, hnow, List.foldr_cons]
    exact hfill g₀ _ hg₀ (h.ahead g₀ g' hg₀ hg')

/-- The innermost message is taken in by the second model. -/
theorem Late.handled {fill fill' : α → α} {s s' : HouseApp} {m : Message} (h : p.Late fill s)
    (hnow : s.handling = m :: s'.handling)
    (hupd : s.prev.handleModelUpdate m = some s'.prev)
    (hfill : ∀ g, s'.client.house.houseFind p.grp = some g →
      ∃ g₀, s.client.house.houseFind p.grp = some g₀ ∧
        ∀ o : Option α, p.look g₀ = o.map fill → p.look g = o.map fill') : p.Late fill' s' := by
  obtain ⟨hapart, hrest⟩ := List.pairwise_cons.1 (hnow ▸ h.apart)
  refine ⟨hrest, fun g g' hg hg' => ?_⟩
  obtain ⟨g₀, hg₀, hlook⟩ := hfill g hg
  obtain ⟨g₁, hg₁, hprev⟩ := look_of_handleModelUpdate hupd hg'
  have hahead := h.ahead g₀ g₁ hg₀ hg₁
  rw [hnow, List.foldr_cons, p.put_foldr hapart, ← hprev] at hahead
  exact hlook _ hahead

end HouseEntry

/-! ## The reservations of one user -/

namespace Reserved

variable {t : Reserved} {grp : Int} {k : UserKey}

theorem fill_taken_of_not_about {s : Client} {m : Message}
    (h : m.aboutUser ≠ some (grp, k.node)) :
    (t.taken s m).fill grp k.node = t.fill grp k.node := by
  obtain ⟨id, sender, seq, gb, body⟩ := m
  have hset : ∀ u : User, some (gb, u.id.node) ≠ some (grp, k.node) →
      (t.set gb u.id.node none).fill grp k.node = t.fill grp k.node :=
    fun u hne => t.fill_set_of_ne (fun hc => hne (by rw [hc.1, hc.2])) none
  cases body with
  | user u =>
    cases id with
    | user =>
      simp only [taken]
      split
      · rfl
      · exact hset u h
    | userLeft => exact hset u h
    | _ => rfl
  | _ => cases id <;> rfl

/-- The entry and its reservation when a message has been taken in. -/
theorem map_fill_taken {s : Client} {m : Message} {g : GroupHouse} {o : Option User}
    (hg : s.house.houseFind grp = some g)
    (ho : g.house.userFind k = o.map (t.fill grp k.node)) :
    m.putUser grp k.node (g.house.userFind k) =
      (m.putUser grp k.node o).map ((t.taken s m).fill grp k.node) := by
  by_cases habout : m.aboutUser = some (grp, k.node)
  · obtain ⟨id, sender, seq, gb, body⟩ := m
    have hsome : (g.house.userFind k).isSome = o.isSome := by rw [ho, Option.isSome_map]
    cases body with
    | user u =>
      cases id with
      | user =>
        obtain ⟨rfl, hnode⟩ := Prod.mk.inj (Option.some.inj habout)
        have hany : (s.house.houseFind gb).any (fun g => (g.house.userFind u.id).isSome) =
            (g.house.userFind k).isSome := by
          rw [hg, Option.any_some, House.userFind_congr hnode]
        simp only [Message.putUser, habout, if_true, taken, hany, ← hsome]
        split
        · exact ho
        · rw [Option.map_some, fill_of_none (hnode ▸ t.set_same gb _ none)]
      | userLeft => simp only [Message.putUser, habout, if_true, Option.map_none]
      | _ => cases habout
    | _ => cases id <;> cases habout
  · rw [Message.putUser, if_neg habout, Message.putUser, if_neg habout, ho,
      fill_taken_of_not_about habout]

end Reserved

/-! ## The switch -/

namespace ModelHouse

/-- To reserve a place changes no room. -/
theorem roomFindIn_setRoomId {hm hm' : ModelHouse} {id : UserKey} {grp : Int} {rid : String}
    (h : hm.setRoomId id grp rid = some hm') (rid' : String) (grp' : Int) :
    hm'.roomFindIn rid' grp' = hm.roomFindIn rid' grp' ∧
      (hm'.houseFind grp').isSome = (hm.houseFind grp').isSome := by
  obtain ⟨g, hg, h⟩ := Option.bind_eq_some_iff.1 h
  cases hf : g.userFind id with
  | none =>
    simp only [hf] at h
    obtain rfl := Option.some.inj h
    exact ⟨rfl, rfl⟩
  | some ui =>
    simp only [hf] at h
    obtain rfl := Option.some.inj h
    unfold roomFindIn
    rw [houseFind_insert]
    split
    · rename_i hgrp
      subst hgrp
      rw [hg]
      exact ⟨House.roomFind_userStore g.house _ rid', rfl⟩
    · exact ⟨rfl, rfl⟩

end ModelHouse

/-- The switch leaves the model, or lets a user in. -/
theorem Client.dispatch_cases {s c : Client} {m : Message} {out : List Message}
    (h : s.dispatch m = some (c, out)) :
    (c.house = s.house ∧ ∀ t : Reserved, t.granted s m = t) ∨
      ∃ rid, s.house.setRoomId m.senderId m.groupBase rid = some c.house ∧
        ∀ t : Reserved, t.granted s m =
          match s.house.userFindIn m.senderId m.groupBase with
          | some ui => t.set m.groupBase ui.id.node (some rid)
          | none => t := by
  obtain ⟨id, sender, seq, gb, body⟩ := m
  have hkeep : ∀ {c : Client} {out : List Message}, some (s, []) = some (c, out) →
      c.house = s.house := by
    rintro _ _ ⟨⟩
    rfl
  have hself : ∀ {self : SelfModel} {out' : List Message},
      some ({ s with self }, out') = some (c, out) → c.house = s.house := by
    rintro _ _ ⟨⟩
    rfl
  cases id with
  | roomJoin =>
    obtain ⟨⟨house, msg⟩, hjoin, hc⟩ := Option.map_eq_some_iff.1 h
    cases hc
    cases body with
    | roomJoin rid pass =>
      have hanswer := handleRoomJoin_ofRoomJoin s.self s.house rid pass sender seq gb
      rw [Message.ofRoomJoin, hjoin] at hanswer
      by_cases hack : decision s.self s.house rid pass = .ack
      · rw [if_pos hack] at hanswer
        obtain ⟨hm, hset, heq⟩ := Option.map_eq_some_iff.1 hanswer.symm
        cases heq
        exact .inr ⟨rid, hset, fun t => if_pos hack⟩
      · rw [if_neg hack] at hanswer
        cases hanswer
        exact .inl ⟨rfl, fun t => if_neg hack⟩
    | _ => simp [handleRoomJoin, Body.asRoomJoin] at hjoin
  | roomJoinAck | roomJoinNack | roomJoinFull | roomJoinPass =>
    exact .inl ⟨hself h, fun t => by cases body <;> rfl⟩
  | _ => exact .inl ⟨hkeep h, fun t => by cases body <;> rfl⟩

/-- A switch that throws lets nobody in: the group is not known. -/
theorem Client.granted_of_dispatch_none {s : Client} {m : Message} (h : s.dispatch m = none)
    (t : Reserved) : t.granted s m = t := by
  obtain ⟨id, sender, seq, gb, body⟩ := m
  cases id with
  | roomJoin =>
    cases body with
    | roomJoin rid pass =>
      have hanswer := handleRoomJoin_ofRoomJoin s.self s.house rid pass sender seq gb
      rw [Message.ofRoomJoin, Option.map_eq_none_iff.1 h] at hanswer
      by_cases hack : decision s.self s.house rid pass = .ack
      · rw [if_pos hack, eq_comm, Option.map_eq_none_iff, setRoomId_eq_none] at hanswer
        simp [Reserved.granted, hack, userFindIn, hanswer]
      · exact if_neg hack
    | _ => rfl
  | roomJoinAck | roomJoinNack | roomJoinFull | roomJoinPass => cases h
  | _ => cases h

/-! ## Runs -/

namespace HouseApp

/-- A model takes a message in when another one that knows the same groups does. -/
theorem isSome_handleModelUpdate {m m' : ModelHouse} {msg : Message}
    (h : (m.houseFind msg.groupBase).isSome = (m'.houseFind msg.groupBase).isSome) :
    (m.handleModelUpdate msg).isSome = (m'.handleModelUpdate msg).isSome := by
  obtain ⟨id, sender, seq, gb, body⟩ := msg
  replace h : (m.houseFind gb).isSome = (m'.houseFind gb).isSome := h
  cases body with
  | user u =>
    cases id with
    | user =>
      cases hm : m.houseFind gb <;> cases hm' : m'.houseFind gb <;> cases hn : u.id.node <;>
        simp [handleModelUpdate, handleUserModelUpdate, handleRoomModelUpdate,
          ModelHouse.userUpdate, hm, hm', hn] at h ⊢
    | userLeft =>
      cases hm : m.houseFind gb <;> cases hm' : m'.houseFind gb <;>
        simp [handleModelUpdate, handleUserModelUpdate, handleRoomModelUpdate, userErase, hm, hm']
          at h ⊢
    | _ => rfl
  | room r =>
    cases id with
    | room =>
      cases hm : m.houseFind gb <;> cases hm' : m'.houseFind gb <;>
        simp [handleModelUpdate, handleUserModelUpdate, handleRoomModelUpdate,
          ModelHouse.roomUpdate, hm, hm'] at h ⊢
    | roomRemove =>
      cases hm : m.houseFind gb <;> cases hm' : m'.houseFind gb <;>
        simp [handleModelUpdate, handleUserModelUpdate, handleRoomModelUpdate, roomErase, hm, hm']
          at h ⊢
    | _ => rfl
  | _ => cases id <;> rfl

theorem isSome_houseFind_update {hm hm' : ModelHouse} {m : Message}
    (h : hm.handleModelUpdate m = some hm') (grp : Int) :
    (hm'.houseFind grp).isSome = (hm.houseFind grp).isSome := by
  rw [houseFind_handleModelUpdate h]
  split
  · exact Option.isSome_map
  · rfl

/-- Both models know the same groups, and so the second takes in whatever the first has. -/
structure Sound (s : HouseApp) : Prop where
  groups : ∀ grp, (s.client.house.houseFind grp).isSome = (s.prev.houseFind grp).isSome
  pending : ∀ m ∈ s.handling, (s.prev.handleModelUpdate m).isSome

/-- What an event does: nothing to the models; the first takes a message in; or the innermost
message is handled, and the second takes it in. -/
theorem step_cases {s : HouseApp} (hs : s.Sound) (e : AppEvent) :
    ((s.step e).1.client.house = s.client.house ∧ (s.step e).1.prev = s.prev ∧
        (s.step e).1.handling = s.handling ∧ ∀ t, Reserved.note t s e = t) ∨
      (∃ m, e = .message m ∧ s.client.house.handleModelUpdate m = some (s.step e).1.client.house ∧
        (s.step e).1.prev = s.prev ∧ (s.step e).1.handling = m :: s.handling ∧
        ∀ t, Reserved.note t s e = t.taken s.client m) ∨
      ∃ m, s.handling = m :: (s.step e).1.handling ∧
        s.client.dispatch m = some ((s.step e).1.client, (s.step e).2) ∧
        s.prev.handleModelUpdate m = some (s.step e).1.prev ∧
        ∀ t, Reserved.note t s e = t.granted s.client m := by
  cases hrun : s.ended with
  | true => exact .inl (by simp [step, Reserved.note, hrun])
  | false =>
    cases e with
    | ownUser self => exact .inl (by simp [step, Reserved.note, hrun])
    | message m =>
      cases hdup : (filterMessage m s.client.filterMap).1 with
      | true => exact .inl (by simp [step, begins_of_dup hdup, Reserved.note, hrun, hdup])
      | false =>
        cases hupd : s.client.house.handleModelUpdate m with
        | none => exact .inl (by simp [step, begins_of_throws hdup hupd, Reserved.note, hrun, hupd])
        | some house =>
          exact .inr (.inl ⟨m, by
            simp [step, begins_of_taken hdup hupd, Reserved.note, hrun, hdup, hupd]⟩)
    | handled =>
      cases hnow : s.handling with
      | nil => exact .inl (by simp [step, finish, Reserved.note, hrun, hnow])
      | cons m ms =>
        obtain ⟨hp, hprev⟩ := Option.isSome_iff_exists.1 (hs.pending m (by simp [hnow]))
        cases hdis : s.client.dispatch m with
        | none =>
          have hgrant := Client.granted_of_dispatch_none hdis
          exact .inl (by simp [step, finish, Reserved.note, hrun, hnow, hdis, hgrant])
        | some r =>
          exact .inr (.inr ⟨m, by simp [step, finish, Reserved.note, hrun, hnow, hdis, hprev]⟩)

theorem isSome_houseFind_dispatch {s c : Client} {m : Message} {out : List Message}
    (h : s.dispatch m = some (c, out)) (grp : Int) :
    (c.house.houseFind grp).isSome = (s.house.houseFind grp).isSome := by
  rcases Client.dispatch_cases h with ⟨hsame, -⟩ | ⟨rid, hset, -⟩
  · rw [hsame]
  · exact (roomFindIn_setRoomId hset "" grp).2

theorem Sound.step {s : HouseApp} (hs : s.Sound) (e : AppEvent) : (s.step e).1.Sound := by
  rcases step_cases hs e with ⟨hhouse, hprev, hnow, -⟩ | ⟨m, -, hupd, hprev, hnow, -⟩ |
    ⟨m, hnow, hdis, hupd, -⟩
  · exact ⟨by rw [hhouse, hprev]; exact hs.groups, by rw [hnow, hprev]; exact hs.pending⟩
  · refine ⟨fun grp => ?_, ?_⟩
    · rw [isSome_houseFind_update hupd, hprev, hs.groups]
    · have hm : (s.prev.handleModelUpdate m).isSome := by
        rw [← isSome_handleModelUpdate (hs.groups m.groupBase), hupd, Option.isSome_some]
      rw [hnow, hprev]
      exact List.forall_mem_cons.2 ⟨hm, hs.pending⟩
  · refine ⟨fun grp => ?_, fun m' hm' => ?_⟩
    · rw [isSome_houseFind_dispatch hdis, isSome_houseFind_update hupd, hs.groups]
    · rw [isSome_handleModelUpdate (isSome_houseFind_update hupd m'.groupBase)]
      exact hs.pending m' (hnow ▸ List.mem_cons_of_mem m hm')

/-- Nothing happens to the models. -/
theorem late_of_same {α : Type} {p : HouseEntry α} {fill : α → α} {s s' : HouseApp}
    (h : p.Late fill s) (hhouse : s'.client.house = s.client.house) (hprev : s'.prev = s.prev)
    (hnow : s'.handling = s.handling) : p.Late fill s' where
  apart := hnow ▸ h.apart
  ahead := by
    rw [hhouse, hprev, hnow]
    exact h.ahead

/-- The switch lets a user in, or not: its entry is filled accordingly. -/
theorem map_fill_granted {s c : Client} {m : Message} {out : List Message} {t : Reserved}
    {grp : Int} {k : UserKey} (h : s.dispatch m = some (c, out)) {g : GroupHouse}
    (hg : c.house.houseFind grp = some g) :
    ∃ g₀, s.house.houseFind grp = some g₀ ∧ ∀ o : Option User,
      g₀.house.userFind k = o.map (t.fill grp k.node) →
        g.house.userFind k = o.map ((t.granted s m).fill grp k.node) := by
  rcases Client.dispatch_cases h with ⟨hsame, hgrant⟩ | ⟨rid, hset, hgrant⟩
  · rw [hsame] at hg
    rw [hgrant]
    exact ⟨g, hg, fun o ho => ho⟩
  · rw [hgrant]
    rcases setRoomId_cases hset with ⟨hnone, hsame⟩ |
      ⟨g₀, ui, g', hg₀, hui, hentry, hg', hrest, hfind⟩
    · rw [hsame] at hg
      rw [hnone]
      exact ⟨g, hg, fun o ho => ho⟩
    · rw [hui]
      by_cases hgrp : m.groupBase = grp
      · subst hgrp
        obtain rfl : g' = g := Option.some.inj (hg'.symm.trans hg)
        refine ⟨g₀, hg₀, fun o ho => ?_⟩
        rw [hfind]
        split
        · rename_i hnode
          -- The entry that is written is the one that is looked at.
          rw [← House.userFind_congr hnode, hentry, ← hnode] at ho
          obtain ⟨w, rfl, hw⟩ := Option.map_eq_some_iff.1 ho.symm
          rw [Option.map_some, ← hnode, Reserved.fill_set_same, hw]
        · rename_i hnode
          rw [Reserved.fill_set_of_ne t (fun hc => hnode hc.2)]
          exact ho
      · refine ⟨g, (hrest grp hgrp).symm.trans hg, fun o ho => ?_⟩
        rw [Reserved.fill_set_of_ne t (fun hc => hgrp hc.1)]
        exact ho

theorem late_user_step {s : HouseApp} (hs : s.Sound) {grp : Int} {k : UserKey} {t : Reserved}
    (h : (HouseEntry.user grp k).Late (t.fill grp k.node) s) {e : AppEvent}
    (he : (HouseEntry.user grp k).Apart s e) :
    (HouseEntry.user grp k).Late ((t.note s e).fill grp k.node) (s.step e).1 := by
  rcases step_cases hs e with ⟨hhouse, hprev, hnow, hnote⟩ | ⟨m, rfl, hupd, hprev, hnow, hnote⟩ |
    ⟨m, hnow, hdis, hupd, hnote⟩
  · rw [hnote]
    exact late_of_same h hhouse hprev hnow
  · rw [hnote]
    exact h.taken hupd hprev hnow he fun g o hg ho => Reserved.map_fill_taken hg ho
  · rw [hnote]
    exact h.handled hnow hupd fun g hg => map_fill_granted hdis hg

theorem late_room_step {s : HouseApp} (hs : s.Sound) {grp : Int} {rid : String}
    (h : (HouseEntry.room grp rid).Late id s) {e : AppEvent}
    (he : (HouseEntry.room grp rid).Apart s e) :
    (HouseEntry.room grp rid).Late id (s.step e).1 := by
  rcases step_cases hs e with ⟨hhouse, hprev, hnow, -⟩ | ⟨m, rfl, hupd, hprev, hnow, -⟩ |
    ⟨m, hnow, hdis, hupd, -⟩
  · exact late_of_same h hhouse hprev hnow
  · refine h.taken hupd hprev hnow he fun g o hg ho => ?_
    rw [Option.map_id] at ho ⊢
    rw [ho]
    rfl
  · refine h.handled hnow hupd fun g hg => ?_
    rcases Client.dispatch_cases hdis with ⟨hsame, -⟩ | ⟨rid', hset, -⟩
    · rw [hsame] at hg
      exact ⟨g, hg, fun o ho => ho⟩
    · obtain ⟨hroom, hsome⟩ := roomFindIn_setRoomId hset rid grp
      rw [show ((s.step e).1.client.house.houseFind grp) = some g from hg, Option.isSome_some,
        eq_comm, Option.isSome_iff_exists] at hsome
      obtain ⟨g₀, hg₀⟩ := hsome
      refine ⟨g₀, hg₀, fun o ho => ?_⟩
      have hg' : (s.step e).1.client.house.houseFind grp = some g := hg
      rw [roomFindIn, roomFindIn, hg', hg₀] at hroom
      exact hroom.trans ho

theorem sound_init (u : User) : (init u).Sound := ⟨fun _ => rfl, fun _ hm => nomatch hm⟩

/-- At the start the models are the same. -/
theorem late_init {α : Type} (p : HouseEntry α) {fill : α → α} (hfill : fill = id) (u : User) :
    p.Late fill (init u) where
  apart := .nil
  ahead g g' hg hg' := by
    obtain rfl : g = g' := Option.some.inj (hg.symm.trans hg')
    rw [hfill, Option.map_id]
    rfl

theorem sound_exec (u : User) (es : List AppEvent) : (machine.exec (init u) es).Sound :=
  machine.invariant_all (I := Sound) (fun _ e hs => hs.step e) (sound_init u) es

theorem late_user_exec (u : User) {es : List AppEvent} {grp : Int} {k : UserKey}
    (hes : machine.Guarded (HouseEntry.user grp k).Apart (init u) es) :
    (HouseEntry.user grp k).Late
      ((machine.observe Reserved.note (init u) (fun _ _ => none) es).fill grp k.node)
      (machine.exec (init u) es) :=
  (machine.invariant_observed
    (R := fun s t => s.Sound ∧ (HouseEntry.user grp k).Late (t.fill grp k.node) s) Reserved.note
    (fun _ _ e h he => ⟨h.1.step e, late_user_step h.1 h.2 he⟩)
    ⟨sound_init u, late_init _ rfl u⟩ hes).2

theorem late_room_exec (u : User) {es : List AppEvent} {grp : Int} {rid : String}
    (hes : machine.Guarded (HouseEntry.room grp rid).Apart (init u) es) :
    (HouseEntry.room grp rid).Late id (machine.exec (init u) es) :=
  (machine.invariant (I := fun s => s.Sound ∧ (HouseEntry.room grp rid).Late id s)
    (fun _ e h he => ⟨h.1.step e, late_room_step h.1 h.2 he⟩)
    ⟨sound_init u, late_init _ rfl u⟩ hes).2

theorem userFindIn_of_late {s : HouseApp} {grp : Int} {k : UserKey} {fill : User → User}
    (hs : s.Sound) (h : (HouseEntry.user grp k).Late fill s)
    (hsettled : (HouseEntry.user grp k).Settled s) (hnode : k.node ≠ none) :
    s.client.house.userFindIn k grp = (s.prev.userFindIn k grp).map fill := by
  have hgroups := hs.groups grp
  have hfind : ∀ g : GroupHouse, g.userFind k = g.house.userFind k := fun g => by
    simp [GroupHouse.userFind, hnode]
  unfold userFindIn
  cases hg : s.client.house.houseFind grp <;> cases hg' : s.prev.houseFind grp
  · rfl
  · rw [hg, hg'] at hgroups
    cases hgroups
  · rw [hg, hg'] at hgroups
    cases hgroups
  · rename_i g g'
    show g.userFind k = (g'.userFind k).map fill
    rw [hfind, hfind]
    exact h.eq_map hsettled hg hg'

theorem roomFindIn_of_late {s : HouseApp} {grp : Int} {rid : String} (hs : s.Sound)
    (h : (HouseEntry.room grp rid).Late id s) (hsettled : (HouseEntry.room grp rid).Settled s) :
    s.client.house.roomFindIn rid grp = s.prev.roomFindIn rid grp := by
  have hgroups := hs.groups grp
  unfold roomFindIn
  cases hg : s.client.house.houseFind grp <;> cases hg' : s.prev.houseFind grp
  · rfl
  · rw [hg, hg'] at hgroups
    cases hgroups
  · rw [hg, hg'] at hgroups
    cases hgroups
  · have heq := h.eq_map hsettled hg hg'
    rw [Option.map_id] at heq
    exact heq

/-- **The model before the message.** In every run `house_model` and `house_model_prev` know the
same groups. A user or a room is the same in both whenever no message that is being handled is about
it (so whenever none is being handled), if messages about it are handled one after the other; but
for the room of a user whose request to join was accepted: `house_model` has the room of the request
until an update of the user is taken over or the user leaves. -/
theorem agree_exec (u : User) (es : List AppEvent) :
    let s := machine.exec (init u) es
    let t := machine.observe Reserved.note (init u) (fun _ _ => none) es
    (∀ grp, (s.client.house.houseFind grp).isSome = (s.prev.houseFind grp).isSome) ∧
      (∀ grp k, k.node ≠ none → machine.Guarded (HouseEntry.user grp k).Apart (init u) es →
        (HouseEntry.user grp k).Settled s →
          s.client.house.userFindIn k grp =
            (s.prev.userFindIn k grp).map (t.fill grp k.node)) ∧
      ∀ grp rid, machine.Guarded (HouseEntry.room grp rid).Apart (init u) es →
        (HouseEntry.room grp rid).Settled s →
          s.client.house.roomFindIn rid grp = s.prev.roomFindIn rid grp := by
  intro s t
  have hs : s.Sound := sound_exec u es
  exact ⟨hs.groups,
    fun grp k hnode hes hsettled => userFindIn_of_late hs (late_user_exec u hes) hsettled hnode,
    fun grp rid hes hsettled => roomFindIn_of_late hs (late_room_exec u hes) hsettled⟩

/-- The host is in its room; a user without a room asks to join it and is let in. -/
def letIn : List AppEvent :=
  [.ownUser { user := { id := ⟨some ⟨1, 1⟩, "h"⟩, roomId := "h:1" }
              hostingRoom := { id := "h:1", maxPlayers := 4 } },
    .message (.ofUser .user { id := ⟨some ⟨2, 1⟩, "b"⟩ } 1 MsgId.dhtGroupBase.code), .handled,
    .message (.ofRoomJoin .roomJoin "h:1" "" ⟨some ⟨2, 1⟩, "b"⟩ 2 MsgId.dhtGroupBase.code), .handled]

/-- The place is reserved in `house_model`, and `house_model_prev` has the user in no room. -/
theorem not_same_of_ack :
    let s := machine.exec (init {}) letIn
    (s.client.house.userFindIn ⟨some ⟨2, 1⟩, "b"⟩ MsgId.dhtGroupBase.code).map (·.roomId) =
        some "h:1" ∧
      (s.prev.userFindIn ⟨some ⟨2, 1⟩, "b"⟩ MsgId.dhtGroupBase.code).map (·.roomId) = some "" := by
  decide

/-- The host's own room comes from the group, and then the host itself: its window opens with a box.
While the box is there the host is away, and another user comes. -/
def inBox : List AppEvent :=
  let h : User := { id := ⟨some ⟨1, 1⟩, "h"⟩, roomId := "h:1" }
  [.message (.ofRoom .room { id := "h:1", topic := "race", ownerId := h.id } h.id 1
      MsgId.dhtGroupBase.code), .handled,
    .message (.ofUser .user h 2 MsgId.dhtGroupBase.code),
    .message (.ofUser .user { h with status := .away } 3 MsgId.dhtGroupBase.code), .handled,
    .message (.ofUser .user { id := ⟨some ⟨2, 1⟩, "b"⟩ } 1 MsgId.dhtGroupBase.code), .handled,
    .handled]

/-- `house_model_prev` takes the older update of the host in after the newer one, and keeps it. -/
theorem not_same_of_nested :
    let s := machine.exec (init {}) inBox
    s.handling = [] ∧
      (s.client.house.userFindIn ⟨some ⟨1, 1⟩, "h"⟩ MsgId.dhtGroupBase.code).map (·.status) =
        some .away ∧
      (s.prev.userFindIn ⟨some ⟨1, 1⟩, "h"⟩ MsgId.dhtGroupBase.code).map (·.status) =
        some .chatting := by
  decide

/-- The other user is the same in both models, although it came in the box. -/
theorem agree_exec_inBox :
    let s := machine.exec (init {}) inBox
    s.client.house.userFindIn ⟨some ⟨2, 1⟩, "b"⟩ MsgId.dhtGroupBase.code =
      (s.prev.userFindIn ⟨some ⟨2, 1⟩, "b"⟩ MsgId.dhtGroupBase.code).map
        ((machine.observe Reserved.note (init {}) (fun _ _ => none) inBox).fill
          MsgId.dhtGroupBase.code (some ⟨2, 1⟩)) :=
  (agree_exec {} inBox).2.1 MsgId.dhtGroupBase.code ⟨some ⟨2, 1⟩, "b"⟩ (by decide) (by decide)
    (by decide)

end HouseApp

end RvHouse
