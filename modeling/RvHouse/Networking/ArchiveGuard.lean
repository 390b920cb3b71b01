import RvHouse.Lib.Throwing
import RvHouse.Networking.Handler

/-!
# The archive that `recv` reads

While `netcomgrp_adapter` hands a packet of user data to `user_data_available`, its member
`_tmpiarchive` points to the archive of the packet, and `recv` reads from there. A `var_guard` is
to set the pointer back to NULL when the call is over. Its constructor takes the pointer by value,
so that what the guard remembers to restore is a parameter that is gone.

What the adapter is built on is a parameter: the archive of boost, the group that sends and the
receiver of the notifications, any of which may throw (`Surroundings`). `idle_iff_guarded` says in
which runs the pointer is NULL whenever `data_received` has returned: those in which no
`user_data_available` returns. After an exception the pointer is NULL, for the handlers of
`data_received` say so themselves. `dataReceived_handler` connects the adapter with the handler that
is built on it.
-/

namespace RvHouse

/-- What an adapter calls. An archive has the states `A`. -/
structure Surroundings (A : Type) where
  /-- `boost::archive::text_iarchive`, constructed on the bytes. -/
  iarchive : List UInt8 → Option A
  /-- `ia >> hdr`, of which the payload type is read. -/
  header : A → Option (Int × A)
  /-- `ia >> user_info`. -/
  user : A → Option UserWire
  /-- `ia >> room_info`. -/
  room : A → Option RoomWire
  /-- `netcomgrp::group::send`. -/
  send : Payload → Node → Option Unit
  /-- `NotifyType::user_update`, with the two references as it leaves them. -/
  userUpdate : User → User → Node → Throwing House (User × User)
  /-- `NotifyType::room_update`. -/
  roomUpdate : Room → Node → Throwing House Unit
  /-- `NotifyType::user_data_available`, which reads the archive by `recv`. -/
  userDataAvailable : User → Node → Throwing (House × A) Unit

/-- `netcomgrp_adapter`; `tmpiarchive` is the archive that the pointer designates. -/
structure Adapter (A : Type) where
  house : House := {}
  selfUser : User := {}
  selfRoom : Room := {}
  tmpiarchive : Option A := none

/-- What a reference of type `VarType &` may refer to here. -/
inductive VarRef where
  /-- The member of the adapter. -/
  | tmpiarchive
  /-- The parameter of the constructor of the guard, whose life ends with the constructor. -/
  | parameter

/-- `netcomgrp_adapter::var_guard`. -/
structure VarGuard (A : Type) where
  var : VarRef
  val : Option A

/-- `var_guard(VarType v)`. -/
def VarGuard.make {A : Type} (v : Option A) : VarGuard A := ⟨.parameter, v⟩

/-- `~var_guard`. What is written to the parameter reaches no member. -/
def VarGuard.destroy {A : Type} (g : VarGuard A) (s : Adapter A) : Adapter A :=
  match g.var with
  | .tmpiarchive => { s with tmpiarchive := g.val }
  | .parameter => s

namespace Adapter

open Throwing

variable {A : Type} (e : Surroundings A)

/-- `id_user_req` and so on. -/
def idUserReq : Int := 1

def idUserUpdate : Int := 2

def idUserData : Int := 3

def idRoomUpdate : Int := 4

/-- A notification is given the house. -/
def notify {α : Type} (m : Throwing House α) : Throwing (Adapter A) α :=
  onPart house (fun h s => { s with house := h }) m

/-- A notification that may call `recv` besides, which reads through the pointer. -/
def notifyData (ia : A) (m : Throwing (House × A) Unit) : Throwing (Adapter A) Unit :=
  onPart (fun s => (s.house, ia)) (fun p s => { s with house := p.1, tmpiarchive := some p.2 }) m

/-- `netcomgrp_adapter::_recv_user_req`. -/
def recvUserReq (n : Node) (now : Int) : Throwing (Adapter A) Unit := do
  let s ← get
  let (self, w) := s.selfUser.save now
  modify fun s => { s with selfUser := self }
  ofOption (e.send (.userUpdate w) n)
  if self.roomId ≠ "" ∧ self.roomId = s.selfRoom.id then
    ofOption (e.send (.roomUpdate s.selfRoom.toWire) n)
  else pure ()

/-- `netcomgrp_adapter::_recv_user_data`. -/
def recvUserData (ia : A) (n : Node) : Throwing (Adapter A) Unit := do
  let s ← get
  match s.house.userFind (.ofNode n) with
  | none => pure ()
  | some ui =>
    let g := VarGuard.make s.tmpiarchive
    inScope g.destroy do
      modify fun s => { s with tmpiarchive := some ia }
      notifyData ia (e.userDataAvailable ui n)

/-- `netcomgrp_adapter::_recv_room_update`. -/
def recvRoomUpdate (ia : A) (n : Node) : Throwing (Adapter A) Unit := do
  let w ← ofOption (e.room ia)
  let roomInfo := w.toRoom
  let s ← get
  if roomInfo.id = "" then pure ()
  else
    match s.house.roomFind roomInfo.id with
    | some ri =>
      match s.house.userFind ri.ownerId with
      | none => pure ()
      | some ui =>
        if ui.id.node = some n then
          let ri := ri.assign roomInfo
          modify fun s => { s with house := s.house.roomStore ri }
          notify (e.roomUpdate ri n)
        else pure ()
    | none =>
      match s.house.roomInsert roomInfo with
      | none => pure ()
      | some h =>
        modify fun s => { s with house := h }
        notify (e.roomUpdate roomInfo n)

/-- `netcomgrp_adapter::_recv_user_update`. -/
def recvUserUpdate (ia : A) (n : Node) (now : Int) : Throwing (Adapter A) Unit := do
  let s ← get
  match s.house.userFind (.ofNode n) with
  | none => pure ()
  | some ui =>
    let w ← ofOption (e.user ia)
    let userInfo := (User.ofNode n now).load w now
    if userInfo.id.eqv {} then pure ()
    else
      let r ← notify (e.userUpdate ui userInfo n)
      modify fun s => { s with house := s.house.userStore (r.1.assign r.2) }

/-- The block under `try` in `netcomgrp_adapter::data_received`. -/
def tryReceive (data : List UInt8) (n : Node) (now : Int) : Throwing (Adapter A) Unit := do
  let ia ← ofOption (e.iarchive data)
  let (payloadType, ia) ← ofOption (e.header ia)
  if payloadType = idUserReq then recvUserReq e n now
  else if payloadType = idUserData then recvUserData e ia n
  else if payloadType = idRoomUpdate then recvRoomUpdate e ia n
  else if payloadType = idUserUpdate then recvUserUpdate e ia n now
  else pure ()

/-- `netcomgrp_adapter::data_received`. Both handlers set the pointer to NULL. -/
def dataReceived (data : List UInt8) (n : Node) (now : Int) (s : Adapter A) : Adapter A :=
  catchAll (fun s => { s with tmpiarchive := none }) (tryReceive e data n now) s

/-- What a call of `recv` comes to. -/
inductive Recvd (α : Type) where
  /-- `assert(0)`. -/
  | assertFails
  /-- The archive is read, and may throw. -/
  | read (x : Option α)

/-- `netcomgrp_adapter::recv`, `read` being `>>` for the type of the data. -/
def recv {α : Type} (s : Adapter A) (read : A → Option α) : Recvd α :=
  match s.tmpiarchive with
  | none => .assertFails
  | some ia => .read (read ia)

/-! ## One call -/

variable {e}

theorem keeps_notify {α : Type} (m : Throwing House α) :
    Keeps tmpiarchive (notify m : Throwing (Adapter A) α) :=
  fun _ => rfl

theorem keeps_recvUserReq (n : Node) (now : Int) : Keeps tmpiarchive (recvUserReq e n now) := by
  refine keeps_bind keeps_get fun s => keeps_bind (keeps_modify fun _ => rfl) fun _ => ?_
  refine keeps_bind (keeps_ofOption _) fun _ => keeps_ite (keeps_ofOption _) (keeps_pure ())

theorem keeps_recvRoomUpdate (ia : A) (n : Node) : Keeps tmpiarchive (recvRoomUpdate e ia n) := by
  refine keeps_bind (keeps_ofOption _) fun w => keeps_bind keeps_get fun s => ?_
  refine keeps_ite (keeps_pure ()) ?_
  split
  · split
    · exact keeps_pure ()
    · refine keeps_ite ?_ (keeps_pure ())
      exact keeps_bind (keeps_modify fun _ => rfl) fun _ => keeps_notify _
  · split
    · exact keeps_pure ()
    · exact keeps_bind (keeps_modify fun _ => rfl) fun _ => keeps_notify _

theorem keeps_recvUserUpdate (ia : A) (n : Node) (now : Int) :
    Keeps tmpiarchive (recvUserUpdate e ia n now) := by
  refine keeps_bind keeps_get fun s => ?_
  split
  · exact keeps_pure ()
  · refine keeps_bind (keeps_ofOption _) fun w => keeps_ite (keeps_pure ()) ?_
    exact keeps_bind (keeps_notify _) fun r => keeps_modify fun _ => rfl

theorem recvUserData_of_unknown {s : Adapter A} {n : Node}
    (hfind : s.house.userFind (.ofNode n) = none) (ia : A) :
    recvUserData e ia n s = (some (), s) := by
  unfold recvUserData
  rw [bind_get]
  simp only [hfind]
  rfl

/-- The pointer still designates the archive after the call, whichever way it ended: the guard has
restored another object. -/
theorem recvUserData_of_known {s : Adapter A} {n : Node} {ui : User}
    (hfind : s.house.userFind (.ofNode n) = some ui) (ia : A) :
    recvUserData e ia n s =
      ((e.userDataAvailable ui n (s.house, ia)).1,
        { s with
          house := (e.userDataAvailable ui n (s.house, ia)).2.1
          tmpiarchive := some (e.userDataAvailable ui n (s.house, ia)).2.2 }) := by
  unfold recvUserData
  rw [bind_get]
  simp only [hfind]
  rfl

/-- The payload type that the bytes begin with, and the archive behind the header. -/
def opened (e : Surroundings A) (data : List UInt8) : Option (Int × A) :=
  (e.iarchive data).bind e.header

/-- The packet is user data of a sender that the house knows, and `user_data_available` returns. -/
def Delivers (e : Surroundings A) (data : List UInt8) (n : Node) (s : Adapter A) : Prop :=
  ∃ ia ui, opened e data = some (idUserData, ia) ∧ s.house.userFind (.ofNode n) = some ui ∧
    (e.userDataAvailable ui n).Returns (s.house, ia)

theorem tryReceive_of_none {data : List UInt8} (h : opened e data = none) (n : Node) (now : Int) :
    tryReceive e data n now = throw := by
  unfold opened at h
  unfold tryReceive
  cases hia : e.iarchive data with
  | none => rfl
  | some ia =>
    rw [hia, Option.bind_some] at h
    funext s
    rw [bind_ofOption_some, h]
    rfl

/-- The block runs the case of the payload type. -/
theorem tryReceive_of_some {data : List UInt8} {payloadType : Int} {ia : A}
    (h : opened e data = some (payloadType, ia)) (n : Node) (now : Int) :
    tryReceive e data n now =
      if payloadType = idUserReq then recvUserReq e n now
      else if payloadType = idUserData then recvUserData e ia n
      else if payloadType = idRoomUpdate then recvRoomUpdate e ia n
      else if payloadType = idUserUpdate then recvUserUpdate e ia n now
      else pure () := by
  obtain ⟨ia₀, hia, hhdr⟩ := Option.bind_eq_some_iff.1 h
  funext s
  unfold tryReceive
  rw [hia, bind_ofOption_some, hhdr, bind_ofOption_some]

/-- A call that does not run `user_data_available` leaves the pointer, or sets it to NULL. -/
theorem tmpiarchive_of_keeps {s : Adapter A} (hs : s.tmpiarchive = none)
    {m : Throwing (Adapter A) Unit} (hm : Keeps tmpiarchive m) :
    (catchAll (fun s => { s with tmpiarchive := none }) m s).tmpiarchive = none := by
  by_cases hret : m.Returns s
  · rw [catchAll_of_returns hret, hm s, hs]
  · rw [catchAll_of_throws hret]

theorem tmpiarchive_recvUserData_iff {s : Adapter A} (hs : s.tmpiarchive = none) (ia : A)
    (n : Node) :
    (catchAll (fun s => { s with tmpiarchive := none }) (recvUserData e ia n) s).tmpiarchive =
        none ↔
      ∀ ui, s.house.userFind (.ofNode n) = some ui →
        ¬ (e.userDataAvailable ui n).Returns (s.house, ia) := by
  cases hfind : s.house.userFind (.ofNode n) with
  | none =>
    have hret : (recvUserData e ia n).Returns s := by
      unfold Returns
      rw [recvUserData_of_unknown hfind]
      rfl
    rw [catchAll_of_returns hret, recvUserData_of_unknown hfind]
    exact iff_of_true hs fun ui hui => by cases hui
  | some ui =>
    have hsame : (recvUserData e ia n).Returns s ↔
        (e.userDataAvailable ui n).Returns (s.house, ia) := by
      unfold Returns
      rw [recvUserData_of_known hfind]
    simp only [Option.some.injEq, forall_eq', ← hsame]
    by_cases hret : (recvUserData e ia n).Returns s
    · rw [catchAll_of_returns hret, recvUserData_of_known hfind]
      exact iff_of_false (Option.some_ne_none _) (not_not_intro hret)
    · rw [catchAll_of_throws hret]
      exact iff_of_true rfl hret

/-- The pointer is NULL, so that `recv` hits its guard. -/
structure Idle (s : Adapter A) : Prop where
  null : s.tmpiarchive = none
  guarded : ∀ {α : Type} (read : A → Option α), s.recv read = .assertFails

theorem idle_iff {s : Adapter A} : s.Idle ↔ s.tmpiarchive = none := by
  refine ⟨Idle.null, fun h => ⟨h, fun read => ?_⟩⟩
  unfold recv
  rw [h]

/-- Exactly the calls that deliver user data leave the pointer set. -/
theorem idle_dataReceived_iff {s : Adapter A} (hs : s.Idle) (data : List UInt8) (n : Node)
    (now : Int) : (dataReceived e data n now s).Idle ↔ ¬ Delivers e data n s := by
  rw [idle_iff] at hs ⊢
  unfold dataReceived
  cases hopen : opened e data with
  | none =>
    rw [tryReceive_of_none hopen]
    refine iff_of_true (tmpiarchive_of_keeps hs keeps_throw) ?_
    rintro ⟨ia, ui, hdata, -⟩
    rw [hopen] at hdata
    cases hdata
  | some p =>
    obtain ⟨payloadType, ia⟩ := p
    rw [tryReceive_of_some hopen]
    by_cases hdata : payloadType = idUserData
    · subst hdata
      rw [if_neg (by decide), if_pos rfl, tmpiarchive_recvUserData_iff hs]
      unfold Delivers
      simp only [hopen, Option.some.injEq, Prod.mk.injEq, true_and]
      constructor
      · rintro h ⟨_, ui, rfl, hui, hret⟩
        exact h ui hui hret
      · exact fun h ui hui hret => h ⟨ia, ui, rfl, hui, hret⟩
    · rw [if_neg hdata]
      refine iff_of_true (tmpiarchive_of_keeps hs ?_) ?_
      · refine keeps_ite (keeps_recvUserReq n now) (keeps_ite (keeps_recvRoomUpdate ia n) ?_)
        exact keeps_ite (keeps_recvUserUpdate ia n now) (keeps_pure ())
      · rintro ⟨ia', ui, hdata', -⟩
        rw [hopen] at hdata'
        cases hdata'
        exact hdata rfl

end Adapter

/-! ## Runs -/

/-- What happens to an adapter. -/
inductive AdapterEvent (A : Type) where
  | dataReceived (e : Surroundings A) (data : List UInt8) (n : Node) (now : Int)
  /-- Any other call: none of them mentions `_tmpiarchive`. -/
  | other (house : House) (selfUser : User) (selfRoom : Room)

namespace Adapter

variable {A : Type}

/-- One event. -/
def step (s : Adapter A) : AdapterEvent A → Adapter A × List Empty
  | .dataReceived e data n now => (dataReceived e data n now s, [])
  | .other house selfUser selfRoom => ({ s with house, selfUser, selfRoom }, [])

/-- The adapter as a machine. -/
def machine : Mealy (Adapter A) (AdapterEvent A) Empty := ⟨step⟩

/-- The event delivers no user data. -/
def Undelivered (s : Adapter A) : AdapterEvent A → Prop
  | .dataReceived e data n _ => ¬ Delivers e data n s
  | .other _ _ _ => True

theorem idle_step_iff {s : Adapter A} (hs : s.Idle) (e : AdapterEvent A) :
    (s.step e).1.Idle ↔ s.Undelivered e := by
  cases e with
  | dataReceived e data n now => exact idle_dataReceived_iff hs data n now
  | other house selfUser selfRoom =>
    have hnull := idle_iff.1 hs
    exact iff_of_true (idle_iff.2 hnull) trivial

/-- **When the pointer is restored.** From its construction on, the adapter has a NULL pointer after
every call in the runs in which no user data is delivered, and in no others. -/
theorem idle_iff_guarded (es : List (AdapterEvent A)) :
    (∀ p, p <+: es → (machine.exec {} p : Adapter A).Idle) ↔ machine.Guarded Undelivered {} es :=
  machine.forall_along_iff_guarded (I := Idle) (fun _ e hs => idle_step_iff hs e) (idle_iff.2 rfl)
    es

end Adapter

/-! ## The handler of a group -/

/-- The body holds what `user_data_available` reads after the header. -/
def PduHeader.fits (hdr : PduHeader) : PduBody → Bool
  | .none => !([PduId.message, .messagePrivate, .messageNotification, .privateRefused, .roomLaunch,
      .roomKick, .roomJoin].contains hdr.id)
  | .message _ _ => !([PduId.roomLaunch, .roomKick, .roomJoin].contains hdr.id)
  | .roomJoin _ _ => !([PduId.message, .messagePrivate, .messageNotification, .privateRefused,
      .roomLaunch, .roomKick].contains hdr.id)
  | .roomCommand _ _ => !([PduId.message, .messagePrivate, .messageNotification, .privateRefused,
      .roomJoin].contains hdr.id)

/-- What the handler of a group is to its adapter, the bytes being the packet that `parse` finds in
them. -/
def handlerSurroundings (base : Int) (parse : List UInt8 → Payload) : Surroundings Payload where
  iarchive data := some (parse data)
  header
    | .userReq => some (Adapter.idUserReq, .userReq)
    | .userUpdate w => some (Adapter.idUserUpdate, .userUpdate w)
    | .userData hdr body => some (Adapter.idUserData, .userData hdr body)
    | .roomUpdate w => some (Adapter.idRoomUpdate, .roomUpdate w)
    | .unrecognized payloadType => some (payloadType, .unrecognized payloadType)
    | .malformed => none
  user
    | .userUpdate w => some w
    | _ => none
  room
    | .roomUpdate w => some w
    | _ => none
  send _ _ := some ()
  userUpdate old upd _ h :=
    let r := userUpdate base h old upd
    (some (r.old, r.upd), r.house)
  roomUpdate r n h := (some (), (roomUpdate base h r n).1)
  userDataAvailable _ _ p :=
    match p.2 with
    | .userData hdr body => (if hdr.fits body then some () else none, p)
    | _ => (none, p)

namespace Adapter

open Throwing

/-- The adapter of a handler; the pointer is the rest. -/
def ofHandler (s : Handler) (t : Option Payload) : Adapter Payload :=
  ⟨s.house, s.selfUser, s.selfRoom, t⟩

theorem catchAll_of_eq {s s' : Adapter Payload} {m : Throwing (Adapter Payload) Unit}
    (h : m s = (some (), s')) (handler : Adapter Payload → Adapter Payload) :
    catchAll handler m s = s' := by
  unfold catchAll
  rw [h]

section

variable (s : Handler) (t : Option Payload) (parse : List UInt8 → Payload) (n : Node)

theorem recvUserReq_handler (now : Int) :
    recvUserReq (handlerSurroundings s.grpMsgBase parse) n now (ofHandler s t) =
      (some (), ofHandler (s.recvUserReq n now).1 t) := by
  unfold recvUserReq Handler.recvUserReq
  rw [bind_get]
  dsimp only [ofHandler]
  cases s.selfUser.save now with
  | mk self w =>
    dsimp only
    rw [bind_modify]
    show (ofOption (some ()) >>= _) _ = _
    rw [bind_ofOption_some]
    by_cases hroom : self.roomId ≠ "" ∧ self.roomId = s.selfRoom.id
    · exact congrFun (if_pos hroom) _
    · exact congrFun (if_neg hroom) _

theorem recvUserUpdate_handler (w : UserWire) (now : Int) :
    recvUserUpdate (handlerSurroundings s.grpMsgBase parse) (.userUpdate w) n now (ofHandler s t) =
      (some (), ofHandler (s.recvUserUpdate w n now).1 t) := by
  unfold recvUserUpdate Handler.recvUserUpdate
  rw [bind_get]
  dsimp only [ofHandler]
  cases s.house.userFind (.ofNode n) with
  | none => rfl
  | some ui =>
    show (ofOption (some w) >>= _) _ = _
    rw [bind_ofOption_some]
    by_cases hempty : ((User.ofNode n now).load w now).id.eqv {} = true
    · simp only [if_pos hempty]
      rfl
    · simp only [if_neg hempty]
      rfl

theorem recvRoomUpdate_handler (w : RoomWire) :
    recvRoomUpdate (handlerSurroundings s.grpMsgBase parse) (.roomUpdate w) n (ofHandler s t) =
      (some (), ofHandler (s.recvRoomUpdate w n).1 t) := by
  unfold recvRoomUpdate Handler.recvRoomUpdate
  show (ofOption (some w) >>= _) _ = _
  rw [bind_ofOption_some, bind_get]
  dsimp only [ofHandler]
  by_cases hid : w.toRoom.id = ""
  · rw [if_pos hid, if_pos hid]
    rfl
  · rw [if_neg hid, if_neg hid]
    cases s.house.roomFind w.toRoom.id with
    | none =>
      cases s.house.roomInsert w.toRoom <;> rfl
    | some ri =>
      cases hfind : s.house.userFind ri.ownerId with
      | none => simp only [hfind]; rfl
      | some ui =>
        simp only [hfind]
        by_cases hnode : ui.id.node = some n
        · rw [if_pos hnode, if_pos hnode]
          rfl
        · rw [if_neg hnode, if_neg hnode]
          rfl

/-- The handler does not change the house, whether the data can be read or not. -/
theorem recvUserData_handler (hdr : PduHeader) (body : PduBody) :
    ∃ t', catchAll (fun s => { s with tmpiarchive := none })
        (recvUserData (handlerSurroundings s.grpMsgBase parse) (.userData hdr body) n)
        (ofHandler s t) = ofHandler (s.recvUserData hdr body n).1 t' := by
  have hsame : (s.recvUserData hdr body n).1 = s := by
    unfold Handler.recvUserData
    split <;> rfl
  rw [hsame]
  cases hfind : s.house.userFind (.ofNode n) with
  | none => exact ⟨t, catchAll_of_eq (recvUserData_of_unknown (s := ofHandler s t) hfind _) _⟩
  | some ui =>
    have hrun := recvUserData_of_known (e := handlerSurroundings s.grpMsgBase parse)
      (s := ofHandler s t) hfind (.userData hdr body)
    have hkeep : ∀ p : House × Payload,
        ((handlerSurroundings s.grpMsgBase parse).userDataAvailable ui n p).2 = p := by
      rintro ⟨h, data⟩
      cases data <;> rfl
    rw [hkeep] at hrun
    cases hret : ((handlerSurroundings s.grpMsgBase parse).userDataAvailable ui n
        ((ofHandler s t).house, .userData hdr body)).1 with
    | some r =>
      rw [hret] at hrun
      exact ⟨some (.userData hdr body), catchAll_of_eq hrun _⟩
    | none =>
      rw [hret] at hrun
      unfold catchAll
      rw [hrun]
      exact ⟨none, rfl⟩

end

/-- **The adapter and its handler.** The adapter does to the house and to the own user and room what
the handler does. -/
theorem dataReceived_handler {s : Handler} {n : Node} (hopen : s.ipBlock.isBlocked n.ip = false)
    {parse : List UInt8 → Payload} {data : List UInt8}
    (hparse : ∀ payloadType, parse data = .unrecognized payloadType →
      payloadType ∉ [idUserReq, idUserUpdate, idUserData, idRoomUpdate])
    (now : Int) (t : Option Payload) :
    ∃ t', dataReceived (handlerSurroundings s.grpMsgBase parse) data n now (ofHandler s t) =
      ofHandler (s.dataReceived (parse data) n now).1 t' := by
  have hopened : opened (handlerSurroundings s.grpMsgBase parse) data =
      (handlerSurroundings s.grpMsgBase parse).header (parse data) := rfl
  unfold Handler.dataReceived dataReceived
  rw [if_neg (by simp [hopen])]
  cases hp : parse data with
  | userReq =>
    rw [hp] at hopened
    rw [tryReceive_of_some hopened, if_pos rfl]
    exact ⟨t, catchAll_of_eq (recvUserReq_handler s t parse n now) _⟩
  | userUpdate w =>
    rw [hp] at hopened
    rw [tryReceive_of_some hopened, if_neg (by decide), if_neg (by decide), if_neg (by decide),
      if_pos rfl]
    exact ⟨t, catchAll_of_eq (recvUserUpdate_handler s t parse n w now) _⟩
  | roomUpdate w =>
    rw [hp] at hopened
    rw [tryReceive_of_some hopened, if_neg (by decide), if_neg (by decide), if_pos rfl]
    exact ⟨t, catchAll_of_eq (recvRoomUpdate_handler s t parse n w) _⟩
  | userData hdr body =>
    rw [hp] at hopened
    rw [tryReceive_of_some hopened, if_neg (by decide), if_pos rfl]
    exact recvUserData_handler s t parse n hdr body
  | unrecognized payloadType =>
    rw [hp] at hopened
    have hother := hparse payloadType hp
    simp only [List.mem_cons, List.not_mem_nil, or_false, not_or] at hother
    obtain ⟨hreq, hupdate, hdata, hroom⟩ := hother
    rw [tryReceive_of_some hopened, if_neg hreq, if_neg hdata, if_neg hroom, if_neg hupdate]
    exact ⟨t, rfl⟩
  | malformed =>
    rw [hp] at hopened
    rw [tryReceive_of_none hopened]
    exact ⟨none, rfl⟩

/-- A node that is not known asks for the user. -/
theorem dataReceived_handler_userReq :
    ∃ t', dataReceived (handlerSurroundings 0 fun _ => .userReq) [] ⟨1, 1⟩ 5
        (ofHandler (Handler.init 0) none) =
      ofHandler ((Handler.init 0).dataReceived .userReq ⟨1, 1⟩ 5).1 t' := by
  have hopen : (Handler.init 0).ipBlock.isBlocked (1 : UInt32) = false := by decide
  exact dataReceived_handler (s := Handler.init 0) (n := ⟨1, 1⟩) hopen
    (fun _ h => by cases h) 5 none

/-- A node comes, and sends a chat message. -/
def chatted : List (AdapterEvent Payload) :=
  [.other ((({} : House).userInsert (.ofNode ⟨1, 1⟩ 0)).getD {}) {} {},
    .dataReceived
      (handlerSurroundings MsgId.dhtGroupBase.code fun _ =>
        .userData ⟨.message, 1⟩ (.message "" "hello"))
      [] ⟨1, 1⟩ 0]

/-- The message is received, and the pointer designates its archive, which is gone. -/
theorem not_idle_of_chatted :
    ¬ ∀ p, p <+: chatted → (machine.exec {} p : Adapter Payload).Idle := by
  intro h
  have hnull : (machine.exec {} chatted : Adapter Payload).tmpiarchive = none :=
    (h chatted (List.prefix_refl _)).null
  revert hnull
  decide

end Adapter

end RvHouse
