import RvHouse.Chat.User
import RvHouse.Http.FetcherHandler
import RvHouse.Messaging.Message

/-!
# The adapter of the DHT group

`networking::group_adapter_serverless` with its `kadc::dht_operation`. Three activities run side by
side: the DHT client connects, the external address is fetched from a site, and the file of contacts
is updated. Each of them ends in a callback, and the group is joined when the client is connected
and the address is known.

The DHT client and the group are outside libraries: the model has their states as they last reported
them. `connect()` leaves the client connecting, and what comes of that is reported later. The two
kinds of fetch are connections as in `FetcherHandler`, and an `Outside` says how a fetch that an
event starts begins, and what the files are like.
-/

namespace RvHouse

/-- The states of `dht::client`. -/
inductive DhtState where
  | disconnected
  | connecting
  | connected
  | disconnecting
deriving DecidableEq, Repr

/-- The states of `netcomgrp::group`. -/
inductive GroupState where
  | notJoined
  | joining
  | joined
  | leaving
deriving DecidableEq, Repr

/-- `netcomgrp::addr_inet_type`. -/
structure InetAddr where
  ip : UInt32 := 0
  port : UInt16 := 0
deriving DecidableEq, Repr

/-- The configuration. `ip` is `net_serverless/ip`, which may be empty, with the address that it
denotes. `matchIp` is the search for an address in a reply, and what the match denotes. -/
structure ServerlessConf where
  ip : Option UInt32 := none
  port : UInt16 := 0
  ipSite : String := ""
  matchIp : List UInt8 → Option (String × UInt32) := fun _ => none

/-- How `http::fetcher::fetch` ends. -/
inductive FetchStart where
  /-- The URL is not understood. -/
  | throws (what : String)
  /-- The address of the host is not found. -/
  | unresolved
  /-- The connection fails at once. -/
  | connectFailed
  | started
deriving DecidableEq

/-- What an event meets outside: how a fetch of the address and one of the contacts would begin,
whether a reply could be saved and how many contacts are in it. -/
structure Outside where
  ipFetch : FetchStart := .started
  contactsFetch : FetchStart := .started
  saved : Bool := true
  contacts : Int := 1
deriving DecidableEq

/-- `remote_file_saver::http_handler` and the connection that calls it. -/
structure Download where
  conn : FetcherHandler := {}
  notified : Bool := false
deriving DecidableEq

/-- What the adapter does to its surroundings. -/
inductive ServerlessAct where
  /-- `group_adapter_base::connect(_self)`. -/
  | baseConnect (self : User)
  /-- `_group->join`. -/
  | join
  /-- `_group->leave`. -/
  | leave
  /-- `get_node()->connect`. -/
  | dhtConnect
  /-- `_external_ip_fetcher.fetch`. -/
  | fetchIp (site : String)
  /-- `ACE_Reactor::notify`, when `update_contacts` goes ahead. -/
  | notify
  /-- `_remote_file_saver.fetch`. -/
  | fetchContacts
  /-- `_target->dht_update_server_nodes_done`. -/
  | updateServerNodesDone (err : Int)
  /-- `gui_messenger()->send_msg`. -/
  | gui (id : MsgId) (text : String)
deriving DecidableEq

/-- The adapter. `ipFetches` and `downloads` are the connections in flight, `notifications` those of
the reactor that are not delivered yet, `kadcIni` tells whether the file of contacts exists, `out`
is what the present event has led to, and `thrown` that an exception has ended the worker. -/
structure Serverless where
  group : GroupState := .notJoined
  externalIp : InetAddr := {}
  externalIpFetching : Bool := false
  self : User := {}
  connectTry : ℕ := 0
  dhtClient : Option DhtState := none
  updatingContacts : Bool := false
  connectAfterUpdate : Bool := false
  ipFetches : List FetcherHandler := []
  downloads : List Download := []
  notifications : ℕ := 0
  kadcIni : Bool := false
  out : List ServerlessAct := []
  thrown : Bool := false
deriving DecidableEq

/-- What reaches the adapter. -/
inductive ServerlessEvent where
  /-- The user connects. -/
  | connect (self : User)
  /-- The user disconnects. -/
  | disconnect
  | updateServerNodes
  /-- The DHT client reports a state. -/
  | dhtStateChanged (st : DhtState)
  /-- The group reports a state. -/
  | groupStateChanged (st : GroupState)
  /-- The reactor delivers a notification. -/
  | handleException
  /-- A connection that fetches the address goes on. -/
  | ipFetch (i : ℕ) (e : FetchEvent)
  /-- A connection that fetches contacts goes on. -/
  | download (i : ℕ) (e : FetchEvent)
deriving DecidableEq

/-- The calls of the handler that a fetch leads to at once. -/
def FetchStart.calls : FetchStart → List HttpCall
  | .unresolved => [.handleClose]
  | .connectFailed => (FetcherHandler.handleClose {}).2
  | _ => []

/-- `remote_file_saver`'s status. -/
inductive SaverStatus where
  | ok
  | error
deriving DecidableEq

namespace Serverless

/-- Something is done to the surroundings. -/
def emit (s : Serverless) (a : ServerlessAct) : Serverless := { s with out := s.out ++ [a] }

/-! ## Joining the group -/

/-- `group_adapter_base::connect`; an exception of `join` is caught there. -/
def baseConnect (s : Serverless) : Serverless × Int :=
  let s := s.emit (.baseConnect s.self)
  if s.group ≠ .notJoined then (s, -1) else (s.emit .join, 0)

/-- `group_adapter_base::disconnect`. -/
def baseDisconnect (s : Serverless) : Serverless :=
  if s.group = .leaving ∨ s.group = .notJoined then s else s.emit .leave

/-- `group_adapter_serverless::_cond_group_join`. -/
def condGroupJoin (s : Serverless) : Serverless × Int :=
  if s.dhtClient = some .connected ∧ s.externalIp ≠ {} then s.baseConnect else (s, -1)

/-! ## The DHT client and its contacts -/

/-- `group_adapter_serverless::dht_ready_to_connect`. -/
def dhtReadyToConnect (s : Serverless) : Serverless :=
  ({ s with connectTry := s.connectTry + 1, dhtClient := some .connecting } : Serverless).emit
    .dhtConnect

/-- `kadc::dht_operation::update_contacts`. -/
def updateContacts (s : Serverless) : Serverless :=
  if s.updatingContacts then s
  else
    ({ s with updatingContacts := true, notifications := s.notifications + 1 } : Serverless).emit
      .notify

/-- `dht_operation::prepare_connect` of the base class. -/
def basePrepareConnect (s : Serverless) : Serverless × Int :=
  if s.dhtClient = some .disconnected then (s.dhtReadyToConnect, 0) else (s, -1)

/-- `kadc::dht_operation::prepare_connect`. -/
def prepareConnect (s : Serverless) : Serverless × Int :=
  -- A disconnected client is deleted.
  let s := if s.dhtClient = some .disconnected then { s with dhtClient := none } else s
  if s.dhtClient = none then
    if ¬ s.kadcIni then (({ s with connectAfterUpdate := true } : Serverless).updateContacts, 0)
    else (({ s with dhtClient := some .disconnected } : Serverless).dhtReadyToConnect, 0)
  else s.basePrepareConnect

/-- `kadc::dht_operation::prepare_disconnect`; the client stays as it is. -/
def prepareDisconnect (s : Serverless) : Serverless := { s with connectAfterUpdate := false }

/-! ## The external address -/

/-- `group_adapter_serverless::_external_ip_set`. -/
def externalIpSet (c : ServerlessConf) (s : Serverless) (ip : UInt32) : Serverless :=
  let s := { s with externalIp := ⟨ip, c.port⟩ }
  if c.port = 0 ∨ ip = 0 ∨ ip = 0xFFFFFFFF then { s with thrown := true } else s

/-- `group_adapter_serverless::handle_close`. -/
def handleClose (s : Serverless) : Serverless := { s with externalIpFetching := false }

/-- `group_adapter_serverless::handle_error`. -/
def handleError (s : Serverless) (details : String) : Serverless :=
  s.emit (.gui .externalIpFetchFail details)

/-- `group_adapter_serverless::handle_response`. -/
def handleResponse (c : ServerlessConf) (s : Serverless) (content : List UInt8) : Serverless :=
  match c.matchIp content with
  | some (ipstr, ip) =>
    let s := s.externalIpSet c ip
    if s.thrown then s else (s.emit (.gui .externalIpFetchDone ipstr)).condGroupJoin.1
  | none =>
    (s.emit (.gui .externalIpFetchFail "no suitable IP found from response")).condGroupJoin.1

/-- The adapter as the `http::handler` of a fetch; an exception leaves the connection. -/
def ipCall (c : ServerlessConf) (s : Serverless) (call : HttpCall) : Serverless :=
  if s.thrown then s
  else
    match call with
    | .handleResponse content => s.handleResponse c content
    | .handleError _ details => s.handleError details
    | .handleClose => s.handleClose

/-- `group_adapter_serverless::_external_ip_fetch`. -/
def externalIpFetch (c : ServerlessConf) (o : Outside) (s : Serverless) : Serverless :=
  if s.externalIp ≠ {} then s
  else if s.externalIpFetching then s
  else
    match c.ip with
    | some ip => s.externalIpSet c ip
    | none =>
      let s := s.emit (.fetchIp c.ipSite)
      match o.ipFetch with
      | .throws what => s.emit (.gui .externalIpFetchFail what)
      | start =>
        let s := start.calls.foldl (ipCall c) s
        let s := if start = .started then { s with ipFetches := s.ipFetches ++ [{}] } else s
        ({ s with externalIpFetching := true } : Serverless).emit (.gui .externalIpFetching c.ipSite)

/-! ## Requests of the user -/

/-- `group_adapter_serverless::_connect`. -/
def connectNow (c : ServerlessConf) (o : Outside) (s : Serverless) : Serverless :=
  let r := s.condGroupJoin
  if r.2 = 0 then r.1
  else
    let r := r.1.prepareConnect
    if r.2 = 0 then r.1.externalIpFetch c o else r.1

/-- `group_adapter_serverless::connect`. -/
def connect (c : ServerlessConf) (o : Outside) (s : Serverless) (self : User) : Serverless :=
  if s.group ≠ .notJoined then s
  else ({ s with connectTry := 0, self := self } : Serverless).connectNow c o

/-- `group_adapter_serverless::disconnect`. -/
def disconnect (s : Serverless) : Serverless :=
  let s := { s with connectTry := 0 }
  if s.group ≠ .notJoined then s.baseDisconnect else s.prepareDisconnect

/-! ## The update of the contacts -/

/-- `group_adapter_serverless::dht_update_server_nodes_done`. -/
def updateServerNodesDone (c : ServerlessConf) (o : Outside) (s : Serverless) (err : Int) :
    Serverless :=
  let s := s.emit (.updateServerNodesDone err)
  if err = 0 ∧ s.connectTry = 1 then s.connectNow c o else s

/-- `kadc::dht_operation::saver_done`. -/
def saverDone (c : ServerlessConf) (o : Outside) (s : Serverless) (status : SaverStatus) :
    Serverless :=
  let s := { s with updatingContacts := false }
  match status with
  | .error => (s.emit (.gui .dhtUpdNodesFail "")).updateServerNodesDone c o 1
  | .ok =>
    -- The file is written in any case, and deleted again when no contact is in it.
    let s := { s with kadcIni := true }
    if 0 < o.contacts then
      let s := (s.emit (.gui .dhtUpdNodesDone "")).updateServerNodesDone c o 0
      if s.thrown then s
      else if s.connectAfterUpdate then { s.prepareConnect.1 with connectAfterUpdate := false }
      else s
    else
      let s := (s.emit (.gui .dhtUpdNodesFail "")).updateServerNodesDone c o 1
      { s with kadcIni := false }

/-- `http_handler::_do_notify`. -/
def doNotify (c : ServerlessConf) (o : Outside) (s : Serverless × Bool) (status : SaverStatus) :
    Serverless × Bool :=
  (s.1.saverDone c o status, true)

/-- `remote_file_saver::http_handler`, with its flag `_notified`. -/
def downloadCall (c : ServerlessConf) (o : Outside) (s : Serverless × Bool) (call : HttpCall) :
    Serverless × Bool :=
  if s.1.thrown then s
  else
    match call with
    | .handleResponse _ => doNotify c o s (if o.saved then .ok else .error)
    | .handleError _ _ => doNotify c o s .error
    | .handleClose => if s.2 then s else doNotify c o s .error

/-- `kadc::dht_operation::handle_exception`. -/
def handleException (c : ServerlessConf) (o : Outside) (s : Serverless) : Serverless :=
  if s.updatingContacts then
    let s := if s.dhtClient ≠ none ∧ s.dhtClient ≠ some .disconnected then
        { s with updatingContacts := false }
      else s
    let s := ({ s with dhtClient := none } : Serverless).emit (.gui .dhtUpdNodes "")
    let s := s.emit .fetchContacts
    match o.contactsFetch with
    | .throws _ => (s.emit (.gui .dhtUpdNodesFail "")).updateServerNodesDone c o 1
    | .started => { s with downloads := s.downloads ++ [{}] }
    | start => (start.calls.foldl (downloadCall c o) (s, false)).1
  else s

/-! ## States that are reported -/

/-- The message of `dht_operation::state_changed`. -/
def dhtMessage : DhtState → MsgId
  | .connecting => .dhtConnecting
  | .connected => .dhtConnected
  | .disconnecting => .dhtDisconnecting
  | .disconnected => .dhtDisconnected

/-- `dht_operation::state_changed`, which goes on to `group_adapter_serverless::state_changed`. -/
def dhtStateChanged (s : Serverless) (st : DhtState) : Serverless :=
  let s := ({ s with dhtClient := some st } : Serverless).emit (.gui (dhtMessage st) "")
  match st with
  | .connected => s.condGroupJoin.1
  | .disconnected => if s.connectTry = 1 then s.updateContacts else s
  | _ => s

/-- `group_adapter_serverless::group_state_changed`. -/
def groupStateChanged (s : Serverless) (st : GroupState) : Serverless :=
  let s := { s with group := st }
  if st = .notJoined then s.disconnect else s

/-! ## The machine -/

/-- Nothing has been done yet. -/
def fresh (s : Serverless) : Serverless := { s with out := [] }

/-- A connection that fetches the address has made its calls; an exception leaves it as it was. -/
def putIpFetch (s : Serverless) (i : ℕ) (h : FetcherHandler) : Serverless :=
  if s.thrown then s
  else { s with ipFetches := if h.deleted then s.ipFetches.eraseIdx i else s.ipFetches.set i h }

/-- The same for one that fetches contacts. -/
def putDownload (s : Serverless) (i : ℕ) (d : Download) : Serverless :=
  if s.thrown then s
  else
    { s with downloads := if d.conn.deleted then s.downloads.eraseIdx i else s.downloads.set i d }

/-- What an event leads to. -/
def react (c : ServerlessConf) (o : Outside) (s : Serverless) : ServerlessEvent → Serverless
  | .connect self => s.connect c o self
  | .disconnect => s.disconnect
  | .updateServerNodes => s.updateContacts
  | .dhtStateChanged st => if s.dhtClient = none then s else s.dhtStateChanged st
  | .groupStateChanged st => s.groupStateChanged st
  | .handleException =>
    if s.notifications = 0 then s
    else ({ s with notifications := s.notifications - 1 } : Serverless).handleException c o
  | .ipFetch i e =>
    match s.ipFetches[i]? with
    | none => s
    | some h => ((h.step e).2.foldl (ipCall c) s).putIpFetch i (h.step e).1
  | .download i e =>
    match s.downloads[i]? with
    | none => s
    | some d =>
      let r := (d.conn.step e).2.foldl (downloadCall c o) (s, d.notified)
      r.1.putDownload i ⟨(d.conn.step e).1, r.2⟩

/-- One event, unless an exception has ended the worker. -/
def step (c : ServerlessConf) (s : Serverless) (i : ServerlessEvent × Outside) :
    Serverless × List ServerlessAct :=
  if s.thrown then (s, [])
  else
    let r := react c i.2 s.fresh i.1
    (r.fresh, r.out)

/-- The adapter as a system. -/
def machine (c : ServerlessConf) :
    Mealy Serverless (ServerlessEvent × Outside) ServerlessAct := ⟨step c⟩

/-! ## What the functions do -/

theorem step_of_thrown {s : Serverless} (hs : s.thrown = true) (c : ServerlessConf)
    (i : ServerlessEvent × Outside) : (machine c).step s i = (s, []) := by
  simp [machine, step, hs]

theorem step_of_open {s : Serverless} (hs : s.thrown = false) (c : ServerlessConf)
    (i : ServerlessEvent × Outside) : (machine c).step s i =
      ((react c i.2 s.fresh i.1).fresh, (react c i.2 s.fresh i.1).out) := by
  simp [machine, step, hs]

theorem react_ipFetch {s : Serverless} {k : ℕ} {h : FetcherHandler}
    (hk : s.ipFetches[k]? = some h) (c : ServerlessConf) (o : Outside) (e : FetchEvent) :
    react c o s (.ipFetch k e) = ((h.step e).2.foldl (ipCall c) s).putIpFetch k (h.step e).1 := by
  simp only [react, hk]

theorem react_ipFetch_of_none {s : Serverless} {k : ℕ} (hk : s.ipFetches[k]? = none)
    (c : ServerlessConf) (o : Outside) (e : FetchEvent) : react c o s (.ipFetch k e) = s := by
  simp only [react, hk]

theorem react_download {s : Serverless} {k : ℕ} {d : Download} (hk : s.downloads[k]? = some d)
    (c : ServerlessConf) (o : Outside) (e : FetchEvent) :
    react c o s (.download k e) =
      ((d.conn.step e).2.foldl (downloadCall c o) (s, d.notified)).1.putDownload k
        ⟨(d.conn.step e).1,
          ((d.conn.step e).2.foldl (downloadCall c o) (s, d.notified)).2⟩ := by
  simp only [react, hk]

theorem react_download_of_none {s : Serverless} {k : ℕ} (hk : s.downloads[k]? = none)
    (c : ServerlessConf) (o : Outside) (e : FetchEvent) : react c o s (.download k e) = s := by
  simp only [react, hk]

/-- There is no DHT client, or one that is disconnected. -/
def Idle (s : Serverless) : Prop := s.dhtClient = none ∨ s.dhtClient = some .disconnected

instance (s : Serverless) : Decidable s.Idle := inferInstanceAs (Decidable (_ ∨ _))

theorem prepareConnect_of_idle {s : Serverless} (h : s.Idle) :
    s.prepareConnect =
      if s.kadcIni then (s.dhtReadyToConnect, 0)
      else (({ s with dhtClient := none, connectAfterUpdate := true } : Serverless).updateContacts,
        0) := by
  obtain ⟨_, _, _, _, _, dhtClient, _, _, _, _, _, kadcIni, _, _⟩ := s
  rcases h with h | h
  · cases h
    cases kadcIni <;> rfl
  · cases h
    cases kadcIni <;> rfl

theorem prepareConnect_of_not_idle {s : Serverless} (h : ¬ s.Idle) :
    s.prepareConnect = (s, -1) := by
  obtain ⟨hnone, hdisc⟩ := not_or.1 h
  simp only [prepareConnect, hdisc, if_false, hnone, basePrepareConnect]

/-- The group is asked once the client is connected and the address is known. -/
theorem condGroupJoin_of_not {s : Serverless}
    (h : ¬(s.dhtClient = some .connected ∧ s.externalIp ≠ {})) : s.condGroupJoin = (s, -1) :=
  if_neg h

theorem condGroupJoin_of_idle {s : Serverless} (h : s.Idle) : s.condGroupJoin = (s, -1) := by
  apply condGroupJoin_of_not
  rintro ⟨hconn, -⟩
  rcases h with h | h <;> rw [hconn] at h <;> cases h

theorem connectNow_of_idle {s : Serverless} (h : s.Idle) (c : ServerlessConf) (o : Outside) :
    s.connectNow c o = s.prepareConnect.1.externalIpFetch c o := by
  have hzero : s.prepareConnect.2 = 0 := by
    rw [prepareConnect_of_idle h]
    split <;> rfl
  simp [connectNow, condGroupJoin_of_idle h, hzero]

theorem connectNow_of_not_idle {s : Serverless} (h : ¬ s.Idle) (c : ServerlessConf) (o : Outside) :
    s.connectNow c o = s.condGroupJoin.1 := by
  by_cases hready : s.dhtClient = some .connected ∧ s.externalIp ≠ {}
  · have hjoin : s.condGroupJoin = s.baseConnect := if_pos hready
    have hidle : ¬ s.baseConnect.1.Idle := by
      unfold baseConnect
      dsimp only
      split <;> exact h
    simp only [connectNow, hjoin, prepareConnect_of_not_idle hidle]
    split <;> rfl
  · simp [connectNow, condGroupJoin_of_not hready, prepareConnect_of_not_idle h]

theorem updateServerNodesDone_of_ne {err : Int} (h : err ≠ 0) (c : ServerlessConf) (o : Outside)
    (s : Serverless) :
    s.updateServerNodesDone c o err = s.emit (.updateServerNodesDone err) :=
  if_neg fun hzero => h hzero.1

/-- A failed update is reported, and nothing else is done. -/
theorem saverDone_error (c : ServerlessConf) (o : Outside) (s : Serverless) :
    s.saverDone c o .error = (({ s with updatingContacts := false } : Serverless).emit
      (.gui .dhtUpdNodesFail "")).emit (.updateServerNodesDone 1) :=
  updateServerNodesDone_of_ne (show (1 : Int) ≠ 0 by decide) c o
    (({ s with updatingContacts := false } : Serverless).emit (.gui .dhtUpdNodesFail ""))

/-- The state in which contacts that were saved are reported. -/
def savedContacts (s : Serverless) : Serverless :=
  ({ s with updatingContacts := false, kadcIni := true } : Serverless).emit
    (.gui .dhtUpdNodesDone "")

/-- What does not see the request to connect that waited for the update sees the report only. -/
theorem saverDone_ok_of_pos {α : Type*} {f : Serverless → α} (c : ServerlessConf) {o : Outside}
    (s : Serverless) (hpos : 0 < o.contacts)
    (hf : f { (s.savedContacts.updateServerNodesDone c o 0).prepareConnect.1 with
      connectAfterUpdate := false } = f (s.savedContacts.updateServerNodesDone c o 0)) :
    f (s.saverDone c o .ok) = f (s.savedContacts.updateServerNodesDone c o 0) := by
  have hdone : s.saverDone c o .ok =
      if (s.savedContacts.updateServerNodesDone c o 0).thrown then
        s.savedContacts.updateServerNodesDone c o 0
      else if (s.savedContacts.updateServerNodesDone c o 0).connectAfterUpdate then
        { (s.savedContacts.updateServerNodesDone c o 0).prepareConnect.1 with
          connectAfterUpdate := false }
      else s.savedContacts.updateServerNodesDone c o 0 := if_pos hpos
  rw [hdone]
  split
  · rfl
  · split
    · exact hf
    · rfl

/-- The state in which the contacts are fetched. -/
def fetchingContacts (s : Serverless) : Serverless :=
  (({ s with updatingContacts := decide s.Idle, dhtClient := none } : Serverless).emit
    (.gui .dhtUpdNodes "")).emit .fetchContacts

theorem handleException_of_updating {s : Serverless} (h : s.updatingContacts = true)
    (c : ServerlessConf) (o : Outside) :
    s.handleException c o =
      match o.contactsFetch with
      | .throws _ =>
        (s.fetchingContacts.emit (.gui .dhtUpdNodesFail "")).updateServerNodesDone c o 1
      | .started => { s.fetchingContacts with downloads := s.downloads ++ [{}] }
      | start => (start.calls.foldl (downloadCall c o) (s.fetchingContacts, false)).1 := by
  by_cases hidle : s.Idle
  · have hstate : ¬(s.dhtClient ≠ none ∧ s.dhtClient ≠ some .disconnected) := by
      rw [← not_or]
      exact not_not_intro hidle
    simp only [handleException, h, if_true, hstate, if_false, fetchingContacts, hidle, decide_true]
    rfl
  · have hstate : s.dhtClient ≠ none ∧ s.dhtClient ≠ some .disconnected := not_or.1 hidle
    simp only [handleException, h, if_true, hstate, ne_eq, not_false_eq_true, and_self,
      fetchingContacts, hidle, decide_false]
    rfl

theorem silent_calls (start : FetchStart) : FetcherHandler.Silent start.calls := by
  cases start with
  | connectFailed => exact FetcherHandler.silent_handleClose {}
  | _ => intro content; simp [FetchStart.calls]

/-! ### A connection that fetches contacts

What a failed update leaves alone, every call but a response leaves alone too. -/

section Downloads

variable {α : Sort*} {f : Serverless → α} {c : ServerlessConf} {o : Outside}

theorem downloadCalls_silent (hf : ∀ s : Serverless, f (s.saverDone c o .error) = f s)
    (s : Serverless × Bool) {calls : List HttpCall} (h : FetcherHandler.Silent calls) :
    f (calls.foldl (downloadCall c o) s).1 = f s.1 := by
  induction calls generalizing s with
  | nil => rfl
  | cons call calls ih =>
    have htail : FetcherHandler.Silent calls := fun content hmem =>
      h content (List.mem_cons_of_mem _ hmem)
    rw [List.foldl_cons, ih _ htail]
    unfold downloadCall
    split
    · rfl
    · cases call with
      | handleResponse content => exact absurd List.mem_cons_self (h content)
      | handleError reason details => exact hf s.1
      | handleClose =>
        dsimp only
        split
        · rfl
        · exact hf s.1

/-- The response is saved. -/
theorem downloadCalls_of_responds (hf : ∀ s : Serverless, f (s.saverDone c o .error) = f s)
    {s : Serverless} (hs : s.thrown = false) (notified : Bool) {h : FetcherHandler}
    {e : FetchEvent} {content : List UInt8} (hresp : h.Responds e content)
    (hsaved : o.saved = true) :
    f ((h.step e).2.foldl (downloadCall c o) (s, notified)).1 = f (s.saverDone c o .ok) := by
  have htail := FetcherHandler.silent_tail h e
  unfold FetcherHandler.Responds at hresp
  generalize (h.step e).2 = calls at htail hresp
  obtain ⟨calls, rfl⟩ := List.head?_eq_some_iff.1 hresp
  rw [List.tail_cons] at htail
  rw [List.foldl_cons, downloadCalls_silent hf _ htail]
  simp only [downloadCall, hs, Bool.false_eq_true, if_false, doNotify, hsaved, if_true]

theorem downloadCalls_of_not (hf : ∀ s : Serverless, f (s.saverDone c o .error) = f s)
    (s : Serverless) (notified : Bool) (h : FetcherHandler) (e : FetchEvent)
    (hno : ¬((∃ content, h.Responds e content) ∧ o.saved = true)) :
    f ((h.step e).2.foldl (downloadCall c o) (s, notified)).1 = f s := by
  have htail := FetcherHandler.silent_tail h e
  unfold FetcherHandler.Responds at hno
  generalize (h.step e).2 = calls at htail hno
  cases calls with
  | nil => rfl
  | cons call calls =>
    rw [List.tail_cons] at htail
    rw [List.foldl_cons, downloadCalls_silent hf _ htail]
    cases call with
    | handleResponse content =>
      have hsaved : o.saved = false := by
        by_contra hsaved
        exact hno ⟨⟨content, rfl⟩, Bool.not_eq_false _ ▸ hsaved⟩
      unfold downloadCall
      split
      · rfl
      · simpa [doNotify, hsaved] using hf s
    | handleError reason details =>
      unfold downloadCall
      split
      · rfl
      · exact hf s
    | handleClose =>
      unfold downloadCall
      split
      · rfl
      · dsimp only
        split
        · rfl
        · exact hf s

end Downloads

/-- Contacts arrive on a connection after the first try to connect. -/
def Retries (s : Serverless) (k : ℕ) (e : FetchEvent) (o : Outside) : Prop :=
  (∃ d, s.downloads[k]? = some d ∧ ∃ content, d.conn.Responds e content) ∧ o.saved = true ∧
    0 < o.contacts ∧ s.connectTry = 1

end Serverless

end RvHouse
