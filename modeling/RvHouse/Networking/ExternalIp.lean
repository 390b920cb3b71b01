import RvHouse.Networking.Serverless

/-!
# The fetch of the external address

`_external_ip_fetching` is to tell whether a fetch of the address is in flight. It is set when
`fetch` has returned, and `handle_close` takes it back, which a fetch that fails at once has called
by then: the flag stays, and the address is never fetched again.

`fetching_iff_guarded` says in which runs the flag is right and every request to connect without an
address has one fetched: those in which no fetch of the address ends before it returns, and such a
request finds the group not joined and no DHT client under way. `not_fetching_of_unresolved` is a
run in which the host of the site is not found.
-/

namespace RvHouse

/-- `fetch` calls `handle_close` before it returns. -/
def FetchStart.EndsWithin : FetchStart → Prop
  | .unresolved | .connectFailed => True
  | _ => False

namespace Serverless

/-- What the fetch of the address is about. -/
def ipView (s : Serverless) : Bool × List FetcherHandler := (s.externalIpFetching, s.ipFetches)

/-- `_external_ip_fetch` goes to the site. -/
def NeedsIp (c : ServerlessConf) (s : Serverless) : Prop :=
  s.externalIp = {} ∧ s.externalIpFetching = false ∧ c.ip = none

instance (c : ServerlessConf) (s : Serverless) : Decidable (s.NeedsIp c) :=
  inferInstanceAs (Decidable (_ ∧ _))

/-- What a fetch makes of the view. -/
def afterFetch : FetchStart → Bool × List FetcherHandler → Bool × List FetcherHandler
  | .throws _, v => v
  | .started, v => (true, v.2 ++ [{}])
  | _, v => (true, v.2)

/-! ## What each function does to the view -/

theorem ipView_condGroupJoin (s : Serverless) : s.condGroupJoin.1.ipView = s.ipView := by
  unfold condGroupJoin baseConnect
  split
  · dsimp only
    split <;> rfl
  · rfl

theorem ipView_updateContacts (s : Serverless) : s.updateContacts.ipView = s.ipView := by
  unfold updateContacts
  split <;> rfl

theorem ipView_prepareConnect (s : Serverless) : s.prepareConnect.1.ipView = s.ipView := by
  by_cases hidle : s.Idle
  · rw [prepareConnect_of_idle hidle]
    split
    · rfl
    · exact ipView_updateContacts _
  · rw [prepareConnect_of_not_idle hidle]

theorem externalIp_prepareConnect (s : Serverless) :
    s.prepareConnect.1.externalIp = s.externalIp := by
  by_cases hidle : s.Idle
  · rw [prepareConnect_of_idle hidle]
    split
    · rfl
    · unfold updateContacts
      split <;> rfl
  · rw [prepareConnect_of_not_idle hidle]

theorem ipView_externalIpSet (c : ServerlessConf) (s : Serverless) (ip : UInt32) :
    (s.externalIpSet c ip).ipView = s.ipView := by
  unfold externalIpSet
  dsimp only
  split <;> rfl

theorem ipView_handleResponse (c : ServerlessConf) (s : Serverless) (content : List UInt8) :
    (s.handleResponse c content).ipView = s.ipView := by
  unfold handleResponse
  split
  · dsimp only
    split
    · exact ipView_externalIpSet c s _
    · exact (ipView_condGroupJoin _).trans (ipView_externalIpSet c s _)
  · exact ipView_condGroupJoin _

/-- Only `handle_close` changes the flag. -/
theorem ipView_ipCalls (c : ServerlessConf) (s : Serverless) {calls : List HttpCall}
    (h : HttpCall.handleClose ∉ calls) : (calls.foldl (ipCall c) s).ipView = s.ipView := by
  induction calls generalizing s with
  | nil => rfl
  | cons call calls ih =>
    rw [List.foldl_cons, ih _ fun hmem => h (List.mem_cons_of_mem _ hmem)]
    unfold ipCall
    split
    · rfl
    · cases call with
      | handleResponse content => exact ipView_handleResponse c s content
      | handleError reason details => rfl
      | handleClose => exact absurd List.mem_cons_self h

/-- The calls of the connector leave the list of connections alone. -/
theorem ipFetches_ipCalls (c : ServerlessConf) (s : Serverless) (calls : List HttpCall) :
    (calls.foldl (ipCall c) s).ipFetches = s.ipFetches := by
  induction calls generalizing s with
  | nil => rfl
  | cons call calls ih =>
    rw [List.foldl_cons, ih]
    unfold ipCall
    split
    · rfl
    · cases call with
      | handleResponse content => exact congrArg Prod.snd (ipView_handleResponse c s content)
      | handleError reason details => rfl
      | handleClose => rfl

theorem ipView_externalIpFetch (c : ServerlessConf) (o : Outside) {s : Serverless}
    (h : s.NeedsIp c) : (s.externalIpFetch c o).ipView = afterFetch o.ipFetch s.ipView := by
  obtain ⟨hip, hflag, hconf⟩ := h
  simp only [externalIpFetch, hip, ne_eq, not_true_eq_false, if_false, hflag, Bool.false_eq_true,
    hconf]
  cases o.ipFetch with
  | throws what => rfl
  | started => rfl
  | unresolved =>
    simp only [reduceCtorEq, if_false]
    exact Prod.ext rfl (ipFetches_ipCalls c _ _)
  | connectFailed =>
    simp only [reduceCtorEq, if_false]
    exact Prod.ext rfl (ipFetches_ipCalls c _ _)

theorem ipView_externalIpFetch_of_not (c : ServerlessConf) (o : Outside) {s : Serverless}
    (h : ¬ s.NeedsIp c) : (s.externalIpFetch c o).ipView = s.ipView := by
  unfold externalIpFetch
  split
  · rfl
  · rename_i hip
    split
    · rfl
    · rename_i hflag
      split
      · exact ipView_externalIpSet c s _
      · rename_i hconf
        exact absurd ⟨not_not.1 hip, Bool.eq_false_iff.2 hflag, hconf⟩ h

theorem needsIp_prepareConnect (c : ServerlessConf) (s : Serverless) :
    s.prepareConnect.1.NeedsIp c ↔ s.NeedsIp c := by
  have hflag : s.prepareConnect.1.externalIpFetching = s.externalIpFetching :=
    congrArg Prod.fst (ipView_prepareConnect s)
  simp only [NeedsIp, externalIp_prepareConnect, hflag]

theorem ipView_connectNow (c : ServerlessConf) (o : Outside) (s : Serverless) :
    (s.connectNow c o).ipView =
      if s.Idle ∧ s.NeedsIp c then afterFetch o.ipFetch s.ipView else s.ipView := by
  by_cases hidle : s.Idle
  · rw [connectNow_of_idle hidle]
    by_cases hneeds : s.NeedsIp c
    · rw [if_pos ⟨hidle, hneeds⟩,
        ipView_externalIpFetch c o ((needsIp_prepareConnect c s).2 hneeds), ipView_prepareConnect]
    · rw [if_neg fun h => hneeds h.2,
        ipView_externalIpFetch_of_not c o (mt (needsIp_prepareConnect c s).1 hneeds),
        ipView_prepareConnect]
  · rw [connectNow_of_not_idle hidle, if_neg fun h => hidle h.1]
    exact ipView_condGroupJoin s

theorem ipView_updateServerNodesDone (c : ServerlessConf) (o : Outside) (s : Serverless)
    (err : Int) : (s.updateServerNodesDone c o err).ipView =
      if err = 0 ∧ s.connectTry = 1 ∧ s.Idle ∧ s.NeedsIp c then afterFetch o.ipFetch s.ipView
      else s.ipView := by
  unfold updateServerNodesDone
  dsimp only
  by_cases hcond : err = 0 ∧ s.connectTry = 1
  · rw [if_pos (show err = 0 ∧ (s.emit _).connectTry = 1 from hcond), ipView_connectNow]
    simp only [hcond, true_and]
    rfl
  · rw [if_neg (show ¬(err = 0 ∧ (s.emit _).connectTry = 1) from hcond),
      if_neg fun h => hcond ⟨h.1, h.2.1⟩]
    rfl

/-- The report of a failure fetches nothing. -/
theorem ipView_updateServerNodesFail (c : ServerlessConf) (o : Outside) (s : Serverless) :
    (s.updateServerNodesDone c o 1).ipView = s.ipView := by
  rw [ipView_updateServerNodesDone]
  exact if_neg fun h => absurd h.1 (by decide)

theorem ipView_saverDone_error (c : ServerlessConf) (o : Outside) (s : Serverless) :
    (s.saverDone c o .error).ipView = s.ipView :=
  ipView_updateServerNodesFail c o _

theorem ipView_saverDone_ok (c : ServerlessConf) (o : Outside) (s : Serverless) :
    (s.saverDone c o .ok).ipView =
      if 0 < o.contacts ∧ s.connectTry = 1 ∧ s.Idle ∧ s.NeedsIp c then
        afterFetch o.ipFetch s.ipView
      else s.ipView := by
  by_cases hpos : 0 < o.contacts
  · rw [saverDone_ok_of_pos (f := ipView) c s hpos (ipView_prepareConnect _),
      ipView_updateServerNodesDone]
    simp only [true_and, hpos]
    rfl
  · rw [saverDone, if_neg hpos, if_neg fun h => hpos h.1]
    exact ipView_updateServerNodesFail c o _

theorem ipView_handleException (c : ServerlessConf) (o : Outside) (s : Serverless) :
    (s.handleException c o).ipView = s.ipView := by
  cases hupd : s.updatingContacts with
  | false => simp [handleException, hupd]
  | true =>
    rw [handleException_of_updating hupd]
    split
    · exact ipView_updateServerNodesFail c o _
    · rfl
    · exact downloadCalls_silent (f := ipView) (ipView_saverDone_error c o) _ (silent_calls _)

theorem ipView_disconnect (s : Serverless) : s.disconnect.ipView = s.ipView := by
  unfold disconnect baseDisconnect
  dsimp only
  split
  · split <;> rfl
  · rfl

theorem ipView_dhtStateChanged (s : Serverless) (st : DhtState) :
    (s.dhtStateChanged st).ipView = s.ipView := by
  cases st with
  | connected => exact ipView_condGroupJoin _
  | disconnected =>
    unfold dhtStateChanged
    dsimp only
    split
    · exact ipView_updateContacts _
    · rfl
  | connecting => rfl
  | disconnecting => rfl

/-! ## What a step does to the view -/

/-- The event has the address fetched from the site. -/
def FetchesIp (c : ServerlessConf) (s : Serverless) (i : ServerlessEvent × Outside) : Prop :=
  s.thrown = false ∧ s.NeedsIp c ∧ s.Idle ∧
    match i.1 with
    | .connect _ => s.group = .notJoined
    | .download k e => s.Retries k e i.2
    | _ => False

theorem ipView_step_of_open {c : ServerlessConf} {s : Serverless} (hs : s.thrown = false)
    (i : ServerlessEvent × Outside) :
    ((machine c).step s i).1.ipView = (react c i.2 s.fresh i.1).ipView := by
  rw [step_of_open hs]
  rfl

theorem ipView_putDownload (s : Serverless) (k : ℕ) (d : Download) :
    (s.putDownload k d).ipView = s.ipView := by
  unfold putDownload
  split <;> rfl

theorem ipView_step_of_fetches {c : ServerlessConf} {s : Serverless}
    {i : ServerlessEvent × Outside} (h : s.FetchesIp c i) :
    ((machine c).step s i).1.ipView = afterFetch i.2.ipFetch s.ipView := by
  obtain ⟨e, o⟩ := i
  obtain ⟨hs, hneeds, hidle, hcase⟩ := h
  rw [ipView_step_of_open hs]
  cases e with
  | connect u =>
    have hgroup : ¬ s.fresh.group ≠ .notJoined := not_not_intro hcase
    rw [react, connect, if_neg hgroup]
    exact (ipView_connectNow c o _).trans (if_pos ⟨hidle, hneeds⟩)
  | download k e =>
    obtain ⟨⟨d, hk, content, hresp⟩, hsaved, hpos, htry⟩ := hcase
    rw [react_download (s := s.fresh) hk, ipView_putDownload,
      downloadCalls_of_responds (ipView_saverDone_error c o) (s := s.fresh) hs _ hresp hsaved]
    exact (ipView_saverDone_ok c o _).trans (if_pos ⟨hpos, htry, hidle, hneeds⟩)
  | _ => exact hcase.elim

/-- A request to connect that has nothing fetched. -/
theorem ipView_connect_of_not {c : ServerlessConf} {s : Serverless} {u : User} {o : Outside}
    (hs : s.thrown = false) (h : ¬ s.FetchesIp c (.connect u, o)) :
    (react c o s.fresh (.connect u)).ipView = s.ipView := by
  simp only [FetchesIp, hs, true_and] at h
  rw [react, connect]
  split
  · rfl
  · rename_i hgroup
    refine (ipView_connectNow c o _).trans (if_neg fun hfetch => h ?_)
    exact ⟨hfetch.2, hfetch.1, not_not.1 hgroup⟩

/-- An event of a download that has nothing fetched. -/
theorem ipView_download_of_not {c : ServerlessConf} {s : Serverless} {k : ℕ} {e : FetchEvent}
    {o : Outside} (hs : s.thrown = false) (h : ¬ s.FetchesIp c (.download k e, o)) :
    (react c o s.fresh (.download k e)).ipView = s.ipView := by
  simp only [FetchesIp, hs, true_and] at h
  cases hk : s.downloads[k]? with
  | none =>
    rw [react_download_of_none (s := s.fresh) hk]
    rfl
  | some d =>
    rw [react_download (s := s.fresh) hk, ipView_putDownload]
    by_cases hresp : (∃ content, d.conn.Responds e content) ∧ o.saved = true
    · obtain ⟨⟨content, hcontent⟩, hsaved⟩ := hresp
      rw [downloadCalls_of_responds (ipView_saverDone_error c o) (s := s.fresh) hs _ hcontent
        hsaved]
      refine (ipView_saverDone_ok c o _).trans (if_neg fun hfetch => h ?_)
      obtain ⟨hpos, htry, hidle, hneeds⟩ := hfetch
      exact ⟨hneeds, hidle, ⟨d, hk, content, hcontent⟩, hsaved, hpos, htry⟩
    · exact downloadCalls_of_not (f := ipView) (ipView_saverDone_error c o) _ _ _ _ hresp

theorem ipView_step_of_not {c : ServerlessConf} {s : Serverless} {i : ServerlessEvent × Outside}
    (hno : ∀ k e, i.1 ≠ .ipFetch k e) (h : ¬ s.FetchesIp c i) :
    ((machine c).step s i).1.ipView = s.ipView := by
  cases hs : s.thrown with
  | true => rw [step_of_thrown hs]
  | false =>
    obtain ⟨e, o⟩ := i
    rw [ipView_step_of_open hs]
    cases e with
    | connect u => exact ipView_connect_of_not hs h
    | disconnect => exact ipView_disconnect _
    | updateServerNodes => exact ipView_updateContacts _
    | dhtStateChanged st =>
      rw [react]
      split
      · rfl
      · exact ipView_dhtStateChanged _ st
    | groupStateChanged st =>
      rw [react, groupStateChanged]
      split
      · exact ipView_disconnect _
      · rfl
    | handleException =>
      rw [react]
      split
      · rfl
      · exact ipView_handleException c o _
    | ipFetch k e => exact absurd rfl (hno k e)
    | download k e => exact ipView_download_of_not hs h

/-! ## The invariant -/

/-- The flag is right. -/
def FlagExact (s : Serverless) : Prop := s.externalIpFetching = true ↔ s.ipFetches ≠ []

/-- One connection at most, which is open, and the flag tells. -/
def Fetching (s : Serverless) : Prop :=
  s.ipView = (false, []) ∨ ∃ h : FetcherHandler, h.deleted = false ∧ s.ipView = (true, [h])

theorem flagExact_of_fetching {s : Serverless} (h : s.Fetching) : s.FlagExact := by
  unfold FlagExact
  rcases h with h | ⟨conn, -, h⟩
  · rw [show s.externalIpFetching = false from congrArg Prod.fst h,
      show s.ipFetches = [] from congrArg Prod.snd h]
    simp
  · rw [show s.externalIpFetching = true from congrArg Prod.fst h,
      show s.ipFetches = [conn] from congrArg Prod.snd h]
    simp

/-- The last call of a connection takes the flag back, unless an exception has come before it. -/
theorem ipView_closed {c : ServerlessConf} {s : Serverless} {conn conn' : FetcherHandler}
    (hdel : conn'.deleted = true) (h : s.ipView = (true, [conn])) :
    ((ipCall c s .handleClose).putIpFetch 0 conn').ipView =
      if s.thrown then (true, [conn]) else (false, []) := by
  cases hs : s.thrown with
  | true =>
    rw [ipCall, if_pos hs, putIpFetch, if_pos hs, if_pos rfl]
    exact h
  | false =>
    have hlist : s.handleClose.ipFetches = [conn] := congrArg Prod.snd h
    rw [ipCall, if_neg (by simp [hs]), putIpFetch, if_neg (by simp [handleClose, hs]), if_pos hdel,
      hlist, if_neg (by decide)]
    rfl

/-- A connection goes on, or its last call takes the flag back. -/
theorem fetching_ipFetch (c : ServerlessConf) (o : Outside) {s : Serverless} (h : s.Fetching)
    (k : ℕ) (e : FetchEvent) : ((machine c).step s (.ipFetch k e, o)).1.Fetching := by
  cases hs : s.thrown with
  | true => rwa [step_of_thrown hs]
  | false =>
    unfold Fetching
    rw [ipView_step_of_open hs]
    rcases h with h | ⟨conn, hopen, h⟩
    · have hlist : s.ipFetches = [] := congrArg Prod.snd h
      have hnone : s.fresh.ipFetches[k]? = none := by
        rw [show s.fresh.ipFetches = [] from hlist]
        rfl
      rw [react_ipFetch_of_none hnone]
      exact .inl h
    · have hlist : s.fresh.ipFetches = [conn] := congrArg Prod.snd h
      cases k with
      | succ k =>
        rw [react_ipFetch_of_none (by rw [hlist]; rfl)]
        exact .inr ⟨conn, hopen, h⟩
      | zero =>
        rw [react_ipFetch (by rw [hlist]; rfl)]
        rcases FetcherHandler.open_or_closes hopen e with ⟨hopen', hcalls⟩ | ⟨hdel, cs, hcalls, hcs⟩
        · rw [hcalls, List.foldl_nil, putIpFetch, if_neg (by simp [fresh, hs]), hopen', hlist]
          have hflag : s.externalIpFetching = true := congrArg Prod.fst h
          exact .inr ⟨_, hopen', Prod.ext hflag rfl⟩
        · have hcs : (cs.foldl (ipCall c) s.fresh).ipView = (true, [conn]) :=
            (ipView_ipCalls c s.fresh hcs).trans h
          rw [hcalls, List.foldl_append, List.foldl_cons, List.foldl_nil, ipView_closed hdel hcs]
          split
          · exact .inr ⟨conn, hopen, rfl⟩
          · exact .inl rfl

/-! ## Requests to connect -/

theorem mem_out_ipCalls {c : ServerlessConf} {s : Serverless} {a : ServerlessAct} (ha : a ∈ s.out)
    {calls : List HttpCall} (h : FetcherHandler.Silent calls) :
    a ∈ (calls.foldl (ipCall c) s).out := by
  induction calls generalizing s with
  | nil => exact ha
  | cons call calls ih =>
    rw [List.foldl_cons]
    refine ih ?_ fun content hmem => h content (List.mem_cons_of_mem _ hmem)
    unfold ipCall
    split
    · exact ha
    · cases call with
      | handleResponse content => exact absurd List.mem_cons_self (h content)
      | handleError reason details => exact List.mem_append_left _ ha
      | handleClose => exact ha

theorem fetchIp_mem_externalIpFetch {c : ServerlessConf} {s : Serverless} (h : s.NeedsIp c)
    (o : Outside) : .fetchIp c.ipSite ∈ (s.externalIpFetch c o).out := by
  obtain ⟨hip, hflag, hconf⟩ := h
  have hmem : .fetchIp c.ipSite ∈ (s.emit (.fetchIp c.ipSite)).out :=
    List.mem_append_right _ (List.mem_singleton_self _)
  have hcalls := mem_out_ipCalls (c := c) hmem (silent_calls o.ipFetch)
  rw [externalIpFetch, if_neg (not_not_intro hip), if_neg (by simp [hflag]), hconf]
  dsimp only
  split
  · exact List.mem_append_left _ hmem
  · apply List.mem_append_left
    split <;> exact hcalls

theorem fetchIp_mem_condGroupJoin {s : Serverless} {site : String}
    (h : .fetchIp site ∈ s.condGroupJoin.1.out) : .fetchIp site ∈ s.out := by
  unfold condGroupJoin baseConnect at h
  dsimp only at h
  split at h
  · split at h <;> simpa [emit] using h
  · exact h

theorem fetchIp_mem_step_iff {c : ServerlessConf} {s : Serverless} (hs : s.thrown = false)
    (hneeds : s.NeedsIp c) (u : User) (o : Outside) :
    .fetchIp c.ipSite ∈ ((machine c).step s (.connect u, o)).2 ↔
      s.group = .notJoined ∧ s.Idle := by
  rw [step_of_open hs]
  show .fetchIp c.ipSite ∈ (s.fresh.connect c o u).out ↔ _
  rw [connect]
  split
  · rename_i hgroup
    exact iff_of_false List.not_mem_nil fun h => hgroup h.1
  · rename_i hgroup
    have hjoined : s.group = .notJoined := not_not.1 hgroup
    rw [and_iff_right hjoined]
    generalize hs' : ({ s.fresh with connectTry := 0, self := u } : Serverless) = s'
    have hneeds' : s'.NeedsIp c := by rw [← hs']; exact hneeds
    have hsame : s'.Idle ↔ s.Idle := by rw [← hs']; rfl
    have hout : s'.out = [] := by rw [← hs']; rfl
    rw [← hsame]
    by_cases hidle : s'.Idle
    · rw [connectNow_of_idle hidle]
      exact iff_of_true
        (fetchIp_mem_externalIpFetch ((needsIp_prepareConnect c s').2 hneeds') o) hidle
    · rw [connectNow_of_not_idle hidle]
      refine iff_of_false (fun hmem => ?_) hidle
      have hnil := fetchIp_mem_condGroupJoin hmem
      rw [hout] at hnil
      exact List.not_mem_nil hnil

/-! ## Runs -/

/-- No fetch of the address is in flight and the address is not known. -/
def Unknown (c : ServerlessConf) (s : Serverless) : Prop :=
  s.thrown = false ∧ s.ipFetches = [] ∧ s.externalIp = {} ∧ c.ip = none

/-- A request to connect has the address fetched when it is unknown. -/
def FetchesAgain (c : ServerlessConf) (s : Serverless) (i : ServerlessEvent × Outside) : Prop :=
  ∀ u, i.1 = .connect u → s.Unknown c → .fetchIp c.ipSite ∈ ((machine c).step s i).2

/-- A fetch of the address does not end before it returns, and a request to connect that finds the
address unknown finds the group not joined and no DHT client under way. -/
def FetchGoesOn (c : ServerlessConf) (s : Serverless) (i : ServerlessEvent × Outside) : Prop :=
  (s.FetchesIp c i → ¬ i.2.ipFetch.EndsWithin) ∧
    ∀ u, i.1 = .connect u → s.Unknown c → s.group = .notJoined ∧ s.Idle

theorem needsIp_of_unknown {c : ServerlessConf} {s : Serverless} (h : s.Fetching)
    (hu : s.Unknown c) : s.NeedsIp c := by
  obtain ⟨-, hnil, hip, hconf⟩ := hu
  refine ⟨hip, ?_, hconf⟩
  rcases h with h | ⟨conn, -, h⟩
  · exact congrArg Prod.fst h
  · rw [show s.ipFetches = [conn] from congrArg Prod.snd h] at hnil
    cases hnil

theorem fetchesAgain_iff {c : ServerlessConf} {s : Serverless} (h : s.Fetching)
    (i : ServerlessEvent × Outside) :
    FetchesAgain c s i ↔
      ∀ u, i.1 = .connect u → s.Unknown c → s.group = .notJoined ∧ s.Idle := by
  obtain ⟨e, o⟩ := i
  refine forall_congr' fun u => forall_congr' fun he => forall_congr' fun hu => ?_
  cases he
  exact fetchIp_mem_step_iff hu.1 (needsIp_of_unknown h hu) u o

/-- The flag stays right in a step that has the address fetched when the fetch goes on. -/
theorem fetching_step_of_fetches {c : ServerlessConf} {s : Serverless} (h : s.Fetching)
    {i : ServerlessEvent × Outside} (hf : s.FetchesIp c i) (hgo : ¬ i.2.ipFetch.EndsWithin) :
    ((machine c).step s i).1.Fetching := by
  unfold Fetching
  rw [ipView_step_of_fetches hf]
  rcases h with h | ⟨conn, -, h⟩
  · rw [h]
    generalize i.2.ipFetch = start at hgo
    cases start with
    | throws what => exact .inl rfl
    | started => exact .inr ⟨{}, rfl, rfl⟩
    | unresolved => exact absurd trivial hgo
    | connectFailed => exact absurd trivial hgo
  · -- The flag is set, and nothing is fetched.
    have hflag : s.externalIpFetching = true := congrArg Prod.fst h
    rw [hf.2.1.2.1] at hflag
    cases hflag

theorem not_flagExact_of_endsWithin {c : ServerlessConf} {s : Serverless} (h : s.Fetching)
    {i : ServerlessEvent × Outside} (hf : s.FetchesIp c i) (hend : i.2.ipFetch.EndsWithin) :
    ¬((machine c).step s i).1.FlagExact := by
  have hview := ipView_step_of_fetches hf
  rcases h with h | ⟨conn, -, h⟩
  · have hafter : afterFetch i.2.ipFetch s.ipView = (true, []) := by
      rw [h]
      generalize i.2.ipFetch = start at hend
      cases start with
      | throws what => exact hend.elim
      | started => exact hend.elim
      | unresolved => rfl
      | connectFailed => rfl
    rw [hafter] at hview
    intro hexact
    exact hexact.1 (congrArg Prod.fst hview) (congrArg Prod.snd hview)
  · have hflag : s.externalIpFetching = true := congrArg Prod.fst h
    rw [hf.2.1.2.1] at hflag
    cases hflag

theorem fetching_step {c : ServerlessConf} {s : Serverless} {i : ServerlessEvent × Outside}
    (h : s.Fetching) (hgo : s.FetchesIp c i → ¬ i.2.ipFetch.EndsWithin) :
    ((machine c).step s i).1.Fetching := by
  by_cases hf : s.FetchesIp c i
  · exact fetching_step_of_fetches h hf (hgo hf)
  · obtain ⟨e, o⟩ := i
    cases e with
    | ipFetch k e => exact fetching_ipFetch c o h k e
    | _ =>
      unfold Fetching
      rw [ipView_step_of_not (by simp) hf]
      exact h

/-- **The flag of the fetch.** After every event of a run the flag tells whether a fetch of the
address is in flight, and every request to connect that finds the address unknown has it fetched,
exactly when every fetch that an event starts goes on, and those requests find the group not joined
and no DHT client under way. -/
theorem fetching_iff_guarded (c : ServerlessConf) (kadcIni : Bool)
    (es : List (ServerlessEvent × Outside)) :
    (∀ p i, p ++ [i] <+: es →
      ((machine c).exec { kadcIni := kadcIni } (p ++ [i])).FlagExact ∧
        FetchesAgain c ((machine c).exec { kadcIni := kadcIni } p) i) ↔
      (machine c).Guarded (FetchGoesOn c) { kadcIni := kadcIni } es := by
  have hstart : ({ kadcIni := kadcIni } : Serverless).Fetching := .inl rfl
  simp only [Mealy.exec_append, Mealy.exec_cons, Mealy.exec_nil]
  refine (machine c).forall_steps_iff_guarded (I := Fetching)
    (P := fun s i => ((machine c).step s i).1.FlagExact ∧ FetchesAgain c s i)
    (C := FetchGoesOn c) (fun s i hI hC => fetching_step hI hC.1) (fun s i hI => ?_) hstart es
  rw [fetchesAgain_iff hI]
  refine and_congr_left fun _ => ⟨fun hexact hf hend => ?_, fun hgo => ?_⟩
  · exact not_flagExact_of_endsWithin hI hf hend hexact
  · exact flagExact_of_fetching (fetching_step hI hgo)

/-- The host of the site is not found: `handle_close` is called and the flag set after it. When the
user connects again, the address is not fetched. -/
theorem not_fetching_of_unresolved :
    let i : ServerlessEvent × Outside := (.connect {}, { ipFetch := .unresolved })
    let s := (machine {}).exec { kadcIni := true } [i]
    ¬ s.FlagExact ∧
      (machine {}).trace s [(.dhtStateChanged .disconnected, {}), (.connect {}, {})] =
        [.gui .dhtDisconnected "", .notify, .dhtConnect] := by
  refine ⟨fun hexact => ?_, by decide⟩
  exact hexact.1 rfl rfl

end Serverless

end RvHouse
