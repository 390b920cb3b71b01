import RvHouse.Networking.Serverless

/-!
# Joining the group after a disconnect

`_cond_group_join` looks at the DHT client and the external address, and not at what the user asked
for last. So a client that reports to be connected, a reply with the address or an update of the
contacts can join the group after the user has disconnected. `joins_wanted_iff` says when that does
not happen: when, from a disconnect to the next connect, none of the three comes `Late`, that is,
when it is the one that was still missing. `joins_unwanted_of_late` is a run in which the client is
connected late.

What each function adds to `Joined` is said by one lemma.
-/

namespace RvHouse

namespace Serverless

/-- `group_adapter_base::connect` was called. -/
def Joined (s : Serverless) : Prop := ∃ u, ServerlessAct.baseConnect u ∈ s.out

/-- The DHT client is connected and the address is known. -/
def Ready (s : Serverless) : Prop := s.dhtClient = some .connected ∧ s.externalIp ≠ {}

/-! ## What each function adds -/

theorem joined_emit (s : Serverless) {a : ServerlessAct} (ha : ∀ u, a ≠ .baseConnect u) :
    (s.emit a).Joined ↔ s.Joined := by
  simp only [Joined, emit, List.mem_append, List.mem_singleton]
  exact exists_congr fun u => or_iff_left (ha u).symm

theorem joined_baseConnect (s : Serverless) : s.baseConnect.1.Joined := by
  have hmem : ServerlessAct.baseConnect s.self ∈ (s.emit (.baseConnect s.self)).out := by
    simp [emit]
  unfold baseConnect
  dsimp only
  split
  · exact ⟨_, hmem⟩
  · exact ⟨_, List.mem_append_left _ hmem⟩

theorem joined_condGroupJoin (s : Serverless) :
    s.condGroupJoin.1.Joined ↔ s.Joined ∨ s.Ready := by
  unfold condGroupJoin
  split
  · rename_i hready
    exact iff_of_true (joined_baseConnect s) (.inr hready)
  · rename_i hready
    exact (or_iff_left hready).symm

theorem joined_dhtReadyToConnect (s : Serverless) : s.dhtReadyToConnect.Joined ↔ s.Joined :=
  joined_emit _ (by simp)

theorem joined_updateContacts (s : Serverless) : s.updateContacts.Joined ↔ s.Joined := by
  unfold updateContacts
  split
  · rfl
  · exact joined_emit _ (by simp)

theorem joined_prepareConnect (s : Serverless) : s.prepareConnect.1.Joined ↔ s.Joined := by
  by_cases hidle : s.Idle
  · rw [prepareConnect_of_idle hidle]
    split
    · exact joined_dhtReadyToConnect s
    · exact joined_updateContacts _
  · rw [prepareConnect_of_not_idle hidle]

theorem joined_externalIpSet (c : ServerlessConf) (s : Serverless) (ip : UInt32) :
    (s.externalIpSet c ip).Joined ↔ s.Joined := by
  unfold externalIpSet
  dsimp only
  split <;> rfl

/-- Only a response makes the adapter join. -/
theorem joined_ipCalls (c : ServerlessConf) (s : Serverless) {calls : List HttpCall}
    (h : FetcherHandler.Silent calls) : (calls.foldl (ipCall c) s).Joined ↔ s.Joined := by
  induction calls generalizing s with
  | nil => rfl
  | cons call calls ih =>
    have htail : FetcherHandler.Silent calls := fun content hmem =>
      h content (List.mem_cons_of_mem _ hmem)
    rw [List.foldl_cons, ih _ htail]
    unfold ipCall
    split
    · rfl
    · cases call with
      | handleResponse content => exact absurd List.mem_cons_self (h content)
      | handleError reason details => exact joined_emit _ (by simp)
      | handleClose => rfl

theorem joined_externalIpFetch (c : ServerlessConf) (o : Outside) (s : Serverless) :
    (s.externalIpFetch c o).Joined ↔ s.Joined := by
  have hfetch : (s.emit (.fetchIp c.ipSite)).Joined ↔ s.Joined := joined_emit _ (by simp)
  unfold externalIpFetch
  split
  · rfl
  split
  · rfl
  split
  · exact joined_externalIpSet c s _
  dsimp only
  split
  · exact (joined_emit _ (by simp)).trans hfetch
  · rename_i start _
    refine (joined_emit _ (by simp)).trans ?_
    have hcalls := (joined_ipCalls c (s.emit (.fetchIp c.ipSite)) (silent_calls o.ipFetch)).trans
      hfetch
    split <;> exact hcalls

theorem joined_connectNow (c : ServerlessConf) (o : Outside) (s : Serverless) :
    (s.connectNow c o).Joined ↔ s.Joined ∨ s.Ready := by
  unfold connectNow
  dsimp only
  split
  · exact joined_condGroupJoin s
  · split
    · rw [joined_externalIpFetch, joined_prepareConnect, joined_condGroupJoin]
    · rw [joined_prepareConnect, joined_condGroupJoin]

theorem joined_updateServerNodesDone (c : ServerlessConf) (o : Outside) (s : Serverless)
    (err : Int) : (s.updateServerNodesDone c o err).Joined ↔
      s.Joined ∨ err = 0 ∧ s.connectTry = 1 ∧ s.Ready := by
  have hdone : (s.emit (.updateServerNodesDone err)).Joined ↔ s.Joined := joined_emit _ (by simp)
  unfold updateServerNodesDone
  dsimp only
  split
  · rename_i hcond
    rw [joined_connectNow, hdone]
    exact or_congr_right ⟨fun hr => ⟨hcond.1, hcond.2, hr⟩, fun hr => hr.2.2⟩
  · rename_i hcond
    rw [hdone]
    exact (or_iff_left fun hr => hcond ⟨hr.1, hr.2.1⟩).symm

/-- The report of a failure joins nothing. -/
theorem joined_updateServerNodesFail (c : ServerlessConf) (o : Outside) (s : Serverless) :
    (s.updateServerNodesDone c o 1).Joined ↔ s.Joined := by
  rw [joined_updateServerNodesDone]
  exact or_iff_left fun hr => absurd hr.1 (by decide)

theorem joined_saverDone_error (c : ServerlessConf) (o : Outside) (s : Serverless) :
    (s.saverDone c o .error).Joined ↔ s.Joined :=
  (joined_updateServerNodesFail c o _).trans (joined_emit _ (by simp))

theorem joined_saverDone_ok (c : ServerlessConf) (o : Outside) (s : Serverless) :
    (s.saverDone c o .ok).Joined ↔ s.Joined ∨ 0 < o.contacts ∧ s.connectTry = 1 ∧ s.Ready := by
  by_cases hpos : 0 < o.contacts
  · have hsaved : s.savedContacts.Joined ↔ s.Joined := joined_emit _ (by simp)
    rw [saverDone_ok_of_pos (f := Joined) c s hpos (propext (joined_prepareConnect _)),
      joined_updateServerNodesDone, hsaved]
    exact or_congr_right (and_congr_left fun _ => iff_of_true rfl hpos)
  · rw [saverDone, if_neg hpos]
    refine (joined_updateServerNodesFail c o _).trans ((joined_emit _ (by simp)).trans ?_)
    exact (or_iff_left fun hr => hpos hr.1).symm

/-- What a reply leaves known. -/
def KnownAfter (c : ServerlessConf) (s : Serverless) (content : List UInt8) : Prop :=
  match c.matchIp content with
  | some (_, ip) => c.port ≠ 0 ∧ ip ≠ 0 ∧ ip ≠ 0xFFFFFFFF
  | none => s.externalIp ≠ {}

theorem externalIpSet_of_valid {c : ServerlessConf} {s : Serverless} {ip : UInt32}
    (hs : s.thrown = false) (h : c.port ≠ 0 ∧ ip ≠ 0 ∧ ip ≠ 0xFFFFFFFF) :
    (s.externalIpSet c ip).thrown = false ∧ (s.externalIpSet c ip).externalIp ≠ {} := by
  have hvalid : ¬(c.port = 0 ∨ ip = 0 ∨ ip = 0xFFFFFFFF) := by simpa using h
  simp only [externalIpSet, hvalid, if_false, hs, true_and]
  intro heq
  exact h.1 (congrArg InetAddr.port heq)

theorem externalIpSet_of_invalid {c : ServerlessConf} {s : Serverless} {ip : UInt32}
    (h : ¬(c.port ≠ 0 ∧ ip ≠ 0 ∧ ip ≠ 0xFFFFFFFF)) : (s.externalIpSet c ip).thrown = true := by
  have hinvalid : c.port = 0 ∨ ip = 0 ∨ ip = 0xFFFFFFFF := by
    by_contra hvalid
    exact h (by simpa using hvalid)
  simp only [externalIpSet, hinvalid, if_true]

theorem dhtClient_externalIpSet (c : ServerlessConf) (s : Serverless) (ip : UInt32) :
    (s.externalIpSet c ip).dhtClient = s.dhtClient := by
  unfold externalIpSet
  dsimp only
  split <;> rfl

theorem joined_handleResponse (c : ServerlessConf) {s : Serverless} (hs : s.thrown = false)
    (content : List UInt8) : (s.handleResponse c content).Joined ↔
      s.Joined ∨ s.dhtClient = some .connected ∧ s.KnownAfter c content := by
  unfold handleResponse KnownAfter
  cases hmatch : c.matchIp content with
  | none =>
    refine (joined_condGroupJoin _).trans ?_
    rw [joined_emit _ (by simp)]
    rfl
  | some m =>
    obtain ⟨ipstr, ip⟩ := m
    by_cases hvalid : c.port ≠ 0 ∧ ip ≠ 0 ∧ ip ≠ 0xFFFFFFFF
    · obtain ⟨hthrown, hknown⟩ := externalIpSet_of_valid hs hvalid
      simp only [hthrown, Bool.false_eq_true, if_false]
      rw [joined_condGroupJoin, joined_emit _ (by simp), joined_externalIpSet]
      refine or_congr_right ?_
      show (s.externalIpSet c ip).dhtClient = some .connected ∧
        (s.externalIpSet c ip).externalIp ≠ {} ↔ _
      rw [dhtClient_externalIpSet]
      exact and_congr_right fun _ => iff_of_true hknown hvalid
    · have hthrown := externalIpSet_of_invalid (s := s) hvalid
      simp only [hthrown, if_true]
      rw [joined_externalIpSet]
      exact (or_iff_left fun hr => hvalid hr.2).symm

/-- The calls of a step join the group when the first of them is a response that does. -/
theorem joined_ipCalls_step (c : ServerlessConf) {s : Serverless} (hs : s.thrown = false)
    (h : FetcherHandler) (e : FetchEvent) : ((h.step e).2.foldl (ipCall c) s).Joined ↔
      s.Joined ∨ ∃ content, h.Responds e content ∧ s.dhtClient = some .connected ∧
        s.KnownAfter c content := by
  have htail := FetcherHandler.silent_tail h e
  unfold FetcherHandler.Responds
  generalize (h.step e).2 = calls at htail
  cases calls with
  | nil => simp
  | cons call calls =>
    rw [List.tail_cons] at htail
    rw [List.foldl_cons, joined_ipCalls c _ htail]
    simp only [ipCall, hs, Bool.false_eq_true, if_false, List.head?_cons, Option.some_inj]
    cases call with
    | handleResponse content =>
      rw [joined_handleResponse c hs]
      simp
    | handleError reason details =>
      refine (joined_emit _ (by simp)).trans ?_
      simp
    | handleClose =>
      simp only [reduceCtorEq, false_and, exists_false, or_false]
      rfl

theorem joined_downloadCalls_step (c : ServerlessConf) (o : Outside) {s : Serverless}
    (hs : s.thrown = false) (notified : Bool) (h : FetcherHandler) (e : FetchEvent) :
    ((h.step e).2.foldl (downloadCall c o) (s, notified)).1.Joined ↔
      s.Joined ∨ ((∃ content, h.Responds e content) ∧ o.saved = true) ∧ 0 < o.contacts ∧
        s.connectTry = 1 ∧ s.Ready := by
  have herror : ∀ t : Serverless, (t.saverDone c o .error).Joined = t.Joined := fun t =>
    propext (joined_saverDone_error c o t)
  by_cases hresp : (∃ content, h.Responds e content) ∧ o.saved = true
  · obtain ⟨⟨content, hcontent⟩, hsaved⟩ := hresp
    rw [downloadCalls_of_responds herror hs notified hcontent hsaved, joined_saverDone_ok]
    exact or_congr_right (and_iff_right ⟨⟨content, hcontent⟩, hsaved⟩).symm
  · rw [downloadCalls_of_not herror s notified h e hresp]
    exact (or_iff_left fun hj => hresp hj.1).symm

theorem joined_handleException (c : ServerlessConf) (o : Outside) (s : Serverless) :
    (s.handleException c o).Joined ↔ s.Joined := by
  have hstart : s.fetchingContacts.Joined ↔ s.Joined :=
    (joined_emit _ (by simp)).trans (joined_emit _ (by simp))
  cases hupd : s.updatingContacts with
  | false => simp [handleException, hupd]
  | true =>
    rw [handleException_of_updating hupd, ← hstart]
    split
    · exact (joined_updateServerNodesFail c o _).trans (joined_emit _ (by simp))
    · rfl
    · rw [downloadCalls_silent (f := Joined) (fun t => propext (joined_saverDone_error c o t)) _
        (silent_calls _)]

theorem joined_dhtStateChanged (s : Serverless) (st : DhtState) :
    (s.dhtStateChanged st).Joined ↔ s.Joined ∨ st = .connected ∧ s.externalIp ≠ {} := by
  have hmsg : (({ s with dhtClient := some st } : Serverless).emit
      (.gui (dhtMessage st) "")).Joined ↔ s.Joined := joined_emit _ (by simp)
  unfold dhtStateChanged
  cases st with
  | connected =>
    refine (joined_condGroupJoin _).trans ?_
    rw [hmsg]
    exact or_congr_right (and_congr_left fun _ => iff_of_true rfl rfl)
  | disconnected =>
    have hupd : ∀ t : Serverless, (if s.connectTry = 1 then t.updateContacts else t).Joined ↔
        t.Joined := by
      intro t
      split
      · exact joined_updateContacts t
      · rfl
    refine ((hupd _).trans hmsg).trans ?_
    simp
  | connecting => exact hmsg.trans (by simp)
  | disconnecting => exact hmsg.trans (by simp)

theorem joined_disconnect (s : Serverless) : s.disconnect.Joined ↔ s.Joined := by
  unfold disconnect baseDisconnect prepareDisconnect
  dsimp only
  split
  · split
    · rfl
    · exact joined_emit _ (by simp)
  · rfl

theorem joined_groupStateChanged (s : Serverless) (st : GroupState) :
    (s.groupStateChanged st).Joined ↔ s.Joined := by
  unfold groupStateChanged
  dsimp only
  split
  · exact joined_disconnect _
  · rfl

theorem joined_putIpFetch (s : Serverless) (k : ℕ) (h : FetcherHandler) :
    (s.putIpFetch k h).Joined ↔ s.Joined := by
  unfold putIpFetch
  split <;> rfl

theorem joined_putDownload (s : Serverless) (k : ℕ) (d : Download) :
    (s.putDownload k d).Joined ↔ s.Joined := by
  unfold putDownload
  split <;> rfl

theorem joined_react_handleException (c : ServerlessConf) (o : Outside) (s : Serverless) :
    (react c o s .handleException).Joined ↔ s.Joined := by
  rw [react]
  split
  · rfl
  · exact joined_handleException c o _

theorem joined_react_dhtStateChanged (c : ServerlessConf) (o : Outside) (s : Serverless)
    (st : DhtState) : (react c o s (.dhtStateChanged st)).Joined ↔
      s.Joined ∨ s.dhtClient ≠ none ∧ st = .connected ∧ s.externalIp ≠ {} := by
  rw [react]
  split
  · rename_i hnone
    exact (or_iff_left fun hlate => hlate.1 hnone).symm
  · rename_i hclient
    rw [joined_dhtStateChanged, and_iff_right hclient]

theorem joined_react_ipFetch (c : ServerlessConf) (o : Outside) {s : Serverless}
    (hs : s.thrown = false) (k : ℕ) (e : FetchEvent) : (react c o s (.ipFetch k e)).Joined ↔
      s.Joined ∨ ∃ h, s.ipFetches[k]? = some h ∧ ∃ content, h.Responds e content ∧
        s.dhtClient = some .connected ∧ s.KnownAfter c content := by
  cases hk : s.ipFetches[k]? with
  | none =>
    rw [react_ipFetch_of_none hk]
    simp only [reduceCtorEq, false_and, exists_false, or_false]
  | some h =>
    rw [react_ipFetch hk, joined_putIpFetch, joined_ipCalls_step c hs]
    simp only [Option.some.injEq, exists_eq_left']

/-- A download joins when it tries to connect again and both are there. -/
theorem joined_react_download (c : ServerlessConf) (o : Outside) {s : Serverless}
    (hs : s.thrown = false) (k : ℕ) (e : FetchEvent) : (react c o s (.download k e)).Joined ↔
      s.Joined ∨ s.Retries k e o ∧ s.Ready := by
  unfold Retries
  cases hk : s.downloads[k]? with
  | none =>
    rw [react_download_of_none hk]
    simp only [reduceCtorEq, false_and, exists_false, or_false]
  | some d =>
    rw [react_download hk, joined_putDownload, joined_downloadCalls_step c o hs]
    simp only [Option.some.injEq, exists_eq_left', and_assoc]

/-! ## Runs -/

/-- The event is the last that the group was waiting for: the client is connected while the address
is known, a reply leaves the address known while the client is connected, or contacts arrive after
the first try to connect while both are there. -/
def Late (c : ServerlessConf) (s : Serverless) (i : ServerlessEvent × Outside) : Prop :=
  s.thrown = false ∧
    match i.1 with
    | .dhtStateChanged st => s.dhtClient ≠ none ∧ st = .connected ∧ s.externalIp ≠ {}
    | .ipFetch k e => ∃ h, s.ipFetches[k]? = some h ∧
        ∃ content, h.Responds e content ∧ s.dhtClient = some .connected ∧ s.KnownAfter c content
    | .download k e => s.Retries k e i.2 ∧ s.Ready
    | _ => False

/-- The user's last request was to connect. -/
def wanted (es : List (ServerlessEvent × Outside)) : Bool :=
  es.foldl (fun w i =>
    match i.1 with
    | .connect _ => true
    | .disconnect => false
    | _ => w) false

/-- A step calls `group_adapter_base::connect`. -/
def Joins (c : ServerlessConf) (s : Serverless) (i : ServerlessEvent × Outside) : Prop :=
  ∃ u, ServerlessAct.baseConnect u ∈ ((machine c).step s i).2

theorem joins_of_thrown {c : ServerlessConf} {s : Serverless} (hs : s.thrown = true)
    (i : ServerlessEvent × Outside) : ¬ Joins c s i := by
  simp [Joins, step_of_thrown hs]

theorem joins_iff_joined {c : ServerlessConf} {s : Serverless} (hs : s.thrown = false)
    (i : ServerlessEvent × Outside) : Joins c s i ↔ (react c i.2 s.fresh i.1).Joined := by
  rw [Joins, step_of_open hs]
  rfl

/-- What is not a request of the user joins exactly when it is late. -/
theorem joins_iff_late (c : ServerlessConf) (s : Serverless) (i : ServerlessEvent × Outside)
    (hno : ∀ u, i.1 ≠ .connect u) : Joins c s i ↔ s.Late c i := by
  cases hs : s.thrown with
  | true => exact iff_of_false (joins_of_thrown hs i) fun hlate => by simp [Late, hs] at hlate
  | false =>
    simp only [Late, hs, true_and]
    rw [joins_iff_joined hs]
    have hnew : ¬ s.fresh.Joined := by
      rintro ⟨u, hu⟩
      exact List.not_mem_nil hu
    obtain ⟨e, o⟩ := i
    cases e with
    | connect u => exact absurd rfl (hno u)
    | disconnect => exact iff_of_false (mt (joined_disconnect _).1 hnew) id
    | updateServerNodes => exact iff_of_false (mt (joined_updateContacts _).1 hnew) id
    | groupStateChanged st => exact iff_of_false (mt (joined_groupStateChanged _ st).1 hnew) id
    | handleException => exact iff_of_false (mt (joined_react_handleException c o _).1 hnew) id
    | dhtStateChanged st =>
      exact (joined_react_dhtStateChanged c o s.fresh st).trans (or_iff_right hnew)
    | ipFetch k e =>
      exact (joined_react_ipFetch c o (s := s.fresh) hs k e).trans (or_iff_right hnew)
    | download k e =>
      exact (joined_react_download c o (s := s.fresh) hs k e).trans (or_iff_right hnew)

/-- **Joining against the user's wish.** In a run the group is joined only while the user's last
request was to connect, exactly when nothing comes late before the first such request and between a
request to disconnect and the next one to connect. -/
theorem joins_wanted_iff (c : ServerlessConf) (s : Serverless)
    (es : List (ServerlessEvent × Outside)) :
    (∀ p i, p ++ [i] <+: es → Joins c ((machine c).exec s p) i → wanted (p ++ [i]) = true) ↔
      ∀ p i, p ++ [i] <+: es → wanted p = false → ¬ ((machine c).exec s p).Late c i := by
  refine forall_congr' fun p => forall_congr' fun i => imp_congr_right fun _ => ?_
  have hlast : wanted (p ++ [i]) =
      match i.1 with
      | .connect _ => true
      | .disconnect => false
      | _ => wanted p := List.foldl_concat ..
  have hother : ∀ w : Bool, ((((machine c).exec s p).Late c i → w = true) ↔
      (w = false → ¬((machine c).exec s p).Late c i)) := fun w => by cases w <;> simp
  obtain ⟨e, o⟩ := i
  rw [hlast]
  cases e with
  | connect u => exact iff_of_true (fun _ => rfl) fun _ hlate => hlate.2
  | disconnect =>
    rw [joins_iff_late c _ _ (by simp)]
    exact iff_of_true (fun hlate => hlate.2.elim) fun _ hlate => hlate.2
  | _ =>
    rw [joins_iff_late c _ _ (by simp)]
    exact hother _

/-- The address is configured; the DHT client reports to be connected after the user disconnects. -/
theorem joins_unwanted_of_late :
    let c : ServerlessConf := { ip := some 1, port := 1 }
    let p : List (ServerlessEvent × Outside) := [(.connect {}, {}), (.disconnect, {})]
    let i : ServerlessEvent × Outside := (.dhtStateChanged .connected, {})
    Joins c ((machine c).exec { kadcIni := true } p) i ∧ wanted (p ++ [i]) = false :=
  ⟨⟨{}, by decide⟩, rfl⟩

end Serverless

end RvHouse
