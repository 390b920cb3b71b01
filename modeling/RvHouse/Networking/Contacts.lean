import RvHouse.Networking.Serverless

/-!
# The update of the contacts

`kadc::dht_operation` updates the file of contacts by a notification of the reactor and a download.
`_updating_contacts` is to be set from the call of `update_contacts` that is accepted to the one
report of this update. `handle_exception` clears the flag while it goes on when the client is not
disconnected, and leaves it when the download throws; and a download may report twice.

`updates_alternate_iff_guarded` says in which runs requests and reports take turns as the flag
tells and no two downloads are in flight. `not_alternate_of_throws` is a run in which the download
throws and the contacts are never updated again.

A watcher reads what the adapter does; each function is described by what it makes of a
`ContactsView`.
-/

namespace RvHouse

/-- The watcher expects a request, or the report of the one before; `none` when it was surprised. -/
def watch : Option Bool → ServerlessAct → Option Bool
  | some false, .notify => some true
  | some true, .updateServerNodesDone _ => some false
  | _, .notify => none
  | _, .updateServerNodesDone _ => none
  | w, _ => w

/-- What the update of the contacts is about. -/
structure ContactsView where
  watched : Option Bool
  updating : Bool
  notifications : ℕ
  downloads : List Download
  kadcIni : Bool

namespace ContactsView

/-- A request is accepted. -/
def asked (v : ContactsView) : ContactsView :=
  { v with
    watched := watch v.watched .notify, updating := true, notifications := v.notifications + 1 }

/-- An update is reported. -/
def reported (v : ContactsView) : ContactsView :=
  { v with watched := watch v.watched (.updateServerNodesDone 0) }

/-- `update_contacts`. -/
def requested (v : ContactsView) : ContactsView := if v.updating then v else v.asked

end ContactsView

namespace Serverless

/-- The view of a state, for a watcher that was in the state `w` before. -/
def contactsView (w : Option Bool) (s : Serverless) : ContactsView :=
  ⟨s.out.foldl watch w, s.updatingContacts, s.notifications, s.downloads, s.kadcIni⟩

variable (w : Option Bool)

/-! ## What each function does to the view -/

theorem contactsView_emit (s : Serverless) {a : ServerlessAct} (ha : ∀ x, watch x a = x) :
    (s.emit a).contactsView w = s.contactsView w := by
  have hfold : (s.out ++ [a]).foldl watch w = s.out.foldl watch w := by
    rw [List.foldl_append, List.foldl_cons, ha, List.foldl_nil]
  simp only [contactsView, emit, hfold]

theorem contactsView_gui (s : Serverless) (id : MsgId) (text : String) :
    (s.emit (.gui id text)).contactsView w = s.contactsView w := by
  apply contactsView_emit
  rintro (_ | _ | _) <;> rfl

theorem contactsView_condGroupJoin (s : Serverless) :
    s.condGroupJoin.1.contactsView w = s.contactsView w := by
  have hbase : ∀ t : Serverless, (t.emit (.baseConnect t.self)).contactsView w =
      t.contactsView w := fun t => contactsView_emit w t (by rintro (_ | _ | _) <;> rfl)
  unfold condGroupJoin baseConnect
  dsimp only
  split
  · split
    · exact hbase s
    · exact (contactsView_emit w _ (by rintro (_ | _ | _) <;> rfl)).trans (hbase s)
  · rfl

theorem contactsView_updateContacts (s : Serverless) :
    s.updateContacts.contactsView w = (s.contactsView w).requested := by
  unfold updateContacts
  split
  · rename_i hupd
    exact (if_pos hupd).symm
  · rename_i hupd
    refine Eq.trans ?_ (if_neg hupd).symm
    simp only [contactsView, ContactsView.asked, emit, List.foldl_append, List.foldl_cons,
      List.foldl_nil]

theorem contactsView_dhtReadyToConnect (s : Serverless) :
    s.dhtReadyToConnect.contactsView w = s.contactsView w :=
  contactsView_emit w _ (by rintro (_ | _ | _) <;> rfl)

/-- Contacts are requested when the file is missing. -/
theorem contactsView_prepareConnect (s : Serverless) :
    s.prepareConnect.1.contactsView w =
      if s.Idle ∧ s.kadcIni = false then (s.contactsView w).requested else s.contactsView w := by
  by_cases hidle : s.Idle
  · rw [prepareConnect_of_idle hidle]
    by_cases hini : s.kadcIni = false
    · rw [if_pos (show s.Idle ∧ _ from ⟨hidle, hini⟩), if_neg (by simp [hini])]
      exact contactsView_updateContacts w _
    · rw [if_neg (show ¬(s.Idle ∧ _) from fun h => hini h.2), if_pos (by simpa using hini)]
      exact contactsView_dhtReadyToConnect w s
  · rw [prepareConnect_of_not_idle hidle, if_neg fun h => hidle h.1]

theorem contactsView_externalIpSet (c : ServerlessConf) (s : Serverless) (ip : UInt32) :
    (s.externalIpSet c ip).contactsView w = s.contactsView w := by
  unfold externalIpSet
  dsimp only
  split <;> rfl

theorem contactsView_ipCalls (c : ServerlessConf) (s : Serverless) (calls : List HttpCall) :
    (calls.foldl (ipCall c) s).contactsView w = s.contactsView w := by
  induction calls generalizing s with
  | nil => rfl
  | cons call calls ih =>
    rw [List.foldl_cons, ih]
    unfold ipCall
    split
    · rfl
    · cases call with
      | handleClose => rfl
      | handleError reason details => exact contactsView_gui w s _ _
      | handleResponse content =>
        dsimp only [handleResponse]
        split
        · split
          · exact contactsView_externalIpSet w c s _
          · exact (contactsView_condGroupJoin w _).trans
              ((contactsView_gui w _ _ _).trans (contactsView_externalIpSet w c s _))
        · exact (contactsView_condGroupJoin w _).trans (contactsView_gui w s _ _)

theorem contactsView_externalIpFetch (c : ServerlessConf) (o : Outside) (s : Serverless) :
    (s.externalIpFetch c o).contactsView w = s.contactsView w := by
  have hfetch : (s.emit (.fetchIp c.ipSite)).contactsView w = s.contactsView w :=
    contactsView_emit w s (by rintro (_ | _ | _) <;> rfl)
  unfold externalIpFetch
  split
  · rfl
  split
  · rfl
  split
  · exact contactsView_externalIpSet w c s _
  dsimp only
  split
  · exact (contactsView_gui w _ _ _).trans hfetch
  · refine (contactsView_gui w _ _ _).trans ?_
    have hcalls := (contactsView_ipCalls w c (s.emit (.fetchIp c.ipSite)) o.ipFetch.calls).trans
      hfetch
    split <;> exact hcalls

theorem contactsView_connectNow (c : ServerlessConf) (o : Outside) (s : Serverless) :
    (s.connectNow c o).contactsView w =
      if s.Idle ∧ s.kadcIni = false then (s.contactsView w).requested else s.contactsView w := by
  by_cases hidle : s.Idle
  · rw [connectNow_of_idle hidle, contactsView_externalIpFetch, contactsView_prepareConnect]
  · rw [connectNow_of_not_idle hidle, contactsView_condGroupJoin, if_neg fun h => hidle h.1]

theorem contactsView_done (s : Serverless) (err : Int) :
    (s.emit (.updateServerNodesDone err)).contactsView w = (s.contactsView w).reported := by
  have hany : ∀ x, watch x (.updateServerNodesDone err) = watch x (.updateServerNodesDone 0) := by
    rintro (_ | _ | _) <;> rfl
  simp only [contactsView, ContactsView.reported, emit, List.foldl_append, List.foldl_cons,
    List.foldl_nil, hany]

theorem contactsView_updateServerNodesDone (c : ServerlessConf) (o : Outside) {s : Serverless}
    {err : Int} (h : err ≠ 0 ∨ s.kadcIni = true) :
    (s.updateServerNodesDone c o err).contactsView w = (s.contactsView w).reported := by
  unfold updateServerNodesDone
  dsimp only
  split
  · rename_i hcond
    have hini : s.kadcIni = true := h.resolve_left (not_not_intro hcond.1)
    rw [contactsView_connectNow, if_neg fun hidle => ?_]
    · exact contactsView_done w s err
    · rw [show (s.emit _).kadcIni = true from hini] at hidle
      cases hidle.2
  · exact contactsView_done w s err

theorem contactsView_saverDone_error (c : ServerlessConf) (o : Outside) (s : Serverless) :
    (s.saverDone c o .error).contactsView w =
      { (s.contactsView w).reported with updating := false } := by
  rw [saverDone_error, contactsView_done, contactsView_gui]
  rfl

theorem contactsView_saverDone_ok (c : ServerlessConf) (o : Outside) (s : Serverless) :
    (s.saverDone c o .ok).contactsView w =
      { (s.contactsView w).reported with
        updating := false
        kadcIni := decide (0 < o.contacts) } := by
  by_cases hpos : 0 < o.contacts
  · have hini : (0 : Int) ≠ 0 ∨ s.savedContacts.kadcIni = true := .inr rfl
    have hdone := contactsView_updateServerNodesDone w c o hini
    have hsaved : s.savedContacts.contactsView w =
        { s.contactsView w with updating := false, kadcIni := true } := contactsView_gui w _ _ _
    have hlast : (s.savedContacts.updateServerNodesDone c o 0).kadcIni = true :=
      congrArg ContactsView.kadcIni hdone
    rw [saverDone_ok_of_pos (f := contactsView w) c s hpos, hdone, hsaved]
    · simp [ContactsView.reported, hpos]
    · refine (contactsView_prepareConnect w _).trans (if_neg fun h => ?_)
      rw [hlast] at h
      cases h.2
  · rw [saverDone, if_neg hpos, updateServerNodesDone_of_ne (by decide)]
    have hdone := contactsView_done w ((({ s with updatingContacts := false } : Serverless).emit
      (.gui .dhtUpdNodesFail ""))) 1
    rw [contactsView_gui] at hdone
    refine (congrArg (fun v : ContactsView => { v with kadcIni := false }) hdone).trans ?_
    simp only [hpos, decide_false]
    rfl

theorem contactsView_saverDone (c : ServerlessConf) (o : Outside) (s : Serverless)
    (status : SaverStatus) : ∃ kadcIni, (s.saverDone c o status).contactsView w =
      { (s.contactsView w).reported with updating := false, kadcIni := kadcIni } := by
  cases status with
  | ok => exact ⟨_, contactsView_saverDone_ok w c o s⟩
  | error => exact ⟨_, contactsView_saverDone_error w c o s⟩

theorem contactsView_putDownload {s : Serverless} (hs : s.thrown = false) (k : ℕ) (d : Download) :
    (s.putDownload k d).contactsView w =
      { s.contactsView w with
        downloads := if d.conn.deleted then s.downloads.eraseIdx k else s.downloads.set k d } := by
  rw [putDownload, if_neg (by simp [hs])]
  rfl

theorem contactsView_disconnect (s : Serverless) :
    s.disconnect.contactsView w = s.contactsView w := by
  unfold disconnect baseDisconnect
  dsimp only
  split
  · split
    · rfl
    · exact contactsView_emit w _ (by rintro (_ | _ | _) <;> rfl)
  · rfl

theorem contactsView_dhtStateChanged (s : Serverless) (st : DhtState) :
    (s.dhtStateChanged st).contactsView w = s.contactsView w ∨
      (s.dhtStateChanged st).contactsView w = (s.contactsView w).requested := by
  have hmsg : (({ s with dhtClient := some st } : Serverless).emit
      (.gui (dhtMessage st) "")).contactsView w = s.contactsView w := contactsView_gui w _ _ _
  cases st with
  | connected => exact .inl ((contactsView_condGroupJoin w _).trans hmsg)
  | connecting => exact .inl hmsg
  | disconnecting => exact .inl hmsg
  | disconnected =>
    unfold dhtStateChanged
    dsimp only
    split
    · refine .inr ((contactsView_updateContacts w _).trans ?_)
      rw [hmsg]
    · exact .inl hmsg

/-- Every other event leaves the view alone, or asks for an update. -/
theorem contactsView_react (c : ServerlessConf) (o : Outside) (s : Serverless)
    {e : ServerlessEvent} (hexc : e ≠ .handleException) (hdown : ∀ k f, e ≠ .download k f) :
    (react c o s e).contactsView w = s.contactsView w ∨
      (react c o s e).contactsView w = (s.contactsView w).requested := by
  cases e with
  | connect u =>
    rw [react, connect]
    split
    · exact .inl rfl
    · rw [contactsView_connectNow]
      split
      · exact .inr rfl
      · exact .inl rfl
  | disconnect => exact .inl (contactsView_disconnect w s)
  | updateServerNodes => exact .inr (contactsView_updateContacts w s)
  | dhtStateChanged st =>
    rw [react]
    split
    · exact .inl rfl
    · exact contactsView_dhtStateChanged w s st
  | groupStateChanged st =>
    rw [react, groupStateChanged]
    split
    · exact .inl (contactsView_disconnect w _)
    · exact .inl rfl
  | handleException => exact absurd rfl hexc
  | download k f => exact absurd rfl (hdown k f)
  | ipFetch k f =>
    left
    cases hk : s.ipFetches[k]? with
    | none => rw [react_ipFetch_of_none hk]
    | some h =>
      rw [react_ipFetch hk]
      refine Eq.trans ?_ (contactsView_ipCalls w c s (h.step f).2)
      unfold putIpFetch
      split <;> rfl

/-! ## The calls of a download -/

/-- The connection ends with one report at most. -/
def OneReport (calls : List HttpCall) : Prop :=
  calls = [.handleClose] ∨
    ∃ report : HttpCall, report.isReport = true ∧ calls = [report, .handleClose]

/-- With one report at most, the target is told once. -/
theorem downloadCalls_of_once (c : ServerlessConf) (o : Outside) {s : Serverless}
    (hs : s.thrown = false) {calls : List HttpCall} (h : OneReport calls) :
    ∃ status, calls.foldl (downloadCall c o) (s, false) = (s.saverDone c o status, true) := by
  have hclose : ∀ t : Serverless, downloadCall c o (t, true) .handleClose = (t, true) := by
    intro t
    unfold downloadCall
    split <;> rfl
  have hopen : ¬ s.thrown = true := by simp [hs]
  rcases h with rfl | ⟨report, hreport, rfl⟩
  · exact ⟨.error, if_neg hopen⟩
  · cases report with
    | handleClose => cases hreport
    | handleResponse content =>
      refine ⟨if o.saved then .ok else .error, ?_⟩
      rw [List.foldl_cons, downloadCall, if_neg hopen]
      exact hclose _
    | handleError reason details =>
      refine ⟨.error, ?_⟩
      rw [List.foldl_cons, downloadCall, if_neg hopen]
      exact hclose _

/-- With two errors it is told twice. -/
theorem downloadCalls_of_twice (c : ServerlessConf) (o : Outside) {s : Serverless}
    (hs : s.thrown = false) (notified : Bool) (reason₁ reason₂ : HttpError)
    (details₁ details₂ : String) :
    [.handleError reason₁ details₁, .handleError reason₂ details₂, .handleClose].foldl
        (downloadCall c o) (s, notified) =
      ((s.saverDone c o .error).saverDone c o .error, true) := by
  simp only [List.foldl_cons, List.foldl_nil, downloadCall, hs, Bool.false_eq_true, if_false,
    doNotify, saverDone_error, emit, if_true]

/-! ## The phases of an update -/

/-- The flag, the notifications and the downloads while nothing goes wrong. -/
inductive Phase : Bool → ℕ → List Download → Prop
  | idle : Phase false 0 []
  | notified : Phase true 1 []
  | downloading (d : Download) (hopen : d.conn.deleted = false) (hnotified : d.notified = false) :
    Phase true 0 [d]

/-- The watcher knows the flag and is not surprised, and one download is in flight at most. -/
def Alternate (v : ContactsView) : Prop :=
  v.watched = some v.updating ∧ v.downloads.length ≤ 1

/-- The invariant; after an exception only the last part counts. -/
def Updating (s : Serverless) : Prop :=
  (s.thrown = false → Phase s.updatingContacts s.notifications s.downloads) ∧
    s.downloads.length ≤ 1

theorem Phase.cases {updating : Bool} {notifications : ℕ} {downloads : List Download}
    (h : Phase updating notifications downloads) :
    (notifications = 0 ∧ downloads = []) ∨
      (updating = true ∧ notifications = 1 ∧ downloads = []) ∨
      ∃ d, updating = true ∧ notifications = 0 ∧ downloads = [d] ∧ d.conn.deleted = false ∧
        d.notified = false := by
  cases h with
  | idle => exact .inl ⟨rfl, rfl⟩
  | notified => exact .inr (.inl ⟨rfl, rfl, rfl⟩)
  | downloading d hopen hnotified => exact .inr (.inr ⟨d, rfl, rfl, rfl, hopen, hnotified⟩)

theorem Phase.length_le {updating : Bool} {notifications : ℕ} {downloads : List Download}
    (h : Phase updating notifications downloads) : downloads.length ≤ 1 := by
  cases h with
  | idle => exact Nat.zero_le 1
  | notified => exact Nat.zero_le 1
  | downloading d => exact le_rfl

/-- The view of a phase that the watcher knows. -/
def InPhase (v : ContactsView) : Prop :=
  v.watched = some v.updating ∧ Phase v.updating v.notifications v.downloads

theorem InPhase.alternate {v : ContactsView} (h : InPhase v) : Alternate v := ⟨h.1, h.2.length_le⟩

theorem InPhase.requested {v : ContactsView} (h : InPhase v) : InPhase v.requested := by
  obtain ⟨watched, updating, notifications, downloads, kadcIni⟩ := v
  obtain ⟨hw : watched = some updating, hphase : Phase updating notifications downloads⟩ := h
  subst hw
  cases hphase with
  | idle => exact ⟨rfl, .notified⟩
  | notified => exact ⟨rfl, .notified⟩
  | downloading d hopen hnotified => exact ⟨rfl, .downloading d hopen hnotified⟩

/-! ## Steps -/

/-- The reactor's notification finds no client under way unless the download throws, and finds one
if it does; what ends a download finds some bytes. -/
def UpdateGoesOn (s : Serverless) (i : ServerlessEvent × Outside) : Prop :=
  s.thrown = false →
    match i.1 with
    | .handleException =>
      s.notifications ≠ 0 →
        match i.2.contactsFetch with
        | .started => s.Idle
        | .throws _ => ¬ s.Idle
        | _ => True
    | .download k e => ∀ d, s.downloads[k]? = some d → d.conn.EndsWithBytes e
    | _ => True

/-- What a watcher that knows the flag sees of an event. -/
def viewAfter (c : ServerlessConf) (s : Serverless) (i : ServerlessEvent × Outside) :
    ContactsView :=
  (react c i.2 s.fresh i.1).contactsView (some s.updatingContacts)

/-- The view is in order; after an exception no phase is looked for. -/
def Orderly (thrown : Bool) (v : ContactsView) : Prop :=
  Alternate v ∧ (thrown = false → Phase v.updating v.notifications v.downloads)

theorem InPhase.orderly {v : ContactsView} (h : InPhase v) (thrown : Bool) : Orderly thrown v :=
  ⟨h.alternate, fun _ => h.2⟩

/-- The condition keeps the view in order, and is what it takes. -/
def Exactly (C : Prop) (thrown : Bool) (v : ContactsView) : Prop :=
  (C → Orderly thrown v) ∧ (Alternate v → C)

theorem exactly_of_inPhase {C : Prop} (hC : C) (thrown : Bool) {v : ContactsView} (h : InPhase v) :
    Exactly C thrown v :=
  ⟨fun _ => h.orderly thrown, fun _ => hC⟩

theorem exactly_of_ne {C : Prop} (hC : ¬ C) (thrown : Bool) {v : ContactsView}
    (h : v.watched ≠ some v.updating) : Exactly C thrown v :=
  ⟨fun hc => absurd hc hC, fun hv => absurd hv.1 h⟩

/-- What is left of a connection that ends with one report at most. -/
theorem contactsView_of_once (c : ServerlessConf) (o : Outside) {s : Serverless}
    (hs : s.thrown = false) {calls : List HttpCall} (h : OneReport calls) :
    ∃ kadcIni t, calls.foldl (downloadCall c o) (s, false) = (t, true) ∧
      t.contactsView (some true) =
        { (s.contactsView (some true)).reported with updating := false, kadcIni := kadcIni } := by
  obtain ⟨status, hfold⟩ := downloadCalls_of_once c o hs h
  obtain ⟨kadcIni, hdone⟩ := contactsView_saverDone (some true) c o s status
  exact ⟨kadcIni, _, hfold, hdone⟩

/-- The view when the contacts are to be fetched. -/
theorem contactsView_fetchingContacts {s : Serverless} (hnot : s.notifications = 0)
    (hdown : s.downloads = []) (hout : s.out = []) :
    s.fetchingContacts.contactsView (some true) =
      ⟨some true, decide s.Idle, 0, [], s.kadcIni⟩ := by
  simp [contactsView, fetchingContacts, emit, hout, hnot, hdown, watch]

/-- The notification starts a download, or reports at once. -/
theorem exactly_handleException (c : ServerlessConf) (o : Outside) {s : Serverless}
    (hs : s.thrown = false) (hupd : s.updatingContacts = true) (hnot : s.notifications = 0)
    (hdown : s.downloads = []) (hout : s.out = []) :
    Exactly
      (match o.contactsFetch with
      | .started => s.Idle
      | .throws _ => ¬ s.Idle
      | _ => True)
      (s.handleException c o).thrown ((s.handleException c o).contactsView (some true)) := by
  have hview := contactsView_fetchingContacts hnot hdown hout
  -- A connection that fails at once reports once.
  have honce : ∀ {calls : List HttpCall}, OneReport calls →
      InPhase ((calls.foldl (downloadCall c o) (s.fetchingContacts, false)).1.contactsView
        (some true)) := by
    intro calls hcalls
    obtain ⟨kadcIni, t, hfold, ht⟩ := contactsView_of_once c o
      (show s.fetchingContacts.thrown = false from hs) hcalls
    rw [hfold, ht, hview]
    exact ⟨rfl, .idle⟩
  rw [handleException_of_updating hupd]
  cases o.contactsFetch with
  | throws what =>
    dsimp only
    rw [updateServerNodesDone_of_ne (by decide), contactsView_done, contactsView_gui, hview]
    by_cases hidle : s.Idle
    · refine exactly_of_ne (not_not_intro hidle) _ ?_
      simp [ContactsView.reported, watch, hidle]
    · refine exactly_of_inPhase hidle _ ?_
      simp only [hidle, decide_false]
      exact ⟨rfl, .idle⟩
  | started =>
    have hstart : ({ s.fetchingContacts with downloads := s.downloads ++ [{}] } :
        Serverless).contactsView (some true) = ⟨some true, decide s.Idle, 0, [{}], s.kadcIni⟩ := by
      rw [hdown]
      exact congrArg (fun v : ContactsView => { v with downloads := [{}] }) hview
    dsimp only
    rw [hstart]
    by_cases hidle : s.Idle
    · refine exactly_of_inPhase hidle _ ?_
      simp only [hidle, decide_true]
      exact ⟨rfl, .downloading {} rfl rfl⟩
    · refine exactly_of_ne hidle _ ?_
      simp [hidle]
  | unresolved => exact exactly_of_inPhase trivial _ (honce (.inl rfl))
  | connectFailed => exact exactly_of_inPhase trivial _ (honce (.inr ⟨_, rfl, rfl⟩))

/-- After the one report the connection is gone, unless the report throws. -/
theorem orderly_of_once (c : ServerlessConf) (o : Outside) {s : Serverless} (hs : s.thrown = false)
    {d : Download} {kadcIni : Bool}
    (hview : s.contactsView (some true) = ⟨some true, true, 0, [d], kadcIni⟩)
    {calls : List HttpCall} (hcalls : OneReport calls) {conn : FetcherHandler}
    (hdel : conn.deleted = true) {r : Serverless × Bool}
    (hr : r = calls.foldl (downloadCall c o) (s, false)) :
    Orderly (r.1.putDownload 0 ⟨conn, r.2⟩).thrown
      ((r.1.putDownload 0 ⟨conn, r.2⟩).contactsView (some true)) := by
  obtain ⟨kadcIni', t, hfold, hdone⟩ := contactsView_of_once c o hs hcalls
  rw [hfold] at hr
  rw [hview] at hdone
  subst hr
  dsimp only
  cases ht : t.thrown with
  | true =>
    rw [putDownload, if_pos ht, hdone, ht]
    exact ⟨⟨rfl, le_rfl⟩, fun h => by cases h⟩
  | false =>
    have hlist : t.downloads = [d] := congrArg ContactsView.downloads hdone
    rw [contactsView_putDownload (some true) ht, hdone, if_pos hdel, hlist]
    exact InPhase.orderly ⟨rfl, .idle⟩ _

/-- A download goes on, or ends with one report, or with two. -/
theorem exactly_download (c : ServerlessConf) (o : Outside) {s : Serverless} (hs : s.thrown = false)
    (hupd : s.updatingContacts = true) (hnot : s.notifications = 0) {d : Download}
    (hopen : d.conn.deleted = false) (hnotified : d.notified = false) (hdown : s.downloads = [d])
    (hout : s.out = []) (e : FetchEvent) :
    Exactly (d.conn.EndsWithBytes e) (react c o s (.download 0 e)).thrown
      ((react c o s (.download 0 e)).contactsView (some true)) := by
  have hview : s.contactsView (some true) = ⟨some true, true, 0, [d], s.kadcIni⟩ := by
    simp [contactsView, hout, hnot, hdown, hupd]
  rw [react_download (by rw [hdown]; rfl), hnotified]
  rcases FetcherHandler.step_cases hopen e with ⟨hopen', hcalls, hends⟩ | ⟨hdel, hcalls, hends⟩ |
    ⟨hdel, hends, report, hreport, hcalls⟩ | ⟨hdel, hends, reason, details, hcalls⟩
  · refine exactly_of_inPhase hends _ ?_
    rw [hcalls, List.foldl_nil, contactsView_putDownload (some true) hs, hview, hopen',
      if_neg Bool.false_ne_true, hdown]
    exact ⟨rfl, .downloading _ hopen' rfl⟩
  · exact ⟨fun _ => orderly_of_once c o hs hview (.inl hcalls) hdel rfl, fun _ => hends⟩
  · exact ⟨fun _ => orderly_of_once c o hs hview (.inr ⟨report, hreport, hcalls⟩) hdel rfl,
      fun _ => hends⟩
  · refine exactly_of_ne hends _ ?_
    have hthrown : ((s.saverDone c o .error).saverDone c o .error).thrown = false := by
      rw [saverDone_error, saverDone_error]
      exact hs
    rw [hcalls, downloadCalls_of_twice c o hs, contactsView_putDownload (some true) hthrown,
      contactsView_saverDone_error, contactsView_saverDone_error, hview]
    simp [ContactsView.reported, watch]

/-! ## Runs -/

theorem inPhase_fresh {s : Serverless} (hs : s.thrown = false) (h : s.Updating) :
    InPhase (s.fresh.contactsView (some s.updatingContacts)) := ⟨rfl, h.1 hs⟩

theorem exactly_step_handleException {s : Serverless} (hs : s.thrown = false) (h : s.Updating)
    (c : ServerlessConf) (o : Outside) :
    Exactly (s.UpdateGoesOn (.handleException, o)) (react c o s.fresh .handleException).thrown
      (viewAfter c s (.handleException, o)) := by
  have hrest := inPhase_fresh hs h
  unfold UpdateGoesOn viewAfter
  simp only [hs, true_implies]
  rcases (h.1 hs).cases with ⟨hnot, -⟩ | ⟨hupd, hnot, hdown⟩ | ⟨d, -, hnot, -⟩
  · rw [react, if_pos (show s.fresh.notifications = 0 from hnot)]
    exact exactly_of_inPhase (absurd hnot) _ hrest
  · have hone : ¬ s.fresh.notifications = 0 := by
      rw [show s.fresh.notifications = 1 from hnot]
      exact one_ne_zero
    rw [react, if_neg hone, hupd]
    have hexc := exactly_handleException c o
      (s := { s.fresh with notifications := s.fresh.notifications - 1 }) hs hupd
      (by rw [show s.fresh.notifications = 1 from hnot]) hdown rfl
    exact ⟨fun hC => hexc.1 (hC hone), fun hv _ => hexc.2 hv⟩
  · rw [react, if_pos (show s.fresh.notifications = 0 from hnot)]
    exact exactly_of_inPhase (absurd hnot) _ hrest

theorem exactly_step_download {s : Serverless} (hs : s.thrown = false) (h : s.Updating)
    (c : ServerlessConf) (o : Outside) (k : ℕ) (e : FetchEvent) :
    Exactly (s.UpdateGoesOn (.download k e, o)) (react c o s.fresh (.download k e)).thrown
      (viewAfter c s (.download k e, o)) := by
  unfold UpdateGoesOn viewAfter
  simp only [hs, true_implies]
  cases hk : s.downloads[k]? with
  | none =>
    rw [react_download_of_none (s := s.fresh) hk]
    refine exactly_of_inPhase (fun d hd => ?_) _ (inPhase_fresh hs h)
    cases hd
  | some d =>
    rcases (h.1 hs).cases with ⟨-, hdown⟩ | ⟨-, -, hdown⟩ |
      ⟨d', hupd, hnot, hdown, hopen, hnotified⟩
    · rw [hdown] at hk
      cases hk
    · rw [hdown] at hk
      cases hk
    · -- The one download is the one that the event is about.
      obtain ⟨rfl, rfl⟩ : k = 0 ∧ d' = d := by
        rw [hdown, List.getElem?_singleton] at hk
        split at hk
        · rename_i hzero
          exact ⟨hzero, Option.some.inj hk⟩
        · cases hk
      have hdl := exactly_download c o (s := s.fresh) hs hupd hnot hopen hnotified hdown rfl e
      rw [hupd]
      refine ⟨fun hC => hdl.1 (hC d' rfl), fun hv d hd => ?_⟩
      cases hd
      exact hdl.2 hv

theorem exactly_step {s : Serverless} (hs : s.thrown = false) (h : s.Updating) (c : ServerlessConf)
    (i : ServerlessEvent × Outside) :
    Exactly (s.UpdateGoesOn i) (react c i.2 s.fresh i.1).thrown (viewAfter c s i) := by
  have hrest := inPhase_fresh hs h
  obtain ⟨e, o⟩ := i
  have hother : e ≠ .handleException → (∀ k f, e ≠ .download k f) →
      InPhase (viewAfter c s (e, o)) := by
    intro hexc hdown
    unfold viewAfter
    rcases contactsView_react (some s.updatingContacts) c o s.fresh hexc hdown with hsame | hreq
    · rw [hsame]
      exact hrest
    · rw [hreq]
      exact hrest.requested
  cases e with
  | handleException => exact exactly_step_handleException hs h c o
  | download k e => exact exactly_step_download hs h c o k e
  | _ => exact exactly_of_inPhase (fun _ => trivial) _ (hother (by simp) (by simp))

/-- The flag and the watcher agree after a step, and one download is in flight at most. -/
def StepAlternates (c : ServerlessConf) (s : Serverless) (i : ServerlessEvent × Outside) : Prop :=
  ((machine c).step s i).2.foldl watch (some s.updatingContacts) =
      some ((machine c).step s i).1.updatingContacts ∧
    ((machine c).step s i).1.downloads.length ≤ 1

theorem stepAlternates_iff {s : Serverless} (h : s.Updating) (c : ServerlessConf)
    (i : ServerlessEvent × Outside) : StepAlternates c s i ↔ s.UpdateGoesOn i := by
  cases hs : s.thrown with
  | true =>
    rw [StepAlternates, step_of_thrown hs]
    exact iff_of_true ⟨rfl, h.2⟩ fun hopen => by simp [hs] at hopen
  | false =>
    have hexact := exactly_step hs h c i
    rw [StepAlternates, step_of_open hs]
    exact ⟨hexact.2, fun hC => (hexact.1 hC).1⟩

theorem updating_step {s : Serverless} (h : s.Updating) (c : ServerlessConf)
    {i : ServerlessEvent × Outside} (hC : s.UpdateGoesOn i) :
    ((machine c).step s i).1.Updating := by
  cases hs : s.thrown with
  | true => rwa [step_of_thrown hs]
  | false =>
    have horderly := (exactly_step hs h c i).1 hC
    rw [step_of_open hs]
    exact ⟨horderly.2, horderly.1.2⟩

/-- **Updates take turns.** At every point of a run the requests that were accepted and the reports
have taken turns, the flag tells whether a report is due, and one download is in flight at most,
exactly when every step of an update goes on as `UpdateGoesOn` says. -/
theorem updates_alternate_iff_guarded (c : ServerlessConf) (kadcIni : Bool)
    (es : List (ServerlessEvent × Outside)) :
    (∀ p, p <+: es →
      ((machine c).trace { kadcIni := kadcIni } p).foldl watch (some false) =
          some ((machine c).exec { kadcIni := kadcIni } p).updatingContacts ∧
        ((machine c).exec { kadcIni := kadcIni } p).downloads.length ≤ 1) ↔
      (machine c).Guarded UpdateGoesOn { kadcIni := kadcIni } es := by
  have hstart : ({ kadcIni := kadcIni } : Serverless).Updating := ⟨fun _ => .idle, Nat.zero_le 1⟩
  rw [← (machine c).forall_steps_iff_guarded (I := Updating) (P := StepAlternates c)
    (fun s i hI hC => updating_step hI c hC) (fun s i hI => stepAlternates_iff hI c i) hstart es]
  have hwatch : (∀ p, p <+: es → _ = _) ↔ ∀ p i, p ++ [i] <+: es → List.foldl watch _ _ = _ :=
    (machine c).forall_along_eq_iff (v := fun s => some s.updatingContacts)
      { kadcIni := kadcIni } es
  constructor
  · intro h p i hp
    refine ⟨hwatch.1 (fun q hq => (h q hq).1) p i hp, ?_⟩
    have hlast := (h (p ++ [i]) hp).2
    rwa [Mealy.exec_append] at hlast
  · intro h p hp
    refine ⟨hwatch.2 (fun q i hq => (h q i hq).1) p hp, ?_⟩
    rcases List.eq_nil_or_concat p with rfl | ⟨q, i, rfl⟩
    · exact Nat.zero_le 1
    · rw [List.concat_eq_append] at hp ⊢
      rw [Mealy.exec_append]
      exact (h q i hp).2

/-- The download throws: the failure is reported and the flag stays, so that the next request is
refused although nothing is in progress. -/
theorem not_alternate_of_throws :
    let es : List (ServerlessEvent × Outside) :=
      [(.updateServerNodes, {}), (.handleException, { contactsFetch := .throws "" })]
    let s := (machine {}).exec {} es
    ((machine {}).trace {} es).foldl watch (some false) = some false ∧
      s.updatingContacts = true ∧ s.notifications = 0 ∧ s.downloads = [] ∧
      (machine {}).trace s [(.updateServerNodes, {})] = [] := by
  decide

end Serverless

end RvHouse
