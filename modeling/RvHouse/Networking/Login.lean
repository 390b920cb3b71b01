import RvHouse.Http.Connector
import RvHouse.Messaging.Message
import RvHouse.Networking.AddressReply

/-!
# Login and registration

`login_manager_rvzt`: a login or a registration is one fetch from the authentication site, and its
outcome a message to the GUI. The handler of the fetch posts it (`LoginHandler.call`), and so does
`_login_operation` when the fetch is not begun.

`Fetch.reports_iff_guarded` says in which runs a fetch gives one report, and `oneOutcome_iff` for
which fetches a request has one outcome: not when the connection is refused at once, where both
report, nor when what ends the connection finds no bytes, where the connection reports twice, nor
when the connection times out, where nothing is reported. `not_oneOutcome_of_refused` is the
shortest with two outcomes.
-/

namespace RvHouse

/-! ## Fetches with one report -/

namespace FetcherHandler

/-- What ends the connection leads to one report: a `handle_input` that ends it finds some bytes in
the buffer, and a `handle_close` that comes alone finds none. -/
def EndsOnce (h : FetcherHandler) (e : FetchEvent) : Prop :=
  h.EndsWithBytes e ∧ (e = .handleClose → h.recvMb = [])

/-- A call of an open connection leaves it open without a report, or ends it. -/
theorem open_or_ends {h : FetcherHandler} (hopen : h.deleted = false) (e : FetchEvent) :
    ((h.step e).1.deleted = false ∧ (h.step e).2 = [] ∧ h.EndsOnce e) ∨
      ((h.step e).1.deleted = true ∧
        ((h.step e).2.countP HttpCall.isReport = 1 ↔ h.EndsOnce e)) := by
  cases e with
  | opened =>
    rw [h.step_of_idle (.inl rfl)]
    exact .inl ⟨hopen, rfl, trivial, nofun⟩
  | handleTimeout =>
    rw [h.step_of_idle (.inr rfl)]
    exact .inl ⟨hopen, rfl, trivial, nofun⟩
  | handleClose =>
    rw [step_handleClose hopen]
    refine .inr ⟨rfl, ?_⟩
    by_cases hempty : h.recvMb = []
    · rw [handleClose_of_empty hempty]
      exact iff_of_true rfl ⟨trivial, fun _ => hempty⟩
    · rw [handleClose_of_bytes hempty]
      exact iff_of_false (by decide) fun hends => hempty (hends.2 rfl)
  | handleInput r =>
    have hiff : h.EndsOnce (.handleInput r) ↔ h.EndsWithBytes (.handleInput r) :=
      and_iff_left fun hclose => by cases hclose
    rw [hiff]
    cases hr : h.handleInput r with
    | inr h' =>
      rw [step_of_received hopen hr]
      obtain ⟨hdel, hends⟩ := goesOn_of_handleInput hr
      exact .inl ⟨hdel.trans hopen, rfl, hends⟩
    | inl report =>
      rw [step_of_report hopen hr, endsWithBytes_iff_of_report hopen hr,
        List.countP_cons_of_pos (isReport_handleInput hr)]
      refine .inr ⟨rfl, ?_⟩
      by_cases hempty : h.recvMb = []
      · rw [handleClose_of_empty hempty]
        exact iff_of_false (by decide) (not_not_intro hempty)
      · rw [handleClose_of_bytes hempty]
        exact iff_of_true rfl hempty

end FetcherHandler

namespace Fetch

/-- A call that comes is not that of the timer, and if it ends the connection, then with one
report. -/
def EndsOnce (f : Fetch) (e : FetchEvent) : Prop :=
  f.Takes e → e ≠ .handleTimeout ∧ f.handler.EndsOnce e

/-- A call of a fetch that goes on leaves it so without a report, or ends it. -/
theorem open_or_ends {f : Fetch} (hopen : f.isOver = false) (e : FetchEvent) :
    ((f.step e).1.isOver = false ∧ (f.step e).2 = [] ∧ f.EndsOnce e) ∨
      ((f.step e).1.isOver = true ∧
        ((f.step e).2.countP HttpCall.isReport = 1 ↔ f.EndsOnce e)) := by
  by_cases htakes : f.Takes e
  · have hends : f.EndsOnce e ↔ e ≠ .handleTimeout ∧ f.handler.EndsOnce e :=
      ⟨fun h => h htakes, fun h _ => h⟩
    rw [hends]
    by_cases he : e = .handleTimeout
    · subst he
      obtain ⟨hover, hcalls⟩ := step_handleTimeout htakes
      rw [hover, hcalls]
      exact .inr ⟨rfl, iff_of_false (by decide) fun h => h.1 rfl⟩
    · rw [isOver_step htakes he, and_iff_right he, step_of_takes htakes]
      exact FetcherHandler.open_or_ends (deleted_of_takes htakes) e
  · rw [step_of_not_takes htakes]
    exact .inl ⟨hopen, rfl, fun h => absurd h htakes⟩

/-- **One report.** A fetch gives its one report when it ends, in the runs in which every call meets
`EndsOnce`, and in no others. -/
theorem reports_iff_guarded (es : List FetchEvent) :
    (machine.trace {} es).countP HttpCall.isReport =
        (if (machine.exec {} es).isOver then 1 else 0) ↔
      machine.Guarded EndsOnce {} es := by
  suffices h : ∀ f : Fetch, f.isOver = false →
      ((machine.trace f es).countP HttpCall.isReport =
          (if (machine.exec f es).isOver then 1 else 0) ↔
        machine.Guarded EndsOnce f es) from h {} rfl
  induction es with
  | nil =>
    intro f hopen
    simp [hopen, Mealy.Guarded]
  | cons e es ih =>
    intro f hopen
    simp only [Mealy.trace_cons, Mealy.exec_cons, Mealy.Guarded, List.countP_append]
    show (f.step e).2.countP _ + (machine.trace (f.step e).1 es).countP _ =
        (if (machine.exec (f.step e).1 es).isOver then 1 else 0) ↔
      f.EndsOnce e ∧ machine.Guarded EndsOnce (f.step e).1 es
    rcases open_or_ends hopen e with ⟨hover, hcalls, hends⟩ | ⟨hover, hiff⟩
    · rw [hcalls, List.countP_nil, Nat.zero_add, ih _ hover, and_iff_right hends]
    · obtain ⟨htrace, hexec⟩ := trace_of_isOver hover es
      have hguard : machine.Guarded EndsOnce (f.step e).1 es := guarded_of_isOver hover es
      rw [htrace, hexec, if_pos rfl, List.countP_nil, Nat.add_zero, hiff, and_iff_left hguard]

end Fetch

/-! ## The messages -/

/-- The class of an outcome message, with what it adds to `message`. -/
inductive LoginBody where
  | plain
  /-- `message_login`. -/
  | login (user pass : String)
  /-- `message_login_fail`. -/
  | loginFail (status : String)
deriving DecidableEq

structure LoginMsg where
  id : Int
  body : LoginBody
deriving DecidableEq

/-- `LOGIN_MESSAGE`: the message of a login, or its counterpart counted from `_msg_base`. -/
def loginMessage (msg : MsgId) (msgBase : Int) : Int := msg.code - MsgId.login.code + msgBase

/-- A letter or a number in Latin-1, or an underscore: `\w` of `QRegExp`. -/
def isWordChar (c : Char) : Bool :=
  c.isAlphanum || c = '_' ||
    [0xAA, 0xB2, 0xB3, 0xB5, 0xB9, 0xBA, 0xBC, 0xBD, 0xBE].contains c.toNat ||
    (0xC0 ≤ c.toNat && c.toNat ≤ 0xFF && c.toNat ≠ 0xD7 && c.toNat ≠ 0xF7)

/-- `^([^:]{3,20}):(\w*)`. -/
def loginPattern : List (Run Char) := [⟨(· ≠ ':'), 3, some 20⟩, .lit ':', ⟨isWordChar, 0, none⟩]

/-- The user and the status in a reply. -/
def loginReply (content : List UInt8) : Option (List Char × List Char) :=
  match Run.matchAt loginPattern (latin1 content) with
  | some [user, _, stat] => some (user, stat)
  | _ => none

/-- Whether `strcasecmp` of two C strings gives zero. -/
def sameCase (a b : List Char) : Bool :=
  (a.takeWhile (· ≠ Char.ofNat 0)).map Char.toLower =
    (b.takeWhile (· ≠ Char.ofNat 0)).map Char.toLower

/-- `login_manager_rvzt::_fetch_handler`. -/
structure LoginHandler where
  user : String
  msgBase : Int

namespace LoginHandler

/-- `handle_response`. -/
def handleResponse (h : LoginHandler) (content : List UInt8) : LoginMsg :=
  match loginReply content with
  | some (user, stat) =>
    if !sameCase user h.user.toList then
      ⟨loginMessage .loginFail h.msgBase, .loginFail (String.ofList stat)⟩
    else if stat ≠ ['Y'] then
      ⟨loginMessage .loginFail h.msgBase, .loginFail (String.ofList stat)⟩
    else ⟨loginMessage .loginDone h.msgBase, .login (String.ofList user) ""⟩
  | none => ⟨loginMessage .loginErr h.msgBase, .loginFail "N"⟩

/-- What a call of the handler posts. -/
def call (h : LoginHandler) : HttpCall → List LoginMsg
  | .handleResponse content => [h.handleResponse content]
  | .handleError _ _ => [⟨loginMessage .loginErr h.msgBase, .plain⟩]
  | .handleClose => []

end LoginHandler

/-! ## The requests -/

/-- `message_login` and `message_register`, as the GUI sends them. -/
inductive LoginRequest where
  | login (user pass : String)
  | register (user pass mail : String)
deriving DecidableEq

/-- The user of a request. -/
def LoginRequest.user : LoginRequest → String
  | .login user _ => user
  | .register user _ _ => user

/-- The `_msg_base` of a request. -/
def LoginRequest.msgBase : LoginRequest → MsgId
  | .login _ _ => .login
  | .register _ _ _ => .reg

/-- The messages that are the outcome of a request. -/
def LoginRequest.outcomes : LoginRequest → List MsgId
  | .login _ _ => [.loginDone, .loginFail, .loginErr]
  | .register _ _ _ => [.regDone, .regFail, .regErr]

/-- `login_manager_rvzt`, with the sites that its configuration names. -/
structure LoginManager where
  baseValidateUrl : String := "http://revoltzone.net/sitescripts/rvhouse_val.php"
  baseRegisterUrl : String := "http://revoltzone.net/sitescripts/rvhouse_reg.php"

/-- `_login_operation` for a fetch that begins with `start` and that meets `es` if its connection is
begun: what is posted. -/
def loginOperation (start : FetchStart) (user : String) (msgBase : Int) (es : List FetchEvent) :
    List LoginMsg :=
  let h : LoginHandler := ⟨user, msgBase⟩
  start.calls.flatMap h.call ++
    match start with
    | .throws _ => []
    | .unresolved | .connectFailed => [⟨loginMessage .loginErr msgBase, .plain⟩]
    | .started => (Fetch.machine.trace {} es).flatMap h.call

namespace LoginManager

/-- The `req_url` of `login` and of `register_user`. -/
def reqUrl (m : LoginManager) : LoginRequest → String
  | .login user pass => m.baseValidateUrl ++ "?user=" ++ user ++ "&pass=" ++ pass
  | .register user pass mail =>
    m.baseRegisterUrl ++ "?user=" ++ user ++ "&pass=" ++ pass ++ "&mail=" ++ mail

/-- What `login` or `register_user` posts; `fetch` tells how the fetch of a URL begins. -/
def posts (m : LoginManager) (fetch : String → FetchStart) (r : LoginRequest)
    (es : List FetchEvent) : List LoginMsg :=
  loginOperation (fetch (m.reqUrl r)) r.user r.msgBase.code es

/-- Whether the fetch is over, and with it the request. -/
def finished (start : FetchStart) (es : List FetchEvent) : Bool :=
  start ≠ .started || (Fetch.machine.exec {} es).isOver

/-- One outcome is posted for the request, by the time when its fetch is over, and nothing else. -/
structure OneOutcome (m : LoginManager) (fetch : String → FetchStart) (r : LoginRequest)
    (es : List FetchEvent) : Prop where
  outcome : ∀ p ∈ m.posts fetch r es, ∃ i ∈ r.outcomes, p.id = i.code
  once : (m.posts fetch r es).length = if finished (fetch (m.reqUrl r)) es then 1 else 0

/-! ## Outcomes -/

/-- A message of a login, or its counterpart, is an outcome of the request. -/
theorem exists_outcome (r : LoginRequest) {msg : MsgId}
    (h : msg ∈ [MsgId.loginDone, .loginFail, .loginErr]) :
    ∃ i ∈ r.outcomes, loginMessage msg r.msgBase.code = i.code := by
  have hlogin : ∀ msg ∈ [MsgId.loginDone, .loginFail, .loginErr],
      ∃ i ∈ [MsgId.loginDone, .loginFail, .loginErr],
        loginMessage msg MsgId.login.code = i.code := by decide
  have hreg : ∀ msg ∈ [MsgId.loginDone, .loginFail, .loginErr],
      ∃ i ∈ [MsgId.regDone, .regFail, .regErr],
        loginMessage msg MsgId.reg.code = i.code := by decide
  cases r with
  | login user pass => exact hlogin msg h
  | register user pass mail => exact hreg msg h

theorem id_handleResponse (h : LoginHandler) (content : List UInt8) :
    ∃ msg ∈ [MsgId.loginDone, .loginFail, .loginErr],
      (h.handleResponse content).id = loginMessage msg h.msgBase := by
  unfold LoginHandler.handleResponse
  split
  · split
    · exact ⟨.loginFail, by decide, rfl⟩
    · split
      · exact ⟨.loginFail, by decide, rfl⟩
      · exact ⟨.loginDone, by decide, rfl⟩
  · exact ⟨.loginErr, by decide, rfl⟩

theorem id_call {h : LoginHandler} {c : HttpCall} {p : LoginMsg} (hp : p ∈ h.call c) :
    ∃ msg ∈ [MsgId.loginDone, .loginFail, .loginErr], p.id = loginMessage msg h.msgBase := by
  cases c with
  | handleResponse content =>
    rw [List.mem_singleton.1 hp]
    exact id_handleResponse h content
  | handleError reason details =>
    rw [List.mem_singleton.1 hp]
    exact ⟨.loginErr, by decide, rfl⟩
  | handleClose => cases hp

/-- The handler posts a message for each report. -/
theorem length_flatMap_call (h : LoginHandler) (calls : List HttpCall) :
    (calls.flatMap h.call).length = calls.countP HttpCall.isReport := by
  induction calls with
  | nil => rfl
  | cons c calls ih =>
    rw [List.flatMap_cons, List.length_append, ih, List.countP_cons]
    cases c <;> simp [LoginHandler.call, HttpCall.isReport, Nat.add_comm]

/-- Whatever is posted is an outcome. -/
theorem outcome_of_mem_posts (m : LoginManager) (fetch : String → FetchStart) (r : LoginRequest)
    (es : List FetchEvent) {p : LoginMsg} (hp : p ∈ m.posts fetch r es) :
    ∃ i ∈ r.outcomes, p.id = i.code := by
  suffices hmsg : ∃ msg ∈ [MsgId.loginDone, .loginFail, .loginErr],
      p.id = loginMessage msg r.msgBase.code by
    obtain ⟨msg, hmem, hid⟩ := hmsg
    rw [hid]
    exact exists_outcome r hmem
  have hcalls : ∀ calls : List HttpCall,
      p ∈ calls.flatMap (LoginHandler.call ⟨r.user, r.msgBase.code⟩) →
        ∃ msg ∈ [MsgId.loginDone, .loginFail, .loginErr],
          p.id = loginMessage msg r.msgBase.code := by
    intro calls hmem
    obtain ⟨c, -, hc⟩ := List.mem_flatMap.1 hmem
    exact id_call hc
  unfold posts loginOperation at hp
  rcases List.mem_append.1 hp with hp | hp
  · exact hcalls _ hp
  · split at hp
    · cases hp
    · rw [List.mem_singleton.1 hp]
      exact ⟨.loginErr, by decide, rfl⟩
    · rw [List.mem_singleton.1 hp]
      exact ⟨.loginErr, by decide, rfl⟩
    · exact hcalls _ hp

/-- **Which requests have one outcome.** The host is not found, or the connection is begun and every
call meets `EndsOnce`. -/
theorem oneOutcome_iff (m : LoginManager) (fetch : String → FetchStart) (r : LoginRequest)
    (es : List FetchEvent) :
    m.OneOutcome fetch r es ↔ fetch (m.reqUrl r) = .unresolved ∨
      (fetch (m.reqUrl r) = .started ∧ Fetch.machine.Guarded Fetch.EndsOnce {} es) := by
  have honce : m.OneOutcome fetch r es ↔
      (m.posts fetch r es).length = if finished (fetch (m.reqUrl r)) es then 1 else 0 :=
    ⟨OneOutcome.once, fun h => ⟨fun p hp => outcome_of_mem_posts m fetch r es hp, h⟩⟩
  rw [honce]
  unfold posts loginOperation finished
  cases hstart : fetch (m.reqUrl r) with
  | throws what => simp [FetchStart.calls]
  | unresolved => simp [FetchStart.calls, LoginHandler.call]
  | connectFailed =>
    rw [List.length_append, length_flatMap_call]
    exact iff_of_false (show ¬ 1 + 1 = 1 by decide) (by simp)
  | started =>
    rw [List.length_append, length_flatMap_call, length_flatMap_call]
    simpa [FetchStart.calls] using Fetch.reports_iff_guarded es

/-- The connection is refused at once: the handler reports a timeout, and `_login_operation` that
the fetch failed. -/
theorem not_oneOutcome_of_refused :
    LoginManager.posts {} (fun _ => .connectFailed) (.login "alice" "secret") [] =
        [⟨MsgId.loginErr.code, .plain⟩, ⟨MsgId.loginErr.code, .plain⟩] ∧
      ¬ OneOutcome {} (fun _ => .connectFailed) (.login "alice" "secret") [] := by
  refine ⟨by decide, fun h => ?_⟩
  have honce := h.once
  revert honce
  decide

end LoginManager

end RvHouse
