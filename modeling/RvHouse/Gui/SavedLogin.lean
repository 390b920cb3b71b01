import RvHouse.Parser.Validation
import Mathlib.Data.Bool.AllAny
import Mathlib.Logic.Function.Basic

/-!
# The saved login

The login window is filled with the login that was accepted last. `house_app::start` keeps it in the
user's configuration, the password under `rot13`. On the way it passes through C strings, through a
stream extraction whose only white space is the line feed, and through the fields of the window,
which hold texts of `QString`.

* `derot13_rot13`: on the characters from 33 to 122 `derot13` undoes `rot13`;
* `get_set_self`, `get_set_of_ne`: a configuration gives back what was set, if nothing cuts it;
* `pass_restored`: a password that the window accepts is restored;
* `shown_of_saved`, `shown_after_restarts`: the login is shown at the next start, and the password at
  every later one, as long as the user changes nothing.
-/

namespace RvHouse

/-! ## The scrambler -/

/-- One character of `rot13`. -/
def rot13Char (b : UInt8) : UInt8 :=
  let c := (b + 13) % 123
  if c < 33 then c + 33 else c

/-- `rot13`. -/
def rot13 (s : List UInt8) : List UInt8 := s.map rot13Char

/-- One character of `derot13`. -/
def derot13Char (b : UInt8) : UInt8 :=
  let c := b - 13
  if c < 33 then 123 - (33 - c) else c

/-- `derot13`. -/
def derot13 (s : List UInt8) : List UInt8 := s.map derot13Char

/-- The range that the scrambler is for. -/
def Scrambled (b : UInt8) : Prop := 33 ≤ b ∧ b ≤ 122

instance (b : UInt8) : Decidable (Scrambled b) := inferInstanceAs (Decidable (_ ∧ _))

theorem scrambled_iff {b : UInt8} : Scrambled b ↔ 33 ≤ b.toNat ∧ b.toNat ≤ 122 := by
  rw [Scrambled, UInt8.le_iff_toNat_le, UInt8.le_iff_toNat_le]
  exact Iff.rfl

/-- The range is turned by 13 characters; the last 13 come to its beginning. -/
theorem toNat_rot13Char {b : UInt8} (h : Scrambled b) :
    (rot13Char b).toNat = if b.toNat < 110 then b.toNat + 13 else b.toNat - 77 := by
  obtain ⟨hlo, hhi⟩ := scrambled_iff.1 h
  have hc : ((b + 13) % 123).toNat = (b.toNat + 13) % 123 := by
    rw [UInt8.toNat_mod, UInt8.toNat_add]
    show (b.toNat + 13) % 256 % 123 = _
    omega
  simp only [rot13Char, UInt8.lt_iff_toNat_lt, hc]
  show (if (b.toNat + 13) % 123 < 33 then _ else _ : UInt8).toNat = _
  split
  · rw [UInt8.toNat_add, hc]
    show ((b.toNat + 13) % 123 + 33) % 256 = _
    split <;> omega
  · rw [hc]
    split <;> omega

theorem toNat_derot13Char {b : UInt8} (h : Scrambled b) :
    (derot13Char b).toNat = if b.toNat < 46 then b.toNat + 77 else b.toNat - 13 := by
  obtain ⟨hlo, hhi⟩ := scrambled_iff.1 h
  have hc : (b - 13).toNat = b.toNat - 13 := by
    rw [UInt8.toNat_sub]
    show (256 - 13 + b.toNat) % 256 = _
    omega
  simp only [derot13Char, UInt8.lt_iff_toNat_lt, hc]
  show (if b.toNat - 13 < 33 then _ else _ : UInt8).toNat = _
  split
  · rw [UInt8.toNat_sub, UInt8.toNat_sub, hc]
    show (256 - (256 - (b.toNat - 13) + 33) % 256 + 123) % 256 = _
    split <;> omega
  · rw [hc]
    split <;> omega

/-- The scrambler stays in its range. -/
theorem scrambled_rot13Char {b : UInt8} (h : Scrambled b) : Scrambled (rot13Char b) := by
  obtain ⟨hlo, hhi⟩ := scrambled_iff.1 h
  rw [scrambled_iff, toNat_rot13Char h]
  split <;> omega

theorem derot13Char_rot13Char {b : UInt8} (h : Scrambled b) : derot13Char (rot13Char b) = b := by
  obtain ⟨hlo, hhi⟩ := scrambled_iff.1 h
  apply UInt8.toNat.inj
  rw [toNat_derot13Char (scrambled_rot13Char h), toNat_rot13Char h]
  split <;> split <;> omega

theorem derot13_rot13 {s : List UInt8} (h : ∀ b ∈ s, Scrambled b) : derot13 (rot13 s) = s := by
  rw [derot13, rot13, List.map_map]
  exact (List.map_congr_left fun b hb => derot13Char_rot13Char (h b hb)).trans (List.map_id s)

theorem scrambled_rot13 {s : List UInt8} (h : ∀ b ∈ s, Scrambled b) :
    ∀ b ∈ rot13 s, Scrambled b := by
  intro b hb
  obtain ⟨d, hd, rfl⟩ := List.mem_map.1 hb
  exact scrambled_rot13Char (h d hd)

/-! ## The configuration -/

/-- What a class derived from `config` does with its values, which are C strings: it keeps them as
they are. -/
structure Config (σ : Type*) where
  contains : σ → String → Bool
  getValue : σ → String → List UInt8
  setValue : σ → String → List UInt8 → σ
  contains_setValue : ∀ s key value key',
    contains (setValue s key value) key' = (key' == key || contains s key')
  getValue_setValue : ∀ s key value key', 0 ∉ value →
    getValue (setValue s key value) key' = if key' = key then value else getValue s key'

/-- `config_memory`. -/
def configMemory : Config (String → Option (List UInt8)) where
  contains s key := (s key).isSome
  getValue s key := (s key).getD []
  setValue s key value := Function.update s key (some value)
  contains_setValue s key value key' := by
    by_cases h : key' = key <;> simp [Function.update, h]
  getValue_setValue s key value key' _ := by
    by_cases h : key' = key <;> simp [Function.update, h]

/-- `no_space_as_ws_ctype`: the line feed is the only white space. -/
def noSpaceAsWs (b : UInt8) : Bool := b = 10

/-- `operator>>` of a string in this locale: `val` stays when there is nothing but white space. -/
def extractString (value val : List UInt8) : List UInt8 :=
  match value.dropWhile noSpaceAsWs with
  | [] => val
  | b :: l => (b :: l).takeWhile (!noSpaceAsWs ·)

namespace Config

variable {σ : Type*} (c : Config σ)

/-- `config::get<std::string>`. -/
def get (s : σ) (key : String) (defVal : List UInt8) : List UInt8 :=
  if !c.contains s key then defVal else extractString (c.getValue s key) defVal

/-- `config::set<std::string>`, which sets the C string of the stream. -/
def set (s : σ) (key : String) (val : List UInt8) : σ := c.setValue s key (val.takeWhile (· ≠ 0))

/-- A text that neither `set` nor `get` cuts. -/
structure Whole (val : List UInt8) : Prop where
  nul : 0 ∉ val
  lineFeed : 10 ∉ val

theorem takeWhile_of_whole {val : List UInt8} (h : Whole val) : val.takeWhile (· ≠ 0) = val :=
  List.takeWhile_eq_self_iff.2 fun _ hb => decide_eq_true fun h0 => h.nul (h0 ▸ hb)

theorem extractString_of_whole {val : List UInt8} (h : Whole val) : extractString val [] = val := by
  have hws : ∀ b ∈ val, noSpaceAsWs b = false := fun b hb =>
    decide_eq_false fun h10 => h.lineFeed (h10 ▸ hb)
  cases val with
  | nil => rfl
  | cons b l =>
    rw [extractString, List.dropWhile_cons_of_neg (by simp [hws b List.mem_cons_self])]
    exact List.takeWhile_eq_self_iff.2 fun d hd => by simp [hws d hd]

/-- What was set is got back. -/
theorem get_set_self {val : List UInt8} (h : Whole val) (s : σ) (key : String) :
    c.get (c.set s key val) key [] = val := by
  have hvalue : c.getValue (c.set s key val) key = val := by
    rw [set, takeWhile_of_whole h, c.getValue_setValue s key val key h.nul, if_pos rfl]
  have hcontains : c.contains (c.set s key val) key = true := by
    rw [set, c.contains_setValue, beq_self_eq_true, Bool.true_or]
  rw [get, hcontains, hvalue]
  exact extractString_of_whole h

/-- The other keys keep their values. -/
theorem get_set_of_ne {key key' : String} (hne : key' ≠ key) (s : σ) (val defVal : List UInt8) :
    c.get (c.set s key val) key' defVal = c.get s key' defVal := by
  have hnul : 0 ∉ val.takeWhile (· ≠ 0) := fun h0 => by
    simpa using List.mem_takeWhile_imp h0
  have hvalue : c.getValue (c.set s key val) key' = c.getValue s key' := by
    rw [set, c.getValue_setValue s key _ key' hnul, if_neg hne]
  have hcontains : c.contains (c.set s key val) key' = c.contains s key' := by
    rw [set, c.contains_setValue, beq_false_of_ne hne, Bool.false_or]
  rw [get, get, hvalue, hcontains]

end Config

/-! ## The login window -/

/-- `toLatin1().constData()`, as a `std::string`. -/
def constData (text : List UInt16) : List UInt8 :=
  (text.map fun u => if u ≤ 0xFF then u.toUInt8 else 63).takeWhile (· ≠ 0)

/-- A C string as the text of a field. -/
def fieldText (s : List UInt8) : List UInt16 := (s.takeWhile (· ≠ 0)).map UInt8.toUInt16

/-- `window::login`. -/
structure LoginWindow where
  userField : List UInt16 := []
  passField : List UInt16 := []
  user : List UInt8 := []
  pass : List UInt8 := []
  userValidated : Bool := false

/-- The answers to a login; to `loginErr` the user says whether to go on. -/
inductive LoginAnswer where
  | loginErr (goOn : Bool)
  | loginFail
  | loginDone (user : List UInt8)

namespace LoginWindow

/-- `user(const std::string &)`. -/
def setUser (w : LoginWindow) (u : List UInt8) : LoginWindow :=
  { w with user := u, userField := fieldText u }

/-- `pass(const std::string &)`. -/
def setPass (w : LoginWindow) (p : List UInt8) : LoginWindow :=
  { w with pass := p, passField := fieldText p }

/-- `_login_message`: the user and the password to send, or the text of the error. -/
def loginMessage (w : LoginWindow) : Except String (List UInt8 × List UInt8) :=
  if w.userField.isEmpty then .error "login_win/fill_user"
  else if w.passField.isEmpty then .error "login_win/fill_pass"
  else if !validateUserId (constData w.userField) true then .error "login_win/invalid_user"
  else if !validatePassword (constData w.passField) true then .error "login_win/invalid_pass"
  else .ok (constData w.userField, constData w.passField)

/-- `login_clicked`: the window that waits for the answer, if there is a message to send. -/
def loginClicked (w : LoginWindow) : Option LoginWindow :=
  match w.loginMessage with
  | .error _ => none
  | .ok _ =>
    some { w with
      user := constData w.userField, pass := constData w.passField, userValidated := false }

/-- `handle_message`; whether the window is accepted. -/
def handleMessage (w : LoginWindow) : LoginAnswer → LoginWindow × Bool
  | .loginErr goOn => (w, goOn)
  | .loginFail => (w, false)
  | .loginDone user => ({ w with user, userValidated := true }, true)

end LoginWindow

namespace Config

variable {σ : Type*} (c : Config σ)

/-- The login window of `house_app::start`. -/
def loginShown (pref : σ) : LoginWindow :=
  (({} : LoginWindow).setUser (c.get pref "user/id" [])).setPass
    (derot13 (c.get pref "user/pass" []))

/-- `house_app::start` after the window was accepted. -/
def loginSaved (pref : σ) (w : LoginWindow) : σ :=
  c.set (c.set pref "user/id" w.user) "user/pass" (rot13 w.pass)

/-- A start at which the user changes nothing and clicks the button. -/
def restart (pref : σ) (answer : LoginAnswer) : σ :=
  match (c.loginShown pref).loginClicked with
  | none => pref
  | some w => if (w.handleMessage answer).2 then c.loginSaved pref (w.handleMessage answer).1 else pref

end Config

/-! ## What is restored -/

theorem nul_not_mem_constData (text : List UInt16) : 0 ∉ constData text := fun h0 => by
  simpa using List.mem_takeWhile_imp h0

/-- A text without a NUL comes through a field. -/
theorem constData_fieldText {s : List UInt8} (h : 0 ∉ s) : constData (fieldText s) = s := by
  have hpos : ∀ b ∈ s, decide (b ≠ 0) = true := fun b hb => decide_eq_true fun h0 => h (h0 ▸ hb)
  have hbyte : ∀ b : UInt8, (if b.toUInt16 ≤ 0xFF then b.toUInt16.toUInt8 else 63) = b := by
    intro b
    have hb := b.toNat_lt
    rw [if_pos, UInt8.toUInt8_toUInt16]
    rw [UInt16.le_iff_toNat_le, UInt8.toNat_toUInt16]
    show b.toNat ≤ 255
    omega
  rw [constData, fieldText, List.takeWhile_eq_self_iff.2 hpos, List.map_map]
  have hmap : List.map ((fun u : UInt16 => if u ≤ 0xFF then u.toUInt8 else 63) ∘ UInt8.toUInt16) s =
      s := (List.map_congr_left fun b _ => hbyte b).trans (List.map_id s)
  rw [hmap, List.takeWhile_eq_self_iff.2 hpos]

/-- The characters of a password are in the range of the scrambler. -/
theorem scrambled_of_validatePassword {p : List UInt8} (h0 : 0 ∉ p) {noSize : Bool}
    (h : validatePassword p noSize = true) : ∀ b ∈ p, Scrambled b := by
  have hclass := (validatePassword_iff.1 h).2.2.2
  rw [latin1_of_not_mem h0] at hclass
  intro b hb
  have hok := hclass _ (List.mem_map.2 ⟨b, hb, rfl⟩)
  have hall : ∀ n : Fin 256, passwordRun.ok (Char.ofNat n) = true → 33 ≤ n.val ∧ n.val ≤ 122 := by
    decide +kernel
  exact scrambled_iff.2 (hall ⟨b.toNat, b.toNat_lt⟩ hok)

/-- What the scrambler gives is cut nowhere. -/
theorem whole_rot13 {s : List UInt8} (h : ∀ b ∈ s, Scrambled b) : Config.Whole (rot13 s) := by
  constructor
  · exact fun h0 => absurd (scrambled_rot13 h 0 h0) (by decide)
  · exact fun h10 => absurd (scrambled_rot13 h 10 h10) (by decide)

section

variable {σ : Type*} (c : Config σ)

theorem get_set_rot13 {p : List UInt8} (h : ∀ b ∈ p, Scrambled b) (pref : σ) (key : String) :
    derot13 (c.get (c.set pref key (rot13 p)) key []) = p := by
  rw [c.get_set_self (whole_rot13 h), derot13_rot13 h]

/-- **The saved password.** A password that the window accepts is restored as it was, and on its range
the scrambler is undone and makes no character at which the configuration would cut. -/
theorem pass_restored (pref : σ) :
    (∀ text, validatePassword (constData text) true = true →
      derot13 (c.get (c.set pref "user/pass" (rot13 (constData text))) "user/pass" []) =
        constData text) ∧
    ∀ s, (∀ b ∈ s, 33 ≤ b ∧ b ≤ 122) → derot13 (rot13 s) = s ∧ 0 ∉ rot13 s ∧ 10 ∉ rot13 s := by
  refine ⟨fun text htext => ?_, fun s hs => ?_⟩
  · exact get_set_rot13 c (scrambled_of_validatePassword (nul_not_mem_constData text) htext) _ _
  · exact ⟨derot13_rot13 hs, (whole_rot13 hs).nul, (whole_rot13 hs).lineFeed⟩

/-- The password `n_Zz9`, whose first letter is the first that comes to the beginning of the range. -/
theorem pass_restored_turned :
    let pass : List UInt8 := [110, 95, 90, 122, 57]
    derot13 (configMemory.get (configMemory.set (fun _ => none) "user/pass" (rot13 pass))
        "user/pass" []) = pass ∧
      rot13 pass = [33, 108, 103, 45, 70] ∧ derot13 (rot13 pass) = pass := by
  refine ⟨?_, by decide, ?_⟩
  · exact (pass_restored configMemory (fun _ => none)).1 [110, 95, 90, 122, 57] (by decide)
  · exact ((pass_restored configMemory (fun _ => none)).2 [110, 95, 90, 122, 57]
      (List.all_iff_forall_prop.1 (by decide))).1

/-! ## Starts -/

/-- The configuration holds the password. -/
def HoldsPass (pref : σ) (p : List UInt8) : Prop :=
  derot13 (c.get pref "user/pass" []) = p

variable {c} {pref : σ} {p : List UInt8}

theorem holdsPass_loginSaved (hp : ∀ b ∈ p, Scrambled b) {w : LoginWindow} (hw : w.pass = p) :
    HoldsPass c (c.loginSaved pref w) p := by
  subst hw
  exact get_set_rot13 c hp _ _

/-- A click takes the login from the fields. -/
theorem loginClicked_spec {w w' : LoginWindow} (h : w.loginClicked = some w') :
    (w'.user = constData w.userField ∧ validateUserId w'.user true = true) ∧
      w'.pass = constData w.passField ∧ validatePassword w'.pass true = true := by
  unfold LoginWindow.loginClicked LoginWindow.loginMessage at h
  split at h
  · cases h
  · rename_i hmsg
    split_ifs at hmsg with h₁ h₂ h₃ h₄
    cases h
    exact ⟨⟨rfl, by simpa using h₃⟩, rfl, by simpa using h₄⟩

theorem handleMessage_pass (w : LoginWindow) (answer : LoginAnswer) :
    (w.handleMessage answer).1.pass = w.pass := by
  cases answer <;> rfl

/-- A text that `validate_user_id` accepts is cut nowhere. -/
theorem whole_of_validateUserId {u : List UInt8} (h0 : 0 ∉ u) {noSize : Bool}
    (h : validateUserId u noSize = true) : Config.Whole u := by
  have hclass := (validateUserId_iff.1 h).2.2.2
  rw [latin1_of_not_mem h0] at hclass
  refine ⟨h0, fun h10 => ?_⟩
  exact absurd (hclass _ (List.mem_map.2 ⟨10, h10, rfl⟩)) (by decide)

/-- **The saved login.** The login that was clicked is shown at the next start. -/
theorem shown_of_saved {w w' : LoginWindow} (h : w.loginClicked = some w') :
    (c.loginShown (c.loginSaved pref w')).user = w'.user ∧
      (c.loginShown (c.loginSaved pref w')).pass = w'.pass := by
  obtain ⟨⟨huser, huservalid⟩, hpass, hpassvalid⟩ := loginClicked_spec h
  have hwhole : Config.Whole w'.user :=
    whole_of_validateUserId (huser ▸ nul_not_mem_constData _) huservalid
  have hscrambled : ∀ b ∈ w'.pass, Scrambled b :=
    scrambled_of_validatePassword (hpass ▸ nul_not_mem_constData _) hpassvalid
  constructor
  · show c.get (c.loginSaved pref w') "user/id" [] = w'.user
    rw [Config.loginSaved, c.get_set_of_ne (by decide), c.get_set_self hwhole]
  · exact holdsPass_loginSaved hscrambled rfl

/-- One start keeps the password. -/
theorem holdsPass_restart (hp : ∀ b ∈ p, Scrambled b) (h : HoldsPass c pref p)
    (answer : LoginAnswer) : HoldsPass c (c.restart pref answer) p := by
  have hfield : constData (c.loginShown pref).passField = p := by
    have hnul : 0 ∉ p := fun h0 => absurd (hp 0 h0) (by decide)
    show constData (fieldText (derot13 (c.get pref "user/pass" []))) = p
    rw [h, constData_fieldText hnul]
  unfold Config.restart
  split
  · exact h
  · rename_i w hw
    split
    · refine holdsPass_loginSaved hp ?_
      rw [handleMessage_pass, (loginClicked_spec hw).2.1, hfield]
    · exact h

/-- **The password over the starts.** After a login with a password, whatever was there before, each
later start shows it, as long as the user changes nothing; the answers of the server do not matter. -/
theorem shown_after_restarts {w w' : LoginWindow} (hclick : w.loginClicked = some w')
    (answer : LoginAnswer) (answers : List LoginAnswer) :
    (c.loginShown (answers.foldl c.restart
      (c.loginSaved pref (w'.handleMessage answer).1))).pass = w'.pass := by
  obtain ⟨-, hpass, hvalid⟩ := loginClicked_spec hclick
  have hp : ∀ b ∈ w'.pass, Scrambled b := by
    refine scrambled_of_validatePassword ?_ hvalid
    rw [hpass]
    exact nul_not_mem_constData _
  have hrun : ∀ (answers : List LoginAnswer) (pref : σ), HoldsPass c pref w'.pass →
      HoldsPass c (answers.foldl c.restart pref) w'.pass := by
    intro answers
    induction answers with
    | nil => exact fun _ h => h
    | cons a answers ih => exact fun pref h => ih _ (holdsPass_restart hp h a)
  exact hrun answers _ (holdsPass_loginSaved hp (handleMessage_pass w' answer))

/-- A login that fails at the next start and works at the one after. -/
theorem shown_after_restarts_turned :
    (configMemory.loginShown ([LoginAnswer.loginFail, .loginDone [97, 98, 99]].foldl
      configMemory.restart (configMemory.loginSaved (fun _ => none)
        { userField := fieldText [97, 98, 99], passField := fieldText [110, 95, 90, 122, 57],
          user := [97, 98, 99], pass := [110, 95, 90, 122, 57], userValidated := true }))).pass =
      [110, 95, 90, 122, 57] := by
  have hclick : LoginWindow.loginClicked
      { userField := fieldText [97, 98, 99], passField := fieldText [110, 95, 90, 122, 57] } =
        some { userField := fieldText [97, 98, 99], passField := fieldText [110, 95, 90, 122, 57],
               user := [97, 98, 99], pass := [110, 95, 90, 122, 57] } := rfl
  exact shown_after_restarts (c := configMemory) hclick (.loginDone [97, 98, 99])
    [.loginFail, .loginDone [97, 98, 99]]

end

end RvHouse
