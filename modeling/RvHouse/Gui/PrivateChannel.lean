import RvHouse.Chat.User
import RvHouse.Lib.Mealy
import RvHouse.Lib.Numeral
import RvHouse.Parser.Validation
import Mathlib.Data.List.Sort
import Mathlib.Data.String.Basic
import Mathlib.Data.Sym.Sym2.Order

/-!
# Private channels

The two sides of a private conversation name its channel by their id strings, in alphabetic order with
a colon between them. A generated id string has two colons of its own.

* `channel_eq_iff`: the channels of two conversations are the same exactly when the same two users
  hold them, as a user id has no colon;
* `right_of_run`, `exists_shown_of_received`: there is one window for each partner, a message of the
  partner is shown in it, and nothing else is but the echo of our own ones.
-/

namespace RvHouse

/-! ## The channel -/

/-- `private_message_channel_with`, `me` being the id string of the user at the machine. -/
def privateMessageChannelWith (me userId : String) : String :=
  let channelKeys := [userId, me].insertionSort (· ≤ ·)
  channelKeys.getD 0 "" ++ ":" ++ channelKeys.getD 1 ""

/-- The id string that `generate_id` gives a user. -/
def User.generatedId (u : User) (now : Int) : String := (u.generateId now).id.idStr

/-- What it is made of. -/
def User.idParts (u : User) (now : Int) : Int × String × Bool := (now, u.loginId, u.authenticated)

/-- The parts of a text between its colons. -/
def colonParts (s : String) : List (List Char) := s.toList.splitOn ':'

theorem colonParts_inj {s t : String} (h : colonParts s = colonParts t) : s = t := by
  have hlist : s.toList = t.toList := by
    calc s.toList = [':'].intercalate (colonParts s) := (List.intercalate_splitOn ':').symm
      _ = [':'].intercalate (colonParts t) := by rw [h]
      _ = t.toList := List.intercalate_splitOn ':'
  exact String.toList_inj.1 hlist

theorem colonParts_append (s t : String) :
    colonParts (s ++ ":" ++ t) = colonParts s ++ colonParts t := by
  have hlist : (s ++ ":" ++ t).toList = s.toList ++ ':' :: t.toList := by
    rw [String.toList_append, String.toList_append, List.append_assoc]
    rfl
  rw [colonParts, hlist]
  exact List.splitOn_append_cons_self _ _

/-- Two texts with a colon between them can be told apart if it is known how many parts they have. -/
theorem append_colon_inj {s t s' t' : String}
    (hlen : (colonParts s).length = (colonParts s').length)
    (h : s ++ ":" ++ t = s' ++ ":" ++ t') : s = s' ∧ t = t' := by
  have hparts := congrArg colonParts h
  rw [colonParts_append, colonParts_append] at hparts
  obtain ⟨hs, ht⟩ := List.append_inj hparts hlen
  exact ⟨colonParts_inj hs, colonParts_inj ht⟩

/-- The smaller id string comes first. -/
theorem privateMessageChannelWith_eq (me userId : String) :
    privateMessageChannelWith me userId = min userId me ++ ":" ++ max userId me := by
  rcases le_total userId me with h | h
  · have hsort : [userId, me].insertionSort (· ≤ ·) = [userId, me] := by
      simp [List.insertionSort, h]
    rw [privateMessageChannelWith, hsort, min_eq_left h, max_eq_right h]
    rfl
  · have hsort : [userId, me].insertionSort (· ≤ ·) = [me, userId] := by
      rcases h.eq_or_lt with heq | hlt
      · simp [List.insertionSort, heq]
      · simp [List.insertionSort, not_le.2 hlt]
    rw [privateMessageChannelWith, hsort, min_eq_right h, max_eq_left h]
    rfl

/-- Both sides name the same channel. -/
theorem channel_comm (a b : String) :
    privateMessageChannelWith a b = privateMessageChannelWith b a := by
  rw [privateMessageChannelWith_eq, privateMessageChannelWith_eq, min_comm, max_comm]

/-- Id strings of three parts are known from their channel. -/
theorem pair_of_channel_eq {a b c d : String} (ha : (colonParts a).length = 3)
    (hb : (colonParts b).length = 3) (hc : (colonParts c).length = 3)
    (hd : (colonParts d).length = 3)
    (h : privateMessageChannelWith a b = privateMessageChannelWith c d) : s(a, b) = s(c, d) := by
  have hmin : ∀ x y : String, (colonParts x).length = 3 → (colonParts y).length = 3 →
      (colonParts (min x y)).length = 3 := by
    intro x y hx hy
    rcases min_choice x y with hxy | hxy <;> rwa [hxy]
  rw [channel_comm a, channel_comm c, privateMessageChannelWith_eq,
    privateMessageChannelWith_eq] at h
  obtain ⟨hlow, hhigh⟩ := append_colon_inj ((hmin a b ha hb).trans (hmin c d hc hd).symm) h
  exact Sym2.inf_eq_inf_and_sup_eq_sup.1 ⟨hlow, hhigh⟩

/-! ## Generated id strings -/

/-- A number is printed with digits only. -/
theorem isDigit_of_mem_repr {n : ℕ} {c : Char} (h : c ∈ n.repr.toList) :
    Numeral.isDigit 10 c = true := by
  rw [Nat.repr, String.toList_ofList] at h
  exact Numeral.isDigit_of_mem_toDigits (by decide) (by decide) h

theorem repr_inj {m n : ℕ} (h : m.repr = n.repr) : m = n := by
  rw [Nat.repr, Nat.repr, String.ofList_inj] at h
  rw [← Numeral.ofDigits_toDigits (b := 10) (by decide) (by decide) m, h]
  exact Numeral.ofDigits_toDigits (by decide) (by decide) n

/-- What is printed of a time has a sign before the digits, or has not. -/
theorem toList_toString (t : Int) :
    (toString t).toList = (if t < 0 then ['-'] else []) ++ t.natAbs.repr.toList := by
  cases t with
  | ofNat n => rfl
  | negSucc n =>
    rw [if_pos (Int.negSucc_lt_zero n)]
    exact String.toList_append

theorem colon_not_mem_toString (t : Int) : ':' ∉ (toString t).toList := by
  rw [toList_toString, List.mem_append, not_or]
  constructor
  · split <;> decide
  · exact fun h => absurd (isDigit_of_mem_repr h) (by decide)

theorem toString_inj {t t' : Int} (h : toString t = toString t') : t = t' := by
  have hminus : ∀ n : ℕ, ∀ l : List Char, n.repr.toList ≠ '-' :: l := fun n l hl =>
    absurd (isDigit_of_mem_repr (hl ▸ List.mem_cons_self)) (by decide)
  have hlist := congrArg String.toList h
  rw [toList_toString, toList_toString] at hlist
  split_ifs at hlist with h₁ h₂ h₂
  · have habs := repr_inj (String.toList_inj.1 (List.append_cancel_left hlist))
    omega
  · rw [List.nil_append] at hlist
    exact absurd hlist.symm (hminus _ _)
  · rw [List.nil_append] at hlist
    exact absurd hlist (hminus _ _)
  · have habs := repr_inj (String.toList_inj.1 (List.append_cancel_left hlist))
    omega

/-- The flag at the end of an id string. -/
def authFlag (authenticated : Bool) : String := if authenticated then "1" else "0"

theorem authFlag_inj {b b' : Bool} (h : authFlag b = authFlag b') : b = b' := by
  cases b <;> cases b' <;> first | rfl | exact absurd h (by decide)

variable {u v : User} {t t' : Int}

/-- An id string is the time, the login and the flag. -/
theorem colonParts_generatedId (h : ':' ∉ u.loginId.toList) (t : Int) :
    colonParts (u.generatedId t) =
      [(toString t).toList, u.loginId.toList, (authFlag u.authenticated).toList] := by
  have hid : u.generatedId t = toString t ++ ":" ++ (u.loginId ++ ":" ++ authFlag u.authenticated) := by
    simp only [User.generatedId, User.generateId, User.initExtraVars, authFlag, String.append_assoc]
  have hflag : colonParts (authFlag u.authenticated) = [(authFlag u.authenticated).toList] := by
    cases u.authenticated <;> decide
  rw [hid, colonParts_append, colonParts_append, hflag, colonParts, colonParts,
    List.splitOn_eq_singleton (colon_not_mem_toString t), List.splitOn_eq_singleton h]
  rfl

theorem length_colonParts_generatedId (h : ':' ∉ u.loginId.toList) (t : Int) :
    (colonParts (u.generatedId t)).length = 3 := by
  rw [colonParts_generatedId h]
  rfl

/-- An id string tells the time, the login and the flag. -/
theorem generatedId_inj (hu : ':' ∉ u.loginId.toList) (hv : ':' ∉ v.loginId.toList) :
    u.generatedId t = v.generatedId t' ↔ u.idParts t = v.idParts t' := by
  constructor
  · intro h
    have hparts := congrArg colonParts h
    rw [colonParts_generatedId hu, colonParts_generatedId hv] at hparts
    simp only [List.cons.injEq, and_true, String.toList_inj] at hparts
    obtain ⟨htime, hlogin, hflag⟩ := hparts
    rw [User.idParts, User.idParts, toString_inj htime, hlogin, authFlag_inj hflag]
  · intro h
    simp only [User.idParts, Prod.mk.injEq] at h
    obtain ⟨rfl, hlogin, hauth⟩ := h
    simp only [User.generatedId, User.generateId, User.initExtraVars, hlogin, hauth]

/-- **Private channels.** Both sides of a conversation name the same channel, and two conversations
have the same channel exactly when the same two users hold them. -/
theorem channel_eq_iff {a b c d : User} (ta tb tc td : Int) (ha : ':' ∉ a.loginId.toList)
    (hb : ':' ∉ b.loginId.toList) (hc : ':' ∉ c.loginId.toList) (hd : ':' ∉ d.loginId.toList) :
    privateMessageChannelWith (a.generatedId ta) (b.generatedId tb) =
        privateMessageChannelWith (b.generatedId tb) (a.generatedId ta) ∧
      (privateMessageChannelWith (a.generatedId ta) (b.generatedId tb) =
          privateMessageChannelWith (c.generatedId tc) (d.generatedId td) ↔
        s(a.idParts ta, b.idParts tb) = s(c.idParts tc, d.idParts td)) := by
  have hpair : s(a.generatedId ta, b.generatedId tb) = s(c.generatedId tc, d.generatedId td) ↔
      s(a.idParts ta, b.idParts tb) = s(c.idParts tc, d.idParts td) := by
    rw [Sym2.eq_iff, Sym2.eq_iff, generatedId_inj ha hc, generatedId_inj hb hd,
      generatedId_inj ha hd, generatedId_inj hb hc]
  refine ⟨channel_comm _ _, ?_⟩
  rw [← hpair]
  constructor
  · exact pair_of_channel_eq (length_colonParts_generatedId ha ta)
      (length_colonParts_generatedId hb tb) (length_colonParts_generatedId hc tc)
      (length_colonParts_generatedId hd td)
  · intro h
    rcases Sym2.eq_iff.1 h with ⟨hac, hbd⟩ | ⟨had, hbc⟩
    · rw [hac, hbd]
    · rw [had, hbc]
      exact channel_comm _ _

/-- Two conversations of one user. -/
theorem channel_eq_iff_three :
    let al : User := { loginId := "al", validation := "1" }
    let bob : User := { loginId := "bob" }
    let cy : User := { loginId := "cy" }
    privateMessageChannelWith (al.generatedId 1200) (bob.generatedId 99) =
        privateMessageChannelWith (bob.generatedId 99) (al.generatedId 1200) ∧
      privateMessageChannelWith (al.generatedId 1200) (bob.generatedId 99) ≠
        privateMessageChannelWith (cy.generatedId 1200) (al.generatedId 1200) := by
  intro al bob cy
  have hiff := channel_eq_iff (a := al) (b := bob) (c := cy) (d := al) 1200 99 1200 1200 (by decide)
    (by decide) (by decide) (by decide)
  exact ⟨hiff.1, fun h => absurd (hiff.2.1 h) (by decide)⟩

/-! ## The windows -/

/-- A `message_channel` with the id `send_private`, or `private_refused`. -/
structure PrivateMsg where
  refused : Bool := false
  str : String
  senderId : String
  channel : String
deriving DecidableEq

/-- `window::private_message`, with what its chat view shows. -/
structure PrivateWindow where
  userIdStr : String
  channel : String
  shown : List PrivateMsg := []
deriving DecidableEq

/-- The constructor. -/
def PrivateWindow.make (me userIdStr : String) : PrivateWindow :=
  { userIdStr, channel := privateMessageChannelWith me userIdStr }

/-- `private_message::handle_message`. -/
def PrivateWindow.handleMessage (w : PrivateWindow) (m : PrivateMsg) : PrivateWindow :=
  if w.channel = m.channel then { w with shown := w.shown ++ [m] } else w

/-- `private_message::send_message`: what goes to the network, with the one that it is for. -/
def PrivateWindow.sendMessage (w : PrivateWindow) (str : String) : PrivateMsg :=
  { str, senderId := w.userIdStr, channel := w.channel }

/-- The private windows of `house_app`. -/
structure PrivateDesk where
  windows : List PrivateWindow := []
deriving DecidableEq

/-- What happens to them. -/
inductive PrivateEvent where
  /-- `open_private_message` in a view of the users. -/
  | openWindow (userId : String)
  /-- A message comes; `busy` when the status is playing or not to be disturbed. -/
  | received (m : PrivateMsg) (busy : Bool)
  | closed (userIdStr : String)

namespace PrivateDesk

/-- `private_message_window_to`: the new window, if there is one, and `new_window_needed`. -/
def privateMessageWindowTo (d : PrivateDesk) (me channel userIdStr : String)
    (allowNewWindow : Bool) : Option PrivateWindow × Bool :=
  if me = userIdStr then (none, false)
  else if (d.windows.find? (·.channel = channel)).isSome then (none, false)
  else if !allowNewWindow then (none, true)
  else (some (.make me userIdStr), true)

/-- `_cond_open_private_message_window`, with the message that it sends. -/
def condOpenPrivateMessageWindow (d : PrivateDesk) (me : String) (m : PrivateMsg) (busy : Bool) :
    PrivateDesk × List PrivateMsg :=
  match d.privateMessageWindowTo me m.channel m.senderId (!busy) with
  | (some w, _) => (⟨d.windows ++ [w.handleMessage m]⟩, [])
  | (none, newWindowNeeded) =>
    if busy && newWindowNeeded then (d, [{ m with refused := true }]) else (d, [])

/-- One event; a message is handled by all windows first. -/
def step (me : String) (d : PrivateDesk) : PrivateEvent → PrivateDesk × List PrivateMsg
  | .openWindow userId =>
    if userId = "" then (d, [])
    else
      let w := (d.privateMessageWindowTo me (privateMessageChannelWith me userId) userId true).1
      (⟨d.windows ++ w.toList⟩, [])
  | .received m busy =>
    let d : PrivateDesk := ⟨d.windows.map (·.handleMessage m)⟩
    if m.refused then (d, []) else d.condOpenPrivateMessageWindow me m busy
  | .closed userIdStr => (⟨d.windows.filter (·.userIdStr ≠ userIdStr)⟩, [])

/-- The windows as a machine. -/
def machine (me : String) : Mealy PrivateDesk PrivateEvent PrivateMsg := ⟨step me⟩

/-- An id string that may be another user's. -/
def Partner (me userIdStr : String) : Prop := (colonParts userIdStr).length = 3 ∧ userIdStr ≠ me

/-- A message that is no echo of our own ones comes from a partner, on the channel that the partner
has with us. -/
def Honest (me : String) (m : PrivateMsg) : Prop :=
  m.senderId ≠ me → Partner me m.senderId ∧ m.channel = privateMessageChannelWith m.senderId me

/-- Windows are opened for partners, and messages are honest. -/
def Fair (me : String) : PrivateEvent → Prop
  | .openWindow userId => Partner me userId ∨ userId = me ∨ userId = ""
  | .received m _ => Honest me m
  | .closed _ => True

/-- A window of a partner, which shows what the two have written on their channel. -/
structure RightWindow (me : String) (w : PrivateWindow) : Prop where
  partner : Partner me w.userIdStr
  channel : w.channel = privateMessageChannelWith me w.userIdStr
  shown : ∀ m ∈ w.shown, m.channel = w.channel ∧ (m.senderId = w.userIdStr ∨ m.senderId = me)

/-- One window for each partner. -/
structure Right (me : String) (d : PrivateDesk) : Prop where
  nodup : (d.windows.map PrivateWindow.userIdStr).Nodup
  windows : ∀ w ∈ d.windows, RightWindow me w

variable {me : String} (hme : (colonParts me).length = 3)

include hme in
/-- Partners are known from the channel. -/
theorem eq_of_channel_eq {u v : String} (hu : Partner me u) (hv : Partner me v)
    (h : privateMessageChannelWith me u = privateMessageChannelWith me v) : u = v := by
  rcases Sym2.eq_iff.1 (pair_of_channel_eq hme hu.1 hme hv.1 h) with ⟨-, huv⟩ | ⟨hmv, -⟩
  · exact huv
  · exact absurd hmv.symm hv.2

/-- What a right window sends is honest where it goes. -/
theorem honest_sendMessage {w : PrivateWindow} (hme : (colonParts me).length = 3)
    (hw : RightWindow me w) (str : String) :
    Honest w.userIdStr { w.sendMessage str with senderId := me } :=
  fun hne => ⟨⟨hme, hne⟩, hw.channel⟩

@[simp] theorem handleMessage_channel (w : PrivateWindow) (m : PrivateMsg) :
    (w.handleMessage m).channel = w.channel := by
  unfold PrivateWindow.handleMessage
  split <;> rfl

@[simp] theorem handleMessage_userIdStr (w : PrivateWindow) (m : PrivateMsg) :
    (w.handleMessage m).userIdStr = w.userIdStr := by
  unfold PrivateWindow.handleMessage
  split <;> rfl

include hme in
/-- A window that takes an honest message stays right. -/
theorem rightWindow_handleMessage {w : PrivateWindow} (hw : RightWindow me w) {m : PrivateMsg}
    (hm : Honest me m) : RightWindow me (w.handleMessage m) := by
  unfold PrivateWindow.handleMessage
  split
  · rename_i hchannel
    refine ⟨hw.partner, hw.channel, fun m' hm' => ?_⟩
    rcases List.mem_append.1 hm' with hold | hnew
    · exact hw.shown m' hold
    · rw [List.mem_singleton.1 hnew]
      refine ⟨hchannel.symm, ?_⟩
      by_cases hsender : m.senderId = me
      · exact .inr hsender
      · obtain ⟨hpartner, hfrom⟩ := hm hsender
        rw [hw.channel, hfrom, channel_comm m.senderId] at hchannel
        exact .inl (eq_of_channel_eq hme hw.partner hpartner hchannel).symm
  · exact hw

/-- A new window is right. -/
theorem rightWindow_make {u : String} (hu : Partner me u) : RightWindow me (.make me u) :=
  ⟨hu, rfl, fun _ hm => by cases hm⟩

/-- What `private_message_window_to` opens: a window for one that has none. -/
theorem privateMessageWindowTo_fst_eq_some_iff {d : PrivateDesk} {channel u : String} {b : Bool}
    {w : PrivateWindow} :
    (d.privateMessageWindowTo me channel u b).1 = some w ↔
      me ≠ u ∧ (∀ v ∈ d.windows, v.channel ≠ channel) ∧ b = true ∧ w = .make me u := by
  unfold privateMessageWindowTo
  split_ifs with hself hfound hallow
  · simp [hself]
  · obtain ⟨v, hv, hchannel⟩ := List.find?_isSome.1 hfound
    simp only [false_iff, not_and]
    exact fun _ hnone => absurd (of_decide_eq_true hchannel) (hnone v hv)
  · simp_all
  · have hnone : ∀ v ∈ d.windows, v.channel ≠ channel := fun v hv hchannel =>
      hfound (List.find?_isSome.2 ⟨v, hv, decide_eq_true hchannel⟩)
    have hb : b = true := by simpa using hallow
    simp only [Option.some.injEq, hb, true_and, ne_eq, hself, not_false_eq_true]
    exact ⟨fun h => ⟨hnone, h.symm⟩, fun h => h.2.symm⟩

/-- A window is added for a partner that has none. -/
theorem right_append {d : PrivateDesk} (hd : Right me d) {w : PrivateWindow}
    (hw : RightWindow me w) (hnew : ∀ v ∈ d.windows, v.channel ≠ w.channel) :
    Right me ⟨d.windows ++ [w]⟩ := by
  constructor
  · rw [List.map_append, List.nodup_append]
    refine ⟨hd.nodup, List.nodup_singleton _, ?_⟩
    intro u hu u' hu' huu
    obtain ⟨v, hv, rfl⟩ := List.mem_map.1 hu
    obtain rfl : u' = w.userIdStr := List.mem_singleton.1 hu'
    refine hnew v hv ?_
    rw [(hd.windows v hv).channel, hw.channel, huu]
  · intro v hv
    rcases List.mem_append.1 hv with hold | hlast
    · exact hd.windows v hold
    · rw [List.mem_singleton.1 hlast]
      exact hw

include hme in
theorem right_map_handleMessage {d : PrivateDesk} (hd : Right me d) {m : PrivateMsg}
    (hm : Honest me m) : Right me ⟨d.windows.map (·.handleMessage m)⟩ := by
  constructor
  · have hids : (d.windows.map (·.handleMessage m)).map PrivateWindow.userIdStr =
        d.windows.map PrivateWindow.userIdStr := by
      rw [List.map_map]
      exact List.map_congr_left fun w _ => handleMessage_userIdStr w m
    rw [hids]
    exact hd.nodup
  · intro w hw
    obtain ⟨v, hv, rfl⟩ := List.mem_map.1 hw
    exact rightWindow_handleMessage hme (hd.windows v hv) hm

/-- A message comes into the window that is opened for it. -/
theorem windows_condOpen (d : PrivateDesk) (m : PrivateMsg) (busy : Bool) :
    (d.condOpenPrivateMessageWindow me m busy).1.windows =
      d.windows ++ ((d.privateMessageWindowTo me m.channel m.senderId (!busy)).1.map
        (·.handleMessage m)).toList := by
  unfold condOpenPrivateMessageWindow
  split
  · rename_i w needed hopen
    rw [hopen]
    rfl
  · rename_i needed hopen
    rw [hopen]
    split <;> exact (List.append_nil _).symm

include hme in
theorem right_condOpen {d : PrivateDesk} (hd : Right me d) {m : PrivateMsg} (hm : Honest me m)
    (busy : Bool) : Right me (d.condOpenPrivateMessageWindow me m busy).1 := by
  have hwindows := @windows_condOpen me d m busy
  cases hopen : (d.privateMessageWindowTo me m.channel m.senderId (!busy)).1 with
  | none =>
    rw [hopen, Option.map_none, Option.toList_none, List.append_nil] at hwindows
    exact ⟨hwindows ▸ hd.nodup, hwindows ▸ hd.windows⟩
  | some w =>
    rw [hopen] at hwindows
    obtain ⟨hself, hnew, -, rfl⟩ := privateMessageWindowTo_fst_eq_some_iff.1 hopen
    obtain ⟨hpartner, hchannel⟩ := hm (Ne.symm hself)
    have hright := right_append hd
      (rightWindow_handleMessage hme (rightWindow_make hpartner) hm) fun v hv => by
        rw [handleMessage_channel, PrivateWindow.make, channel_comm, ← hchannel]
        exact hnew v hv
    exact ⟨hwindows ▸ hright.nodup, hwindows ▸ hright.windows⟩

include hme in
/-- One event keeps the windows right. -/
theorem right_step {d : PrivateDesk} (hd : Right me d) {e : PrivateEvent} (he : Fair me e) :
    Right me (d.step me e).1 := by
  cases e with
  | openWindow userId =>
    simp only [step]
    split_ifs with hempty
    · exact hd
    · cases hopen :
        (d.privateMessageWindowTo me (privateMessageChannelWith me userId) userId true).1 with
      | none =>
        rw [Option.toList_none, List.append_nil]
        exact hd
      | some w =>
        obtain ⟨hself, hnew, -, rfl⟩ := privateMessageWindowTo_fst_eq_some_iff.1 hopen
        rcases he with hpartner | hself' | hempty'
        · exact right_append hd (rightWindow_make hpartner) hnew
        · exact absurd hself'.symm hself
        · exact absurd hempty' hempty
  | received m busy =>
    have hmap := right_map_handleMessage hme hd he
    simp only [step]
    split_ifs
    · exact hmap
    · exact right_condOpen hme hmap he busy
  | closed userIdStr =>
    constructor
    · exact hd.nodup.sublist (List.filter_sublist.map _)
    · exact fun w hw => hd.windows w (List.mem_filter.1 hw).1

include hme in
/-- **Private windows.** Whatever windows are opened and closed and whatever comes from the windows of
partners, there is one window for each partner, and it shows nothing that others have written. -/
theorem right_of_run {es : List PrivateEvent} (hes : ∀ e ∈ es, Fair me e) :
    Right me ((machine me).exec {} es) := by
  have hstart : Right me {} := ⟨List.nodup_nil, fun w hw => by cases hw⟩
  have hguard : (machine me).Guarded (fun _ e => Fair me e) {} es := by
    rw [Mealy.guarded_iff_forall]
    intro p e hp
    exact hes e (hp.subset (List.mem_append_right p List.mem_cons_self))
  exact (machine me).invariant (I := Right me) (fun d e hd he => right_step hme hd he) hstart hguard

/-- A user whose login `validate_user_id` accepts has an id string with two colons, as the windows
need it. -/
theorem right_of_login {u : User} {l : List UInt8} {noSize : Bool}
    (hvalid : validateUserId l noSize = true) (hlogin : u.loginId = String.ofList (latin1 l))
    (t : Int) {es : List PrivateEvent} (hes : ∀ e ∈ es, Fair (u.generatedId t) e) :
    Right (u.generatedId t) ((machine (u.generatedId t)).exec {} es) := by
  refine right_of_run (length_colonParts_generatedId ?_ t) hes
  rw [hlogin, String.toList_ofList]
  exact colon_not_mem_of_validateUserId hvalid

include hme in
/-- **Both sides.** What is sent from a window of such a run is honest where it goes, so the windows
there stay right with it. -/
theorem honest_of_run {es : List PrivateEvent} (hes : ∀ e ∈ es, Fair me e) {w : PrivateWindow}
    (hw : w ∈ ((machine me).exec {} es).windows) (str : String) :
    Honest w.userIdStr { w.sendMessage str with senderId := me } :=
  honest_sendMessage hme ((right_of_run hme hes).windows w hw) str

/-- A message of another user is shown in some window, unless ours is busy. -/
theorem exists_shown_of_received {d : PrivateDesk} {m : PrivateMsg} (hm : m.refused = false)
    (hother : m.senderId ≠ me) (hchannel : m.channel = privateMessageChannelWith m.senderId me) :
    ∃ w ∈ (d.step me (.received m false)).1.windows, m ∈ w.shown := by
  have hshown : ∀ w : PrivateWindow, w.channel = m.channel → m ∈ (w.handleMessage m).shown := by
    intro w hw
    rw [PrivateWindow.handleMessage, if_pos hw]
    exact List.mem_append_right _ (List.mem_singleton_self m)
  have hstep : (d.step me (.received m false)).1.windows =
      ((⟨d.windows.map (·.handleMessage m)⟩ : PrivateDesk).condOpenPrivateMessageWindow me m
        false).1.windows := by
    simp [step, hm]
  rw [hstep, windows_condOpen]
  by_cases hnew : ∀ v ∈ d.windows.map (·.handleMessage m), v.channel ≠ m.channel
  · have hopen := (privateMessageWindowTo_fst_eq_some_iff (b := !false)
      (d := ⟨d.windows.map (·.handleMessage m)⟩)).2 ⟨hother.symm, hnew, rfl, rfl⟩
    rw [hopen]
    refine ⟨_, List.mem_append_right _ (List.mem_singleton_self _), hshown _ ?_⟩
    exact (channel_comm _ _).trans hchannel.symm
  · push Not at hnew
    obtain ⟨v, hv, hv'⟩ := hnew
    obtain ⟨w, hw, rfl⟩ := List.mem_map.1 hv
    refine ⟨w.handleMessage m, List.mem_append_left _ hv, hshown w ?_⟩
    rwa [handleMessage_channel] at hv'

end PrivateDesk

end RvHouse
