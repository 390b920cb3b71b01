import RvHouse.Lib.PrefixScan
import Mathlib.Data.Bool.AllAny

/-!
# The scanner of URLs

`parser::url::dfa`: whether a buffer begins with a URL, and where the URL ends. A buffer is the list
of its characters; behind them, at `guard`, stands a NUL.

`Specified` is what the scanner is for. `status_eq_success_iff`: it succeeds when one of the three
beginnings is a prefix of the word in front. `specified_iff`: all else holds too, but for a word
that is `www.` and nothing but characters that are trimmed, where the dot of `www.` is trimmed with
them.
-/

namespace RvHouse

namespace Dfa

inductive Token
  | h | t | p | colon | slash | f | w | dot | term | other | removeEnd
  deriving DecidableEq

inductive Status
  | success | failure
  deriving DecidableEq

/-- `_table`; the entries that are -1 are none. -/
def table : Fin 11 → Token → Option (Fin 11)
  | 0, .h => some 1
  | 0, .f => some 2
  | 0, .w => some 7
  | 1, .t => some 2
  | 2, .t => some 3
  | 3, .p => some 4
  | 4, .colon => some 5
  | 5, .slash => some 6
  | 6, .slash => some 10
  | 7, .w => some 8
  | 8, .w => some 9
  | 9, .dot => some 10
  | 10, _ => some 10
  | _, _ => none

def tokenize (a : Char) : Token :=
  match a with
  | 'h' => .h
  | 't' => .t
  | 'p' => .p
  | ':' => .colon
  | '/' => .slash
  | 'f' => .f
  | 'w' => .w
  | '.' => .dot
  | ' ' | '\t' | '\n' | '\r' => .term
  | ')' | '(' | '{' | '}' | '[' | ']' | ',' | ';' => .removeEnd
  | _ => if a = Char.ofNat 0 then .term else .other

/-- What `_prepare_end` takes away from the end. -/
def trims (token : Token) : Bool := token = .removeEnd || token = .term || token = .dot

/-- The character at an offset up to `guard`. -/
def byteAt (s : List Char) (i : ℕ) : Char := s.getD i (Char.ofNat 0)

/-- `_prepare_end`, which starts at the character where the scan stopped; the first character of the
buffer is kept. -/
def prepareEnd (s : List Char) : ℕ → ℕ
  | 0 => 1
  | i + 1 => if trims (tokenize (byteAt s (i + 1))) then prepareEnd s i else i + 2

/-- The status at the end of the text. -/
def statusAt (state : Fin 11) : Status :=
  if table state .term = none then .failure else .success

/-- The loop of `parse`: the status, and where it stopped. -/
def scan : Fin 11 → List Char → ℕ → Status × ℕ
  | state, [], buf => (statusAt state, buf)
  | state, a :: l, buf =>
    if tokenize a = .term then (statusAt state, buf)
    else
      match table state (tokenize a) with
      | none => (.failure, buf)
      | some state => scan state l (buf + 1)

/-- `parse`, with the offset of `end`. -/
def parse (s : List Char) : Status × ℕ :=
  let r := scan 0 s 0
  (r.1, prepareEnd s r.2)

/-! ## What the scanner is for -/

/-- White space, or the NUL at the end of a text. -/
def isBlank (c : Char) : Bool :=
  c = ' ' || c = '\t' || c = '\n' || c = '\r' || c = Char.ofNat 0

/-- What a URL does not end with. -/
def isTrailing (c : Char) : Bool :=
  isBlank c || ['.', ',', ';', '(', ')', '[', ']', '{', '}'].contains c

/-- The text before the first white space. -/
def word (s : List Char) : List Char := s.takeWhile (!isBlank ·)

/-- What a URL begins with. -/
def beginnings : List (List Char) := ["http://".toList, "ftp://".toList, "www.".toList]

/-- The scanner finds the URL at the beginning of a buffer, without the punctuation after it. -/
structure Specified (s : List Char) : Prop where
  status : (parse s).1 = .success ↔ ∃ b ∈ beginnings, b <+: word s
  within : (parse s).1 = .success → 0 < (parse s).2 ∧ (parse s).2 ≤ s.length
  begins : (parse s).1 = .success → ∃ b ∈ beginnings, b <+: s.take (parse s).2
  last : (parse s).1 = .success → ∀ c ∈ (s.take (parse s).2).getLast?, isTrailing c = false
  trimmed : (parse s).1 = .success → ∀ c ∈ (word s).drop (parse s).2, isTrailing c = true

/-! ## Tokens -/

theorem tokenize_eq_term (c : Char) : tokenize c = .term ↔ isBlank c = true := by
  unfold tokenize isBlank
  split <;> simp_all

theorem trims_tokenize (c : Char) : trims (tokenize c) = isTrailing c := by
  by_cases hnul : c = Char.ofNat 0
  · subst hnul
    decide
  · unfold tokenize isTrailing isBlank trims
    split <;> simp_all

/-- The character of a token that has only one. -/
def spelled : Token → Option Char
  | .h => some 'h'
  | .t => some 't'
  | .p => some 'p'
  | .colon => some ':'
  | .slash => some '/'
  | .f => some 'f'
  | .w => some 'w'
  | .dot => some '.'
  | .term | .other | .removeEnd => none

theorem eq_of_spelled {c d : Char} (h : spelled (tokenize d) = some c) : d = c := by
  unfold tokenize at h
  split at h
  case h_21 =>
    split at h
    · cases h
    · cases h
  all_goals first | exact Option.some.inj h | cases h

/-- The characters that have a token of their own. -/
def lettered : List Char := "htp:/fw.".toList

theorem tokenize_inj {c d : Char} (hc : c ∈ lettered) (h : tokenize d = tokenize c) : d = c := by
  have hall : ∀ c ∈ lettered, spelled (tokenize c) = some c :=
    List.all_iff_forall_prop.1 (by decide)
  exact eq_of_spelled (h ▸ hall c hc)

theorem map_tokenize_prefix_iff {b : List Char} (hb : ∀ c ∈ b, c ∈ lettered) (l : List Char) :
    b.map tokenize <+: l.map tokenize ↔ b <+: l := by
  induction b generalizing l with
  | nil => simp
  | cons c b ih =>
    cases l with
    | nil => simp
    | cons d l =>
      rw [List.map_cons, List.map_cons, List.cons_prefix_cons, List.cons_prefix_cons,
        ih fun e he => hb e (List.mem_cons_of_mem c he)]
      apply and_congr_left
      intro _
      constructor
      · intro h
        exact (tokenize_inj (hb c List.mem_cons_self) h.symm).symm
      · rintro rfl
        rfl

/-! ## The table -/

/-- What is still to come in a state. -/
def awaited : Fin 11 → List (List Char)
  | 0 => beginnings
  | 1 => ["ttp://".toList]
  | 2 => ["tp://".toList]
  | 3 => ["p://".toList]
  | 4 => ["://".toList]
  | 5 => ["//".toList]
  | 6 => ["/".toList]
  | 7 => ["ww.".toList]
  | 8 => ["w.".toList]
  | 9 => [".".toList]
  | 10 => [[]]

/-- The same in tokens. -/
def label (state : Fin 11) : List (List Token) := (awaited state).map (·.map tokenize)

theorem table_respects {token : Token} (h : token ≠ .term) :
    PrefixScan.Respects table label token := by
  unfold PrefixScan.Respects
  cases token <;> first | exact absurd rfl h | decide

theorem statusAt_eq_success (state : Fin 11) :
    statusAt state = .success ↔ [] ∈ label state := by
  revert state
  decide

/-- The loop is a run of the table over the word. -/
theorem scan_eq (state : Fin 11) (s : List Char) (buf : ℕ) :
    (((word s).map tokenize).foldlM table state = none ∧ (scan state s buf).1 = .failure) ∨
      ∃ state', ((word s).map tokenize).foldlM table state = some state' ∧
        scan state s buf = (statusAt state', buf + (word s).length) := by
  induction s generalizing state buf with
  | nil => exact .inr ⟨state, rfl, rfl⟩
  | cons a l ih =>
    rw [scan]
    split
    · rename_i hterm
      have hword : word (a :: l) = [] := by
        simp [word, (tokenize_eq_term a).1 hterm]
      rw [hword]
      exact .inr ⟨state, rfl, rfl⟩
    · rename_i hterm
      have hblank : isBlank a = false :=
        Bool.eq_false_iff.2 fun h => hterm ((tokenize_eq_term a).2 h)
      have hword : word (a :: l) = a :: word l := by simp [word, hblank]
      rw [hword, List.map_cons, List.foldlM_cons]
      cases htable : table state (tokenize a) with
      | none => exact .inl ⟨rfl, rfl⟩
      | some state₁ =>
        rw [List.length_cons, Nat.add_comm (word l).length, ← Nat.add_assoc]
        exact ih state₁ (buf + 1)

/-- **When the scanner succeeds.** -/
theorem status_eq_success_iff (s : List Char) :
    (parse s).1 = .success ↔ ∃ b ∈ beginnings, b <+: word s := by
  have htokens : ∀ token ∈ (word s).map tokenize, PrefixScan.Respects table label token := by
    intro token htoken
    obtain ⟨c, hc, rfl⟩ := List.mem_map.1 htoken
    have hblank := List.mem_takeWhile_imp hc
    exact table_respects fun h => by simp [(tokenize_eq_term c).1 h] at hblank
  have hlettered : ∀ b ∈ beginnings, b ⊆ lettered := by decide
  have hrun : (∃ b ∈ beginnings, b <+: word s) ↔
      ∃ state, ((word s).map tokenize).foldlM table 0 = some state ∧ [] ∈ label state := by
    rw [← PrefixScan.exists_prefix_iff htokens 0]
    constructor
    · rintro ⟨b, hb, hpre⟩
      exact ⟨_, List.mem_map_of_mem hb, (map_tokenize_prefix_iff (hlettered b hb) _).2 hpre⟩
    · rintro ⟨p, hp, hpre⟩
      obtain ⟨b, hb, rfl⟩ := List.mem_map.1 hp
      exact ⟨b, hb, (map_tokenize_prefix_iff (hlettered b hb) _).1 hpre⟩
  rw [hrun]
  show (scan 0 s 0).1 = .success ↔ _
  rcases scan_eq 0 s 0 with ⟨hnone, hfail⟩ | ⟨state, hsome, hscan⟩
  · simp [hnone, hfail]
  · simp [hsome, hscan, statusAt_eq_success]

theorem scan_length {s : List Char} (h : (parse s).1 = .success) :
    (scan 0 s 0).2 = (word s).length := by
  have hstatus : (scan 0 s 0).1 = .success := h
  rcases scan_eq 0 s 0 with ⟨-, hfail⟩ | ⟨state, -, hscan⟩
  · rw [hfail] at hstatus
    cases hstatus
  · rw [hscan, Nat.zero_add]

/-! ## The end -/

theorem parse_end_pos (s : List Char) : 0 < (parse s).2 := by
  have hpos : ∀ i, 0 < prepareEnd s i := by
    intro i
    induction i with
    | zero => exact Nat.one_pos
    | succ i ih =>
      rw [prepareEnd]
      split
      · exact ih
      · omega
  exact hpos (scan 0 s 0).2

/-- What is left of the text without the punctuation at its end, and no less than one character. -/
theorem prepareEnd_eq {s : List Char} {i : ℕ} (hi : i ≤ s.length) :
    prepareEnd s i =
      max 1 (((s ++ [Char.ofNat 0]).take (i + 1)).rdropWhile isTrailing).length := by
  induction i with
  | zero =>
    have hle : (((s ++ [Char.ofNat 0]).take (0 + 1)).rdropWhile isTrailing).length ≤ 1 :=
      (List.rdropWhile_prefix _ _).length_le.trans (List.length_take_le 1 _)
    rw [prepareEnd]
    omega
  | succ i ih =>
    have hget : (s ++ [Char.ofNat 0])[i + 1]? = some (byteAt s (i + 1)) := by
      rcases hi.lt_or_eq with hlt | heq
      · simp [byteAt, List.getElem?_append_left hlt, List.getElem?_eq_getElem hlt]
      · simp [byteAt, heq]
    rw [prepareEnd, trims_tokenize, ih (by omega), List.take_add_one (i := i + 1), hget,
      Option.toList_some, List.rdropWhile_concat]
    split
    · rfl
    · have hlen : ((s ++ [Char.ofNat 0]).take (i + 1)).length = i + 1 :=
        List.length_take_of_le (by simp; omega)
      rw [List.length_append, hlen, List.length_singleton]
      omega

/-- The URL with the punctuation after it taken away. -/
def trimmedWord (s : List Char) : List Char := (word s).rdropWhile isTrailing

/-- The text goes on with white space after the word, or it is at its end. -/
theorem exists_blank (s : List Char) :
    ∃ c, isBlank c = true ∧ (s ++ [Char.ofNat 0]).take ((word s).length + 1) = word s ++ [c] := by
  have hsplit : s = word s ++ s.dropWhile (!isBlank ·) := List.takeWhile_append_dropWhile.symm
  obtain ⟨c, l, hrest, hc⟩ : ∃ c l, s.dropWhile (!isBlank ·) ++ [Char.ofNat 0] = c :: l ∧
      isBlank c = true := by
    cases hdrop : s.dropWhile (!isBlank ·) with
    | nil => exact ⟨Char.ofNat 0, [], rfl, by decide⟩
    | cons c l =>
      have hhead := List.head_dropWhile_not (p := (!isBlank ·)) (l := s) (by simp [hdrop])
      simp only [hdrop, List.head_cons, Bool.not_eq_false'] at hhead
      exact ⟨c, l ++ [Char.ofNat 0], rfl, hhead⟩
  refine ⟨c, hc, ?_⟩
  have htext : s ++ [Char.ofNat 0] = word s ++ c :: l := by
    rw [← hrest, ← List.append_assoc, ← hsplit]
  rw [htext, List.take_length_add_append]
  rfl

theorem trimmedWord_prefix_self (s : List Char) : trimmedWord s <+: s :=
  (List.rdropWhile_prefix _ _).trans (List.takeWhile_prefix _)

theorem trimmedWord_ne_nil {s : List Char} (h : (parse s).1 = .success) : trimmedWord s ≠ [] := by
  obtain ⟨b, hb, hpre⟩ := (status_eq_success_iff s).1 h
  have hkept : ∀ b ∈ beginnings, b.all isTrailing = false := by decide
  intro hnil
  have hall : b.all isTrailing = true := List.all_eq_true.2 fun c hc =>
    List.rdropWhile_eq_nil_iff.1 hnil c (hpre.subset hc)
  rw [hkept b hb] at hall
  cases hall

/-- **The end.** -/
theorem end_eq {s : List Char} (h : (parse s).1 = .success) :
    (parse s).2 = (trimmedWord s).length := by
  obtain ⟨c, hc, htake⟩ := exists_blank s
  have htrail : isTrailing c = true := by rw [isTrailing, hc, Bool.true_or]
  have hle : (word s).length ≤ s.length := (List.takeWhile_prefix _).length_le
  have hpos : 0 < (trimmedWord s).length := List.length_pos_of_ne_nil (trimmedWord_ne_nil h)
  show prepareEnd s (scan 0 s 0).2 = _
  rw [scan_length h, prepareEnd_eq hle, htake, List.rdropWhile_concat_pos _ _ _ htrail]
  show max 1 (trimmedWord s).length = _
  omega

theorem parse_end_le {s : List Char} (h : (parse s).1 = .success) : (parse s).2 ≤ s.length := by
  rw [end_eq h]
  exact (trimmedWord_prefix_self s).length_le

theorem take_end {s : List Char} (h : (parse s).1 = .success) :
    s.take (parse s).2 = trimmedWord s := by
  rw [end_eq h]
  exact (List.prefix_iff_eq_take.1 (trimmedWord_prefix_self s)).symm

/-- What follows the URL is trimmed or white space. -/
theorem isTrailing_getElem?_end {s : List Char} (h : (parse s).1 = .success) {c : Char}
    (hc : s[(parse s).2]? = some c) : isTrailing c = true := by
  obtain ⟨d, hd, htake⟩ := exists_blank s
  have hsplit : word s ++ [d] = trimmedWord s ++ ((word s).rtakeWhile isTrailing ++ [d]) := by
    rw [← List.append_assoc, trimmedWord, List.rdropWhile_append_rtakeWhile]
  have hle : (trimmedWord s).length ≤ (word s).length := (List.rdropWhile_prefix _ _).length_le
  have hget : ((word s).rtakeWhile isTrailing ++ [d])[0]? = some c := by
    rw [end_eq h] at hc
    have hlt := (List.getElem?_eq_some_iff.1 hc).1
    have hguard : (s ++ [Char.ofNat 0])[(trimmedWord s).length]? = some c :=
      (List.getElem?_append_left hlt).trans hc
    rw [← List.getElem?_take_of_lt (by omega : _ < (word s).length + 1), htake, hsplit,
      List.getElem?_append_right le_rfl, Nat.sub_self] at hguard
    exact hguard
  rcases List.mem_append.1 (List.mem_of_getElem? hget) with hmem | hmem
  · exact List.mem_rtakeWhile_imp hmem
  · rw [List.mem_singleton.1 hmem, isTrailing, hd, Bool.true_or]

/-- A beginning with no punctuation at its own end is kept. -/
theorem begins_of_rdropWhile_eq {s b : List Char} (hb : b ∈ beginnings)
    (hself : b.rdropWhile isTrailing = b) (hpre : b <+: word s) :
    ∃ b ∈ beginnings, b <+: trimmedWord s := by
  obtain ⟨r, hr⟩ := hpre
  refine ⟨b, hb, ?_⟩
  rw [trimmedWord, ← hr, PrefixScan.rdropWhile_append, hself]
  split
  · exact List.prefix_rfl
  · exact List.prefix_append b _

/-- A beginning is kept, but for the dot of `www.` when all is trimmed that stands behind it. -/
theorem begins_iff {s : List Char} (h : ∃ b ∈ beginnings, b <+: word s) :
    (∃ b ∈ beginnings, b <+: trimmedWord s) ↔
      ¬ ∃ r, word s = "www.".toList ++ r ∧ ∀ c ∈ r, isTrailing c = true := by
  by_cases hwww : "www.".toList <+: word s
  · obtain ⟨r, hr⟩ := hwww
    have hall : (∃ r', word s = "www.".toList ++ r' ∧ ∀ c ∈ r', isTrailing c = true) ↔
        r.rdropWhile isTrailing = [] := by
      rw [List.rdropWhile_eq_nil_iff, ← hr]
      constructor
      · rintro ⟨r', heq, hr'⟩
        rwa [List.append_cancel_left heq]
      · intro hr'
        exact ⟨r, rfl, hr'⟩
    rw [hall, trimmedWord, ← hr, PrefixScan.rdropWhile_append]
    split
    · rename_i hnil
      simp only [hnil, not_true_eq_false, iff_false]
      decide
    · rename_i hne
      exact iff_of_true ⟨"www.".toList, by decide, List.prefix_append _ _⟩ hne
  · refine iff_of_true ?_ fun ⟨r, hr, _⟩ => hwww ⟨r, hr.symm⟩
    obtain ⟨b, hb, hpre⟩ := h
    have hself : ∀ b ∈ beginnings, b = "www.".toList ∨ b.rdropWhile isTrailing = b := by decide
    rcases hself b hb with rfl | hb'
    · exact absurd hpre hwww
    · exact begins_of_rdropWhile_eq hb hb' hpre

/-- **The scanner does what it is for**, but for a word that is `www.` and nothing but punctuation
after it. -/
theorem specified_iff (s : List Char) :
    Specified s ↔ ¬ ∃ r, word s = "www.".toList ++ r ∧ ∀ c ∈ r, isTrailing c = true := by
  constructor
  · rintro h ⟨r, hr, htrail⟩
    have hbegins : ∃ b ∈ beginnings, b <+: word s :=
      ⟨"www.".toList, by decide, r, hr.symm⟩
    have hsuccess := (status_eq_success_iff s).2 hbegins
    have hkept := h.begins hsuccess
    rw [take_end hsuccess] at hkept
    exact (begins_iff hbegins).1 hkept ⟨r, hr, htrail⟩
  · intro h
    constructor
    · exact status_eq_success_iff s
    · intro hsuccess
      exact ⟨parse_end_pos s, parse_end_le hsuccess⟩
    · intro hsuccess
      rw [take_end hsuccess]
      exact (begins_iff ((status_eq_success_iff s).1 hsuccess)).2 h
    · intro hsuccess c hc
      rw [take_end hsuccess, List.getLast?_eq_some_getLast (trimmedWord_ne_nil hsuccess),
        Option.mem_some_iff] at hc
      rw [← hc]
      exact Bool.eq_false_iff.2 (List.rdropWhile_last_not _ _ (trimmedWord_ne_nil hsuccess))
    · intro hsuccess c hc
      rw [end_eq hsuccess] at hc
      have hsplit : trimmedWord s ++ (word s).rtakeWhile isTrailing = word s :=
        List.rdropWhile_append_rtakeWhile
      rw [← hsplit, List.drop_left] at hc
      exact List.mem_rtakeWhile_imp hc

/-- The dot of `www.` is taken away with the punctuation. -/
theorem not_specified_www : ¬ Specified "www.".toList := by
  intro h
  have hkept := h.begins (by decide)
  revert hkept
  decide

end Dfa

end RvHouse
