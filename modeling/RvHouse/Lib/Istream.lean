import RvHouse.Lib.Numeral

/-!
# Input streams

The input of text as the streams of C++ do it, in the classic locale: `read` takes characters as
they are, an extraction skips white space and takes an integer, and `lines` are those that `getline`
gives before the end of the input. A stream that was asked for more than there is is not good any
more, and neither is one that an integer was taken from at its end; nothing is taken from a stream
that is not good.

`extract_digits` says what an extraction does with digits.
-/

/-- What is left of the input, and whether no flag is set. -/
structure Istream where
  rest : List Char
  good : Bool := true

namespace Istream

open Numeral

/-- `read`: the characters that there are. -/
def read (n : ℕ) (s : Istream) : List Char × Istream :=
  if s.good then
    if n ≤ s.rest.length then (s.rest.take n, ⟨s.rest.drop n, true⟩) else (s.rest, ⟨[], false⟩)
  else ([], s)

/-- `isspace`. -/
def isSpace (c : Char) : Bool :=
  c = ' ' || c = '\t' || c = '\n' || c = '\r' || c = Char.ofNat 11 || c = Char.ofNat 12

/-- An optional sign; whether it is a minus. -/
def takeSign : List Char → Bool × List Char
  | '-' :: l => (true, l)
  | '+' :: l => (false, l)
  | l => (false, l)

/-- The prefix that a hexadecimal number may have. -/
def skipPrefix : List Char → List Char
  | '0' :: 'x' :: l => l
  | '0' :: 'X' :: l => l
  | l => l

/-- `operator>>` for an integer in the base. The sign and the digits are taken, `conv` converts them
and says whether they fit; `none` when nothing is stored. -/
def extract {α : Type*} (base : ℕ) (conv : Bool → ℕ → α × Bool) (s : Istream) :
    Option α × Istream :=
  if s.good then
    if s.rest.dropWhile isSpace = [] then (none, ⟨[], false⟩)
    else
      let l := takeSign (s.rest.dropWhile isSpace)
      let ds := if base = 16 then skipPrefix l.2 else l.2
      let digits := ds.takeWhile (isDigit base)
      let rest := ds.dropWhile (isDigit base)
      -- Without a digit a zero is stored.
      if digits = [] then (some (conv false 0).1, ⟨rest, false⟩)
      else
        let r := conv l.1 (ofDigits base digits)
        (some r.1, ⟨rest, r.2 && !rest.isEmpty⟩)
  else (none, s)

/-- The conversion to an unsigned integer, which wraps round at a minus. -/
def toUnsigned (bits : ℕ) (neg : Bool) (n : ℕ) : ℕ × Bool :=
  if 2 ^ bits ≤ n then (2 ^ bits - 1, false)
  else (if neg then (2 ^ bits - n) % 2 ^ bits else n, true)

/-- The conversion to a signed integer. -/
def toSigned (bits : ℕ) (neg : Bool) (n : ℕ) : Int × Bool :=
  if neg then if 2 ^ (bits - 1) < n then (-(2 ^ (bits - 1)), false) else (-n, true)
  else if 2 ^ (bits - 1) ≤ n then (2 ^ (bits - 1) - 1, false) else (n, true)

/-- The lines that `getline` gives; an end of the input without a newline gives none. -/
def linesFrom : List Char → List Char → List (List Char)
  | _, [] => []
  | line, c :: l => if c = '\n' then line :: linesFrom [] l else linesFrom (line ++ [c]) l

/-- The lines of a text. -/
def lines (l : List Char) : List (List Char) := linesFrom [] l

/-! ## What they do -/

theorem read_append (l rest : List Char) : read l.length ⟨l ++ rest, true⟩ = (l, ⟨rest, true⟩) := by
  simp [read]

theorem linesFrom_append {line l : List Char} (h : '\n' ∉ l) (rest : List Char) :
    linesFrom line (l ++ '\n' :: rest) = (line ++ l) :: linesFrom [] rest := by
  induction l generalizing line with
  | nil => simp [linesFrom]
  | cons c l ih =>
    obtain ⟨hc, hl⟩ := not_or.1 (mt List.mem_cons.2 h)
    rw [List.cons_append, linesFrom, if_neg (Ne.symm hc), ih hl, List.append_assoc]
    rfl

theorem lines_cons {l : List Char} (h : '\n' ∉ l) (rest : List Char) :
    lines (l ++ '\n' :: rest) = l :: lines rest :=
  linesFrom_append h rest

theorem linesFrom_eq_splitOn (line l : List Char) :
    linesFrom line l = ((l.splitOn '\n').modifyHead (line ++ ·)).dropLast := by
  induction l generalizing line with
  | nil => simp [linesFrom]
  | cons c l ih =>
    obtain ⟨first, rest, hsplit⟩ := List.exists_cons_of_ne_nil (List.splitOn_ne_nil '\n' l)
    rw [linesFrom, List.splitOn_cons_eq_if_modifyHead]
    by_cases hc : c = '\n'
    · rw [if_pos hc, if_pos (by simpa using hc), ih, hsplit]
      simp
    · rw [if_neg hc, if_neg (by simpa using hc), ih, hsplit]
      simp

/-- `getline` gives all lines but the one that no newline ends. -/
theorem lines_eq_dropLast (l : List Char) : lines l = (l.splitOn '\n').dropLast := by
  obtain ⟨first, rest, hsplit⟩ := List.exists_cons_of_ne_nil (List.splitOn_ne_nil '\n' l)
  rw [lines, linesFrom_eq_splitOn, hsplit]
  rfl

variable {base : ℕ}

/-- A digit is no white space and no sign. -/
theorem ne_of_isDigit (h16 : base ≤ 16) {c d : Char} (hc : isDigit base c = true)
    (hd : digitValue d = 16) : c ≠ d := by
  rintro rfl
  simp only [isDigit, hd, decide_eq_true_eq] at hc
  omega

theorem isSpace_of_isDigit (h16 : base ≤ 16) {c : Char} (hc : isDigit base c = true) :
    isSpace c = false := by
  simp only [isSpace, Bool.or_eq_false_iff, decide_eq_false_iff_not]
  refine ⟨⟨⟨⟨⟨?_, ?_⟩, ?_⟩, ?_⟩, ?_⟩, ?_⟩ <;> exact ne_of_isDigit h16 hc (by decide)

theorem takeSign_of_isDigit (h16 : base ≤ 16) {c : Char} (hc : isDigit base c = true)
    (l : List Char) : takeSign (c :: l) = (false, c :: l) := by
  unfold takeSign
  split
  · rename_i heq
    exact absurd (List.cons.inj heq).1 (ne_of_isDigit h16 hc (by decide))
  · rename_i heq
    exact absurd (List.cons.inj heq).1 (ne_of_isDigit h16 hc (by decide))
  · rfl

theorem skipPrefix_of_isDigit {l : List Char} (hl : ∀ c ∈ l, isDigit 16 c = true) :
    skipPrefix l = l := by
  unfold skipPrefix
  split
  · exact absurd rfl (ne_of_isDigit le_rfl (hl 'x' (by simp)) (by decide))
  · exact absurd rfl (ne_of_isDigit le_rfl (hl 'X' (by simp)) (by decide))
  · rfl

/-- **The extraction of digits.** They end where no digit follows; a hexadecimal number is to end
the input. -/
theorem extract_digits {α : Type*} (conv : Bool → ℕ → α × Bool) (h16 : base ≤ 16)
    {l rest : List Char} (hne : l ≠ []) (hl : ∀ c ∈ l, isDigit base c = true)
    (hrest : ∀ c ∈ rest.head?, isDigit base c = false) (hhex : base = 16 → rest = []) :
    extract base conv ⟨l ++ rest, true⟩ =
      (some (conv false (ofDigits base l)).1,
        ⟨rest, (conv false (ofDigits base l)).2 && !rest.isEmpty⟩) := by
  have hpre : (if base = 16 then skipPrefix (l ++ rest) else l ++ rest) = l ++ rest := by
    split
    · rename_i hbase
      subst hbase
      rw [hhex rfl, List.append_nil]
      exact skipPrefix_of_isDigit hl
    · rfl
  have htake : (l ++ rest).takeWhile (isDigit base) = l := by
    rw [List.takeWhile_append_of_pos hl]
    cases rest with
    | nil => simp
    | cons c rest => simp [hrest c rfl]
  have hdrop : (l ++ rest).dropWhile (isDigit base) = rest := by
    rw [List.dropWhile_append_of_pos hl]
    cases rest with
    | nil => rfl
    | cons c rest => simp [hrest c rfl]
  obtain ⟨d, ds, rfl⟩ := List.exists_cons_of_ne_nil hne
  have hd := hl d List.mem_cons_self
  have hspace : (d :: ds ++ rest).dropWhile isSpace = d :: ds ++ rest := by
    rw [List.cons_append, List.dropWhile_cons_of_neg (by simp [isSpace_of_isDigit h16 hd])]
  have hsign : takeSign (d :: ds ++ rest) = (false, d :: ds ++ rest) :=
    takeSign_of_isDigit h16 hd _
  simp only [extract, hspace, hsign, hpre, htake, hdrop]
  simp

end Istream
