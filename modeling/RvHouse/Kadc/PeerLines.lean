import RvHouse.Kadc.RoundTrip

/-!
# Which lines of the text become contacts

The lines of KadC's text are the pieces between the newlines, and a line is `InPeers` when the last
heading above it is `[overnet_peers]`. `lineParts` is what the loop over the lines writes for each
of them, in order; `lineLoop_eq_lineParts` ties it to the loop. `faithful_iff`: the number in front
is right and every well-formed line of the section gives its contact just when there are fewer than
2³¹ contacts to be read and each well-formed line has a newline, follows an odd number of
`[overnet_peers]` headings in a row, and only lines that are read stand above it in such a section.
-/

namespace RvHouse

namespace Kadc

open Numeral

/-! ## Sections -/

/-- The heading of the section with the contacts. -/
def peersHeading : List Char := "[overnet_peers]".toList

/-- A line that begins a section. -/
def isHeading (line : List Char) : Bool := line.head? = some '['

/-- The headings above a line, the nearest first. -/
def headingsAbove (ls : List (List Char)) (n : ℕ) : List (List Char) :=
  ((ls.take n).filter isHeading).reverse

/-- The line lies between an `[overnet_peers]` line and the next section line. -/
def InPeers (ls : List (List Char)) (n : ℕ) : Prop :=
  (headingsAbove ls n).head? = some peersHeading

/-- How many `[overnet_peers]` headings in a row stand above the line, without another heading
between. -/
def peersRun (ls : List (List Char)) (n : ℕ) : ℕ :=
  ((headingsAbove ls n).takeWhile (· = peersHeading)).length

/-- A line that the loop takes for a contact when it is in the section. -/
def isData (line : List Char) : Bool := line.head? ≠ some '#' && !isHeading line

/-- Whether the loop takes a line for a contact. -/
def taken (contactSection : Bool) (line : List Char) : Bool := contactSection && isData line

/-- The line with the index, when the loop takes it for a contact. -/
def peerLine (ls : List (List Char)) (n : ℕ) : Option (List Char) :=
  ls[n]?.filter fun line => taken (peersRun ls n % 2 = 1) line

/-- The lines that the loop takes for contacts. -/
def peerLines (ls : List (List Char)) : List (List Char) :=
  (List.range ls.length).filterMap (peerLine ls)

/-- Whether the parse of a line finds its separators. -/
def isRead (u : Uninit) (line : List Char) : Bool := (scanContact u line).isSome

/-! ## What the loop does with a line -/

/-- `contact_section` after a line. A second `[overnet_peers]` ends the section as any other
heading does. -/
def sectionAfter (contactSection : Bool) (line : List Char) : Bool :=
  if isHeading line then !contactSection && line = peersHeading else contactSection

/-- What the loop writes for each line, until a line ends it. -/
def lineParts (u : Uninit) : Bool → List (List Char) → List (List Contact)
  | _, [] => []
  | contactSection, line :: ls =>
    if taken contactSection line then
      match scanContact u line with
      | none => []
      | some k => [k] :: lineParts u (sectionAfter contactSection line) ls
    else [] :: lineParts u (sectionAfter contactSection line) ls

variable (u : Uninit)

theorem isHeading_of_comment {line : List Char} (h : line.head? = some '#') :
    isHeading line = false := by
  rw [isHeading, h]
  decide

theorem sectionAfter_of_isData {line : List Char} (h : isData line = true) (b : Bool) :
    sectionAfter b line = b := by
  rw [isData, Bool.and_eq_true, Bool.not_eq_true'] at h
  rw [sectionAfter, h.2]
  rfl

/-- **One line.** The loop goes on after a line that is no contact, and ends at a contact that
cannot be read. -/
theorem lineLoop_cons (b : Bool) (line : List Char) (ls : List (List Char)) :
    lineLoop u b (line :: ls) =
      if taken b line then
        match scanContact u line with
        | none => ([], 0)
        | some k =>
          (writeContact k ++ (lineLoop u (sectionAfter b line) ls).1,
            (lineLoop u (sectionAfter b line) ls).2 + 1)
      else lineLoop u (sectionAfter b line) ls := by
  rw [lineLoop, taken]
  by_cases hcomment : line.head? = some '#'
  · have hdata : isData line = false := by simp [isData, hcomment]
    have hafter : sectionAfter b line = b := by
      rw [sectionAfter, isHeading_of_comment hcomment]
      rfl
    rw [if_pos hcomment, hdata, hafter, Bool.and_false, if_neg Bool.false_ne_true]
  · rw [if_neg hcomment]
    cases hhead : isHeading line with
    | true =>
      have hdata : isData line = false := by simp [isData, hhead]
      have hbracket : line.head? = some '[' := of_decide_eq_true hhead
      rw [hdata, Bool.and_false, if_neg Bool.false_ne_true, sectionAfter, hhead, if_pos rfl]
      cases b with
      | true => simp [hbracket]
      | false =>
        by_cases hpeers : line = peersHeading
        · rw [if_pos ⟨rfl, hpeers⟩]
          simp [hpeers]
        · rw [if_neg fun h => hpeers h.2]
          simp [hpeers]
    | false =>
      have hdata : isData line = true := by simp [isData, hhead, hcomment]
      have hbracket : line.head? ≠ some '[' := of_decide_eq_false hhead
      have hpeers : line ≠ "[overnet_peers]".toList := by
        rintro rfl
        exact absurd hhead (by decide)
      rw [sectionAfter_of_isData hdata, hdata, Bool.and_true]
      exact (if_neg fun h => hpeers h.2).trans (if_neg fun h => hbracket h.2)

@[simp] theorem lineParts_nil (b : Bool) : lineParts u b [] = [] := rfl

theorem lineParts_cons (b : Bool) (line : List Char) (ls : List (List Char)) :
    lineParts u b (line :: ls) =
      if taken b line then
        match scanContact u line with
        | none => []
        | some k => [k] :: lineParts u (sectionAfter b line) ls
      else [] :: lineParts u (sectionAfter b line) ls := by
  rfl

theorem lineLoop_eq_lineParts (b : Bool) (ls : List (List Char)) :
    lineLoop u b ls = ((lineParts u b ls).flatten.flatMap writeContact,
      (lineParts u b ls).flatten.length) := by
  induction ls generalizing b with
  | nil => rfl
  | cons line ls ih =>
    rw [lineLoop_cons, lineParts_cons, ih]
    split
    · cases scanContact u line with
      | none => rfl
      | some k => simp
    · simp

/-- **What is written for a line.** It is read, and so is every line before it that the loop takes
for a contact. -/
theorem getElem?_lineParts {b : Bool} {ls : List (List Char)} {n : ℕ} {k : Contact} :
    (lineParts u b ls)[n]? = some [k] ↔ ∃ line, ls[n]? = some line ∧
      taken ((ls.take n).foldl sectionAfter b) line = true ∧ scanContact u line = some k ∧
        ∀ m < n, ∀ above, ls[m]? = some above →
          taken ((ls.take m).foldl sectionAfter b) above = true → isRead u above = true := by
  induction ls generalizing b n with
  | nil => simp
  | cons line ls ih =>
    rw [lineParts_cons]
    cases htaken : taken b line with
    | false =>
      rw [if_neg Bool.false_ne_true]
      cases n with
      | zero => simp [htaken]
      | succ n =>
        rw [List.getElem?_cons_succ, ih]
        simp only [Nat.forall_lt_succ_left]
        simp [htaken]
    | true =>
      rw [if_pos rfl]
      cases hscan : scanContact u line with
      | none =>
        cases n with
        | zero => simp [hscan]
        | succ n =>
          simp only [Nat.forall_lt_succ_left]
          simp [htaken, isRead, hscan]
      | some k' =>
        cases n with
        | zero => simp [htaken, hscan]
        | succ n =>
          rw [List.getElem?_cons_succ, ih]
          simp only [Nat.forall_lt_succ_left]
          simp [htaken, isRead, hscan]

/-! ## The section of a line -/

theorem headingsAbove_concat (ls : List (List Char)) (line : List Char) :
    headingsAbove (ls ++ [line]) (ls.length + 1) =
      if isHeading line then line :: headingsAbove ls ls.length else headingsAbove ls ls.length := by
  rw [headingsAbove, headingsAbove, List.take_of_length_le (by simp), List.take_length,
    List.filter_append, List.reverse_append]
  cases h : isHeading line <;> simp [h]

theorem peersRun_concat (ls : List (List Char)) (line : List Char) :
    peersRun (ls ++ [line]) (ls.length + 1) =
      if isHeading line then if line = peersHeading then peersRun ls ls.length + 1 else 0
      else peersRun ls ls.length := by
  rw [peersRun, headingsAbove_concat]
  cases hhead : isHeading line with
  | false => rfl
  | true =>
    rw [if_pos rfl, if_pos rfl, List.takeWhile_cons]
    by_cases hpeers : line = peersHeading
    · rw [if_pos hpeers, if_pos (by simpa using hpeers), List.length_cons, ← peersRun]
    · rw [if_neg hpeers, if_neg (by simpa using hpeers), List.length_nil]

/-- The flag is set after an odd number of `[overnet_peers]` headings in a row. -/
theorem foldl_sectionAfter (ls : List (List Char)) :
    ls.foldl sectionAfter false = decide (peersRun ls ls.length % 2 = 1) := by
  induction ls using List.reverseRecOn with
  | nil => rfl
  | append_singleton ls line ih =>
    rw [List.foldl_append, List.foldl_cons, List.foldl_nil, ih, sectionAfter, List.length_append,
      List.length_singleton, peersRun_concat]
    split
    · split
      · rename_i hpeers
        simp only [hpeers, decide_true, Bool.and_true, ← decide_not, decide_eq_decide]
        omega
      · rename_i hpeers
        simp [hpeers]
    · rfl

theorem foldl_take_sectionAfter {ls : List (List Char)} {n : ℕ} (hn : n ≤ ls.length) :
    (ls.take n).foldl sectionAfter false = decide (peersRun ls n % 2 = 1) := by
  rw [foldl_sectionAfter, peersRun, peersRun, headingsAbove, headingsAbove,
    List.length_take_of_le hn, List.take_take, min_self]

theorem peerLine_eq_some {ls : List (List Char)} {n : ℕ} {line : List Char} :
    peerLine ls n = some line ↔ ls[n]? = some line ∧
      taken ((ls.take n).foldl sectionAfter false) line = true := by
  rw [peerLine, Option.filter_eq_some_iff]
  apply and_congr_right
  intro hget
  rw [foldl_take_sectionAfter (List.getElem?_eq_some_iff.1 hget).1.le]

/-! ## The number of contacts -/

/-- The lines that the loop takes for contacts, from the front. -/
def takenLines : Bool → List (List Char) → List (List Char)
  | _, [] => []
  | b, line :: ls =>
    if taken b line then line :: takenLines (sectionAfter b line) ls
    else takenLines (sectionAfter b line) ls

theorem flatten_lineParts_length (b : Bool) (ls : List (List Char)) :
    (lineParts u b ls).flatten.length = ((takenLines b ls).takeWhile (isRead u)).length := by
  induction ls generalizing b with
  | nil => rfl
  | cons line ls ih =>
    rw [lineParts_cons, takenLines]
    split
    · cases hscan : scanContact u line with
      | none => simp [isRead, hscan]
      | some k => simp [isRead, hscan, ih, Nat.add_comm]
    · simpa using ih (sectionAfter b line)

theorem takenLines_concat (b : Bool) (ls : List (List Char)) (line : List Char) :
    takenLines b (ls ++ [line]) =
      takenLines b ls ++ if taken (ls.foldl sectionAfter b) line then [line] else [] := by
  induction ls generalizing b with
  | nil => rfl
  | cons above ls ih =>
    rw [List.cons_append, takenLines, takenLines, ih, List.foldl_cons]
    split <;> rfl

theorem peerLine_concat {ls : List (List Char)} {n : ℕ} (hn : n < ls.length) (line : List Char) :
    peerLine (ls ++ [line]) n = peerLine ls n := by
  rw [peerLine, peerLine, peersRun, peersRun, headingsAbove, headingsAbove,
    List.getElem?_append_left hn, List.take_append_of_le_length hn.le]

theorem peerLine_last (ls : List (List Char)) (line : List Char) :
    peerLine (ls ++ [line]) ls.length =
      if taken (ls.foldl sectionAfter false) line then some line else none := by
  ext found
  rw [peerLine_eq_some, List.getElem?_concat_length, List.take_left', Option.some_inj]
  · split
    · rename_i htaken
      rw [Option.some_inj, and_iff_left_of_imp]
      rintro rfl
      exact htaken
    · rename_i htaken
      simp only [reduceCtorEq, iff_false]
      rintro ⟨rfl, h⟩
      exact htaken h
  · rfl

theorem peerLines_eq_takenLines (ls : List (List Char)) : peerLines ls = takenLines false ls := by
  induction ls using List.reverseRecOn with
  | nil => rfl
  | append_singleton ls line ih =>
    have hsame : (List.range ls.length).filterMap (peerLine (ls ++ [line])) = peerLines ls :=
      List.filterMap_congr fun n hn => peerLine_concat (List.mem_range.1 hn) line
    rw [takenLines_concat, ← ih, peerLines, List.length_append, List.length_singleton,
      List.range_succ, List.filterMap_append, hsame, List.filterMap_cons, peerLine_last]
    cases taken (ls.foldl sectionAfter false) line <;> rfl

/-! ## The whole text -/

/-- What the conversion is for: the number in front is what it returns and how many contacts follow,
and every well-formed line of the section gives its contact, in the order of the lines. -/
structure Faithful (u : Uninit) (text : List Char) : Prop where
  count : intOfBytes ((kadcIniToOvernetContacts u text).1.take 4) =
    (kadcIniToOvernetContacts u text).2
  length : (((kadcIniToOvernetContacts u text).1.drop 4).length : Int) =
    23 * (kadcIniToOvernetContacts u text).2
  parts : (kadcIniToOvernetContacts u text).1.drop 4 =
    (lineParts u false (Istream.lines text)).flatten.flatMap writeContact
  line : ∀ n (l : ContactLine), (text.splitOn '\n')[n]? = some l.text →
    InPeers (text.splitOn '\n') n →
      (lineParts u false (Istream.lines text))[n]? = some [l.contact]

/-- A well-formed line of the section has a newline, an odd number of `[overnet_peers]` headings
stand above it in a row, and all lines above it that are taken for contacts are read. -/
def Reached (u : Uninit) (ls : List (List Char)) (n : ℕ) : Prop :=
  n + 1 < ls.length ∧ peersRun ls n % 2 = 1 ∧
    ∀ m < n, ∀ above, peerLine ls m = some above → isRead u above = true

theorem isData_text (l : ContactLine) : isData l.text = true := by
  have hcomment := l.head?_text_ne (c := '#') (by decide)
  have hheading := l.head?_text_ne (c := '[') (by decide)
  simp [isData, isHeading, hcomment, hheading]

theorem length_flatMap_writeContact (ks : List Contact) :
    (ks.flatMap writeContact).length = 23 * ks.length := by
  induction ks with
  | nil => rfl
  | cons k ks ih =>
    rw [List.flatMap_cons, List.length_append, length_writeContact, ih, List.length_cons]
    omega

theorem getElem?_lineParts_text {ls : List (List Char)} {n : ℕ} {l : ContactLine}
    (hget : ls[n]? = some l.text) :
    (lineParts u false ls)[n]? = some [l.contact] ↔ peersRun ls n % 2 = 1 ∧
      ∀ m < n, ∀ above, peerLine ls m = some above → isRead u above = true := by
  have hn : n ≤ ls.length := (List.getElem?_eq_some_iff.1 hget).1.le
  have htaken : taken ((ls.take n).foldl sectionAfter false) l.text = true ↔
      peersRun ls n % 2 = 1 := by
    rw [foldl_take_sectionAfter hn, taken, isData_text, Bool.and_true, decide_eq_true_iff]
  rw [getElem?_lineParts]
  constructor
  · rintro ⟨line, hline, hsec, -, habove⟩
    rw [hget] at hline
    obtain rfl := Option.some_inj.1 hline
    refine ⟨htaken.1 hsec, fun m hm above h => ?_⟩
    obtain ⟨hm', hsec'⟩ := peerLine_eq_some.1 h
    exact habove m hm above hm' hsec'
  · rintro ⟨hrun, habove⟩
    refine ⟨l.text, hget, htaken.2 hrun, l.scanContact_text u, fun m hm above hm' hsec => ?_⟩
    exact habove m hm above (peerLine_eq_some.2 ⟨hm', hsec⟩)

theorem getElem?_lineParts_dropLast {ls : List (List Char)} {n : ℕ} {l : ContactLine}
    (hget : ls[n]? = some l.text) :
    (lineParts u false ls.dropLast)[n]? = some [l.contact] ↔ Reached u ls n := by
  obtain rfl | ⟨ls, last, rfl⟩ := List.eq_nil_or_concat' ls
  · cases hget
  rw [List.dropLast_concat, Reached, List.length_append, List.length_singleton]
  rcases Nat.lt_or_ge n ls.length with hn | hn
  · have hrun : peersRun (ls ++ [last]) n = peersRun ls n := by
      rw [peersRun, peersRun, headingsAbove, headingsAbove, List.take_append_of_le_length hn.le]
    rw [List.getElem?_append_left hn] at hget
    rw [getElem?_lineParts_text u hget, hrun, and_iff_right (show n + 1 < ls.length + 1 by omega)]
    apply and_congr_right
    intro _
    apply forall₂_congr
    intro m hm
    rw [peerLine_concat (hm.trans hn)]
  · constructor
    · intro h
      obtain ⟨line, hline, -⟩ := (getElem?_lineParts u).1 h
      exact absurd (List.getElem?_eq_some_iff.1 hline).1 (by omega)
    · rintro ⟨h, -⟩
      omega

theorem kadcIniToOvernetContacts_drop (text : List Char) :
    (kadcIniToOvernetContacts u text).1.drop 4 =
      (lineParts u false (Istream.lines text)).flatten.flatMap writeContact := by
  rw [kadcIniToOvernetContacts, lineLoop_eq_lineParts]
  rfl

theorem kadcIniToOvernetContacts_count (text : List Char) :
    intOfBytes ((kadcIniToOvernetContacts u text).1.take 4) =
      (kadcIniToOvernetContacts u text).2 := by
  have htake : (kadcIniToOvernetContacts u text).1.take 4 = leBytes 4
      (Int32.ofNat (lineLoop u false (Istream.lines text)).2).toUInt32.toNat := rfl
  rw [htake, intOfBytes, uint32_ofLeBytes]
  rfl

/-- The number is right while it fits its `int`. -/
theorem length_iff (text : List Char) :
    (((kadcIniToOvernetContacts u text).1.drop 4).length : Int) =
        23 * (kadcIniToOvernetContacts u text).2 ↔
      ((peerLines (text.splitOn '\n').dropLast).takeWhile (isRead u)).length < 2 ^ 31 := by
  have hnum : (kadcIniToOvernetContacts u text).2 = (Int32.ofNat ((peerLines
      (text.splitOn '\n').dropLast).takeWhile (isRead u)).length).toInt := by
    rw [kadcIniToOvernetContacts, lineLoop_eq_lineParts, flatten_lineParts_length,
      Istream.lines_eq_dropLast, peerLines_eq_takenLines]
  rw [kadcIniToOvernetContacts_drop, length_flatMap_writeContact, flatten_lineParts_length,
    Istream.lines_eq_dropLast, ← peerLines_eq_takenLines, hnum]
  constructor
  · intro h
    have hlt := (Int32.ofNat ((peerLines (text.splitOn '\n').dropLast).takeWhile
      (isRead u)).length).toInt_lt
    omega
  · intro h
    rw [Int32.toInt_ofNat_of_lt h, Nat.cast_mul]
    rfl

/-- **Which texts are converted as they should be.** -/
theorem faithful_iff (text : List Char) :
    Faithful u text ↔
      ((peerLines (text.splitOn '\n').dropLast).takeWhile (isRead u)).length < 2 ^ 31 ∧
        ∀ n (l : ContactLine), (text.splitOn '\n')[n]? = some l.text →
          InPeers (text.splitOn '\n') n → Reached u (text.splitOn '\n') n := by
  have hline : ∀ n (l : ContactLine), (text.splitOn '\n')[n]? = some l.text →
      ((lineParts u false (Istream.lines text))[n]? = some [l.contact] ↔
        Reached u (text.splitOn '\n') n) := by
    intro n l hget
    rw [Istream.lines_eq_dropLast]
    exact getElem?_lineParts_dropLast u hget
  constructor
  · intro h
    refine ⟨(length_iff u text).1 h.length, fun n l hget hin => ?_⟩
    exact (hline n l hget).1 (h.line n l hget hin)
  · rintro ⟨hcount, hall⟩
    exact ⟨kadcIniToOvernetContacts_count u text, (length_iff u text).2 hcount,
      kadcIniToOvernetContacts_drop u text,
      fun n l hget hin => (hline n l hget).2 (hall n l hget hin)⟩

/-- The only contact is lost when no newline ends its line, and when an empty line stands before
it. -/
theorem not_faithful_of_unterminated :
    let u : Uninit := ⟨'x', [], 0, 0, 0, 0⟩
    let line := "00000001000000020000000300000004 10.0.0.1 1 0".toList
    ¬ Faithful u (peersHeading ++ '\n' :: line) ∧
      ¬ Faithful u (peersHeading ++ '\n' :: '\n' :: (line ++ ['\n'])) := by
  have hline : (lineOf ⟨![1, 2, 3, 4], 0x0100000A, 1, 0⟩).text =
      "00000001000000020000000300000004 10.0.0.1 1 0".toList := by decide
  constructor
  · intro h
    have hpart := h.line 1 _ (by rw [hline]; decide) (by unfold InPeers; decide)
    cases hpart
  · intro h
    have hpart := h.line 2 _ (by rw [hline]; decide) (by unfold InPeers; decide)
    cases hpart

end Kadc

end RvHouse
