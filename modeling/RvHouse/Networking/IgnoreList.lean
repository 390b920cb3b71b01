import RvHouse.Gui.Ignore
import RvHouse.Lib.Numeral
import RvHouse.Parser.Validation
import Mathlib.Data.List.DropRight

/-!
# The global ignore list

The list of addresses that everybody is to ignore is fetched from the web.
`global_ignore::client::handle_response` goes through it line by line and posts the entries that it
finds.

What an entry is and which lines the list has is said by `EntryLine` and `bodyLines`, without the
loop and without the search for patterns.

* `meets_iff`: the entries are those of the lines exactly when there is none in the last line, since a
  line ends at its LF for the loop, and the last one has none;
* `isBlocked_fetched_iff`: in this case the addresses are blocked that the entries cover.
-/

namespace RvHouse

/-! ## The client -/

/-- `message_global_ignore::ip_entry` with all its members. -/
structure IgnoreEntry extends IpEntry where
  userid : String := ""
  reason : String := ""
deriving DecidableEq

namespace IgnoreList

/-- A letter of `[0-9.]`. -/
def addrLetter (c : Char) : Bool := Numeral.isDigit 10 c || c = '.'

/-- `([0-9.]+)/([0-9.]+)`. -/
def ipMaskPattern : List (Run Char) := [⟨addrLetter, 1, none⟩, .lit '/', ⟨addrLetter, 1, none⟩]

/-- Letters other than the semicolon. -/
def fieldRun (min : ℕ) : Run Char := ⟨(· ≠ ';'), min, none⟩

/-- `^ip;([^;]+);([^;]+);([^;]*)`. -/
def entryPattern : List (Run Char) :=
  [.lit 'i', .lit 'p', .lit ';', fieldRun 1, .lit ';', fieldRun 1, .lit ';', fieldRun 0]

/-- `ipmask` in `handle_response`. -/
def ipMask (addr : List Char) : List Char × List Char :=
  match Run.search ipMaskPattern addr with
  | some [ip, _, mask] => (ip, mask)
  | _ => (addr, [])

/-- The members of an entry that come from its first field. -/
def addrEntry (addr : List Char) : IpEntry :=
  let e : IpEntry := { ip := String.ofList (ipMask addr).1 }
  if (ipMask addr).2 = [] then e else { e with mask := String.ofList (ipMask addr).2 }

/-- The entry of a line, if there is one. -/
def parseLine (line : List Char) : Option IgnoreEntry :=
  match Run.matchAt entryPattern line with
  | some [_, _, _, addr, _, userid, _, reason] =>
    some { addrEntry addr with userid := String.ofList userid, reason := String.ofList reason }
  | _ => none

/-- The line before the end pointer, which is moved back over a CR. -/
def stripCr (line : List Char) : List Char :=
  if line.getLast? = some '\r' then line.dropLast else line

/-- The loop of `handle_response` from `str_s` on: the entries that it pushes. -/
def lineLoop (strS : List Char) : List IgnoreEntry :=
  if '\n' ∈ strS then
    let line := stripCr (strS.takeWhile (· ≠ '\n'))
    -- The end of the line may be a CR, and then the next line is the empty one before the LF.
    (parseLine line).toList ++ lineLoop (strS.drop (line.length + 1))
  else []
termination_by strS.length
decreasing_by
  have hpos : 0 < strS.length := List.length_pos_of_mem (by assumption)
  rw [List.length_drop]
  omega

/-- `handle_response`: the entries of the message that it posts. -/
def handleResponse (content : List UInt8) : Option (List IgnoreEntry) :=
  let m := lineLoop (latin1 content)
  if m.length > 0 then some m else none

/-! ## The list as it is meant -/

/-- The lines of a text, each ended by LF, by CRLF or by the end of the text. -/
def bodyLines (text : List Char) : List (List Char) :=
  (text.splitOn '\n').dropLast.map stripCr ++ [text.rtakeWhile (· ≠ '\n')]

/-- A slash with letters of an address on both sides. -/
def SlashBetween (x y : List Char) : Prop :=
  x.rtakeWhile addrLetter ≠ [] ∧ y.takeWhile addrLetter ≠ []

/-- The address and the mask in `ADDR[/MASK]`. -/
inductive AddrMask : List Char → List Char → List Char → Prop where
  /-- The mask is after the first slash that is between letters of an address. -/
  | masked {x y : List Char} (hslash : SlashBetween x y)
      (hfirst : ∀ x' y', x' ++ '/' :: y' = x ++ '/' :: y → x'.length < x.length →
        ¬ SlashBetween x' y') :
    AddrMask (x ++ '/' :: y) (x.rtakeWhile addrLetter) (y.takeWhile addrLetter)
  | plain {addr : List Char} (hnone : ∀ x y, x ++ '/' :: y = addr → ¬ SlashBetween x y) :
    AddrMask addr addr "255.255.255.255".toList

/-- A line `ip;ADDR[/MASK];USER;REASON` and its entry. -/
inductive EntryLine : List Char → IgnoreEntry → Prop where
  | mk {addr user reason ip mask : List Char} (haddr : addr ≠ [] ∧ ';' ∉ addr)
      (huser : user ≠ [] ∧ ';' ∉ user) (hmask : AddrMask addr ip mask) :
    EntryLine ("ip;".toList ++ (addr ++ ';' :: (user ++ ';' :: reason)))
      { ip := String.ofList ip, mask := String.ofList mask, userid := String.ofList user,
        reason := String.ofList (reason.takeWhile (· ≠ ';')) }

/-- The entries of the lines, in order. -/
inductive Entries : List (List Char) → List IgnoreEntry → Prop where
  | nil : Entries [] []
  | push {l : List Char} {e : IgnoreEntry} {ls : List (List Char)} {es : List IgnoreEntry}
      (hl : EntryLine l e) (h : Entries ls es) : Entries (l :: ls) (e :: es)
  | skip {l : List Char} {ls : List (List Char)} {es : List IgnoreEntry}
      (hl : ∀ e, ¬ EntryLine l e) (h : Entries ls es) : Entries (l :: ls) es

/-- The message has the entries of all lines, and there is none when there are no entries. -/
def Meets (text : List Char) (posted : Option (List IgnoreEntry)) : Prop :=
  ∃ es, Entries (bodyLines text) es ∧ posted = if es = [] then none else some es

/-! ## The address and the mask -/

theorem isSuffix_rtakeWhile_iff {α : Type*} {p : α → Bool} {w l : List α} :
    w <:+ l.rtakeWhile p ↔ w <:+ l ∧ ∀ c ∈ w, p c = true := by
  rw [List.rtakeWhile, ← List.reverse_prefix, List.reverse_reverse, Run.prefix_takeWhile_iff,
    List.reverse_prefix]
  simp only [List.mem_reverse]

/-- Letters of an address on both sides of a slash. -/
theorem slashBetween_of_append {s p q t : List Char} (hp : p ≠ [])
    (hpok : ∀ c ∈ p, addrLetter c = true) (hq : q ≠ []) (hqok : ∀ c ∈ q, addrLetter c = true) :
    SlashBetween (s ++ p) (q ++ t) := by
  constructor
  · intro hnil
    have hsuf := isSuffix_rtakeWhile_iff.2 ⟨List.suffix_append s p, hpok⟩
    exact hp (List.suffix_nil.1 (hnil ▸ hsuf))
  · intro hnil
    have hpre := Run.prefix_takeWhile_iff.2 ⟨List.prefix_append q t, hqok⟩
    exact hq (List.prefix_nil.1 (hnil ▸ hpre))

/-- The pieces of an address with a mask. -/
theorem fits_ipMask {ps : List (List Char)} (h : Run.Fits ipMaskPattern ps) :
    ∃ p q, ps = [p, ['/'], q] ∧ (p ≠ [] ∧ ∀ c ∈ p, addrLetter c = true) ∧
      q ≠ [] ∧ ∀ c ∈ q, addrLetter c = true := by
  obtain ⟨p, ps₁, hp, h₁, rfl⟩ := List.forall₂_cons_left_iff.1 h
  obtain ⟨slash, ps₂, hslash, h₂, rfl⟩ := List.forall₂_cons_left_iff.1 h₁
  obtain ⟨q, ps₃, hq, h₃, rfl⟩ := List.forall₂_cons_left_iff.1 h₂
  obtain rfl := List.forall₂_nil_left_iff.1 h₃
  rw [Run.of_lit_iff.1 hslash]
  exact ⟨p, q, rfl, ⟨List.length_pos_iff.1 hp.min, hp.ok⟩, List.length_pos_iff.1 hq.min, hq.ok⟩

theorem search_of_plain {addr : List Char} (hnone : ∀ x y, x ++ '/' :: y = addr → ¬ SlashBetween x y) :
    Run.search ipMaskPattern addr = none := by
  refine Run.search_eq_none_iff.2 fun ps hfits hin => ?_
  obtain ⟨p, q, rfl, ⟨hp, hpok⟩, hq, hqok⟩ := fits_ipMask hfits
  obtain ⟨s, t, rfl⟩ := hin
  refine hnone (s ++ p) (q ++ t) ?_ (slashBetween_of_append hp hpok hq hqok)
  simp

/-- An address with its mask, where it begins. -/
theorem matchAt_ipMask {x y : List Char} (hslash : SlashBetween x y) :
    Run.matchAt ipMaskPattern (x.rtakeWhile addrLetter ++ '/' :: y) =
      some [x.rtakeWhile addrLetter, ['/'], y.takeWhile addrLetter] := by
  refine Run.matchAt_append ⟨?_, List.length_pos_iff.2 hslash.1, by simp⟩ (.inr ?_)
    (Run.matchAt_lit (Run.matchAt_last rfl (List.length_pos_iff.2 hslash.2)))
  · exact fun c hc => List.mem_rtakeWhile_imp hc
  · rintro c ⟨⟩
    decide

/-- The address before a slash goes back as far as it can. -/
theorem not_forall_addrLetter {x l w : List Char} (hx : l ++ w = x)
    (hlen : (x.rtakeWhile addrLetter).length < w.length) : ¬ ∀ d ∈ w, addrLetter d = true := by
  intro hok
  have hsuf := isSuffix_rtakeWhile_iff.2 ⟨⟨l, hx⟩, hok⟩
  exact absurd hsuf.length_le (not_le.2 hlen)

/-- The address before the first slash is found, and no shorter text is. -/
theorem search_of_masked {x y : List Char} (hslash : SlashBetween x y)
    (hfirst : ∀ x' y', x' ++ '/' :: y' = x ++ '/' :: y → x'.length < x.length →
      ¬ SlashBetween x' y') :
    Run.search ipMaskPattern (x ++ '/' :: y) =
      some [x.rtakeWhile addrLetter, ['/'], y.takeWhile addrLetter] := by
  have hx := List.rdropWhile_append_rtakeWhile (p := addrLetter) (l := x)
  conv_lhs => rw [← hx, List.append_assoc]
  refine Run.search_append_of_none (matchAt_ipMask hslash) fun l c l' hl => ?_
  refine Run.matchAt_eq_none_iff.2 fun ps hfits ⟨t, ht⟩ => ?_
  obtain ⟨p, q, rfl, ⟨hp, hpok⟩, hq, hqok⟩ := fits_ipMask hfits
  -- What is left of `x` where the match begins is not all address.
  have hxw : l ++ c :: (l' ++ x.rtakeWhile addrLetter) = x := by
    conv_rhs => rw [← hx, hl]
    simp
  have hnot := not_forall_addrLetter hxw (by simp only [List.length_cons, List.length_append]; omega)
  have htext : p ++ '/' :: (q ++ t) = c :: (l' ++ x.rtakeWhile addrLetter) ++ '/' :: y := by
    simpa using ht
  generalize c :: (l' ++ x.rtakeWhile addrLetter) = w at hxw hnot htext
  rcases lt_or_ge p.length w.length with hlt | hge
  · refine hfirst (l ++ p) (q ++ t) ?_ ?_ (slashBetween_of_append hp hpok hq hqok)
    · rw [List.append_assoc, htext, ← hxw, List.append_assoc]
    · rw [← hxw, List.length_append, List.length_append]
      omega
  · have hpre : w <+: p := List.prefix_of_prefix_length_le ⟨_, rfl⟩ ⟨_, htext⟩ hge
    exact hnot fun d hd => hpok d (hpre.subset hd)

/-- Every text has an address and a mask. -/
theorem exists_addrMask (addr : List Char) : ∃ ip mask, AddrMask addr ip mask := by
  by_cases hslash : ∃ n x y, x.length = n ∧ x ++ '/' :: y = addr ∧ SlashBetween x y
  · classical
    obtain ⟨x, y, hlen, rfl, hxy⟩ := Nat.find_spec hslash
    refine ⟨_, _, .masked hxy fun x' y' h hlt hxy' => ?_⟩
    exact Nat.find_min hslash (hlen ▸ hlt) ⟨x', y', rfl, h, hxy'⟩
  · exact ⟨_, _, .plain fun x y h hxy => hslash ⟨_, x, y, rfl, h, hxy⟩⟩

theorem addrEntry_eq {addr ip mask : List Char} (h : AddrMask addr ip mask) :
    addrEntry addr = { ip := String.ofList ip, mask := String.ofList mask } := by
  cases h with
  | masked hslash hfirst =>
    rw [addrEntry, ipMask, search_of_masked hslash hfirst]
    exact if_neg hslash.2
  | plain hnone =>
    rw [addrEntry, ipMask, search_of_plain hnone]
    rfl

/-! ## One line -/

theorem of_fieldRun_iff {n : ℕ} {l : List Char} :
    (fieldRun n).Of l ↔ ';' ∉ l ∧ n ≤ l.length := by
  have hok : (∀ c ∈ l, (fieldRun n).ok c = true) ↔ ';' ∉ l := by
    simp only [fieldRun, decide_eq_true_eq]
    exact ⟨fun h hmem => h _ hmem rfl, fun h c hc heq => h (heq ▸ hc)⟩
  constructor
  · exact fun h => ⟨hok.1 h.ok, h.min⟩
  · exact fun h => ⟨hok.2 h.1, h.2, fun m hm => by cases hm⟩

/-- The pieces of a line of the form. -/
theorem matchAt_entry {addr user reason : List Char} (haddr : addr ≠ [] ∧ ';' ∉ addr)
    (huser : user ≠ [] ∧ ';' ∉ user) :
    Run.matchAt entryPattern ("ip;".toList ++ (addr ++ ';' :: (user ++ ';' :: reason))) =
      some [['i'], ['p'], [';'], addr, [';'], user, [';'], reason.takeWhile (· ≠ ';')] := by
  have hend : ∀ l : List Char, ∀ c ∈ (';' :: l).head?, (fieldRun 1).ok c = false := by
    rintro l c ⟨⟩
    rfl
  have haddr' := of_fieldRun_iff.2 ⟨haddr.2, List.length_pos_iff.2 haddr.1⟩
  have huser' := of_fieldRun_iff.2 ⟨huser.2, List.length_pos_iff.2 huser.1⟩
  have hreason : Run.matchAt [fieldRun 0] reason = some [reason.takeWhile (· ≠ ';')] :=
    Run.matchAt_last rfl (Nat.zero_le _)
  have huser'' := Run.matchAt_append huser' (.inr (hend reason)) (Run.matchAt_lit hreason)
  have haddr'' := Run.matchAt_append haddr' (.inr (hend _)) (Run.matchAt_lit huser'')
  exact Run.matchAt_lit (Run.matchAt_lit (Run.matchAt_lit haddr''))

/-- A line that the pattern is found in is of the form. -/
theorem form_of_fits {line : List Char} {ps : List (List Char)} (h : Run.Fits entryPattern ps)
    (hpre : ps.flatten <+: line) :
    ∃ addr user reason, line = "ip;".toList ++ (addr ++ ';' :: (user ++ ';' :: reason)) ∧
      (addr ≠ [] ∧ ';' ∉ addr) ∧ user ≠ [] ∧ ';' ∉ user := by
  obtain ⟨i, ps₁, hi, h₁, rfl⟩ := List.forall₂_cons_left_iff.1 h
  obtain ⟨p, ps₂, hp, h₂, rfl⟩ := List.forall₂_cons_left_iff.1 h₁
  obtain ⟨s₁, ps₃, hs₁, h₃, rfl⟩ := List.forall₂_cons_left_iff.1 h₂
  obtain ⟨addr, ps₄, haddr, h₄, rfl⟩ := List.forall₂_cons_left_iff.1 h₃
  obtain ⟨s₂, ps₅, hs₂, h₅, rfl⟩ := List.forall₂_cons_left_iff.1 h₄
  obtain ⟨user, ps₆, huser, h₆, rfl⟩ := List.forall₂_cons_left_iff.1 h₅
  obtain ⟨s₃, ps₇, hs₃, h₇, rfl⟩ := List.forall₂_cons_left_iff.1 h₆
  obtain ⟨t, rfl⟩ := hpre
  obtain ⟨haddr, haddr₀⟩ := of_fieldRun_iff.1 haddr
  obtain ⟨huser, huser₀⟩ := of_fieldRun_iff.1 huser
  refine ⟨addr, user, ps₇.flatten ++ t, ?_, ⟨List.length_pos_iff.1 haddr₀, haddr⟩,
    List.length_pos_iff.1 huser₀, huser⟩
  rw [Run.of_lit_iff.1 hi, Run.of_lit_iff.1 hp, Run.of_lit_iff.1 hs₁, Run.of_lit_iff.1 hs₂,
    Run.of_lit_iff.1 hs₃]
  simp

theorem parseLine_of_entryLine {line : List Char} {e : IgnoreEntry} (h : EntryLine line e) :
    parseLine line = some e := by
  cases h with
  | mk haddr huser hmask =>
    rw [parseLine, matchAt_entry haddr huser]
    dsimp only
    rw [addrEntry_eq hmask]

/-- **One line.** The entry of a line is found, and no other is. -/
theorem parseLine_eq_some_iff {line : List Char} {e : IgnoreEntry} :
    parseLine line = some e ↔ EntryLine line e := by
  refine ⟨fun h => ?_, parseLine_of_entryLine⟩
  cases hm : Run.matchAt entryPattern line with
  | none =>
    rw [parseLine, hm] at h
    cases h
  | some ps =>
    obtain ⟨hfits, hpre⟩ := Run.matchAt_sound hm
    obtain ⟨addr, user, reason, rfl, haddr, huser⟩ := form_of_fits hfits hpre
    obtain ⟨ip, mask, hmask⟩ := exists_addrMask addr
    have hline := @EntryLine.mk addr user reason ip mask haddr huser hmask
    rw [parseLine_of_entryLine hline] at h
    cases h
    exact hline

theorem parseLine_eq_none_iff {line : List Char} :
    parseLine line = none ↔ ∀ e, ¬ EntryLine line e := by
  rw [Option.eq_none_iff_forall_ne_some]
  simp only [ne_eq, parseLine_eq_some_iff]

/-! ## The loop -/

theorem parseLine_nil : parseLine [] = none := rfl

/-- At the end of the text there are no more lines. -/
theorem lineLoop_of_not_mem {s : List Char} (h : '\n' ∉ s) : lineLoop s = [] := by
  rw [lineLoop, if_neg h]

/-- The line from `str_s` on, and where the next one begins. -/
theorem lineLoop_cons {l : List Char} (h : '\n' ∉ l) (rest : List Char) :
    lineLoop (l ++ '\n' :: rest) =
      (parseLine (stripCr l)).toList ++
        lineLoop ((l ++ '\n' :: rest).drop ((stripCr l).length + 1)) := by
  have htake : (l ++ '\n' :: rest).takeWhile (· ≠ '\n') = l := by
    have hl : ∀ c ∈ l, decide (c ≠ '\n') = true := fun c hc =>
      decide_eq_true fun heq => h (heq ▸ hc)
    rw [List.takeWhile_append_of_pos hl]
    simp
  rw [lineLoop, if_pos (by simp), htake]

/-- **One round.** A line gives its entry, and the CR before its LF makes no difference. -/
theorem lineLoop_line {l : List Char} (h : '\n' ∉ l) (rest : List Char) :
    lineLoop (l ++ '\n' :: rest) = (parseLine (stripCr l)).toList ++ lineLoop rest := by
  rw [lineLoop_cons h]
  congr 1
  by_cases hcr : l.getLast? = some '\r'
  · -- The loop goes on at the LF, with an empty line.
    have hlen : (stripCr l).length + 1 = l.length := by
      have hne : l ≠ [] := by
        rintro rfl
        cases hcr
      have hpos := List.length_pos_iff.2 hne
      rw [stripCr, if_pos hcr, List.length_dropLast]
      omega
    rw [hlen, List.drop_left]
    have hempty := lineLoop_cons (l := []) (by simp) rest
    rw [List.nil_append] at hempty
    rw [hempty]
    rfl
  · rw [stripCr, if_neg hcr, List.drop_append, List.drop_eq_nil_of_le (Nat.le_succ _),
      Nat.add_sub_cancel_left]
    rfl

/-- The loop gives the entries of the lines that end with LF. -/
theorem lineLoop_eq (s : List Char) :
    lineLoop s = ((s.splitOn '\n').dropLast.map stripCr).filterMap parseLine := by
  induction hn : s.length using Nat.strong_induction_on generalizing s with
  | _ n ih =>
    by_cases hmem : '\n' ∈ s
    · obtain ⟨l, rest, rfl, hl⟩ := List.eq_append_cons_of_mem hmem
      have hlt : rest.length < n := by
        rw [← hn, List.length_append, List.length_cons]
        omega
      rw [lineLoop_line hl, ih _ hlt rest rfl, List.splitOn_append_cons_self_of_not_mem hl,
        List.dropLast_cons_of_ne_nil (List.splitOn_ne_nil _ _), List.map_cons,
        List.filterMap_cons]
      cases parseLine (stripCr l) <;> rfl
    · rw [lineLoop_of_not_mem hmem, List.splitOn_eq_singleton hmem]
      rfl

/-! ## All lines -/

/-- There is one list of entries for the lines. -/
theorem entries_iff {ls : List (List Char)} {es : List IgnoreEntry} :
    Entries ls es ↔ es = ls.filterMap parseLine := by
  constructor
  · intro h
    induction h with
    | nil => rfl
    | push hl h ih => rw [List.filterMap_cons_some (parseLine_eq_some_iff.2 hl), ih]
    | skip hl h ih => rw [List.filterMap_cons_none (parseLine_eq_none_iff.2 hl), ih]
  · rintro rfl
    induction ls with
    | nil => exact .nil
    | cons l ls ih =>
      cases hl : parseLine l with
      | none =>
        rw [List.filterMap_cons_none hl]
        exact .skip (parseLine_eq_none_iff.1 hl) ih
      | some e =>
        rw [List.filterMap_cons_some hl]
        exact .push (parseLine_eq_some_iff.1 hl) ih

theorem handleResponse_eq (content : List UInt8) :
    handleResponse content =
      if lineLoop (latin1 content) = [] then none else some (lineLoop (latin1 content)) := by
  rw [handleResponse]
  cases lineLoop (latin1 content) <;> rfl

/-- The last line is the only one that the loop leaves out. -/
theorem filterMap_bodyLines (text : List Char) :
    (bodyLines text).filterMap parseLine =
      lineLoop text ++ (parseLine (text.rtakeWhile (· ≠ '\n'))).toList := by
  rw [bodyLines, List.filterMap_append, ← lineLoop_eq, List.filterMap_cons]
  cases parseLine (text.rtakeWhile (· ≠ '\n')) <;> rfl

/-- **The global ignore list.** A body without a NUL is handled as it is meant exactly when the last
line, which no LF ends, is not of the form. -/
theorem meets_iff {body : List UInt8} (h0 : 0 ∉ body) :
    Meets (body.map fun b => Char.ofNat b.toNat) (handleResponse body) ↔
      ∀ e, ¬ EntryLine ((body.map fun b => Char.ofNat b.toNat).rtakeWhile (· ≠ '\n')) e := by
  rw [handleResponse_eq, latin1_of_not_mem h0]
  generalize (body.map fun b => Char.ofNat b.toNat) = text
  rw [← parseLine_eq_none_iff, Meets]
  constructor
  · rintro ⟨es, hes, hposted⟩
    obtain rfl := entries_iff.1 hes
    rw [filterMap_bodyLines] at hposted
    cases hparse : parseLine (text.rtakeWhile (· ≠ '\n')) with
    | none => rfl
    | some e =>
      rw [hparse] at hposted
      exfalso
      revert hposted
      by_cases hnil : lineLoop text = [] <;> simp [hnil]
  · intro hnone
    refine ⟨_, entries_iff.2 rfl, ?_⟩
    rw [filterMap_bodyLines, hnone, Option.toList_none, List.append_nil]

/-- A list of one line, ended by CRLF. -/
theorem meets_iff_crlf :
    let body := "ip;80.1.0.0/255.255.0.0;troll;flooding\r\n".toList.map fun c => UInt8.ofNat c.toNat
    Meets (body.map fun b => Char.ofNat b.toNat) (handleResponse body) := by
  intro body
  refine (@meets_iff body (by decide)).2 fun e he => ?_
  have hlast : (body.map fun b => Char.ofNat b.toNat).rtakeWhile (· ≠ '\n') = [] := by decide
  rw [hlast, ← parseLine_eq_some_iff, parseLine_nil] at he
  cases he

/-- The same line, ended by the end of the body: nothing is posted. -/
theorem not_meets_unended :
    let body := "ip;80.1.0.0/255.255.0.0;troll;flooding".toList.map fun c => UInt8.ofNat c.toNat
    handleResponse body = none ∧
      ¬ Meets (body.map fun b => Char.ofNat b.toNat) (handleResponse body) := by
  intro body
  have hnone : handleResponse body = none := by
    rw [handleResponse_eq, lineLoop_of_not_mem (by decide)]
    rfl
  have hlines : bodyLines (body.map fun b => Char.ofNat b.toNat) =
      ["ip;".toList ++ ("80.1.0.0/255.255.0.0".toList ++
        ';' :: ("troll".toList ++ ';' :: "flooding".toList))] := by decide
  obtain ⟨ip, mask, hmask⟩ := exists_addrMask "80.1.0.0/255.255.0.0".toList
  have hline := @EntryLine.mk _ "troll".toList "flooding".toList ip mask (by decide) (by decide) hmask
  refine ⟨hnone, fun ⟨es, hes, hposted⟩ => ?_⟩
  rw [hlines] at hes
  cases hes with
  | push hl h =>
    rw [hnone] at hposted
    cases hposted
  | skip hl h => exact hl _ hline

/-! ## What is blocked -/

/-- What the message that is posted makes the GUI thread do. -/
def events (posted : Option (List IgnoreEntry)) : List IgnoreEnv.BlockEvent :=
  posted.toList.map fun es => .globalIgnore (es.map IgnoreEntry.toIpEntry)

/-- The entries that are passed on are accepted. -/
theorem accepted_of_globalIgnoreEntry (env : IgnoreEnv) {e : IpEntry} {c : IpAndMask}
    (h : env.globalIgnoreEntry e = some c) : IpBlock.Accepted c := by
  obtain ⟨a, -, h⟩ := Option.bind_eq_some_iff.1 h
  obtain ⟨m, -, h⟩ := Option.bind_eq_some_iff.1 h
  dsimp only at h
  split at h
  · cases h
  · cases h
    exact (IgnoreEnv.accepted_iff _).2 ‹_›

/-- The calls of `add` that the message comes to. -/
theorem calls_events (env : IgnoreEnv) (content : List UInt8) :
    (events (handleResponse content)).flatMap env.calls =
      (lineLoop (latin1 content)).filterMap fun e => env.globalIgnoreEntry e.toIpEntry := by
  rw [handleResponse_eq]
  split
  · rename_i hnil
    rw [hnil]
    rfl
  · simp [events, IgnoreEnv.calls, List.filterMap_map]

/-- **The list is what is blocked.** After a list whose last line is not of the form, those addresses
are blocked that the entry of some line covers. -/
theorem isBlocked_fetched_iff (env : IgnoreEnv) {body : List UInt8} (h0 : 0 ∉ body)
    (hlast : ∀ e, ¬ EntryLine ((body.map fun b => Char.ofNat b.toNat).rtakeWhile (· ≠ '\n')) e)
    (x : UInt32) :
    (env.machine.exec {} (events (handleResponse body))).isBlockedEarly x = true ↔
      ∃ l ∈ bodyLines (body.map fun b => Char.ofNat b.toNat), ∃ e, EntryLine l e ∧
        ∃ c, env.globalIgnoreEntry e.toIpEntry = some c ∧ IpBlock.Covers c x := by
  have hlines : lineLoop (latin1 body) =
      (bodyLines (body.map fun b => Char.ofNat b.toNat)).filterMap parseLine := by
    rw [filterMap_bodyLines, parseLine_eq_none_iff.2 hlast, Option.toList_none, List.append_nil,
      latin1_of_not_mem h0]
  rw [IgnoreEnv.exec_eq, calls_events, IpBlock.isBlockedEarly_eq, IpBlock.isBlocked_addAll, hlines]
  constructor
  · rintro ⟨c, hc, -, hcov⟩
    obtain ⟨e, he, hce⟩ := List.mem_filterMap.1 hc
    obtain ⟨l, hl, hle⟩ := List.mem_filterMap.1 he
    exact ⟨l, hl, e, parseLine_eq_some_iff.1 hle, c, hce, hcov⟩
  · rintro ⟨l, hl, e, hle, c, hce, hcov⟩
    refine ⟨c, List.mem_filterMap.2 ⟨e, ?_, hce⟩, accepted_of_globalIgnoreEntry env hce, hcov⟩
    exact List.mem_filterMap.2 ⟨l, hl, parseLine_eq_some_iff.2 hle⟩

/-- A list of one line. -/
def oneLine : List UInt8 :=
  "ip;80.1.0.0/255.255.0.0;troll;flooding\r\n".toList.map fun c => UInt8.ofNat c.toNat

/-- Both addresses of the line, on a machine whose own order is that of the network. -/
def oneLineEnv : IgnoreEnv where
  inetAton s := if s = "80.1.0.0" then some 0x50010000
    else if s = "255.255.0.0" then some 0xFFFF0000 else none
  ntohl a := a
  userConf _ := ""
  me := {}
  sequence := 1

/-- An address of the network on the line. -/
theorem isBlocked_fetched_iff_oneLine :
    (oneLineEnv.machine.exec {} (events (handleResponse oneLine))).isBlockedEarly 0x50010203 = true ↔
      ∃ l ∈ bodyLines (oneLine.map fun b => Char.ofNat b.toNat), ∃ e, EntryLine l e ∧
        ∃ c, oneLineEnv.globalIgnoreEntry e.toIpEntry = some c ∧ IpBlock.Covers c 0x50010203 := by
  refine isBlocked_fetched_iff oneLineEnv (by decide) (fun e he => ?_) 0x50010203
  have hlast : (oneLine.map fun b => Char.ofNat b.toNat).rtakeWhile (· ≠ '\n') = [] := by decide
  rw [hlast, ← parseLine_eq_some_iff, parseLine_nil] at he
  cases he

end IgnoreList

end RvHouse
