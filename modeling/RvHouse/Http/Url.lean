import RvHouse.Lib.Numeral
import RvHouse.Lib.Runs

/-!
# Addresses of fetches

`networking::http::url::parse` looks for `http:(\d*)//([^/]+)(.*)` anywhere in a text. The port
stands before the slashes; what follows the first slash behind them, up to the next one or the end,
is the host, and the rest is the file.

`parse_eq_ok_iff` says what is read, and of which texts: the first place from which on the text is an
address. `captures_append` says where text belongs that is put behind an address: to its file,
when the address has one, and else to the host.
-/

namespace RvHouse

/-- What is left of a text as a C string. -/
def cString (s : List Char) : List Char := s.takeWhile (· ≠ Char.ofNat 0)

/-- `http::url`: its three parts. -/
structure Url where
  port : List Char
  host : List Char
  file : List Char
deriving DecidableEq

namespace Url

/-- `http:(\d*)//([^/]+)(.*)`. -/
def pattern : List (Run Char) :=
  [.lit 'h', .lit 't', .lit 't', .lit 'p', .lit ':', ⟨Numeral.isDigit 10, 0, none⟩, .lit '/',
    .lit '/', ⟨(· ≠ '/'), 1, none⟩, ⟨fun _ => true, 0, none⟩]

/-- What `regexp::match` captures. -/
def captures (s : List Char) : Option Url :=
  match Run.search pattern (cString s) with
  | some [_, _, _, _, _, port, _, _, host, file] => some { port, host, file }
  | _ => none

/-- The port and the file that stand for missing ones. -/
def filled (u : Url) : Url :=
  { port := if u.port = [] then "80".toList else u.port
    host := u.host
    file := if u.file = [] then "/".toList else u.file }

/-- `url::parse`; the error is the text of what it throws, as far as `exceptionf` has room. -/
def parse (s : List Char) : Except String Url :=
  match captures s with
  | some u => .ok u.filled
  | none => .error (String.ofList (("Could not parse URL: ".toList ++ cString s).take 255))

/-! ## Addresses -/

/-- The text of an address. -/
def text (u : Url) : List Char :=
  'h' :: 't' :: 't' :: 'p' :: ':' :: (u.port ++ '/' :: '/' :: (u.host ++ u.file))

/-- The parts of an address: a port of digits, a host without a slash, and a file that begins with
one, or nothing. -/
structure Valid (u : Url) : Prop where
  port : ∀ c ∈ u.port, Numeral.isDigit 10 c = true
  host : u.host ≠ []
  noSlash : '/' ∉ u.host
  file : ∀ c ∈ u.file.head?, c = '/'

variable {u u' : Url} {s : List Char}

/-- The pattern at an address. -/
theorem matchAt_text (h : u.Valid) : Run.matchAt pattern u.text =
    some [['h'], ['t'], ['t'], ['p'], [':'], u.port, ['/'], ['/'], u.host, u.file] := by
  have hfile : Run.matchAt [⟨fun _ => true, 0, none⟩] u.file = some [u.file] := by
    have hlast := Run.matchAt_last (r := (⟨fun _ : Char => true, 0, none⟩ : Run Char)) rfl
      (l := u.file) (Nat.zero_le _)
    rwa [List.takeWhile_eq_self_iff.2 fun _ _ => rfl] at hlast
  have hhost : Run.Of (⟨(· ≠ '/'), 1, none⟩ : Run Char) u.host := by
    refine ⟨fun c hc => ?_, List.length_pos_iff.2 h.host, by simp⟩
    exact decide_eq_true fun heq => h.noSlash (heq ▸ hc)
  have hport : Run.Of (⟨Numeral.isDigit 10, 0, none⟩ : Run Char) u.port :=
    ⟨h.port, Nat.zero_le _, by simp⟩
  refine Run.matchAt_lit (Run.matchAt_lit (Run.matchAt_lit (Run.matchAt_lit (Run.matchAt_lit
    (Run.matchAt_append hport (.inr ?_) (Run.matchAt_lit (Run.matchAt_lit
      (Run.matchAt_append hhost (.inr ?_) hfile))))))))
  · rintro c ⟨⟩
    decide
  · intro c hc
    simp [h.file c hc]

/-- A port and the slashes behind it, and what does not begin with a slash, are an address. -/
theorem exists_text {port w : List Char} {c : Char}
    (hport : ∀ d ∈ port, Numeral.isDigit 10 d = true) (hc : c ≠ '/') :
    ∃ u : Url, u.Valid ∧
      u.text = 'h' :: 't' :: 't' :: 'p' :: ':' :: (port ++ '/' :: '/' :: c :: w) := by
  refine ⟨⟨port, (c :: w).takeWhile (· ≠ '/'), (c :: w).dropWhile (· ≠ '/')⟩, ⟨hport, ?_, ?_, ?_⟩,
    ?_⟩
  · simp [hc]
  · intro hmem
    simpa using List.mem_takeWhile_imp hmem
  · intro d hd
    have hnot := List.head?_dropWhile_not (fun d : Char => decide (d ≠ '/')) (c :: w)
    rw [Option.mem_def.1 hd] at hnot
    simpa using hnot
  · simp only [text, List.takeWhile_append_dropWhile]

/-- Where the pattern is, an address begins. -/
theorem exists_text_of_fits {ps : List (List Char)} (h : Run.Fits pattern ps)
    (hpre : ps.flatten <+: s) : ∃ u : Url, u.Valid ∧ u.text = s := by
  obtain ⟨rest, rfl⟩ := hpre
  simp only [Run.Fits, pattern, List.forall₂_cons_left_iff, List.forall₂_nil_left_iff,
    Run.of_lit_iff] at h
  obtain ⟨_, _, rfl, ⟨_, _, rfl, ⟨_, _, rfl, ⟨_, _, rfl, ⟨_, _, rfl, ⟨port, _, hport, ⟨_, _, rfl,
    ⟨_, _, rfl, ⟨host, _, hhost, ⟨file, _, -, rfl, rfl⟩, rfl⟩, rfl⟩, rfl⟩, rfl⟩, rfl⟩, rfl⟩, rfl⟩,
    rfl⟩, rfl⟩ := h
  obtain ⟨c, host, rfl⟩ := List.exists_cons_of_ne_nil (List.length_pos_iff.1 hhost.min)
  have hc : c ≠ '/' := of_decide_eq_true (hhost.ok c List.mem_cons_self)
  obtain ⟨u, hu, htext⟩ := exists_text (w := host ++ file ++ rest) hport.ok hc
  refine ⟨u, hu, htext.trans ?_⟩
  simp

/-! ## What is captured -/

theorem captures_of_search {u : Url} (h : Run.search pattern (cString s) =
    some [['h'], ['t'], ['t'], ['p'], [':'], u.port, ['/'], ['/'], u.host, u.file]) :
    captures s = some u := by
  rw [captures, h]

/-- **What is read.** The address that the text is from its first place on where it is one. -/
theorem captures_eq_some_iff : captures s = some u ↔
    ∃ l, u.Valid ∧ cString s = l ++ u.text ∧
      ∀ l' u', Valid u' → cString s = l' ++ u'.text → l.length ≤ l'.length := by
  constructor
  · intro h
    unfold captures at h
    split at h
    · rename_i hsearch
      obtain ⟨l, l', hs, hmatch, hfirst⟩ := Run.exists_of_search hsearch
      obtain ⟨hfits, hpre⟩ := Run.matchAt_sound hmatch
      obtain ⟨v, hv, rfl⟩ := exists_text_of_fits hfits hpre
      rw [matchAt_text hv] at hmatch
      obtain rfl : v = u := by
        cases v
        simp_all
      refine ⟨l, hv, hs, fun k u' hu' hk => ?_⟩
      by_contra hlt
      obtain ⟨d, rfl, hd⟩ : ∃ d, l = k ++ d ∧ d ++ v.text = u'.text := by
        rcases List.append_eq_append_iff.1 (hs.symm.trans hk) with ⟨d, rfl, -⟩ | ⟨d, hl, hd⟩
        · exact absurd (by simp) hlt
        · exact ⟨d, hl, hd.symm⟩
      obtain ⟨c, d, rfl⟩ := List.exists_cons_of_ne_nil (l := d) (by rintro rfl; simp at hlt)
      have hnone := hfirst k c d rfl
      rw [← List.cons_append, hd, matchAt_text hu'] at hnone
      cases hnone
    · cases h
  · rintro ⟨l, hu, hs, hfirst⟩
    refine captures_of_search ?_
    rw [hs]
    refine Run.search_append_of_none (matchAt_text hu) fun k c d hk => ?_
    cases hmatch : Run.matchAt pattern (c :: (d ++ u.text)) with
    | none => rfl
    | some ps =>
      obtain ⟨hfits, hpre⟩ := Run.matchAt_sound hmatch
      obtain ⟨v, hv, htext⟩ := exists_text_of_fits hfits hpre
      have hle := hfirst k v hv (by rw [hs, hk, htext]; simp)
      rw [hk, List.length_append, List.length_cons] at hle
      omega

/-- **What a fetch is for.** The parts of the first address in the text, a missing port and file
filled in. -/
theorem parse_eq_ok_iff {v : Url} : parse s = .ok v ↔
    ∃ (u : Url) (l : List Char), u.Valid ∧ cString s = l ++ u.text ∧
      (∀ l' u', Valid u' → cString s = l' ++ u'.text → l.length ≤ l'.length) ∧ u.filled = v := by
  constructor
  · intro h
    unfold parse at h
    split at h
    · rename_i u hu
      obtain ⟨l, hvalid, hs, hfirst⟩ := captures_eq_some_iff.1 hu
      exact ⟨u, l, hvalid, hs, hfirst, Except.ok.inj h⟩
    · cases h
  · rintro ⟨u, l, hvalid, hs, hfirst, rfl⟩
    rw [parse, captures_eq_some_iff.2 ⟨l, hvalid, hs, hfirst⟩]

/-! ## Text behind an address -/

/-- The address with a text behind it. -/
def append (u : Url) (q : List Char) : Url :=
  if u.file = [] then
    { u with host := u.host ++ q.takeWhile (· ≠ '/'), file := q.dropWhile (· ≠ '/') }
  else { u with file := u.file ++ q }

theorem text_append (u : Url) (q : List Char) : (u.append q).text = u.text ++ q := by
  unfold append
  split
  · rename_i hfile
    simp [text, hfile]
  · simp [text]

theorem valid_append (h : u.Valid) (q : List Char) : (u.append q).Valid := by
  unfold append
  split
  · refine ⟨h.port, fun hnil => h.host (List.append_eq_nil_iff.1 hnil).1, fun hmem => ?_,
      fun c hc => ?_⟩
    · rcases List.mem_append.1 hmem with hmem | hmem
      · exact h.noSlash hmem
      · simpa using List.mem_takeWhile_imp hmem
    · have hnot := List.head?_dropWhile_not (fun d : Char => decide (d ≠ '/')) q
      rw [Option.mem_def.1 hc] at hnot
      simpa using hnot
  · rename_i hfile
    refine ⟨h.port, h.host, h.noSlash, fun c hc => h.file c ?_⟩
    rwa [List.head?_append_of_ne_nil _ hfile] at hc

/-- What stands in front of the host has one `h`, at its beginning. -/
theorem not_mem_front {port : List Char} (h : ∀ c ∈ port, Numeral.isDigit 10 c = true) :
    'h' ∉ 't' :: 't' :: 'p' :: ':' :: (port ++ ['/', '/']) := by
  have hport : 'h' ∉ port := fun hmem => absurd (h 'h' hmem) (by decide)
  simp [hport]

/-- A text that is an address when more is put behind it, and that ends with an address, is one. -/
theorem exists_text_of_append {l q : List Char} (hu' : u'.Valid) (hl : l ≠ [])
    (h : l ++ (u.text ++ q) = u'.text) : ∃ v : Url, v.Valid ∧ v.text = l ++ u.text := by
  obtain ⟨c, l, rfl⟩ := List.exists_cons_of_ne_nil hl
  have hsplit : u'.text =
      'h' :: (('t' :: 't' :: 'p' :: ':' :: (u'.port ++ ['/', '/'])) ++ (u'.host ++ u'.file)) := by
    simp [text]
  rw [hsplit, List.cons_append] at h
  obtain ⟨rfl, htail⟩ := List.cons.inj h
  -- the second address does not begin before the host of the first
  obtain ⟨k, rfl, hk⟩ : ∃ k, l = ('t' :: 't' :: 'p' :: ':' :: (u'.port ++ ['/', '/'])) ++ k ∧
      u'.host ++ u'.file = k ++ (u.text ++ q) := by
    rcases List.append_eq_append_iff.1 htail with ⟨k, hfront, hk⟩ | hbehind
    · cases k with
      | nil => exact ⟨[], by simpa using hfront.symm, by simpa using hk.symm⟩
      | cons c k =>
        obtain rfl : 'h' = c := (List.cons.inj hk).1
        exact absurd (hfront ▸ List.mem_append_right l List.mem_cons_self) (not_mem_front hu'.port)
    · exact hbehind
  obtain ⟨c, host, hhost⟩ := List.exists_cons_of_ne_nil hu'.host
  have hc : c ≠ '/' := fun heq => hu'.noSlash (by rw [hhost, heq]; exact List.mem_cons_self)
  obtain ⟨w, hw⟩ : ∃ w, k ++ u.text = c :: w := by
    cases k with
    | nil =>
      rw [hhost, List.cons_append] at hk
      exact ⟨u.text.tail, by rw [(List.cons.inj hk).1]; rfl⟩
    | cons d k =>
      rw [hhost, List.cons_append, List.cons_append] at hk
      exact ⟨k ++ u.text, by rw [(List.cons.inj hk).1]; rfl⟩
  obtain ⟨v, hv, htext⟩ := exists_text (w := w) hu'.port hc
  refine ⟨v, hv, htext.trans ?_⟩
  simp [hw]

/-- **Text behind an address.** What is captured of a text with more behind it is what was captured
of the text, with the addition in its file or, when it has none, in its host. -/
theorem captures_append {q : List Char} (h : captures s = some u) (hs : Char.ofNat 0 ∉ s) :
    captures (s ++ q) = some (u.append (cString q)) := by
  obtain ⟨l, hu, htext, hfirst⟩ := captures_eq_some_iff.1 h
  have hall : ∀ c ∈ s, decide (c ≠ Char.ofNat 0) = true := fun c hc =>
    decide_eq_true fun heq => hs (heq ▸ hc)
  have hwhole : cString s = s := List.takeWhile_eq_self_iff.2 hall
  have happend : cString (s ++ q) = s ++ cString q := List.takeWhile_append_of_pos hall
  rw [hwhole] at htext hfirst
  refine captures_eq_some_iff.2 ⟨l, valid_append hu _, ?_, fun k v hv hk => ?_⟩
  · rw [happend, htext, text_append, List.append_assoc]
  · rw [happend, htext, List.append_assoc] at hk
    by_contra hlt
    -- an earlier place would have been found without the addition
    obtain ⟨d, rfl, hd⟩ : ∃ d, l = k ++ d ∧ d ++ (u.text ++ cString q) = v.text := by
      rcases List.append_eq_append_iff.1 hk with ⟨d, rfl, -⟩ | ⟨d, hl, hd⟩
      · exact absurd (by simp) hlt
      · exact ⟨d, hl, hd.symm⟩
    have hne : d ≠ [] := by
      rintro rfl
      simp at hlt
    obtain ⟨w, hw, hwtext⟩ := exists_text_of_append hv hne hd
    have hle := hfirst k w hw (by rw [htext, hwtext, List.append_assoc])
    exact hlt hle

end Url

end RvHouse
