import Mathlib.Data.List.TakeWhile
import Mathlib.Data.List.Infix

/-!
# Patterns of runs

A pattern is a sequence of runs, each of letters of one class and of a bounded length, as in the
regular expression `[^:]{3,20}:\w*`. `matchAt` looks for a pattern at the beginning of a text, each
run taking as many letters as the rest of the pattern allows; `search` looks for it at every place,
from the left.

* `matchAt_sound`, `matchAt_eq_none_iff`: it finds a decomposition (`Fits`) if there is one;
* `search_sound`, `search_eq_none_iff`: the same anywhere in the text;
* `matchAt_append`: the greedy step, when a run ends where the text leaves its class.

What comes after the runs may be more than runs: the end of the text (`atEnd`), or a part that need
not be there (`maybe`). `matchThen` and `searchThen` take it as a function, and what is said of
`matchAt` is said of `matchThen` first.
-/

/-- A run of letters of one class; `max` is `none` when its length is not bounded. -/
structure Run (α : Type*) where
  ok : α → Bool
  min : ℕ
  max : Option ℕ

namespace Run

variable {α : Type*}

/-- The run that is one given letter. -/
def lit [DecidableEq α] (a : α) : Run α := ⟨(· = a), 1, some 1⟩

/-- The letters are a run. -/
structure Of (r : Run α) (p : List α) : Prop where
  ok : ∀ c ∈ p, r.ok c = true
  min : r.min ≤ p.length
  max : ∀ m ∈ r.max, p.length ≤ m

/-- The pieces are runs of the pattern, one each. -/
def Fits (rs : List (Run α)) (ps : List (List α)) : Prop := List.Forall₂ Run.Of rs ps

/-- The most letters at the beginning of a text that may be in the run. -/
def room (r : Run α) (l : List α) : ℕ :=
  let n := (l.takeWhile r.ok).length
  match r.max with
  | some m => Nat.min n m
  | none => n

/-- The lengths that the run may have at the beginning of a text, the greatest first. -/
def lengths (r : Run α) (l : List α) : List ℕ :=
  (List.range (r.room l + 1)).reverse.filter (r.min ≤ ·)

/-- The pattern at the beginning of a text: its pieces. -/
def matchAt : List (Run α) → List α → Option (List (List α))
  | [], _ => some []
  | r :: rs, l => (r.lengths l).findSome? fun n => (matchAt rs (l.drop n)).map (l.take n :: ·)

/-- The pattern at the beginning of a text, where `k` goes on after it: its pieces, and those of
`k`. -/
def matchThen (k : List α → Option (List (List α))) :
    List (Run α) → List α → Option (List (List α))
  | [], l => k l
  | r :: rs, l => (r.lengths l).findSome? fun n => (matchThen k rs (l.drop n)).map (l.take n :: ·)

/-- The end of the text. -/
def atEnd : List α → Option (List (List α))
  | [] => some []
  | _ :: _ => none

/-- A pattern that is there or not: without it there are no pieces. -/
def maybe (rs : List (Run α)) (l : List α) : Option (List (List α)) :=
  some ((matchAt rs l).getD [])

/-- The first place of the text where the pattern is and `k` goes on after it. -/
def searchThen (k : List α → Option (List (List α))) (rs : List (Run α)) :
    List α → Option (List (List α))
  | [] => matchThen k rs []
  | c :: l => (matchThen k rs (c :: l)).or (searchThen k rs l)

/-- The first place of the text where the pattern is: its pieces. -/
def search (rs : List (Run α)) : List α → Option (List (List α))
  | [] => matchAt rs []
  | c :: l => (matchAt rs (c :: l)).or (search rs l)

/-! ## One run -/

theorem room_le (r : Run α) (l : List α) : r.room l ≤ (l.takeWhile r.ok).length := by
  unfold room
  dsimp only
  split
  · exact Nat.min_le_left _ _
  · exact le_rfl

theorem room_le_max {r : Run α} {m : ℕ} (hm : m ∈ r.max) (l : List α) : r.room l ≤ m := by
  unfold room
  rw [Option.mem_def.1 hm]
  exact Nat.min_le_right _ _

theorem le_room_iff {r : Run α} {l : List α} {n : ℕ} :
    n ≤ r.room l ↔ n ≤ (l.takeWhile r.ok).length ∧ ∀ m ∈ r.max, n ≤ m := by
  constructor
  · exact fun h => ⟨h.trans (r.room_le l), fun m hm => h.trans (room_le_max hm l)⟩
  · rintro ⟨hn, hmax⟩
    unfold room
    dsimp only
    split
    · rename_i m hm
      exact Nat.le_min.2 ⟨hn, hmax m hm⟩
    · exact hn

theorem mem_lengths {r : Run α} {l : List α} {n : ℕ} :
    n ∈ r.lengths l ↔ n ≤ r.room l ∧ r.min ≤ n := by
  simp only [lengths, List.mem_filter, List.mem_reverse, List.mem_range, Nat.lt_succ_iff,
    decide_eq_true_eq]

/-- The letters at the beginning that are all of the class. -/
theorem prefix_takeWhile_iff {p : α → Bool} {w l : List α} :
    w <+: l.takeWhile p ↔ w <+: l ∧ ∀ c ∈ w, p c = true := by
  constructor
  · intro h
    exact ⟨h.trans (List.takeWhile_prefix p), fun c hc => List.mem_takeWhile_imp (h.subset hc)⟩
  · rintro ⟨⟨t, rfl⟩, hok⟩
    rw [List.takeWhile_append_of_pos hok]
    exact List.prefix_append _ _

/-- The runs at the beginning of a text, by length. -/
theorem of_take_iff {r : Run α} {l : List α} {n : ℕ} (hn : n ≤ l.length) :
    r.Of (l.take n) ↔ n ∈ r.lengths l := by
  have hlen : (l.take n).length = n := List.length_take_of_le hn
  have hclass : (∀ c ∈ l.take n, r.ok c = true) ↔ n ≤ (l.takeWhile r.ok).length := by
    have hpre := prefix_takeWhile_iff (p := r.ok) (w := l.take n) (l := l)
    constructor
    · intro h
      have hle := (hpre.2 ⟨List.take_prefix n l, h⟩).length_le
      rwa [hlen] at hle
    · intro h
      refine (hpre.1 ?_).2
      have heq : l.take n = (l.takeWhile r.ok).take n := by
        obtain ⟨t, ht⟩ := List.takeWhile_prefix (p := r.ok) (l := l)
        conv_lhs => rw [← ht]
        exact List.take_append_of_le_length h
      rw [heq]
      exact List.take_prefix n _
  rw [mem_lengths, le_room_iff, ← hclass]
  constructor
  · intro h
    exact ⟨⟨h.ok, fun m hm => hlen ▸ h.max m hm⟩, hlen ▸ h.min⟩
  · rintro ⟨⟨hok, hmax⟩, hmin⟩
    exact ⟨hok, hlen.symm ▸ hmin, fun m hm => hlen.symm ▸ hmax m hm⟩

/-! ## The beginning of a text -/

section Then

variable {k : List α → Option (List (List α))}

theorem length_le_of_mem_lengths {r : Run α} {l : List α} {n : ℕ} (hn : n ∈ r.lengths l) :
    n ≤ l.length :=
  (mem_lengths.1 hn).1.trans ((r.room_le l).trans (List.takeWhile_prefix r.ok).length_le)

theorem matchThen_sound {rs : List (Run α)} {l : List α} {ps : List (List α)}
    (h : matchThen k rs l = some ps) :
    ∃ ps₁ rest ps₂, Fits rs ps₁ ∧ ps₁.flatten ++ rest = l ∧ k rest = some ps₂ ∧
      ps = ps₁ ++ ps₂ := by
  induction rs generalizing l ps with
  | nil => exact ⟨[], l, ps, .nil, rfl, h, rfl⟩
  | cons r rs ih =>
    obtain ⟨n, hn, h⟩ := List.exists_of_findSome?_eq_some h
    obtain ⟨ps', hps', rfl⟩ := Option.map_eq_some_iff.1 h
    obtain ⟨ps₁, rest, ps₂, hfits, hrest, hk, rfl⟩ := ih hps'
    refine ⟨l.take n :: ps₁, rest, ps₂, ?_, ?_, hk, rfl⟩
    · exact .cons ((of_take_iff (length_le_of_mem_lengths hn)).2 hn) hfits
    · rw [List.flatten_cons, List.append_assoc, hrest, List.take_append_drop]

theorem matchThen_eq_none_iff {rs : List (Run α)} {l : List α} :
    matchThen k rs l = none ↔
      ∀ ps rest, Fits rs ps → ps.flatten ++ rest = l → k rest = none := by
  constructor
  · intro h ps rest hfits hl
    induction hfits generalizing l with
    | nil =>
      obtain rfl : rest = l := hl
      exact h
    | @cons r p rs ps hp hfits ih =>
      rw [List.flatten_cons, List.append_assoc] at hl
      subst hl
      have hle : p.length ≤ (p ++ (ps.flatten ++ rest)).length := by simp
      have hmem : p.length ∈ r.lengths (p ++ (ps.flatten ++ rest)) := by
        refine (of_take_iff hle).1 ?_
        rwa [List.take_left]
      have hnone := List.findSome?_eq_none_iff.1 h p.length hmem
      rw [List.drop_left, Option.map_eq_none_iff] at hnone
      exact ih hnone rfl
  · intro h
    cases hm : matchThen k rs l with
    | none => rfl
    | some ps =>
      obtain ⟨ps₁, rest, ps₂, hfits, hl, hk, -⟩ := matchThen_sound hm
      rw [h ps₁ rest hfits hl] at hk
      cases hk

/-- **The greedy step.** A run that cannot go on takes its letters, if the rest matches after it. -/
theorem matchThen_append {r : Run α} {rs : List (Run α)} {p l : List α} {ps : List (List α)}
    (hp : r.Of p) (hend : r.max = some p.length ∨ ∀ c ∈ l.head?, r.ok c = false)
    (h : matchThen k rs l = some ps) : matchThen k (r :: rs) (p ++ l) = some (p :: ps) := by
  have hroom : r.room (p ++ l) = p.length := by
    apply le_antisymm
    · rcases hend with hmax | hhead
      · exact room_le_max hmax _
      · refine (r.room_le _).trans ?_
        rw [List.takeWhile_append_of_pos hp.ok]
        cases l with
        | nil => simp
        | cons c l => simp [hhead c rfl]
    · refine le_room_iff.2 ⟨?_, hp.max⟩
      rw [List.takeWhile_append_of_pos hp.ok, List.length_append]
      exact Nat.le_add_right _ _
  have hlengths : r.lengths (p ++ l) =
      p.length :: ((List.range p.length).reverse.filter (r.min ≤ ·)) := by
    rw [lengths, hroom, List.range_succ, List.reverse_append, List.reverse_singleton,
      List.singleton_append, List.filter_cons_of_pos (by simpa using hp.min)]
  rw [matchThen, hlengths, List.findSome?_cons, List.drop_left, List.take_left, h]
  rfl

theorem of_lit_iff [DecidableEq α] {a : α} {p : List α} : (lit a).Of p ↔ p = [a] := by
  constructor
  · intro h
    obtain ⟨c, rfl⟩ := List.length_eq_one_iff.1 (le_antisymm (h.max 1 rfl) h.min)
    have hc : c = a := of_decide_eq_true (h.ok c List.mem_cons_self)
    rw [hc]
  · rintro rfl
    exact ⟨by simp [lit], le_rfl, by simp [lit]⟩

/-- A letter matches itself. -/
theorem matchThen_lit [DecidableEq α] {a : α} {rs : List (Run α)} {l : List α}
    {ps : List (List α)} (h : matchThen k rs l = some ps) :
    matchThen k (.lit a :: rs) (a :: l) = some ([a] :: ps) :=
  matchThen_append (p := [a]) (of_lit_iff.2 rfl) (.inl rfl) h

theorem atEnd_eq_some_iff {l : List α} {ps : List (List α)} :
    atEnd l = some ps ↔ l = [] ∧ ps = [] := by
  cases l with
  | nil => simp [atEnd, eq_comm]
  | cons c l => simp [atEnd]

/-- A text that is a pattern from its beginning to its end. -/
theorem isSome_matchThen_atEnd_iff {rs : List (Run α)} {l : List α} :
    (matchThen atEnd rs l).isSome = true ↔ ∃ ps, Fits rs ps ∧ ps.flatten = l := by
  constructor
  · intro h
    obtain ⟨ps, hps⟩ := Option.isSome_iff_exists.1 h
    obtain ⟨ps₁, rest, ps₂, hfits, hl, hk, -⟩ := matchThen_sound hps
    obtain ⟨rfl, rfl⟩ := atEnd_eq_some_iff.1 hk
    exact ⟨ps₁, hfits, (List.append_nil _).symm.trans hl⟩
  · rintro ⟨ps, hfits, hl⟩
    by_contra hnone
    rw [Option.not_isSome_iff_eq_none] at hnone
    have hend := matchThen_eq_none_iff.1 hnone ps [] hfits ((List.append_nil _).trans hl)
    cases hend

end Then

theorem matchAt_eq_matchThen (rs : List (Run α)) (l : List α) :
    matchAt rs l = matchThen (fun _ => some []) rs l := by
  induction rs generalizing l with
  | nil => rfl
  | cons r rs ih => simp only [matchAt, matchThen, ih]

theorem matchAt_sound {rs : List (Run α)} {l : List α} {ps : List (List α)}
    (h : matchAt rs l = some ps) : Fits rs ps ∧ ps.flatten <+: l := by
  rw [matchAt_eq_matchThen] at h
  obtain ⟨ps₁, rest, ps₂, hfits, hl, hk, rfl⟩ := matchThen_sound h
  obtain rfl : [] = ps₂ := Option.some.inj hk
  rw [List.append_nil]
  exact ⟨hfits, rest, hl⟩

theorem matchAt_eq_none_iff {rs : List (Run α)} {l : List α} :
    matchAt rs l = none ↔ ∀ ps, Fits rs ps → ¬ ps.flatten <+: l := by
  rw [matchAt_eq_matchThen, matchThen_eq_none_iff]
  constructor
  · rintro h ps hfits ⟨rest, hl⟩
    cases h ps rest hfits hl
  · exact fun h ps rest hfits hl => absurd ⟨rest, hl⟩ (h ps hfits)

theorem matchAt_append {r : Run α} {rs : List (Run α)} {p l : List α} {ps : List (List α)}
    (hp : r.Of p) (hend : r.max = some p.length ∨ ∀ c ∈ l.head?, r.ok c = false)
    (h : matchAt rs l = some ps) : matchAt (r :: rs) (p ++ l) = some (p :: ps) := by
  rw [matchAt_eq_matchThen] at h ⊢
  exact matchThen_append hp hend h

theorem matchAt_lit [DecidableEq α] {a : α} {rs : List (Run α)} {l : List α} {ps : List (List α)}
    (h : matchAt rs l = some ps) : matchAt (.lit a :: rs) (a :: l) = some ([a] :: ps) := by
  rw [matchAt_eq_matchThen] at h ⊢
  exact matchThen_lit h

/-- A last run takes what it can. -/
theorem matchAt_last {r : Run α} (hmax : r.max = none) {l : List α}
    (hmin : r.min ≤ (l.takeWhile r.ok).length) : matchAt [r] l = some [l.takeWhile r.ok] := by
  have hof : r.Of (l.takeWhile r.ok) :=
    ⟨fun c hc => List.mem_takeWhile_imp hc, hmin, fun m hm => by simp [hmax] at hm⟩
  have hend : ∀ c ∈ (l.dropWhile r.ok).head?, r.ok c = false := by
    intro c hc
    have hnot := List.head?_dropWhile_not r.ok l
    rw [Option.mem_def.1 hc] at hnot
    simpa using hnot
  have happend : matchAt [r] (l.takeWhile r.ok ++ l.dropWhile r.ok) = some [l.takeWhile r.ok] :=
    matchAt_append hof (.inr hend) rfl
  rwa [List.takeWhile_append_dropWhile] at happend

/-- A run that is not empty begins with a letter of its class. -/
theorem matchAt_of_not_ok {r : Run α} {rs : List (Run α)} {l : List α} (hmin : 0 < r.min)
    (hhead : ∀ c ∈ l.head?, r.ok c = false) : matchAt (r :: rs) l = none := by
  refine matchAt_eq_none_iff.2 fun ps hfits hpre => ?_
  cases hfits with
  | cons hp hfits =>
    rename_i p ps
    cases p with
    | nil => exact absurd hp.min (by simp only [List.length_nil]; omega)
    | cons c p =>
      obtain ⟨t, rfl⟩ := hpre
      have hnot := hhead c rfl
      rw [hp.ok c List.mem_cons_self] at hnot
      cases hnot

/-! ## Any place of a text -/

theorem search_sound {rs : List (Run α)} {l : List α} {ps : List (List α)}
    (h : search rs l = some ps) : Fits rs ps ∧ ps.flatten <:+: l := by
  induction l with
  | nil =>
    obtain ⟨hfits, hpre⟩ := matchAt_sound h
    exact ⟨hfits, hpre.isInfix⟩
  | cons c l ih =>
    rw [search] at h
    cases hm : matchAt rs (c :: l) with
    | some ps' =>
      rw [hm, Option.some_or] at h
      cases h
      obtain ⟨hfits, hpre⟩ := matchAt_sound hm
      exact ⟨hfits, hpre.isInfix⟩
    | none =>
      rw [hm, Option.none_or] at h
      obtain ⟨hfits, hin⟩ := ih h
      exact ⟨hfits, hin.trans (List.suffix_cons c l).isInfix⟩

theorem search_eq_none_iff {rs : List (Run α)} {l : List α} :
    search rs l = none ↔ ∀ ps, Fits rs ps → ¬ ps.flatten <:+: l := by
  constructor
  · intro h ps hfits hin
    induction l with
    | nil =>
      rw [List.infix_nil] at hin
      exact matchAt_eq_none_iff.1 h ps hfits (hin ▸ List.nil_prefix)
    | cons c l ih =>
      rw [search, Option.or_eq_none_iff] at h
      rcases List.infix_cons_iff.1 hin with hpre | hin
      · exact matchAt_eq_none_iff.1 h.1 ps hfits hpre
      · exact ih h.2 hin
  · intro h
    cases hs : search rs l with
    | none => rfl
    | some ps => exact absurd (search_sound hs).2 (h ps (search_sound hs).1)

theorem searchThen_of_matchThen {k : List α → Option (List (List α))} {rs : List (Run α)}
    {l : List α} {ps : List (List α)} (h : matchThen k rs l = some ps) :
    searchThen k rs l = some ps := by
  cases l with
  | nil => exact h
  | cons c l => rw [searchThen, h, Option.some_or]

theorem search_of_matchAt {rs : List (Run α)} {l : List α} {ps : List (List α)}
    (h : matchAt rs l = some ps) : search rs l = some ps := by
  cases l with
  | nil => exact h
  | cons c l => rw [search, h, Option.some_or]

/-- **The first place.** What a search finds is the pattern at a place, and at no place before it the
pattern is. -/
theorem search_append_of_none {rs : List (Run α)} {l₁ l₂ : List α} {ps : List (List α)}
    (h : matchAt rs l₂ = some ps)
    (hnone : ∀ l c l', l₁ = l ++ c :: l' → matchAt rs (c :: (l' ++ l₂)) = none) :
    search rs (l₁ ++ l₂) = some ps := by
  induction l₁ with
  | nil => exact search_of_matchAt h
  | cons c l₁ ih =>
    have hc := hnone [] c l₁ rfl
    rw [List.cons_append, search, hc, Option.none_or]
    refine ih fun l d l' hl => hnone (c :: l) d l' ?_
    rw [hl, List.cons_append]

/-- A search finds nothing else than the pattern at its first place. -/
theorem exists_of_search {rs : List (Run α)} {l : List α} {ps : List (List α)}
    (h : search rs l = some ps) : ∃ l₁ l₂, l = l₁ ++ l₂ ∧ matchAt rs l₂ = some ps ∧
      ∀ l c l', l₁ = l ++ c :: l' → matchAt rs (c :: (l' ++ l₂)) = none := by
  induction l with
  | nil => exact ⟨[], [], rfl, h, fun l c l' hl => by simp at hl⟩
  | cons c l ih =>
    rw [search] at h
    cases hm : matchAt rs (c :: l) with
    | some ps' =>
      rw [hm, Option.some_or] at h
      exact ⟨[], c :: l, rfl, hm.trans h, fun l c l' hl => by simp at hl⟩
    | none =>
      rw [hm, Option.none_or] at h
      obtain ⟨l₁, l₂, rfl, hat, hfirst⟩ := ih h
      refine ⟨c :: l₁, l₂, rfl, hat, fun k d k' hk => ?_⟩
      rcases List.cons_eq_append_iff.1 hk with ⟨rfl, hk'⟩ | ⟨k₀, rfl, hk'⟩
      · cases hk'
        exact hm
      · exact hfirst k₀ d k' hk'

/-- The search passes over letters that cannot begin the pattern. -/
theorem search_append {r : Run α} {rs : List (Run α)} (hmin : 0 < r.min) {l₁ : List α}
    (h : ∀ c ∈ l₁, r.ok c = false) (l : List α) :
    search (r :: rs) (l₁ ++ l) = search (r :: rs) l := by
  induction l₁ with
  | nil => rfl
  | cons c l₁ ih =>
    obtain ⟨hc, hl₁⟩ := List.forall_mem_cons.1 h
    rw [List.cons_append, search, matchAt_of_not_ok hmin (by rintro d ⟨⟩; exact hc),
      Option.none_or]
    exact ih hl₁

end Run
