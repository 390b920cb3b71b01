import RvHouse.Parser.UrlDfa

/-!
# The text of a chat message

`chat::_styled_content` cuts a message into fragments, which it inserts one after the other: plain
text, and the URLs that the scanner finds. The model keeps for each fragment where it begins in the
message. `pass` is the body of the loop over the message; each pass goes on (`lt_pass`), so the loop
ends. `Passes` says what one pass inserts, and `styledContent_lossless` the whole: the fragments are
the message again, and each URL stands at its beginning or behind a word separator.
-/

namespace RvHouse

namespace Chat

def isWordSeparator (c : Char) : Bool :=
  [Char.ofNat 0, ' ', '\t', '\n', '\r', ')', '(', '{', '}', '[', ']', '.', ',', ':', ';'].contains c

/-- What is inserted, and the offset in the message that it is taken from. -/
structure Fragment where
  url : Bool
  base : ℕ
  shown : List Char

variable (msg : List Char)

/-- `_insert_text`, or `_insert_url`, of the characters from `base` up to `p`. They are inserted as
a C string. -/
def insert (url : Bool) (base p : ℕ) : Fragment :=
  ⟨url, base, ((msg.drop base).take (p - base)).takeWhile (· ≠ Char.ofNat 0)⟩

/-- The inner loops: `p` after the characters of a kind. -/
def eat (kind : Char → Bool) (p : ℕ) : ℕ := p + ((msg.drop p).takeWhile kind).length

/-- The body of the loop: what it inserts, and `base` and `p` after it. -/
def pass (base p : ℕ) : List Fragment × ℕ :=
  let p := eat msg isWordSeparator p
  let r := Dfa.parse (msg.drop p)
  if r.1 = .success then
    ((if base = p then [] else [insert msg false base p]) ++ [insert msg true p (p + r.2)], p + r.2)
  else
    let q := eat msg (!isWordSeparator ·) p
    ([insert msg false base q], q)

/-! ## The loop ends -/

theorem lt_eat_of_kind {kind : Char → Bool} {p : ℕ} {c : Char} (hc : msg[p]? = some c)
    (hkind : kind c = true) : p < eat msg kind p := by
  obtain ⟨hp, rfl⟩ := List.getElem?_eq_some_iff.1 hc
  rw [eat, List.drop_eq_getElem_cons hp, List.takeWhile_cons_of_pos hkind, List.length_cons]
  omega

theorem le_eat (kind : Char → Bool) (p : ℕ) : p ≤ eat msg kind p := Nat.le_add_right _ _

/-- **Each pass goes on.** -/
theorem lt_pass {p : ℕ} (base : ℕ) (hp : p < msg.length) : p < (pass msg base p).2 := by
  rw [pass]
  split
  · have hend := Dfa.parse_end_pos (msg.drop (eat msg isWordSeparator p))
    have hle := le_eat msg isWordSeparator p
    show p < _ + _
    omega
  · show p < eat msg (!isWordSeparator ·) (eat msg isWordSeparator p)
    cases hsep : isWordSeparator msg[p] with
    | true =>
      have hlt := lt_eat_of_kind msg (List.getElem?_eq_getElem hp) hsep
      exact hlt.trans_le (le_eat msg _ _)
    | false =>
      have hnone : eat msg isWordSeparator p = p := by
        rw [eat, List.drop_eq_getElem_cons hp, List.takeWhile_cons_of_neg (by simp [hsep])]
        rfl
      rw [hnone]
      exact lt_eat_of_kind msg (List.getElem?_eq_getElem hp) (by simp [hsep])

/-- The loop over the message. -/
def loop (base p : ℕ) : List Fragment :=
  if p < msg.length then
    (pass msg base p).1 ++ loop (pass msg base p).2 (pass msg base p).2
  else []
termination_by msg.length - p
decreasing_by
  rename_i h
  have hlt := lt_pass msg base h
  omega

/-- `_styled_content`. -/
def styledContent : List Fragment := loop msg 0 0

/-! ## Each pass -/

/-- A URL is a part of the message that stands at its beginning or behind a word separator. -/
def UrlAt (f : Fragment) : Prop :=
  f.shown ≠ [] ∧ f.shown <+: msg.drop f.base ∧
    (f.base = 0 ∨ ∃ c, msg[f.base - 1]? = some c ∧ isWordSeparator c = true)

/-- Where a pass may begin: at the beginning or the end of the message or at a word separator. -/
def Boundary (p : ℕ) : Prop := p = 0 ∨ ∀ c, msg[p]? = some c → isWordSeparator c = true

theorem isWordSeparator_of_isTrailing {c : Char} (h : Dfa.isTrailing c = true) :
    isWordSeparator c = true := by
  simp only [Dfa.isTrailing, Dfa.isBlank, Bool.or_eq_true, decide_eq_true_eq,
    List.contains_iff_mem] at h
  simp only [isWordSeparator, List.contains_iff_mem]
  rcases h with (((((rfl | rfl) | rfl) | rfl) | rfl) | h)
  · decide
  · decide
  · decide
  · decide
  · decide
  · have hall : ['.', ',', ';', '(', ')', '[', ']', '{', '}'] ⊆ [Char.ofNat 0, ' ', '\t', '\n',
        '\r', ')', '(', '{', '}', '[', ']', '.', ',', ':', ';'] := by decide
    exact hall h

variable {msg}

theorem shown_insert (hmsg : Char.ofNat 0 ∉ msg) (url : Bool) (base p : ℕ) :
    (insert msg url base p).shown = (msg.drop base).take (p - base) := by
  rw [insert, List.takeWhile_eq_self_iff]
  intro c hc
  exact decide_eq_true fun h => hmsg (h ▸ List.mem_of_mem_drop (List.mem_of_mem_take hc))

theorem take_append_take {i j k : ℕ} (hij : i ≤ j) (hjk : j ≤ k) :
    (msg.drop i).take (j - i) ++ (msg.drop j).take (k - j) = (msg.drop i).take (k - i) := by
  have hk : k - i = (j - i) + (k - j) := by omega
  have hj : i + (j - i) = j := by omega
  rw [hk, List.take_add, List.drop_drop, hj]

/-- What an inner loop stops at is of the other kind. -/
theorem kind_getElem?_eat {kind : Char → Bool} {p : ℕ} {c : Char}
    (hc : msg[eat msg kind p]? = some c) : kind c = false := by
  rw [eat, ← List.getElem?_drop] at hc
  have hsplit : (msg.drop p).takeWhile kind ++ (msg.drop p).dropWhile kind = msg.drop p :=
    List.takeWhile_append_dropWhile
  rw [← hsplit, List.getElem?_append_right (by rw [hsplit]), hsplit, Nat.sub_self,
    ← List.head?_eq_getElem?] at hc
  have hhead := List.head?_dropWhile_not kind (msg.drop p)
  rw [hc] at hhead
  exact hhead

/-- What an inner loop passed is of its kind. -/
theorem kind_getElem?_pred {kind : Char → Bool} {p : ℕ} (hlt : p < eat msg kind p) :
    ∃ c, msg[eat msg kind p - 1]? = some c ∧ kind c = true := by
  have hpos : ((msg.drop p).takeWhile kind).length - 1 < ((msg.drop p).takeWhile kind).length := by
    rw [eat] at hlt
    omega
  have hindex : eat msg kind p - 1 = p + (((msg.drop p).takeWhile kind).length - 1) := by
    rw [eat] at hlt ⊢
    omega
  have hget := List.getElem?_eq_getElem hpos
  refine ⟨_, ?_, List.mem_takeWhile_imp (List.mem_of_getElem? hget)⟩
  rw [hindex, ← List.getElem?_drop, (List.takeWhile_prefix kind).getElem hpos]
  exact List.getElem?_eq_getElem _

/-- The first word of a pass stands at the beginning or behind a word separator. -/
theorem behind_separator {p : ℕ} (h : Boundary msg p)
    (hlt : eat msg isWordSeparator p < msg.length) :
    eat msg isWordSeparator p = 0 ∨
      ∃ c, msg[eat msg isWordSeparator p - 1]? = some c ∧ isWordSeparator c = true := by
  rcases (le_eat msg isWordSeparator p).eq_or_lt with heq | hmore
  · rcases h with rfl | hsep
    · exact .inl heq.symm
    · have hget := List.getElem?_eq_getElem hlt
      have hnot := kind_getElem?_eat hget
      rw [hsep _ ((congrArg (msg[·]?) heq).trans hget)] at hnot
      cases hnot
  · exact .inr (kind_getElem?_pred hmore)

/-- What is said of a pass from `p`: it goes on to a word separator or the end of the message, and
inserts what it passed, each URL behind a word separator. -/
structure Passes (msg : List Char) (p : ℕ) (r : List Fragment × ℕ) : Prop where
  boundary : Boundary msg r.2
  shown : r.1.flatMap Fragment.shown = (msg.drop p).take (r.2 - p)
  urls : ∀ f ∈ r.1, f.url = true → UrlAt msg f

/-- A URL that the scanner finds where a pass begins its word. -/
theorem urlAt_insert (hmsg : Char.ofNat 0 ∉ msg) {p : ℕ} (h : Boundary msg p)
    (hend : (Dfa.parse (msg.drop (eat msg isWordSeparator p))).2 ≤
      msg.length - eat msg isWordSeparator p) :
    UrlAt msg (insert msg true (eat msg isWordSeparator p) (eat msg isWordSeparator p +
      (Dfa.parse (msg.drop (eat msg isWordSeparator p))).2)) := by
  have hpos := Dfa.parse_end_pos (msg.drop (eat msg isWordSeparator p))
  have hshown := shown_insert hmsg true (eat msg isWordSeparator p) (eat msg isWordSeparator p +
    (Dfa.parse (msg.drop (eat msg isWordSeparator p))).2)
  rw [Nat.add_sub_cancel_left] at hshown
  refine ⟨?_, ?_, behind_separator h (by omega)⟩
  · rw [hshown]
    apply List.ne_nil_of_length_pos
    rw [List.length_take, List.length_drop]
    omega
  · rw [hshown]
    exact List.take_prefix _ _

/-- A pass that finds a URL. -/
theorem passes_of_success (hmsg : Char.ofNat 0 ∉ msg) {p : ℕ} (h : Boundary msg p)
    (hstatus : (Dfa.parse (msg.drop (eat msg isWordSeparator p))).1 = .success) :
    Passes msg p (pass msg p p) := by
  have hle := le_eat msg isWordSeparator p
  have hpass : pass msg p p = ((if p = eat msg isWordSeparator p then []
      else [insert msg false p (eat msg isWordSeparator p)]) ++
        [insert msg true (eat msg isWordSeparator p) (eat msg isWordSeparator p +
          (Dfa.parse (msg.drop (eat msg isWordSeparator p))).2)],
      eat msg isWordSeparator p + (Dfa.parse (msg.drop (eat msg isWordSeparator p))).2) :=
    if_pos hstatus
  have hend := Dfa.parse_end_le hstatus
  rw [List.length_drop] at hend
  rw [hpass]
  refine ⟨.inr fun c hc => ?_, ?_, fun f hf hurl => ?_⟩
  · rw [← List.getElem?_drop] at hc
    exact isWordSeparator_of_isTrailing (Dfa.isTrailing_getElem?_end hstatus hc)
  · rw [List.flatMap_append, List.flatMap_singleton, shown_insert hmsg,
      ← take_append_take hle (Nat.le_add_right _ _)]
    congr 1
    split
    · rename_i heq
      rw [← heq, Nat.sub_self, List.take_zero]
      rfl
    · rw [List.flatMap_singleton, shown_insert hmsg]
  · rcases List.mem_append.1 hf with hf | hf
    · split at hf
      · cases hf
      · rw [List.mem_singleton.1 hf] at hurl
        cases hurl
    · rw [List.mem_singleton.1 hf]
      exact urlAt_insert hmsg h hend

/-- A pass that finds none goes on to the end of the word. -/
theorem passes_of_failure (hmsg : Char.ofNat 0 ∉ msg) {p : ℕ}
    (hstatus : (Dfa.parse (msg.drop (eat msg isWordSeparator p))).1 ≠ .success) :
    Passes msg p (pass msg p p) := by
  have hpass : pass msg p p =
      ([insert msg false p (eat msg (!isWordSeparator ·) (eat msg isWordSeparator p))],
        eat msg (!isWordSeparator ·) (eat msg isWordSeparator p)) := if_neg hstatus
  rw [hpass]
  refine ⟨.inr fun c hc => ?_, ?_, fun f hf hurl => ?_⟩
  · have hkind := kind_getElem?_eat hc
    rwa [Bool.not_eq_false'] at hkind
  · rw [List.flatMap_singleton, shown_insert hmsg]
  · rw [List.mem_singleton.1 hf] at hurl
    cases hurl

/-- **One pass.** -/
theorem passes_pass (hmsg : Char.ofNat 0 ∉ msg) {p : ℕ} (h : Boundary msg p) :
    Passes msg p (pass msg p p) := by
  rcases eq_or_ne (Dfa.parse (msg.drop (eat msg isWordSeparator p))).1 .success with hs | hs
  · exact passes_of_success hmsg h hs
  · exact passes_of_failure hmsg hs

/-! ## The whole message -/

theorem loop_spec (hmsg : Char.ofNat 0 ∉ msg) (p : ℕ) (h : Boundary msg p) :
    (loop msg p p).flatMap Fragment.shown = msg.drop p ∧
      ∀ f ∈ loop msg p p, f.url = true → UrlAt msg f := by
  induction hn : msg.length - p using Nat.strong_induction_on generalizing p with
  | _ n ih =>
    rw [loop]
    split
    · rename_i hp
      have hpass := passes_pass hmsg h
      have hlt := lt_pass msg p hp
      obtain ⟨hrest, hrestUrls⟩ := ih _ (by omega) (pass msg p p).2 hpass.boundary rfl
      constructor
      · rw [List.flatMap_append, hpass.shown, hrest]
        have hq : p + ((pass msg p p).2 - p) = (pass msg p p).2 := by omega
        rw [← hq, ← List.drop_drop, Nat.add_sub_cancel_left]
        exact List.take_append_drop _ _
      · intro f hf hurl
        rcases List.mem_append.1 hf with hf | hf
        · exact hpass.urls f hf hurl
        · exact hrestUrls f hf hurl
    · rename_i hp
      exact ⟨(List.drop_of_length_le (Nat.le_of_not_lt hp)).symm, by simp⟩

/-- **Nothing of a message is lost.** Without a NUL in it, its fragments one after the other are the
message, and each URL stands in it, at its beginning or behind a word separator. -/
theorem styledContent_lossless (hmsg : Char.ofNat 0 ∉ msg) :
    (styledContent msg).flatMap Fragment.shown = msg ∧
      ∀ f ∈ styledContent msg, f.url = true → UrlAt msg f :=
  loop_spec hmsg 0 (.inl rfl)

/-- A message with two URLs. -/
theorem styledContent_lossless_two :
    let msg := "see www.a.fi, (ftp://b) www.".toList
    Char.ofNat 0 ∉ msg ∧ (styledContent msg).flatMap Fragment.shown = msg ∧
      ∀ f ∈ styledContent msg, f.url = true → UrlAt msg f :=
  ⟨by decide, styledContent_lossless (by decide)⟩

end Chat

end RvHouse
