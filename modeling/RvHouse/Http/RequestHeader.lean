import Mathlib.Algebra.Group.Int.Defs
import Mathlib.Algebra.Group.Nat.Defs
import Mathlib.Data.List.TakeWhile
import Mathlib.Order.Lattice

/-!
# The request of a fetch

The constructor of `networking::http::fetcher_handler` prints the request into a message block of
1024 bytes, in two calls of `snprintf`. The write position advances by the length that the text would
have had, and the space left is an unsigned difference, so that a text that does not fit is noticed
only when it fits but for its last byte.

`constructed_iff` says for which requests the constructor queues the complete request or throws,
without a byte written behind the block; `not_constructed_of_long` is one for which it does neither.
-/

namespace RvHouse

/-! ## Message blocks -/

/-- The memory from the beginning of an `ACE_Message_Block` of `size` bytes on. `wr` is its write
position, and `high` the end of what has been written, in the block or behind it. -/
structure MessageBlock where
  size : ℕ
  mem : ℕ → UInt8
  wr : ℕ := 0
  high : ℕ := 0

namespace MessageBlock

/-- Some bytes are written at a position. -/
def write (b : MessageBlock) (i : ℕ) (l : List UInt8) : MessageBlock :=
  { b with
    mem := fun j => if i ≤ j ∧ j < i + l.length then l.getD (j - i) 0 else b.mem j
    high := if l = [] then b.high else max b.high (i + l.length) }

/-- `ACE_Message_Block::space`, as a `size_t`. -/
def space (b : MessageBlock) : ℕ := (((b.size : Int) - b.wr) % 2 ^ 64).toNat

/-- `ACE_OS::snprintf(wr_ptr(), space(), ..)` of a text: at most the space is written, with a zero
at the end, and the length of the whole text is returned. -/
def snprintf (b : MessageBlock) (text : List UInt8) : MessageBlock × ℕ :=
  (if b.space = 0 then b else b.write b.wr (text.take (b.space - 1) ++ [0]), text.length)

/-- The text is printed, and the write position advanced by what `snprintf` returned. -/
def print (b : MessageBlock) (text : List UInt8) : MessageBlock :=
  let (b, n) := b.snprintf text
  if 0 < n then { b with wr := b.wr + n } else b

/-- The bytes up to the write position. -/
def contents (b : MessageBlock) : List UInt8 := (List.range b.wr).map b.mem

/-- The block holds a text, and at most one byte has been written after it. -/
structure Holds (b : MessageBlock) (text : List UInt8) : Prop where
  wr : b.wr = text.length
  mem : ∀ j (h : j < text.length), b.mem j = text[j]
  high : b.high ≤ b.wr + 1

theorem contents_of_holds {b : MessageBlock} {text : List UInt8} (h : b.Holds text) :
    b.contents = text := by
  apply List.ext_getElem
  · rw [contents, List.length_map, List.length_range, h.wr]
  · intro j _ hj
    simp only [contents, List.getElem_map, List.getElem_range]
    exact h.mem j hj

@[simp] theorem write_wr (b : MessageBlock) (i : ℕ) (l : List UInt8) : (b.write i l).wr = b.wr := rfl

@[simp] theorem write_size (b : MessageBlock) (i : ℕ) (l : List UInt8) :
    (b.write i l).size = b.size := rfl

theorem write_mem_of_lt {b : MessageBlock} {i j : ℕ} (h : j < i) (l : List UInt8) :
    (b.write i l).mem j = b.mem j := if_neg fun hc => by omega

theorem write_mem_add {b : MessageBlock} {i j : ℕ} {l : List UInt8} (h : j < l.length) :
    (b.write i l).mem (i + j) = l[j] := by
  rw [write]
  simp only [Nat.le_add_right, Nat.add_lt_add_iff_left, h, and_self, if_true,
    Nat.add_sub_cancel_left]
  rw [List.getD_eq_getElem?_getD, List.getElem?_eq_getElem h, Option.getD_some]

theorem write_high_le {b : MessageBlock} {i n : ℕ} {l : List UInt8} (hb : b.high ≤ n)
    (h : i + l.length ≤ n) : (b.write i l).high ≤ n := by
  rw [write]
  dsimp only
  split
  · exact hb
  · exact max_le hb h

/-- To write behind the write position leaves the contents. -/
theorem contents_write (b : MessageBlock) (l : List UInt8) :
    (b.write b.wr l).contents = b.contents := by
  refine List.map_congr_left fun j hj => ?_
  exact write_mem_of_lt (List.mem_range.1 hj) l

theorem le_write_high (b : MessageBlock) (i : ℕ) {l : List UInt8} (hl : l ≠ []) :
    i + l.length ≤ (b.write i l).high := by
  rw [write]
  dsimp only
  rw [if_neg hl]
  exact le_max_right _ _

/-- As long as the write position is in the block, the space is what is left of it. -/
theorem space_of_le {b : MessageBlock} (hsize : b.size < 2 ^ 64) (h : b.wr ≤ b.size) :
    b.space = b.size - b.wr := by
  unfold space
  omega

theorem print_eq (b : MessageBlock) (text : List UInt8) :
    b.print text = { (b.snprintf text).1 with wr := b.wr + text.length } := by
  have hwr : (b.snprintf text).1.wr = b.wr := by
    unfold snprintf
    dsimp only
    split <;> rfl
  unfold print
  cases text with
  | nil =>
    show (b.snprintf []).1 = _
    rw [List.length_nil, Nat.add_zero, ← hwr]
  | cons c text =>
    show ({ (b.snprintf (c :: text)).1 with
      wr := (b.snprintf (c :: text)).1.wr + (c :: text).length } : MessageBlock) = _
    rw [hwr]

@[simp] theorem print_wr (b : MessageBlock) (text : List UInt8) :
    (b.print text).wr = b.wr + text.length := by
  rw [print_eq]

@[simp] theorem print_size (b : MessageBlock) (text : List UInt8) :
    (b.print text).size = b.size := by
  rw [print_eq, snprintf]
  dsimp only
  split <;> rfl

/-- Nothing is written behind the block when the write position is in it. -/
theorem print_high_le {b : MessageBlock} (hsize : b.size < 2 ^ 64) (hwr : b.wr ≤ b.size)
    (hhigh : b.high ≤ b.size) (text : List UInt8) : (b.print text).high ≤ b.size := by
  rw [print_eq, snprintf]
  dsimp only
  split
  · exact hhigh
  · rename_i hspace
    refine write_high_le hhigh ?_
    have hlen : (text.take (b.space - 1) ++ [0]).length ≤ b.space := by
      rw [List.length_append, List.length_take, List.length_singleton]
      omega
    have heq := space_of_le hsize hwr
    omega

/-- A text that fits with the zero after it is held. -/
theorem holds_print {b : MessageBlock} {t t' : List UInt8} (hsize : b.size < 2 ^ 64)
    (h : b.Holds t) (hfit : t.length + t'.length < b.size) : (b.print t').Holds (t ++ t') := by
  have hwr := h.wr
  have hspace := space_of_le hsize (b := b) (by omega)
  have htake : t'.take (b.space - 1) = t' := List.take_of_length_le (by omega)
  have hprint : b.print t' =
      { b.write b.wr (t' ++ [0]) with wr := b.wr + t'.length } := by
    rw [print_eq, snprintf, if_neg (by omega), htake]
  rw [hprint]
  refine ⟨?_, fun j hj => ?_, ?_⟩
  · rw [List.length_append, ← hwr]
  · show (b.write b.wr (t' ++ [0])).mem j = _
    by_cases hlt : j < t.length
    · rw [write_mem_of_lt (by omega), h.mem j hlt, List.getElem_append_left hlt]
    · obtain ⟨k, rfl⟩ : ∃ k, j = b.wr + k := ⟨j - b.wr, by omega⟩
      have hk : k < t'.length := by
        rw [List.length_append] at hj
        omega
      rw [write_mem_add (by simp; omega), List.getElem_append_left hk,
        List.getElem_append_right (by omega)]
      congr 1
      omega
  · have hhigh := h.high
    exact write_high_le (by show b.high ≤ b.wr + t'.length + 1; omega) (by simp; omega)

end MessageBlock

/-! ## The constructor -/

/-- `http::request` and its URL, as far as the constructor reads them. -/
structure Request where
  method : List UInt8
  file : List UInt8
  host : List UInt8
deriving DecidableEq

/-- `std::string::c_str`, as a C string. -/
def cStr (s : List UInt8) : List UInt8 := s.takeWhile (· ≠ 0)

/-- The bytes of a text. -/
def ascii (s : String) : List UInt8 := s.toList.map fun c => UInt8.ofNat c.toNat

namespace Request

/-- What is printed for `"%s %s HTTP/1.0\r\n"`. -/
def line (method file : List UInt8) : List UInt8 :=
  method ++ (ascii " " ++ (file ++ ascii " HTTP/1.0\r\n"))

/-- What is printed for `"Host: %s\r\nConnection: close\r\n\r\n"`. -/
def headers (host : List UInt8) : List UInt8 :=
  ascii "Host: " ++ (host ++ ascii "\r\nConnection: close\r\n\r\n")

/-- The complete request. -/
def text (r : Request) : List UInt8 := line r.method r.file ++ headers r.host

/-- The request as its C strings give it. -/
def cText (r : Request) : List UInt8 :=
  line (cStr r.method) (cStr r.file) ++ headers (cStr r.host)

/-- No string has a zero in it. -/
def NoZero (r : Request) : Prop := 0 ∉ r.method ∧ 0 ∉ r.file ∧ 0 ∉ r.host

instance (r : Request) : Decidable r.NoZero := inferInstanceAs (Decidable (_ ∧ _))

/-- `fetcher_handler::_max_header_size`. -/
def maxHeaderSize : ℕ := 1024

/-- The block as it is allocated. -/
def hdrBlock (mem : ℕ → UInt8) : MessageBlock := { size := maxHeaderSize, mem }

/-- `fetcher_handler::fetcher_handler`: the block, and what is thrown, if it is not queued. `mem` is
what the memory holds before. -/
def construct (mem : ℕ → UInt8) (r : Request) : MessageBlock × Option String :=
  let hdrMb := (hdrBlock mem).print (line (cStr r.method) (cStr r.file))
  let hdrMb := hdrMb.print (headers (cStr r.host))
  if hdrMb.space ≠ 0 then (hdrMb.write hdrMb.wr [0], none)
  else (hdrMb, some "Not enough space in buffer of size 1024 for HTTP header")

/-- The complete request is queued, or the constructor throws; the write position stays in the
block, and nothing is written behind it. -/
def Constructed (r : Request) (b : MessageBlock × Option String) : Prop :=
  (b.2 = none → b.1.contents = r.text) ∧ b.1.wr ≤ b.1.size ∧ b.1.high ≤ b.1.size

theorem cStr_eq_self_iff {s : List UInt8} : cStr s = s ↔ 0 ∉ s := by
  rw [cStr, List.takeWhile_eq_self_iff]
  simp only [decide_eq_true_eq]
  exact ⟨fun h hz => h 0 hz rfl, fun h c hc hz => h (hz ▸ hc)⟩

theorem length_cStr_le (s : List UInt8) : (cStr s).length ≤ s.length :=
  (List.takeWhile_prefix _).length_le

theorem length_cStr_eq_iff {s : List UInt8} : (cStr s).length = s.length ↔ 0 ∉ s := by
  rw [← cStr_eq_self_iff]
  exact ⟨fun h => (List.takeWhile_prefix _).eq_of_length h, fun h => by rw [h]⟩

/-- A zero in a string makes the request shorter. -/
theorem cText_eq_text_iff {r : Request} : r.cText = r.text ↔ r.NoZero := by
  constructor
  · intro h
    have hlen := congrArg List.length h
    have hm := length_cStr_le r.method
    have hf := length_cStr_le r.file
    have hh := length_cStr_le r.host
    simp only [cText, text, line, headers, List.length_append] at hlen
    refine ⟨?_, ?_, ?_⟩
    all_goals
      rw [← length_cStr_eq_iff]
      omega
  · rintro ⟨hm, hf, hh⟩
    rw [cText, text, cStr_eq_self_iff.2 hm, cStr_eq_self_iff.2 hf, cStr_eq_self_iff.2 hh]

/-- The block after both calls. -/
def printed (mem : ℕ → UInt8) (r : Request) : MessageBlock :=
  ((hdrBlock mem).print (line (cStr r.method) (cStr r.file))).print (headers (cStr r.host))

theorem size_hdrBlock (mem : ℕ → UInt8) : (hdrBlock mem).size < 2 ^ 64 := by
  show maxHeaderSize < 2 ^ 64
  decide

theorem printed_wr (mem : ℕ → UInt8) (r : Request) :
    (printed mem r).wr = r.cText.length ∧ (printed mem r).size = maxHeaderSize := by
  simp [printed, hdrBlock, cText]

theorem construct_wr (mem : ℕ → UInt8) (r : Request) :
    (construct mem r).1.wr = r.cText.length ∧ (construct mem r).1.size = maxHeaderSize := by
  rw [← (printed_wr mem r).1, ← (printed_wr mem r).2]
  unfold construct
  dsimp only
  split <;> exact ⟨rfl, rfl⟩

/-- A request that fits with the zero after it is queued. -/
theorem construct_of_lt (mem : ℕ → UInt8) {r : Request} (h : r.cText.length < maxHeaderSize) :
    (construct mem r).2 = none ∧ (construct mem r).1.contents = r.cText ∧
      (construct mem r).1.high ≤ maxHeaderSize := by
  obtain ⟨hwr, hsize⟩ := printed_wr mem r
  have hlen : (line (cStr r.method) (cStr r.file)).length + (headers (cStr r.host)).length <
      maxHeaderSize := by
    rwa [cText, List.length_append] at h
  have hempty : (hdrBlock mem).Holds [] :=
    ⟨rfl, fun _ hj => absurd hj (Nat.not_lt_zero _), Nat.zero_le _⟩
  have hline : ((hdrBlock mem).print (line (cStr r.method) (cStr r.file))).Holds
      (line (cStr r.method) (cStr r.file)) := by
    refine MessageBlock.holds_print (size_hdrBlock mem) hempty ?_
    show 0 + (line (cStr r.method) (cStr r.file)).length < maxHeaderSize
    omega
  have hholds : (printed mem r).Holds r.cText := by
    refine MessageBlock.holds_print ?_ hline ?_
    · rw [MessageBlock.print_size]
      exact size_hdrBlock mem
    · rw [MessageBlock.print_size]
      exact hlen
  have hspace : (printed mem r).space ≠ 0 := by
    rw [MessageBlock.space_of_le (by rw [hsize]; decide) (by omega)]
    omega
  have heq : construct mem r = ((printed mem r).write (printed mem r).wr [0], none) :=
    if_pos hspace
  rw [heq]
  refine ⟨rfl, ?_, ?_⟩
  · rw [MessageBlock.contents_write]
    exact MessageBlock.contents_of_holds hholds
  · have hhigh := hholds.high
    exact MessageBlock.write_high_le (by omega) (by simp only [List.length_singleton]; omega)

/-- A request that fits but for the zero is refused. -/
theorem construct_of_eq (mem : ℕ → UInt8) {r : Request} (h : r.cText.length = maxHeaderSize) :
    (construct mem r).2 ≠ none ∧ (construct mem r).1.high ≤ maxHeaderSize := by
  obtain ⟨hwr, hsize⟩ := printed_wr mem r
  have hspace : ¬ (printed mem r).space ≠ 0 := by
    rw [MessageBlock.space_of_le (by rw [hsize]; decide) (by omega)]
    omega
  have heq : construct mem r = (printed mem r, _) := if_neg hspace
  have hline : (line (cStr r.method) (cStr r.file)).length ≤ maxHeaderSize := by
    rw [← h, cText, List.length_append]
    exact Nat.le_add_right _ _
  have hfirst := MessageBlock.print_high_le (size_hdrBlock mem) (Nat.zero_le _) (Nat.zero_le _)
    (line (cStr r.method) (cStr r.file))
  have hsecond : (printed mem r).high ≤
      ((hdrBlock mem).print (line (cStr r.method) (cStr r.file))).size := by
    refine MessageBlock.print_high_le ?_ ?_ ?_ _
    · rw [MessageBlock.print_size]
      exact size_hdrBlock mem
    · rw [MessageBlock.print_wr, MessageBlock.print_size]
      show 0 + (line (cStr r.method) (cStr r.file)).length ≤ maxHeaderSize
      omega
    · rw [MessageBlock.print_size]
      exact hfirst
  rw [MessageBlock.print_size] at hsecond
  rw [heq]
  exact ⟨Option.some_ne_none _, hsecond⟩

/-- A longer request is queued, with a zero written behind the block. -/
theorem construct_of_gt (mem : ℕ → UInt8) {r : Request} (h : maxHeaderSize < r.cText.length)
    (hlt : r.cText.length < 2 ^ 64) :
    (construct mem r).2 = none ∧ maxHeaderSize < (construct mem r).1.wr ∧
      maxHeaderSize < (construct mem r).1.high := by
  obtain ⟨hwr, hsize⟩ := printed_wr mem r
  have hspace : (printed mem r).space ≠ 0 := by
    unfold MessageBlock.space
    rw [hwr, hsize]
    omega
  have heq : construct mem r = ((printed mem r).write (printed mem r).wr [0], none) :=
    if_pos hspace
  have hhigh := (printed mem r).le_write_high (printed mem r).wr (List.cons_ne_nil (0 : UInt8) [])
  rw [heq]
  refine ⟨rfl, ?_, ?_⟩
  · rw [MessageBlock.write_wr]
    omega
  · rw [List.length_singleton] at hhigh
    exact lt_of_lt_of_le (by omega) hhigh

/-- **The request of a fetch.** The constructor queues the complete request or throws, and writes
into the block only, exactly when the request as its C strings give it has at most 1024 bytes, and
no string has a zero in it if it has fewer. -/
theorem constructed_iff (mem : ℕ → UInt8) (r : Request) :
    r.Constructed (construct mem r) ↔
      r.cText.length ≤ maxHeaderSize ∧ (r.cText.length < maxHeaderSize → r.NoZero) := by
  obtain ⟨hwr, hsize⟩ := construct_wr mem r
  unfold Constructed
  rw [hwr, hsize]
  rcases Nat.lt_trichotomy r.cText.length maxHeaderSize with hlt | heq | hgt
  · obtain ⟨hqueued, hcontents, hhigh⟩ := construct_of_lt mem hlt
    rw [hcontents, cText_eq_text_iff]
    simp only [hqueued, forall_const, hlt.le, hhigh, and_true, true_and, hlt]
  · obtain ⟨hthrown, hhigh⟩ := construct_of_eq mem heq
    simp only [hthrown, false_implies, heq, le_refl, hhigh, lt_irrefl, and_self]
  · exact iff_of_false (fun h => absurd h.2.1 (by omega)) (fun h => absurd h.1 (by omega))

/-- The request of a file with a name of 1100 bytes. -/
def longRequest : Request := ⟨ascii "GET", List.replicate 1100 97, ascii "revoltzone.net"⟩

/-- It is queued, though it does not fit: the write position is behind the block, and so is the last
byte that was written. -/
theorem not_constructed_of_long :
    (construct (fun _ => 0) longRequest).2 = none ∧
      maxHeaderSize < (construct (fun _ => 0) longRequest).1.wr ∧
      maxHeaderSize < (construct (fun _ => 0) longRequest).1.high := by
  have hfile : cStr (List.replicate 1100 97) = List.replicate 1100 97 :=
    cStr_eq_self_iff.2 fun h => absurd (List.eq_of_mem_replicate h) (by decide)
  have hline : ∀ l : List UInt8, (line (cStr (ascii "GET")) l).length = 3 + (1 + (l.length + 11)) := by
    intro l
    simp only [line, List.length_append]
    rfl
  have hheaders : (headers (cStr (ascii "revoltzone.net"))).length = 43 := by decide
  have hlen : longRequest.cText.length = 1158 := by
    rw [cText, longRequest]
    dsimp only
    rw [List.length_append, hfile, hline, hheaders, List.length_replicate]
  exact construct_of_gt _ (by rw [hlen]; decide) (by rw [hlen]; decide)

end Request

end RvHouse
