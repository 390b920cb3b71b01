import RvHouse.Kadc.Util
import Mathlib.Data.List.TakeWhile
import Mathlib.Tactic.FinCases

/-!
# The line of a contact

A `ContactLine` is a line of the section `[overnet_peers]` as it is meant to be: 32 hexadecimal
digits, the address, the UDP port and the type, with a space between each and the next. `text` is
what stands there and `contact` what it says. `scanContact_text`: the parse finds that contact,
whatever the variables held before. It takes the line field by field, and so do the lemmas.
-/

namespace RvHouse

namespace Kadc

open Numeral

/-! ## Numbers in bytes -/

/-- The bytes of a number that was made of four bytes. -/
theorem leBytes_uint32 {l : List UInt8} (hl : l.length = 4) :
    leBytes 4 (UInt32.ofNat (ofLeBytes l)).toNat = l := by
  rw [UInt32.toNat_ofNat']
  exact leBytes_mod hl

theorem changeLongEndianity_reverse {l : List UInt8} (hl : l.length = 4) :
    changeLongEndianity (UInt32.ofNat (ofLeBytes l.reverse)) = UInt32.ofNat (ofLeBytes l) := by
  rw [changeLongEndianity, leBytes_uint32 (List.length_reverse.trans hl), List.reverse_reverse]

/-! ## Fields -/

section Fields

variable (u : Uninit)

theorem assertChar_cons (what : Char) (rest : List Char) :
    assertChar u what ⟨what :: rest, true⟩ = some ⟨rest, true⟩ := by
  simp [assertChar, Istream.read]

theorem toUnsigned_of_lt {bits n : ℕ} (h : n < 2 ^ bits) :
    Istream.toUnsigned bits false n = (n, true) := by
  rw [Istream.toUnsigned, if_neg (by omega)]
  rfl

theorem toSigned_of_lt {bits n : ℕ} (h : n < 2 ^ (bits - 1)) :
    Istream.toSigned bits false n = ((n : Int), true) := by
  rw [Istream.toSigned, if_neg Bool.false_ne_true, if_neg (by exact_mod_cast h.not_ge)]

theorem uint8_ofInt_natCast (n : ℕ) : UInt8.ofInt n = UInt8.ofNat n := by
  have hmod : ((n : Int) % 2 ^ 8).toNat = n % UInt8.size := by
    rw [UInt8.size]
    omega
  rw [UInt8.ofInt, hmod, UInt8.ofNat_mod_size]

/-- A word of the hash is its eight digits, which end the buffer. -/
theorem scanHash_digits {l : List Char} (hlen : l.length = 8)
    (hl : ∀ c ∈ l, isDigit 16 c = true) (rest : List Char) :
    scanHash u ⟨l ++ rest, true⟩ = (UInt32.ofNat (ofDigits 16 l), ⟨rest, true⟩) := by
  have hread : (⟨l ++ rest, true⟩ : Istream).read 8 = (l, ⟨rest, true⟩) := by
    rw [← hlen]
    exact Istream.read_append l rest
  have hbuf : ((l ++ u.buf.drop l.length).take 8).takeWhile (· ≠ Char.ofNat 0) = l := by
    have hnonzero : ∀ c ∈ l, decide (c ≠ Char.ofNat 0) = true := fun c hc =>
      decide_eq_true (Istream.ne_of_isDigit le_rfl (hl c hc) (by decide))
    rw [List.take_append_of_le_length hlen.ge, ← hlen, List.take_length]
    exact List.takeWhile_eq_self_iff.2 hnonzero
  have hend : ∀ c ∈ ([] : List Char).head?, isDigit 16 c = false := by simp
  have hdigits := Istream.extract_digits (Istream.toUnsigned 32) le_rfl
    (List.ne_nil_of_length_eq_add_one hlen) hl hend (fun _ => rfl)
  have hlt : ofDigits 16 l < 2 ^ 32 := by
    have h := ofDigits_lt hl
    rwa [hlen] at h
  rw [List.append_nil, toUnsigned_of_lt hlt] at hdigits
  simp only [scanHash, hread, hbuf, hdigits, Option.getD_some]

variable {bound : ℕ}

/-- A number in decimals before a character that is no digit. -/
theorem extract_literal {α : Type*} (conv : Bool → ℕ → α × Bool) (n : Literal 10 bound)
    {rest : List Char} (hrest : ∀ c ∈ rest.head?, isDigit 10 c = false) :
    Istream.extract 10 conv ⟨n.digits ++ rest, true⟩ =
      (some (conv false n.value).1, ⟨rest, (conv false n.value).2 && !rest.isEmpty⟩) :=
  Istream.extract_digits conv (by decide) n.digits_ne n.isDigit_digits hrest
    (fun h => absurd h (by decide))

theorem scanOctet_literal (n : Literal 10 256) {c : Char} (hc : isDigit 10 c = false)
    (rest : List Char) :
    scanOctet u ⟨n.digits ++ c :: rest, true⟩ = (UInt8.ofNat n.value, ⟨c :: rest, true⟩) := by
  have hlt : n.value < 2 ^ 32 := n.lt_bound.trans (by decide)
  have hrest : ∀ d ∈ (c :: rest).head?, isDigit 10 d = false := by
    rintro d ⟨⟩
    exact hc
  rw [scanOctet, extract_literal _ _ hrest, toUnsigned_of_lt hlt]
  simp

end Fields

/-! ## Addresses -/

/-- An address as four numbers with dots between. -/
def dottedText (ip : Fin 4 → Literal 10 256) : List Char :=
  (ip 0).digits ++ '.' :: ((ip 1).digits ++ '.' :: ((ip 2).digits ++ '.' :: (ip 3).digits))

/-- The bytes of an address, the first of its numbers first. -/
def octets (ip : Fin 4 → Literal 10 256) : List UInt8 :=
  (List.finRange 4).map fun j => UInt8.ofNat (ip j).value

theorem scanIp_dottedText (u : Uninit) (ip : Fin 4 → Literal 10 256) (rest : List Char) :
    scanIp u ⟨dottedText ip ++ ' ' :: rest, true⟩ =
      some (UInt32.ofNat (ofLeBytes (octets ip).reverse), ⟨' ' :: rest, true⟩) := by
  have hdot : isDigit 10 '.' = false := by decide
  have hspace : isDigit 10 ' ' = false := by decide
  simp only [scanIp, dottedText, List.append_assoc, List.cons_append, scanOctet_literal u _ hdot,
    scanOctet_literal u _ hspace, assertChar_cons, Option.bind_eq_bind, Option.bind_some]
  rfl

/-! ## Lines -/

/-- A well-formed line of a contact: eight digits for each word of the hash, an address, a port of
16 bits and a type that is an `int`. -/
structure ContactLine where
  hash : Fin 4 → Literal 16 (2 ^ 32)
  length_hash : ∀ j, (hash j).digits.length = 8
  ip : Fin 4 → Literal 10 256
  udpport : Literal 10 (2 ^ 16)
  type : Literal 10 (2 ^ 31)

namespace ContactLine

/-- The line. -/
def text (l : ContactLine) : List Char :=
  (List.finRange 4).flatMap (fun j => (l.hash j).digits) ++ ' ' ::
    (dottedText l.ip ++ ' ' :: (l.udpport.digits ++ ' ' :: l.type.digits))

/-- The contact that it says; of the type one byte is kept. -/
def contact (l : ContactLine) : Contact where
  id j := UInt32.ofNat (l.hash j).value
  binip := UInt32.ofNat (ofLeBytes (octets l.ip))
  udpport := UInt16.ofNat l.udpport.value
  type := UInt8.ofNat l.type.value

variable (l : ContactLine)

/-- **A well-formed line is read.** -/
theorem scanContact_text (u : Uninit) : scanContact u l.text = some l.contact := by
  have hhash : l.text = (l.hash 0).digits ++ ((l.hash 1).digits ++ ((l.hash 2).digits ++
      ((l.hash 3).digits ++ ' ' :: (dottedText l.ip ++ ' ' ::
        (l.udpport.digits ++ ' ' :: l.type.digits))))) := by
    simp [text, List.finRange_succ]
  have hword : ∀ j rest, scanHash u ⟨(l.hash j).digits ++ rest, true⟩ =
      (UInt32.ofNat (l.hash j).value, ⟨rest, true⟩) := fun j =>
    scanHash_digits u (l.length_hash j) (l.hash j).isDigit_digits
  have hspace : ∀ c ∈ (' ' :: l.type.digits).head?, isDigit 10 c = false := by
    rintro c ⟨⟩
    decide
  have hend : ∀ c ∈ ([] : List Char).head?, isDigit 10 c = false := by simp
  have htype := extract_literal (Istream.toSigned 32) l.type hend
  have hint : Istream.toSigned 32 false l.type.value = ((l.type.value : Int), true) :=
    toSigned_of_lt l.type.lt_bound
  have hport : Istream.toUnsigned 16 false l.udpport.value = (l.udpport.value, true) :=
    toUnsigned_of_lt l.udpport.lt_bound
  rw [List.append_nil, hint] at htype
  simp only [scanContact, hhash, hword, assertChar_cons, scanIp_dottedText,
    extract_literal _ _ hspace, hport, Option.bind_eq_bind, Option.bind_some, List.isEmpty_cons,
    Bool.not_false, Bool.and_self, htype, Option.getD_some,
    changeLongEndianity_reverse (l := octets l.ip) rfl, uint8_ofInt_natCast]
  have hid : (![UInt32.ofNat (l.hash 0).value, UInt32.ofNat (l.hash 1).value,
      UInt32.ofNat (l.hash 2).value, UInt32.ofNat (l.hash 3).value] : Fin 4 → UInt32) =
        l.contact.id := by
    funext j
    fin_cases j <;> rfl
  rw [hid]
  rfl

/-- A line begins with a digit. -/
theorem exists_text_eq_cons : ∃ c rest, l.text = c :: rest ∧ isDigit 16 c = true := by
  obtain ⟨c, ds, hds⟩ := List.exists_cons_of_ne_nil (l.hash 0).digits_ne
  have hc : isDigit 16 c = true := (l.hash 0).isDigit_digits c (by simp [hds])
  exact ⟨c, _, by rw [text, List.finRange_succ, List.flatMap_cons, hds]; rfl, hc⟩

theorem head?_text_ne {c : Char} (hc : digitValue c = 16) : l.text.head? ≠ some c := by
  obtain ⟨d, rest, htext, hd⟩ := l.exists_text_eq_cons
  rw [htext, List.head?_cons, Ne, Option.some_inj]
  exact Istream.ne_of_isDigit le_rfl hd hc

end ContactLine

end Kadc

end RvHouse
