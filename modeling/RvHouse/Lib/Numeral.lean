import Mathlib.Data.List.Basic
import Mathlib.Data.UInt
import Mathlib.Order.Basic

/-!
# Numerals

Digits of a number in a base up to 16, most significant first, as printed by `Nat.toDigits`, and its
bytes, least significant first. `ofDigits_toDigits` and `ofLeBytes_leBytes` read back what is
written. A `Literal` is a number below a bound as somebody wrote it, with any zeros in front.
-/

namespace Numeral

/-! ## Digits -/

/-- The value of a digit; 16 for what is none. -/
def digitValue (c : Char) : ℕ :=
  if '0' ≤ c ∧ c ≤ '9' then c.toNat - 48
  else if 'a' ≤ c ∧ c ≤ 'f' then c.toNat - 87
  else if 'A' ≤ c ∧ c ≤ 'F' then c.toNat - 55
  else 16

/-- A digit of the base. -/
def isDigit (b : ℕ) (c : Char) : Bool := digitValue c < b

/-- The number with these digits. -/
def ofDigits (b : ℕ) (l : List Char) : ℕ := l.foldl (fun v c => b * v + digitValue c) 0

theorem digitValue_digitChar {d : ℕ} (h : d < 16) : digitValue d.digitChar = d := by
  have hall : ∀ d : Fin 16, digitValue (Nat.digitChar d) = d := by decide
  exact hall ⟨d, h⟩

theorem ofDigits_concat (b : ℕ) (l : List Char) (c : Char) :
    ofDigits b (l ++ [c]) = b * ofDigits b l + digitValue c := by
  simp [ofDigits]

variable {b : ℕ}

theorem ofDigits_toDigits (hb : 1 < b) (h16 : b ≤ 16) (n : ℕ) :
    ofDigits b (Nat.toDigits b n) = n := by
  induction n using Nat.strong_induction_on with
  | _ n ih =>
    rw [Nat.toDigits_eq_if hb]
    split
    · rename_i hlt
      simp [ofDigits, digitValue_digitChar (hlt.trans_le h16)]
    · rename_i hge
      have hmod : n % b < b := Nat.mod_lt n (by omega)
      rw [ofDigits_concat, ih (n / b) (Nat.div_lt_self (by omega) hb),
        digitValue_digitChar (hmod.trans_le h16)]
      exact Nat.div_add_mod n b

theorem isDigit_of_mem_toDigits (hb : 1 < b) (h16 : b ≤ 16) {n : ℕ} {c : Char}
    (hc : c ∈ Nat.toDigits b n) : isDigit b c = true := by
  induction n using Nat.strong_induction_on with
  | _ n ih =>
    have hdigit : ∀ d, d < b → isDigit b d.digitChar = true := by
      intro d hd
      simpa [isDigit, digitValue_digitChar (hd.trans_le h16)] using hd
    rw [Nat.toDigits_eq_if hb] at hc
    split at hc
    · rename_i hlt
      rw [List.mem_singleton.1 hc]
      exact hdigit n hlt
    · rename_i hge
      rcases List.mem_append.1 hc with hc | hc
      · exact ih (n / b) (Nat.div_lt_self (by omega) hb) hc
      · rw [List.mem_singleton.1 hc]
        exact hdigit _ (Nat.mod_lt n (by omega))

/-- Zeros in front do not count. -/
theorem ofDigits_leftpad (k : ℕ) (l : List Char) :
    ofDigits b (l.leftpad k '0') = ofDigits b l := by
  have hzeros : ∀ m, (List.replicate m '0').foldl (fun v c => b * v + digitValue c) 0 = 0 := by
    intro m
    induction m with
    | zero => rfl
    | succ m ih => simpa [List.replicate_succ, digitValue] using ih
  rw [List.leftpad, ofDigits, List.foldl_append, hzeros]
  rfl

theorem isDigit_of_mem_leftpad (hb : 0 < b) {k : ℕ} {l : List Char}
    (h : ∀ c ∈ l, isDigit b c = true) {c : Char} (hc : c ∈ l.leftpad k '0') :
    isDigit b c = true := by
  rcases List.mem_append.1 hc with hc | hc
  · rw [List.eq_of_mem_replicate hc]
    simpa [isDigit, digitValue] using hb
  · exact h c hc

/-- So many digits make no more than so many. -/
theorem ofDigits_lt {l : List Char} (hl : ∀ c ∈ l, isDigit b c = true) :
    ofDigits b l < b ^ l.length := by
  induction l using List.reverseRecOn with
  | nil => exact Nat.one_pos
  | append_singleton l c ih =>
    have hc : digitValue c < b := by
      simpa [isDigit] using hl c (by simp)
    have hlt := ih fun d hd => hl d (by simp [hd])
    have hmul : b * (ofDigits b l + 1) ≤ b * b ^ l.length := Nat.mul_le_mul_left b hlt
    rw [ofDigits_concat, List.length_append, List.length_singleton, pow_succ, mul_comm _ b]
    rw [mul_add_one] at hmul
    omega

/-! ## Literals -/

/-- A number below a bound, in digits of a base. -/
structure Literal (b bound : ℕ) where
  digits : List Char
  digits_ne : digits ≠ []
  isDigit_digits : ∀ c ∈ digits, isDigit b c = true
  lt_bound : ofDigits b digits < bound

/-- The number. -/
def Literal.value {bound : ℕ} (n : Literal b bound) : ℕ := ofDigits b n.digits

/-! ## Bytes -/

/-- The low `k` bytes of a number. -/
def leBytes : ℕ → ℕ → List UInt8
  | 0, _ => []
  | k + 1, n => UInt8.ofNat n :: leBytes k (n / 256)

/-- The number with these bytes. -/
def ofLeBytes : List UInt8 → ℕ
  | [] => 0
  | b :: l => b.toNat + 256 * ofLeBytes l

@[simp] theorem length_leBytes (k n : ℕ) : (leBytes k n).length = k := by
  induction k generalizing n with
  | zero => rfl
  | succ k ih => simp [leBytes, ih]

theorem ofLeBytes_leBytes {k n : ℕ} (h : n < 256 ^ k) : ofLeBytes (leBytes k n) = n := by
  induction k generalizing n with
  | zero =>
    rw [pow_zero, Nat.lt_one_iff] at h
    rw [h]
    rfl
  | succ k ih =>
    have hdiv : n / 256 < 256 ^ k := by
      rw [pow_succ] at h
      exact Nat.div_lt_of_lt_mul (by rwa [mul_comm] at h)
    rw [leBytes, ofLeBytes, ih hdiv, UInt8.toNat_ofNat']
    exact Nat.mod_add_div n 256

theorem ofLeBytes_lt (l : List UInt8) : ofLeBytes l < 256 ^ l.length := by
  induction l with
  | nil => exact Nat.one_pos
  | cons b l ih =>
    have hb := b.toNat_lt
    rw [ofLeBytes, List.length_cons, pow_succ]
    omega

theorem leBytes_ofLeBytes (l : List UInt8) : leBytes l.length (ofLeBytes l) = l := by
  induction l with
  | nil => rfl
  | cons b l ih =>
    have hb := b.toNat_lt
    have hdiv : (b.toNat + 256 * ofLeBytes l) / 256 = ofLeBytes l := by omega
    have hbyte : UInt8.ofNat (b.toNat + 256 * ofLeBytes l) = b := by
      apply UInt8.toNat.inj
      rw [UInt8.toNat_ofNat']
      omega
    rw [List.length_cons, leBytes, ofLeBytes, hdiv, hbyte, ih]

/-- So many bytes, made a number of so many bytes. -/
theorem leBytes_mod {k : ℕ} {l : List UInt8} (hl : l.length = k) :
    leBytes k (ofLeBytes l % 256 ^ k) = l := by
  subst hl
  rw [Nat.mod_eq_of_lt (ofLeBytes_lt l)]
  exact leBytes_ofLeBytes l

end Numeral
