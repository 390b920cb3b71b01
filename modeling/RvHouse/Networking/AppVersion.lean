import RvHouse.Lib.Numeral
import RvHouse.Parser.Validation
import Mathlib.Data.Nat.Bitwise
import Mathlib.Data.Prod.Lex
import Mathlib.Order.Compare

/-!
# Version numbers

`app_version_compare` reads two version numbers with a regular expression, packs the three parts of
each into the bytes of an unsigned integer and returns the difference as a signed one. A version
(`Version`) is what its comment allows: two or three decimal parts of at most 255.

`compare_sign` says that on versions the sign of the result is that of the lexicographic comparison.
-/

namespace RvHouse

open Numeral

/-! ## The comparison -/

/-- `atoi` of a capture, which has digits only; what it gives for a number that does not fit is
undefined, and here it wraps round. -/
def atoi (s : List Char) : Int32 := Int32.ofNat (ofDigits 10 s)

/-- `[0-9]+`. -/
def numberRun : Run Char := ⟨isDigit 10, 1, none⟩

/-- The array that `app_version_to_arr` fills. -/
structure VersionArr where
  major : Int32 := 0
  minor : Int32 := 0
  patch : Int32 := 0
deriving DecidableEq

/-- `app_version_to_arr`, which searches for `([0-9]+)\.([0-9]+)(\.([0-9]+))?`. -/
def appVersionToArr (s : List UInt8) : VersionArr :=
  match Run.searchThen (Run.maybe [.lit '.', numberRun]) [numberRun, .lit '.', numberRun]
      (latin1 s) with
  | some [major, _, minor, _, patch] =>
    { major := atoi major, minor := atoi minor, patch := atoi patch }
  | some [major, _, minor] => { major := atoi major, minor := atoi minor }
  | _ => {}

/-- The parts in the bytes of an integer. -/
def VersionArr.packed (v : VersionArr) : UInt32 :=
  (v.major <<< 16 ||| v.minor <<< 8 ||| v.patch).toUInt32

/-- `app_version_compare`. -/
def appVersionCompare (a b : List UInt8) : Int32 :=
  ((appVersionToArr a).packed - (appVersionToArr b).packed).toInt32

/-! ## Versions -/

/-- A version `major.minor[.patch]`, its parts as they are written. -/
structure Version where
  major : Literal 10 256
  minor : Literal 10 256
  patch : Option (Literal 10 256) := none

namespace Version

/-- The number of the patch, 0 when it is missing. -/
def patchValue (v : Version) : ℕ := (v.patch.map Literal.value).getD 0

/-- What versions are ordered by. -/
def key (v : Version) : ℕ ×ₗ ℕ ×ₗ ℕ := toLex (v.major.value, toLex (v.minor.value, v.patchValue))

/-- The text of a patch. -/
def patchText : Option (Literal 10 256) → List Char
  | none => []
  | some p => '.' :: p.digits

/-- The text. -/
def text (v : Version) : List Char := v.major.digits ++ '.' :: (v.minor.digits ++ patchText v.patch)

/-- The text as a C string. -/
def cStr (v : Version) : List UInt8 := v.text.map fun c => UInt8.ofNat c.toNat

/-! ## What is read -/

/-- A decimal digit is no other character of a version. -/
theorem toNat_of_isDigit {c : Char} (h : isDigit 10 c = true) : 48 ≤ c.toNat ∧ c.toNat ≤ 57 := by
  have hvalue : digitValue c < 10 := of_decide_eq_true h
  have hle : ∀ d e : Char, d ≤ e ↔ d.toNat ≤ e.toNat := fun d e => UInt32.le_iff_toNat_le
  simp only [digitValue, hle] at hvalue
  split_ifs at hvalue with h₁ h₂ h₃
  · exact h₁
  · exact absurd h₂.1 (by change ¬ 97 ≤ c.toNat; omega)
  · exact absurd h₃.1 (by change ¬ 65 ≤ c.toNat; omega)
  · omega

theorem latin1_cStr (v : Version) : latin1 v.cStr = v.text := by
  refine latin1_map_ofNat fun c hc => ?_
  have hdigit : ∀ n : Literal 10 256, ∀ d ∈ n.digits, 0 < d.toNat ∧ d.toNat < 256 := by
    intro n d hd
    have hrange := toNat_of_isDigit (n.isDigit_digits d hd)
    omega
  have hdot : 0 < '.'.toNat ∧ '.'.toNat < 256 := by decide
  rw [text, List.mem_append, List.mem_cons, List.mem_append] at hc
  rcases hc with hc | rfl | hc | hc
  · exact hdigit _ c hc
  · exact hdot
  · exact hdigit _ c hc
  · cases hpatch : v.patch with
    | none =>
      rw [hpatch] at hc
      cases hc
    | some p =>
      rw [hpatch, patchText, List.mem_cons] at hc
      rcases hc with rfl | hc
      · exact hdot
      · exact hdigit p c hc

/-- The digits of a part are a run of the pattern. -/
theorem of_digits (n : Literal 10 256) : numberRun.Of n.digits :=
  ⟨n.isDigit_digits, List.length_pos_iff.2 n.digits_ne, by simp [numberRun]⟩

/-- The pieces that the pattern gives for a patch. -/
def patchPieces : Option (Literal 10 256) → List (List Char)
  | none => []
  | some p => [['.'], p.digits]

theorem maybe_patchText (patch : Option (Literal 10 256)) :
    Run.maybe [.lit '.', numberRun] (patchText patch) = some (patchPieces patch) := by
  cases patch with
  | none => rfl
  | some p =>
    have htake : p.digits.takeWhile numberRun.ok = p.digits :=
      List.takeWhile_eq_self_iff.2 p.isDigit_digits
    have hdigits : Run.matchAt [numberRun] p.digits = some [p.digits] := by
      rw [Run.matchAt_last rfl (by rw [htake]; exact (of_digits p).min), htake]
    rw [Run.maybe, patchText, Run.matchAt_lit hdigits]
    rfl

/-- The parts of a version are found. -/
theorem search_text (v : Version) :
    Run.searchThen (Run.maybe [.lit '.', numberRun]) [numberRun, .lit '.', numberRun] v.text =
      some (v.major.digits :: ['.'] :: v.minor.digits :: patchPieces v.patch) := by
  have hdot : ∀ l : List Char, ∀ c ∈ ('.' :: l).head?, numberRun.ok c = false := by
    rintro l c ⟨⟩
    decide
  have hpatch : ∀ c ∈ (patchText v.patch).head?, numberRun.ok c = false := by
    cases v.patch with
    | none => simp [patchText]
    | some p => exact hdot _
  apply Run.searchThen_of_matchThen
  refine Run.matchThen_append (of_digits v.major) (.inr (hdot _)) (Run.matchThen_lit ?_)
  exact Run.matchThen_append (of_digits v.minor) (.inr hpatch) (maybe_patchText v.patch)

theorem appVersionToArr_cStr (v : Version) :
    appVersionToArr v.cStr =
      { major := Int32.ofNat v.major.value, minor := Int32.ofNat v.minor.value,
        patch := Int32.ofNat v.patchValue } := by
  rw [appVersionToArr, latin1_cStr, search_text, patchValue]
  cases v.patch <;> rfl

/-! ## What is compared -/

theorem value_lt (n : Literal 10 256) : n.value < 256 := n.lt_bound

theorem patchValue_lt (v : Version) : v.patchValue < 256 := by
  unfold patchValue
  cases v.patch with
  | none => exact Nat.zero_lt_succ _
  | some p => exact value_lt p

/-- The number in whose bytes the parts are. -/
def number (v : Version) : ℕ := (v.major.value * 256 + v.minor.value) * 256 + v.patchValue

theorem number_lt (v : Version) : v.number < 2 ^ 24 := by
  have hmajor := value_lt v.major
  have hminor := value_lt v.minor
  have hpatch := v.patchValue_lt
  unfold number
  omega

/-- The bytes do not meet. -/
theorem toNat_packed {n m p : ℕ} (hn : n < 256) (hm : m < 256) (hp : p < 256) :
    (VersionArr.packed ⟨Int32.ofNat n, Int32.ofNat m, Int32.ofNat p⟩).toNat =
      (n * 256 + m) * 256 + p := by
  have hbits : (VersionArr.packed ⟨Int32.ofNat n, Int32.ofNat m, Int32.ofNat p⟩).toNat =
      (n % 2 ^ 32) <<< 16 % 2 ^ 32 ||| (m % 2 ^ 32) <<< 8 % 2 ^ 32 ||| p % 2 ^ 32 := by
    rw [← UInt32.toNat_toBitVec]
    simp [VersionArr.packed]
  have hfit : (n % 2 ^ 32) <<< 16 % 2 ^ 32 = (n <<< 8) <<< 8 ∧
      (m % 2 ^ 32) <<< 8 % 2 ^ 32 = m <<< 8 ∧ p % 2 ^ 32 = p := by
    simp only [Nat.shiftLeft_eq]
    omega
  rw [hbits, hfit.1, hfit.2.1, hfit.2.2, ← Nat.shiftLeft_or_distrib,
    ← Nat.shiftLeft_add_eq_or_of_lt (i := 8) hm, ← Nat.shiftLeft_add_eq_or_of_lt (i := 8) hp,
    Nat.shiftLeft_eq, Nat.shiftLeft_eq]

/-- A difference of numbers that are not too large, read as a signed integer. -/
theorem toInt_toInt32_sub {x y : UInt32} (hx : x.toNat < 2 ^ 31) (hy : y.toNat < 2 ^ 31) :
    (x - y).toInt32.toInt = x.toNat - y.toNat := by
  show (x.toBitVec - y.toBitVec).toInt = x.toNat - y.toNat
  rw [BitVec.toInt_sub, BitVec.toInt_eq_toNat_of_lt, BitVec.toInt_eq_toNat_of_lt]
  · show Int.bmod ((x.toNat : Int) - y.toNat) (2 ^ 32) = _
    exact Int.bmod_eq_of_le (by omega) (by omega)
  · show 2 * y.toNat < 2 ^ 32
    omega
  · show 2 * x.toNat < 2 ^ 32
    omega

theorem appVersionCompare_cStr (v w : Version) :
    (appVersionCompare v.cStr w.cStr).toInt = v.number - w.number := by
  have hpacked : ∀ v : Version, (appVersionToArr v.cStr).packed.toNat = v.number := by
    intro v
    rw [appVersionToArr_cStr]
    exact toNat_packed (value_lt _) (value_lt _) v.patchValue_lt
  have hsmall : ∀ v : Version, (appVersionToArr v.cStr).packed.toNat < 2 ^ 31 := by
    intro v
    rw [hpacked]
    exact v.number_lt.trans (by decide)
  rw [appVersionCompare, toInt_toInt32_sub (hsmall v) (hsmall w), hpacked, hpacked]

/-- Numbers with a lowest digit are ordered by what is above it, then by the digit. -/
theorem mul_add_lt_mul_add_iff {n a b c d : ℕ} (hb : b < n) (hd : d < n) :
    a * n + b < c * n + d ↔ a < c ∨ a = c ∧ b < d := by
  rcases lt_trichotomy a c with h | rfl | h
  · have hmul := Nat.mul_le_mul_right n h
    rw [Nat.succ_mul] at hmul
    exact iff_of_true (by omega) (.inl h)
  · simp
  · have hmul := Nat.mul_le_mul_right n h
    rw [Nat.succ_mul] at hmul
    exact iff_of_false (by omega) (by omega)

/-- The numbers are in the order of the versions. -/
theorem number_lt_number_iff (v w : Version) : v.number < w.number ↔ v.key < w.key := by
  rw [number, number, mul_add_lt_mul_add_iff v.patchValue_lt w.patchValue_lt,
    mul_add_lt_mul_add_iff (value_lt _) (value_lt _), key, key, Prod.Lex.toLex_lt_toLex,
    Prod.Lex.toLex_lt_toLex]
  change _ ↔ v.major.value < w.major.value ∨ v.major.value = w.major.value ∧
    (v.minor.value < w.minor.value ∨ v.minor.value = w.minor.value ∧ v.patchValue < w.patchValue)
  have hv := value_lt v.minor
  have hw := value_lt w.minor
  constructor <;> omega

/-- The sign of the result is the comparison of the versions. -/
theorem cmp_appVersionCompare (v w : Version) :
    cmp (appVersionCompare v.cStr w.cStr).toInt 0 = cmp v.key w.key := by
  rw [appVersionCompare_cStr]
  rcases lt_trichotomy v.key w.key with h | h | h
  · have hlt := (number_lt_number_iff v w).2 h
    rw [(cmp_eq_lt_iff _ _).2 h, cmp_eq_lt_iff]
    omega
  · have hv := mt (number_lt_number_iff v w).1 h.not_lt
    have hw := mt (number_lt_number_iff w v).1 h.not_gt
    rw [(cmp_eq_eq_iff _ _).2 h, cmp_eq_eq_iff]
    omega
  · have hlt := (number_lt_number_iff w v).2 h
    rw [(cmp_eq_gt_iff _ _).2 h, cmp_eq_gt_iff]
    omega

/-- **Versions are compared part by part.** The sign of the result is that of the lexicographic
comparison; so it changes when the versions change sides, it is transitive, and a patch 0 may as well
be missing. -/
theorem compare_sign (u v w : Version) :
    cmp (appVersionCompare u.cStr v.cStr).toInt 0 = cmp u.key v.key ∧
      (appVersionCompare v.cStr u.cStr).toInt.sign =
        -(appVersionCompare u.cStr v.cStr).toInt.sign ∧
      ((appVersionCompare u.cStr v.cStr).toInt ≤ 0 → (appVersionCompare v.cStr w.cStr).toInt ≤ 0 →
        (appVersionCompare u.cStr w.cStr).toInt ≤ 0) ∧
      ∀ zero : Literal 10 256, zero.value = 0 →
        appVersionCompare { u with patch := some zero }.cStr v.cStr =
            appVersionCompare { u with patch := none }.cStr v.cStr ∧
          appVersionCompare v.cStr { u with patch := some zero }.cStr =
            appVersionCompare v.cStr { u with patch := none }.cStr := by
  refine ⟨cmp_appVersionCompare u v, ?_, ?_, fun zero hzero => ?_⟩
  · rw [appVersionCompare_cStr, appVersionCompare_cStr, ← Int.sign_neg, Int.neg_sub]
  · simp only [appVersionCompare_cStr]
    omega
  · have hnumber : ({ u with patch := some zero } : Version).number =
        ({ u with patch := none } : Version).number := by
      simp [number, patchValue, hzero]
    constructor
    · apply Int32.toInt.inj
      rw [appVersionCompare_cStr, appVersionCompare_cStr, hnumber]
    · apply Int32.toInt.inj
      rw [appVersionCompare_cStr, appVersionCompare_cStr, hnumber]

end Version

end RvHouse
