import RvHouse.Lib.Runs
import Mathlib.Data.UInt

/-!
# Validation of what a user types

`validate_user_id` and `validate_password` check a length and search the text with a regular
expression for its whole. The texts are C strings, which `QString` reads in Latin-1.

`validateUserId_iff` and `validatePassword_iff` are what is accepted: texts of so many characters, all
of one class.
-/

namespace RvHouse

/-- A text as `QString` reads it: a C string in Latin-1. -/
def latin1 (l : List UInt8) : List Char := (l.takeWhile (· ≠ 0)).map fun b => Char.ofNat b.toNat

/-- `regexp::match` for the pattern `^…$` of one run, on the C string of a text. -/
def regexpMatchWhole (r : Run Char) (subject : List UInt8) : Bool :=
  (Run.matchThen Run.atEnd [r] (latin1 subject)).isSome

/-- `[a-zA-Z0-9_\-\[\]=]+`. -/
def userIdRun : Run Char := ⟨fun c => c.isAlphanum || ['_', '-', '[', ']', '='].contains c, 1, none⟩

/-- `[a-zA-Z0-9_]+`. -/
def passwordRun : Run Char := ⟨fun c => c.isAlphanum || c = '_', 1, none⟩

/-- `validate_user_id`. -/
def validateUserId (u : List UInt8) (noSizeValidation : Bool := false) : Bool :=
  if !noSizeValidation && u.length < 4 then false
  else if u.length > 20 then false
  else regexpMatchWhole userIdRun u

/-- `validate_password`. -/
def validatePassword (p : List UInt8) (noSizeValidation : Bool := false) : Bool :=
  if !noSizeValidation && p.length < 6 then false
  else if p.length > 255 then false
  else regexpMatchWhole passwordRun p

/-- A C string without a NUL is read whole. -/
theorem latin1_of_not_mem {l : List UInt8} (h : 0 ∉ l) :
    latin1 l = l.map fun b => Char.ofNat b.toNat := by
  rw [latin1, List.takeWhile_eq_self_iff.2 fun b hb => ?_]
  exact decide_eq_true fun h0 => h (h0 ▸ hb)

/-- Latin-1 comes back as it was written. -/
theorem latin1_map_ofNat {l : List Char} (h : ∀ c ∈ l, 0 < c.toNat ∧ c.toNat < 256) :
    latin1 (l.map fun c => UInt8.ofNat c.toNat) = l := by
  have hbyte : ∀ c ∈ l, (UInt8.ofNat c.toNat).toNat = c.toNat := by
    intro c hc
    rw [UInt8.toNat_ofNat', Nat.mod_eq_of_lt (h c hc).2]
  have hnul : 0 ∉ l.map fun c => UInt8.ofNat c.toNat := by
    intro h0
    obtain ⟨c, hc, hc0⟩ := List.mem_map.1 h0
    have hzero : c.toNat = 0 := (hbyte c hc).symm.trans (congrArg UInt8.toNat hc0)
    exact absurd hzero (h c hc).1.ne'
  rw [latin1_of_not_mem hnul, List.map_map]
  refine (List.map_congr_left fun c hc => ?_).trans (List.map_id l)
  show Char.ofNat (UInt8.ofNat c.toNat).toNat = c
  rw [hbyte c hc, Char.ofNat_toNat]

theorem regexpMatchWhole_iff {r : Run Char} (hmin : r.min = 1) (hmax : r.max = none)
    (subject : List UInt8) :
    regexpMatchWhole r subject = true ↔
      latin1 subject ≠ [] ∧ ∀ c ∈ latin1 subject, r.ok c = true := by
  rw [regexpMatchWhole, Run.isSome_matchThen_atEnd_iff]
  constructor
  · rintro ⟨ps, hfits, hflat⟩
    obtain ⟨p, ps', hp, hps', rfl⟩ := List.forall₂_cons_left_iff.1 hfits
    obtain rfl := List.forall₂_nil_left_iff.1 hps'
    obtain rfl : p = latin1 subject := (List.append_nil p).symm.trans hflat
    have hpos := hp.min
    rw [hmin] at hpos
    exact ⟨List.length_pos_iff.1 hpos, hp.ok⟩
  · rintro ⟨hne, hok⟩
    refine ⟨[latin1 subject], .cons ⟨hok, ?_, ?_⟩ .nil, List.append_nil _⟩
    · rw [hmin]
      exact List.length_pos_iff.2 hne
    · simp [hmax]

variable {l : List UInt8} {noSize : Bool}

theorem validateUserId_iff :
    validateUserId l noSize = true ↔ (noSize = true ∨ 4 ≤ l.length) ∧ l.length ≤ 20 ∧
      latin1 l ≠ [] ∧ ∀ c ∈ latin1 l, userIdRun.ok c = true := by
  rw [← regexpMatchWhole_iff rfl rfl, validateUserId]
  cases noSize <;> simp

theorem validatePassword_iff :
    validatePassword l noSize = true ↔ (noSize = true ∨ 6 ≤ l.length) ∧ l.length ≤ 255 ∧
      latin1 l ≠ [] ∧ ∀ c ∈ latin1 l, passwordRun.ok c = true := by
  rw [← regexpMatchWhole_iff rfl rfl, validatePassword]
  cases noSize <;> simp

/-- A user id has none of the separators of an identification string. -/
theorem colon_not_mem_of_validateUserId (h : validateUserId l noSize = true) : ':' ∉ latin1 l := by
  intro hmem
  have hok := (validateUserId_iff.1 h).2.2.2 ':' hmem
  exact absurd hok (by decide)

end RvHouse
