import Mathlib.Algebra.Group.Nat.Defs
import RvHouse.Messaging.Message

/-!
# The model of the own user

`model::self`: the own user, the room that it hosts, the room that it is joining, and the counter
for the sequences of its messages.
-/

namespace RvHouse

/-- `model::self`. -/
structure SelfModel where
  seq : UInt32 := 1
  user : User := {}
  hostingRoom : Room := {}
  joiningRoom : String := ""
deriving DecidableEq

namespace SelfModel

/-- The counter after a draw: zero is left out. -/
def nextSeq (seq : UInt32) : UInt32 := if seq + 1 = 0 then 1 else seq + 1

/-- `model::self::sequence`. -/
def sequence (s : SelfModel) : UInt32 × SelfModel := (s.seq, { s with seq := nextSeq s.seq })

/-- `model::self::user_as_message`. -/
def userAsMessage (s : SelfModel) : Message × SelfModel :=
  let (seq, s) := s.sequence
  (.ofUser .user s.user seq 0, s)

/-- The sequence of the draw with the number `k`. -/
def seqAt : ℕ → UInt32
  | 0 => 1
  | k + 1 => nextSeq (seqAt k)

theorem toNat_seqAt {k : ℕ} (hk : k + 1 < 2 ^ 32) : (seqAt k).toNat = k + 1 := by
  induction k with
  | zero => rfl
  | succ k ih =>
    have hprev : (seqAt k).toNat = k + 1 := ih (by omega)
    have hnext : (seqAt k + 1).toNat = k + 2 := by
      rw [UInt32.toNat_add, hprev, UInt32.toNat_one]
      omega
    have hne : seqAt k + 1 ≠ 0 := fun h => by
      rw [h, UInt32.toNat_zero] at hnext
      omega
    rw [seqAt, nextSeq, if_neg hne, hnext]

/-- Fewer than 2³² draws give different sequences. -/
theorem seqAt_injective {i j : ℕ} (hi : i + 1 < 2 ^ 32) (hj : j + 1 < 2 ^ 32)
    (h : seqAt i = seqAt j) : i = j := by
  have hnat := congrArg UInt32.toNat h
  rw [toNat_seqAt hi, toNat_seqAt hj] at hnat
  omega

end SelfModel

end RvHouse
