import Mathlib.Algebra.Order.Ring.Int
import RvHouse.Lib.Amortized

/-!
# Flood control

`flood_control::allow_send`, by which the windows keep a user from sending too many messages. An
attempt charges 2000 ms to an accumulator, against the time since the last message was sent; at
3000 the message is refused, and the charge stays.

`bounded_of_guarded` says that the messages that are sent keep to 2000 ms each, with 6000 ms in
hand, as long as the time does not go back and no reset of the accumulator forgets a charge. One
does: an accumulator below zero is set to zero, whatever time has passed since the last message, so
every other message is free (`not_bounded_of_bursts`). What is kept in any case is half the rate
(`half_rate`). `trace_field` carries this to the input field of the house window.

The code compares an `unsigned long`, so that a time that goes back is one that is long enough.
-/

namespace RvHouse

/-- `class flood_control`, the time in milliseconds. -/
structure FloodControl where
  floodLastSentMessage : ℤ := 0
  floodControl : ℤ := 0
deriving DecidableEq

namespace FloodControl

/-- A sum assigned to an `int`. -/
def int (z : ℤ) : ℤ := z.bmod 4294967296

/-- `(now - _flood_last_sent_message).msec()`, an `unsigned long` of 64 bits. -/
def elapsed (s : FloodControl) (now : ℤ) : ℤ :=
  (now - s.floodLastSentMessage) % 18446744073709551616

/-- The accumulator at an attempt. -/
def charge (s : FloodControl) (now : ℤ) : ℤ :=
  if s.floodControl < 0 ∨ 5000 ≤ s.elapsed now then 0
  else int (s.floodControl + (2000 - s.elapsed now))

/-- `flood_control::allow_send`. -/
def allowSend (s : FloodControl) (now : ℤ) : FloodControl × Bool :=
  if 3000 ≤ s.charge now then ({ s with floodControl := s.charge now }, false)
  else (⟨now, s.charge now⟩, true)

/-- The flood control as a machine that gets the times of the attempts and puts out those of the
messages sent. -/
def machine : Mealy FloodControl ℤ ℤ :=
  ⟨fun s now => ((s.allowSend now).1, if (s.allowSend now).2 then [now] else [])⟩

/-- The attempts `es` keep to 2000 ms for a message, with 6000 ms in hand; and an attempt is allowed
5000 ms after the last message at the latest. -/
structure Bounded (es : List ℤ) : Prop where
  rate : ∀ (i k : ℕ) (a b : ℤ), (machine.trace {} es)[i]? = some a →
    (machine.trace {} es)[i + k]? = some b → 2000 * (k : ℤ) ≤ (b - a) + 6000
  late : ∀ (p : List ℤ) (now a : ℤ), p ++ [now] <+: es → (machine.trace {} p).getLast? = some a →
    a + 5000 ≤ now → ((machine.exec {} p).allowSend now).2 = true

/-- The clock at the attempts: it starts at the epoch, it does not go back, and no difference of two
of its times is more than an `unsigned long`. -/
def Clock (es : List ℤ) : Prop :=
  (0 :: es).Pairwise fun a b => a ≤ b ∧ b - a < 18446744073709551616

instance (es : List ℤ) : Decidable (Clock es) := inferInstanceAs (Decidable (List.Pairwise _ _))

/-- The sum fits the `int`. -/
def Fits (s : FloodControl) (now : ℤ) : Prop :=
  0 ≤ s.floodControl → s.elapsed now < 5000 →
    s.floodControl + (2000 - s.elapsed now) < 2147483648

instance (s : FloodControl) (now : ℤ) : Decidable (s.Fits now) :=
  inferInstanceAs (Decidable (_ → _ → _))

/-- The reset of an accumulator below zero charges as much as the attempt does. -/
def Charged (s : FloodControl) (now : ℤ) : Prop :=
  (s.floodControl < 0 → s.floodControl + 2000 ≤ s.elapsed now) ∧ s.Fits now

instance (s : FloodControl) (now : ℤ) : Decidable (s.Charged now) :=
  inferInstanceAs (Decidable (_ ∧ _))

/-! ## One attempt -/

theorem step_cases (s : FloodControl) (now : ℤ) :
    (3000 ≤ s.charge now ∧ machine.step s now = ({ s with floodControl := s.charge now }, [])) ∨
      (s.charge now < 3000 ∧ machine.step s now = (⟨now, s.charge now⟩, [now])) := by
  rcases le_or_gt 3000 (s.charge now) with h | h
  · exact .inl ⟨h, by simp [machine, allowSend, h]⟩
  · exact .inr ⟨h, by simp [machine, allowSend, not_le.2 h]⟩

theorem charge_of_reset {s : FloodControl} {now : ℤ}
    (h : s.floodControl < 0 ∨ 5000 ≤ s.elapsed now) : s.charge now = 0 := if_pos h

/-- The three ways of a charge. -/
theorem charge_cases {s : FloodControl} {now : ℤ} (h : s.Fits now) :
    (s.floodControl < 0 ∧ s.charge now = 0) ∨
      (0 ≤ s.floodControl ∧ 5000 ≤ s.elapsed now ∧ s.charge now = 0) ∨
      (0 ≤ s.floodControl ∧ s.elapsed now < 5000 ∧
        s.charge now = s.floodControl + (2000 - s.elapsed now)) := by
  rcases lt_or_ge s.floodControl 0 with hbelow | hpos
  · exact .inl ⟨hbelow, charge_of_reset (.inl hbelow)⟩
  rcases lt_or_ge (s.elapsed now) 5000 with hrecent | hlate
  · have hno : ¬ (s.floodControl < 0 ∨ 5000 ≤ s.elapsed now) := by omega
    have hfits := h hpos hrecent
    refine .inr (.inr ⟨hpos, hrecent, ?_⟩)
    rw [charge, if_neg hno, int]
    exact Int.bmod_eq_of_le (by omega) (by omega)
  · exact .inr (.inl ⟨hpos, hlate, charge_of_reset (.inr hlate)⟩)

/-- A charge is more than -3000. -/
theorem lt_charge {s : FloodControl} {now : ℤ} (h : s.Fits now) : -3000 < s.charge now := by
  rcases charge_cases h with ⟨-, hc⟩ | ⟨-, -, hc⟩ | ⟨hpos, hrecent, hc⟩
  · omega
  · omega
  · omega

theorem floodControl_step (s : FloodControl) (now : ℤ) :
    (machine.step s now).1.floodControl = s.charge now := by
  rcases step_cases s now with ⟨-, h⟩ | ⟨-, h⟩
  · rw [h]
  · rw [h]

/-- Time that is long enough allows the message. -/
theorem allowSend_of_late {s : FloodControl} {now : ℤ} (h : 5000 ≤ s.elapsed now) :
    (s.allowSend now).2 = true := by
  have hreset : s.charge now = 0 := charge_of_reset (.inr h)
  simp [allowSend, hreset]

/-! ## The time of the last message -/

/-- The unsigned time is at most that of a clock that has not gone back. -/
theorem elapsed_le {s : FloodControl} {now : ℤ} (h : s.floodLastSentMessage ≤ now) :
    s.elapsed now ≤ now - s.floodLastSentMessage := by
  rw [elapsed]
  omega

/-- It is exact when it fits. -/
theorem elapsed_eq {s : FloodControl} {now : ℤ} (h : s.floodLastSentMessage ≤ now)
    (hfits : now - s.floodLastSentMessage < 18446744073709551616) :
    s.elapsed now = now - s.floodLastSentMessage :=
  Int.emod_eq_of_lt (by omega) hfits

theorem floodLastSentMessage_step (s : FloodControl) (now : ℤ) :
    (machine.step s now).1.floodLastSentMessage = s.floodLastSentMessage ∨
      (machine.step s now).1.floodLastSentMessage = now := by
  rcases step_cases s now with ⟨-, h⟩ | ⟨-, h⟩
  · exact .inl (by rw [h])
  · exact .inr (by rw [h])

/-- The time that is kept is one of the earlier ones, so that the clock bounds it at every
attempt. -/
theorem guarded_of_pairwise {R : ℤ → ℤ → Prop} {s : FloodControl} {es : List ℤ}
    (h : (s.floodLastSentMessage :: es).Pairwise R) :
    machine.Guarded (fun s now => R s.floodLastSentMessage now) s es := by
  induction es generalizing s with
  | nil => trivial
  | cons now es ih =>
    obtain ⟨hlast, hnow⟩ := List.pairwise_cons.1 h
    refine ⟨hlast now List.mem_cons_self, ih ?_⟩
    rcases floodLastSentMessage_step s now with hkept | hkept
    · rw [hkept]
      exact h.sublist (.cons_cons _ (List.sublist_cons_self now es))
    · rw [hkept]
      exact hnow

/-- The time that is kept is that of the last message. -/
theorem floodLastSentMessage_exec (s : FloodControl) (es : List ℤ) :
    (machine.exec s es).floodLastSentMessage =
      (machine.trace s es).getLastD s.floodLastSentMessage := by
  induction es generalizing s with
  | nil => rfl
  | cons now es ih =>
    rw [Mealy.exec_cons, Mealy.trace_cons, ih]
    rcases step_cases s now with ⟨-, h⟩ | ⟨-, h⟩
    · rw [h, List.nil_append]
    · rw [h, List.singleton_append, List.getLastD_cons]

theorem allowSend_of_sent {es p : List ℤ} {now a : ℤ} (hes : Clock es) (hp : p ++ [now] <+: es)
    (ha : (machine.trace {} p).getLast? = some a) (hlate : a + 5000 ≤ now) :
    ((machine.exec {} p).allowSend now).2 = true := by
  apply allowSend_of_late
  have hlast : (machine.exec {} p).floodLastSentMessage = a := by
    rw [floodLastSentMessage_exec, List.getLastD_eq_getLast?, ha, Option.getD_some]
  have hclock := (machine.guarded_iff_forall _ _).1 (guarded_of_pairwise (s := {}) hes) p now hp
  rw [elapsed_eq hclock.1 hclock.2, hlast]
  omega

/-! ## The rate -/

/-- What is charged to the user, up to the bound. -/
def potential (s : FloodControl) : ℤ := min s.floodControl 2999

theorem potential_le (s : FloodControl) : s.potential ≤ 2999 := min_le_right _ _

theorem potential_step (s : FloodControl) (now : ℤ) :
    (machine.step s now).1.potential = min (s.charge now) 2999 := by
  rw [potential, floodControl_step]

/-- A step pays by a potential with the bound 2999 that gives the charge as far as it allows a
message. -/
theorem pays_of_charge {φ : FloodControl → ℤ} {cost : ℤ} {s : FloodControl} {now : ℤ}
    (hback : s.floodLastSentMessage ≤ now) (hmax : φ s ≤ 2999)
    (hfull : 3000 ≤ s.charge now → φ (machine.step s now).1 = 2999)
    (hfree : s.charge now < 3000 → φ s + cost ≤ φ (machine.step s now).1 + s.elapsed now) :
    machine.Pays floodLastSentMessage φ id cost s now := by
  rcases step_cases s now with ⟨hlt, hstep⟩ | ⟨hlt, hstep⟩
  · exact .inl ⟨by rw [hstep], by rw [hstep], hmax.trans (hfull hlt).ge⟩
  · refine .inr ⟨now, by rw [hstep], by rw [hstep]; rfl, (hfree hlt).trans ?_⟩
    exact Int.add_le_add_left (elapsed_le hback) _

/-- **An attempt that is charged pays its 2000 ms.** -/
theorem pays {s : FloodControl} {now : ℤ} (hback : s.floodLastSentMessage ≤ now)
    (h : s.Charged now) : machine.Pays floodLastSentMessage potential id 2000 s now := by
  obtain ⟨hneg, hfits⟩ := h
  have hself : s.potential ≤ s.floodControl := min_le_left _ _
  apply pays_of_charge hback s.potential_le
  · intro hfull
    rw [potential_step]
    exact min_eq_right (le_trans (by decide) hfull)
  · intro hfree
    rw [potential_step, min_eq_left (Int.le_of_lt_add_one hfree)]
    rcases charge_cases hfits with ⟨hbelow, hc⟩ | ⟨-, hlate, hc⟩ | ⟨-, -, hc⟩
    · have hforgot := hneg hbelow
      omega
    · have hmax := s.potential_le
      omega
    · omega

theorem le_potential_step {s : FloodControl} {now : ℤ} (h : s.Charged now) :
    -2999 ≤ (machine.step s now).1.potential := by
  have hcharge := lt_charge h.2
  rw [potential_step]
  exact le_min (by omega) (by decide)

/-- **The flood control**, in every run whose clock does not go back and whose resets forget no
charge. -/
theorem bounded_of_guarded {es : List ℤ} (hes : Clock es) (h : machine.Guarded Charged {} es) :
    Bounded es where
  rate i k a b ha hb := by
    have hclock := guarded_of_pairwise (s := {}) hes
    have hboth := machine.guarded_and.2 ⟨hclock, h⟩
    have hrate := Mealy.cost_mul_le (fun _ _ h => pays h.1.1 h.2) potential_le
      (fun _ _ h => le_potential_step h.2) (by decide) hboth ha hb
    simp only [id] at hrate
    omega
  late _ _ _ hp := allowSend_of_sent hes hp

/-- Two messages at once, and two seconds later two more. -/
theorem bounded_of_guarded_two : Bounded [10000, 10000, 12000, 12000] :=
  bounded_of_guarded (by decide) (by decide)

/-- Two messages every 2001 ms: the first leaves the accumulator at -1, the second resets it. -/
theorem not_bounded_of_bursts :
    List.Pairwise (α := ℤ) (· ≤ ·)
        [10000, 12001, 12001, 14002, 14002, 16003, 16003, 18004, 18004] ∧
      machine.trace {} [10000, 12001, 12001, 14002, 14002, 16003, 16003, 18004, 18004] =
        [10000, 12001, 12001, 14002, 14002, 16003, 16003, 18004, 18004] ∧
      ¬ Bounded [10000, 12001, 12001, 14002, 14002, 16003, 16003, 18004, 18004] := by
  refine ⟨by decide, by decide, fun h => ?_⟩
  have hrate := h.rate 0 8 10000 18004 (by decide) (by decide)
  omega

/-! ## Half the rate -/

/-- The time does not go back. -/
def Forward (s : FloodControl) (now : ℤ) : Prop := s.floodLastSentMessage ≤ now ∧ s.Fits now

instance (s : FloodControl) (now : ℤ) : Decidable (s.Forward now) :=
  inferInstanceAs (Decidable (_ ∧ _))

/-- An accumulator below zero has 1000 ms less. -/
def halfPotential (s : FloodControl) : ℤ :=
  if s.floodControl < 0 then s.floodControl - 1000 else min s.floodControl 2999

theorem halfPotential_le (s : FloodControl) : s.halfPotential ≤ 2999 := by
  rw [halfPotential]
  split
  · omega
  · exact min_le_right _ _

theorem halfPotential_step (s : FloodControl) (now : ℤ) :
    (machine.step s now).1.halfPotential =
      if s.charge now < 0 then s.charge now - 1000 else min (s.charge now) 2999 := by
  rw [halfPotential, floodControl_step]

/-- **An attempt pays 1000 ms**, whatever a reset forgets. -/
theorem pays_half {s : FloodControl} {now : ℤ} (h : s.Forward now) :
    machine.Pays floodLastSentMessage halfPotential id 1000 s now := by
  obtain ⟨hback, hfits⟩ := h
  apply pays_of_charge hback s.halfPotential_le
  · intro hfull
    rw [halfPotential_step, if_neg (by omega)]
    exact min_eq_right (le_trans (by decide) hfull)
  · intro hfree
    rw [halfPotential_step, min_eq_left (Int.le_of_lt_add_one hfree)]
    rcases charge_cases hfits with ⟨hbelow, hc⟩ | ⟨-, hlate, hc⟩ | ⟨hpos, -, hc⟩
    · have hdebt : s.halfPotential = s.floodControl - 1000 := if_pos hbelow
      have hsince : 0 ≤ s.elapsed now := Int.emod_nonneg _ (by decide)
      rw [hc, if_neg (by decide)]
      omega
    · have hmax := s.halfPotential_le
      rw [hc, if_neg (by decide)]
      omega
    · have hself : s.halfPotential ≤ s.floodControl := by
        rw [halfPotential, if_neg (not_lt.2 hpos)]
        exact min_le_left _ _
      split
      · omega
      · omega

theorem le_halfPotential_step {s : FloodControl} {now : ℤ} (h : s.Forward now) :
    -3999 ≤ (machine.step s now).1.halfPotential := by
  have hcharge := lt_charge h.2
  rw [halfPotential_step]
  split
  · omega
  · exact le_min (by omega) (by decide)

/-- **Half the rate.** In every run whose time does not go back, two messages are 1000 ms apart for
each message between them, with 6998 ms in hand. -/
theorem half_rate {es : List ℤ} (h : machine.Guarded Forward {} es) {i k : ℕ} {a b : ℤ}
    (ha : (machine.trace {} es)[i]? = some a) (hb : (machine.trace {} es)[i + k]? = some b) :
    1000 * (k : ℤ) ≤ (b - a) + 6998 := by
  have hrate := Mealy.cost_mul_le (C := Forward) (fun _ _ => pays_half) halfPotential_le
    (fun _ _ => le_halfPotential_step) (by decide) h ha hb
  simp only [id] at hrate
  omega

/-- Nine messages in eight seconds. -/
theorem half_rate_bursts : 1000 * ((8 : ℕ) : ℤ) ≤ (18004 - 10000) + 6998 := by
  have hforward : machine.Guarded Forward {}
      [10000, 12001, 12001, 14002, 14002, 16003, 16003, 18004, 18004] := by decide
  have hfirst : (machine.trace {}
      [10000, 12001, 12001, 14002, 14002, 16003, 16003, 18004, 18004])[0]? = some 10000 := by decide
  exact half_rate hforward hfirst (by decide)

/-! ## The input field -/

/-- `window::house::send_message` on the text in the field: the text that is run as a command or
sent, cut to `limit_chat_msg`. -/
def sendMessage (limitChatMsg : ℕ) (s : FloodControl) (t : List Char) (now : ℤ) :
    FloodControl × Option (List Char) :=
  if t = [] then (s, none)
  else
    let (s, allowed) := s.allowSend now
    if allowed then (s, some (if limitChatMsg < t.length then t.take limitChatMsg else t))
    else (s, none)

/-- The field as a machine that gets texts, with the times, and puts out the times at which one
passed. -/
def field (limitChatMsg : ℕ) : Mealy FloodControl (List Char × ℤ) ℤ :=
  ⟨fun s e => ((sendMessage limitChatMsg s e.1 e.2).1,
    if (sendMessage limitChatMsg s e.1 e.2).2.isSome then [e.2] else [])⟩

/-- The times of the attempts that `send_message` makes: an empty text is none. -/
def attempts (es : List (List Char × ℤ)) : List ℤ := (es.filter (·.1 ≠ [])).map Prod.snd

theorem field_step_of_nil (limitChatMsg : ℕ) (s : FloodControl) (now : ℤ) :
    (field limitChatMsg).step s ([], now) = (s, []) := rfl

theorem field_step_of_ne (limitChatMsg : ℕ) (s : FloodControl) {t : List Char} (ht : t ≠ [])
    (now : ℤ) : (field limitChatMsg).step s (t, now) = machine.step s now := by
  simp only [field, machine, sendMessage, if_neg ht]
  cases (s.allowSend now).2 <;> simp

/-- **The input field** passes texts on when `allow_send` says so, and at no other times. -/
theorem trace_field (limitChatMsg : ℕ) (s : FloodControl) (es : List (List Char × ℤ)) :
    (field limitChatMsg).trace s es = machine.trace s (attempts es) := by
  induction es generalizing s with
  | nil => rfl
  | cons e es ih =>
    obtain ⟨t, now⟩ := e
    rw [Mealy.trace_cons, ih]
    by_cases ht : t = []
    · subst ht
      rw [field_step_of_nil, List.nil_append]
      rfl
    · have hattempts : attempts ((t, now) :: es) = now :: attempts es := by
        simp [attempts, ht]
      rw [field_step_of_ne limitChatMsg s ht, hattempts, Mealy.trace_cons]

end FloodControl

end RvHouse
