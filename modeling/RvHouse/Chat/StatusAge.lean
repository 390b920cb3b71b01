import Mathlib.Logic.Function.Basic
import RvHouse.Chat.User
import RvHouse.Lib.Mealy

/-!
# The age of a status

A user sends the time of its last status together with the time at which it sends, so that the
receiver can tell how old the status is whatever its own clock says. The difference of the two
clocks is kept beside the times of the user, and `user::status_time` adds it; on the user's own side
it is to be zero. An operation is at one local time, though the code reads the clock more than once
in some.

`age_received` says that the receiver does get the age that the status had when it was sent, after
every run. `told_iff_guarded` says when the time is right on the user's own side too: when no
`user::generate_id` comes later than the time that the user has kept from its construction or from
its last packet. `generate_id` reckons the difference anew and does not set that time.
-/

namespace RvHouse

/-- Some users in the variables of a program, and for each the local time of its last `status`, or
of its construction. -/
structure Clocks where
  users : ℕ → User
  lastStatus : ℕ → Int

/-- What happens to the users, at local times. -/
inductive ClockEvent where
  /-- `user(n)`. -/
  | construct (x : ℕ) (n : Node) (now : Int)
  /-- `user(NULL)`. -/
  | constructNull (x : ℕ) (now : Int)
  | status (x : ℕ) (s : Status) (now : Int)
  | generateId (x : ℕ) (now : Int)
  /-- The user is archived. -/
  | send (x : ℕ) (now : Int)
  /-- The user `y` is copied to a new `x`. -/
  | copy (x y : ℕ)
  | assign (x y : ℕ)
deriving DecidableEq

namespace Clocks

/-- The user in a variable changes. -/
def put (s : Clocks) (x : ℕ) (u : User) (t : Int) : Clocks :=
  ⟨Function.update s.users x u, Function.update s.lastStatus x t⟩

/-- One event. -/
def step (s : Clocks) : ClockEvent → Clocks × List UserWire
  | .construct x n now => (s.put x (.ofNode n now) now, [])
  | .constructNull x now => (s.put x (.ofNull now) now, [])
  | .status x st now => (s.put x ((s.users x).setStatus st now) now, [])
  | .generateId x now => (s.put x ((s.users x).generateId now) (s.lastStatus x), [])
  | .send x now =>
    let (u, w) := (s.users x).save now
    (s.put x u (s.lastStatus x), [w])
  | .copy x y => (s.put x (s.users y) (s.lastStatus y), [])
  | .assign x y => (s.put x ((s.users x).assign (s.users y)) (s.lastStatus y), [])

/-- The users as a machine that sends archives. -/
def machine : Mealy Clocks ClockEvent UserWire := ⟨step⟩

/-- All users are new. -/
def init (now : Int) : Clocks := ⟨fun _ => .ofNull now, fun _ => now⟩

/-- The age that the status has at `now`. -/
def age (s : Clocks) (x : ℕ) (now : Int) : Int := now - s.lastStatus x

/-- `status_time` tells the local time of the last status, and the one at a receiver lies the age of
the status back, as it was when it was sent. -/
structure Told (s : Clocks) : Prop where
  own : ∀ x, (s.users x).statusTime = s.lastStatus x
  received : ∀ x now v recvNow,
    recvNow - (User.load v ((s.users x).save now).2 recvNow).statusTime = s.age x now

/-- The time of the last status is kept. -/
def Kept (s : Clocks) : Prop := ∀ x, (s.users x).userStatusTime = s.lastStatus x

/-- A received user does not depend on what the receiver's clock says. -/
theorem statusTime_load (u v : User) (now recvNow : Int) :
    recvNow - (v.load (u.save now).2 recvNow).statusTime = now - u.userStatusTime := by
  simp only [User.statusTime, User.load, User.save, User.initExtraVars]
  omega

theorem kept_put {s : Clocks} (h : s.Kept) {x : ℕ} {u : User} {t : Int}
    (hu : u.userStatusTime = t) : (s.put x u t).Kept := by
  intro y
  by_cases hy : y = x
  · subst hy
    simpa [put] using hu
  · simpa [put, hy] using h y

theorem kept_step {s : Clocks} (h : s.Kept) (e : ClockEvent) : (s.step e).1.Kept := by
  cases e with
  | construct x n now => exact kept_put h rfl
  | constructNull x now => exact kept_put h rfl
  | status x st now => exact kept_put h rfl
  | generateId x now => exact kept_put h (h x)
  | send x now => exact kept_put h (h x)
  | copy x y => exact kept_put h (h y)
  | assign x y => exact kept_put h (h y)

/-- **The age at a receiver.** After every run, the status of a received user has the age there that
it had when it was sent. -/
theorem age_received (t : Int) (es : List ClockEvent) (x : ℕ) (now : Int) (v : User)
    (recvNow : Int) :
    recvNow - (v.load (((machine.exec (init t) es).users x).save now).2 recvNow).statusTime =
      (machine.exec (init t) es).age x now := by
  have hkept := machine.invariant_all (I := Kept) (fun _ e h => kept_step h e)
    (s := init t) (fun _ => rfl) es
  rw [statusTime_load, hkept x, age]

/-- The times are told when they are kept and no difference is. -/
theorem told_iff {s : Clocks} : s.Told ↔ s.Kept ∧ ∀ x, (s.users x).userUsTimeDelta = 0 := by
  constructor
  · intro h
    have hkept : s.Kept := fun x => by
      have hage := h.received x 0 {} 0
      rw [statusTime_load, age] at hage
      omega
    refine ⟨hkept, fun x => ?_⟩
    have hown := h.own x
    rw [User.statusTime, hkept x] at hown
    omega
  · rintro ⟨hkept, hdelta⟩
    refine ⟨fun x => ?_, fun x now v recvNow => ?_⟩
    · rw [User.statusTime, hdelta, hkept, zero_add]
    · rw [statusTime_load, hkept, age]

/-- An id is generated only while the user's time is the present. -/
def OnTime (s : Clocks) : ClockEvent → Prop
  | .generateId x now => now = (s.users x).userNow
  | _ => True

theorem told_put_iff {s : Clocks} (h : s.Told) {x : ℕ} {u : User} {t : Int}
    (hu : u.userStatusTime = t) : (s.put x u t).Told ↔ u.userUsTimeDelta = 0 := by
  obtain ⟨hkept, hdelta⟩ := told_iff.1 h
  rw [told_iff, and_iff_right (kept_put hkept hu)]
  constructor
  · intro hall
    simpa [put] using hall x
  · intro hzero y
    by_cases hy : y = x
    · subst hy
      simpa [put] using hzero
    · simpa [put, hy] using hdelta y

theorem told_step_iff {s : Clocks} (h : s.Told) (e : ClockEvent) :
    (s.step e).1.Told ↔ s.OnTime e := by
  obtain ⟨hkept, hdelta⟩ := told_iff.1 h
  cases e with
  | construct x n now => exact (told_put_iff h rfl).trans (iff_of_true (sub_self now) trivial)
  | constructNull x now => exact (told_put_iff h rfl).trans (iff_of_true (sub_self now) trivial)
  | status x st now => exact (told_put_iff h rfl).trans (iff_of_true (hdelta x) trivial)
  | generateId x now =>
    exact (told_put_iff (u := (s.users x).generateId now) h (hkept x)).trans sub_eq_zero
  | send x now =>
    refine (told_put_iff (u := ((s.users x).save now).1) h (hkept x)).trans ?_
    exact iff_of_true (sub_self now) trivial
  | copy x y => exact (told_put_iff h (hkept y)).trans (iff_of_true (hdelta y) trivial)
  | assign x y =>
    refine (told_put_iff (u := (s.users x).assign (s.users y)) h (hkept y)).trans ?_
    exact iff_of_true (hdelta y) trivial

/-- **When the time of the status is right.** It is told at every point of a run, to the user itself
and to receivers, exactly when every id is generated on time. -/
theorem told_iff_guarded (t : Int) (es : List ClockEvent) :
    (∀ p, p <+: es → (machine.exec (init t) p).Told) ↔ machine.Guarded OnTime (init t) es :=
  machine.forall_along_iff_guarded (I := Told) (fun _ e h => told_step_iff h e)
    (told_iff.2 ⟨fun _ => rfl, fun _ => sub_self t⟩) es

/-- The program starts at 0, and the login is over at 60: the time of the status is one to come. -/
theorem not_told_of_login :
    ((machine.exec (init 0) [.status 0 .chatting 60, .generateId 0 60]).users 0).statusTime = 120 ∧
      ¬ ∀ p, p <+: [.status 0 .chatting 60, .generateId 0 60] →
        (machine.exec (init 0) p).Told := by
  have htime : ((machine.exec (init 0) [.status 0 .chatting 60, .generateId 0 60]).users
      0).statusTime = 120 := by decide
  refine ⟨htime, fun h => ?_⟩
  have hown := (h _ (List.prefix_refl _)).own 0
  rw [htime] at hown
  revert hown
  decide

end Clocks

end RvHouse
