import Mathlib.Data.List.Basic

/-!
# Joined texts

Loops that append one text after the other put a separator where something stands before. `push` is
the body of such a loop, in which empty texts leave no trace, and `foldl_push` says what the loop
gives.
-/

namespace RvHouse.Joined

/-- `t` with `v` behind it. -/
def push (sep t v : String) : String :=
  if v = "" then t else if t = "" then v else t ++ sep ++ v

@[simp] theorem push_empty (sep t : String) : push sep t "" = t := if_pos rfl

theorem push_of_ne (sep t : String) {v : String} (hv : v ≠ "") :
    push sep t v = if t = "" then v else t ++ sep ++ v := if_neg hv

/-- A text to which something has been appended goes before the rest. -/
theorem foldl_push_of_ne (sep : String) {t : String} (ht : t ≠ "") (l : List String) :
    l.foldl (push sep) t = sep.intercalate (t :: l.filter (· ≠ "")) := by
  induction l generalizing t with
  | nil => simp
  | cons v l ih =>
    rw [List.foldl_cons]
    by_cases hv : v = ""
    · subst hv
      rw [push_empty, ih ht]
      simp
    · have hne : t ++ sep ++ v ≠ "" := by
        simp [String.append_eq_empty_iff, ht]
      rw [push_of_ne sep t hv, if_neg ht, ih hne]
      simp [hv, String.append_assoc]

/-- **The loop joins the texts that are not empty.** -/
theorem foldl_push (sep : String) (l : List String) :
    l.foldl (push sep) "" = sep.intercalate (l.filter (· ≠ "")) := by
  induction l with
  | nil => rfl
  | cons v l ih =>
    rw [List.foldl_cons]
    by_cases hv : v = ""
    · subst hv
      rw [push_empty, ih]
      simp
    · rw [push_of_ne sep "" hv, if_pos rfl, foldl_push_of_ne sep hv]
      simp [hv]

end RvHouse.Joined
