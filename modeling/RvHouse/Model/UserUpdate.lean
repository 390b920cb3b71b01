import RvHouse.Model.House

/-!
# One update of a user

`model::house::user_update` knows four cases: a new node, an update without an id string, another id
string, and the plain case. `updated_iff` says what holds of them: the house of the group has one
entry for the node, which is the update or the entry that was there (`GroupHouse.stored`), nothing
else changes, and the iterator returned designates that entry, except in the third case. There the
entry is erased and inserted again, and the iterator to the erased one is returned.
-/

namespace RvHouse

/-! ## One group -/

namespace House

theorem others_eq (h : House) (k : UserKey) :
    h.users.others k = h.users.toList.filter fun v => v.id.node ≠ k.node := by
  simp only [IndexedList.others, ne_eq, UserKey.cmp_eq_iff]

theorem filter_node {h : House} {k : UserKey} {u : User} (hu : h.userFind k = some u) :
    (h.users.toList.filter fun v => v.id.node = k.node) = [u] := by
  have hone := IndexedList.filter_of_get? hu
  simpa only [UserKey.cmp_eq_iff] using hone

end House

namespace GroupHouse

/-- The entry for the node of `u` after `user_update(u)`. -/
def stored (g : GroupHouse) (u : User) : User :=
  if u.id.idStr ≠ "" then u else (g.house.userFind u.id).getD u

/-- The update brings another id string for a node of the house. -/
def Renames (g : GroupHouse) (u : User) : Prop :=
  u.id.idStr ≠ "" ∧ ∃ ui ∈ g.house.userFind u.id, ui.id.idStr ≠ u.id.idStr

instance (g : GroupHouse) (u : User) : Decidable (g.Renames u) :=
  inferInstanceAs (Decidable (_ ∧ ∃ ui ∈ g.house.userFind u.id, ui.id.idStr ≠ u.id.idStr))

theorem userFind_stored (g : GroupHouse) (u : User) :
    (g.userUpdate u).1.house.userFind u.id = some (g.stored u) := by
  rw [userFind_userUpdate, if_pos rfl]
  unfold stored
  by_cases hid : u.id.idStr = ""
  · cases hfind : g.house.userFind u.id <;> simp [hid]
  · simp [hid]

/-- The users of other nodes stay, in their order. -/
theorem others_userUpdate (g : GroupHouse) (u : User) :
    (g.userUpdate u).1.house.users.others u.id = g.house.users.others u.id := by
  unfold userUpdate
  cases hfind : g.house.userFind u.id with
  | none =>
    have hins : g.house.userInsert u = some { g.house with users := g.house.users.insert u } :=
      House.userInsert_eq_some.2 ⟨hfind, rfl⟩
    simp only [hins, Option.getD_some]
    exact IndexedList.others_insert hfind
  | some ui =>
    have hkey : UserKey.cmp ui.id u.id = .eq := UserKey.cmp_eq_iff.2 (House.node_of_userFind hfind)
    have hstore : (g.house.userStore (ui.assign u)).users.others u.id =
        g.house.users.others u.id := by
      rw [← IndexedList.others_congr hkey, ← IndexedList.others_congr hkey]
      exact IndexedList.others_modify fun _ _ => Std.ReflCmp.compare_self
    have herase : (g.house.userErase ui.id).users.others u.id = g.house.users.others u.id := by
      rw [← IndexedList.others_congr hkey, ← IndexedList.others_congr hkey]
      exact IndexedList.others_erase ui.id
    have hgone : (g.house.userErase ui.id).userFind u.id = none := by
      rw [House.userFind_userErase, if_pos (UserKey.cmp_eq_iff.1 hkey)]
    have hins := House.userInsert_eq_some.2 ⟨hgone, rfl⟩
    dsimp only
    split
    · rfl
    · split
      · simp only [hins, Option.getD_some]
        exact (IndexedList.others_insert hgone).trans herase
      · exact hstore

theorem rooms_userUpdate (g : GroupHouse) (u : User) :
    (g.userUpdate u).1.house.rooms = g.house.rooms := by
  have hins : ∀ h : House, ((h.userInsert u).getD h).rooms = h.rooms := by
    intro h
    unfold House.userInsert
    split <;> rfl
  unfold userUpdate
  split
  · exact hins _
  · split
    · rfl
    · split
      · exact hins _
      · rfl

/-- The iterator returned designates the entry, but for an update that renames. -/
theorem snd_userUpdate_iff (g : GroupHouse) (u : User) :
    (∃ k, (g.userUpdate u).2 = some k ∧
        (g.userUpdate u).1.house.userFind k = some (g.stored u)) ↔ ¬ g.Renames u := by
  have hstored := g.userFind_stored u
  unfold Renames
  cases hfind : g.house.userFind u.id with
  | none =>
    refine iff_of_true ⟨u.id, ?_, hstored⟩ (by simp)
    simp [userUpdate, hfind]
  | some ui =>
    have hui : (g.userUpdate u).1.house.userFind ui.id = some (g.stored u) :=
      (House.userFind_congr (House.node_of_userFind hfind)).trans hstored
    by_cases hid : u.id.idStr = ""
    · refine iff_of_true ⟨ui.id, ?_, hui⟩ fun h => h.1 hid
      simp [userUpdate, hfind, hid]
    · by_cases hsame : ui.id.idStr = u.id.idStr
      · refine iff_of_true ⟨ui.id, ?_, hui⟩ ?_
        · simp [userUpdate, hfind, hid, hsame]
        · rintro ⟨-, ui', hui', hne⟩
          cases hui'
          exact hne hsame
      · refine iff_of_false ?_ (not_not_intro ⟨hid, ui, rfl, hsame⟩)
        rintro ⟨k, hk, -⟩
        simp [userUpdate, hfind, hid, hsame] at hk

end GroupHouse

/-! ## All groups -/

namespace ModelHouse

/-- `model::house::user_update` with the iterator that it returns. -/
def userUpdateIter (m : ModelHouse) (u : User) (grp : Int) :
    Option (ModelHouse × Option UserKey) := do
  guard (u.id.node ≠ none)
  let g ← m.houseFind grp
  let (g, it) := g.userUpdate u
  return ({ groups := m.groups.insert grp g }, it)

/-- The model `m'` is `m` with the update of `u`, and the iterator `it` designates its entry. -/
structure Updated (m m' : ModelHouse) (grp : Int) (u : User) (it : Option UserKey) : Prop where
  group : ∃ g g', m.houseFind grp = some g ∧ m'.houseFind grp = some g' ∧
    (g'.house.users.toList.filter fun v => v.id.node = u.id.node) = [g.stored u] ∧
    (g'.house.users.toList.filter fun v => v.id.node ≠ u.id.node) =
      (g.house.users.toList.filter fun v => v.id.node ≠ u.id.node) ∧
    g'.house.rooms.toList = g.house.rooms.toList ∧
    ∃ k, it = some k ∧ g'.house.userFind k = some (g.stored u)
  others : ∀ grp', grp' ≠ grp → m'.houseFind grp' = m.houseFind grp'

/-- **One update.** The group has one entry for the node, the update or what was there before if the
update has no id string; all else is as it was; and the iterator designates the entry exactly when
the update does not rename the user. -/
theorem updated_iff {m : ModelHouse} {grp : Int} {g : GroupHouse} (hg : m.houseFind grp = some g)
    {u : User} (hnode : u.id.node ≠ none) :
    (∃ m' it, m.userUpdateIter u grp = some (m', it) ∧ Updated m m' grp u it) ↔
      ¬ g.Renames u := by
  have hrun : m.userUpdateIter u grp =
      some ({ groups := m.groups.insert grp (g.userUpdate u).1 }, (g.userUpdate u).2) := by
    simp [userUpdateIter, hnode, hg]
  have hfind : ∀ grp', ({ groups := m.groups.insert grp (g.userUpdate u).1 } : ModelHouse).houseFind
      grp' = if grp = grp' then some (g.userUpdate u).1 else m.houseFind grp' :=
    houseFind_insert m grp _
  rw [← g.snd_userUpdate_iff u]
  constructor
  · rintro ⟨m', it, hm', ⟨⟨g₀, g', hg₀, hg', -, -, -, k, rfl, hk⟩, -⟩⟩
    obtain rfl : g = g₀ := Option.some.inj (hg.symm.trans hg₀)
    rw [hrun] at hm'
    obtain ⟨rfl, hit⟩ := Prod.mk.inj (Option.some.inj hm')
    rw [hfind, if_pos rfl] at hg'
    cases hg'
    exact ⟨k, hit, hk⟩
  · rintro ⟨k, hit, hk⟩
    refine ⟨_, _, hrun, ⟨g, (g.userUpdate u).1, hg, ?_, House.filter_node (g.userFind_stored u), ?_,
      ?_, k, hit, hk⟩, fun grp' hne => ?_⟩
    · rw [hfind, if_pos rfl]
    · rw [← House.others_eq, ← House.others_eq, g.others_userUpdate]
    · rw [g.rooms_userUpdate]
    · rw [hfind, if_neg (Ne.symm hne)]

/-- A model with one user, who has not said its name yet. -/
def unnamed : ModelHouse :=
  ((({} : ModelHouse).allowGroup "DHT" 29).userUpdate (User.ofNode ⟨1, 1⟩ 0) 29).getD {}

/-- Another user comes, "b". -/
theorem updated_new : ∃ m' it, unnamed.userUpdateIter { id := ⟨some ⟨2, 1⟩, "b"⟩ } 29 =
    some (m', it) ∧ Updated unnamed m' 29 { id := ⟨some ⟨2, 1⟩, "b"⟩ } it := by
  obtain ⟨g, hg⟩ : ∃ g, unnamed.houseFind 29 = some g := ⟨_, rfl⟩
  refine (updated_iff hg (by decide)).2 ?_
  obtain rfl : (unnamed.houseFind 29).get (by decide) = g := by simp [hg]
  decide

/-- The user says its name. -/
theorem not_updated_of_named :
    ¬ ∃ m' it, unnamed.userUpdateIter { id := ⟨some ⟨1, 1⟩, "a"⟩ } 29 = some (m', it) ∧
      Updated unnamed m' 29 { id := ⟨some ⟨1, 1⟩, "a"⟩ } it := by
  rintro ⟨m', it, hm', ⟨⟨-, -, -, -, -, -, -, k, rfl, -⟩, -⟩⟩
  have hnone : (unnamed.userUpdateIter { id := ⟨some ⟨1, 1⟩, "a"⟩ } 29).bind Prod.snd = none := by
    decide
  rw [hm'] at hnone
  cases hnone

end ModelHouse

end RvHouse
