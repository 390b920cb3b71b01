import RvHouse.Chat.UserKey

/-!
# Items of users from several feeds

`multi_feed::user_map` merges what the groups say about one person: the items of users with an id
string are found by it, those of users without one wait in a list, by their keys, until the string
is known. An item that is taken out goes to the list of dropped items. The items are pointers in
the source, and each is in one place; `modify` is what writing through the pointer does.
-/

namespace RvHouse

open Std

/-- `multi_feed::item`: the key of the user in each feed. -/
abbrev FeedIdMap := TreeMap Int UserKey

/-- `multi_feed::user_map`. -/
structure UserMap (T : Type) where
  idMap : TreeMap String T := ∅
  unidList : List (UserKey × T) := []
  dropList : List T := []

namespace UserMap

variable {T : Type}

/-- `multi_feed::user_map::find`. -/
def find (m : UserMap T) (uid : UserKey) : Option T :=
  if uid.idStr ≠ "" then m.idMap[uid.idStr]?
  else (m.unidList.find? fun p => uid.eqv p.1).map (·.2)

/-- The first item under the key in the list is dropped. -/
def dropUnid (m : UserMap T) (uid : UserKey) : UserMap T :=
  match m.unidList.find? fun p => uid.eqv p.1 with
  | some p =>
    { m with
      unidList := m.unidList.eraseP fun p => uid.eqv p.1
      dropList := m.dropList ++ [p.2] }
  | none => m

/-- `multi_feed::user_map::erase`; its callers ignore the number of items erased. -/
def erase (m : UserMap T) (uid : UserKey) : UserMap T :=
  let m :=
    if uid.idStr ≠ "" then
      match m.idMap[uid.idStr]? with
      | some item => { m with idMap := m.idMap.erase uid.idStr, dropList := m.dropList ++ [item] }
      | none => m
    else m
  m.dropUnid uid

/-- `multi_feed::user_map::insert`; its callers ignore whether it inserted. -/
def insert (m : UserMap T) (uid : UserKey) (item : T) : UserMap T :=
  if uid.idStr ≠ "" then { m with idMap := m.idMap.insertIfNew uid.idStr item }
  else { m with unidList := m.unidList ++ [(uid, item)] }

/-- `multi_feed::user_map::resolve`. -/
def resolve (m : UserMap T) (uid : UserKey) : UserMap T :=
  if uid.idStr ≠ "" ∧ uid.idStr ∈ m.idMap then m.dropUnid uid else m

/-- The first item under the key is changed. -/
def modifyUnid (uid : UserKey) (f : T → T) : List (UserKey × T) → List (UserKey × T)
  | [] => []
  | p :: ps => if uid.eqv p.1 then (p.1, f p.2) :: ps else p :: modifyUnid uid f ps

/-- The item that `find` gives is changed. -/
def modify (m : UserMap T) (uid : UserKey) (f : T → T) : UserMap T :=
  if uid.idStr ≠ "" then
    match m.idMap[uid.idStr]? with
    | some item => { m with idMap := m.idMap.insert uid.idStr (f item) }
    | none => m
  else { m with unidList := modifyUnid uid f m.unidList }

/-- `pop_dropped` until nothing is left. -/
def dropAll (m : UserMap T) : UserMap T := { m with dropList := [] }

/-! ## Lookups -/

/-- A user with an id string is found by it. -/
theorem find_of_named (m : UserMap T) {uid : UserKey} (h : uid.idStr ≠ "") :
    m.find uid = m.idMap[uid.idStr]? := if_pos h

@[simp] theorem idMap_dropUnid (m : UserMap T) (uid : UserKey) :
    (m.dropUnid uid).idMap = m.idMap := by
  unfold dropUnid
  split <;> rfl

@[simp] theorem idMap_resolve (m : UserMap T) (uid : UserKey) : (m.resolve uid).idMap = m.idMap := by
  unfold resolve
  split
  · exact idMap_dropUnid m uid
  · rfl

theorem getElem?_erase (m : UserMap T) (uid : UserKey) (s : String) :
    (m.erase uid).idMap[s]? = if uid.idStr ≠ "" ∧ uid.idStr = s then none else m.idMap[s]? := by
  unfold erase
  by_cases hid : uid.idStr = ""
  · simp [hid]
  · cases hitem : m.idMap[uid.idStr]? with
    | none =>
      by_cases hs : uid.idStr = s
      · subst hs
        simp [hid, hitem]
      · simp [hid, hs]
    | some item =>
      simp only [hid, ne_eq, not_false_eq_true, if_true, true_and, idMap_dropUnid,
        TreeMap.getElem?_erase, LawfulEqOrd.compare_eq_iff_eq]

theorem getElem?_modify (m : UserMap T) (uid : UserKey) (f : T → T) (s : String) :
    (m.modify uid f).idMap[s]? =
      if uid.idStr ≠ "" ∧ uid.idStr = s then m.idMap[s]?.map f else m.idMap[s]? := by
  unfold modify
  by_cases hid : uid.idStr = ""
  · simp [hid]
  · cases hitem : m.idMap[uid.idStr]? with
    | none =>
      by_cases hs : uid.idStr = s
      · subst hs
        simp [hid, hitem]
      · simp [hid, hs]
    | some item =>
      by_cases hs : uid.idStr = s
      · subst hs
        simp [hid, hitem]
      · simp [hid, hs, TreeMap.getElem?_insert]

theorem getElem?_insert {m : UserMap T} {uid : UserKey} (hf : m.find uid = none) (item : T)
    (s : String) :
    (m.insert uid item).idMap[s]? =
      if uid.idStr ≠ "" ∧ uid.idStr = s then some item else m.idMap[s]? := by
  unfold insert
  by_cases hid : uid.idStr = ""
  · simp [hid]
  · have hnone : m.idMap[uid.idStr]? = none := (m.find_of_named hid).symm.trans hf
    by_cases hs : uid.idStr = s
    · subst hs
      have hmem : uid.idStr ∉ m.idMap := by simpa using hnone
      have hnew : (m.idMap.insertIfNew uid.idStr item)[uid.idStr]? = some item := by
        rw [TreeMap.getElem?_insertIfNew, if_pos ⟨compare_self, hmem⟩]
      simpa [hid] using hnew
    · simp [hid, hs, TreeMap.getElem?_insertIfNew]

/-! ## The list of the unnamed -/

/-- The items in the list are those of users without an id string. -/
def Unnamed (m : UserMap T) : Prop := ∀ p ∈ m.unidList, p.1.idStr = ""

theorem map_modifyUnid (uid : UserKey) (f : T → T) (l : List (UserKey × T)) :
    (modifyUnid uid f l).map (·.1) = l.map (·.1) := by
  induction l with
  | nil => rfl
  | cons p ps ih =>
    unfold modifyUnid
    split
    · rfl
    · simp [ih]

theorem unnamed_iff {m : UserMap T} : m.Unnamed ↔ ∀ k ∈ m.unidList.map (·.1), k.idStr = "" := by
  simp [Unnamed]

theorem Unnamed.modify {m : UserMap T} (h : m.Unnamed) (uid : UserKey) (f : T → T) :
    (m.modify uid f).Unnamed := by
  rw [unnamed_iff] at h ⊢
  unfold UserMap.modify
  split
  · split <;> exact h
  · simpa only [map_modifyUnid] using h

theorem Unnamed.dropUnid {m : UserMap T} (h : m.Unnamed) (uid : UserKey) :
    (m.dropUnid uid).Unnamed := by
  unfold UserMap.dropUnid
  split
  · exact fun p hp => h p (List.mem_of_mem_eraseP hp)
  · exact h

theorem Unnamed.erase {m : UserMap T} (h : m.Unnamed) (uid : UserKey) : (m.erase uid).Unnamed := by
  unfold UserMap.erase
  refine Unnamed.dropUnid ?_ uid
  split
  · split <;> exact h
  · exact h

theorem Unnamed.resolve {m : UserMap T} (h : m.Unnamed) (uid : UserKey) :
    (m.resolve uid).Unnamed := by
  unfold UserMap.resolve
  split
  · exact h.dropUnid uid
  · exact h

theorem Unnamed.insert {m : UserMap T} (h : m.Unnamed) (uid : UserKey) (item : T) :
    (m.insert uid item).Unnamed := by
  unfold UserMap.insert
  split
  · exact h
  · rename_i hid
    intro p hp
    rcases List.mem_append.1 hp with hp | hp
    · exact h p hp
    · obtain rfl := List.mem_singleton.1 hp
      simpa using hid

end UserMap

end RvHouse
