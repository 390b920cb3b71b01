import RvHouse.Lib.Mealy
import RvHouse.Lib.ReverseIndex
import RvHouse.Model.House

/-!
# Finding users by id string

The model of a group keeps a map from id strings to keys next to the users. An insertion into the
map does not replace what is there, and a removal goes by the string, whoever it stands for, so two
nodes with one id string get in each other's way. `findsByStr_iff_guarded` says which sequences of
calls keep the search by id string correct: those in which a string is taken off a node only when no
other node carries it, and no string is given out again while the map still leads from it to a node
that has gone (`Harmless`). `not_findsByStr_of_shared` is a sequence that loses a user.

The proofs see a group as two functions, the id string of each node (`nameAt`) and the node that
the map gives for each string (`nodeOf`), and use the rules of `ReverseIndex` for them.
-/

namespace RvHouse.GroupHouse

open Std

/-- A call on the model of one group; every user has a node. -/
inductive Call where
  | update (u : User) (n : Node) (hn : u.id.node = some n)
  | erase (n : Node) (idStr : String)

/-- The model of one group after a call. -/
def call (g : GroupHouse) : Call → GroupHouse
  | .update u _ _ => (g.userUpdate u).1
  | .erase n s => (g.userErase ⟨some n, s⟩).1

/-- The model of one group as a machine. -/
def machine : Mealy GroupHouse Call Empty := ⟨fun g c => (g.call c, [])⟩

/-- The search by a bare id string finds a user exactly when one carries the string, and the user
that it finds carries it. -/
def FindsByStr (g : GroupHouse) : Prop :=
  ∀ s, s ≠ "" →
    ((g.userFind (.ofIdStr s)).isSome ↔ ∃ u ∈ g.house.users.toList, u.id.idStr = s) ∧
    ∀ u, g.userFind (.ofIdStr s) = some u → u.id.idStr = s

/-! ## The two functions -/

/-- The id string of the entry of a node. -/
def nameAt (g : GroupHouse) (n : Node) : Option String :=
  (g.house.userFind (.ofNode n)).map (·.id.idStr)

/-- The node that the map gives for a string. -/
def nodeOf (g : GroupHouse) (s : String) : Option Node := g.strMap[s]?.bind (·.node)

/-- Every entry and every key in the map has a node. -/
structure Noded (g : GroupHouse) : Prop where
  house : g.house.userFind {} = none
  strMap : ∀ (s : String) (k : UserKey), g.strMap[s]? = some k → k.node ≠ none

theorem userFind_ofIdStr {g : GroupHouse} (h : g.Noded) (s : String) :
    g.userFind (.ofIdStr s) = (g.nodeOf s).bind fun n => g.house.userFind (.ofNode n) := by
  unfold userFind nodeOf
  simp only [UserKey.ofIdStr, if_true]
  cases hs : g.strMap[s]? with
  | none =>
    refine (House.userFind_congr ?_).trans h.house
    rfl
  | some k =>
    obtain ⟨n, hn⟩ := Option.ne_none_iff_exists'.1 (h.strMap s k hs)
    simp only [Option.bind_some, hn]
    exact House.userFind_congr rfl

theorem exists_carrier_iff {g : GroupHouse} (h : g.Noded) {s : String} :
    (∃ u ∈ g.house.users.toList, u.id.idStr = s) ↔ ∃ n, g.nameAt n = some s := by
  simp only [nameAt, Option.map_eq_some_iff]
  constructor
  · rintro ⟨u, hu, hs⟩
    have hfind := House.mem_users.1 hu
    cases hn : u.id.node with
    | none =>
      have hnone : g.house.userFind u.id = none := (House.userFind_congr hn).trans h.house
      simp [hnone] at hfind
    | some n => exact ⟨n, u, (House.userFind_congr hn.symm).trans hfind, hs⟩
  · rintro ⟨n, u, hu, hs⟩
    have hnode := House.node_of_userFind hu
    exact ⟨u, House.mem_users.2 ((House.userFind_congr hnode).trans hu), hs⟩

/-- What the search for one string needs of the two functions. -/
abbrev Finds (g : GroupHouse) (s : String) : Prop := ReverseIndex.Finds g.nameAt (g.nodeOf s) s

theorem findsByStr_iff {g : GroupHouse} (h : g.Noded) :
    g.FindsByStr ↔ ∀ s, s ≠ "" → g.Finds s := by
  refine forall₂_congr fun s _ => ?_
  rw [userFind_ofIdStr h, exists_carrier_iff h]
  constructor
  · rintro ⟨hsome, hsound⟩
    refine ⟨fun n l hn hl => ?_, fun n hn => ?_⟩
    · obtain ⟨u, hu, rfl⟩ := Option.map_eq_some_iff.1 hl
      exact hsound u (by rw [hn, Option.bind_some, hu])
    · obtain ⟨u, hu⟩ := Option.isSome_iff_exists.1 (hsome.2 ⟨n, hn⟩)
      obtain ⟨m, hm, hmu⟩ := Option.bind_eq_some_iff.1 hu
      exact ⟨m, hm, by rw [nameAt, hmu, Option.map_some, hsound u hu]⟩
  · rintro ⟨hsound, hcomplete⟩
    have hname : ∀ u, (g.nodeOf s).bind (fun n => g.house.userFind (.ofNode n)) = some u →
        u.id.idStr = s := by
      intro u hu
      obtain ⟨m, hm, hmu⟩ := Option.bind_eq_some_iff.1 hu
      exact hsound m _ hm (by rw [nameAt, hmu, Option.map_some])
    refine ⟨⟨fun h => ?_, fun ⟨n, hn⟩ => ?_⟩, hname⟩
    · obtain ⟨u, hu⟩ := Option.isSome_iff_exists.1 h
      obtain ⟨m, hm, hmu⟩ := Option.bind_eq_some_iff.1 hu
      exact ⟨m, by rw [nameAt, hmu, Option.map_some, hname u hu]⟩
    · obtain ⟨m, hm, hms⟩ := hcomplete n hn
      obtain ⟨u, hu, -⟩ := Option.map_eq_some_iff.1 hms
      simp [hm, hu]

/-! ## The calls on the two functions -/

theorem nameAt_update (g : GroupHouse) {u : User} {n : Node} (hn : u.id.node = some n) :
    (g.userUpdate u).1.nameAt = Function.update g.nameAt n
      (if u.id.idStr = "" ∧ g.nameAt n ≠ none then g.nameAt n else some u.id.idStr) := by
  have hkey : g.house.userFind u.id = g.house.userFind (.ofNode n) := House.userFind_congr hn
  funext m
  unfold nameAt
  rw [userFind_userUpdate, hn, hkey]
  by_cases hm : m = n
  · subst hm
    cases g.house.userFind (.ofNode m) <;> by_cases hid : u.id.idStr = "" <;> simp [hid]
  · have hm' : n ≠ m := Ne.symm hm
    simp [hm, hm']

theorem nameAt_erase (g : GroupHouse) (n : Node) (s : String) :
    (g.userErase ⟨some n, s⟩).1.nameAt = Function.update g.nameAt n none := by
  funext m
  unfold nameAt
  rw [userFind_userErase]
  by_cases hm : m = n
  · simp [hm]
  · have hm' : n ≠ m := Ne.symm hm
    simp [hm, hm']

theorem getElem?_erase (m : TreeMap String UserKey) (i t : String) :
    (m.erase i)[t]? = if t = i then none else m[t]? := by
  rw [TreeMap.getElem?_erase]
  by_cases ht : t = i
  · simp [ht]
  · have ht' : i ≠ t := Ne.symm ht
    simp [ht, ht']

theorem nodeOf_erase (g : GroupHouse) (n : Node) (s t : String) :
    (g.userErase ⟨some n, s⟩).1.nodeOf t = if t = s then none else g.nodeOf t := by
  simp only [nodeOf, userErase, getElem?_erase]
  split <;> rfl

/-- The map after an insertion that does not replace what is there. -/
theorem bind_insertIfNew (m : TreeMap String UserKey) (i t : String) {k : UserKey} {n : Node}
    (hk : k.node = some n) (hm : ∀ k' : UserKey, m[t]? = some k' → k'.node ≠ none) :
    ((m.insertIfNew i k)[t]?).bind (·.node) =
      if t = i then ((m[t]?).bind (·.node)).or (some n) else (m[t]?).bind (·.node) := by
  rw [TreeMap.getElem?_insertIfNew]
  by_cases ht : t = i
  · subst ht
    cases hc : m[t]? with
    | none => simp [hk, TreeMap.mem_iff_isSome_getElem?, hc]
    | some k' =>
      obtain ⟨n', hn'⟩ := Option.ne_none_iff_exists'.1 (hm k' hc)
      simp [hn', TreeMap.mem_iff_isSome_getElem?, hc]
  · have ht' : i ≠ t := Ne.symm ht
    simp [ht, ht']

/-- A new string gets the node of the user, an old one keeps what it has. -/
theorem nodeOf_update {g : GroupHouse} (h : g.Noded) {u : User} {n : Node}
    (hn : u.id.node = some n) (t : String) :
    (g.userUpdate u).1.nodeOf t =
      match g.nameAt n with
      | none =>
        if u.id.idStr ≠ "" ∧ t = u.id.idStr then (g.nodeOf t).or (some n) else g.nodeOf t
      | some old =>
        if u.id.idStr = "" ∨ old = u.id.idStr then g.nodeOf t
        else if t = u.id.idStr then (g.nodeOf t).or (some n)
        else if t = old then none
        else g.nodeOf t := by
  have hkey : g.house.userFind u.id = g.house.userFind (.ofNode n) := House.userFind_congr hn
  unfold userUpdate nameAt nodeOf
  rw [hkey]
  cases hf : g.house.userFind (.ofNode n) with
  | none =>
    by_cases hid : u.id.idStr = ""
    · simp [hid]
    · simp [hid, bind_insertIfNew g.strMap u.id.idStr t hn (h.strMap t)]
  | some ui =>
    by_cases hid : u.id.idStr = ""
    · simp [hid]
    · by_cases hne : ui.id.idStr = u.id.idStr
      · simp [hid, hne]
      · have hm : ∀ k : UserKey, (g.strMap.erase ui.id.idStr)[t]? = some k → k.node ≠ none := by
          intro k hk
          rw [getElem?_erase] at hk
          split at hk
          · cases hk
          · exact h.strMap t k hk
        simp only [hid, hne, if_false, ne_eq, not_false_eq_true, if_true, or_self, Option.map_some,
          bind_insertIfNew _ u.id.idStr t hn hm, getElem?_erase]
        by_cases ht : t = ui.id.idStr
        · simp [ht, hne]
        · simp [ht]

theorem noded_insertIfNew {m : TreeMap String UserKey} {i : String} {k : UserKey}
    (hk : k.node ≠ none) (hm : ∀ (s : String) (k' : UserKey), m[s]? = some k' → k'.node ≠ none)
    (s : String) (k' : UserKey) (hs : (m.insertIfNew i k)[s]? = some k') : k'.node ≠ none := by
  rw [TreeMap.getElem?_insertIfNew] at hs
  split at hs
  · cases hs
    exact hk
  · exact hm s k' hs

theorem noded_erase {m : TreeMap String UserKey} {i : String}
    (hm : ∀ (s : String) (k' : UserKey), m[s]? = some k' → k'.node ≠ none)
    (s : String) (k' : UserKey) (hs : (m.erase i)[s]? = some k') : k'.node ≠ none := by
  rw [getElem?_erase] at hs
  split at hs
  · cases hs
  · exact hm s k' hs

theorem Noded.call {g : GroupHouse} (h : g.Noded) (c : Call) : (g.call c).Noded := by
  cases c with
  | update u n hn =>
    refine ⟨?_, ?_⟩
    · simp [GroupHouse.call, userFind_userUpdate, hn, h.house]
    · have hne : u.id.node ≠ none := by simp [hn]
      simp only [GroupHouse.call, userUpdate]
      split
      · split
        · exact noded_insertIfNew hne h.strMap
        · exact h.strMap
      · split
        · exact h.strMap
        · split
          · exact noded_insertIfNew hne (noded_erase h.strMap)
          · exact h.strMap
  | erase n s =>
    refine ⟨?_, noded_erase h.strMap⟩
    simp [GroupHouse.call, userFind_userErase, h.house]

theorem noded_empty : ({} : GroupHouse).Noded where
  house := House.userFind_empty _
  strMap s k hs := by simp at hs

/-! ## The condition -/

/-- No other node carries the string. -/
def OnlyCarrier (g : GroupHouse) (n : Node) (s : String) : Prop := ∀ m, g.nameAt m = some s → m = n

/-- The map leads from the string to a node that has gone. -/
def LeftOver (g : GroupHouse) (s : String) (n : Node) : Prop :=
  g.nodeOf s = some n ∧ g.nameAt n = none

/-- A call that takes a string off a node only when no other node carries it, and that gives out no
string, and lets in no node, for which the map still has a left-over entry. -/
def Harmless (g : GroupHouse) : Call → Prop
  | .update u n _ =>
    match g.nameAt n with
    | none =>
      (∀ s, s ≠ "" → s ≠ u.id.idStr → ¬ g.LeftOver s n) ∧
        (u.id.idStr ≠ "" → ∀ m, m ≠ n → ¬ g.LeftOver u.id.idStr m)
    | some old =>
      u.id.idStr = "" ∨ old = u.id.idStr ∨
        (old ≠ "" → g.OnlyCarrier n old) ∧ ∀ m, ¬ g.LeftOver u.id.idStr m
  | .erase n s =>
    (s ≠ "" → g.OnlyCarrier n s) ∧
      ∀ old, g.nameAt n = some old → old ≠ "" → g.nodeOf old = some n → g.OnlyCarrier n old

/-- A string that a node gets is found unless the map has a left-over entry for it. -/
theorem finds_give_iff {g : GroupHouse} (hg : ∀ s, s ≠ "" → g.Finds s) {n : Node} {s : String}
    (hs : s ≠ "") (hn : g.nameAt n ≠ some s) :
    ReverseIndex.Finds (Function.update g.nameAt n (some s)) ((g.nodeOf s).or (some n)) s ↔
      ∀ m, m ≠ n → ¬ g.LeftOver s m := by
  rw [ReverseIndex.finds_give (hg s hs) hn]
  simp only [LeftOver, not_and, ne_eq]

theorem finds_insert {g : GroupHouse} (h : g.Noded) (hg : ∀ s, s ≠ "" → g.Finds s) {u : User}
    {n : Node} (hn : u.id.node = some n) (ho : g.nameAt n = none) :
    (∀ s, s ≠ "" → (g.userUpdate u).1.Finds s) ↔ g.Harmless (.update u n hn) := by
  have hnone : ∀ s : String, g.nameAt n ≠ some s := by simp [ho]
  have hother : ∀ s, s ≠ "" → s ≠ u.id.idStr →
      (ReverseIndex.Finds (Function.update g.nameAt n (some u.id.idStr)) (g.nodeOf s) s ↔
        ¬ g.LeftOver s n) := by
    intro s hs hsi
    rw [ReverseIndex.finds_give_other (hg s hs) (hnone s) (Ne.symm hsi)]
    simp [LeftOver, ho]
  simp only [Finds, nameAt_update g hn, nodeOf_update h hn, ho, Harmless, ne_eq, not_true_eq_false,
    and_false, if_false]
  constructor
  · intro h'
    refine ⟨fun s hs hsi => ?_, fun hi => ?_⟩
    · have hs' := h' s hs
      rw [if_neg (by simp [hsi])] at hs'
      exact (hother s hs hsi).1 hs'
    · have hi' := h' u.id.idStr hi
      rw [if_pos ⟨hi, rfl⟩] at hi'
      exact (finds_give_iff hg hi (hnone _)).1 hi'
  · rintro ⟨hrest, hgive⟩ s hs
    by_cases hsi : s = u.id.idStr
    · subst hsi
      rw [if_pos ⟨hs, rfl⟩]
      exact (finds_give_iff hg hs (hnone _)).2 (hgive hs)
    · rw [if_neg (by simp [hsi])]
      exact (hother s hs hsi).2 (hrest s hs hsi)

/-- A node that is stored is left over nowhere. -/
theorem forall_not_leftOver_iff {g : GroupHouse} {n : Node} {old : String}
    (ho : g.nameAt n = some old) (s : String) :
    (∀ m, m ≠ n → ¬ g.LeftOver s m) ↔ ∀ m, ¬ g.LeftOver s m := by
  refine forall_congr' fun m => ⟨fun hm hl => ?_, fun hm _ => hm⟩
  by_cases hmn : m = n
  · subst hmn
    simp [LeftOver, ho] at hl
  · exact hm hmn hl

/-- A new string of a node leaves the search for the others as it is. -/
theorem finds_rename_other {g : GroupHouse} (hg : ∀ s, s ≠ "" → g.Finds s) {n : Node}
    {old new : String} (ho : g.nameAt n = some old) {s : String} (hs : s ≠ "") (hsn : s ≠ new)
    (hso : s ≠ old) :
    ReverseIndex.Finds (Function.update g.nameAt n (some new)) (g.nodeOf s) s := by
  have hns : g.nameAt n ≠ some s := by simpa [ho] using Ne.symm hso
  -- The node cannot be the entry of a string that it does not carry.
  refine (ReverseIndex.finds_give_other (hg s hs) hns (Ne.symm hsn)).2 fun he => ?_
  exact hso ((hg s hs).sound n old he ho).symm

theorem finds_rename {g : GroupHouse} (h : g.Noded) (hg : ∀ s, s ≠ "" → g.Finds s) {u : User}
    {n : Node} (hn : u.id.node = some n) {old : String} (ho : g.nameAt n = some old) :
    (∀ s, s ≠ "" → (g.userUpdate u).1.Finds s) ↔ g.Harmless (.update u n hn) := by
  simp only [Finds, nameAt_update g hn, nodeOf_update h hn, ho, Harmless, ne_eq, not_false_eq_true,
    and_true, reduceCtorEq]
  have hsame : Function.update g.nameAt n (some old) = g.nameAt := by
    rw [← ho, Function.update_eq_self]
  by_cases hi : u.id.idStr = ""
  · simpa [hi, hsame] using hg
  by_cases hold : old = u.id.idStr
  · subst hold
    simpa [hi, hsame] using hg
  simp only [hi, hold, if_false, or_self, false_or]
  have hnew : g.nameAt n ≠ some u.id.idStr := by simpa [ho] using hold
  constructor
  · intro h'
    refine ⟨fun hne => ?_, ?_⟩
    · have hs' := h' old hne
      rw [if_neg hold, if_pos rfl] at hs'
      exact (ReverseIndex.finds_drop (by simpa using Ne.symm hold)).1 hs'
    · have hs' := h' u.id.idStr hi
      rw [if_pos rfl] at hs'
      exact (forall_not_leftOver_iff ho _).1 ((finds_give_iff hg hi hnew).1 hs')
  · rintro ⟨honly, hgive⟩ s hs
    by_cases hsi : s = u.id.idStr
    · subst hsi
      rw [if_pos rfl]
      exact (finds_give_iff hg hs hnew).2 ((forall_not_leftOver_iff ho _).2 hgive)
    · rw [if_neg hsi]
      by_cases hso : s = old
      · subst hso
        rw [if_pos rfl]
        exact (ReverseIndex.finds_drop (by simpa using Ne.symm hsi)).2 (honly hs)
      · rw [if_neg hso]
        exact finds_rename_other hg ho hs hsi hso

theorem finds_erase {g : GroupHouse} (hg : ∀ s, s ≠ "" → g.Finds s) (n : Node) (i : String) :
    (∀ s, s ≠ "" → (g.userErase ⟨some n, i⟩).1.Finds s) ↔ g.Harmless (.erase n i) := by
  simp only [Finds, nameAt_erase, nodeOf_erase]
  constructor
  · intro h'
    refine ⟨fun hi => ?_, fun old ho hne he => ?_⟩
    · have := h' i hi
      rw [if_pos rfl] at this
      exact (ReverseIndex.finds_drop (by simp)).1 this
    · have := h' old hne
      split at this
      · exact (ReverseIndex.finds_drop (by simp)).1 this
      · exact (ReverseIndex.finds_take (hg old hne)).1 this ho he
  · rintro ⟨hi, hold⟩ s hs
    split
    · rename_i hsi
      subst hsi
      exact (ReverseIndex.finds_drop (by simp)).2 (hi hs)
    · exact (ReverseIndex.finds_take (hg s hs)).2 fun ho he => hold s ho hs he

/-! ## Runs -/

theorem finds_call {g : GroupHouse} (h : g.Noded) (hg : ∀ s, s ≠ "" → g.Finds s) (c : Call) :
    (∀ s, s ≠ "" → (g.call c).Finds s) ↔ g.Harmless c := by
  cases c with
  | update u n hn =>
    cases ho : g.nameAt n with
    | none => exact finds_insert h hg hn ho
    | some old => exact finds_rename h hg hn ho
  | erase n i => exact finds_erase hg n i

/-- A call keeps the search correct exactly when it is harmless. -/
theorem findsByStr_call (g : GroupHouse) (c : Call) (hg : g.Noded ∧ g.FindsByStr) :
    (g.call c).Noded ∧ (g.call c).FindsByStr ↔ g.Harmless c := by
  rw [and_iff_right (hg.1.call c), findsByStr_iff (hg.1.call c)]
  exact finds_call hg.1 ((findsByStr_iff hg.1).1 hg.2) c

theorem findsByStr_empty : ({} : GroupHouse).FindsByStr := by
  rw [findsByStr_iff noded_empty]
  refine fun s _ => ⟨fun n l hn _ => ?_, fun n hn => ?_⟩
  · simp [nodeOf] at hn
  · simp [nameAt] at hn

/-- **When users are found by their id strings.** The search is correct in every state of a run
exactly when each of its calls is harmless. -/
theorem findsByStr_iff_guarded (cs : List Call) :
    (∀ ds, ds <+: cs → (machine.exec {} ds).FindsByStr) ↔ machine.Guarded Harmless {} cs := by
  have hnoded : ∀ ds, (machine.exec {} ds).Noded := fun ds =>
    machine.invariant_all (fun g c h => h.call c) noded_empty ds
  rw [← machine.forall_along_iff_guarded findsByStr_call ⟨noded_empty, findsByStr_empty⟩ cs]
  exact forall₂_congr fun ds _ => (and_iff_right (hnoded ds)).symm

/-- A user that comes back under a second node is lost to the search when the first node goes. -/
theorem not_findsByStr_of_shared :
    ¬ (machine.exec {}
      [.update { id := ⟨some ⟨1, 2⟩, "a"⟩ } ⟨1, 2⟩ rfl,
        .update { id := ⟨some ⟨3, 4⟩, "a"⟩ } ⟨3, 4⟩ rfl, .erase ⟨1, 2⟩ "a"]).FindsByStr := by
  intro h
  have hsome := (h "a" (by decide)).1.2 ⟨{ id := ⟨some ⟨3, 4⟩, "a"⟩ }, by decide, rfl⟩
  revert hsome
  decide

end RvHouse.GroupHouse
