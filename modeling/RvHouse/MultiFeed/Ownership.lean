import RvHouse.Lib.Mealy
import RvHouse.MultiFeed.UserMap
import Mathlib.Algebra.BigOperators.Group.Multiset.Basic

/-!
# Where the items of a user map are

The items are pointers, and who pops one deletes it. `UserMap.calls` is the system that takes the
calls one after the other and puts out what is popped. When a fresh item is inserted under a key
only after `find` gave nothing for it, no item is lost and none is in two places: each is found by
its string, waits in the list of the unnamed, waits to be popped, or was popped
(`inserted_mem_unique_place`). That is conservation (`values_add_popped`): an item goes from one
place to another, or into the output. The keys of the unnamed are moreover those of different nodes
(`Apart`), so that an erased key is not found again.
-/

namespace RvHouse

open Std

/-- A map with one key more has one entry more. -/
theorem toList_perm_cons {α β : Type*} {cmp : α → α → Ordering} [TransCmp cmp] [LawfulEqCmp cmp]
    [DecidableEq α] {t t' : TreeMap α β cmp} {k : α} {v : β} (hk : t[k]? = none)
    (h : ∀ a, t'[a]? = if k = a then some v else t[a]?) :
    t'.toList.Perm ((k, v) :: t.toList) := by
  have hnodup : ∀ t : TreeMap α β cmp, t.toList.Nodup := fun t =>
    t.distinct_keys_toList.imp fun hne heq => hne (by rw [heq]; exact ReflCmp.compare_self)
  have hnew : (k, v) ∉ t.toList := by simp [hk]
  apply (List.perm_ext_iff_of_nodup (hnodup t') (List.nodup_cons.2 ⟨hnew, hnodup t⟩)).2
  rintro ⟨a, b⟩
  simp only [TreeMap.mem_toList_iff_getElem?_eq_some, h, List.mem_cons, Prod.mk.injEq]
  split
  · rename_i hka
    subst hka
    simp [hk, eq_comm]
  · rename_i hka
    simp [Ne.symm hka]

namespace UserMap

variable {T : Type}

/-- `multi_feed::user_map::pop_dropped`. -/
def popDropped (m : UserMap T) : Option T × UserMap T :=
  match m.dropList with
  | v :: vs => (some v, { m with dropList := vs })
  | [] => (none, m)

/-- A call of a member function that changes the map. -/
inductive Call (T : Type) where
  | insert (uid : UserKey) (val : T)
  | erase (uid : UserKey)
  | resolve (uid : UserKey)
  | popDropped

/-- The system that takes the calls; its outputs are the values that `pop_dropped` returns. -/
def calls : Mealy (UserMap T) (Call T) T where
  step m
    | .insert uid val => (m.insert uid val, [])
    | .erase uid => (m.erase uid, [])
    | .resolve uid => (m.resolve uid, [])
    | .popDropped => (m.popDropped.2, m.popDropped.1.toList)

/-- A value is inserted under a key that is not found. -/
def Call.AfterFind (m : UserMap T) : Call T → Prop
  | .insert uid _ => m.find uid = none
  | _ => True

/-- The value that a call inserts. -/
def Call.val? : Call T → Option T
  | .insert _ val => some val
  | _ => none

/-- The values that the calls insert, in order. -/
def inserted (cs : List (Call T)) : List T := cs.filterMap Call.val?

/-! ## Conservation -/

/-- Where a value can be. -/
inductive Place where
  | idMap
  | unidList
  | dropList
  | popped
deriving DecidableEq

/-- The values in a place, when `popped` were returned so far. -/
def contents (m : UserMap T) (popped : List T) : Place → List T
  | .idMap => m.idMap.toList.map (·.2)
  | .unidList => m.unidList.map (·.2)
  | .dropList => m.dropList
  | .popped => popped

/-- The values in the map. -/
def values (m : UserMap T) : Multiset T :=
  (m.idMap.toList.map (·.2) : List T) + ((m.unidList.map (·.2) : List T) + (m.dropList : List T))

theorem perm_eraseP {α : Type*} {p : α → Bool} {l : List α} {a : α} (h : l.find? p = some a) :
    l.Perm (a :: l.eraseP p) := by
  induction l with
  | nil => cases h
  | cons b l ih =>
    cases hb : p b with
    | true =>
      obtain rfl : b = a := by simpa [hb] using h
      simp [hb]
    | false =>
      have htail : l.find? p = some a := by simpa [hb] using h
      rw [List.eraseP_cons_of_neg (by simp [hb])]
      exact ((ih htail).cons b).trans (List.Perm.swap a b _)

/-- A value that is dropped stays in the map. -/
theorem values_dropUnid (m : UserMap T) (uid : UserKey) : (m.dropUnid uid).values = m.values := by
  unfold dropUnid
  split
  · rename_i p hp
    have hunid : ((m.unidList.map (·.2) : List T) : Multiset T) =
        p.2 ::ₘ ((m.unidList.eraseP fun p => uid.eqv p.1).map (·.2) : List T) :=
      Multiset.coe_eq_coe.2 ((perm_eraseP hp).map _)
    have hdrop : ((m.dropList ++ [p.2] : List T) : Multiset T) = p.2 ::ₘ (m.dropList : List T) :=
      Multiset.coe_eq_coe.2 (List.perm_append_singleton _ _)
    simp only [values, hunid, hdrop]
    rw [Multiset.add_cons, Multiset.cons_add]
  · rfl

theorem values_erase (m : UserMap T) (uid : UserKey) : (m.erase uid).values = m.values := by
  unfold erase
  rw [values_dropUnid]
  split
  · split
    · rename_i item hitem
      have hid : ((m.idMap.toList.map (·.2) : List T) : Multiset T) =
          item ::ₘ ((m.idMap.erase uid.idStr).toList.map (·.2) : List T) := by
        apply Multiset.coe_eq_coe.2
        apply (toList_perm_cons (k := uid.idStr) (v := item) (by simp) fun a => ?_).map
        rw [TreeMap.getElem?_erase]
        by_cases ha : uid.idStr = a
        · subst ha
          simpa using hitem
        · simp [ha]
      have hdrop : ((m.dropList ++ [item] : List T) : Multiset T) =
          item ::ₘ (m.dropList : List T) :=
        Multiset.coe_eq_coe.2 (List.perm_append_singleton _ _)
      simp only [values, hid, hdrop]
      rw [Multiset.add_cons, Multiset.add_cons, Multiset.cons_add]
    · rfl
  · rfl

theorem values_resolve (m : UserMap T) (uid : UserKey) : (m.resolve uid).values = m.values := by
  unfold resolve
  split
  · exact values_dropUnid m uid
  · rfl

theorem values_insert {m : UserMap T} {uid : UserKey} (hf : m.find uid = none) (val : T) :
    (m.insert uid val).values = val ::ₘ m.values := by
  by_cases hid : uid.idStr = ""
  · have hunid : (((m.unidList ++ [(uid, val)]).map (·.2) : List T) : Multiset T) =
        val ::ₘ (m.unidList.map (·.2) : List T) := by
      apply Multiset.coe_eq_coe.2
      rw [List.map_append]
      exact List.perm_append_singleton val _
    simp only [insert, hid, ne_eq, not_true_eq_false, if_false, values, hunid]
    rw [Multiset.cons_add, Multiset.add_cons]
  · have hnone : m.idMap[uid.idStr]? = none := (m.find_of_named hid).symm.trans hf
    have hget := getElem?_insert hf val
    have hval : (((m.insert uid val).idMap.toList.map (·.2) : List T) : Multiset T) =
        val ::ₘ (m.idMap.toList.map (·.2) : List T) := by
      apply Multiset.coe_eq_coe.2
      apply (toList_perm_cons hnone fun a => ?_).map
      simpa [hid] using hget a
    have hrest : (m.insert uid val).unidList = m.unidList ∧
        (m.insert uid val).dropList = m.dropList := by
      simp [insert, hid]
    simp only [values, hval, hrest]
    rw [Multiset.cons_add]

theorem values_popDropped (m : UserMap T) :
    m.popDropped.2.values + (m.popDropped.1.toList : List T) = m.values := by
  unfold popDropped
  split
  · rename_i v vs hdrop
    have hcons : ((v :: vs : List T) : Multiset T) = v ::ₘ (vs : List T) := rfl
    simp only [values, hdrop, hcons, Option.toList_some, Multiset.coe_singleton]
    rw [Multiset.add_cons, Multiset.add_cons, add_comm, Multiset.singleton_add]
  · simp

/-- **Conservation.** The values inserted are those in the map and those popped. -/
theorem values_add_popped {m : UserMap T} {cs : List (Call T)}
    (h : calls.Guarded Call.AfterFind m cs) :
    (calls.exec m cs).values + (calls.trace m cs : Multiset T) =
      m.values + (inserted cs : Multiset T) := by
  have hsum : ∀ l : List T, (l.map fun v => ({v} : Multiset T)).sum = l := fun l => by
    rw [← Multiset.sum_coe, ← Multiset.map_coe, Multiset.sum_map_singleton]
  have hins : ∀ cs : List (Call T),
      (cs.map fun c => (c.val?.toList : Multiset T)).sum = inserted cs := by
    intro cs
    induction cs with
    | nil => rfl
    | cons c cs ih =>
      rw [List.map_cons, List.sum_cons, ih]
      cases c <;> rfl
  rw [← hsum, ← hins]
  apply calls.conservation _ _ _ _ h
  intro m c hc
  rw [hsum]
  cases c with
  | insert uid val =>
    show (m.insert uid val).values + 0 = m.values + {val}
    rw [values_insert hc, add_zero, ← Multiset.singleton_add, add_comm]
  | erase uid => simpa [calls, Call.val?] using values_erase m uid
  | resolve uid => simpa [calls, Call.val?] using values_resolve m uid
  | popDropped => simpa [calls, Call.val?] using values_popDropped m

/-! ## The nodes of the unnamed -/

/-- The keys in the list of the unnamed are those of different nodes, or of none. -/
def Apart (m : UserMap T) : Prop := m.unidList.Pairwise fun p q => p.1.eqv q.1 = false

theorem Apart.dropUnid {m : UserMap T} (h : m.Apart) (uid : UserKey) : (m.dropUnid uid).Apart := by
  unfold UserMap.dropUnid
  split
  · exact h.eraseP _
  · exact h

theorem Apart.erase {m : UserMap T} (h : m.Apart) (uid : UserKey) : (m.erase uid).Apart := by
  unfold UserMap.erase
  apply Apart.dropUnid
  split
  · split <;> exact h
  · exact h

theorem Apart.resolve {m : UserMap T} (h : m.Apart) (uid : UserKey) : (m.resolve uid).Apart := by
  unfold UserMap.resolve
  split
  · exact h.dropUnid uid
  · exact h

theorem Apart.insert {m : UserMap T} (h : m.Apart) {uid : UserKey} (hf : m.find uid = none)
    (val : T) : (m.insert uid val).Apart := by
  unfold UserMap.insert
  split
  · exact h
  · rename_i hid
    have hno : ∀ p ∈ m.unidList, uid.eqv p.1 = false := by
      simpa [find, hid] using hf
    apply List.pairwise_append.2
    refine ⟨h, List.pairwise_singleton _ _, fun p hp q hq => ?_⟩
    obtain rfl := List.mem_singleton.1 hq
    rw [Bool.eq_false_iff]
    intro heqv
    obtain ⟨n, hpn, huid⟩ := UserKey.eqv_iff.1 heqv
    have heqv' : uid.eqv p.1 = true := UserKey.eqv_iff.2 ⟨n, huid, hpn⟩
    exact absurd (hno p hp) (by simp [heqv'])

theorem Apart.popDropped {m : UserMap T} (h : m.Apart) : m.popDropped.2.Apart := by
  unfold UserMap.popDropped
  split <;> exact h

theorem apart_exec {cs : List (Call T)} (h : calls.Guarded Call.AfterFind {} cs) :
    (calls.exec {} cs).Apart := by
  have hempty : ({} : UserMap T).Apart := List.Pairwise.nil
  apply calls.invariant _ hempty h
  intro m c hm hc
  cases c with
  | insert uid val => exact hm.insert hc val
  | erase uid => exact hm.erase uid
  | resolve uid => exact hm.resolve uid
  | popDropped => exact hm.popDropped

/-- An erased key is not found. -/
theorem Apart.find_erase {m : UserMap T} (h : m.Apart) (uid : UserKey) :
    (m.erase uid).find uid = none := by
  by_cases hid : uid.idStr = ""
  · have hlist : (m.erase uid).unidList = m.unidList.eraseP fun p => uid.eqv p.1 := by
      simp only [UserMap.erase, hid, ne_eq, not_true_eq_false, if_false, UserMap.dropUnid]
      split
      · rfl
      · rename_i hnone
        exact (List.eraseP_of_forall_not (List.find?_eq_none.1 hnone)).symm
    simp only [find, hid, ne_eq, not_true_eq_false, if_false, hlist, Option.map_eq_none_iff]
    apply List.find?_eq_none.2
    intro q hq hquid
    -- The first key that equals `uid` was erased, and another one would have the same node.
    have hsome : (m.unidList.find? fun p => uid.eqv p.1).isSome :=
      List.find?_isSome.2 ⟨q, List.mem_of_mem_eraseP hq, hquid⟩
    obtain ⟨p, hp⟩ := Option.isSome_iff_exists.1 hsome
    have hsymm : ∀ {a b : UserKey × T}, a.1.eqv b.1 = false → b.1.eqv a.1 = false := by
      intro a b
      rw [UserKey.eqv_comm]
      exact id
    have hpq : p.1.eqv q.1 = false :=
      List.rel_of_pairwise_cons (h.perm (perm_eraseP hp) hsymm) hq
    have hpuid : uid.eqv p.1 = true := by simpa using List.find?_some hp
    obtain ⟨n, hn, hpn⟩ := UserKey.eqv_iff.1 hpuid
    obtain ⟨n', hn', hqn⟩ := UserKey.eqv_iff.1 hquid
    have hnode : n' = n := Option.some.inj (hn'.symm.trans hn)
    have heqv : p.1.eqv q.1 = true := UserKey.eqv_iff.2 ⟨n, hpn, hnode ▸ hqn⟩
    exact absurd heqv (by simp [hpq])
  · have hget := getElem?_erase m uid uid.idStr
    simpa [find, hid] using hget

/-! ## One place for each -/

/-- The places, in the order of a value's way. -/
def Place.all : List Place := [.idMap, .unidList, .dropList, .popped]

theorem Place.mem_all (p : Place) : p ∈ Place.all := by cases p <;> decide

/-- Lists that have no element twice, nor two of them one in common. -/
theorem existsUnique_mem {ι α : Type*} {l : List ι} (hl : ∀ i, i ∈ l) {f : ι → List α}
    (h : (l.flatMap f).Nodup) {a : α} (ha : a ∈ l.flatMap f) : ∃! i, a ∈ f i := by
  obtain ⟨i, -, hi⟩ := List.mem_flatMap.1 ha
  refine ⟨i, hi, fun j hj => ?_⟩
  by_contra hne
  have hdisj : l.Pairwise fun i j => List.Disjoint (f i) (f j) := (List.nodup_flatMap.1 h).2
  have : Std.Symm fun i j => List.Disjoint (f i) (f j) := ⟨fun _ _ => List.Disjoint.symm⟩
  exact hdisj.forall (hl j) (hl i) hne hj hi

theorem contents_perm {cs : List (Call T)} (h : calls.Guarded Call.AfterFind {} cs) :
    (Place.all.flatMap ((calls.exec {} cs).contents (calls.trace {} cs))).Perm (inserted cs) := by
  have hcons := values_add_popped h
  have hempty : ({} : UserMap T).values = 0 := rfl
  rw [hempty, zero_add] at hcons
  apply Multiset.coe_eq_coe.1
  rw [← hcons]
  simp [Place.all, contents, values]

theorem mem_contents_of_find {m : UserMap T} {uid : UserKey} {v : T} (h : m.find uid = some v)
    (popped : List T) : v ∈ m.contents popped .idMap ∨ v ∈ m.contents popped .unidList := by
  unfold find at h
  split at h
  · refine .inl (List.mem_map.2 ⟨(uid.idStr, v), ?_, rfl⟩)
    simpa using h
  · obtain ⟨p, hp, rfl⟩ := Option.map_eq_some_iff.1 h
    exact .inr (List.mem_map_of_mem (List.mem_of_find?_eq_some hp))

/-- **Ownership of the items.** When fresh values are inserted, each under a key for which `find`
gave nothing, every value is in exactly one place, and there once; one that was popped is not found
any more, and an erased key is not found. -/
theorem inserted_mem_unique_place {cs : List (Call T)} (h : calls.Guarded Call.AfterFind {} cs)
    (hfresh : (inserted cs).Nodup) :
    let m := calls.exec {} cs
    let popped := calls.trace {} cs
    (∀ v ∈ inserted cs, ∃! p, v ∈ m.contents popped p) ∧
      (∀ p, (m.contents popped p).Nodup) ∧
      (∀ v ∈ popped, ∀ uid, m.find uid ≠ some v) ∧
      ∀ uid, (m.erase uid).find uid = none := by
  intro m popped
  have hperm := contents_perm h
  have hnodup : (Place.all.flatMap (m.contents popped)).Nodup := hperm.nodup_iff.2 hfresh
  have hunique : ∀ v ∈ inserted cs, ∃! p, v ∈ m.contents popped p := fun v hv =>
    existsUnique_mem Place.mem_all hnodup (hperm.mem_iff.2 hv)
  refine ⟨hunique, fun p => (List.nodup_flatMap.1 hnodup).1 p p.mem_all, ?_,
    (apart_exec h).find_erase⟩
  intro v hv uid hfind
  have hins : v ∈ inserted cs :=
    hperm.mem_iff.1 (List.mem_flatMap.2 ⟨.popped, Place.mem_all _, hv⟩)
  have hpopped : v ∈ m.contents popped .popped := hv
  rcases mem_contents_of_find hfind popped with hmem | hmem
  · cases (hunique v hins).unique hmem hpopped
  · cases (hunique v hins).unique hmem hpopped

/-- A user without a string gets an item, the string comes with a second item, and the first one is
dropped and popped. -/
theorem inserted_mem_unique_place_resolved :
    let cs : List (Call ℕ) :=
      [.insert ⟨some ⟨1, 1⟩, ""⟩ 7, .insert ⟨some ⟨1, 1⟩, "a"⟩ 8, .resolve ⟨some ⟨1, 1⟩, "a"⟩,
        .popDropped]
    let m := calls.exec {} cs
    let popped := calls.trace {} cs
    (∀ v ∈ inserted cs, ∃! p, v ∈ m.contents popped p) ∧
      (∀ p, (m.contents popped p).Nodup) ∧
      (∀ v ∈ popped, ∀ uid, m.find uid ≠ some v) ∧
      ∀ uid, (m.erase uid).find uid = none := by
  apply inserted_mem_unique_place
  · exact ⟨rfl, rfl, trivial, trivial, trivial⟩
  · decide

end UserMap

end RvHouse
