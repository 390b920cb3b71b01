import RvHouse.Kadc.Util
import RvHouse.Lib.Joined
import RvHouse.Model.House

/-!
# Values of several feeds

A view shows one value for each thing that it knows from several groups. `multi_feed::item::values`
asks an accessor for the value in each feed and says whether the feeds agree, and
`multi_feed::header_value` makes one text of the answers. `value_eq_consensus` says what is shown for
an accessor that remembers nothing: what the feeds agree on, when none of those that have a value has
another one; nothing when none has a value; and else all values with a slash between them, in the
order of the groups. (`playersSlashMax` remembers: its feeds always agree.)
-/

namespace RvHouse

open Std

namespace User

/-- `ip_mask`, which has counted the dots so far. -/
def ipMask : ℕ → List Char → List Char
  | _, [] => []
  | dots, '.' :: cs => '.' :: ipMask (dots + 1) cs
  | dots, c :: cs => (if 1 ≤ dots ∧ dots < 3 then '?' else c) :: ipMask dots cs

/-- `user::ip_as_string`. -/
def ipAsString (u : User) : List Char := u.id.node.elim [] fun n => Kadc.printIp n.ip

/-- `user::display_id`, as `_init_extra_vars` sets it. -/
def displayId (u : User) : String :=
  if u.loginId ≠ "" then u.loginId else String.ofList (ipMask 0 u.ipAsString)

end User

namespace MultiFeed

/-- An accessor object: the value of an id in a feed, and what the object remembers. -/
abbrev Accessor (K σ : Type) := K → Int → σ → String × σ

/-- An accessor that remembers nothing. -/
def plain {K : Type} (f : K → Int → String) : Accessor K Unit := fun k grp _ => (f k grp, ())

/-- The variables of the loop of `item::values`. -/
structure Values (σ : Type) where
  vals : TreeMap Int String := ∅
  val : String := ""
  allEqualValues : Bool := true
  acc : σ

/-- The body of the loop of `item::values`. -/
def Values.add {K σ : Type} (acc : Accessor K σ) (v : Values σ) (feed : Int × K) : Values σ :=
  let r := acc feed.2 feed.1 v.acc
  let v := { v with acc := r.2 }
  if r.1 = "" then v
  else
    let v := { v with vals := v.vals.insert feed.1 r.1 }
    if v.val = "" then { v with val := r.1 }
    else if v.val ≠ r.1 then { v with allEqualValues := false }
    else v

/-- `item::values`: the values that are set, and the one on which they agree. -/
def values {K σ : Type} (item : TreeMap Int K) (acc : Accessor K σ) (s : σ) :
    TreeMap Int String × String :=
  let v := item.toList.foldl (Values.add acc) { acc := s }
  (v.vals, if v.allEqualValues then v.val else "")

/-- `header_value(const std::string &, const std::string &)`. -/
def headerAnd (hdr value : String) : String := if hdr = "" then value else hdr ++ ": " ++ value

/-- The body of the loop of `header_value(const std::string &, const feed_value_map_type &)`: the
names of the groups and their values. -/
def specify (vals : TreeMap Int String) (t : String × String) (g : Int × GroupHouse) :
    String × String :=
  match vals[g.1]? with
  | some v =>
    (if t.1 = "" then g.2.dsc else t.1 ++ "/" ++ g.2.dsc, if t.2 = "" then v else t.2 ++ "/" ++ v)
  | none => t

/-- `header_value(const std::string &, const feed_value_map_type &)`. -/
def headerAndAll (hm : ModelHouse) (hdr : String) (vals : TreeMap Int String) : String :=
  let t := hm.groups.toList.foldl (specify vals) ("", "")
  if t.1 = "" ∨ hdr = "" then headerAnd hdr t.2 else headerAnd (hdr ++ " (" ++ t.1 ++ ")") t.2

variable {K σ : Type} (alwaysDisplayFeeds : Bool) (hm : ModelHouse) (item : TreeMap Int K)

/-- `header_value(const FeedItem &, const std::string &, Accessor)`. -/
def headerValue (hdr : String) (acc : Accessor K σ) (s : σ) : String :=
  let r := values item acc s
  if alwaysDisplayFeeds then headerAndAll hm hdr r.1
  else if r.2 ≠ "" ∨ r.1.isEmpty then headerAnd hdr r.2
  else headerAndAll hm hdr r.1

/-- `multi_feed::value`. -/
def value (acc : Accessor K σ) (s : σ) : String := headerValue alwaysDisplayFeeds hm item "" acc s

/-! ## Accessors -/

/-- `room_value_accessor`. -/
def roomValueAccessor (f : Room → String) : Accessor String Unit :=
  plain fun rid grp => ((hm.roomFindIn rid grp).map f).getD ""

/-- `room_owner_id_accessor`. -/
def roomOwnerIdAccessor (tr : UserKey → Int → String) : Accessor String Unit :=
  plain fun rid grp => ((hm.roomFindIn rid grp).map fun r => tr r.ownerId grp).getD ""

/-- `user_id_to_string`. -/
def userIdToString (uid : UserKey) (grp : Int) : String :=
  ((hm.userFindIn uid grp).map (·.displayId)).getD ""

/-- `user_id_to_status_string`, `str` being `user::status_to_string`. -/
def userIdToStatusString (str : Status → String) (uid : UserKey) (grp : Int) : String :=
  ((hm.userFindIn uid grp).map fun u => str u.status).getD ""

/-- `players_slash_max_by_room_id_fobj`, which keeps its first answer for all feeds. -/
def playersSlashMax : Accessor String String := fun rid grp cache =>
  if cache ≠ "" then (cache, cache)
  else
    match hm.roomFindIn rid grp with
    | none => ("", cache)
    | some r =>
      let s := toString (hm.roomSize rid) ++ "/" ++ toString r.maxPlayers
      (s, s)

/-! ## Agreement -/

/-- What the loop knows of the feeds that it has seen. -/
structure Values.Knows (f : K → Int → String) (l : List (Int × K)) (v : Values Unit) : Prop where
  vals : ∀ grp s, v.vals[grp]? = some s ↔ s ≠ "" ∧ ∃ k, (grp, k) ∈ l ∧ f k grp = s
  silent : v.val = "" → ∀ p ∈ l, f p.2 p.1 = ""
  said : v.val ≠ "" → ∃ p ∈ l, f p.2 p.1 = v.val
  agree : v.allEqualValues = true ↔ ∀ p ∈ l, f p.2 p.1 = "" ∨ f p.2 p.1 = v.val

theorem Values.add_of_empty {f : K → Int → String} (v : Values Unit) {grp : Int} {k : K}
    (hs : f k grp = "") : Values.add (plain f) v (grp, k) = v := by
  simp only [Values.add, plain, hs, if_true]

theorem Values.add_of_ne {f : K → Int → String} (v : Values Unit) {grp : Int} {k : K}
    (hs : f k grp ≠ "") : Values.add (plain f) v (grp, k) =
      { vals := v.vals.insert grp (f k grp)
        val := if v.val = "" then f k grp else v.val
        allEqualValues := v.allEqualValues && (v.val = "" || v.val = f k grp)
        acc := () } := by
  simp only [Values.add, plain, hs, if_false]
  by_cases hv : v.val = ""
  · simp [hv]
  · by_cases heq : v.val = f k grp <;> simp [hv, heq]

theorem Values.Knows.add {f : K → Int → String} {l : List (Int × K)} {v : Values Unit}
    (h : v.Knows f l) {grp : Int} {k : K} (hp : ∀ q ∈ l, q.1 ≠ grp) :
    (Values.add (plain f) v (grp, k)).Knows f (l ++ [(grp, k)]) := by
  by_cases hs : f k grp = ""
  · rw [Values.add_of_empty v hs]
    refine ⟨fun grp' s => ?_, fun hv => ?_, fun hv => ?_, ?_⟩
    · rw [h.vals]
      refine and_congr_right fun hne => exists_congr fun k' => and_congr_left fun hk' => ?_
      simp only [List.mem_append, List.mem_singleton, Prod.mk.injEq, iff_self_or]
      rintro ⟨rfl, rfl⟩
      exact absurd (hk'.symm.trans hs) hne
    · simpa [or_imp, forall_and, hs] using h.silent hv
    · obtain ⟨p, hp, heq⟩ := h.said hv
      exact ⟨p, List.mem_append_left _ hp, heq⟩
    · rw [h.agree]
      simp [or_imp, forall_and, hs]
  · rw [Values.add_of_ne v hs]
    refine ⟨fun grp' s => ?_, fun hv => ?_, fun _ => ?_, ?_⟩
    · rw [TreeMap.getElem?_insert]
      split
      · rename_i heq
        obtain rfl : grp = grp' := by simpa using heq
        constructor
        · rintro ⟨⟩
          exact ⟨hs, k, by simp, rfl⟩
        · rintro ⟨-, k', hk', rfl⟩
          rcases List.mem_append.1 hk' with hk' | hk'
          · exact absurd rfl (hp _ hk')
          · simp_all
      · rename_i hne
        rw [h.vals]
        refine and_congr_right fun _ => exists_congr fun k' => and_congr_left fun _ => ?_
        simp only [List.mem_append, List.mem_singleton, Prod.mk.injEq, iff_self_or]
        rintro ⟨rfl, -⟩
        simp at hne
    · by_cases hval : v.val = ""
      · exact absurd ((if_pos hval).symm.trans hv) hs
      · exact absurd ((if_neg hval).symm.trans hv) hval
    · by_cases hval : v.val = ""
      · exact ⟨(grp, k), by simp, by simp [hval]⟩
      · obtain ⟨p, hp, heq⟩ := h.said hval
        exact ⟨p, List.mem_append_left _ hp, by simp [hval, heq]⟩
    · by_cases hval : v.val = ""
      · have hsilent := h.silent hval
        have hold : v.allEqualValues = true := h.agree.2 fun p hp => .inl (hsilent p hp)
        refine iff_of_true (by simp [hval, hold]) fun p hp => ?_
        rcases List.mem_append.1 hp with hp | hp
        · exact .inl (hsilent p hp)
        · obtain rfl := List.mem_singleton.1 hp
          exact .inr (if_pos hval).symm
      · rw [Bool.and_eq_true, h.agree, if_neg hval, List.forall_mem_append,
          List.forall_mem_singleton]
        refine and_congr_right fun _ => ?_
        simp [hval, hs, eq_comm]

theorem knows_values {f : K → Int → String} {l : List (Int × K)}
    (hl : l.Pairwise fun p q => p.1 ≠ q.1) :
    (l.foldl (Values.add (plain f)) { acc := () }).Knows f l := by
  induction l using List.reverseRecOn with
  | nil => exact ⟨by simp, by simp, by simp, by simp⟩
  | append_singleton l p ih =>
    obtain ⟨hl, -, hp⟩ := List.pairwise_append.1 hl
    rw [List.foldl_append]
    exact (ih hl).add fun q hq => hp q hq p (List.mem_singleton.2 rfl)

/-- The values that are set, in the order of the feeds. -/
def spoken (f : K → Int → String) (item : TreeMap Int K) : List String :=
  (item.toList.map fun p => f p.2 p.1).filter (· ≠ "")

/-- What all of the values say, if they do not differ. -/
def consensus : List String → Option String
  | [] => some ""
  | v :: vs => if ∀ w ∈ vs, w = v then some v else none

theorem consensus_cons_of_forall {v : String} {vs : List String} (h : ∀ w ∈ vs, w = v) :
    consensus (v :: vs) = some v := if_pos h

theorem consensus_cons_of_not {v : String} {vs : List String} (h : ¬ ∀ w ∈ vs, w = v) :
    consensus (v :: vs) = none := if_neg h

/-- The values of the groups of the model with slashes between them. -/
def slashed (hm : ModelHouse) (f : K → Int → String) (item : TreeMap Int K) : String :=
  "/".intercalate (hm.groups.keys.filterMap fun grp =>
    (item[grp]?.map (f · grp)).filter (· ≠ ""))

theorem mem_spoken {f : K → Int → String} {s : String} :
    s ∈ spoken f item ↔ s ≠ "" ∧ ∃ p ∈ item.toList, f p.2 p.1 = s := by
  simp only [spoken, List.mem_filter, List.mem_map, decide_eq_true_eq, and_comm]

theorem knows_item (f : K → Int → String) :
    (item.toList.foldl (Values.add (plain f)) { acc := () }).Knows f item.toList :=
  knows_values (item.distinct_keys_toList.imp fun h heq => h (by simp [heq]))

theorem snd_foldl_specify {vals : TreeMap Int String} (hvals : ∀ grp : Int, vals[grp]? ≠ some "")
    (l : List (Int × GroupHouse)) (t : String × String) :
    (l.foldl (specify vals) t).2 =
      (l.filterMap fun g => vals[g.1]?).foldl (Joined.push "/") t.2 := by
  induction l generalizing t with
  | nil => rfl
  | cons g l ih =>
    rw [List.foldl_cons, ih, List.filterMap_cons, specify]
    cases hg : vals[g.1]? with
    | none => rfl
    | some v =>
      have hne : v ≠ "" := fun h => hvals g.1 (h ▸ hg)
      simp [Joined.push_of_ne _ _ hne]

theorem headerAndAll_eq {vals : TreeMap Int String} (hvals : ∀ grp : Int, vals[grp]? ≠ some "") :
    headerAndAll hm "" vals = "/".intercalate (hm.groups.keys.filterMap (vals[·]?)) := by
  have hset : ∀ v ∈ hm.groups.keys.filterMap (vals[·]?), v ≠ "" := by
    rintro v hv rfl
    obtain ⟨grp, -, hgrp⟩ := List.mem_filterMap.1 hv
    exact hvals grp hgrp
  have hkeys : hm.groups.toList.filterMap (fun g => vals[g.1]?) =
      hm.groups.keys.filterMap (vals[·]?) := by
    rw [← TreeMap.map_fst_toList_eq_keys, List.filterMap_map]
    rfl
  simp only [headerAndAll, headerAnd, or_true, if_true, snd_foldl_specify hvals, hkeys,
    Joined.foldl_push]
  rw [List.filter_eq_self.2 fun v hv => by simpa using hset v hv]

theorem Values.Knows.get {f : K → Int → String} {v : Values Unit} (h : v.Knows f item.toList)
    (grp : Int) : v.vals[grp]? = (item[grp]?.map (f · grp)).filter (· ≠ "") := by
  ext s
  rw [h.vals, Option.filter_eq_some_iff, Option.map_eq_some_iff]
  simp only [TreeMap.mem_toList_iff_getElem?_eq_some, decide_eq_true_eq]
  exact and_comm

/-- The map is empty when no feed has a value. -/
theorem Values.Knows.isEmpty_iff {f : K → Int → String} {v : Values Unit}
    (h : v.Knows f item.toList) : v.vals.isEmpty = true ↔ spoken f item = [] := by
  rw [TreeMap.isEmpty_iff_forall_not_mem, List.eq_nil_iff_forall_not_mem]
  constructor
  · rintro hmem s hs
    obtain ⟨hne, ⟨grp, k⟩, hp, heq⟩ := (mem_spoken item).1 hs
    exact hmem grp (TreeMap.mem_iff_isSome_getElem?.2
      (Option.isSome_iff_exists.2 ⟨s, (h.vals grp s).2 ⟨hne, k, hp, heq⟩⟩))
  · intro hmem grp hgrp
    obtain ⟨s, hs⟩ := Option.isSome_iff_exists.1 (TreeMap.mem_iff_isSome_getElem?.1 hgrp)
    obtain ⟨hne, k, hk, heq⟩ := (h.vals grp s).1 hs
    exact hmem s ((mem_spoken item).2 ⟨hne, (grp, k), hk, heq⟩)

/-- What `item::values` returns. -/
theorem Values.Knows.agreed {f : K → Int → String} {v : Values Unit}
    (h : v.Knows f item.toList) : (if v.allEqualValues then v.val else "") =
      (consensus (spoken f item)).getD "" := by
  have hmem : ∀ w, w ∈ spoken f item ↔ w ≠ "" ∧ ∃ p ∈ item.toList, f p.2 p.1 = w :=
    fun w => mem_spoken item
  generalize spoken f item = said at hmem
  have hagree : v.allEqualValues = true ↔ ∀ w ∈ said, w = v.val := by
    rw [h.agree]
    constructor
    · intro hall w hw
      obtain ⟨hne, p, hp, rfl⟩ := (hmem w).1 hw
      exact (hall p hp).resolve_left hne
    · intro hall p hp
      by_cases hs : f p.2 p.1 = ""
      · exact .inl hs
      · exact .inr (hall _ ((hmem _).2 ⟨hs, p, hp, rfl⟩))
  cases said with
  | nil =>
    have hval : v.val = "" := by
      by_contra hne
      obtain ⟨p, hp, heq⟩ := h.said hne
      exact List.not_mem_nil ((hmem v.val).2 ⟨hne, p, hp, heq⟩)
    simp [consensus, hval]
  | cons w ws =>
    obtain ⟨hne, p, hp, hw⟩ := (hmem w).1 List.mem_cons_self
    have hval : v.val ≠ "" := fun hval => hne (hw ▸ h.silent hval p hp)
    by_cases hall : ∀ w' ∈ ws, w' = w
    · obtain ⟨q, hq, heq⟩ := h.said hval
      have hin : v.val ∈ w :: ws := (hmem v.val).2 ⟨hval, q, hq, heq⟩
      have hvw : v.val = w := (List.mem_cons.1 hin).elim id (hall v.val)
      have hyes : v.allEqualValues = true :=
        hagree.2 (List.forall_mem_cons.2 ⟨hvw.symm, hvw ▸ hall⟩)
      simp [consensus_cons_of_forall hall, hyes, hvw]
    · have hno : ¬ v.allEqualValues = true := fun hyes => by
        obtain ⟨hvw, hrest⟩ := List.forall_mem_cons.1 (hagree.1 hyes)
        exact hall (hvw ▸ hrest)
      simp [consensus_cons_of_not hall, hno]

/-- **What is shown of several feeds**: what they agree on, and else the values of all groups. -/
theorem value_eq_consensus (f : K → Int → String) :
    value alwaysDisplayFeeds hm item (plain f) () =
      if alwaysDisplayFeeds then slashed hm f item
      else (consensus (spoken f item)).getD (slashed hm f item) := by
  have hk := knows_item item f
  have hall : headerAndAll hm "" (values item (plain f) ()).1 = slashed hm f item := by
    rw [headerAndAll_eq]
    · exact congrArg _ (List.filterMap_congr fun grp _ => hk.get item grp)
    · intro grp hgrp
      exact ((hk.vals grp "").1 hgrp).1 rfl
  have hval : (values item (plain f) ()).2 = (consensus (spoken f item)).getD "" := hk.agreed item
  have hempty : (values item (plain f) ()).1.isEmpty = true ↔ spoken f item = [] :=
    hk.isEmpty_iff item
  cases alwaysDisplayFeeds with
  | true => simpa [value, headerValue] using hall
  | false =>
    simp only [value, headerValue, Bool.false_eq_true, if_false, hall, headerAnd, if_true]
    rw [hval]
    cases hs : spoken f item with
    | nil => simp [consensus, hempty.2 hs]
    | cons w ws =>
      have hw : w ≠ "" := ((mem_spoken item).1 (hs ▸ List.mem_cons_self)).1
      by_cases hsame : ∀ w' ∈ ws, w' = w
      · simp [consensus_cons_of_forall hsame, hw]
      · simp [consensus_cons_of_not hsame, hempty, hs]

/-! ## What a value depends on -/

variable {item} {f g : K → Int → String}

theorem values_congr (h : ∀ (grp : Int) k, item[grp]? = some k → f k grp = g k grp) :
    values item (plain f) () = values item (plain g) () := by
  have hloop : item.toList.foldl (Values.add (plain f)) { acc := () } =
      item.toList.foldl (Values.add (plain g)) { acc := () } := by
    refine List.foldl_ext _ _ _ fun v p hp => ?_
    have hfg : plain f p.2 p.1 v.acc = plain g p.2 p.1 v.acc :=
      Prod.ext (h p.1 p.2 (TreeMap.mem_toList_iff_getElem?_eq_some.1 hp)) rfl
    simp only [Values.add, hfg]
  simp only [values, hloop]

/-- Of the model only the values and the groups count. -/
theorem value_congr {hm hm' : ModelHouse}
    (h : ∀ (grp : Int) k, item[grp]? = some k → f k grp = g k grp)
    (hkeys : hm.groups.keys = hm'.groups.keys) :
    value alwaysDisplayFeeds hm item (plain f) () =
      value alwaysDisplayFeeds hm' item (plain g) () := by
  have hset : ∀ grp : Int, (values item (plain g) ()).1[grp]? ≠ some "" := fun grp hgrp =>
    (((knows_item item g).vals grp "").1 hgrp).1 rfl
  have hall : headerAndAll hm "" (values item (plain g) ()).1 =
      headerAndAll hm' "" (values item (plain g) ()).1 := by
    rw [headerAndAll_eq _ hset, headerAndAll_eq _ hset, hkeys]
  simp only [value, headerValue, values_congr h, hall]

end MultiFeed

end RvHouse
