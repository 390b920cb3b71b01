import Std.Data.TreeMap.Lemmas

/-!
# Texts of the user interface

`lang::mapper` has the texts of the language that the user has chosen and those of a default
language, each by key. Texts have places `%1` to `%4` that are filled in.

* `mapperInit_outcome`: the mapper is filled when the files of the two languages can be read, and a
  key then stands for its text in the first one, else for that in the default, else for itself;
* `exists_pieces`: what is filled in is not looked at again, and no text shows a percent sign of its
  own.
-/

namespace RvHouse

open Std

/-- `lang::mapper`. -/
structure Mapper where
  map : TreeMap String String := {}
  mapDef : TreeMap String String := {}
  /-- `_set_map` is `_map_def`. -/
  setDefault : Bool := false

namespace Mapper

/-- The map that `set` writes. -/
def setMap (m : Mapper) : TreeMap String String := if m.setDefault then m.mapDef else m.map

/-- `(*_set_map)[key] = value`. -/
def put (m : Mapper) (key value : String) : Mapper :=
  if m.setDefault then { m with mapDef := m.mapDef.insert key value }
  else { m with map := m.map.insert key value }

/-- `mapper::set`; the error is what it throws. -/
def set (m : Mapper) (key value : String) : Except String Mapper :=
  if m.setMap.contains key then
    .error (String.ofList (("Duplicate values in language file for key: " ++ key).toList.take 255))
  else .ok (m.put key value)

/-- `mapper::get(const char *)`. -/
def get (m : Mapper) (key : String) : String :=
  match m.map[key]? with
  | some value => value
  | none => if m.mapDef.size > 0 then (m.mapDef[key]?).getD key else key

/-- The loop of `mapper::get` over a text; `r` gives what is put in place of a letter behind a
percent sign. -/
def substitute (r : Char → Option String) : List Char → List Char
  | [] => []
  | ['%'] => []
  | '%' :: c :: l => ((r c).getD "").toList ++ substitute r l
  | c :: l => c :: substitute r l

/-- The arguments by their letters. -/
def arg (r1 r2 r3 r4 : Option String) : Char → Option String
  | '1' => r1
  | '2' => r2
  | '3' => r3
  | '4' => r4
  | _ => none

/-- `mapper::get(const char *, const char *, ...)`. -/
def getWith (m : Mapper) (key : String) (r1 r2 r3 r4 : Option String) : String :=
  String.ofList (substitute (arg r1 r2 r3 r4) (m.get key).toList)

end Mapper

/-! ## The manager -/

/-- `lang::info`, as far as the mapper is concerned. -/
structure LangInfo where
  lang : String
  file : String

/-- `lang::manager`, with what `config_file` reads from the files. -/
structure LangManager where
  infos : List LangInfo
  load : String → Except String (TreeMap String String)

namespace LangManager

/-- The keys and values of a language; the error is what `_mapper_fill` throws. -/
def keyValues (g : LangManager) (name : String) : Except String (TreeMap String String) :=
  match g.infos.find? (·.lang == name) with
  | none =>
    .error (String.ofList
      (("No language file found for " ++ name ++ ". Reinstall RV House").toList.take 255))
  | some i => g.load i.file

/-- `_mapper_fill`. -/
def mapperFill (g : LangManager) (m : Mapper) (name : String) : Except String Mapper := do
  let keyValueMap ← g.keyValues name
  keyValueMap.toList.foldlM (fun m p => m.set p.1 p.2) m

/-- `mapper_init`. -/
def mapperInit (g : LangManager) (m : Mapper) (name dflt : String) : Except String Mapper := do
  let m ← g.mapperFill m name
  if dflt ≠ "" ∧ dflt ≠ name then g.mapperFill { m with setDefault := true } dflt
  else return m

end LangManager

/-! ## The texts of a key -/

namespace Mapper

variable {m : Mapper}

@[simp] theorem setDefault_put (m : Mapper) (key value : String) :
    (m.put key value).setDefault = m.setDefault := by
  unfold put
  split <;> rfl

@[simp] theorem setMap_put (m : Mapper) (key value : String) :
    (m.put key value).setMap = m.setMap.insert key value := by
  unfold put setMap
  split
  · simp
  · simp

theorem set_of_new {key : String} (h : m.setMap[key]? = none) (value : String) :
    m.set key value = .ok (m.put key value) := by
  have hnew : m.setMap.contains key = false := by
    rw [TreeMap.contains_eq_isSome_getElem?, h]
    rfl
  rw [set, hnew, if_neg Bool.false_ne_true]

/-- The map that is not written stays as it is. -/
theorem map_put {m : Mapper} (h : m.setDefault = true) (key value : String) :
    (m.put key value).map = m.map := by
  rw [put, if_pos h]

theorem mapDef_put {m : Mapper} (h : m.setDefault = false) (key value : String) :
    (m.put key value).mapDef = m.mapDef := by
  rw [put, if_neg (by simp [h])]

/-- All keys of a list that are new, and differ from each other, are set. -/
theorem foldlM_set (l : List (String × String)) (hl : l.Pairwise fun p q => p.1 ≠ q.1)
    (hnew : ∀ p ∈ l, m.setMap[p.1]? = none) :
    l.foldlM (fun m p => m.set p.1 p.2) m = .ok (l.foldl (fun m p => m.put p.1 p.2) m) := by
  induction l generalizing m with
  | nil => rfl
  | cons p l ih =>
    obtain ⟨hp, hl⟩ := List.pairwise_cons.1 hl
    obtain ⟨hnewp, hnewl⟩ := List.forall_mem_cons.1 hnew
    rw [List.foldlM_cons, set_of_new hnewp]
    refine ih hl fun q hq => ?_
    rw [setMap_put, TreeMap.getElem?_insert, if_neg, hnewl q hq]
    simpa using hp q hq

theorem getElem?_foldl_put (l : List (String × String)) (hl : l.Pairwise fun p q => p.1 ≠ q.1)
    (hnew : ∀ p ∈ l, m.setMap[p.1]? = none) (k v : String) :
    (l.foldl (fun m p => m.put p.1 p.2) m).setMap[k]? = some v ↔
      (k, v) ∈ l ∨ m.setMap[k]? = some v := by
  induction l generalizing m with
  | nil => simp
  | cons p l ih =>
    obtain ⟨hp, hl⟩ := List.pairwise_cons.1 hl
    obtain ⟨hnewp, hnewl⟩ := List.forall_mem_cons.1 hnew
    have hnew' : ∀ q ∈ l, (m.put p.1 p.2).setMap[q.1]? = none := by
      intro q hq
      rw [setMap_put, TreeMap.getElem?_insert, if_neg, hnewl q hq]
      simpa using hp q hq
    rw [List.foldl_cons, ih hl hnew', setMap_put, TreeMap.getElem?_insert, List.mem_cons]
    by_cases hk : p.1 = k
    · subst hk
      simp [hnewp, Prod.ext_iff, or_comm, eq_comm]
    · have hne : (k, v) ≠ p := fun heq => hk (by rw [← heq])
      simp [hk, hne]

/-- The mapper with the texts of a file. -/
def fill (m : Mapper) (kv : TreeMap String String) : Mapper :=
  kv.toList.foldl (fun m p => m.put p.1 p.2) m

theorem distinct_toList (kv : TreeMap String String) :
    kv.toList.Pairwise fun p q => p.1 ≠ q.1 :=
  TreeMap.distinct_keys_toList.imp fun h heq => h (LawfulEqOrd.compare_eq_iff_eq.2 heq)

theorem getElem?_setMap_fill (h : m.setMap = {}) (kv : TreeMap String String) (k : String) :
    (m.fill kv).setMap[k]? = kv[k]? := by
  refine Option.ext fun v => ?_
  rw [fill, getElem?_foldl_put _ (distinct_toList kv) (by simp [h]), h,
    TreeMap.mem_toList_iff_getElem?_eq_some]
  simp

theorem setDefault_fill (m : Mapper) (kv : TreeMap String String) :
    (m.fill kv).setDefault = m.setDefault := by
  unfold fill
  induction kv.toList generalizing m with
  | nil => rfl
  | cons p l ih => rw [List.foldl_cons, ih, setDefault_put]

theorem map_fill (h : m.setDefault = true) (kv : TreeMap String String) :
    (m.fill kv).map = m.map := by
  unfold fill
  induction kv.toList generalizing m with
  | nil => rfl
  | cons p l ih => rw [List.foldl_cons, ih ((m.setDefault_put _ _).trans h), map_put h]

theorem mapDef_fill (h : m.setDefault = false) (kv : TreeMap String String) :
    (m.fill kv).mapDef = m.mapDef := by
  unfold fill
  induction kv.toList generalizing m with
  | nil => rfl
  | cons p l ih => rw [List.foldl_cons, ih ((m.setDefault_put _ _).trans h), mapDef_put h]

theorem get_eq (m : Mapper) (key : String) :
    m.get key = ((m.map[key]?).or m.mapDef[key]?).getD key := by
  unfold get
  split
  · rename_i value hvalue
    simp [hvalue]
  · rename_i hnone
    rw [hnone, Option.none_or]
    split
    · rfl
    · rename_i hsize
      have hempty : m.mapDef.isEmpty = true := by
        rw [TreeMap.isEmpty_eq_size_eq_zero]
        simpa using hsize
      rw [TreeMap.getElem?_of_isEmpty hempty]
      rfl

end Mapper

namespace LangManager

theorem mapperFill_eq (g : LangManager) {m : Mapper} (h : m.setMap = {}) (name : String) :
    g.mapperFill m name = (g.keyValues name).map m.fill := by
  unfold mapperFill
  cases g.keyValues name with
  | error what => rfl
  | ok kv => exact Mapper.foldlM_set kv.toList (Mapper.distinct_toList kv) (by simp [h])

/-- The keys and values of the default language, unless it is the same or none. -/
def defaults (g : LangManager) (name dflt : String) : Except String (TreeMap String String) :=
  if dflt ≠ "" ∧ dflt ≠ name then g.keyValues dflt else .ok {}

/-- **What a key stands for.** The mapper is filled when the files are there and can be read: a file
that was read has no key twice, so that `set` never throws. A key then stands for its text in the
language, else for that in the default, else for itself. -/
theorem mapperInit_outcome (g : LangManager) (name dflt : String) :
    match g.keyValues name, g.defaults name dflt with
    | .error what, _ => g.mapperInit {} name dflt = .error what
    | .ok _, .error what => g.mapperInit {} name dflt = .error what
    | .ok first, .ok second => ∃ m, g.mapperInit {} name dflt = .ok m ∧
        ∀ key : String, m.get key = ((first[key]?).or second[key]?).getD key := by
  unfold mapperInit
  rw [mapperFill_eq g rfl]
  cases hfirst : g.keyValues name with
  | error what => rfl
  | ok first =>
    have hmap : ∀ key : String, (({} : Mapper).fill first).map[key]? = first[key]? := by
      intro key
      have hset := Mapper.getElem?_setMap_fill (m := {}) rfl first key
      rwa [Mapper.setMap, Mapper.setDefault_fill] at hset
    have hmapDef : (({} : Mapper).fill first).mapDef = {} := Mapper.mapDef_fill rfl first
    unfold defaults
    by_cases hdflt : dflt ≠ "" ∧ dflt ≠ name
    · have hfill := mapperFill_eq g
        (m := { ({} : Mapper).fill first with setDefault := true }) hmapDef dflt
      rw [if_pos hdflt]
      cases hsecond : g.keyValues dflt with
      | error what => simp [Except.map, bind, Except.bind, hdflt, hfill, hsecond]
      | ok second =>
        refine ⟨_, by simp [Except.map, bind, Except.bind, hdflt, hfill, hsecond]; rfl, fun key => ?_⟩
        have hset := Mapper.getElem?_setMap_fill
          (m := { ({} : Mapper).fill first with setDefault := true }) hmapDef second key
        rw [Mapper.setMap, Mapper.setDefault_fill] at hset
        rw [Mapper.get_eq, Mapper.map_fill rfl, hmap key]
        exact congrArg (fun o => ((first[key]?).or o).getD key) hset
    · rw [if_neg hdflt]
      refine ⟨({} : Mapper).fill first, ?_, fun key => ?_⟩
      · simp [Except.map, bind, Except.bind, hdflt, pure, Except.pure]
      · rw [Mapper.get_eq, hmap, hmapDef]

end LangManager

/-! ## What is filled in -/

namespace Mapper

/-- A piece of a text: a letter that stands for itself, or one behind a percent sign. -/
inductive Piece where
  | letter (c : Char) (h : c ≠ '%')
  | place (c : Char)

/-- How the piece is written. -/
def Piece.source : Piece → List Char
  | .letter c _ => [c]
  | .place c => ['%', c]

/-- What it is when places are filled in. -/
def Piece.shown (r : Char → Option String) : Piece → List Char
  | .letter c _ => [c]
  | .place c => ((r c).getD "").toList

theorem substitute_cons (r : Char → Option String) {c : Char} (h : c ≠ '%') (l : List Char) :
    substitute r (c :: l) = c :: substitute r l := by
  rw [substitute]
  · rintro rfl
    exact absurd rfl h
  · rintro d l' rfl
    exact absurd rfl h

/-- **What is filled in.** A text is a sequence of pieces, perhaps with a percent sign at its end that
is not shown. Whatever the arguments are, it shows its letters, and in each place the argument as it
is. -/
theorem exists_pieces (text : List Char) : ∃ (ps : List Piece) (rest : List Char),
    text = ps.flatMap Piece.source ++ rest ∧ (rest = [] ∨ rest = ['%']) ∧
      ∀ r, substitute r text = ps.flatMap (Piece.shown r) := by
  induction text using substitute.induct with
  | case1 => exact ⟨[], [], rfl, .inl rfl, fun r => rfl⟩
  | case2 => exact ⟨[], ['%'], rfl, .inr rfl, fun r => rfl⟩
  | case3 c text ih =>
    obtain ⟨ps, rest, rfl, hrest, hps⟩ := ih
    refine ⟨.place c :: ps, rest, rfl, hrest, fun r => ?_⟩
    rw [substitute, hps, List.flatMap_cons]
    rfl
  | case4 c text hlast hplace ih =>
    have hc : c ≠ '%' := by
      rintro rfl
      cases text with
      | nil => exact hlast rfl rfl
      | cons d text => exact hplace d text rfl rfl
    obtain ⟨ps, rest, rfl, hrest, hps⟩ := ih
    refine ⟨.letter c hc :: ps, rest, rfl, hrest, fun r => ?_⟩
    rw [substitute_cons r hc, hps, List.flatMap_cons]
    rfl

/-- A key without a text; its first place is filled in, and nothing is given for the second one. -/
example : ({} : Mapper).getWith "%1 joined %2." (some "100%1") none none none = "100%1 joined ." := by
  decide

end Mapper

end RvHouse
