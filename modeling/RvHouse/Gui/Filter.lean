import RvHouse.Lib.Recent
import RvHouse.Messaging.Message

/-!
# The filter for duplicates

A client can belong to two groups, and a message sent to both arrives twice. The GUI remembers the
last sequences of each sender and suppresses a message whose sequence is among them
(`filterMessage`). `filterMessage_of_remembers` says that the map is the last four messages passed
on under each id string.
-/

namespace RvHouse

open Std

/-- `house_app::_filter_dup_struct::max_seqs`. -/
def maxSeqs : ℕ := 4

/-- `house_app::_filter_dup_map_type`. -/
abbrev FilterDupMap := TreeMap String (List UInt32)

/-- `house_app::_filter_dup`; true when the message is to be disregarded. -/
def filterDup (sndrId : String) (seq : UInt32) (map : FilterDupMap) : Bool × FilterDupMap :=
  if sndrId = "" then (false, map)
  else
    match map[sndrId]? with
    | some seqs =>
      if seq ∈ seqs then (true, map)
      else
        let seqs := seq :: seqs
        (false, map.insert sndrId (if maxSeqs < seqs.length then seqs.dropLast else seqs))
    | none => (false, map.insert sndrId [seq])

/-- `house_app::_filter_message`. -/
def filterMessage (m : Message) (map : FilterDupMap) : Bool × FilterDupMap :=
  if m.body = .plain ∨ m.sequence = 0 then (false, map)
  else
    match m.id with
    | .user | .userLeft | .room | .roomRemove => (false, map)
    | _ => filterDup m.senderId.idStr m.sequence map

namespace Message

/-- The id string under which the filter remembers the message. -/
def filterKey (m : Message) : Option String :=
  if m.body = .plain ∨ m.sequence = 0 ∨ m.senderId.idStr = "" then none
  else
    match m.id with
    | .user | .userLeft | .room | .roomRemove => none
    | _ => some m.senderId.idStr

end Message

/-- The filter remembers a message under its key. -/
theorem filterMessage_eq (m : Message) (map : FilterDupMap) :
    filterMessage m map =
      match m.filterKey with
      | some k => filterDup k m.sequence map
      | none => (false, map) := by
  unfold filterMessage Message.filterKey
  by_cases hbody : m.body = .plain
  · simp [hbody]
  by_cases hseq : m.sequence = 0
  · simp [hseq]
  by_cases hid : m.senderId.idStr = ""
  · simp only [hbody, hseq, hid, filterDup, or_self, or_true, if_true, if_false]
    split <;> rfl
  · simp only [hbody, hseq, hid, or_self, if_false]
    split <;> rfl

theorem filterKey_ne_empty {m : Message} {k : String} (h : m.filterKey = some k) : k ≠ "" := by
  unfold Message.filterKey at h
  split at h
  · cases h
  · rename_i hcond
    split at h <;> cases h
    exact fun hid => hcond (.inr (.inr hid))

/-- The map is what is recent of a log of messages passed on, newest first. -/
def Remembers (map : FilterDupMap) (log : List Message) : Prop :=
  ∀ k, (map[k]?).getD [] = Recent.recent maxSeqs Message.filterKey Message.sequence log k

theorem remembers_empty : Remembers ∅ [] := fun k => by simp

/-- A message is suppressed when its sequence is recent under its key. -/
def Suppresses (log : List Message) (m : Message) : Prop :=
  ∃ k, m.filterKey = some k ∧
    m.sequence ∈ Recent.recent maxSeqs Message.filterKey Message.sequence log k

/-- The sequence of a message put in front of those of its key. -/
theorem remembers_insert {map : FilterDupMap} {log : List Message} (h : Remembers map log)
    {m : Message} {k : String} (hk : m.filterKey = some k) {seqs : List UInt32}
    (hseqs : seqs = (m.sequence :: (map[k]?).getD []).take maxSeqs) :
    Remembers (map.insert k seqs) (m :: log) := by
  intro k'
  rw [TreeMap.getElem?_insert]
  by_cases hkk : k = k'
  · subst hkk
    rw [Recent.recent_cons_of_key _ _ _ hk, ← h k, ← hseqs]
    simp
  · have hne : m.filterKey ≠ some k' := by simpa [hk] using hkk
    rw [Recent.recent_cons_of_ne _ _ _ hne, ← h k']
    simp [hkk]

/-- The filter suppresses a message when its sequence is recent, and else remembers it. -/
theorem filterMessage_of_remembers {map : FilterDupMap} {log : List Message}
    (h : Remembers map log) (m : Message) :
    ((filterMessage m map).1 = true ↔ Suppresses log m) ∧
      Remembers (filterMessage m map).2
        (if (filterMessage m map).1 = true then log else m :: log) := by
  rw [filterMessage_eq]
  cases hk : m.filterKey with
  | none =>
    refine ⟨by simp [Suppresses, hk], fun k => ?_⟩
    have hne : m.filterKey ≠ some k := by simp [hk]
    simpa [Recent.recent_cons_of_ne _ _ _ hne] using h k
  | some k =>
    have hlen := Recent.length_recent_le maxSeqs Message.filterKey Message.sequence log k
    have hmem := h k
    simp only [filterDup, filterKey_ne_empty hk, if_false]
    cases hmap : map[k]? with
    | none =>
      have hseqs : [m.sequence] = (m.sequence :: (map[k]?).getD []).take maxSeqs := by
        simp [hmap, maxSeqs]
      have hrec : Recent.recent maxSeqs Message.filterKey Message.sequence log k = [] := by
        rw [← hmem, hmap, Option.getD_none]
      refine ⟨by simp [Suppresses, hk, hrec], ?_⟩
      simpa using remembers_insert h hk hseqs
    | some seqs =>
      have hrec : Recent.recent maxSeqs Message.filterKey Message.sequence log k = seqs := by
        rw [← hmem, hmap, Option.getD_some]
      by_cases hin : m.sequence ∈ seqs
      · refine ⟨by simp [Suppresses, hk, hrec, hin], ?_⟩
        simpa [hin] using h
      · have hseqs : (if maxSeqs < (m.sequence :: seqs).length then (m.sequence :: seqs).dropLast
            else m.sequence :: seqs) = (m.sequence :: (map[k]?).getD []).take maxSeqs := by
          rw [hmap, Option.getD_some]
          exact Recent.push_eq_take maxSeqs (hrec ▸ hlen) m.sequence
        refine ⟨by simp [Suppresses, hk, hrec, hin], ?_⟩
        simpa [hin] using remembers_insert h hk hseqs

end RvHouse
