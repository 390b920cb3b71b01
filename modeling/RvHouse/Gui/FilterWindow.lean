import RvHouse.Lib.Mealy
import RvHouse.Gui.Filter

/-!
# The window of the filter

The filter sees the messages of two groups one after the other (`filtering`). What it knows of a
sender are the last four sequences recorded of what was passed on, so the state after a run can be
read off its output (`remembers_exec`). `suppressed_and_once` says which message is suppressed, and
that of the two copies of a message the first one alone is passed on, unless four others of its
sender come between them.
-/

namespace RvHouse

/-- The filter as a system; its outputs are the messages passed on. -/
def filtering : Mealy FilterDupMap Message Message where
  step map m := ((filterMessage m map).2, if (filterMessage m map).1 = true then [] else [m])

/-- The last four sequences recorded under an id string, newest first. -/
def lastSeqs (passed : List Message) (sndrId : String) : List UInt32 :=
  Recent.recent maxSeqs Message.filterKey Message.sequence passed.reverse sndrId

/-- The filter remembers what it passed on. -/
theorem remembers_exec {map : FilterDupMap} {log : List Message} (h : Remembers map log)
    (ms : List Message) :
    Remembers (filtering.exec map ms) ((filtering.trace map ms).reverse ++ log) := by
  induction ms generalizing map log with
  | nil => exact h
  | cons m ms ih =>
    have hstep := ih (filterMessage_of_remembers h m).2
    by_cases hdrop : (filterMessage m map).1 = true
    · simpa [filtering, hdrop] using hstep
    · simpa [filtering, hdrop] using hstep

theorem suppresses_exec (ms : List Message) (m : Message) :
    (filterMessage m (filtering.exec ∅ ms)).1 = true ↔
      ∃ k, m.filterKey = some k ∧ m.sequence ∈ lastSeqs (filtering.trace ∅ ms) k := by
  have hmem := remembers_exec remembers_empty ms
  rw [List.append_nil] at hmem
  exact (filterMessage_of_remembers hmem m).1

theorem filterKey_eq_some {m : Message} {k : String} :
    m.filterKey = some k ↔ m.body ≠ .plain ∧ m.id ∉ [.user, .userLeft, .room, .roomRemove] ∧
      m.sequence ≠ 0 ∧ m.senderId.idStr ≠ "" ∧ m.senderId.idStr = k := by
  unfold Message.filterKey
  split
  · rename_i hcond
    have hno : ¬(m.body ≠ .plain ∧ m.sequence ≠ 0 ∧ m.senderId.idStr ≠ "") := by tauto
    simp only [reduceCtorEq, false_iff]
    tauto
  · rename_i hcond
    simp only [not_or] at hcond
    split <;> simp_all

/-- What is passed on is some of what comes in. -/
theorem trace_sublist (map : FilterDupMap) (ms : List Message) :
    (filtering.trace map ms).Sublist ms := by
  induction ms generalizing map with
  | nil => exact List.Sublist.slnil
  | cons m ms ih =>
    rw [Mealy.trace_cons]
    show ((if (filterMessage m map).1 = true then [] else [m]) ++ _).Sublist _
    split
    · exact (ih _).cons m
    · exact (ih _).cons_cons m

/-! ## Two copies -/

/-- A message with the sequence is recorded under the id string. -/
def Message.IsCopy (sid : String) (seq : UInt32) (m : Message) : Prop :=
  m.filterKey = some sid ∧ m.sequence = seq

instance (sid : String) (seq : UInt32) : DecidablePred (Message.IsCopy sid seq) := fun m =>
  inferInstanceAs (Decidable (m.filterKey = some sid ∧ m.sequence = seq))

theorem step_of_passed {map : FilterDupMap} {m : Message} (h : (filterMessage m map).1 = false) :
    (filtering.step map m).2 = [m] := by
  simp [filtering, h]

theorem step_of_suppressed {map : FilterDupMap} {m : Message}
    (h : (filterMessage m map).1 = true) : (filtering.step map m).2 = [] := by
  simp [filtering, h]

/-- A message is passed on when no copy of it came before. -/
theorem passed_of_new {ms : List Message} {m : Message} {sid : String} {seq : UInt32}
    (hm : m.IsCopy sid seq) (hnew : ms.countP (Message.IsCopy sid seq) = 0) :
    (filterMessage m (filtering.exec ∅ ms)).1 = false := by
  rw [Bool.eq_false_iff, Ne, suppresses_exec]
  rintro ⟨k, hk, hmem⟩
  obtain rfl : sid = k := Option.some.inj (hm.1.symm.trans hk)
  obtain ⟨o, ho, hkey, hseq⟩ := Recent.exists_of_mem_recent _ _ _ hmem
  have hin : o ∈ ms := (trace_sublist ∅ ms).subset (List.mem_reverse.1 ho)
  have hcopy : o.IsCopy sid seq := ⟨hkey, hseq.trans hm.2⟩
  exact absurd hcopy (by simpa using List.countP_eq_zero.1 hnew o hin)

/-- The second copy is suppressed while few others of the sender came between. -/
theorem suppressed_of_recent {before between : List Message} {m m' : Message} {sid : String}
    {seq : UInt32} (hm : m.IsCopy sid seq) (hm' : m'.IsCopy sid seq)
    (hpassed : (filterMessage m (filtering.exec ∅ before)).1 = false)
    (hfew : (filtering.trace (filtering.exec ∅ (before ++ [m])) between).countP
      (·.filterKey = some sid) ≤ 3) :
    (filterMessage m' (filtering.exec ∅ (before ++ m :: between))).1 = true := by
  rw [suppresses_exec]
  refine ⟨sid, hm'.1, ?_⟩
  have htrace : (filtering.trace ∅ (before ++ m :: between)).reverse =
      (filtering.trace (filtering.exec ∅ (before ++ [m])) between).reverse ++
        m :: (filtering.trace ∅ before).reverse := by
    simp [Mealy.trace_append, Mealy.exec_append, step_of_passed hpassed]
  have hseq : m'.sequence = m.sequence := hm'.2.trans hm.2.symm
  rw [lastSeqs, htrace, hseq]
  apply Recent.mem_recent_append _ _ _ hm.1
  rw [List.countP_reverse]
  show _ < 4
  omega

/-- Of two copies of a message the first one alone is passed on. -/
theorem countP_trace_eq_one {before between after : List Message} {m m' : Message} {sid : String}
    {seq : UInt32} (hm : m.IsCopy sid seq) (hm' : m'.IsCopy sid seq)
    (htwo : (before ++ m :: between ++ m' :: after).countP (Message.IsCopy sid seq) ≤ 2)
    (hfew : (filtering.trace (filtering.exec ∅ (before ++ [m])) between).countP
      (·.filterKey = some sid) ≤ 3) :
    (filtering.trace ∅ (before ++ m :: between ++ m' :: after)).countP
      (Message.IsCopy sid seq) = 1 := by
  simp only [List.countP_append, List.countP_cons, hm, hm', decide_true, if_true] at htwo
  have hnew : before.countP (Message.IsCopy sid seq) = 0 := by omega
  have hpassed := passed_of_new hm hnew
  have hsupp := suppressed_of_recent hm hm' hpassed hfew
  have hnone : ∀ map ms, ms.countP (Message.IsCopy sid seq) = 0 →
      (filtering.trace map ms).countP (Message.IsCopy sid seq) = 0 := by
    intro map ms hms
    have hle := (trace_sublist map ms).countP_le (p := (Message.IsCopy sid seq ·))
    omega
  rw [Mealy.trace_append, Mealy.trace_append, Mealy.trace_cons, Mealy.trace_cons,
    step_of_passed hpassed, step_of_suppressed hsupp]
  simp only [List.countP_append, List.countP_cons, List.countP_nil, hm, decide_true, if_true]
  rw [hnone _ before (by omega), hnone _ between (by omega), hnone _ after (by omega)]

/-! ## Two feeds -/

/-- What arrived of a feed. -/
def feed (g : Bool) (arrivals : List (Bool × Message)) : List Message :=
  (arrivals.filter (·.1 = g)).map (·.2)

/-- A feed with distinct sequences has one copy of a message. -/
theorem countP_feed_le_one {g : Bool} {arrivals : List (Bool × Message)} {sid : String}
    (h : (((feed g arrivals).filter (·.filterKey = some sid)).map (·.sequence)).Nodup)
    (seq : UInt32) : (feed g arrivals).countP (Message.IsCopy sid seq) ≤ 1 := by
  have hcount := List.nodup_iff_count_le_one.1 h seq
  rw [List.count, List.countP_map, List.countP_filter] at hcount
  apply le_trans (le_of_eq _) hcount
  apply List.countP_congr
  intro m hm
  simp [Message.IsCopy, and_comm]

theorem countP_arrivals (p : Message → Bool) (arrivals : List (Bool × Message)) :
    (arrivals.map (·.2)).countP p =
      (feed true arrivals).countP p + (feed false arrivals).countP p := by
  induction arrivals with
  | nil => rfl
  | cons a arrivals ih =>
    obtain ⟨g, m⟩ := a
    cases g <;> simp [feed, List.countP_cons] at ih ⊢ <;> omega

/-- **The window of the filter.** A message is suppressed when its sequence is among the last four
recorded of its sender; so a message that comes in both feeds is passed on once, if its second copy
comes before four others of its sender were recorded. -/
theorem suppressed_and_once :
    (∀ (ms : List Message) (m : Message),
      (filterMessage m (filtering.exec ∅ ms)).1 = true ↔
        m.body ≠ .plain ∧ m.id ∉ [.user, .userLeft, .room, .roomRemove] ∧ m.sequence ≠ 0 ∧
          m.senderId.idStr ≠ "" ∧
          m.sequence ∈ lastSeqs (filtering.trace ∅ ms) m.senderId.idStr) ∧
    ∀ (before between after : List (Bool × Message)) (g : Bool) (m m' : Message) (sid : String),
      let arrivals := before ++ (g, m) :: between ++ (!g, m') :: after
      (∀ g, (((feed g arrivals).filter (·.filterKey = some sid)).map (·.sequence)).Nodup) →
      m.filterKey = some sid → m'.filterKey = some sid → m'.sequence = m.sequence →
      (filtering.trace (filtering.exec ∅ ((before ++ [(g, m)]).map (·.2)))
        (between.map (·.2))).countP (·.filterKey = some sid) ≤ 3 →
      (filtering.trace ∅ (arrivals.map (·.2))).countP (Message.IsCopy sid m.sequence) = 1 := by
  refine ⟨fun ms m => ?_, ?_⟩
  · rw [suppresses_exec]
    simp only [filterKey_eq_some]
    constructor
    · rintro ⟨k, ⟨hbody, hid, hseq, hne, rfl⟩, hmem⟩
      exact ⟨hbody, hid, hseq, hne, hmem⟩
    · rintro ⟨hbody, hid, hseq, hne, hmem⟩
      exact ⟨_, ⟨hbody, hid, hseq, hne, rfl⟩, hmem⟩
  intro before between after g m m' sid arrivals hnodup hkey hkey' hseq hfew
  have htwo : (arrivals.map (·.2)).countP (Message.IsCopy sid m.sequence) ≤ 2 := by
    have htrue := countP_feed_le_one (hnodup true) m.sequence
    have hfalse := countP_feed_le_one (hnodup false) m.sequence
    rw [countP_arrivals]
    omega
  simp only [arrivals, List.map_append, List.map_cons, List.map_nil] at htwo hfew ⊢
  exact countP_trace_eq_one ⟨hkey, rfl⟩ ⟨hkey', hseq⟩ htwo hfew

/-- A message of the channel. -/
def channelMessage (sndrId : String) (seq : UInt32) (grp : Int) : Message :=
  ⟨.send, .ofIdStr sndrId, seq, grp, .channel "" ""⟩

/-- Three messages of a sender come between the two copies of one. -/
theorem suppressed_and_once_at_three :
    (filtering.trace ∅ [channelMessage "a" 1 0, channelMessage "a" 2 0, channelMessage "a" 3 0,
      channelMessage "a" 4 0, channelMessage "a" 1 1]).countP (Message.IsCopy "a" 1) = 1 :=
  suppressed_and_once.2 []
    [(true, channelMessage "a" 2 0), (true, channelMessage "a" 3 0), (true, channelMessage "a" 4 0)]
    [] true (channelMessage "a" 1 0) (channelMessage "a" 1 1) "a" (by decide) rfl rfl rfl
    (by decide)

/-- The fourth one makes the filter forget. -/
example : (filtering.trace ∅ [channelMessage "a" 1 0, channelMessage "a" 2 0,
    channelMessage "a" 3 0, channelMessage "a" 4 0, channelMessage "a" 5 0,
    channelMessage "a" 1 1]).countP (Message.IsCopy "a" 1) = 2 := by
  decide

end RvHouse
