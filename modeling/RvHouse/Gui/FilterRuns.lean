import RvHouse.Lib.Mealy
import RvHouse.Gui.Filter
import RvHouse.Gui.Join

/-!
# What the filter suppresses

Any number of clients send messages to each other over the groups. Most messages carry a sequence
that the sender draws from its counter; an answer to a join request carries the sequence of the
request (`adapterCalls_decision`), which the counter of another client gave. So two messages of one
sender can have the same sequence. `justified_iff_guarded` says in which runs the filter suppresses
a message only if another copy of it has been passed on: those in which no answer to a join request
meets a recent message of its sender with the same sequence (`Distinguished`).
`not_justified_of_answer` is a run in which an acknowledgement is lost.
-/

namespace RvHouse

open Function

/-- A message as it was sent, to one client or to many. `draw` is the number of the draw that gave
its sequence; an answer to a join request has none. -/
structure Op (C : Type) where
  num : ℕ
  sender : C
  id : MsgId
  body : Body
  seq : UInt32
  draw : Option ℕ
deriving DecidableEq

/-- The message that the receiver gets when it knows the sender under the key `k`. -/
def Op.message {C : Type} (o : Op C) (grp : Int) (k : UserKey) : Message :=
  ⟨o.id, k, o.seq, grp, o.body⟩

/-- A message that was passed on, and what it is a copy of. -/
structure Copy (C : Type) where
  op : Op C
  msg : Message
deriving DecidableEq

/-- The clients. `draws`, `passed` and `arrived` record what happened: the number of sequences
drawn, the messages passed on, newest first, and the copies that arrived from each group. -/
structure Net (C : Type) where
  self : C → SelfModel := fun _ => {}
  filterMap : C → FilterDupMap := fun _ => ∅
  sent : List (Op C) := []
  draws : C → ℕ := fun _ => 0
  passed : C → List (Copy C) := fun _ => []
  arrived : C → List (ℕ × Int) := fun _ => []

/-- What the clients do. -/
inductive NetEvent (C : Type) where
  /-- A sequence goes to a message that no filter sees. -/
  | draw (c : C)
  /-- Any message with a sequence of its own. -/
  | send (c : C) (id : MsgId) (body : Body)
  /-- The answer to a join request. -/
  | answer (c : C) (request : ℕ) (d : Decision)
  /-- A copy arrives through a group. -/
  | deliver (c : C) (op : ℕ) (grp : Int) (k : UserKey)

namespace Net

variable {C : Type}

/-! ## Suppressed messages -/

/-- The filter suppresses a copy. -/
def Drops (s : Net C) (c : C) (op : ℕ) (grp : Int) (k : UserKey) : Prop :=
  (op, grp) ∉ s.arrived c ∧
    ∃ o ∈ s.sent[op]?, (filterMessage (o.message grp k) (s.filterMap c)).1 = true

/-- A copy is suppressed only if one from another group was passed on. -/
def Justified (s : Net C) : NetEvent C → Prop
  | .deliver c op grp k =>
    s.Drops c op grp k → ∃ p ∈ s.passed c, p.op.num = op ∧ p.msg.groupBase ≠ grp
  | _ => True

/-- The last messages that a client passed on from senders with the id string `sid`. -/
def recentOf (s : Net C) (c : C) (sid : String) : List (Copy C) :=
  Recent.recent maxSeqs (Message.filterKey ∘ Copy.msg) id (s.passed c) sid

/-- A copy that arrives is one of a message passed on before, or the recent messages from its sender
with the same sequence are, like itself, no answers, and are from the same client. -/
def Distinguished (s : Net C) : NetEvent C → Prop
  | .deliver c op grp k =>
    (op, grp) ∉ s.arrived c → ∀ o ∈ s.sent[op]?, (∃ p ∈ s.passed c, p.op.num = op) ∨
      ∀ sid ∈ (o.message grp k).filterKey, ∀ p ∈ s.recentOf c sid, p.op.seq = o.seq →
        p.op.sender = o.sender ∧ p.op.draw ≠ none ∧ o.draw ≠ none
  | _ => True

/-- Whether a copy is suppressed with reason can be computed. -/
instance decidableJustified (s : Net C) : ∀ e, Decidable (s.Justified e)
  | .deliver c op grp k =>
    have : Decidable (s.Drops c op grp k) := inferInstanceAs (Decidable (_ ∧ ∃ o ∈ s.sent[op]?, _))
    inferInstanceAs (Decidable (s.Drops c op grp k → ∃ p ∈ s.passed c, _))
  | .draw _ => .isTrue trivial
  | .send _ _ _ => .isTrue trivial
  | .answer _ _ _ => .isTrue trivial

/-! ## The invariant -/

/-- Counters count, drawn sequences are the counter's and no draw is used twice, and the filter
remembers what was passed on. -/
structure Inv (s : Net C) : Prop where
  counter : ∀ c, (s.self c).seq = SelfModel.seqAt (s.draws c)
  num : ∀ (i : ℕ) (o : Op C), s.sent[i]? = some o → o.num = i
  drawn : ∀ o ∈ s.sent, ∀ k ∈ o.draw, k < s.draws o.sender ∧ o.seq = SelfModel.seqAt k
  once : ∀ o ∈ s.sent, ∀ o' ∈ s.sent, o.sender = o'.sender → o.draw = o'.draw → o.draw ≠ none →
    o = o'
  memory : ∀ c, Remembers (s.filterMap c) ((s.passed c).map Copy.msg)
  passed : ∀ c, ∀ p ∈ s.passed c,
    p.op ∈ s.sent ∧ p.msg.sequence = p.op.seq ∧ (p.op.num, p.msg.groupBase) ∈ s.arrived c

theorem inv_init : Inv ({} : Net C) where
  counter _ := rfl
  num i o ho := by simp at ho
  drawn o ho := by simp at ho
  once o ho := by simp at ho
  memory _ := remembers_empty
  passed c p hp := by simp at hp

/-- A message is added to those sent. -/
theorem Inv.append {s : Net C} (h : s.Inv) {o : Op C} (hnum : o.num = s.sent.length)
    (hdrawn : ∀ k ∈ o.draw, k < s.draws o.sender ∧ o.seq = SelfModel.seqAt k)
    (honce : ∀ o' ∈ s.sent, o'.sender = o.sender → o'.draw = o.draw → o.draw = none) :
    ({ s with sent := s.sent ++ [o] } : Net C).Inv where
  counter := h.counter
  num i o' ho' := by
    rw [List.getElem?_append] at ho'
    split at ho'
    · exact h.num i o' ho'
    · rename_i hlen
      obtain ⟨hi, rfl⟩ : i - s.sent.length = 0 ∧ o = o' := by
        cases hsub : i - s.sent.length with
        | zero => simpa [hsub] using ho'
        | succ j => simp [hsub] at ho'
      omega
  drawn o' ho' k hk := by
    rcases List.mem_append.1 ho' with ho' | ho'
    · exact h.drawn o' ho' k hk
    · obtain rfl := List.mem_singleton.1 ho'
      exact hdrawn k hk
  once o₁ h₁ o₂ h₂ hsender hdraw hne := by
    rcases List.mem_append.1 h₁ with old₁ | new₁ <;> rcases List.mem_append.1 h₂ with old₂ | new₂
    · exact h.once o₁ old₁ o₂ old₂ hsender hdraw hne
    · obtain rfl := List.mem_singleton.1 new₂
      exact absurd (hdraw.trans (honce o₁ old₁ hsender hdraw)) hne
    · obtain rfl := List.mem_singleton.1 new₁
      exact absurd (honce o₂ old₂ hsender.symm hdraw.symm) hne
    · rw [List.mem_singleton.1 new₁, List.mem_singleton.1 new₂]
  memory := h.memory
  passed c p hp := by
    obtain ⟨hop, hrest⟩ := h.passed c p hp
    exact ⟨List.mem_append_left _ hop, hrest⟩

/-- A copy is suppressed when a recent message from its sender has the same sequence. -/
theorem Inv.drops_iff {s : Net C} (h : s.Inv) {c : C} {op : ℕ} {grp : Int} {k : UserKey} {o : Op C}
    (ho : s.sent[op]? = some o) :
    s.Drops c op grp k ↔ (op, grp) ∉ s.arrived c ∧
      ∃ sid ∈ (o.message grp k).filterKey, ∃ p ∈ s.recentOf c sid, p.op.seq = o.seq := by
  have hfilter := (filterMessage_of_remembers (h.memory c) (o.message grp k)).1
  simp only [Drops, ho, Option.mem_def, Option.some.injEq, exists_eq_left', hfilter, Suppresses]
  refine and_congr_right fun _ => exists_congr fun sid => and_congr_right fun _ => ?_
  rw [Recent.recent_map, List.mem_map]
  refine exists_congr fun p => and_congr_right fun hp => ?_
  obtain ⟨p', hp', -, rfl⟩ := Recent.exists_of_mem_recent _ _ _ hp
  have hseq : p'.msg.sequence = p'.op.seq := (h.passed c p' hp').2.1
  simp [hseq, Op.message]

/-- Two messages of a client with sequences drawn from its counter are one if the sequences are. -/
theorem Inv.eq_of_seq {s : Net C} (h : s.Inv) (hs : ∀ c, s.draws c < 2 ^ 32) {o o' : Op C}
    (ho : o ∈ s.sent) (ho' : o' ∈ s.sent) (hsender : o.sender = o'.sender) (hdraw : o.draw ≠ none)
    (hdraw' : o'.draw ≠ none) (hseq : o.seq = o'.seq) : o = o' := by
  obtain ⟨i, hi⟩ := Option.ne_none_iff_exists'.1 hdraw
  obtain ⟨j, hj⟩ := Option.ne_none_iff_exists'.1 hdraw'
  obtain ⟨hlt, hi'⟩ := h.drawn o ho i hi
  obtain ⟨hlt', hj'⟩ := h.drawn o' ho' j hj
  have hb := hs o.sender
  have hb' := hs o'.sender
  have hij : i = j := SelfModel.seqAt_injective (by omega) (by omega) (hi'.symm.trans (hseq.trans hj'))
  exact h.once o ho o' ho' hsender (by rw [hi, hj, hij]) hdraw

/-- A copy is suppressed with reason exactly when its message is distinguished. -/
theorem Inv.justified_iff {s : Net C} (h : s.Inv) (hs : ∀ c, s.draws c < 2 ^ 32)
    (e : NetEvent C) : s.Justified e ↔ s.Distinguished e := by
  cases e with
  | deliver c op grp k =>
    simp only [Justified, Distinguished]
    cases ho : s.sent[op]? with
    | none =>
      refine iff_of_true (fun hdrop => ?_) fun _ o hmem => by cases hmem
      obtain ⟨-, o, hmem, -⟩ := hdrop
      rw [ho] at hmem
      cases hmem
    | some o =>
      rw [h.drops_iff ho]
      constructor
      · intro hjust hnew o' ho'
        cases ho'
        rw [or_iff_not_imp_left]
        intro hnot sid hsid p hp hseq
        obtain ⟨q, hq, hnum, -⟩ := hjust ⟨hnew, sid, hsid, p, hp, hseq⟩
        exact absurd ⟨q, hq, hnum⟩ hnot
      · rintro hdist ⟨hnew, sid, hsid, p, hp, hseq⟩
        have hold : ∃ q ∈ s.passed c, q.op.num = op := by
          rcases hdist hnew o rfl with hold | hrecent
          · exact hold
          · obtain ⟨hsender, hdraw, hdraw'⟩ := hrecent sid hsid p hp hseq
            obtain ⟨q, hq, -, rfl⟩ := Recent.exists_of_mem_recent _ _ _ hp
            have heq := h.eq_of_seq hs (h.passed c q hq).1 (List.mem_of_getElem? ho) hsender hdraw
              hdraw' hseq
            exact ⟨q, hq, (congrArg Op.num heq).trans (h.num op o ho)⟩
        obtain ⟨q, hq, hnum⟩ := hold
        refine ⟨q, hq, hnum, fun hgrp => hnew ?_⟩
        have harr := (h.passed c q hq).2.2
        rwa [hnum, hgrp] at harr
  | draw c => exact Iff.rfl
  | send c id body => exact Iff.rfl
  | answer c request d => exact Iff.rfl

/-! ## Steps -/

variable [DecidableEq C]

/-- A client draws a sequence. -/
def draw (s : Net C) (c : C) : UInt32 × Net C :=
  let (seq, self) := (s.self c).sequence
  (seq, { s with self := update s.self c self, draws := update s.draws c (s.draws c + 1) })

/-- A message is sent with a sequence of its own. -/
def send (s : Net C) (c : C) (id : MsgId) (body : Body) : Net C :=
  let (seq, t) := s.draw c
  { t with sent := s.sent ++ [⟨s.sent.length, c, id, body, seq, some (s.draws c)⟩] }

/-- A join request that was passed on is answered; a refusal is not sent. -/
def answer (s : Net C) (c : C) (request : ℕ) (d : Decision) : Net C :=
  match s.sent[request]? with
  | some o =>
    if o.id = .roomJoin ∧ d ≠ .refused ∧ ∃ p ∈ s.passed c, p.op = o then
      { s with sent := s.sent ++ [⟨s.sent.length, c, d.msgId, .grouped, o.seq, none⟩] }
    else s
  | none => s

/-- A copy of a message arrives; each group carries one to each receiver. -/
def deliver (s : Net C) (c : C) (op : ℕ) (grp : Int) (k : UserKey) : Net C :=
  match s.sent[op]? with
  | some o =>
    if (op, grp) ∈ s.arrived c then s
    else
      let m := o.message grp k
      let (dup, map) := filterMessage m (s.filterMap c)
      { s with
        filterMap := update s.filterMap c map
        arrived := update s.arrived c ((op, grp) :: s.arrived c)
        passed := if dup then s.passed else update s.passed c (⟨o, m⟩ :: s.passed c) }
  | none => s

/-- One event. -/
def step (s : Net C) : NetEvent C → Net C
  | .draw c => (s.draw c).2
  | .send c id body => s.send c id body
  | .answer c request d => s.answer c request d
  | .deliver c op grp k => s.deliver c op grp k

/-- The clients as a machine. -/
def machine : Mealy (Net C) (NetEvent C) Empty := ⟨fun s e => (s.step e, [])⟩

theorem Inv.draw {s : Net C} (h : s.Inv) (c : C) : (s.draw c).2.Inv where
  counter c' := by
    have hc := h.counter c'
    by_cases hcc : c' = c
    · subst hcc
      simp [Net.draw, SelfModel.sequence, SelfModel.seqAt, hc]
    · simpa [Net.draw, hcc] using hc
  num := h.num
  drawn o ho k hk := by
    obtain ⟨hlt, hseq⟩ := h.drawn o ho k hk
    refine ⟨?_, hseq⟩
    by_cases hcc : o.sender = c
    · rw [hcc] at hlt
      simp only [Net.draw, hcc, update_self]
      omega
    · simpa [Net.draw, hcc] using hlt
  once := h.once
  memory := h.memory
  passed := h.passed

theorem Inv.send {s : Net C} (h : s.Inv) (c : C) (id : MsgId) (body : Body) :
    (s.send c id body).Inv := by
  have hseq : (s.draw c).1 = SelfModel.seqAt (s.draws c) := h.counter c
  refine (h.draw c).append (o := ⟨s.sent.length, c, id, body, (s.draw c).1, some (s.draws c)⟩)
    rfl (fun k hk => ?_) fun o' ho' hsender hdraw => ?_
  · cases hk
    exact ⟨by simp [Net.draw], hseq⟩
  · -- An earlier message of the client has a lower draw.
    obtain ⟨hlt, -⟩ := h.drawn o' ho' _ hdraw
    simp only at hsender
    rw [hsender] at hlt
    exact absurd hlt (lt_irrefl _)

theorem Inv.answer {s : Net C} (h : s.Inv) (c : C) (request : ℕ) (d : Decision) :
    (s.answer c request d).Inv := by
  unfold Net.answer
  split
  · split
    · exact h.append rfl (fun k hk => by cases hk) fun _ _ _ _ => rfl
    · exact h
  · exact h

/-- What is known of the copies that a client has passed stays known when another one arrives. -/
theorem Inv.passed_kept {s : Net C} (h : s.Inv) (c : C) (arrival : ℕ × Int) {c' : C} {p : Copy C}
    (hp : p ∈ s.passed c') :
    p.op ∈ s.sent ∧ p.msg.sequence = p.op.seq ∧
      (p.op.num, p.msg.groupBase) ∈ update s.arrived c (arrival :: s.arrived c) c' := by
  obtain ⟨hop, hseq, harr⟩ := h.passed c' p hp
  refine ⟨hop, hseq, ?_⟩
  by_cases hcc : c' = c
  · subst hcc
    simp [harr]
  · simpa [hcc] using harr

theorem Inv.deliver {s : Net C} (h : s.Inv) (c : C) (op : ℕ) (grp : Int) (k : UserKey) :
    (s.deliver c op grp k).Inv := by
  unfold Net.deliver
  cases ho : s.sent[op]? with
  | none => exact h
  | some o =>
    by_cases harr : (op, grp) ∈ s.arrived c
    · simpa [harr] using h
    have hnum : o.num = op := h.num op o ho
    have hmem := (filterMessage_of_remembers (h.memory c) (o.message grp k)).2
    simp only [harr, if_false]
    refine ⟨h.counter, h.num, h.drawn, h.once, fun c' => ?_, fun c' p hp => ?_⟩
    · by_cases hcc : c' = c
      · subst hcc
        cases hdup : (filterMessage (o.message grp k) (s.filterMap c')).1 <;>
          simpa [hdup] using hmem
      · have hc' := h.memory c'
        cases hdup : (filterMessage (o.message grp k) (s.filterMap c)).1 <;>
          simpa [hdup, hcc] using hc'
    · have hold := @Inv.passed_kept C _ s h c (op, grp) c' p
      cases hdup : (filterMessage (o.message grp k) (s.filterMap c)).1 with
      | true => exact hold (by simpa [hdup] using hp)
      | false =>
        by_cases hcc : c' = c
        · subst hcc
          have hp' : p = ⟨o, o.message grp k⟩ ∨ p ∈ s.passed c' := by simpa [hdup] using hp
          rcases hp' with rfl | hp'
          · refine ⟨List.mem_of_getElem? ho, rfl, ?_⟩
            simp [hnum, Op.message]
          · exact hold hp'
        · exact hold (by simpa [hdup, hcc] using hp)

theorem Inv.step {s : Net C} (h : s.Inv) (e : NetEvent C) : (s.step e).Inv := by
  cases e with
  | draw c => exact h.draw c
  | send c id body => exact h.send c id body
  | answer c request d => exact h.answer c request d
  | deliver c op grp k => exact h.deliver c op grp k

/-! ## Runs -/

theorem draws_le_step (s : Net C) (e : NetEvent C) (c : C) : s.draws c ≤ (s.step e).draws c := by
  have hdraw : ∀ c', s.draws c ≤ (s.draw c').2.draws c := by
    intro c'
    by_cases hcc : c = c'
    · subst hcc
      simp [Net.draw]
    · simp [Net.draw, hcc]
  cases e with
  | draw c' => exact hdraw c'
  | send c' id body => exact hdraw c'
  | answer c' request d =>
    simp only [Net.step, Net.answer]
    split
    · split <;> exact le_rfl
    · exact le_rfl
  | deliver c' op grp k =>
    simp only [Net.step, Net.deliver]
    split
    · split <;> exact le_rfl
    · exact le_rfl

theorem draws_le_exec (s : Net C) (es : List (NetEvent C)) (c : C) :
    s.draws c ≤ (machine.exec s es).draws c := by
  induction es generalizing s with
  | nil => exact le_rfl
  | cons e es ih => exact (draws_le_step s e c).trans (ih (s.step e))

/-- **When the filter suppresses only duplicates.** In a run in which each client draws fewer than
2³² sequences, every suppressed copy is one of a message that was passed on from another group
exactly when every copy that arrives is distinguished. -/
theorem justified_iff_guarded {es : List (NetEvent C)}
    (hes : ∀ c, (machine.exec ({} : Net C) es).draws c < 2 ^ 32) :
    machine.Guarded Justified ({} : Net C) es ↔ machine.Guarded Distinguished ({} : Net C) es := by
  refine machine.guarded_congr fun p hp e => ?_
  have hinv : (machine.exec ({} : Net C) p).Inv :=
    machine.invariant_all (fun s e h => h.step e) inv_init p
  refine hinv.justified_iff (fun c => ?_) e
  obtain ⟨fs, rfl⟩ := hp
  have hle := draws_le_exec (machine.exec ({} : Net C) p) fs c
  rw [← Mealy.exec_append] at hle
  exact hle.trans_lt (hes c)

/-- A message that arrives through both groups is suppressed once, with reason. -/
theorem distinguished_of_two_groups :
    machine.Guarded Distinguished ({} : Net Bool)
      [.send true .send (.channel "hello" ""), .deliver false 0 29 ⟨some ⟨1, 2⟩, "h"⟩,
        .deliver false 0 34 ⟨some ⟨1, 2⟩, "h"⟩] :=
  (justified_iff_guarded (by decide)).1 (by decide)

/-- The host sends its first message, a private one, to a client whose first message is a join
request: the client never sees the acknowledgement, the sequence of which it has seen before. -/
theorem not_justified_of_answer :
    ¬ machine.Guarded Justified ({} : Net Bool)
      [.send true .sendPrivate (.channel "hello" "p"), .deliver false 0 29 ⟨some ⟨1, 2⟩, "h"⟩,
        .send false .roomJoin (.roomJoin "5:a" ""), .deliver true 1 29 ⟨some ⟨3, 4⟩, "j"⟩,
        .answer true 1 .ack, .deliver false 2 29 ⟨some ⟨1, 2⟩, "h"⟩] := by
  decide

end Net

end RvHouse
