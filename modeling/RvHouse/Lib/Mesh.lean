import RvHouse.Lib.Mealy
import Mathlib.Data.List.Basic
import Mathlib.Logic.Function.Basic

/-!
# Parties on a network

Parties with names in `ν` act on inputs of their own and on the packets of the others. There is a
link from each party to each other one, which holds the packets in flight. A packet on a link may
arrive, in any order, be kept on the link to arrive once more, or be lost. What a party sends to all
goes to those that the network reaches at that moment, which is part of the event.

* `guarantee`: what the parties keep, given what they guarantee of their packets, they keep over
  every run; both may speak of the run so far;
* `party_invariant`: what every act keeps, the parties keep;
* `origin`: each packet in flight was sent by a party that acted before;
* `party_step_of_ne`: what an event leaves alone.
-/

/-- What reaches a party: an input of its own, or a packet and the circumstances of its arrival. -/
inductive Inbound (ν ι π τ : Type*) where
  | own (i : ι)
  | packet (src : ν) (p : π) (t : τ)

/-- Parties with states `σ`. An effect in `ω` may be a packet, to one party or to all. -/
structure Parties (ν σ ι π τ ω : Type*) where
  act : ν → σ → Inbound ν ι π τ → σ × List ω
  packet? : ω → Option (Option ν × π)

/-- The state of a network: the parties, and the packets in flight, oldest first. -/
structure Mesh (ν σ π : Type*) where
  party : ν → σ
  link : ν → ν → List π

/-- What happens on a network; `reach` are the parties that get what is sent to all. -/
inductive MeshEvent (ν ι τ : Type*) where
  /-- The party has an input of its own. -/
  | own (n : ν) (i : ι) (reach : List ν)
  /-- The packet at place `k` of a link arrives, and is kept on the link or not. -/
  | arrive (src dst : ν) (k : ℕ) (keep : Bool) (t : τ) (reach : List ν)
  /-- The packet at place `k` of a link is lost. -/
  | lose (src dst : ν) (k : ℕ)
deriving DecidableEq

namespace Mesh

variable {ν σ π : Type*}

/-- The network before anything is sent. -/
def init (party : ν → σ) : Mesh ν σ π := ⟨party, fun _ _ => []⟩

@[simp] theorem init_party (party : ν → σ) : (init party : Mesh ν σ π).party = party := rfl

@[simp] theorem init_link (party : ν → σ) (a b : ν) : (init party : Mesh ν σ π).link a b = [] := rfl

variable [DecidableEq ν]

/-- The packet at place `k` of the link is taken off. -/
def drop (s : Mesh ν σ π) (src dst : ν) (k : ℕ) : Mesh ν σ π :=
  { s with
    link := fun a b => if a = src ∧ b = dst then (s.link a b).eraseIdx k else s.link a b }

@[simp] theorem drop_party (s : Mesh ν σ π) (src dst : ν) (k : ℕ) :
    (s.drop src dst k).party = s.party := rfl

theorem drop_link (s : Mesh ν σ π) (src dst : ν) (k : ℕ) (a b : ν) :
    (s.drop src dst k).link a b =
      if a = src ∧ b = dst then (s.link a b).eraseIdx k else s.link a b := rfl

theorem mem_of_mem_drop {s : Mesh ν σ π} {src dst : ν} {k : ℕ} {a b : ν} {p : π}
    (hp : p ∈ (s.drop src dst k).link a b) : p ∈ s.link a b := by
  rw [drop_link] at hp
  split at hp
  · exact List.mem_of_mem_eraseIdx hp
  · exact hp

end Mesh

namespace Parties

variable {ν σ ι π τ ω : Type*} [DecidableEq ν] (N : Parties ν σ ι π τ ω)

/-! ## The network as a machine -/

/-- The packets among the effects that go to `b`. -/
def sentTo (reach : List ν) (outs : List ω) (b : ν) : List π :=
  outs.filterMap fun o => (N.packet? o).bind fun (d, p) =>
    if d = some b ∨ d = none ∧ b ∈ reach then some p else none

/-- The party acts, and its packets are put on the links. -/
def perform (s : Mesh ν σ π) (n : ν) (x : Inbound ν ι π τ) (reach : List ν) :
    Mesh ν σ π × List (ν × ω) :=
  let r := N.act n (s.party n) x
  ({ party := Function.update s.party n r.1
     link := fun a b => s.link a b ++ if a = n then N.sentTo reach r.2 b else [] },
    r.2.map fun o => (n, o))

/-- One event. -/
def step (s : Mesh ν σ π) : MeshEvent ν ι τ → Mesh ν σ π × List (ν × ω)
  | .own n i reach => N.perform s n (.own i) reach
  | .arrive src dst k keep t reach =>
    match (s.link src dst)[k]? with
    | none => (s, [])
    | some p =>
      N.perform (if keep then s else s.drop src dst k) dst (.packet src p t) reach
  | .lose src dst k => (s.drop src dst k, [])

/-- The network as a machine; an effect comes with the name of the party. -/
def mesh : Mealy (Mesh ν σ π) (MeshEvent ν ι τ) (ν × ω) := ⟨N.step⟩

/-- The event makes the party `n` act on `x`, and `reach` get what it sends to all. -/
inductive Performs (s : Mesh ν σ π) : MeshEvent ν ι τ → ν → Inbound ν ι π τ → List ν → Prop where
  | own {n : ν} {i : ι} {reach : List ν} : Performs s (.own n i reach) n (.own i) reach
  | arrive {src dst : ν} {k : ℕ} {keep : Bool} {t : τ} {reach : List ν} {p : π}
      (h : (s.link src dst)[k]? = some p) :
    Performs s (.arrive src dst k keep t reach) dst (.packet src p t) reach

omit [DecidableEq ν] in
/-- An event makes at most one party act, and settles on what. -/
theorem Performs.unique {s : Mesh ν σ π} {e : MeshEvent ν ι τ} {n n' : ν}
    {x x' : Inbound ν ι π τ} {reach reach' : List ν} (h : Performs s e n x reach)
    (h' : Performs s e n' x' reach') : n' = n ∧ x' = x ∧ reach' = reach := by
  cases h with
  | own =>
    cases h'
    exact ⟨rfl, rfl, rfl⟩
  | arrive hp =>
    cases h' with
    | arrive hq =>
      cases hp.symm.trans hq
      exact ⟨rfl, rfl, rfl⟩

theorem mem_sentTo {reach : List ν} {outs : List ω} {b : ν} {p : π} :
    p ∈ N.sentTo reach outs b ↔
      ∃ o ∈ outs, ∃ d, N.packet? o = some (d, p) ∧ (d = some b ∨ d = none ∧ b ∈ reach) := by
  simp only [sentTo, List.mem_filterMap, Option.bind_eq_some_iff, Prod.exists]
  refine exists_congr fun o => and_congr_right fun _ => ?_
  constructor
  · rintro ⟨d, q, hq, hd⟩
    split at hd
    · rename_i hto
      cases hd
      exact ⟨d, hq, hto⟩
    · cases hd
  · rintro ⟨d, hq, hto⟩
    exact ⟨d, p, hq, if_pos hto⟩

@[simp] theorem perform_party (s : Mesh ν σ π) (n : ν) (x : Inbound ν ι π τ) (reach : List ν) :
    (N.perform s n x reach).1.party = Function.update s.party n (N.act n (s.party n) x).1 := rfl

theorem perform_link (s : Mesh ν σ π) (n : ν) (x : Inbound ν ι π τ) (reach : List ν) (a b : ν) :
    (N.perform s n x reach).1.link a b =
      s.link a b ++ if a = n then N.sentTo reach (N.act n (s.party n) x).2 b else [] := rfl

/-! ## Single events -/

/-- An event either makes a party act or takes at most one packet off a link. -/
theorem step_cases (s : Mesh ν σ π) (e : MeshEvent ν ι τ) :
    (∃ n x reach s', Performs s e n x reach ∧ s'.party = s.party ∧
        (∀ a b p, p ∈ s'.link a b → p ∈ s.link a b) ∧ N.step s e = N.perform s' n x reach) ∨
      ((∀ n x reach, ¬ Performs s e n x reach) ∧ (N.step s e).2 = [] ∧
        (N.step s e).1.party = s.party ∧
        ∀ a b p, p ∈ (N.step s e).1.link a b → p ∈ s.link a b) := by
  cases e with
  | own n i reach => exact .inl ⟨n, .own i, reach, s, .own, rfl, fun _ _ _ hp => hp, rfl⟩
  | arrive src dst k keep t reach =>
    cases hk : (s.link src dst)[k]? with
    | none =>
      have hstep : N.step s (.arrive src dst k keep t reach) = (s, []) := by simp [step, hk]
      refine .inr ⟨?_, by rw [hstep], by rw [hstep], fun a b p hp => by rwa [hstep] at hp⟩
      rintro n x reach' ⟨⟩
      rename_i hp
      cases hk.symm.trans hp
    | some p =>
      refine .inl ⟨dst, .packet src p t, reach, _, .arrive hk, ?_, fun a b q hq => ?_,
        by simp only [step, hk]; rfl⟩
      · cases keep <;> rfl
      · cases keep
        · exact Mesh.mem_of_mem_drop hq
        · exact hq
  | lose src dst k =>
    refine .inr ⟨?_, rfl, rfl, fun a b p hp => Mesh.mem_of_mem_drop hp⟩
    rintro n x reach ⟨⟩

/-- The effects of an event are those of the party that acts. -/
theorem mem_step_snd {s : Mesh ν σ π} {e : MeshEvent ν ι τ} {n : ν} {o : ω} :
    (n, o) ∈ (N.step s e).2 ↔
      ∃ x reach, Performs s e n x reach ∧ o ∈ (N.act n (s.party n) x).2 := by
  rcases N.step_cases s e with ⟨m, x, reach, s', hact, hparty, -, hstep⟩ | ⟨hno, hout, -⟩
  · rw [hstep]
    simp only [perform, hparty, List.mem_map, Prod.mk.injEq]
    constructor
    · rintro ⟨o', ho', rfl, rfl⟩
      exact ⟨x, reach, hact, ho'⟩
    · rintro ⟨x', reach', hact', ho⟩
      obtain ⟨rfl, rfl, rfl⟩ := hact.unique hact'
      exact ⟨o, ho, rfl, rfl⟩
  · rw [hout]
    constructor
    · intro ho
      cases ho
    · rintro ⟨x, reach, hact, -⟩
      exact absurd hact (hno n x reach)

theorem party_step_of_ne {s : Mesh ν σ π} {e : MeshEvent ν ι τ} {m : ν}
    (h : ∀ x reach, ¬ Performs s e m x reach) : (N.step s e).1.party m = s.party m := by
  rcases N.step_cases s e with ⟨n, x, reach, s', hact, hparty, -, hstep⟩ | ⟨-, -, hparty, -⟩
  · rw [hstep, perform_party, hparty, Function.update_of_ne]
    rintro rfl
    exact h x reach hact
  · rw [hparty]

theorem party_step_of_performs {s : Mesh ν σ π} {e : MeshEvent ν ι τ} {n : ν}
    {x : Inbound ν ι π τ} {reach : List ν} (h : Performs s e n x reach) :
    (N.step s e).1.party n = (N.act n (s.party n) x).1 := by
  cases h with
  | own => simp [step]
  | @arrive src dst k keep t reach p hk => cases keep <;> simp [step, hk]

/-- What every act of a party keeps, all parties keep in an event. -/
theorem party_step {I : ν → σ → Prop} (hact : ∀ n s x, I n s → I n (N.act n s x).1)
    {s : Mesh ν σ π} (h : ∀ n, I n (s.party n)) (e : MeshEvent ν ι τ) (n : ν) :
    I n ((N.step s e).1.party n) := by
  by_cases hn : ∃ x reach, Performs s e n x reach
  · obtain ⟨x, reach, hx⟩ := hn
    rw [N.party_step_of_performs hx]
    exact hact n _ x (h n)
  · rw [N.party_step_of_ne fun x reach hx => hn ⟨x, reach, hx⟩]
    exact h n

/-- What is in flight after an event was in flight before, or is sent by the party that acts. -/
theorem mem_link_step {s : Mesh ν σ π} {e : MeshEvent ν ι τ} {a b : ν} {p : π}
    (hp : p ∈ (N.step s e).1.link a b) :
    p ∈ s.link a b ∨ ∃ x reach, Performs s e a x reach ∧
      p ∈ N.sentTo reach (N.act a (s.party a) x).2 b := by
  rcases N.step_cases s e with ⟨n, x, reach, s', hact, hparty, hlink, hstep⟩ | ⟨-, -, -, hlink⟩
  · rw [hstep, perform_link, hparty, List.mem_append] at hp
    rcases hp with hp | hp
    · exact .inl (hlink a b p hp)
    · split at hp
      · rename_i han
        subst han
        exact .inr ⟨x, reach, hact, hp⟩
      · cases hp
  · exact .inl (hlink a b p hp)

/-! ## Runs -/

/-- What every act of a party keeps, all parties keep over every run. -/
theorem party_invariant {I : ν → σ → Prop} (hact : ∀ n s x, I n s → I n (N.act n s x).1)
    {s₀ : Mesh ν σ π} (hI₀ : ∀ n, I n (s₀.party n)) (es : List (MeshEvent ν ι τ)) :
    ∀ n, I n ((N.mesh.exec s₀ es).party n) :=
  N.mesh.invariant_all (I := fun s => ∀ n, I n (s.party n))
    (fun _ e h => N.party_step hact h e) hI₀ es

/-- **Assume and guarantee.** Let `I` speak of a party and `P` of a packet, given the run so far. If
a party that acts keeps `I` and sends packets with `P` whenever the packet that it acts on has `P`,
then after every run all parties have `I` and all packets in flight have `P`. -/
theorem guarantee (s₀ : Mesh ν σ π) {I : List (MeshEvent ν ι τ) → ν → σ → Prop}
    {P : List (MeshEvent ν ι τ) → ν → ν → π → Prop}
    (hI : ∀ p e n s, I p n s → I (p ++ [e]) n s)
    (hP : ∀ p e a b q, P p a b q → P (p ++ [e]) a b q)
    (hact : ∀ p e n x reach, Performs (N.mesh.exec s₀ p) e n x reach →
      I p n ((N.mesh.exec s₀ p).party n) → (∀ src q t, x = .packet src q t → P p src n q) →
      I (p ++ [e]) n (N.act n ((N.mesh.exec s₀ p).party n) x).1 ∧
        ∀ b, ∀ q ∈ N.sentTo reach (N.act n ((N.mesh.exec s₀ p).party n) x).2 b, P (p ++ [e]) n b q)
    (hI₀ : ∀ n, I [] n (s₀.party n)) (hP₀ : ∀ a b, ∀ q ∈ s₀.link a b, P [] a b q)
    (es : List (MeshEvent ν ι τ)) :
    (∀ n, I es n ((N.mesh.exec s₀ es).party n)) ∧
      ∀ a b, ∀ q ∈ (N.mesh.exec s₀ es).link a b, P es a b q := by
  induction es using List.reverseRecOn with
  | nil => exact ⟨hI₀, hP₀⟩
  | append_singleton es e ih =>
    obtain ⟨ihI, ihP⟩ := ih
    -- What a party may assume of the packet that makes it act.
    have hpacket : ∀ n x reach, Performs (N.mesh.exec s₀ es) e n x reach →
        ∀ src q t, x = .packet src q t → P es src n q := by
      rintro n x reach h src q t rfl
      cases h with
      | arrive hk => exact ihP _ _ _ (List.mem_of_getElem? hk)
    rw [Mealy.exec_append, Mealy.exec_cons, Mealy.exec_nil]
    refine ⟨fun n => ?_, fun a b q hq => ?_⟩
    · by_cases hn : ∃ x reach, Performs (N.mesh.exec s₀ es) e n x reach
      · obtain ⟨x, reach, h⟩ := hn
        have hparty := N.party_step_of_performs h
        exact hparty ▸ (hact es e n x reach h (ihI n) (hpacket n x reach h)).1
      · have hparty := N.party_step_of_ne fun x reach h => hn ⟨x, reach, h⟩
        exact hparty ▸ hI es e n _ (ihI n)
    · rcases N.mem_link_step hq with hq | ⟨x, reach, h, hsent⟩
      · exact hP es e a b q (ihP a b q hq)
      · exact (hact es e a x reach h (ihI a) (hpacket a x reach h)).2 b q hsent

/-- **Each packet in flight was sent** by a party that acted before. -/
theorem origin {party : ν → σ} {es : List (MeshEvent ν ι τ)} {a b : ν} {q : π}
    (hq : q ∈ (N.mesh.exec (.init party) es).link a b) :
    ∃ p e x reach, p ++ [e] <+: es ∧ Performs (N.mesh.exec (.init party) p) e a x reach ∧
      q ∈ N.sentTo reach (N.act a ((N.mesh.exec (.init party) p).party a) x).2 b := by
  refine (N.guarantee (.init party) (I := fun _ _ _ => True)
    (P := fun es a b q => ∃ p e x reach, p ++ [e] <+: es ∧
      Performs (N.mesh.exec (.init party) p) e a x reach ∧
      q ∈ N.sentTo reach (N.act a ((N.mesh.exec (.init party) p).party a) x).2 b)
    (fun _ _ _ _ _ => trivial) ?_ ?_ (fun _ => trivial) ?_ es).2 a b q hq
  · rintro fs f a b q ⟨p, e, x, reach, hp, h⟩
    exact ⟨p, e, x, reach, hp.trans (List.prefix_append fs [f]), h⟩
  · intro p e n x reach h _ _
    exact ⟨trivial, fun b q hq => ⟨p, e, x, reach, List.prefix_rfl, h, hq⟩⟩
  · intro a b q hq
    cases hq

end Parties
