import RvHouse.Kadc.RoundTrip
import RvHouse.Networking.Serverless
import RvHouse.Parser.Validation
import Mathlib.Data.Bool.AllAny

/-!
# The address in a reply

`group_adapter_serverless::handle_response` searches the reply of the address site for the first text
of the form `\d{1,3}(\.\d{1,3}){3}` and takes it for the external address. Some texts of this form
are no usable address, and for these `_external_ip_set` throws; nobody catches the exception before
the worker ends.

`addressReply_iff` says for which replies the adapter posts an outcome and goes on, and for each dotted
address which of the two it is; `not_answered_of_any` is a reply that ends the worker. What
`ACE_INET_Addr::set` makes of a host name is a parameter, of which only the dotted addresses are
known.
-/

namespace RvHouse

open Numeral

/-- `\d{1,3}`. -/
def upToThreeDigits : Run Char := ⟨isDigit 10, 1, some 3⟩

/-- `\d{1,3}(\.\d{1,3}){3}`. -/
def dottedQuad : List (Run Char) :=
  [upToThreeDigits, .lit '.', upToThreeDigits, .lit '.', upToThreeDigits, .lit '.',
    upToThreeDigits]

/-- The search of `handle_response`. -/
def findQuad (content : List UInt8) : Option String :=
  (Run.search dottedQuad (latin1 content)).map fun ps => String.ofList ps.flatten

/-- The configuration with this search, `set` being `ACE_INET_Addr::set` for a host name: the
address afterwards. -/
def ServerlessConf.withSet (c : ServerlessConf) (set : String → UInt32) : ServerlessConf :=
  { c with matchIp := fun content => (findQuad content).map fun q => (q, set q) }

/-- An address in decimals. -/
def dotted (n : UInt32) : String := String.ofList (Kadc.printIp n)

/-! ## Dotted addresses are found -/

theorem of_decimal (b : UInt8) : upToThreeDigits.Of (Kadc.decimal b.toNat) := by
  have hlt : b.toNat < 10 ^ 3 := b.toNat_lt.trans (by decide)
  refine ⟨fun c hc => Kadc.isDigit_of_mem_decimal hc, ?_, ?_⟩
  · exact List.length_pos_iff.2 Nat.toDigits_ne_nil
  · rintro m ⟨⟩
    exact (Nat.length_toDigits_le_iff (by decide) (by decide)).2 hlt

theorem matchAt_decimal {rs : List (Run Char)} (b : UInt8) {l : List Char} {ps : List (List Char)}
    (hl : ∀ c ∈ l.head?, isDigit 10 c = false) (h : Run.matchAt rs l = some ps) :
    Run.matchAt (upToThreeDigits :: rs) (Kadc.decimal b.toNat ++ l) =
      some (Kadc.decimal b.toNat :: ps) :=
  Run.matchAt_append (of_decimal b) (.inr hl) h

/-- A dotted address with no digit before it is found whole, if no digit follows. -/
theorem findQuad_printIp {content : List UInt8} {l₁ l₂ : List Char} {n : UInt32}
    (h : latin1 content = l₁ ++ (Kadc.printIp n ++ l₂)) (h₁ : ∀ c ∈ l₁, isDigit 10 c = false)
    (h₂ : ∀ c ∈ l₂.head?, isDigit 10 c = false) : findQuad content = some (dotted n) := by
  obtain ⟨b₀, b₁, b₂, b₃, -, hprint⟩ := Kadc.printIp_eq n
  have hdot : ∀ l : List Char, ∀ c ∈ ('.' :: l).head?, isDigit 10 c = false := by
    rintro l c ⟨⟩
    decide
  have hmatch : Run.matchAt dottedQuad (Kadc.printIp n ++ l₂) =
      some [Kadc.decimal b₃.toNat, ['.'], Kadc.decimal b₂.toNat, ['.'], Kadc.decimal b₁.toNat,
        ['.'], Kadc.decimal b₀.toNat] := by
    rw [hprint]
    simp only [List.append_assoc, List.cons_append]
    exact matchAt_decimal b₃ (hdot _) (Run.matchAt_lit (matchAt_decimal b₂ (hdot _) (Run.matchAt_lit
      (matchAt_decimal b₁ (hdot _) (Run.matchAt_lit (matchAt_decimal b₀ h₂ rfl))))))
  have hflat : [Kadc.decimal b₃.toNat, ['.'], Kadc.decimal b₂.toNat, ['.'], Kadc.decimal b₁.toNat,
      ['.'], Kadc.decimal b₀.toNat].flatten = Kadc.printIp n := by
    simp [hprint]
  have hsearch := Run.search_of_matchAt hmatch
  have hclass : ∀ c ∈ l₁, upToThreeDigits.ok c = false := h₁
  have hpass : Run.search dottedQuad (l₁ ++ (Kadc.printIp n ++ l₂)) =
      Run.search dottedQuad (Kadc.printIp n ++ l₂) := Run.search_append Nat.one_pos hclass _
  rw [findQuad, h, hpass, hsearch, Option.map_some, hflat, dotted]

namespace Serverless

/-! ## Replies -/

/-- The adapter goes on, and has posted an address that is one, or that there is none. -/
def Answered (s r : Serverless) : Prop :=
  r.thrown = false ∧ ∃ act rest, r.out = s.out ++ act :: rest ∧
    ((∃ ipstr, act = .gui .externalIpFetchDone ipstr ∧ r.externalIp.ip ≠ 0 ∧
        r.externalIp.ip ≠ 0xFFFFFFFF) ∨
      ∃ text, act = .gui .externalIpFetchFail text)

/-- To join the group leaves the address and what was done before. -/
theorem condGroupJoin_keeps (s : Serverless) :
    s.condGroupJoin.1.thrown = s.thrown ∧ s.condGroupJoin.1.externalIp = s.externalIp ∧
      ∃ rest, s.condGroupJoin.1.out = s.out ++ rest := by
  unfold condGroupJoin baseConnect
  dsimp only
  split
  · split
    · exact ⟨rfl, rfl, _, rfl⟩
    · exact ⟨rfl, rfl, _, List.append_assoc _ _ _⟩
  · exact ⟨rfl, rfl, [], (List.append_nil _).symm⟩

theorem answered_of_emit {s t : Serverless} {act : ServerlessAct} (hthrown : t.thrown = false)
    (hout : t.out = s.out)
    (hact : (∃ ipstr, act = .gui .externalIpFetchDone ipstr ∧ t.externalIp.ip ≠ 0 ∧
        t.externalIp.ip ≠ 0xFFFFFFFF) ∨ ∃ text, act = .gui .externalIpFetchFail text) :
    s.Answered (t.emit act).condGroupJoin.1 := by
  obtain ⟨hkeep, hip, rest, hrest⟩ := (t.emit act).condGroupJoin_keeps
  refine ⟨hkeep.trans hthrown, act, rest, ?_, ?_⟩
  · rw [hrest, emit, hout, List.append_assoc]
    rfl
  · rw [hip]
    exact hact

theorem answered_handleResponse_iff {c : ServerlessConf} (hport : c.port ≠ 0)
    (set : String → UInt32) {s : Serverless} (hs : s.thrown = false) (content : List UInt8) :
    s.Answered (s.handleResponse (c.withSet set) content) ↔
      ∀ q, findQuad content = some q → set q ≠ 0 ∧ set q ≠ 0xFFFFFFFF := by
  have hmatch : (c.withSet set).matchIp content = (findQuad content).map fun q => (q, set q) := rfl
  unfold handleResponse
  rw [hmatch]
  cases hq : findQuad content with
  | none =>
    refine iff_of_true ?_ (by simp)
    exact answered_of_emit hs rfl (.inr ⟨_, rfl⟩)
  | some q =>
    have hport' : (c.withSet set).port ≠ 0 := hport
    simp only [Option.map_some, Option.some.injEq, forall_eq']
    by_cases hbad : set q = 0 ∨ set q = 0xFFFFFFFF
    · have hthrown : (s.externalIpSet (c.withSet set) (set q)).thrown = true := by
        simp [externalIpSet, hbad]
      rw [if_pos hthrown]
      refine iff_of_false (fun h => ?_) fun h => hbad.elim h.1 h.2
      exact absurd (hthrown.symm.trans h.1) (by decide)
    · obtain ⟨hany, hnone⟩ := not_or.1 hbad
      have hset : s.externalIpSet (c.withSet set) (set q) =
          { s with externalIp := ⟨set q, (c.withSet set).port⟩ } := by
        simp [externalIpSet, hbad, hport']
      rw [hset, if_neg (by simp [hs])]
      exact iff_of_true (answered_of_emit hs rfl (.inl ⟨q, rfl, hany, hnone⟩)) ⟨hany, hnone⟩

/-- **The address in a reply.** The adapter posts an outcome and goes on exactly when the reply has
no text of the form, or the first one is set to an address that is neither `INADDR_ANY` nor
`INADDR_NONE`; for a dotted address that is found whole, when it is neither of them itself. -/
theorem addressReply_iff {c : ServerlessConf} (hport : c.port ≠ 0) {set : String → UInt32}
    (hset : ∀ n, set (dotted n) = n) {s : Serverless} (hs : s.thrown = false)
    (content : List UInt8) :
    (s.Answered (s.handleResponse (c.withSet set) content) ↔
        ∀ q, findQuad content = some q → set q ≠ 0 ∧ set q ≠ 0xFFFFFFFF) ∧
      ∀ l₁ n l₂, latin1 content = l₁ ++ (Kadc.printIp n ++ l₂) →
        (∀ c ∈ l₁, isDigit 10 c = false) → (∀ c ∈ l₂.head?, isDigit 10 c = false) →
        (s.Answered (s.handleResponse (c.withSet set) content) ↔ n ≠ 0 ∧ n ≠ 0xFFFFFFFF) := by
  have hiff := answered_handleResponse_iff hport set hs content
  refine ⟨hiff, fun l₁ n l₂ h h₁ h₂ => ?_⟩
  rw [hiff, findQuad_printIp h h₁ h₂]
  simp only [Option.some.injEq, forall_eq', hset]

/-- An `ACE_INET_Addr::set` that knows dotted addresses only. -/
def setDotted (q : String) : UInt32 :=
  ((Kadc.scanIp ⟨'x', [], 0, 0, 0, 0⟩ ⟨q.toList ++ [' '], true⟩).map (·.1)).getD 0

theorem setDotted_dotted (n : UInt32) : setDotted (dotted n) = n := by
  rw [setDotted, dotted, String.toList_ofList, Kadc.scanIp_printIp]
  rfl

/-- A reply with an address between two words. -/
theorem addressReply_iff_good :
    ({} : Serverless).Answered (({} : Serverless).handleResponse
      (({ port := 2301 } : ServerlessConf).withSet setDotted)
      ("ip: 80.1.2.3 .".toList.map fun c => UInt8.ofNat c.toNat)) :=
  ((addressReply_iff (c := { port := 2301 }) (by decide) setDotted_dotted (s := {}) rfl
    ("ip: 80.1.2.3 .".toList.map fun c => UInt8.ofNat c.toNat)).2 "ip: ".toList 0x50010203
      " .".toList (by decide) (List.all_iff_forall_prop.1 (by decide)) (by rintro c ⟨⟩; decide)).2
      (by decide)

/-- The first address in the reply is 0.0.0.0: the exception ends the worker. -/
theorem not_answered_of_any :
    let r := ({} : Serverless).handleResponse
      (({ port := 2301 } : ServerlessConf).withSet setDotted)
      ("0.0.0.0".toList.map fun c => UInt8.ofNat c.toNat)
    r.thrown = true ∧ r.out = [] := by
  decide

end Serverless

end RvHouse
