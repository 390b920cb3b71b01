import RvHouse.Http.FetcherHandler
import Mathlib.Data.List.TakeWhile

/-!
# What becomes of a reply

A reply comes in pieces and ends with the close of the stream; then `_handle_response` looks for the
blank line that ends its header.

* `calls_eq_iff`: the pieces do not matter, but a `recv` that would block does. `handle_input` means
  to pass over it, and then copies a negative count.
* `reportsContent_iff`: the content is what follows the first blank line, unless the lines of the
  header end in LF and some blank line of the content is CRLFCRLF: that one is looked for first, in
  the whole reply.
-/

namespace RvHouse

/-! ## The search -/

/-- `strstr` gives the first place. -/
theorem strstr_eq_some_iff {s pat : List UInt8} {i : ℕ} :
    strstr s pat = some i ↔ pat <+: s.drop i ∧ ∀ j < i, ¬ pat <+: s.drop j := by
  simp only [strstr, List.find?_range_eq_some, List.isPrefixOf_iff_prefix, List.mem_range,
    Bool.not_eq_true', ← Bool.not_eq_true]
  constructor
  · rintro ⟨hi, -, hfirst⟩
    exact ⟨hi, hfirst⟩
  · rintro ⟨hi, hfirst⟩
    refine ⟨hi, ?_, hfirst⟩
    by_contra hlen
    -- Behind the end there is the empty pattern only, which is found at once.
    have hnil : s.drop i = [] := List.drop_eq_nil_of_le (by omega)
    rw [hnil, List.prefix_nil] at hi
    exact hfirst 0 (by omega) (hi ▸ List.nil_prefix)

theorem strstr_eq_none_iff {s pat : List UInt8} :
    strstr s pat = none ↔ ∀ i, ¬ pat <+: s.drop i := by
  constructor
  · intro h i hi
    classical
    have hex : ∃ i, pat <+: s.drop i := ⟨i, hi⟩
    have hsome : strstr s pat = some (Nat.find hex) :=
      strstr_eq_some_iff.2 ⟨Nat.find_spec hex, fun j hj => Nat.find_min hex hj⟩
    rw [h] at hsome
    cases hsome
  · intro h
    cases hi : strstr s pat with
    | none => rfl
    | some i => exact absurd (strstr_eq_some_iff.1 hi).1 (h i)

/-- The bytes that a result brings. -/
def Recv.bytes : Recv → List UInt8
  | .received buf => buf
  | .failed _ => []

/-- The end of the stream. -/
def Recv.close : Recv := .received ⟨[], by decide⟩

namespace FetcherHandler

/-! ## Pieces -/

/-- The results bring the reply, in pieces none of which is empty; in between `recv` may have found
nothing to give yet. -/
structure Brings (rs : List Recv) (reply : List UInt8) : Prop where
  piece : ∀ r ∈ rs, r = .failed true ∨ r.bytes ≠ []
  reply : rs.flatMap Recv.bytes = reply

/-- The calls of the user's handler when the stream ends after these results. -/
def calls (rs : List Recv) : List HttpCall :=
  machine.trace {} ((rs ++ [Recv.close]).map .handleInput)

theorem handleInput_piece {h : FetcherHandler} {r : Recv} (hne : r.bytes ≠ [])
    (hlen : h.recvMb.length + r.bytes.length ≤ maxResponseSize) :
    h.handleInput r = .inr { h with recvMb := h.recvMb ++ r.bytes } := by
  cases r with
  | failed wouldBlock => exact absurd rfl hne
  | received buf =>
    obtain ⟨l, hl⟩ := buf
    have hne' : l ≠ [] := hne
    have hlen' : h.recvMb.length + l.length ≤ maxResponseSize := hlen
    have hspace : ¬ h.space < l.length := by
      unfold space
      omega
    simp only [handleInput, List.length_eq_zero_iff, hne', hspace, if_false, Recv.bytes]

/-- Pieces that fit are collected in silence. -/
theorem exec_pieces {h : FetcherHandler} (hopen : h.deleted = false) {rs : List Recv}
    (hne : ∀ r ∈ rs, r.bytes ≠ [])
    (hlen : h.recvMb.length + (rs.flatMap Recv.bytes).length ≤ maxResponseSize) :
    machine.trace h (rs.map .handleInput) = [] ∧
      machine.exec h (rs.map .handleInput) =
        { h with recvMb := h.recvMb ++ rs.flatMap Recv.bytes } := by
  induction rs generalizing h with
  | nil => simp
  | cons r rs ih =>
    obtain ⟨hr, hrs⟩ := List.forall_mem_cons.1 hne
    rw [List.flatMap_cons, List.length_append] at hlen
    have hstep : machine.step h (.handleInput r) =
        ({ h with recvMb := h.recvMb ++ r.bytes }, []) :=
      step_of_received hopen (handleInput_piece hr (by omega))
    have hlen' : (h.recvMb ++ r.bytes).length + (rs.flatMap Recv.bytes).length ≤
        maxResponseSize := by
      rw [List.length_append]
      omega
    obtain ⟨htrace, hexec⟩ := ih (h := { h with recvMb := h.recvMb ++ r.bytes }) hopen hrs hlen'
    simp only [List.map_cons, Mealy.trace_cons, Mealy.exec_cons, hstep, htrace, hexec,
      List.flatMap_cons, List.append_assoc, List.nil_append, and_self]

/-- The calls when what follows the pieces makes `handle_input` report. -/
theorem trace_of_report {rs : List Recv} (hne : ∀ r ∈ rs, r.bytes ≠ [])
    (hlen : (rs.flatMap Recv.bytes).length ≤ maxResponseSize) {r : Recv} {report : HttpCall}
    (hr : handleInput ⟨rs.flatMap Recv.bytes, false⟩ r = .inl report) (rs' : List Recv) :
    machine.trace {} ((rs ++ r :: rs').map .handleInput) =
      report :: (handleClose ⟨rs.flatMap Recv.bytes, false⟩).2 := by
  obtain ⟨htrace, hexec⟩ := exec_pieces (h := {}) rfl hne (by simpa using hlen)
  have hstep := step_of_report (h := ⟨rs.flatMap Recv.bytes, false⟩) rfl hr
  have hrest := (trace_of_deleted (h := (handleClose ⟨rs.flatMap Recv.bytes, false⟩).1) rfl
    (rs'.map .handleInput)).1
  rw [List.map_append, Mealy.trace_append, htrace, hexec, List.map_cons, Mealy.trace_cons]
  simp only [List.nil_append]
  show (step _ _).2 ++ machine.trace (step _ _).1 _ = _
  rw [hstep, hrest, List.append_nil]

/-- Without a result that would block, the reply alone decides. -/
theorem calls_of_pieces {rs : List Recv} {reply : List UInt8} (h : Brings rs reply)
    (hlen : reply.length < maxResponseSize) (hplain : ∀ r ∈ rs, r ≠ .failed true) :
    calls rs = handleResponse ⟨reply, false⟩ :: (handleClose ⟨reply, false⟩).2 := by
  have hne : ∀ r ∈ rs, r.bytes ≠ [] := fun r hr => (h.piece r hr).resolve_left (hplain r hr)
  have hlen' : (rs.flatMap Recv.bytes).length ≤ maxResponseSize := by
    rw [h.reply]
    exact hlen.le
  have htrace := trace_of_report hne hlen' (r := .close) rfl []
  rwa [h.reply] at htrace

/-- The first result that would block ends the connection. -/
theorem calls_of_failed {rs : List Recv} {reply : List UInt8} (h : Brings rs reply)
    (hlen : reply.length < maxResponseSize) (hblock : .failed true ∈ rs) :
    (calls rs).head? = some (.handleError .outOfMemory "copying data failed") := by
  obtain ⟨before, after, rfl, hfirst⟩ := List.eq_append_cons_of_mem hblock
  have hne : ∀ r ∈ before, r.bytes ≠ [] := fun r hr =>
    (h.piece r (List.mem_append_left _ hr)).resolve_left fun hr' => hfirst (hr' ▸ hr)
  have hlen' : (before.flatMap Recv.bytes).length ≤ maxResponseSize := by
    have hall := congrArg List.length h.reply
    rw [List.flatMap_append, List.length_append] at hall
    omega
  have htrace := trace_of_report hne hlen' (r := .failed true) rfl (after ++ [.close])
  rw [calls, List.append_assoc, List.cons_append, htrace]
  rfl

/-- A reply that is shorter than the buffer leaves space for the zero behind it. -/
theorem space_ne_zero {reply : List UInt8} (hlen : reply.length < maxResponseSize) :
    space ⟨reply, false⟩ ≠ 0 := by
  unfold space
  dsimp only
  omega

theorem handleResponse_ne_outOfMemory {reply : List UInt8}
    (hlen : reply.length < maxResponseSize) (details : String) :
    handleResponse ⟨reply, false⟩ ≠ .handleError .outOfMemory details := by
  unfold handleResponse
  rw [if_neg (space_ne_zero hlen)]
  dsimp only
  split <;> simp

/-- **The pieces of a reply.** However a reply comes, the calls of the user's handler are those of
any other way in which it comes without a result that would block, exactly when no result would
block. -/
theorem calls_eq_iff {reply : List UInt8} (hlen : reply.length < maxResponseSize)
    {rs rs₀ : List Recv} (h : Brings rs reply) (h₀ : Brings rs₀ reply)
    (hplain : ∀ r ∈ rs₀, r ≠ .failed true) :
    calls rs = calls rs₀ ↔ ∀ r ∈ rs, r ≠ .failed true := by
  rw [calls_of_pieces h₀ hlen hplain]
  constructor
  · rintro heq r hr rfl
    have hhead := calls_of_failed h hlen hr
    rw [heq, List.head?_cons, Option.some.injEq] at hhead
    exact handleResponse_ne_outOfMemory hlen _ hhead
  · exact fun hall => calls_of_pieces h hlen hall

/-- The reply "LF LF A" in two pieces and in one. -/
theorem calls_eq_iff_two :
    calls [.received ⟨[10], by decide⟩, .received ⟨[10, 65], by decide⟩] =
      calls [.received ⟨[10, 10, 65], by decide⟩] :=
  (@calls_eq_iff [10, 10, 65] (by decide) _ _ ⟨by decide, rfl⟩ ⟨by decide, rfl⟩
    (by decide)).2 (by decide)

/-- The first `recv` finds nothing yet: the reply "LF LF A" that comes next is not received. -/
theorem not_calls_eq_of_wouldBlock :
    Brings [.failed true, .received ⟨[10, 10, 65], by decide⟩] [10, 10, 65] ∧
      calls [.failed true, .received ⟨[10, 10, 65], by decide⟩] =
        [.handleError .outOfMemory "copying data failed",
          .handleError .timeout "Connect/read timeout", .handleClose] ∧
      Brings [.received ⟨[10, 10, 65], by decide⟩] [10, 10, 65] ∧
      calls [.received ⟨[10, 10, 65], by decide⟩] = [.handleResponse [65], .handleClose] :=
  ⟨⟨by decide, rfl⟩, by decide, ⟨by decide, rfl⟩, by decide⟩

/-! ## The blank line -/

/-- The two ways to write a blank line after the end of another one. -/
def blankLines : List (List UInt8) := [[13, 10, 13, 10], [10, 10]]

/-- There is a blank line at the place. -/
def BlankLineAt (reply : List UInt8) (i : ℕ) : Prop := ∃ line ∈ blankLines, line <+: reply.drop i

instance (reply : List UInt8) (i : ℕ) : Decidable (BlankLineAt reply i) :=
  inferInstanceAs (Decidable (∃ line ∈ blankLines, line <+: reply.drop i))

/-- What comes after the first blank line. -/
def IsContent (reply content : List UInt8) : Prop :=
  ∃ before, ∃ line ∈ blankLines, reply = before ++ line ++ content ∧
    ∀ i < before.length, ¬ BlankLineAt reply i

/-- The report is the content of the reply, or an error when there is no blank line. -/
structure ReportsContent (reply : List UInt8) (report : HttpCall) : Prop where
  content : ∀ content, report = .handleResponse content ↔ IsContent reply content
  error : (∃ reason details, report = .handleError reason details) ↔ ∀ i, ¬ BlankLineAt reply i

theorem blankLineAt_iff {reply : List UInt8} {i : ℕ} :
    BlankLineAt reply i ↔ [13, 10, 13, 10] <+: reply.drop i ∨ [10, 10] <+: reply.drop i := by
  simp [BlankLineAt, blankLines]

theorem isContent_iff {reply content : List UInt8} :
    IsContent reply content ↔ ∃ i, (∀ j < i, ¬ BlankLineAt reply j) ∧
      ∃ line ∈ blankLines, line <+: reply.drop i ∧ content = reply.drop (i + line.length) := by
  constructor
  · rintro ⟨before, line, hline, rfl, hfirst⟩
    refine ⟨before.length, hfirst, line, hline, ?_, ?_⟩
    · rw [List.append_assoc, List.drop_left]
      exact List.prefix_append line content
    · rw [← List.length_append, List.drop_left]
  · rintro ⟨i, hfirst, line, hline, ⟨content', hdrop⟩, rfl⟩
    have hcontent : reply.drop (i + line.length) = content' := by
      rw [← List.drop_drop, ← hdrop, List.drop_left]
    have hi : i ≤ reply.length := by
      by_contra hlen
      rw [List.drop_eq_nil_of_le (by omega), List.append_eq_nil_iff] at hdrop
      obtain ⟨rfl, -⟩ := hdrop
      revert hline
      decide
    refine ⟨reply.take i, line, hline, ?_, fun j hj => hfirst j ?_⟩
    · rw [hcontent, List.append_assoc, hdrop, List.take_append_drop]
    · rwa [List.length_take_of_le hi] at hj

/-- A line that ends in CR LF does not end in LF LF at the same place. -/
theorem not_both_at {s : List UInt8} (hcrlf : [13, 10, 13, 10] <+: s) : ¬ [10, 10] <+: s := by
  obtain ⟨t, rfl⟩ := hcrlf
  rintro ⟨t', ht'⟩
  cases ht'

/-- The content after a blank line that is the first one. -/
theorem isContent_eq {reply content : List UInt8} {i : ℕ} {line : List UInt8}
    (hline : line ∈ blankLines) (hat : line <+: reply.drop i)
    (hfirst : ∀ j < i, ¬ BlankLineAt reply j) :
    IsContent reply content ↔ reply.drop (i + line.length) = content := by
  rw [isContent_iff]
  constructor
  · rintro ⟨i', hfirst', line', hline', hat', rfl⟩
    obtain rfl : i = i' := by
      rcases lt_trichotomy i i' with hlt | heq | hgt
      · exact absurd ⟨line, hline, hat⟩ (hfirst' i hlt)
      · exact heq
      · exact absurd ⟨line', hline', hat'⟩ (hfirst i' hgt)
    have hlines : line = line' := by
      simp only [blankLines, List.mem_cons, List.not_mem_nil, or_false] at hline hline'
      rcases hline with rfl | rfl <;> rcases hline' with rfl | rfl
      · rfl
      · exact absurd hat' (not_both_at hat)
      · exact absurd hat (not_both_at hat')
      · rfl
    rw [hlines]
  · rintro rfl
    exact ⟨i, hfirst, line, hline, hat, rfl⟩

/-- Where CRLFCRLF occurs at all, it occurs before every LFLF. -/
def CrlfFirst (reply : List UInt8) : Prop :=
  ∀ i k, [10, 10] <+: reply.drop i → [13, 10, 13, 10] <+: reply.drop k →
    ∃ j < i, [13, 10, 13, 10] <+: reply.drop j

section

variable {reply : List UInt8} (hlen : reply.length < maxResponseSize) (hnul : 0 ∉ reply)

include hnul in
theorem cString_eq : reply.takeWhile (· ≠ 0) = reply := by
  rw [List.takeWhile_eq_self_iff]
  intro b hb
  simpa using ne_of_mem_of_not_mem hb hnul

include hlen hnul

theorem handleResponse_of_crlf {i : ℕ} (hcrlf : strstr reply [13, 10, 13, 10] = some i) :
    handleResponse ⟨reply, false⟩ = .handleResponse (reply.drop (i + 4)) := by
  simp only [handleResponse, if_neg (space_ne_zero hlen), cString_eq hnul, hcrlf]

theorem handleResponse_of_lf (hcrlf : strstr reply [13, 10, 13, 10] = none) {i : ℕ}
    (hlf : strstr reply [10, 10] = some i) :
    handleResponse ⟨reply, false⟩ = .handleResponse (reply.drop (i + 2)) := by
  simp only [handleResponse, if_neg (space_ne_zero hlen), cString_eq hnul, hcrlf, hlf]

theorem handleResponse_of_neither (hcrlf : strstr reply [13, 10, 13, 10] = none)
    (hlf : strstr reply [10, 10] = none) : handleResponse ⟨reply, false⟩ =
      .handleError .invalidReply "HTTP header delimiter not found" := by
  simp only [handleResponse, if_neg (space_ne_zero hlen), cString_eq hnul, hcrlf, hlf]

end

theorem reportsContent_of_response {reply content : List UInt8}
    (h : ∀ content', IsContent reply content' ↔ content = content') :
    ReportsContent reply (.handleResponse content) := by
  refine ⟨fun content' => ?_, iff_of_false (by simp) fun hnone => ?_⟩
  · rw [h, HttpCall.handleResponse.injEq]
  · obtain ⟨i, -, line, hline, hat, -⟩ := isContent_iff.1 ((h content).2 rfl)
    exact hnone i ⟨line, hline, hat⟩

theorem reportsContent_of_error {reply : List UInt8} (hnone : ∀ i, ¬ BlankLineAt reply i)
    {reason : HttpError} {details : String} :
    ReportsContent reply (.handleError reason details) := by
  refine ⟨fun content => iff_of_false (by simp) fun hcontent => ?_,
    iff_of_true ⟨reason, details, rfl⟩ hnone⟩
  obtain ⟨i, -, line, hline, hat, -⟩ := isContent_iff.1 hcontent
  exact hnone i ⟨line, hline, hat⟩

/-- The content is wrong when an LFLF comes before the first CRLFCRLF: what follows it is longer. -/
theorem exists_crlf_before {reply : List UInt8} {k : ℕ}
    (hk : strstr reply [13, 10, 13, 10] = some k)
    (h : ReportsContent reply (.handleResponse (reply.drop (k + 4)))) {i : ℕ}
    (hi : [10, 10] <+: reply.drop i) : ∃ j < i, [13, 10, 13, 10] <+: reply.drop j := by
  obtain ⟨hkat, -⟩ := strstr_eq_some_iff.1 hk
  by_contra hbefore
  push Not at hbefore
  -- The first LFLF comes first of all then.
  obtain ⟨i₀, hi₀⟩ : ∃ i₀, strstr reply [10, 10] = some i₀ := by
    rw [← Option.ne_none_iff_exists']
    exact fun hnone => strstr_eq_none_iff.1 hnone i hi
  obtain ⟨hat, hlffirst⟩ := strstr_eq_some_iff.1 hi₀
  have hle : i₀ ≤ i := not_lt.1 fun hlt => hlffirst i hlt hi
  have hik : i ≤ k := not_lt.1 fun hlt => hbefore k hlt hkat
  have hfirst : ∀ j < i₀, ¬ BlankLineAt reply j := fun j hj hline =>
    (blankLineAt_iff.1 hline).elim (hbefore j (by omega)) (hlffirst j hj)
  have hcontent : IsContent reply (reply.drop (i₀ + 2)) :=
    (isContent_eq (by decide) hat hfirst).2 rfl
  have hlength := congrArg List.length (HttpCall.handleResponse.inj ((h.content _).2 hcontent))
  have hfits := hkat.length_le
  simp only [List.length_drop, List.length_cons, List.length_nil] at hlength hfits
  omega

/-- A CRLFCRLF that comes before every LFLF is the first blank line. -/
theorem not_blankLineAt_before {reply : List UInt8} {k : ℕ}
    (hk : strstr reply [13, 10, 13, 10] = some k) (h : CrlfFirst reply) :
    ∀ j < k, ¬ BlankLineAt reply j := by
  obtain ⟨hkat, hkfirst⟩ := strstr_eq_some_iff.1 hk
  intro j hj hline
  rcases blankLineAt_iff.1 hline with hcr | hlf
  · exact hkfirst j hj hcr
  · obtain ⟨j', hj', hcr⟩ := h j k hlf hkat
    exact hkfirst j' (by omega) hcr

/-- **The content of a reply.** What `_handle_response` reports for a reply without a zero byte is
what follows its first blank line, or an error when it has none, exactly when no LFLF comes before
the first CRLFCRLF. -/
theorem reportsContent_iff {reply : List UInt8} (hlen : reply.length < maxResponseSize)
    (hnul : 0 ∉ reply) :
    ReportsContent reply (handleResponse ⟨reply, false⟩) ↔ CrlfFirst reply := by
  cases hcrlf : strstr reply [13, 10, 13, 10] with
  | some k =>
    obtain ⟨hk, -⟩ := strstr_eq_some_iff.1 hcrlf
    rw [handleResponse_of_crlf hlen hnul hcrlf]
    constructor
    · exact fun h i _ hi _ => exists_crlf_before hcrlf h hi
    · intro h
      exact reportsContent_of_response fun content =>
        isContent_eq (by decide) hk (not_blankLineAt_before hcrlf h)
  | none =>
    have hno := strstr_eq_none_iff.1 hcrlf
    refine iff_of_true ?_ fun i k _ hk => absurd hk (hno k)
    cases hlf : strstr reply [10, 10] with
    | some i =>
      obtain ⟨hi, hfirst⟩ := strstr_eq_some_iff.1 hlf
      rw [handleResponse_of_lf hlen hnul hcrlf hlf]
      exact reportsContent_of_response fun content => isContent_eq (by decide) hi fun j hj hline =>
        (blankLineAt_iff.1 hline).elim (hno j) (hfirst j hj)
    | none =>
      rw [handleResponse_of_neither hlen hnul hcrlf hlf]
      exact reportsContent_of_error fun i hline =>
        (blankLineAt_iff.1 hline).elim (hno i) (strstr_eq_none_iff.1 hlf i)

/-- The reply "H CRLF CRLF A LF LF". -/
theorem reportsContent_crlf :
    ReportsContent [72, 13, 10, 13, 10, 65, 10, 10]
      (handleResponse ⟨[72, 13, 10, 13, 10, 65, 10, 10], false⟩) := by
  refine (reportsContent_iff (by decide) (by decide)).2 fun i k hi _ => ?_
  match i, hi with
  | 0, hi => exact absurd hi (by decide)
  | 1, hi => exact absurd hi (by decide)
  | i + 2, _ => exact ⟨1, by omega, by decide⟩

/-- The lines of the header end in LF, those of the content in CRLF: all up to the blank line of the
content is lost. -/
theorem not_reportsContent_of_lf :
    handleResponse ⟨[72, 10, 10, 65, 13, 10, 13, 10, 66], false⟩ = .handleResponse [66] ∧
      IsContent [72, 10, 10, 65, 13, 10, 13, 10, 66] [65, 13, 10, 13, 10, 66] ∧
      ¬ ReportsContent [72, 10, 10, 65, 13, 10, 13, 10, 66]
        (handleResponse ⟨[72, 10, 10, 65, 13, 10, 13, 10, 66], false⟩) := by
  have hcontent : IsContent [72, 10, 10, 65, 13, 10, 13, 10, 66] [65, 13, 10, 13, 10, 66] :=
    ⟨[72], [10, 10], by decide, rfl, by decide⟩
  refine ⟨by decide, hcontent, fun h => ?_⟩
  have hreport := (h.content _).2 hcontent
  revert hreport
  decide

end FetcherHandler

end RvHouse
