import RvHouse.Kadc.RoundTrip

/-!
# Any stream of bytes as a `contact.dat`

What `overnet_contacts_to_kadc_ini` makes of bytes that need not be a `contact.dat`: the stream may
end anywhere, and the number in front may be anything. A contact is read whole or not at all
(`readContact_eq_some`, `readContact_isSome`), so the loop writes whole lines (`contactLoop_spec`).
`overnetContactsToKadcIni_spec` is the whole file.
-/

namespace RvHouse

namespace Kadc

open Numeral

/-! ## One contact -/

theorem leBytes_uint16 {l : List UInt8} (hl : l.length = 2) :
    leBytes 2 (UInt16.ofNat (ofLeBytes l)).toNat = l := by
  rw [UInt16.toNat_ofNat']
  exact leBytes_mod hl

theorem leBytes_uint8 {l : List UInt8} (hl : l.length = 1) :
    leBytes 1 (UInt8.ofNat (ofLeBytes l)).toNat = l := by
  rw [UInt8.toNat_ofNat']
  exact leBytes_mod hl

theorem readBytes_eq_some {n : ℕ} {inp l rest : List UInt8} :
    readBytes n inp = some (l, rest) ↔ inp = l ++ rest ∧ l.length = n := by
  constructor
  · intro h
    rw [readBytes] at h
    split at h
    · rename_i hle
      obtain ⟨rfl, rfl⟩ := Prod.mk.inj (Option.some.inj h)
      exact ⟨(List.take_append_drop n inp).symm, List.length_take_of_le hle⟩
    · cases h
  · rintro ⟨rfl, hl⟩
    exact readBytes_append hl rest

/-- The words of the hash are its sixteen bytes. -/
theorem flatMap_words {id : List UInt8} (hid : id.length = 16) :
    (List.finRange 4).flatMap (fun j : Fin 4 => leBytes 4
      (UInt32.ofNat (ofLeBytes ((id.drop (4 * j)).take 4))).toNat) = id := by
  have hword : ∀ j : Fin 4, leBytes 4
      (UInt32.ofNat (ofLeBytes ((id.drop (4 * j)).take 4))).toNat = (id.drop (4 * j)).take 4 := by
    intro j
    apply leBytes_uint32
    rw [List.length_take, List.length_drop]
    omega
  have hsplit : ∀ i, (id.drop i).take 4 ++ id.drop (i + 4) = id.drop i := by
    intro i
    rw [← List.drop_drop]
    exact List.take_append_drop 4 (id.drop i)
  have hend : id.drop 16 = [] := List.drop_of_length_le hid.le
  simp only [hword]
  calc (List.finRange 4).flatMap (fun j : Fin 4 => (id.drop (4 * j)).take 4)
      = (id.drop 0).take 4 ++ ((id.drop 4).take 4 ++
          ((id.drop 8).take 4 ++ ((id.drop 12).take 4 ++ id.drop 16))) := by
        simp [List.finRange_succ, hend]
    _ = id := by rw [hsplit 12, hsplit 8, hsplit 4, hsplit 0, List.drop_zero]

/-- **A contact is read where it is written.** -/
theorem readContact_eq_some {inp rest : List UInt8} {k : Contact} :
    readContact inp = some (k, rest) ↔ inp = writeContact k ++ rest := by
  constructor
  · intro h
    simp only [readContact, Option.bind_eq_bind, Option.bind_eq_some_iff, Prod.exists,
      readBytes_eq_some, Option.pure_def, Option.some_inj, Prod.mk.injEq] at h
    obtain ⟨id, -, ⟨rfl, hid⟩, binip, -, ⟨rfl, hip⟩, udpport, -, ⟨rfl, hport⟩, type, -,
      ⟨rfl, htype⟩, rfl, rfl⟩ := h
    simp only [writeContact, flatMap_words hid, leBytes_uint32 hip, leBytes_uint16 hport,
      leBytes_uint8 htype, List.append_assoc]
  · rintro rfl
    exact readContact_writeContact k rest

theorem readContact_eq_none {inp : List UInt8} : readContact inp = none ↔ inp.length < 23 := by
  constructor
  · intro h
    by_contra hlen
    have hid : 16 ≤ inp.length := by omega
    have hip : 4 ≤ (inp.drop 16).length := by rw [List.length_drop]; omega
    have hport : 2 ≤ ((inp.drop 16).drop 4).length := by simp only [List.length_drop]; omega
    have htype : 1 ≤ (((inp.drop 16).drop 4).drop 2).length := by
      simp only [List.length_drop]
      omega
    simp only [readContact, readBytes, if_pos hid, if_pos hip, if_pos hport, if_pos htype,
      Option.bind_eq_bind, Option.bind_some] at h
    cases h
  · intro hlen
    apply Option.eq_none_iff_forall_ne_some.2
    rintro ⟨k, rest⟩ h
    rw [readContact_eq_some.1 h, List.length_append, length_writeContact] at hlen
    omega

/-! ## The loop -/

/-- **The loop over the contacts.** It writes a line for each whole contact, up to the number, and
nothing of what is left. -/
theorem contactLoop_spec (n : ℕ) (inp : List UInt8) :
    ∃ ks : List Contact, ks.length = min n (inp.length / 23) ∧
      ks.flatMap writeContact = inp.take (23 * ks.length) ∧
        contactLoop n inp = (ks.flatMap fun k => printContact k ++ ['\n'], ks.length) := by
  induction n generalizing inp with
  | zero => exact ⟨[], by simp, by simp, rfl⟩
  | succ n ih =>
    rw [contactLoop]
    cases hread : readContact inp with
    | none =>
      have hlen := readContact_eq_none.1 hread
      exact ⟨[], by simp [Nat.div_eq_of_lt hlen], by simp, rfl⟩
    | some r =>
      obtain ⟨k, rest⟩ := r
      obtain rfl := readContact_eq_some.1 hread
      obtain ⟨ks, hlen, hbytes, hloop⟩ := ih rest
      refine ⟨k :: ks, ?_, ?_, ?_⟩
      · rw [List.length_append, length_writeContact, List.length_cons, hlen]
        omega
      · have hmul : 23 * (ks.length + 1) = (writeContact k).length + 23 * ks.length := by
          rw [length_writeContact]
          omega
        rw [List.flatMap_cons, hbytes, List.length_cons, hmul, List.take_length_add_append]
      · simp only [hloop, List.flatMap_cons, List.append_assoc, List.length_cons]
        rfl

/-! ## The file -/

/-- **Any stream of bytes.** So many contacts are counted as the number in front says and the stream
has whole; the headings stand in front when there is a number other than zero, and after them one
whole line for each contact that was counted. -/
theorem overnetContactsToKadcIni_spec (inp : List UInt8) (p : KadcPars) :
    (overnetContactsToKadcIni inp p).2 =
        (if 4 ≤ inp.length then
          min (max (intOfBytes (inp.take 4)) 0) (((inp.length - 4) / 23 : ℕ) : Int)
        else 0) ∧
      ∃ ks : List Contact, (ks.length : Int) = (overnetContactsToKadcIni inp p).2 ∧
        ks.flatMap writeContact = (inp.drop 4).take (23 * ks.length) ∧
        (overnetContactsToKadcIni inp p).1 =
          (if 4 ≤ inp.length ∧ intOfBytes (inp.take 4) ≠ 0 then
            printPars p ++ ("[overnet_peers]".toList ++ ['\n'])
          else []) ++ ks.flatMap (fun k => printContact k ++ ['\n']) ∧
        ∀ k ∈ ks, '\n' ∉ printContact k := by
  by_cases hlen : 4 ≤ inp.length
  · by_cases hzero : intOfBytes (inp.take 4) = 0
    · have hfile : overnetContactsToKadcIni inp p = ([], 0) := by
        simp [overnetContactsToKadcIni, readBytes, hlen, hzero]
      rw [hfile, if_pos hlen, if_neg fun h => h.2 hzero, hzero]
      refine ⟨by simp; omega, [], rfl, by simp, rfl, by simp⟩
    · obtain ⟨ks, hcount, hbytes, hloop⟩ :=
        contactLoop_spec (intOfBytes (inp.take 4)).toNat (inp.drop 4)
      have hfile : overnetContactsToKadcIni inp p = (printPars p ++ ("[overnet_peers]".toList ++
          '\n' :: ks.flatMap fun k => printContact k ++ ['\n']), (ks.length : Int)) := by
        simp [overnetContactsToKadcIni, readBytes, hlen, hzero, hloop]
      rw [List.length_drop] at hcount
      rw [hfile, if_pos hlen, if_pos ⟨hlen, hzero⟩]
      refine ⟨?_, ks, rfl, hbytes, ?_, fun k _ => newline_notMem_printContact k⟩
      · show (ks.length : Int) = _
        omega
      · simp
  · have hfile : overnetContactsToKadcIni inp p = ([], 0) := by
      simp [overnetContactsToKadcIni, readBytes, hlen]
    rw [hfile, if_neg hlen, if_neg fun h => hlen h.1]
    exact ⟨rfl, [], rfl, by simp, rfl, by simp⟩

end Kadc

end RvHouse
