import RvHouse.Kadc.ContactLine

/-!
# The round trip of contact files

`roundTrip`: the `contact.dat` of any contacts, written into KadC's text and read back, is the same
file, and both conversions count the contacts. What is printed for a contact is a `ContactLine`.
-/

namespace RvHouse

namespace Kadc

open Numeral

/-- The `contact.dat` of some contacts. -/
def contactDat (ks : List Contact) : List UInt8 :=
  leBytes 4 ks.length ++ ks.flatMap writeContact

/-! ## Numbers in bytes -/

theorem uint32_ofLeBytes (n : UInt32) : UInt32.ofNat (ofLeBytes (leBytes 4 n.toNat)) = n := by
  rw [ofLeBytes_leBytes (n := n.toNat) n.toNat_lt]
  exact UInt32.ofNat_toNat

theorem uint16_ofLeBytes (n : UInt16) : UInt16.ofNat (ofLeBytes (leBytes 2 n.toNat)) = n := by
  rw [ofLeBytes_leBytes (n := n.toNat) n.toNat_lt]
  exact UInt16.ofNat_toNat

theorem uint8_ofLeBytes (n : UInt8) : UInt8.ofNat (ofLeBytes (leBytes 1 n.toNat)) = n := by
  rw [ofLeBytes_leBytes (n := n.toNat) n.toNat_lt]
  exact UInt8.ofNat_toNat

theorem leBytes_changeLongEndianity (n : UInt32) :
    leBytes 4 (changeLongEndianity n).toNat = (leBytes 4 n.toNat).reverse :=
  leBytes_uint32 (by simp)

theorem changeLongEndianity_involutive (n : UInt32) :
    changeLongEndianity (changeLongEndianity n) = n := by
  rw [changeLongEndianity, leBytes_changeLongEndianity, List.reverse_reverse]
  exact uint32_ofLeBytes n

theorem intOfBytes_leBytes {n : ℕ} (h : n < 2 ^ 31) : intOfBytes (leBytes 4 n) = n := by
  have hn : ofLeBytes (leBytes 4 n) = n := ofLeBytes_leBytes (by omega)
  rw [intOfBytes, hn]
  exact Int32.toInt_ofNat_of_lt h

/-! ## Reading a `contact.dat` -/

theorem readBytes_append {n : ℕ} {l : List UInt8} (hl : l.length = n) (rest : List UInt8) :
    readBytes n (l ++ rest) = some (l, rest) := by
  subst hl
  simp [readBytes]

theorem length_writeContact (k : Contact) : (writeContact k).length = 23 := by
  simp [writeContact, List.finRange_succ]

theorem readContact_writeContact (k : Contact) (rest : List UInt8) :
    readContact (writeContact k ++ rest) = some (k, rest) := by
  have hid : ((List.finRange 4).flatMap fun j => leBytes 4 (k.id j).toNat).length = 16 := by
    simp [List.finRange_succ]
  have hwords : ∀ j : Fin 4, UInt32.ofNat (ofLeBytes
      ((((List.finRange 4).flatMap fun j => leBytes 4 (k.id j).toNat).drop (4 * j)).take 4)) =
        k.id j := by
    intro j
    have hfour : (List.finRange 4).flatMap (fun j => leBytes 4 (k.id j).toNat) =
        leBytes 4 (k.id 0).toNat ++ (leBytes 4 (k.id 1).toNat ++
          (leBytes 4 (k.id 2).toNat ++ leBytes 4 (k.id 3).toNat)) := by
      simp [List.finRange_succ]
    have hword : ((((List.finRange 4).flatMap fun j => leBytes 4 (k.id j).toNat).drop
        (4 * j)).take 4) = leBytes 4 (k.id j).toNat := by
      rw [hfour]
      fin_cases j <;> rfl
    rw [hword]
    exact uint32_ofLeBytes (k.id j)
  simp only [readContact, writeContact, List.append_assoc, readBytes_append hid,
    readBytes_append (length_leBytes _ _), Option.bind_eq_bind, Option.bind_some, hwords,
    uint32_ofLeBytes, uint16_ofLeBytes, uint8_ofLeBytes]
  rfl

theorem contactLoop_flatMap (ks : List Contact) :
    contactLoop ks.length (ks.flatMap writeContact) =
      (ks.flatMap fun k => printContact k ++ ['\n'], ks.length) := by
  induction ks with
  | nil => rfl
  | cons k ks ih =>
    rw [List.length_cons, List.flatMap_cons, contactLoop, readContact_writeContact]
    simp only [ih, List.flatMap_cons, List.append_assoc]
    rfl

/-! ## The line of a contact -/

variable (u : Uninit)

theorem isDigit_of_mem_decimal {n : ℕ} {c : Char} (hc : c ∈ decimal n) : isDigit 10 c = true :=
  isDigit_of_mem_toDigits (by decide) (by decide) hc

theorem isDigit_of_mem_hex8 {n : UInt32} {c : Char} (hc : c ∈ hex8 n) : isDigit 16 c = true :=
  isDigit_of_mem_leftpad (by decide)
    (fun _ hd => isDigit_of_mem_toDigits (by decide) (by decide) hd) hc

theorem ofDigits_decimal (n : ℕ) : ofDigits 10 (decimal n) = n :=
  ofDigits_toDigits (by decide) (by decide) n

theorem ofDigits_hex8 (n : UInt32) : ofDigits 16 (hex8 n) = n.toNat := by
  rw [hex8, ofDigits_leftpad]
  exact ofDigits_toDigits (by decide) le_rfl n.toNat

theorem length_hex8 (n : UInt32) : (hex8 n).length = 8 := by
  have hle : (Nat.toDigits 16 n.toNat).length ≤ 8 :=
    (Nat.length_toDigits_le_iff (by decide) (by decide)).2 n.toNat_lt
  rw [hex8, List.length_leftpad]
  omega

/-- A number as `operator<<` prints it. -/
def decimalLiteral {bound : ℕ} (n : ℕ) (h : n < bound) : Literal 10 bound where
  digits := decimal n
  digits_ne := Nat.toDigits_ne_nil
  isDigit_digits _ hc := isDigit_of_mem_decimal hc
  lt_bound := by rwa [ofDigits_decimal]

/-- A word of the hash as it is printed. -/
def hexLiteral (n : UInt32) : Literal 16 (2 ^ 32) where
  digits := hex8 n
  digits_ne := List.ne_nil_of_length_eq_add_one (length_hex8 n)
  isDigit_digits _ hc := isDigit_of_mem_hex8 hc
  lt_bound := by rw [ofDigits_hex8]; exact n.toNat_lt

/-- An address as it is printed. -/
def ipLiterals (n : UInt32) (j : Fin 4) : Literal 10 256 :=
  decimalLiteral ((leBytes 4 n.toNat).reverse.getD j 0).toNat (UInt8.toNat_lt _)

/-- The line that is printed for a contact. -/
def lineOf (k : Contact) : ContactLine where
  hash j := hexLiteral (k.id j)
  length_hash j := length_hex8 (k.id j)
  ip := ipLiterals (changeLongEndianity k.binip)
  udpport := decimalLiteral k.udpport.toNat k.udpport.toNat_lt
  type := decimalLiteral k.type.toNat (k.type.toNat_lt.trans (by decide))

theorem printIp_eq (n : UInt32) : ∃ b₀ b₁ b₂ b₃, leBytes 4 n.toNat = [b₀, b₁, b₂, b₃] ∧
    printIp n = decimal b₃.toNat ++ '.' :: (decimal b₂.toNat ++ '.' ::
      (decimal b₁.toNat ++ '.' :: decimal b₀.toNat)) := by
  refine ⟨_, _, _, _, rfl, ?_⟩
  simp [printIp, leBytes, List.intercalate]

theorem dottedText_ipLiterals (n : UInt32) : dottedText (ipLiterals n) = printIp n := by
  obtain ⟨b₀, b₁, b₂, b₃, hbytes, hprint⟩ := printIp_eq n
  rw [hprint]
  simp only [dottedText, ipLiterals, hbytes]
  rfl

theorem octets_ipLiterals (n : UInt32) : octets (ipLiterals n) = (leBytes 4 n.toNat).reverse := by
  have hvalue : ∀ j, UInt8.ofNat (ipLiterals n j).value = (leBytes 4 n.toNat).reverse.getD j 0 := by
    intro j
    rw [Literal.value, ipLiterals, decimalLiteral, ofDigits_decimal, UInt8.ofNat_toNat]
  simp only [octets, hvalue]
  rfl

theorem scanIp_printIp (n : UInt32) (rest : List Char) :
    scanIp u ⟨printIp n ++ ' ' :: rest, true⟩ = some (n, ⟨' ' :: rest, true⟩) := by
  rw [← dottedText_ipLiterals, scanIp_dottedText, octets_ipLiterals, List.reverse_reverse,
    uint32_ofLeBytes]

theorem text_lineOf (k : Contact) : (lineOf k).text = printContact k := by
  rw [ContactLine.text, lineOf, dottedText_ipLiterals]
  rfl

theorem contact_lineOf (k : Contact) : (lineOf k).contact = k := by
  have hip : UInt32.ofNat (ofLeBytes (octets (ipLiterals (changeLongEndianity k.binip)))) =
      k.binip := by
    rw [octets_ipLiterals]
    exact changeLongEndianity_involutive k.binip
  simp only [ContactLine.contact, lineOf, Literal.value, hexLiteral, decimalLiteral, ofDigits_hex8,
    ofDigits_decimal, hip, UInt32.ofNat_toNat, UInt16.ofNat_toNat, UInt8.ofNat_toNat]

theorem scanContact_printContact (k : Contact) : scanContact u (printContact k) = some k := by
  rw [← text_lineOf, ContactLine.scanContact_text, contact_lineOf]

/-- What a line consists of. -/
theorem mem_printContact {k : Contact} {c : Char} (hc : c ∈ printContact k) :
    isDigit 16 c = true ∨ c = ' ' ∨ c = '.' := by
  have hdecimal : ∀ n, c ∈ decimal n → isDigit 16 c = true := by
    intro n hn
    have h := isDigit_of_mem_decimal hn
    simp only [isDigit, decide_eq_true_eq] at h ⊢
    omega
  have hip : ∀ n, c ∈ printIp n → isDigit 16 c = true ∨ c = '.' := by
    intro n hn
    obtain ⟨b₀, b₁, b₂, b₃, -, hprint⟩ := printIp_eq n
    simp only [hprint, List.mem_append, List.mem_cons] at hn
    rcases hn with hn | hn | hn | hn | hn | hn | hn
    · exact .inl (hdecimal _ hn)
    · exact .inr hn
    · exact .inl (hdecimal _ hn)
    · exact .inr hn
    · exact .inl (hdecimal _ hn)
    · exact .inr hn
    · exact .inl (hdecimal _ hn)
  simp only [printContact, List.mem_append, List.mem_flatMap, List.mem_cons] at hc
  rcases hc with ⟨j, -, hj⟩ | hc | hc | hc | hc | hc | hc
  · exact .inl (isDigit_of_mem_hex8 hj)
  · exact .inr (.inl hc)
  · exact (hip _ hc).imp_right .inr
  · exact .inr (.inl hc)
  · exact .inl (hdecimal _ hc)
  · exact .inr (.inl hc)
  · exact .inl (hdecimal _ hc)

/-! ## The text, line by line -/

theorem newline_notMem_printContact (k : Contact) : '\n' ∉ printContact k := by
  intro hmem
  rcases mem_printContact hmem with h | h | h
  · exact Istream.ne_of_isDigit le_rfl h (by decide) rfl
  · cases h
  · cases h

/-- A line of a contact is no comment and no section. -/
theorem head?_printContact_ne (k : Contact) {c : Char} (hc : digitValue c = 16) :
    (printContact k).head? ≠ some c := by
  rw [← text_lineOf]
  exact (lineOf k).head?_text_ne hc

/-- Before the section nothing is read but its name. -/
theorem lineLoop_skip {line : List Char} (h : line ≠ "[overnet_peers]".toList)
    (ls : List (List Char)) : lineLoop u false (line :: ls) = lineLoop u false ls := by
  rw [lineLoop]
  simp only [h, and_false, if_false, Bool.false_eq_true, false_and]
  split <;> rfl

theorem lineLoop_contacts (ks : List Contact) :
    lineLoop u true (Istream.lines (ks.flatMap fun k => printContact k ++ ['\n'])) =
      (ks.flatMap writeContact, ks.length) := by
  induction ks with
  | nil => rfl
  | cons k ks ih =>
    have hcomment := head?_printContact_ne k (c := '#') (by decide)
    have hsection := head?_printContact_ne k (c := '[') (by decide)
    rw [List.flatMap_cons, List.append_assoc, List.singleton_append,
      Istream.lines_cons (newline_notMem_printContact k), lineLoop, if_neg hcomment, if_neg (by simp), if_neg fun h => hsection h.2, if_pos rfl,
      scanContact_printContact]
    simp only [ih, List.flatMap_cons, List.length_cons]

theorem lines_printPars (p : KadcPars) (rest : List Char) :
    ∃ line, line ≠ "[overnet_peers]".toList ∧ Istream.lines (printPars p ++ rest) =
      "[local]".toList :: line :: Istream.lines rest := by
  refine ⟨"0 0.0.0.0 ".toList ++ (decimal p.udpPort.toNat ++ ' ' ::
    (decimal p.tcpPort.toNat ++ [' ', '0'])), ?_, ?_⟩
  · intro h
    cases (List.cons.inj h).1
  · have hdecimal : ∀ n, '\n' ∉ decimal n := fun n hn =>
      Istream.ne_of_isDigit (by decide) (isDigit_of_mem_decimal hn) (by decide) rfl
    have hfirst : '\n' ∉ "0 0.0.0.0 ".toList := by decide
    have hline : '\n' ∉ "0 0.0.0.0 ".toList ++ (decimal p.udpPort.toNat ++ ' ' ::
        (decimal p.tcpPort.toNat ++ [' ', '0'])) := by
      rw [List.mem_append, List.mem_append, List.mem_cons, List.mem_append]
      rintro (h | h | h | h | h)
      · exact hfirst h
      · exact hdecimal _ h
      · cases h
      · exact hdecimal _ h
      · revert h
        decide
    have htext : ∀ a b d e : List Char,
        (a ++ '\n' :: (b ++ (d ++ ' ' :: (e ++ [' ', '0', '\n'])))) ++ rest =
          a ++ '\n' :: ((b ++ (d ++ ' ' :: (e ++ [' ', '0']))) ++ '\n' :: rest) := by
      intro a b d e
      simp
    have hlocal : '\n' ∉ "[local]".toList := by decide
    unfold printPars
    rw [htext, Istream.lines_cons hlocal, Istream.lines_cons hline]

/-! ## The round trip -/

theorem overnetContactsToKadcIni_contactDat (p : KadcPars) {ks : List Contact}
    (h : ks.length < 2 ^ 31) : overnetContactsToKadcIni (contactDat ks) p =
      if ks = [] then ([], 0)
      else (printPars p ++ ("[overnet_peers]".toList ++ '\n' ::
        ks.flatMap fun k => printContact k ++ ['\n']), (ks.length : Int)) := by
  rw [overnetContactsToKadcIni, contactDat, readBytes_append (length_leBytes _ _)]
  simp only [intOfBytes_leBytes h, Int.toNat_natCast, contactLoop_flatMap, Int.natCast_eq_zero,
    List.length_eq_zero_iff]

theorem lineLoop_printPars (p : KadcPars) (ks : List Contact) :
    lineLoop u false (Istream.lines (printPars p ++ ("[overnet_peers]".toList ++ '\n' ::
      ks.flatMap fun k => printContact k ++ ['\n']))) = (ks.flatMap writeContact, ks.length) := by
  obtain ⟨line, hline, hlines⟩ := lines_printPars p ("[overnet_peers]".toList ++ '\n' ::
    ks.flatMap fun k => printContact k ++ ['\n'])
  have hlocal : "[local]".toList ≠ "[overnet_peers]".toList := by decide
  have hpeers : '\n' ∉ "[overnet_peers]".toList := by decide
  rw [hlines, lineLoop_skip u hlocal, lineLoop_skip u hline, Istream.lines_cons hpeers, lineLoop,
    if_neg (by decide), if_pos ⟨rfl, rfl⟩]
  exact lineLoop_contacts u ks

/-- **The round trip of contact files.** Fewer than 2³¹ contacts, as overnet stores them, are the
same after the way through KadC's text, and both conversions return their number. -/
theorem roundTrip (p : KadcPars) {ks : List Contact} (h : ks.length < 2 ^ 31) :
    (overnetContactsToKadcIni (contactDat ks) p).2 = ks.length ∧
      kadcIniToOvernetContacts u (overnetContactsToKadcIni (contactDat ks) p).1 =
        (contactDat ks, (ks.length : Int)) := by
  have hlines : lineLoop u false (Istream.lines (overnetContactsToKadcIni (contactDat ks) p).1) =
      (ks.flatMap writeContact, ks.length) := by
    rw [overnetContactsToKadcIni_contactDat p h]
    split
    · rename_i hnil
      rw [hnil]
      rfl
    · exact lineLoop_printPars u p ks
  constructor
  · rw [overnetContactsToKadcIni_contactDat p h]
    split
    · rename_i hnil
      rw [hnil]
      rfl
    · rfl
  · have hcount : (Int32.ofNat ks.length).toUInt32.toNat = ks.length := by
      show (UInt32.ofNat ks.length).toNat = ks.length
      exact UInt32.toNat_ofNat_of_lt' (by rw [UInt32.size]; omega)
    rw [kadcIniToOvernetContacts, hlines]
    simp only [hcount, Int32.toInt_ofNat_of_lt h]
    rfl

/-- Two contacts with boundary values. -/
theorem roundTrip_two :
    let u : Uninit := ⟨'x', [], 1, 1, 1, 1⟩
    let ks : List Contact := [⟨fun _ => 0, 0, 0, 0⟩,
      ⟨![0xFFFFFFFF, 0xF, 0x80000000, 1], 0xFF00FF01, 65535, 255⟩]
    ks.length < 2 ^ 31 ∧ (overnetContactsToKadcIni (contactDat ks) {}).2 = 2 ∧
      kadcIniToOvernetContacts u (overnetContactsToKadcIni (contactDat ks) {}).1 =
        (contactDat ks, 2) :=
  ⟨by decide, roundTrip ⟨'x', [], 1, 1, 1, 1⟩ {} (by decide)⟩

end Kadc

end RvHouse
