import RvHouse.Lib.Istream
import Mathlib.Data.Fin.VecNotation

/-!
# Contact files

`networking::kadc::util`: the contacts of overnet's `contact.dat` are written into the text file
that KadC starts from, and read back. A `contact.dat` is the number of contacts and then the
contacts, all little endian; in the text file each contact is a line of the section
`[overnet_peers]`.

An exception ends either conversion where it is, so what was written and counted up to there stays.
Variables that nothing was stored into hold what an `Uninit` says.
-/

namespace RvHouse

namespace Kadc

open Numeral

/-- `kadc_pars`. -/
structure KadcPars where
  udpPort : UInt16 := 2304
  tcpPort : UInt16 := 2301

/-- The variables of a contact; `binip` is as in the `contact.dat`. -/
structure Contact where
  id : Fin 4 → UInt32
  binip : UInt32
  udpport : UInt16
  type : UInt8

/-- What the variables hold before something is stored: the character of `assert_char`, the buffer
of a hash word, and the numbers. -/
structure Uninit where
  c : Char
  buf : List Char
  id : UInt32
  octet : UInt32
  udpport : UInt16
  typeInt : Int

/-- `changelongendianity`. -/
def changeLongEndianity (ul : UInt32) : UInt32 :=
  UInt32.ofNat (ofLeBytes (leBytes 4 ul.toNat).reverse)

/-! ## From `contact.dat` to the text -/

/-- `operator<<` of an unsigned number. -/
def decimal (n : ℕ) : List Char := Nat.toDigits 10 n

/-- `setw(8)` and `setfill('0')` for a hexadecimal number. -/
def hex8 (n : UInt32) : List Char := (Nat.toDigits 16 n.toNat).leftpad 8 '0'

/-- `operator<<` of a `binary_ip`: the bytes from the last. -/
def printIp (binip : UInt32) : List Char :=
  ['.'].intercalate ((leBytes 4 binip.toNat).reverse.map fun b => decimal b.toNat)

/-- `operator<<` of `kadc_pars`. -/
def printPars (p : KadcPars) : List Char :=
  "[local]".toList ++ '\n' :: ("0 0.0.0.0 ".toList ++ (decimal p.udpPort.toNat ++ ' ' ::
    (decimal p.tcpPort.toNat ++ [' ', '0', '\n'])))

/-- The line of a contact, without the newline. -/
def printContact (k : Contact) : List Char :=
  (List.finRange 4).flatMap (fun j => hex8 (k.id j)) ++ ' ' ::
    (printIp (changeLongEndianity k.binip) ++ ' ' ::
      (decimal k.udpport.toNat ++ ' ' :: decimal k.type.toNat))

/-- `read` of some bytes, which throws when there are not as many. -/
def readBytes (n : ℕ) (inp : List UInt8) : Option (List UInt8 × List UInt8) :=
  if n ≤ inp.length then some (inp.take n, inp.drop n) else none

/-- The four `read` calls of a contact. -/
def readContact (inp : List UInt8) : Option (Contact × List UInt8) := do
  let (id, inp) ← readBytes 16 inp
  let (binip, inp) ← readBytes 4 inp
  let (udpport, inp) ← readBytes 2 inp
  let (type, inp) ← readBytes 1 inp
  return (⟨fun j => UInt32.ofNat (ofLeBytes ((id.drop (4 * j)).take 4)),
    UInt32.ofNat (ofLeBytes binip), UInt16.ofNat (ofLeBytes udpport),
    UInt8.ofNat (ofLeBytes type)⟩, inp)

/-- The loop over the contacts: what is written, and how often it went round. -/
def contactLoop : ℕ → List UInt8 → List Char × ℕ
  | 0, _ => ([], 0)
  | n + 1, inp =>
    match readContact inp with
    | none => ([], 0)
    | some (k, inp) =>
      let r := contactLoop n inp
      (printContact k ++ '\n' :: r.1, r.2 + 1)

/-- `int` from its bytes. -/
def intOfBytes (l : List UInt8) : Int := (UInt32.ofNat (ofLeBytes l)).toInt32.toInt

/-- `overnet_contacts_to_kadc_ini`. -/
def overnetContactsToKadcIni (inp : List UInt8) (p : KadcPars) : List Char × Int :=
  match readBytes 4 inp with
  | none => ([], 0)
  | some (num, inp) =>
    let numContacts := intOfBytes num
    if numContacts = 0 then ([], 0)
    else
      let r := contactLoop numContacts.toNat inp
      (printPars p ++ ("[overnet_peers]".toList ++ '\n' :: r.1), r.2)

/-! ## From the text to `contact.dat` -/

/-- `operator>>` of an `assert_char`, which throws at another character. -/
def assertChar (u : Uninit) (what : Char) (s : Istream) : Option Istream :=
  let r := s.read 1
  if r.1.headD u.c = what then some r.2 else none

/-- A word of the hash: eight characters, which are scanned as a C string. -/
def scanHash (u : Uninit) (s : Istream) : UInt32 × Istream :=
  let r := s.read 8
  let buf := ((r.1 ++ u.buf.drop r.1.length).take 8).takeWhile (· ≠ Char.ofNat 0)
  let h := Istream.extract 16 (Istream.toUnsigned 32) ⟨buf, true⟩
  (UInt32.ofNat (h.1.getD u.id.toNat), r.2)

/-- `operator>>` of a number that a dotted address is made of. -/
def scanOctet (u : Uninit) (s : Istream) : UInt8 × Istream :=
  let r := Istream.extract 10 (Istream.toUnsigned 32) s
  (UInt8.ofNat (r.1.getD u.octet.toNat), r.2)

/-- `operator>>` of a `binary_ip`. -/
def scanIp (u : Uninit) (s : Istream) : Option (UInt32 × Istream) := do
  let (a₀, s) := scanOctet u s
  let s ← assertChar u '.' s
  let (a₁, s) := scanOctet u s
  let s ← assertChar u '.' s
  let (a₂, s) := scanOctet u s
  let s ← assertChar u '.' s
  let (a₃, s) := scanOctet u s
  return (UInt32.ofNat (ofLeBytes [a₃, a₂, a₁, a₀]), s)

/-- The bytes that are written for a contact. -/
def writeContact (k : Contact) : List UInt8 :=
  (List.finRange 4).flatMap (fun j => leBytes 4 (k.id j).toNat) ++
    (leBytes 4 k.binip.toNat ++ (leBytes 2 k.udpport.toNat ++ leBytes 1 k.type.toNat))

/-- The parse of a line; `none` when a separator is missing. -/
def scanContact (u : Uninit) (line : List Char) : Option Contact := do
  let s : Istream := ⟨line, true⟩
  let (id₀, s) := scanHash u s
  let (id₁, s) := scanHash u s
  let (id₂, s) := scanHash u s
  let (id₃, s) := scanHash u s
  let s ← assertChar u ' ' s
  let (binip, s) ← scanIp u s
  let s ← assertChar u ' ' s
  let (udpport, s) := s.extract 10 (Istream.toUnsigned 16)
  let s ← assertChar u ' ' s
  let (typeInt, _) := s.extract 10 (Istream.toSigned 32)
  return ⟨![id₀, id₁, id₂, id₃], changeLongEndianity binip,
    UInt16.ofNat (udpport.getD u.udpport.toNat), UInt8.ofInt (typeInt.getD u.typeInt)⟩

/-- The loop over the lines: the bytes that are written, and the number of contacts. -/
def lineLoop (u : Uninit) : Bool → List (List Char) → List UInt8 × ℕ
  | _, [] => ([], 0)
  | contactSection, line :: ls =>
    if line.head? = some '#' then lineLoop u contactSection ls
    else if contactSection = false ∧ line = "[overnet_peers]".toList then lineLoop u true ls
    else if contactSection = true ∧ line.head? = some '[' then lineLoop u false ls
    else if contactSection = true then
      match scanContact u line with
      | none => ([], 0)
      | some k =>
        let r := lineLoop u contactSection ls
        (writeContact k ++ r.1, r.2 + 1)
    else lineLoop u contactSection ls

/-- `kadc_ini_to_overnet_contacts`: the number is written over the placeholder at last. -/
def kadcIniToOvernetContacts (u : Uninit) (inp : List Char) : List UInt8 × Int :=
  let r := lineLoop u false (Istream.lines inp)
  let out := leBytes 4 0 ++ r.1
  let i := (Int32.ofNat r.2)
  (leBytes 4 i.toUInt32.toNat ++ out.drop 4, i.toInt)

end Kadc

end RvHouse
