import RvHouse.Lib.Istream
import RvHouse.Networking.AppVersion

/-!
# The version update

`version_update::client::handle_response` reads what is new and which version is the current one. It
posts a message when the current version is newer than ours, and the message forces an update when
ours is older than the minimum.

`announces_of_posted` is this of every message that is posted, for any reply; `force_iff` is it in
terms of the order of the versions.
-/

namespace RvHouse

/-- `APP_VERSION`. -/
def appVersion : List Char := "0.93.7".toList

/-- `app_version_compare` of two strings. -/
def appVersionCompareStr (a b : List Char) : Int32 :=
  appVersionCompare (a.map fun c => UInt8.ofNat c.toNat) (b.map fun c => UInt8.ofNat c.toNat)

/-- `message_version`; `force` when its id is `version_force`. -/
structure VersionMsg where
  force : Bool := false
  current : List Char := []
  currentUrl : List Char := []
  minimum : List Char := []
  whatsNew : List (List Char) := []
deriving DecidableEq

namespace VersionMsg

/-- `.` as often as there is one. -/
def anyRun (min : ℕ) : Run Char := ⟨fun _ => true, min, none⟩

/-- A space and more. -/
def spacesRun : Run Char := ⟨(· = ' '), 1, none⟩

/-- `^- (.*)$`. -/
def whatsNewPattern : List (Run Char) := [.lit '-', .lit ' ', anyRun 0]

/-- `^version:(.+) +min:(.*) +(http[^ ]+)$`, but for the end. -/
def versionPattern : List (Run Char) :=
  "version:".toList.map .lit ++ [anyRun 1, spacesRun] ++ "min:".toList.map .lit ++
    [anyRun 0, spacesRun] ++ "http".toList.map .lit ++ [⟨(· ≠ ' '), 1, none⟩]

/-- The capture of a line about what is new. -/
def matchWhatsNew (line : List Char) : Option (List Char) :=
  match Run.matchThen Run.atEnd whatsNewPattern line with
  | some ps => ps[2]?
  | none => none

/-- The captures of a line about a version: the version, the minimum and the link. -/
def matchVersion (line : List Char) : Option (List Char × List Char × List Char) :=
  match Run.matchThen Run.atEnd versionPattern line with
  | some ps => some (ps.getD 8 [], ps.getD 14 [], (ps.drop 16).flatten)
  | none => none

/-- A version is announced if there is none yet and it is newer. -/
def announce (m : VersionMsg) (current minimum url : List Char) : VersionMsg :=
  { m with
    current, currentUrl := url, minimum
    force := m.force || decide (appVersionCompareStr appVersion minimum < 0) }

/-- The body of the loop of `handle_response`; whether it goes on. -/
def handleLine (m : VersionMsg) (line : List Char) : VersionMsg × Bool :=
  match matchWhatsNew line with
  | some whatsNew =>
    if m.whatsNew.length ≥ 10 then
      ({ m with whatsNew := m.whatsNew ++ ["... and more".toList] }, false)
    else ({ m with whatsNew := m.whatsNew ++ [whatsNew] }, true)
  | none =>
    match matchVersion line with
    | some (current, minimum, url) =>
      if m.current = [] ∧ appVersionCompareStr appVersion current < 0 then
        (m.announce current minimum url, true)
      else (m, decide (appVersionCompareStr appVersion current < 0))
    | none => (m, true)

/-- The loop, on the lines up to their CR. -/
def handleLines (m : VersionMsg) : List (List Char) → VersionMsg
  | [] => m
  | line :: lines =>
    let r := m.handleLine (line.takeWhile (· ≠ '\r'))
    if r.2 then handleLines r.1 lines else r.1

end VersionMsg

/-- `handle_response`: the message that it posts. -/
def versionResponse (content : List UInt8) : Option VersionMsg :=
  let m := ({} : VersionMsg).handleLines (Istream.lines (latin1 content))
  if m.current = [] then none else some m

namespace VersionMsg

/-- What a message says about our version. -/
structure Announces (m : VersionMsg) : Prop where
  newer : appVersionCompareStr appVersion m.current < 0
  force : m.force = true ↔ appVersionCompareStr appVersion m.minimum < 0

/-- The invariant of the loop. -/
structure Inv (m : VersionMsg) : Prop where
  none : m.current = [] → m.force = false
  announces : m.current ≠ [] → m.Announces
  whatsNew : m.whatsNew.length ≤ 11

theorem inv_announce {m : VersionMsg} (h : Inv m) (hnone : m.current = []) {current : List Char}
    (hnewer : appVersionCompareStr appVersion current < 0) (minimum url : List Char) :
    Inv (m.announce current minimum url) := by
  have hforce : (m.announce current minimum url).force = true ↔
      appVersionCompareStr appVersion minimum < 0 := by
    rw [announce, h.none hnone, Bool.false_or, decide_eq_true_eq]
  refine ⟨fun hcurrent => ?_, fun _ => ⟨hnewer, hforce⟩, h.whatsNew⟩
  obtain rfl : current = [] := hcurrent
  exact absurd hnewer (by decide)

theorem inv_whatsNew {m : VersionMsg} (h : Inv m) {l : List (List Char)} (hl : l.length ≤ 11) :
    Inv { m with whatsNew := l } :=
  ⟨h.none, fun hc => ⟨(h.announces hc).newer, (h.announces hc).force⟩, hl⟩

/-- One line keeps the invariant; there are at most ten lines about what is new while the loop goes
on. -/
theorem inv_handleLine {m : VersionMsg} (h : Inv m) (hmore : m.whatsNew.length ≤ 10)
    (line : List Char) :
    Inv (m.handleLine line).1 ∧
      ((m.handleLine line).2 = true → (m.handleLine line).1.whatsNew.length ≤ 10) := by
  unfold handleLine
  have hlen : ∀ l : List Char, (m.whatsNew ++ [l]).length = m.whatsNew.length + 1 :=
    fun _ => List.length_append
  split
  · split_ifs with hfull
    · have hlast := hlen "... and more".toList
      exact ⟨inv_whatsNew h (by omega), fun hgo => by cases hgo⟩
    · rename_i whatsNew _
      have hnext : (m.whatsNew ++ [whatsNew]).length ≤ 10 := by
        rw [hlen]
        omega
      exact ⟨inv_whatsNew h (hnext.trans (Nat.le_succ _)), fun _ => hnext⟩
  · split
    · split_ifs with hnew
      · exact ⟨inv_announce h hnew.1 hnew.2 _ _, fun _ => hmore⟩
      · exact ⟨h, fun _ => hmore⟩
    · exact ⟨h, fun _ => hmore⟩

theorem inv_handleLines (lines : List (List Char)) {m : VersionMsg} (h : Inv m)
    (hmore : m.whatsNew.length ≤ 10) : Inv (m.handleLines lines) := by
  induction lines generalizing m with
  | nil => exact h
  | cons line lines ih =>
    obtain ⟨hline, hgo⟩ := inv_handleLine h hmore (line.takeWhile (· ≠ '\r'))
    rw [handleLines]
    split_ifs with hmore'
    · exact ih hline (hgo hmore')
    · exact hline

/-- **The version update.** A message that is posted announces a version that is newer than ours, and
forces the update exactly when ours is older than the minimum. -/
theorem announces_of_posted {content : List UInt8} {m : VersionMsg}
    (h : versionResponse content = some m) : m.Announces ∧ m.whatsNew.length ≤ 11 := by
  have hstart : Inv {} := ⟨fun _ => rfl, fun hne => absurd rfl hne, Nat.zero_le _⟩
  have hinv := inv_handleLines (Istream.lines (latin1 content)) hstart (Nat.zero_le _)
  rw [versionResponse] at h
  split_ifs at h with hcurrent
  cases h
  exact ⟨hinv.announces hcurrent, hinv.whatsNew⟩

/-- Our version. -/
def ours : Version where
  major := ⟨"0".toList, by decide, List.all_eq_true.1 (by decide), by decide⟩
  minor := ⟨"93".toList, by decide, List.all_eq_true.1 (by decide), by decide⟩
  patch := some ⟨"7".toList, by decide, List.all_eq_true.1 (by decide), by decide⟩

/-- To be older is to come before in the order of the versions. -/
theorem appVersionCompareStr_lt_iff (v : Version) :
    appVersionCompareStr appVersion v.text < 0 ↔ ours.key < v.key := by
  have hcmp := Version.cmp_appVersionCompare ours v
  have hlt : appVersionCompareStr appVersion v.text < 0 ↔
      (appVersionCompare ours.cStr v.cStr).toInt < 0 := Int32.lt_iff_toInt_lt
  rw [hlt, ← cmp_eq_lt_iff, hcmp, cmp_eq_lt_iff]

/-- What a posted message says, where it speaks of versions. -/
theorem force_iff {content : List UInt8} {m : VersionMsg} (h : versionResponse content = some m)
    {current minimum : Version} (hcurrent : m.current = current.text)
    (hminimum : m.minimum = minimum.text) :
    ours.key < current.key ∧ (m.force = true ↔ ours.key < minimum.key) := by
  obtain ⟨⟨hnewer, hforce⟩, -⟩ := announces_of_posted h
  rw [hcurrent, appVersionCompareStr_lt_iff] at hnewer
  rw [hminimum, appVersionCompareStr_lt_iff] at hforce
  exact ⟨hnewer, hforce⟩

/-- A later version. -/
def newest : Version where
  major := ⟨"1".toList, by decide, List.all_eq_true.1 (by decide), by decide⟩
  minor := ⟨"2".toList, by decide, List.all_eq_true.1 (by decide), by decide⟩
  patch := none

/-- A reply with the later version as the least that may be used. -/
def newestReply : List UInt8 :=
  "version:1.2 min:1.2 http://a\r\n".toList.map fun c => UInt8.ofNat c.toNat

/-- What the reply makes the loop post. -/
def newestMsg : VersionMsg := ({} : VersionMsg).announce "1.2".toList "1.2".toList "http://a".toList

theorem force_iff_newest :
    ours.key < newest.key ∧ (newestMsg.force = true ↔ ours.key < newest.key) := by
  have hposted : versionResponse newestReply = some newestMsg := by decide +kernel
  exact force_iff hposted rfl rfl

end VersionMsg

end RvHouse
