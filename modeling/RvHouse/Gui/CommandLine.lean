import RvHouse.Gui.SavedLogin
import RvHouse.Lib.Scopes

/-!
# The command line of the game

`rv_cmdline_builder` builds the command line of the game from the preferences, sets it in the
registry, and puts the one that it found there back when it is destroyed. What it found is what
`win_registry::get` reads: the registry is a `Register`, and a lossy one. `reset_registry_iff` says
which command lines survive.
-/

namespace RvHouse

/-- What `launch_rv` reads of the configuration and of the settings of the own user. -/
structure LaunchPrefs where
  /-- `play/no_launch`. -/
  noLaunch : Bool := false
  /-- `play/rejoin_time`. -/
  rejoinTime : Int := 2147483647
  /-- `advanced/cmdline_switch`. -/
  cmdlineSwitch : String := "cmdline_autoset"
  /-- `advanced/cmdline`. -/
  cmdline : List UInt8 := []
  /-- `os::is_windows_vista_or_later`. -/
  vistaOrLater : Bool := false
  roomVersion : Bool := false
  roomVersionAll : Bool := false
  roomVersion12Only : Bool := false
  roomVersionRvgl : Bool := false
deriving DecidableEq

/-- `rv_cmdline_builder::option`. -/
inductive CmdlineOption where
  | rv12VersionAll | rv12Version12Only | sli
deriving DecidableEq

/-- `rv_cmdline_builder`, without the command line that it keeps. -/
structure CmdlineBuilder where
  isSetCmdline : Bool := false
  cmdline : List UInt8 := []
deriving DecidableEq

namespace CmdlineBuilder

/-- `_option_to_s`. -/
def optionToS : CmdlineOption → String
  | .rv12VersionAll => "-netcomp 1"
  | .rv12Version12Only => "-netcomp 0"
  | .sli => "-sli"

/-- `_add_to_cmdline`. -/
def addToCmdline (b : CmdlineBuilder) (opt : List UInt8) : CmdlineBuilder where
  isSetCmdline := true
  cmdline := (if b.cmdline = [] then [] else b.cmdline ++ [32]) ++ opt

/-- `add_option`. -/
def addOption (b : CmdlineBuilder) (opt : CmdlineOption) : CmdlineBuilder :=
  b.addToCmdline ((optionToS opt).toList.map fun c => UInt8.ofNat c.toNat)

/-- `_preset_cmdline`. -/
def presetCmdline (p : LaunchPrefs) : CmdlineBuilder :=
  if p.cmdlineSwitch = "cmdline_autoset" then
    if p.vistaOrLater then addOption {} .sli else addToCmdline {} []
  else if p.cmdlineSwitch = "cmdline_manual" then addToCmdline {} (p.cmdline.takeWhile (· ≠ 0))
  else {}

/-- `room::_set_room_cmdline`. -/
def setRoomCmdline (b : CmdlineBuilder) (p : LaunchPrefs) : CmdlineBuilder :=
  if p.roomVersion then
    if p.roomVersionAll then b.addOption .rv12VersionAll
    else if p.roomVersion12Only then b.addOption .rv12Version12Only
    else b
  else b

end CmdlineBuilder

/-- The builder of `launch_rv`. -/
def LaunchPrefs.builder (p : LaunchPrefs) : CmdlineBuilder :=
  (CmdlineBuilder.presetCmdline p).setRoomCmdline p

/-- The value `CommandLine` of the game in the registry; `none` when there is none that can be
opened. -/
abbrev CommandLine := Option (List UInt8)

namespace CommandLine

/-- `win_registry::get`, with the empty string as the default: the buffer has 1024 bytes, one of them
for the terminator, and the stream gets the text up to a NUL and reads up to the end of a line. -/
def get : CommandLine → List UInt8
  | none => []
  | some t => if 1024 < t.length + 1 then [] else extractString (t.takeWhile (· ≠ 0)) []

/-- `win_registry::set`, which sets only a value that is there. -/
def set (c : CommandLine) (v : List UInt8) : CommandLine := c.map fun _ => v

theorem lineFeed_not_mem_extractString (t : List UInt8) : 10 ∉ extractString t [] := by
  unfold extractString
  split
  · exact List.not_mem_nil
  · intro h
    simpa [noSpaceAsWs] using List.mem_takeWhile_imp h

theorem extractString_sublist (t : List UInt8) : (extractString t []).Sublist t := by
  unfold extractString
  split
  · exact List.nil_sublist t
  · rename_i b l h
    have hrest : (b :: l).Sublist t := by
      rw [← h]
      exact List.dropWhile_sublist _
    exact (List.takeWhile_sublist _).trans hrest

/-- What is read has neither NULs nor line feeds. -/
theorem not_mem_get (c : CommandLine) : 0 ∉ c.get ∧ 10 ∉ c.get := by
  cases c with
  | none => exact ⟨List.not_mem_nil, List.not_mem_nil⟩
  | some t =>
    rw [get]
    split
    · exact ⟨List.not_mem_nil, List.not_mem_nil⟩
    · refine ⟨fun h => ?_, lineFeed_not_mem_extractString _⟩
      simpa using List.mem_takeWhile_imp ((extractString_sublist _).subset h)

theorem length_get_lt (c : CommandLine) : c.get.length < 1024 := by
  cases c with
  | none => decide
  | some t =>
    rw [get]
    split
    · decide
    · have hline := (extractString_sublist (t.takeWhile (· ≠ 0))).length_le
      have hzero := (List.takeWhile_sublist (l := t) (· ≠ 0)).length_le
      omega

/-- **The texts that are read as they are.** -/
theorem get_some_eq_self_iff {t : List UInt8} :
    get (some t) = t ↔ t.length < 1024 ∧ 0 ∉ t ∧ 10 ∉ t := by
  constructor
  · intro h
    have hlength := length_get_lt (some t)
    have hmem := not_mem_get (some t)
    rw [h] at hlength hmem
    exact ⟨hlength, hmem⟩
  · rintro ⟨hlength, hzero, hline⟩
    have hwhole : Config.Whole t := ⟨hzero, hline⟩
    rw [get, if_neg (by omega), Config.takeWhile_of_whole hwhole]
    exact Config.extractString_of_whole hwhole

end CommandLine

/-- The registry, as far as the command line goes. -/
def registry : Register CommandLine (List UInt8) where
  read := CommandLine.get
  write := CommandLine.set
  write_write c a b := by cases c <;> rfl
  read_write_read c := by
    cases c with
    | none => rfl
    | some t =>
      have hread : CommandLine.get (some (CommandLine.get (some t))) = CommandLine.get (some t) :=
        CommandLine.get_some_eq_self_iff.2 ⟨CommandLine.length_get_lt _, CommandLine.not_mem_get _⟩
      exact hread

/-- The command lines that are put back as they were. -/
theorem reset_registry_iff (c : CommandLine) :
    registry.reset c = c ↔ ∀ t, c = some t → t.length < 1024 ∧ 0 ∉ t ∧ 10 ∉ t := by
  cases c with
  | none => simp [registry, Register.reset, CommandLine.set]
  | some t =>
    have hreset : registry.reset (some t) = some (CommandLine.get (some t)) := rfl
    simp only [hreset, Option.some.injEq, forall_eq', CommandLine.get_some_eq_self_iff]

end RvHouse
