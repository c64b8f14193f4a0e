import Rollout.CommandLine.Program
import Rollout.Proofs.Aloud
import Rollout.Proofs.Discretion
import Rollout.Proofs.Unconnected

/-!
# How far the program got

The exit code says how far a call of the program got, and each code has a condition of its own on what was
found outside and on what the steps of the script did. A text that cannot be read, a text that is no script
and a start that cannot be found end the call before anything is asked for.

A call that has to write a line which is refused breaks off there, with a code of its own. Up to there it goes as
it would otherwise.

`Surroundings` is what a call finds outside, with a behaviour that answers the run in any way at all, and any
lines refused; a world is one such surroundings, and what the program does in it is what it does there.
-/

namespace Rollout

namespace CommandLine

open Rollout.Deployment
open Rollout.Script (Action)
open Rollout.Ssh (World)

inductive Line where
  /-- That the log file cannot be opened. -/
  | warning (text : String)
  | report (report : Report)
  /-- What went wrong. -/
  | failure (error : RunError)

/-- What a call of the program finds outside. -/
structure Surroundings where
  /-- The warning that is due at the beginning, if there is one. -/
  warning : Option String
  /-- The script's text, or why it cannot be read. -/
  source : Except IoError String
  settings : Settings
  /-- The directory in which the program was started, or why it cannot be told. -/
  start : Except IoError String
  /-- How everything that the run asks for is answered. -/
  behaviour : Behaviour
  /-- Whether a line is refused, after what was said in the run. -/
  loses : Transcript → Line → Bool

namespace Surroundings

def localDirectory (found : Surroundings) : Option String → Except IoError (Option String)
  | none => .ok none
  | some directory =>
    if LocalPath.isAbsolute directory then .ok (some directory)
    else found.start.map fun start => some (LocalPath.join start directory)

def setup (found : Surroundings) (localDirectory : Option String) : Setup :=
  { protectedPaths := found.settings.guarded, localDirectory }

/-- What a call runs and how, or why it runs nothing. -/
def opening (found : Surroundings) (arguments : Arguments) : Except RunError (Setup × Script) :=
  match found.source with
  | .error error => .error (.io error)
  | .ok text =>
    match Script.parse text with
    | .error error => .error (.grammar error)
    | .ok script =>
      match found.localDirectory arguments.directory with
      | .error error => .error (.io error)
      | .ok localDirectory => .ok (found.setup localDirectory, script)

/-- What a call comes to if no line is refused: all that is said in the run, and the result. -/
def fate (found : Surroundings) (arguments : Arguments) : Transcript × Except RunError Unit :=
  match found.opening arguments with
  | .error error => ([], .error error)
  | .ok (setup, script) =>
    let run := (Deployment.run setup script).under found.behaviour []
    (run.1, run.2.2)

/-- Whether a request is told by a line that is refused. -/
def lost (found : Surroundings) (past : Transcript) : Deployment.Request → Bool
  | .report report => found.loses past (.report report)
  | _ => false

/-- What a call comes to after its warning: what is said up to the first report that is refused, and the result,
unless it breaks off there. -/
def comesTo (found : Surroundings) (arguments : Arguments) : Transcript × Option (Except RunError Unit) :=
  match found.opening arguments with
  | .error error => ([], some (.error error))
  | .ok (setup, script) =>
    let run := (Deployment.run setup script).aloud found.behaviour found.lost []
    (run.1, run.2.map (·.2))

def losesWarning (found : Surroundings) : Bool :=
  match found.warning with
  | none => false
  | some text => found.loses [] (.warning text)

def said (found : Surroundings) (arguments : Arguments) : Transcript :=
  if found.losesWarning then [] else (found.comesTo arguments).1

def code (found : Surroundings) (arguments : Arguments) : Nat :=
  if found.losesWarning then brokenCode
  else match found.comesTo arguments with
    | (_, none) => brokenCode
    | (_, some (.ok ())) => 0
    | (said, some (.error error)) =>
      if found.loses said (.failure error) then brokenCode else error.exitCode

/-- A line of the call is refused: the warning, a report that it comes to, or the line that tells the error. -/
inductive BreaksOff (found : Surroundings) (arguments : Arguments) : Prop
  | warning (refused : found.losesWarning = true)
  | report {before after : Transcript} {report : Report}
      (split : (found.fate arguments).1 = before ++ ⟨.report report, ()⟩ :: after)
      (refused : found.loses before (.report report) = true)
  | failure {error : RunError} (ended : (found.fate arguments).2 = .error error)
      (refused : found.loses (found.fate arguments).1 (.failure error) = true)

/-- The script's text cannot be read. -/
def Unread (found : Surroundings) : Prop :=
  ∃ error, found.source = .error error

/-- The text can be read and is no script. -/
def Refused (found : Surroundings) : Prop :=
  ∃ text error, found.source = .ok text ∧ Script.parse text = .error error

/-- The text is a script, but a relative directory was asked for and the start cannot be told. -/
def Astray (found : Surroundings) (arguments : Arguments) : Prop :=
  ∃ text script directory error, found.source = .ok text ∧ Script.parse text = .ok script ∧
    arguments.directory = some directory ∧ LocalPath.isAbsolute directory = false ∧
    found.start = .error error

/-- The call comes to run the script. -/
def Runs (found : Surroundings) (arguments : Arguments) (setup : Setup) (script : Script) : Prop :=
  ∃ text directory, found.source = .ok text ∧ Script.parse text = .ok script ∧
    found.localDirectory arguments.directory = .ok directory ∧ setup = found.setup directory

/-- The parts of the run: its steps as they go, up to the first that fails. -/
def parts (found : Surroundings) (setup : Setup) (script : Script) : List Part :=
  partsUnder setup found.behaviour script.steps {} []

end Surroundings

/-- The exit code tells how far the call got, in the run of which all that was said is this. -/
structure TellsHowFar (found : Surroundings) (arguments : Arguments) (code : Nat) (said : Transcript) : Prop where
  trouble : code = 4 ↔ found.Unread ∨ found.Astray arguments
  refused : code = 2 ↔ found.Refused
  /-- In both cases nothing was asked for: no step ran, nothing was dialed, and nothing was started. -/
  silent : code = 4 ∨ code = 2 → said = []
  unconnected : code = 3 ↔ ∃ setup script, found.Runs arguments setup script ∧
    FailsUnconnected script.steps (found.parts setup script)
  undialed : code = 3 → ∀ exchange ∈ said, ∀ target, exchange.request ≠ .dial target
  succeeded : code = 0 ↔ ∃ setup script, found.Runs arguments setup script ∧
    AllSucceed script.steps (found.parts setup script)
  /-- What is left is code 1. -/
  only : code ∈ [0, 1, 2, 3, 4]
  /-- After a `CONNECT` that succeeded no step fails for want of a connection. -/
  connected : ∀ setup script, found.Runs arguments setup script →
    ∀ before connect between later after,
      found.parts setup script = before ++ connect :: (between ++ later :: after) →
      connect.IsConnect → connect.outcome.failure = none → later.outcome.failure ≠ some .notConnected
  /-- Whatever the variables hold, a step requires a connection as it stands in the script. -/
  required : ∀ (table : Variables) (action : Action),
    (action.substitute table).needsConnection = action.needsConnection

namespace Surroundings

variable {found : Surroundings} {arguments : Arguments}

theorem localDirectory_eq_error_iff {asked : Option String} :
    (∃ error, found.localDirectory asked = .error error) ↔
      ∃ directory error, asked = some directory ∧ LocalPath.isAbsolute directory = false ∧
        found.start = .error error := by
  cases asked with
  | none => simp [localDirectory]
  | some directory =>
    cases rooted : LocalPath.isAbsolute directory with
    | true => simp [localDirectory, rooted]
    | false => cases start : found.start <;> simp [localDirectory, rooted, start, Except.map]

/-- A call ends early or runs its script. -/
theorem opening_cases (found : Surroundings) (arguments : Arguments) :
    (∃ error, found.source = .error error ∧ found.opening arguments = .error (.io error)) ∨
    (∃ text error, found.source = .ok text ∧ Script.parse text = .error error ∧
      found.opening arguments = .error (.grammar error)) ∨
    (∃ text script error, found.source = .ok text ∧ Script.parse text = .ok script ∧
      found.localDirectory arguments.directory = .error error ∧
      found.opening arguments = .error (.io error)) ∨
    ∃ setup script, found.Runs arguments setup script ∧ found.opening arguments = .ok (setup, script) := by
  unfold opening
  cases read : found.source with
  | error error => exact .inl ⟨error, rfl, rfl⟩
  | ok text =>
    cases parsed : Script.parse text with
    | error error => exact .inr (.inl ⟨text, error, rfl, parsed, by simp [parsed]⟩)
    | ok script =>
      cases located : found.localDirectory arguments.directory with
      | error error =>
        exact .inr (.inr (.inl ⟨text, script, error, rfl, parsed, rfl, by simp [parsed]⟩))
      | ok directory =>
        refine .inr (.inr (.inr ⟨found.setup directory, script, ⟨text, directory, read, parsed, located, rfl⟩, ?_⟩))
        simp [parsed]

/-- A call that ends before its script runs. -/
theorem tellsHowFar_of_early (error : RunError) (early : error.exitCode = 2 ∨ error.exitCode = 4)
    (trouble : error.exitCode = 4 ↔ found.Unread ∨ found.Astray arguments)
    (refused : error.exitCode = 2 ↔ found.Refused)
    (idle : ∀ setup script, ¬ found.Runs arguments setup script) :
    TellsHowFar found arguments error.exitCode [] := by
  have never {holds : Setup → Script → Prop} :
      ¬ ∃ setup script, found.Runs arguments setup script ∧ holds setup script :=
    fun ⟨setup, script, runs, _⟩ => idle setup script runs
  refine ⟨trouble, refused, fun _ => rfl, ?_, by simp, ?_, ?_,
    fun setup script runs => absurd runs (idle setup script), Action.needsConnection_substitute⟩
  · exact ⟨fun same => by omega, fun runs => absurd runs never⟩
  · exact ⟨fun same => by omega, fun runs => absurd runs never⟩
  · rcases early with same | same <;> simp [same]

/-- A call runs one script in one setup. -/
theorem Runs.unique {setup setup' : Setup} {script script' : Script}
    (runs : found.Runs arguments setup script) (also : found.Runs arguments setup' script') :
    setup' = setup ∧ script' = script := by
  obtain ⟨_, _, read, parsed, located, rfl⟩ := runs
  obtain ⟨_, _, read', parsed', located', rfl⟩ := also
  rw [read] at read'
  cases read'
  rw [parsed] at parsed'
  cases parsed'
  rw [located] at located'
  cases located'
  exact ⟨rfl, rfl⟩

theorem Runs.holds_iff {setup : Setup} {script : Script} (runs : found.Runs arguments setup script)
    (holds : Setup → Script → Prop) :
    (∃ setup script, found.Runs arguments setup script ∧ holds setup script) ↔ holds setup script := by
  constructor
  · rintro ⟨_, _, also, holds⟩
    obtain ⟨rfl, rfl⟩ := runs.unique also
    exact holds
  · exact fun holds => ⟨_, _, runs, holds⟩

/-- A call that runs its script met no trouble before. -/
theorem Runs.untroubled {setup : Setup} {script : Script} (runs : found.Runs arguments setup script) :
    ¬ (found.Unread ∨ found.Astray arguments) ∧ ¬ found.Refused := by
  obtain ⟨_, _, read, parsed, located, rfl⟩ := runs
  refine ⟨?_, ?_⟩
  · rintro (⟨error, failed⟩ | ⟨_, _, _, error, _, _, asked, relative, failed⟩)
    · rw [read] at failed
      cases failed
    · have astray := localDirectory_eq_error_iff.2 ⟨_, error, asked, relative, failed⟩
      simp [located] at astray
  · rintro ⟨_, error, read', failed⟩
    rw [read] at read'
    cases read'
    rw [parsed] at failed
    cases failed

/-- A call that runs its script. -/
theorem tellsHowFar_of_runs {setup : Setup} {script : Script} (runs : found.Runs arguments setup script) :
    let run := (Deployment.run setup script).under found.behaviour []
    TellsHowFar found arguments (exitCodeOf run.2.2) run.1 := by
  have course := course_under setup found.behaviour script.steps {} []
  intro run
  have whole : run = _ := run_under setup script found.behaviour []
  rw [whole]
  generalize (runSteps setup script.steps {}).under found.behaviour [] = steps at course
  obtain ⟨succeeds, unconnected, only⟩ := course.exitCodeOf_iff
  obtain ⟨untroubled, accepted⟩ := runs.untroubled
  refine ⟨?_, ?_, ?_, ?_, ?_, ?_, ?_, ?_, Action.needsConnection_substitute⟩
  · exact ⟨fun same => by simp [same] at only, fun trouble => absurd trouble untroubled⟩
  · exact ⟨fun same => by simp [same] at only, fun refused => absurd refused accepted⟩
  · rintro (same | same) <;> simp [same] at only
  · exact unconnected.trans (runs.holds_iff fun setup script =>
      FailsUnconnected script.steps (found.parts setup script)).symm
  · intro same exchange member
    obtain ⟨_, _, fails⟩ := course.unconnected_iff.2 (unconnected.1 same)
    rcases List.mem_append.1 member with during | after
    · exact course.undialed_of_unconnected fails exchange during
    · exact undialed_disconnect (Dialogue.yields_under ..) exchange after
  · exact succeeds.trans (runs.holds_iff fun setup script =>
      AllSucceed script.steps (found.parts setup script)).symm
  · simp only [List.mem_cons, List.not_mem_nil, or_false] at only ⊢
    omega
  · intro _ _ also before connect between later after split connects _
    obtain ⟨rfl, rfl⟩ := runs.unique also
    exact course.connected split connects

/-- Where no line is refused, the exit code of a call tells how far it got. -/
theorem fate_tells (found : Surroundings) (arguments : Arguments) :
    TellsHowFar found arguments (exitCodeOf (found.fate arguments).2) (found.fate arguments).1 := by
  unfold fate
  rcases found.opening_cases arguments with ⟨error, failed, opens⟩ | ⟨text, error, read, failed, opens⟩ |
    ⟨text, script, error, read, parsed, failed, opens⟩ | ⟨setup, script, runs, opens⟩
  all_goals rw [opens]
  · refine tellsHowFar_of_early (.io error) (.inr rfl) ?_ ?_ ?_
    · exact ⟨fun _ => .inl ⟨error, failed⟩, fun _ => rfl⟩
    · simp [RunError.exitCode, Refused, failed]
    · simp [Runs, failed]
  · refine tellsHowFar_of_early (.grammar error) (.inl rfl) ?_ ?_ ?_
    · simp [RunError.exitCode, Unread, Astray, read, failed]
    · exact ⟨fun _ => ⟨text, error, read, failed⟩, fun _ => rfl⟩
    · simp [Runs, read, failed]
  · obtain ⟨directory, reason, asked, relative, astray⟩ := localDirectory_eq_error_iff.1 ⟨error, failed⟩
    refine tellsHowFar_of_early (.io error) (.inr rfl) ?_ ?_ ?_
    · exact ⟨fun _ => .inr ⟨text, script, directory, reason, read, parsed, asked, relative, astray⟩, fun _ => rfl⟩
    · simp [RunError.exitCode, Refused, read, parsed]
    · simp [Runs, read, failed]
  · exact tellsHowFar_of_runs runs

/-! ### Lines that are refused -/

/-- A report among all that would be said is refused. -/
theorem loses_fate_iff : Transcript.Loses found.lost [] (found.fate arguments).1 ↔
    ∃ before report after, (found.fate arguments).1 = before ++ ⟨.report report, ()⟩ :: after ∧
      found.loses before (.report report) = true := by
  constructor
  · rintro ⟨before, ⟨request, answer⟩, after, split, isLost⟩
    cases request with
    | report report => exact ⟨before, report, after, split, isLost⟩
    | _ => cases isLost
  · rintro ⟨before, report, after, split, isLost⟩
    exact ⟨before, _, after, split, isLost⟩

/-- A call goes on to its end just if no report is refused. -/
theorem comesTo_spec (found : Surroundings) (arguments : Arguments) :
    (Transcript.Loses found.lost [] (found.fate arguments).1 → (found.comesTo arguments).2 = none) ∧
    (¬ Transcript.Loses found.lost [] (found.fate arguments).1 →
      found.comesTo arguments = ((found.fate arguments).1, some (found.fate arguments).2)) ∧
    (found.comesTo arguments).1 <+: (found.fate arguments).1 := by
  unfold comesTo fate
  split
  next => exact ⟨fun loses => absurd loses not_loses_nil, fun _ => rfl, List.prefix_rfl⟩
  next setup script _ =>
    obtain ⟨breaks, goesOn⟩ := (Deployment.run setup script).aloud_result found.behaviour found.lost []
    refine ⟨fun loses => by simp [breaks loses], fun whole => by simp [goesOn whole], ?_⟩
    exact Dialogue.aloud_prefix _ _

/-- What is said in a call is the first part of what would be said if no line were refused. -/
theorem said_prefix (found : Surroundings) (arguments : Arguments) :
    found.said arguments <+: (found.fate arguments).1 := by
  unfold said
  split
  · exact List.nil_prefix
  · exact (found.comesTo_spec arguments).2.2

theorem exitCodeOf_ne_brokenCode {result : Except RunError Unit} (only : exitCodeOf result ∈ [0, 1, 2, 3, 4]) :
    exitCodeOf result ≠ brokenCode := by
  intro same
  rw [same] at only
  simp [brokenCode] at only

theorem breaksOff_iff : found.BreaksOff arguments ↔
    found.losesWarning = true ∨ Transcript.Loses found.lost [] (found.fate arguments).1 ∨
      ∃ error, (found.fate arguments).2 = .error error ∧
        found.loses (found.fate arguments).1 (.failure error) = true := by
  rw [loses_fate_iff]
  constructor
  · intro broken
    cases broken with
    | warning refused => exact .inl refused
    | report split refused => exact .inr (.inl ⟨_, _, _, split, refused⟩)
    | failure ended refused => exact .inr (.inr ⟨_, ended, refused⟩)
  · rintro (refused | ⟨_, _, _, split, refused⟩ | ⟨_, ended, refused⟩)
    · exact .warning refused
    · exact .report split refused
    · exact .failure ended refused

/-- A call breaks off where a line is refused, with a code of its own. Otherwise it comes to what it comes to if no
line is refused. -/
theorem code_spec (found : Surroundings) (arguments : Arguments) :
    (found.BreaksOff arguments → found.code arguments = brokenCode) ∧
    (¬ found.BreaksOff arguments → found.code arguments = exitCodeOf (found.fate arguments).2 ∧
      found.said arguments = (found.fate arguments).1) := by
  obtain ⟨breaks, goesOn, _⟩ := found.comesTo_spec arguments
  rw [breaksOff_iff]
  unfold code said
  cases warned : found.losesWarning with
  | true => simp
  | false =>
    by_cases loses : Transcript.Loses found.lost [] (found.fate arguments).1
    · have ended := breaks loses
      generalize found.comesTo arguments = call at ended
      obtain ⟨said, result⟩ := call
      subst ended
      simp [loses]
    · rw [goesOn loses]
      rcases ended : (found.fate arguments).2 with error | ⟨⟩
      · cases refused : found.loses (found.fate arguments).1 (.failure error) <;>
          simp [loses, refused, exitCodeOf]
      · simp [loses, exitCodeOf]

/-- The exit code of any call. -/
theorem tellsHowFar (found : Surroundings) (arguments : Arguments) :
    (found.code arguments = brokenCode ↔ found.BreaksOff arguments) ∧
      (¬ found.BreaksOff arguments →
        TellsHowFar found arguments (found.code arguments) (found.said arguments)) := by
  obtain ⟨broken, whole⟩ := found.code_spec arguments
  have tells := found.fate_tells arguments
  refine ⟨⟨fun same => ?_, broken⟩, fun unbroken => ?_⟩
  · by_contra unbroken
    rw [(whole unbroken).1] at same
    exact exitCodeOf_ne_brokenCode tells.only same
  · rw [(whole unbroken).1, (whole unbroken).2]
    exact tells

end Surroundings

/-! ### Calls in a world -/

/-- The world once the log file is opened and the warning written, if one is due and it is not refused. -/
def begun (world : World) (arguments : Arguments) : World :=
  let (warning, opened) := withLog world arguments.logFile
  (warned opened warning).getD opened

def ready (world : World) (arguments : Arguments) : World :=
  { world with timeout := arguments.timeout.getD (Settings.load world.machine).connectTimeout }

/-- The world in which the script of a call runs. -/
def running (world : World) (arguments : Arguments) : World :=
  ready (source (begun world arguments) arguments.script).2 arguments

def surroundings (world : World) (arguments : Arguments) : Surroundings :=
  let (text, read) := source (begun world arguments) arguments.script
  { warning := (withLog world arguments.logFile).1
    source := text
    settings := Settings.load read.machine
    start := read.machine.currentDirectory.mapError .os
    behaviour := (running world arguments).replies
    loses := fun past line =>
      match line with
      | .warning text => ((withLog world arguments.logFile).2.refuses? .err text).isSome
      | .report report => ((running world arguments).replay past).loses report
      | .failure error => (((running world arguments).replay past).refuses? .err (failureLine error)).isSome }

section Worlds

variable (world : World) (arguments : Arguments)

theorem localDirectory_surroundings (asked : Option String) :
    localDirectory (source (begun world arguments) arguments.script).2.machine asked =
      (surroundings world arguments).localDirectory asked := by
  cases asked with
  | none => rfl
  | some directory =>
    simp only [localDirectory, Surroundings.localDirectory, surroundings]
    split
    · rfl
    · cases (source (begun world arguments) arguments.script).2.machine.currentDirectory <;> rfl

/-- What a run tells breaks off in a world where it does in these surroundings. -/
theorem lost_surroundings : (surroundings world arguments).lost =
    fun past request => ((running world arguments).replay past).breaksOff request := by
  funext past request
  cases request <;> rfl

/-- What the program does in a world is what a call comes to in these surroundings, and the world has
changed only by what was asked of it. -/
theorem perform_eq_comesTo (runs : arguments.check = false) :
    let call := (surroundings world arguments).comesTo arguments
    let ended := perform (begun world arguments) arguments
    ended.1 = call.2 ∧
      (∃ timeout, ended.2 = { (source (begun world arguments) arguments.script).2 with timeout }.replay call.1) ∧
      ∀ text, ended.2.refuses? .err text = ((running world arguments).replay call.1).refuses? .err text := by
  unfold running
  have located := localDirectory_surroundings world arguments arguments.directory
  have loses := lost_surroundings world arguments
  have answered : (surroundings world arguments).behaviour = (running world arguments).replies := rfl
  have read : (surroundings world arguments).source = (source (begun world arguments) arguments.script).1 := rfl
  have settled : (surroundings world arguments).settings =
      Settings.load (source (begun world arguments) arguments.script).2.machine := rfl
  unfold running at loses answered
  unfold perform Surroundings.comesTo Surroundings.opening
  generalize surroundings world arguments = found at *
  generalize source (begun world arguments) arguments.script = heard at *
  obtain ⟨text, after⟩ := heard
  rw [read]
  cases text with
  | error error => exact ⟨rfl, ⟨after.timeout, rfl⟩, fun _ => rfl⟩
  | ok text =>
    dsimp only
    cases Script.parse text with
    | error error => exact ⟨rfl, ⟨after.timeout, rfl⟩, fun _ => rfl⟩
    | ok script =>
      simp only [runs, Bool.false_eq_true, if_false, deploy, located]
      cases found.localDirectory arguments.directory with
      | error error => exact ⟨rfl, ⟨after.timeout, rfl⟩, fun _ => rfl⟩
      | ok directory =>
        have carried := (ready after arguments).carryOutAloud_eq_aloud []
          (Deployment.run (found.setup directory) script)
        simp only [← answered, ← loses, List.nil_append, Surroundings.setup, settled] at carried ⊢
        refine ⟨congrArg (·.1.map (·.2)) carried, ⟨_, congrArg (·.2) carried⟩, fun text => ?_⟩
        exact congrArg (·.2.refuses? .err text) carried

/-- The call goes on after its warning unless that is refused. -/
theorem warned_eq : warned (withLog world arguments.logFile).2 (withLog world arguments.logFile).1 =
    if (surroundings world arguments).losesWarning then none else some (begun world arguments) := by
  have warning : (surroundings world arguments).warning = (withLog world arguments.logFile).1 := rfl
  have loses : ∀ past text, (surroundings world arguments).loses past (.warning text) =
      ((withLog world arguments.logFile).2.refuses? .err text).isSome := fun _ _ => rfl
  unfold begun Surroundings.losesWarning
  rw [warning]
  generalize surroundings world arguments = found at *
  generalize withLog world arguments.logFile = opened at *
  obtain ⟨text, opened⟩ := opened
  cases text with
  | none => rfl
  | some text =>
    simp only [loses, warned, World.print?]
    cases opened.refuses? .err text <;> rfl

/-- A call whose warning is refused has done nothing else. -/
theorem begun_of_losesWarning (loses : (surroundings world arguments).losesWarning = true) :
    begun world arguments = (withLog world arguments.logFile).2 := by
  have stops := warned_eq world arguments
  rw [loses, if_pos rfl] at stops
  simp [begun, stops]

end Worlds

theorem print_empty (world : World) (stream : Ssh.Standard) : world.print stream "" = world := by
  unfold World.print World.print?
  cases world.refuses? stream "" with
  | none => cases stream <;> simp [Ssh.Standard.output, Machine.Output.append]
  | some error => rfl

/-- The world is left with a line that tells the error, empty where there is none. -/
theorem conclude_left (world : World) (ended : Option (Except RunError Unit)) :
    ∃ line, (conclude world ended).2 = world.print .err line := by
  rcases ended with _ | error | ⟨⟩
  · exact ⟨"", (print_empty world .err).symm⟩
  · refine ⟨failureLine error, ?_⟩
    simp only [conclude, World.print]
    cases world.print? .err (failureLine error) <;> rfl
  · exact ⟨"", (print_empty world .err).symm⟩

/-- A call that has come to an error ends with the error's code if the line that tells it is not refused. -/
theorem conclude_error (world : World) (error : RunError) : (conclude world (some (.error error))).1 =
    if (world.refuses? .err (failureLine error)).isSome then brokenCode else error.exitCode := by
  simp only [conclude, World.print?]
  cases world.refuses? .err (failureLine error) <;> rfl

/-- With arguments that fit, the program is the call that finds this world: its exit code is that of the call. A call
whose warning is refused leaves the log file; any other changes the world only by what is said in its run and by
the line that tells the error. -/
theorem execute_of_fit {arguments : Arguments} {world : World} {words : List String}
    (runs : arguments.check = false)
    (fit : Request.ofArguments world.machine.lookup words = .run arguments) :
    let found := surroundings world arguments
    (execute world words).1 = found.code arguments ∧
      ((found.losesWarning = true ∧ (execute world words).2 = begun world arguments) ∨
        ∃ timeout line, (execute world words).2 =
          ({ (source (begun world arguments) arguments.script).2 with timeout }.replay
            (found.said arguments)).print .err line) := by
  have goesOn := warned_eq world arguments
  obtain ⟨result, ⟨timeout, left⟩, same⟩ := perform_eq_comesTo world arguments runs
  have heard : ∀ past error, (surroundings world arguments).loses past (.failure error) =
      (((running world arguments).replay past).refuses? .err (failureLine error)).isSome := fun _ _ => rfl
  have quiet := begun_of_losesWarning world arguments
  intro found
  unfold Surroundings.code Surroundings.said execute
  rw [fit]
  dsimp only
  rw [goesOn]
  cases loses : found.losesWarning with
  | true => exact ⟨rfl, .inl ⟨rfl, (quiet loses).symm⟩⟩
  | false =>
    simp only [found, Bool.false_eq_true, if_false]
    generalize (surroundings world arguments).comesTo arguments = call at *
    generalize perform (begun world arguments) arguments = performed at *
    obtain ⟨said, _⟩ := call
    obtain ⟨outcome, after⟩ := performed
    dsimp only at result left same
    subst result
    obtain ⟨line, concluded⟩ := conclude_left after outcome
    refine ⟨?_, .inr ⟨timeout, line, concluded.trans (congrArg (·.print .err line) left)⟩⟩
    rcases outcome with _ | error | ⟨⟩
    · rfl
    · rw [conclude_error, same]
      dsimp only
      rw [heard]
    · rfl

/-- Whatever a call without `--check` finds outside, however its run is answered and whichever lines are refused, its
exit code tells how far it got. It breaks off, with a code of its own, exactly if a line is refused that it comes to,
and until there it goes as it would otherwise. The program in a world is such a call: its exit code is that of a call
which finds this world, and it changes the world only by what is said in the run and by the line that tells the
error. -/
theorem exit_code_tells (arguments : Arguments) (runs : arguments.check = false) :
    (∀ found : Surroundings,
      (found.code arguments = brokenCode ↔ found.BreaksOff arguments) ∧
      (¬ found.BreaksOff arguments →
        TellsHowFar found arguments (found.code arguments) (found.said arguments)) ∧
      found.said arguments <+: (found.fate arguments).1) ∧
    ∀ (world : World) (words : List String),
      Request.ofArguments world.machine.lookup words = .run arguments →
        let found := surroundings world arguments
        (execute world words).1 = found.code arguments ∧
          ((found.losesWarning = true ∧ (execute world words).2 = begun world arguments) ∨
            ∃ timeout line, (execute world words).2 =
              ({ (source (begun world arguments) arguments.script).2 with timeout }.replay
                (found.said arguments)).print .err line) := by
  refine ⟨fun found => ?_, fun world words fit => execute_of_fit runs fit⟩
  obtain ⟨breaks, tells⟩ := found.tellsHowFar arguments
  exact ⟨breaks, tells, found.said_prefix arguments⟩

/-- A world in which nothing stands but a script on the standard input. -/
def scriptAtHand : World where
  machine := { files := {}, directory := "/", input := "ENV A = b\nRUN ls\nCONNECT u:p@h\n".toUTF8.toList }

/-- The `CONNECT` comes too late. -/
theorem exit_code_tells_at_hand :
    Request.ofArguments scriptAtHand.machine.lookup [] = .run {} ∧ ({} : Arguments).check = false ∧
      ¬ (surroundings scriptAtHand {}).BreaksOff {} ∧
      (∃ setup script, (surroundings scriptAtHand {}).Runs {} setup script ∧
        FailsUnconnected script.steps ((surroundings scriptAtHand {}).parts setup script)) ∧
      (execute scriptAtHand []).1 = 3 := by
  have fit : Request.ofArguments scriptAtHand.machine.lookup [] = .run {} := by decide
  have code : (surroundings scriptAtHand {}).code {} = 3 := by decide +kernel
  obtain ⟨calls, worlds⟩ := exit_code_tells {} rfl
  obtain ⟨breaks, tells, _⟩ := calls (surroundings scriptAtHand {})
  have whole : ¬ (surroundings scriptAtHand {}).BreaksOff {} := fun broken => by
    simp [breaks.2 broken, brokenCode] at code
  exact ⟨fit, rfl, whole, (tells whole).unconnected.1 code, (worlds scriptAtHand [] fit).1.trans code⟩

/-- A world with an empty script, in which the environment gives a timeout that is no number. -/
def hurried : World where
  machine := { files := {}, directory := "/", environment := [(timeoutVariable, "soon")] }

def outputFull : World where
  machine := { files := {}, directory := "/", input := "ENV A = b\n".toUTF8.toList }
  console := some {}
  refusal := fun _ stream _ =>
    match stream with
    | .out => some (.other "No space left on device (os error 28)")
    | .err => none

/-- A timeout in the environment that is no number ends a call with the code for a text that is no script, although
the text is a script of which no step fails. A line that cannot be written ends it with a code of its own, although
all steps of the script succeed. -/
theorem exit_code_misleads :
    (Request.ofArguments (fun _ => none) [] = .run {} ∧
      (source hurried none).1 = .ok "" ∧ Script.parse "" = .ok ⟨[]⟩ ∧ (execute hurried []).1 = 2) ∧
    Request.ofArguments outputFull.machine.lookup [] = .run {} ∧
      ((surroundings outputFull {}).fate {}).2 = .ok () ∧ (execute outputFull []).1 = 101 := by
  decide +kernel

end CommandLine

end Rollout
