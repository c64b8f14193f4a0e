import Rollout.Deployment.Run
import Rollout.Proofs.Transcript

/-!
# What an action can reach

Each kind of action has its own few requests, and none but a connect ever opens or closes a session,
asks for a password or tells that a step is over. The remote paths it asks for are those that its texts mean
in the working directory, and paths below them; the local command it runs is its own. An action that fails
stops at once: its failure is the answer to its last request. The table of requests and the table of
failures are stated once; that every action other than a connect keeps to them, for all answers, is
`observes_change`.
-/

namespace Rollout.Deployment

open Rollout.Script (Action Login Source)

def sessionCalls : Action → SessionCall → Prop
  | .var _ _, .capture .. => True
  | .run _, .run .. => True
  | .move .., .rename .. => True
  | .copy .., .stat _ | .copy .., .copy .. | .copy .., .chmod .. => True
  | .delete _, .stat _ | .delete _, .remove _ => True
  | .upload .., .makeDirectories _ | .upload .., .upload .. | .upload .., .chmod .. => True
  | .download .., .stat _ | .download .., .list _ | .download .., .download .. => True
  | _, _ => False

/-- The calls of the operator's machine that belong to an action. Of commands it runs its own. -/
def machineCalls : Action → MachineCall → Prop
  | .var _ source, .environmentVariable name => source = .environment .here name
  | .var _ source, .capture _ argv => source = .command .here argv
  | .cmd program arguments, .run _ argv => argv = program :: arguments
  | .upload .., .metadata _ | .upload .., .entries _ => True
  | .download .., .makeDirectories _ | .download .., .setMode .. => True
  | _, _ => False

/-- The reports that belong to an action. That a step or a run is over is none of them. -/
def reports : Action → Report → Prop
  | .delete _, .skipped .. => True
  | .upload .., .transfer _ | .download .., .transfer _ => True
  | _, _ => False

def SessionCall.remotePaths : SessionCall → List String
  | .close | .home | .run .. | .capture .. => []
  | .stat path | .list path | .makeDirectories path | .chmod path _ | .remove path => [path]
  | .upload _ target _ => [target]
  | .download source _ _ => [source]
  | .copy source target | .rename source target => [source, target]

def SessionCall.directory? : SessionCall → Option String
  | .run _ setting | .capture _ setting => setting.directory
  | _ => none

/-- The path is what a text means in the directory, or lies below such a path. -/
inductive Located (directory : String) : String → Prop
  | resolved (text : String) : Located directory (RemotePath.resolve directory text)
  | inside {path : String} (above : Located directory path) (name : String) :
      Located directory (RemotePath.join path name)

/-- The call belongs to the action, its remote paths are located so, and a command runs in the working
directory or where the session starts. -/
structure Belongs (located : String → Prop) (context : Context) (action : Action) (call : SessionCall) :
    Prop where
  own : sessionCalls action call
  paths : ∀ path ∈ call.remotePaths, located path
  directory : ∀ directory ∈ call.directory?, directory = context.remoteDirectory

/-- What an action can ask for in a context, its remote paths located so: its own calls, and of sessions only
the open one. -/
def reachAt (located : String → Prop) (context : Context) (action : Action) : Request → Prop
  | .askPassword _ | .dial _ => False
  | .session id call => context.session = some id ∧ Belongs located context action call
  | .machine call => machineCalls action call
  | .report report => reports action report

/-- What an action can ask for in a context. -/
def reach (context : Context) : Action → Request → Prop :=
  reachAt (Located context.remoteDirectory) context

/-- What an action other than a connect makes of the context when it succeeds: its own part of it and
nothing else. -/
def Changes (action : Action) (before after : Context) : Prop :=
  match action with
  | .var key _ => ∃ value, after = { before with bindings := before.bindings.set key value }
  | .env key value => after = { before with environment := before.environment.set key value }
  | .cd target => after = { before with remoteDirectory := before.remotePath target }
  | _ => after = before

theorem Changes.frame {action : Action} {before after : Context}
    (changes : Changes action before after) :
    after.session = before.session ∧ after.step = before.step := by
  cases action with
  | var key source =>
    obtain ⟨value, rfl⟩ := changes
    exact ⟨rfl, rfl⟩
  | _ =>
    obtain rfl := changes
    exact ⟨rfl, rfl⟩

/-- The failure of a transfer that an answer stands for. -/
inductive TransferBlame : Exchange → TransferError → Prop
  | remote (id : SessionId) (call : SessionCall) (error : SessionError) :
      TransferBlame ⟨.session id call, .error error⟩ (.remote error)
  | metadata (path : String) (error : IoError) :
      TransferBlame ⟨.machine (.metadata path), .error error⟩ (.onLocal path error)
  | entries (path : String) (error : IoError) :
      TransferBlame ⟨.machine (.entries path), .error error⟩ (.onLocal path error)
  | makeDirectories (path : String) (error : IoError) :
      TransferBlame ⟨.machine (.makeDirectories path), .error error⟩ (.onLocal path error)
  | setMode (path : String) (mode : Nat) (error : IoError) :
      TransferBlame ⟨.machine (.setMode path mode), .error error⟩ (.onLocal path error)

/-- The failure of an action that an answer stands for. -/
inductive Blame : Exchange → ActionError → Prop
  | prompt (question : String) (error : IoError) :
      Blame ⟨.askPassword question, .error error⟩ (.prompt error)
  | dial (target : Session.Target) (error : SessionError) :
      Blame ⟨.dial target, .error error⟩ (.connection error)
  | home (id : SessionId) (error : SessionError) :
      Blame ⟨.session id .home, .error error⟩ (.connection error)
  | currentDirectory (error : IoError) :
      Blame ⟨.machine .currentDirectory, .error error⟩ (.connection (.io error))
  | remote (id : SessionId) (call : SessionCall) (error : SessionError) :
      Blame ⟨.session id call, .error error⟩ (.remote error)
  | run (directory : Option String) (argv : List String) (error : LocalError) :
      Blame ⟨.machine (.run directory argv), .error error⟩ (.onLocal error)
  | capture (directory : Option String) (argv : List String) (error : LocalError) :
      Blame ⟨.machine (.capture directory argv), .error error⟩ (.onLocal error)
  | transfer {exchange : Exchange} {error : TransferError} (blame : TransferBlame exchange error) :
      Blame exchange (.transfer error)

/-- The terms of a transfer. Only the bound on nesting fails unasked. -/
def transferTerms (relies : Exchange → Prop) (asks : Request → Prop) :
    Attempt.Terms TransferError where
  relies := relies
  asks := asks
  blames := TransferBlame
  excuses failure := ∃ path, failure = .nestedTooDeep path

/-- The action carries out transfers. -/
def Transfers : Action → Prop
  | .upload .. | .download .. => True
  | _ => False

/-- The answer tells that a remote path is missing. -/
def Exchange.Misses : Exchange → Prop
  | ⟨.session _ (.stat _), .error (.notFound _)⟩ => True
  | _ => False

/-- The terms of an action. Only the bound on nesting fails unasked, and only a `DELETE` goes on from a failed
request, one that found nothing. -/
def actionTerms (context : Context) (action : Action) : Attempt.Terms ActionError where
  asks := reach context action
  blames := Blame
  excuses failure := Transfers action ∧ ∃ path, failure = .transfer (.nestedTooDeep path)
  tolerates exchange := exchange.Misses ∧ ∃ targets, action = .delete targets

/-- No answer stands for the bound on nesting. -/
theorem not_blame_nested {exchange : Exchange} {path : String} :
    ¬ Blame exchange (.transfer (.nestedTooDeep path)) := by
  rintro ⟨⟩
  next blamed =>
    generalize failed : TransferError.nestedTooDeep path = error at blamed
    cases blamed with
    | remote => cases failed
    | _ =>
      unfold TransferError.onLocal at failed
      split at failed <;> cases failed

section Belonging

variable {located : String → Prop} {context : Context} {action : Action} {call : SessionCall}
  {path source target : String}

theorem Belongs.one (there : located path) (own : sessionCalls action call := by trivial)
    (one : call.remotePaths = [path] := by rfl) (silent : call.directory? = none := by rfl) :
    Belongs located context action call :=
  ⟨own, by simpa [one] using there, by simp [silent]⟩

theorem Belongs.two (origin : located source) (goal : located target)
    (own : sessionCalls action call := by trivial)
    (two : call.remotePaths = [source, target] := by rfl) (silent : call.directory? = none := by rfl) :
    Belongs located context action call :=
  ⟨own, by simp [two, origin, goal], by simp [silent]⟩

variable {command : String} {setting : Session.Setting}
  (here : ∀ directory ∈ setting.directory, directory = context.remoteDirectory)
include here

theorem Belongs.run (own : sessionCalls action (.run command setting) := by trivial) :
    Belongs located context action (.run command setting) :=
  ⟨own, by simp [SessionCall.remotePaths], here⟩

theorem Belongs.capture (own : sessionCalls action (.capture command setting) := by trivial) :
    Belongs located context action (.capture command setting) :=
  ⟨own, by simp [SessionCall.remotePaths], here⟩

omit here

theorem setting_directory (context : Context) :
    ∀ directory ∈ context.setting.directory, directory = context.remoteDirectory := by
  simp [Context.setting]

end Belonging

section Requests

variable {relies : Exchange → Prop} {asks : Request → Prop}

theorem observes_remotely {session : SessionId} {call : SessionCall} {returns : call.Result → Prop}
    (asked : asks (.session session call))
    (returned : ∀ value, relies ⟨.session session call, .ok value⟩ → returns value) :
    (remotely session call).Observes (transferTerms relies asks) returns :=
  Attempt.observes_session asked returned fun error => .remote session call error

theorem observes_localMetadata {path : String} (asked : asks (.machine (.metadata path))) :
    (localMetadata path).Observes (transferTerms relies asks) fun _ => True := by
  refine Attempt.observes_asking asked fun answer error failed => ?_
  exact failed ▸ .metadata path error

theorem observes_localEntries {path : String} (asked : asks (.machine (.entries path))) :
    (localEntries path).Observes (transferTerms relies asks) fun _ => True := by
  have listed : (Attempt.asking (TransferError.onLocal path)
      (Dialogue.request (.machine (.entries path)))).Observes
      (transferTerms relies asks) fun _ => True := by
    refine Attempt.observes_asking asked fun answer error failed => ?_
    exact failed ▸ .entries path error
  exact listed.andThen fun _ => Attempt.observes_pure trivial

theorem observes_makeLocalDirectories {path : String}
    (asked : asks (.machine (.makeDirectories path))) :
    (makeLocalDirectories path).Observes (transferTerms relies asks) fun _ => True := by
  refine Attempt.observes_asking asked fun answer error failed => ?_
  exact failed ▸ .makeDirectories path error

theorem observes_setLocalMode {path : String} {mode : Nat}
    (asked : asks (.machine (.setMode path mode))) :
    (setLocalMode path mode).Observes (transferTerms relies asks) fun _ => True := by
  refine Attempt.observes_asking asked fun answer error failed => ?_
  exact failed ▸ .setMode path mode error

end Requests

section Transfers

/-- The terms of a transfer that is part of an action. -/
def reachTerms (located : String → Prop) (context : Context) (action : Action) :
    Attempt.Terms TransferError :=
  transferTerms (fun _ => True) (reachAt located context action)

variable {located : String → Prop} {context : Context} {action : Action} {session : SessionId}
  {places : List String} {place source directory : String}

theorem observes_remotely_reach {call : SessionCall} (isOpen : context.session = some session)
    (belongs : Belongs located context action call) :
    (remotely session call).Observes (reachTerms located context action) fun _ => True :=
  observes_remotely ⟨isOpen, belongs⟩ fun _ _ => trivial

variable (isOpen : context.session = some session)
  (below : ∀ path name, located path → located (RemotePath.join path name))
include isOpen

section
include below

theorem observes_uploadFile (there : located directory) (source : String) (metadata : Metadata) :
    (uploadFile session source metadata directory).Observes
      (reachTerms located context (.upload places place)) fun _ => True := by
  have target := below directory (LocalPath.baseName source) there
  unfold uploadFile
  refine (observes_remotely_reach isOpen (.one there)).andThen fun _ => ?_
  refine (Attempt.observes_report trivial).andThen fun _ => ?_
  refine (observes_remotely_reach isOpen (.one target)).andThen fun _ => ?_
  refine (observes_remotely_reach isOpen (.one target)).andThen fun _ => ?_
  exact Attempt.observes_pure trivial

/-- Each directory is made under its own name below the one above it. -/
theorem observes_uploadDirectory (depth : Nat) (there : located directory) (source : String) :
    (uploadDirectory session depth source directory).Observes
      (reachTerms located context (.upload places place)) fun _ => True := by
  induction depth generalizing source directory with
  | zero => exact Attempt.observes_throw ⟨source, rfl⟩
  | succ depth ih =>
    have target := below directory (LocalPath.baseName source) there
    unfold uploadDirectory
    refine (observes_remotely_reach isOpen (.one target)).andThen fun _ => ?_
    refine (observes_localEntries trivial).andThen fun names => ?_
    refine Attempt.observes_total fun name _ => ?_
    refine (observes_localMetadata trivial).andThen fun metadata => ?_
    split
    · exact ih target _
    · exact observes_uploadFile isOpen below target _ _

theorem observes_upload (depth : Nat) (there : located directory) (source : String) :
    (upload depth session source directory).Observes
      (reachTerms located context (.upload places place)) fun _ => True := by
  unfold upload
  refine (observes_localMetadata trivial).andThen fun metadata => ?_
  split
  · exact observes_uploadDirectory isOpen below _ there _
  · exact observes_uploadFile isOpen below there _ _

end

theorem observes_downloadFile (there : located source) (metadata : Metadata) (directory : String) :
    (downloadFile session source metadata directory).Observes
      (reachTerms located context (.download places place)) fun _ => True := by
  unfold downloadFile
  refine (observes_makeLocalDirectories trivial).andThen fun _ => ?_
  refine (Attempt.observes_report trivial).andThen fun _ => ?_
  refine (observes_remotely_reach isOpen (.one there)).andThen fun _ => ?_
  refine (observes_setLocalMode trivial).andThen fun _ => ?_
  exact Attempt.observes_pure trivial

include below

/-- The names of the entries come from the remote host and can be any texts. -/
theorem observes_downloadDirectory (depth : Nat) (there : located source) (directory : String) :
    (downloadDirectory session depth source directory).Observes
      (reachTerms located context (.download places place)) fun _ => True := by
  induction depth generalizing source directory with
  | zero => exact Attempt.observes_throw ⟨source, rfl⟩
  | succ depth ih =>
    unfold downloadDirectory
    refine (observes_makeLocalDirectories trivial).andThen fun _ => ?_
    refine (observes_remotely_reach isOpen (.one there)).andThen fun entries => ?_
    refine Attempt.observes_total fun entry _ => ?_
    have path := below source entry.name there
    dsimp only
    split
    · exact ih path _
    · refine (observes_remotely_reach isOpen (.one path)).andThen fun _ => ?_
      exact observes_downloadFile isOpen path _ _

theorem observes_download (depth : Nat) (there : located source) (directory : String) :
    (download depth session source directory).Observes
      (reachTerms located context (.download places place)) fun _ => True := by
  unfold download
  refine (observes_remotely_reach isOpen (.one there)).andThen fun metadata => ?_
  split
  · exact observes_downloadDirectory isOpen below _ there _
  · exact observes_downloadFile isOpen there _ _

end Transfers

section Actions

variable {setup : Setup} {context : Context} {action : Action} {session : SessionId}

theorem Attempt.Observes.inAction {attempt : Attempt TransferError Nat} {returns : Nat → Prop}
    (observed : attempt.Observes (reachTerms (Located context.remoteDirectory) context action) returns)
    (transfers : Transfers action := by trivial) :
    (attempt.failingAs ActionError.transfer).Observes (actionTerms context action) returns := by
  refine observed.failingAs (fun _ _ => trivial) (fun _ asked => asked) ?_ ?_ fun _ tolerated => tolerated.elim
  · exact fun _ _ blamed => .transfer blamed
  · rintro _ ⟨path, rfl⟩
    exact ⟨transfers, path, rfl⟩

theorem located_remotePath (context : Context) (text : String) :
    Located context.remoteDirectory (context.remotePath text) :=
  .resolved text

theorem located_inside {directory : String} (path name : String) (above : Located directory path) :
    Located directory (RemotePath.join path name) :=
  .inside above name

theorem observes_sessionOf {terms : Attempt.Terms ActionError}
    (connected : context.session.isSome = true) :
    (sessionOf context).Observes terms fun session => context.session = some session := by
  unfold sessionOf
  split
  next session isOpen => exact Attempt.observes_pure isOpen
  next closed => simp [closed] at connected

theorem observes_onSession {call : SessionCall} (connected : context.session.isSome = true)
    (belongs : Belongs (Located context.remoteDirectory) context action call) :
    (onSession context call).Observes (actionTerms context action) fun _ => True := by
  refine (observes_sessionOf connected).bind fun session isOpen => ?_
  exact Attempt.observes_session ⟨isOpen, belongs⟩ (fun _ _ => trivial)
    fun error => .remote session call error

/-- A remote command runs in the working directory, and a remote variable is read where the session starts. -/
theorem observes_valueOf (key : String) (source : Source)
    (connected : source.isRemote = true → context.session.isSome = true) :
    (valueOf setup context source).Observes (actionTerms context (.var key source))
      fun _ => True := by
  cases source with
  | literal value => exact Attempt.observes_pure trivial
  | environment side name =>
    cases side with
    | here =>
      exact Attempt.observes_lift rfl fun _ => .inl ⟨Attempt.observes_pure trivial, fun fails => fails.elim⟩
    | remote =>
      refine (observes_onSession (connected rfl) (.capture (by simp))).andThen fun _ => ?_
      exact Attempt.observes_pure trivial
  | command side argv =>
    cases side with
    | here =>
      have captured : (Attempt.asking ActionError.onLocal
          (Dialogue.request (.machine (.capture setup.localDirectory argv)))).Observes
          (actionTerms context (.var key (.command .here argv))) fun _ => True := by
        refine Attempt.observes_asking rfl fun answer error failed => ?_
        exact failed ▸ .capture _ _ error
      exact captured.andThen fun _ => Attempt.observes_pure trivial
    | remote =>
      refine (observes_onSession (connected rfl) (.capture (setting_directory context))).andThen fun _ => ?_
      exact Attempt.observes_pure trivial

theorem observes_copyRemote (connected : context.session.isSome = true)
    (source destination : String) :
    (copyRemote context source destination).Observes
      (actionTerms context (.copy source destination)) fun _ => True := by
  have located := located_remotePath context
  unfold copyRemote
  refine (observes_onSession connected (.one (located source))).andThen fun _ => ?_
  refine (observes_onSession connected (.two (located source) (located destination))).andThen fun _ => ?_
  exact observes_onSession connected (.one (located destination))

theorem observes_deleteOne {targets : List String} (isOpen : context.session = some session) {path : String}
    (there : Located context.remoteDirectory path) :
    (deleteOne setup session path).Observes (actionTerms context (.delete targets))
      fun _ => True := by
  unfold deleteOne
  split
  · exact Attempt.observes_report trivial
  · refine Attempt.observes_lift ⟨isOpen, .one there⟩ fun found => ?_
    split
    · exact .inl ⟨Attempt.observes_report trivial, fun _ => ⟨trivial, targets, rfl⟩⟩
    · exact .inr ⟨_, rfl, .remote session (.stat path) _⟩
    · exact .inl ⟨Attempt.observes_session ⟨isOpen, .one there⟩ (fun _ _ => trivial)
        fun error => .remote session (.remove path) error, fun fails => fails.elim⟩

theorem observes_deleteAll {targets : List String} (isOpen : context.session = some session)
    (remaining : List String) :
    (deleteAll setup context session remaining).Observes (actionTerms context (.delete targets))
      fun _ => True := by
  induction remaining with
  | nil => exact Attempt.observes_pure trivial
  | cons target rest ih =>
    exact (observes_deleteOne isOpen (located_remotePath context target)).andThen fun _ => ih

theorem observes_uploadAll {sources : List String} {destination directory : String}
    (isOpen : context.session = some session) (there : Located context.remoteDirectory directory)
    (remaining : List String) :
    (uploadAll setup context session directory remaining).Observes
      (actionTerms context (.upload sources destination)) fun _ => True := by
  induction remaining with
  | nil => exact Attempt.observes_pure trivial
  | cons source rest ih =>
    exact (observes_upload isOpen located_inside _ there _).inAction.andThen fun _ => ih

theorem observes_downloadAll {sources : List String} {destination : String}
    (isOpen : context.session = some session) (directory : String) (remaining : List String) :
    (downloadAll setup context session directory remaining).Observes
      (actionTerms context (.download sources destination)) fun _ => True := by
  induction remaining with
  | nil => exact Attempt.observes_pure trivial
  | cons source rest ih =>
    have there := located_remotePath context source
    exact (observes_download isOpen located_inside _ there _).inAction.andThen fun _ => ih

/-- An action other than a connect asks for nothing beyond its reach, changes nothing but its own part
of the context, and fails by its last answer or by the bound on nesting. -/
theorem observes_change (action : Action)
    (connected : action.needsConnection = true → context.session.isSome = true) :
    (change setup context action).Observes (actionTerms context action) (Changes action context) := by
  have located := located_remotePath context
  cases action with
  | connect login => exact Attempt.observes_pure rfl
  | var key source =>
    refine (observes_valueOf key source connected).andThen fun value => ?_
    exact Attempt.observes_pure ⟨value, rfl⟩
  | env key value => exact Attempt.observes_pure rfl
  | cd target => exact Attempt.observes_pure rfl
  | cmd program arguments =>
    have ran : (Attempt.asking ActionError.onLocal (Dialogue.request
        (.machine (.run setup.localDirectory (program :: arguments))))).Observes
        (actionTerms context (.cmd program arguments)) fun _ => True := by
      refine Attempt.observes_asking rfl fun answer error failed => ?_
      exact failed ▸ .run _ _ error
    exact ran.andThen fun _ => Attempt.observes_pure rfl
  | run command =>
    refine (observes_onSession (connected rfl) (.run (setting_directory context))).andThen fun _ => ?_
    exact Attempt.observes_pure rfl
  | move source target =>
    refine (observes_onSession (connected rfl) (.two (located source) (located target))).andThen fun _ => ?_
    exact Attempt.observes_pure rfl
  | copy source target =>
    refine (observes_copyRemote (connected rfl) source target).andThen fun _ => ?_
    exact Attempt.observes_pure rfl
  | delete targets =>
    refine (observes_sessionOf (connected rfl)).bind fun session isOpen => ?_
    refine (observes_deleteAll isOpen targets).andThen fun _ => ?_
    exact Attempt.observes_pure rfl
  | upload sources destination =>
    refine (observes_sessionOf (connected rfl)).bind fun session isOpen => ?_
    refine (observes_uploadAll isOpen (located destination) sources).andThen fun _ => ?_
    exact Attempt.observes_pure rfl
  | download sources destination =>
    refine (observes_sessionOf (connected rfl)).bind fun session isOpen => ?_
    refine (observes_downloadAll isOpen _ sources).andThen fun _ => ?_
    exact Attempt.observes_pure rfl

end Actions

end Rollout.Deployment
