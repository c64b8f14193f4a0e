import Rollout.Proofs.Leftovers

/-!
# Requests that only fetch

A download looks at remote paths, lists remote directories and reads remote files. None of this changes
anything on the host, and what was noted before makes no difference to it: two worlds that differ in their
notes alone answer alike, and differ in their notes alone afterwards.
-/

namespace Rollout.Ssh

open Rollout.Deployment (Attempt Dialogue Metadata SessionCall Transcript Transfer)
open Exchange (Keeps exchange_bind exchange_tryCatch)

variable {α β : Type}

def World.noting (world : World) (notes : List Note) : World :=
  { world with notes }

/-- The exchange leaves the host as it is, and it goes the same way whatever was noted. -/
structure Fetches (exchange : Exchange α) : Prop where
  keeps : ∀ world : World, (world.exchange exchange).1.host = world.host
  blind : ∀ (world : World) (notes : List Note), ∃ more, (world.noting notes).exchange exchange =
    ((world.exchange exchange).1.noting more, (world.exchange exchange).2)

theorem fetches_pure (value : α) : Fetches (pure value : Exchange α) :=
  ⟨fun _ => rfl, fun _ notes => ⟨notes, rfl⟩⟩

theorem fetches_throw (error : SessionError) : Fetches (throw error : Exchange α) :=
  ⟨fun _ => rfl, fun _ notes => ⟨notes, rfl⟩⟩

theorem Fetches.bind {exchange : Exchange α} {next : α → Exchange β} (first : Fetches exchange)
    (second : ∀ value, Fetches (next value)) : Fetches (exchange >>= next) := by
  have keeps : Keeps World.host (exchange >>= next) :=
    Keeps.bind first.keeps fun value => (second value).keeps
  refine ⟨keeps, ?_⟩
  intro world notes
  obtain ⟨more, same⟩ := first.blind world notes
  rw [exchange_bind, exchange_bind, same]
  generalize world.exchange exchange = done
  obtain ⟨between, error | value⟩ := done
  · exact ⟨more, rfl⟩
  · exact (second value).blind between more

theorem Fetches.rescue {exchange : Exchange α} {rescue : SessionError → Exchange α}
    (first : Fetches exchange) (second : ∀ error, Fetches (rescue error)) :
    Fetches (tryCatch exchange rescue) := by
  have keeps : Keeps World.host (tryCatch exchange rescue) :=
    Keeps.rescue first.keeps fun error => (second error).keeps
  refine ⟨keeps, ?_⟩
  intro world notes
  obtain ⟨more, same⟩ := first.blind world notes
  rw [exchange_tryCatch, exchange_tryCatch, same]
  generalize world.exchange exchange = done
  obtain ⟨between, error | value⟩ := done
  · exact (second error).blind between more
  · exact ⟨more, rfl⟩

/-- What comes next may look at the world, though not at its notes. -/
theorem fetches_get {next : World → Exchange α}
    (unnoticed : ∀ (world : World) (notes : List Note), next (world.noting notes) = next world)
    (each : ∀ world, Fetches (next world)) : Fetches (get >>= next) := by
  constructor
  · intro world
    exact (each world).keeps world
  · intro world notes
    rw [exchange_get, exchange_get, unnoticed]
    exact (each world).blind world notes

theorem fetches_change {f : World → World} (keeps : ∀ world : World, (f world).host = world.host)
    (blind : ∀ (world : World) (notes : List Note), ∃ more, f (world.noting notes) = (f world).noting more) :
    Fetches (Exchange.change f) := by
  refine ⟨keeps, fun world notes => ?_⟩
  obtain ⟨more, same⟩ := blind world notes
  exact ⟨more, Prod.ext same rfl⟩

/-- The machine may change by what it was. -/
theorem fetches_machine (f : Machine → Machine) :
    Fetches (Exchange.change fun world => { world with machine := f world.machine }) :=
  fetches_change (fun _ => rfl) fun _ notes => ⟨notes, rfl⟩

theorem fetches_request (asked : Request) : Fetches (Exchange.request asked) := by
  constructor
  · intro world
    rw [exchange_request]
    rfl
  · intro world notes
    rw [exchange_request, exchange_request]
    exact ⟨.requested asked :: notes, rfl⟩

theorem fetches_found (result : Except Sftp.Status α) : Fetches (Exchange.found result) := by
  cases result with
  | ok value => exact fetches_pure value
  | error status => exact fetches_throw _

theorem fetches_concluded (result : Except SessionError α) : Fetches (concluded result) := by
  cases result with
  | ok value => exact fetches_pure value
  | error error => exact fetches_throw _

theorem fetches_copied (result : Except IoError α) : Fetches (copied result) :=
  fetches_concluded _

theorem Fetches.naming {exchange : Exchange α} (fetches : Fetches exchange) (path : String) :
    Fetches (Exchange.naming path exchange) := by
  refine fetches.rescue fun error => ?_
  split
  · split
    · exact fetches_throw _
    · exact fetches_throw _
  · exact fetches_throw _

/-- What is written does not depend on the notes. -/
theorem World.print_noting (world : World) (notes : List Note) (stream : Standard) (text : String) :
    (world.noting notes).print stream text = (world.print stream text).noting notes := by
  have same : (world.noting notes).refuses? stream text = world.refuses? stream text := rfl
  unfold World.print World.print?
  rw [same]
  cases world.refuses? stream text <;> rfl

theorem fetches_progress (transfer : Transfer) (advances : List Nat) (finished : Bool) :
    Fetches (Exchange.change (·.progress transfer advances finished)) := by
  refine fetches_change (fun world => ?_) fun world notes => ?_
  · obtain ⟨shown, same⟩ := world.progress_eq transfer advances finished
    rw [same]
    rfl
  · let note := Note.progressed transfer.label (Copy.reported advances) finished
    have same : ((world.noting notes).note note).drawing? transfer advances finished =
        (world.note note).drawing? transfer advances finished := rfl
    refine ⟨note :: notes, ?_⟩
    unfold World.progress
    dsimp only
    rw [same]
    cases (world.note note).drawing? transfer advances finished with
    | none => rfl
    | some drawing => exact (world.note note).print_noting (note :: notes) .err drawing.text

theorem fetches_attributes (follow : Bool) (path : String) : Fetches (attributes follow path) := by
  refine (fetches_request _).bind fun _ => fetches_get (fun _ _ => rfl) fun world => ?_
  exact (fetches_found _).bind fun _ => fetches_pure _

theorem fetches_stat (path : String) : Fetches (stat path) :=
  ((fetches_attributes true path).naming path).bind fun _ => fetches_pure _

theorem fetches_list (path : String) : Fetches (list path) := by
  refine (fetches_request _).bind fun _ => fetches_get (fun _ _ => rfl) fun world => ?_
  exact (fetches_found _).bind fun _ => fetches_pure _

theorem fetches_openRead (path : String) : Fetches (openRead path) := by
  refine Fetches.naming ?_ path
  exact (fetches_request _).bind fun _ => fetches_get (fun _ _ => rfl) fun world => fetches_found _

theorem fetches_download (source target : String) (transfer : Transfer) :
    Fetches (download source target transfer) := by
  unfold download beforeTransfer
  refine Fetches.bind (Fetches.rescue ?_ fun error => ?_) fun places => ?_
  · refine (fetches_openRead source).bind fun place => fetches_get (fun _ _ => rfl) fun world => ?_
    refine (fetches_copied _).bind fun opened => ?_
    exact (fetches_machine fun _ => opened.2).bind fun _ => fetches_pure _
  · exact (fetches_progress transfer [] false).bind fun _ => fetches_throw error
  · refine fetches_get (fun _ _ => rfl) fun world => ?_
    refine (fetches_machine (·.append places.2 _)).bind fun _ => ?_
    exact (fetches_progress _ _ _).bind fun _ => fetches_concluded _

/-- The requests of a download. -/
def Fetching : Deployment.Request → Prop
  | .session _ (.stat _) | .session _ (.list _) | .session _ (.download ..) => True
  | .machine _ | .report _ => True
  | _ => False

theorem fetches_call {call : SessionCall} {id : Deployment.SessionId} (fetching : Fetching (.session id call)) :
    Fetches (Ssh.call call) := by
  cases call with
  | stat path => exact fetches_stat path
  | list path => exact fetches_list path
  | download source target transfer => exact fetches_download source target transfer
  | _ => exact fetching.elim

theorem World.tell_noting (world : World) (report : Deployment.Report) (notes : List Note) :
    ∃ more, (world.noting notes).tell report = (world.tell report).noting more := by
  have same : ((world.noting notes).note (.told report)).line? report = (world.note (.told report)).line? report := rfl
  refine ⟨.told report :: notes, ?_⟩
  unfold World.tell
  dsimp only
  rw [same]
  cases (world.note (.told report)).line? report with
  | none => rfl
  | some line => exact (world.note (.told report)).print_noting (.told report :: notes) .out line

theorem World.tell_host (world : World) (report : Deployment.Report) :
    (world.tell report).host = world.host := by
  obtain ⟨shown, same⟩ := world.tell_eq report
  rw [same]
  rfl

/-- A request of a download leaves the host as it is, and is answered alike whatever was noted. -/
theorem World.answer_fetching (world : World) (notes : List Note) {request : Deployment.Request}
    (fetching : Fetching request) : (world.answer request).1.host = world.host ∧
      ∃ more, (world.noting notes).answer request =
        ((world.answer request).1.noting more, (world.answer request).2) := by
  cases request with
  | session id call =>
    have fetches := fetches_call fetching
    exact ⟨fetches.keeps world, fetches.blind world notes⟩
  | machine call => exact ⟨rfl, notes, rfl⟩
  | report report =>
    obtain ⟨more, same⟩ := world.tell_noting report notes
    exact ⟨world.tell_host report, more, Prod.ext same rfl⟩
  | _ => exact fetching.elim

/-- All that the dialogue can ask for is fetched. -/
def OnlyFetches (dialogue : Dialogue α) : Prop :=
  ∀ transcript result, dialogue.Yields transcript result →
    ∀ exchange ∈ transcript, Fetching exchange.request

/-- What only fetches leaves the host as it is, and goes the same way whatever was noted. -/
theorem World.carryOut_noting (world : World) (notes : List Note) {dialogue : Dialogue α}
    (only : OnlyFetches dialogue) : (world.carryOut dialogue).2.host = world.host ∧
      ∃ more, (world.noting notes).carryOut dialogue =
        ((world.carryOut dialogue).1, (world.carryOut dialogue).2.noting more) := by
  induction dialogue generalizing world notes with
  | done result => exact ⟨rfl, notes, rfl⟩
  | ask request next ih =>
    have goesOn := Dialogue.yields_under world.replies [] (next (world.answer request).2)
    have fetching : Fetching request := only _ _ (.ask _ goesOn) _ (List.mem_cons_self ..)
    have onward : OnlyFetches (next (world.answer request).2) := fun transcript result run exchange member =>
      only _ _ (.ask _ run) exchange (List.mem_cons_of_mem _ member)
    obtain ⟨kept, more, same⟩ := world.answer_fetching notes fetching
    obtain ⟨keeps, later⟩ := ih _ (world.answer request).1 more onward
    rw [carryOut_ask, carryOut_ask, same]
    exact ⟨keeps.trans kept, later⟩

/-- Of two dialogues in turn the second is carried out in the world that the first one leaves. -/
theorem World.carryOut_bind (world : World) (dialogue : Dialogue α) (next : α → Dialogue β) :
    world.carryOut (dialogue >>= next) =
      (world.carryOut dialogue).2.carryOut (next (world.carryOut dialogue).1) := by
  change world.carryOut (dialogue.bind next) = _
  induction dialogue generalizing world with
  | done result => rfl
  | ask request rest ih => exact ih _ _

theorem World.carryOut_then {ε : Type} (world : World) (attempt : Attempt ε α) (next : α → Attempt ε β) :
    world.carryOut (attempt >>= next).run = match world.carryOut attempt.run with
      | (.ok value, after) => after.carryOut (next value).run
      | (.error error, after) => (.error error, after) := by
  change world.carryOut (attempt.run >>= ExceptT.bindCont next) = _
  rw [World.carryOut_bind]
  rcases world.carryOut attempt.run with ⟨error | value, after⟩ <;> rfl

section Attempts

variable {ε : Type} {host : Host} {first second : Attempt ε α} {next next' : α → Attempt ε β}

theorem OnlyFetches.bind (only : OnlyFetches first.run) (each : ∀ value, OnlyFetches (next value).run) :
    OnlyFetches (first >>= next).run := by
  intro transcript result run exchange member
  rcases Attempt.yields_bind_iff.1 run with ⟨error, failed, _⟩ | ⟨left, value, right, passed, later, rfl⟩
  · exact only _ _ failed exchange member
  · exact (List.mem_append.1 member).elim (only _ _ passed exchange) (each value _ _ later exchange)

/-- With the host as it is, both attempts have the same result, and the worlds they leave differ in their
notes alone. -/
def Alike (host : Host) (first second : Attempt ε α) : Prop :=
  ∀ (world : World) (notes : List Note), world.host = host →
    (world.carryOut first.run).2.host = host ∧ ∃ more, (world.noting notes).carryOut second.run =
      ((world.carryOut first.run).1, (world.carryOut first.run).2.noting more)

theorem Alike.refl (only : OnlyFetches first.run) : Alike host first first := by
  intro world notes same
  obtain ⟨kept, alike⟩ := world.carryOut_noting notes only
  exact ⟨kept.trans same, alike⟩

theorem Alike.symm (alike : Alike host first second) : Alike host second first := by
  intro world notes same
  obtain ⟨kept, more, run⟩ := alike (world.noting notes) world.notes same
  have back : (world.noting notes).noting world.notes = world := rfl
  rw [back] at run
  rw [run]
  exact ⟨kept, (world.noting notes |>.carryOut first.run).2.notes, rfl⟩

theorem Alike.trans {third : Attempt ε α} (left : Alike host first second) (right : Alike host second third) :
    Alike host first third := by
  intro world notes same
  obtain ⟨kept, more, run⟩ := left world world.notes same
  obtain ⟨_, more', run'⟩ := right world notes same
  have here : world.noting world.notes = world := rfl
  rw [here] at run
  rw [run', run]
  exact ⟨kept, more', rfl⟩

/-- The results are the same, and so is what is left on the machine. -/
theorem Alike.agree (alike : Alike host first second) {world : World} (same : world.host = host) :
    (world.carryOut first.run).1 = (world.carryOut second.run).1 ∧
      (world.carryOut first.run).2.machine = (world.carryOut second.run).2.machine := by
  obtain ⟨_, more, run⟩ := alike world world.notes same
  have here : world.noting world.notes = world := rfl
  rw [here] at run
  rw [run]
  exact ⟨rfl, rfl⟩

/-- What the attempt can return with the host as it is. -/
def Returns (host : Host) (attempt : Attempt ε α) (value : α) : Prop :=
  ∃ world : World, world.host = host ∧ (world.carryOut attempt.run).1 = .ok value

theorem Alike.bind (alike : Alike host first second)
    (each : ∀ value, Returns host first value → Alike host (next value) (next' value)) :
    Alike host (first >>= next) (second >>= next') := by
  intro world notes same
  obtain ⟨kept, more, run⟩ := alike world notes same
  rw [World.carryOut_then, World.carryOut_then, run]
  have returned (value : α) (ok : (world.carryOut first.run).1 = .ok value) : Returns host first value :=
    ⟨world, same, ok⟩
  generalize world.carryOut first.run = done at kept returned ⊢
  obtain ⟨error | value, after⟩ := done
  · exact ⟨kept, more, rfl⟩
  · exact each value (returned value rfl) after more kept

/-- The attempt returns the value and leaves nothing but notes. -/
def Passes (host : Host) (attempt : Attempt ε α) (value : α) : Prop :=
  ∀ world : World, world.host = host → ∃ notes, world.carryOut attempt.run = (.ok value, world.noting notes)

theorem Passes.alike {value : α} {attempt : Attempt ε α} {other : Attempt ε β}
    (passes : Passes host attempt value) (alike : Alike host (next value) other) :
    Alike host (attempt >>= next) other := by
  intro world notes same
  obtain ⟨more, run⟩ := passes world same
  rw [World.carryOut_then, run]
  exact alike (world.noting more) notes same

theorem alike_total {γ : Type} {attempt attempt' : γ → Attempt ε Nat} {elements : List γ}
    (each : ∀ element ∈ elements, Alike host (attempt element) (attempt' element)) :
    Alike host (Attempt.total attempt elements) (Attempt.total attempt' elements) := by
  induction elements with
  | nil => exact fun world notes same => ⟨same, notes, rfl⟩
  | cons element rest ih =>
    obtain ⟨here, later⟩ := List.forall_mem_cons.1 each
    refine here.bind fun count _ => (ih later).bind fun more _ => ?_
    exact fun world notes same => ⟨same, notes, rfl⟩

/-- With the host as it is, the attempt fails. -/
def Fails (host : Host) (attempt : Attempt ε α) : Prop :=
  ∀ world : World, world.host = host → ∃ error, (world.carryOut attempt.run).1 = .error error

theorem Fails.after (only : OnlyFetches first.run)
    (fails : ∀ value, Returns host first value → Fails host (next value)) :
    Fails host (first >>= next) := by
  intro world same
  have kept := (world.carryOut_noting [] only).1
  rw [World.carryOut_then]
  have returned (value : α) (ok : (world.carryOut first.run).1 = .ok value) : Returns host first value :=
    ⟨world, same, ok⟩
  generalize world.carryOut first.run = done at kept returned ⊢
  obtain ⟨error | value, after⟩ := done
  · exact ⟨error, rfl⟩
  · exact fails value (returned value rfl) after (kept.trans same)

theorem Fails.before (fails : Fails host first) : Fails host (first >>= next) := by
  intro world same
  obtain ⟨error, failed⟩ := fails world same
  rw [World.carryOut_then]
  generalize world.carryOut first.run = done at failed ⊢
  obtain ⟨_, after⟩ := done
  cases failed
  exact ⟨error, rfl⟩

theorem Fails.of_alike (fails : Fails host second) (alike : Alike host first second) : Fails host first := by
  intro world same
  obtain ⟨error, failed⟩ := fails world same
  exact ⟨error, (alike.agree same).1.trans failed⟩

theorem fails_total {γ : Type} {attempt : γ → Attempt ε Nat} {elements : List γ} {element : γ}
    (only : ∀ element ∈ elements, OnlyFetches (attempt element).run) (member : element ∈ elements)
    (fails : Fails host (attempt element)) : Fails host (Attempt.total attempt elements) := by
  induction elements with
  | nil => cases member
  | cons first rest ih =>
    obtain ⟨here, later⟩ := List.forall_mem_cons.1 only
    rcases List.mem_cons.1 member with rfl | among
    · exact fails.before
    · exact Fails.after here fun _ _ => (ih later among).before

end Attempts

end Rollout.Ssh
