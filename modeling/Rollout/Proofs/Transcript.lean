import Rollout.Deployment.Dialogue

/-!
# Transcripts of dialogues

A transcript lists what a dialogue asked and what it was answered, in order. A behaviour answers each
request by everything that was said before it, so it can stand for any world: one that changes, that
fails now and then, or that answers the same request differently each time. What holds of a dialogue
under every behaviour holds in every world.

`Yields` opens a run of a composed dialogue into the runs of its parts. `Observes` states in one go what
is to be known of every run of an attempt: what it asks for, what it returns, which answer is behind its
failure, and that nothing is asked for after such an answer; there is one rule for each way in which
attempts are put together.
-/

namespace Rollout.Deployment

/-- A request and what it was answered. -/
structure Exchange where
  request : Request
  answer : request.Answer

abbrev Transcript := List Exchange

/-- The answer tells that the request failed. -/
def Exchange.Fails : Exchange → Prop
  | ⟨.askPassword _, .error _⟩ | ⟨.dial _, .error _⟩ | ⟨.session _ _, .error _⟩ => True
  | ⟨.machine .currentDirectory, .error _⟩ | ⟨.machine (.metadata _), .error _⟩ => True
  | ⟨.machine (.entries _), .error _⟩ | ⟨.machine (.makeDirectories _), .error _⟩ => True
  | ⟨.machine (.setMode ..), .error _⟩ => True
  | ⟨.machine (.run ..), .error _⟩ | ⟨.machine (.capture ..), .error _⟩ => True
  | _ => False

/-- How a world answers a request, given all that was said before. -/
abbrev Behaviour := Transcript → (request : Request) → request.Answer

namespace Dialogue

variable {α β : Type}

/-- The transcript and the result of a dialogue under a behaviour, when `past` was said before it. -/
def under (behaviour : Behaviour) : Transcript → Dialogue α → Transcript × α
  | _, done result => ([], result)
  | past, ask request next =>
    let exchange : Exchange := ⟨request, behaviour past request⟩
    let rest := (next exchange.answer).under behaviour (past ++ [exchange])
    (exchange :: rest.1, rest.2)

/-- The dialogue comes to the result with the transcript, for some answers. -/
inductive Yields : Dialogue α → Transcript → α → Prop
  | done (result : α) : Yields (.done result) [] result
  | ask {request : Request} {next : request.Answer → Dialogue α} {transcript : Transcript}
      {result : α} (answer : request.Answer) (rest : Yields (next answer) transcript result) :
      Yields (.ask request next) (⟨request, answer⟩ :: transcript) result

theorem yields_under (behaviour : Behaviour) (past : Transcript) (dialogue : Dialogue α) :
    dialogue.Yields (dialogue.under behaviour past).1 (dialogue.under behaviour past).2 := by
  induction dialogue generalizing past with
  | done result => exact .done result
  | ask request next ih => exact .ask _ (ih _ _)

theorem under_bind (behaviour : Behaviour) (past : Transcript) (dialogue : Dialogue α)
    (next : α → Dialogue β) : (dialogue >>= next).under behaviour past =
      let first := dialogue.under behaviour past
      let second := (next first.2).under behaviour (past ++ first.1)
      (first.1 ++ second.1, second.2) := by
  change (dialogue.bind next).under behaviour past = _
  induction dialogue generalizing past with
  | done value => simp [bind, under]
  | ask request rest ih => simp [bind, under, ih]

/-- What holds of every answer of a behaviour holds of all that is said under it. -/
theorem forall_under {behaviour : Behaviour} {holds : Exchange → Prop}
    (answers : ∀ past request, holds ⟨request, behaviour past request⟩) (past : Transcript)
    (dialogue : Dialogue α) : ∀ exchange ∈ (dialogue.under behaviour past).1, holds exchange := by
  induction dialogue generalizing past with
  | done value => simp [under]
  | ask request rest ih => exact List.forall_mem_cons.2 ⟨answers past request, ih _ _⟩

theorem yields_pure_iff {value result : α} {transcript : Transcript} :
    (pure value : Dialogue α).Yields transcript result ↔ transcript = [] ∧ result = value := by
  constructor
  · intro h
    cases h
    exact ⟨rfl, rfl⟩
  · rintro ⟨rfl, rfl⟩
    exact .done _

theorem yields_request_iff {request : Request} {result : request.Answer} {transcript : Transcript} :
    (Dialogue.request request).Yields transcript result ↔ transcript = [⟨request, result⟩] := by
  constructor
  · intro h
    cases h with
    | ask answer rest =>
      cases rest
      rfl
  · rintro rfl
    exact .ask _ (.done _)

/-- A run of two dialogues in turn is a run of the first and then one of the second. -/
theorem yields_bind_iff {dialogue : Dialogue α} {next : α → Dialogue β} {transcript : Transcript}
    {result : β} :
    (dialogue >>= next).Yields transcript result ↔ ∃ first middle second,
      dialogue.Yields first middle ∧ (next middle).Yields second result ∧
        transcript = first ++ second := by
  change (dialogue.bind next).Yields transcript result ↔ _
  constructor
  · intro h
    induction dialogue generalizing transcript with
    | done value => exact ⟨[], value, transcript, .done value, h, rfl⟩
    | ask request rest ih =>
      cases h with
      | ask answer inner =>
        obtain ⟨first, middle, second, left, right, rfl⟩ := ih answer inner
        exact ⟨_, middle, second, .ask answer left, right, rfl⟩
  · rintro ⟨first, middle, second, left, right, rfl⟩
    induction left with
    | done value => exact right
    | ask answer _ ih => exact .ask answer (ih right)

end Dialogue

namespace Attempt

variable {ε ε' α β : Type}

theorem yields_pure_iff {value : α} {transcript : Transcript} {result : Except ε α} :
    (pure value : Attempt ε α).run.Yields transcript result ↔
      transcript = [] ∧ result = .ok value :=
  Dialogue.yields_pure_iff

theorem yields_throw_iff {error : ε} {transcript : Transcript} {result : Except ε α} :
    (throw error : Attempt ε α).run.Yields transcript result ↔
      transcript = [] ∧ result = .error error :=
  Dialogue.yields_pure_iff

/-- A run of two attempts in turn ends at the first failure. -/
theorem yields_bind_iff {attempt : Attempt ε α} {next : α → Attempt ε β} {transcript : Transcript}
    {result : Except ε β} :
    (attempt >>= next).run.Yields transcript result ↔
      (∃ error, attempt.run.Yields transcript (.error error) ∧ result = .error error) ∨
      ∃ first value second, attempt.run.Yields first (.ok value) ∧
        (next value).run.Yields second result ∧ transcript = first ++ second := by
  change Dialogue.Yields (attempt.run >>= ExceptT.bindCont next) transcript result ↔ _
  rw [Dialogue.yields_bind_iff]
  constructor
  · rintro ⟨first, value | value, second, left, right, rfl⟩
    · obtain ⟨rfl, rfl⟩ := Dialogue.yields_pure_iff.1 right
      exact .inl ⟨value, by simpa using left, rfl⟩
    · exact .inr ⟨first, value, second, left, right, rfl⟩
  · rintro (⟨error, left, rfl⟩ | ⟨first, value, second, left, right, rfl⟩)
    · exact ⟨transcript, .error error, [], left, Dialogue.yields_pure_iff.2 ⟨rfl, rfl⟩, by simp⟩
    · exact ⟨first, .ok value, second, left, right, rfl⟩

/-- Of two attempts in turn that succeed, both do. -/
theorem yields_bind_ok {attempt : Attempt ε α} {next : α → Attempt ε β} {transcript : Transcript}
    {value : β} (run : (attempt >>= next).run.Yields transcript (.ok value)) :
    ∃ first middle second, attempt.run.Yields first (.ok middle) ∧
      (next middle).run.Yields second (.ok value) ∧ transcript = first ++ second := by
  rcases yields_bind_iff.1 run with ⟨_, _, impossible⟩ | parts
  · cases impossible
  · exact parts

theorem yields_lift_iff {dialogue : Dialogue α} {transcript : Transcript} {result : Except ε α} :
    (ExceptT.lift dialogue : Attempt ε α).run.Yields transcript result ↔
      ∃ value, dialogue.Yields transcript value ∧ result = .ok value := by
  change Dialogue.Yields (dialogue >>= fun value => pure (.ok value)) transcript result ↔ _
  simp only [Dialogue.yields_bind_iff, Dialogue.yields_pure_iff]
  constructor
  · rintro ⟨first, value, _, left, ⟨rfl, rfl⟩, rfl⟩
    exact ⟨value, by simpa using left, rfl⟩
  · rintro ⟨value, left, rfl⟩
    exact ⟨transcript, value, [], left, ⟨rfl, rfl⟩, by simp⟩

theorem yields_report_iff {report : Report} {transcript : Transcript} {result : Except ε Unit} :
    (Attempt.report report : Attempt ε Unit).run.Yields transcript result ↔
      transcript = [⟨.report report, ()⟩] ∧ result = .ok () := by
  constructor
  · intro h
    obtain ⟨_, told, rfl⟩ := yields_lift_iff.1 h
    exact ⟨Dialogue.yields_request_iff.1 told, rfl⟩
  · rintro ⟨rfl, rfl⟩
    have told : (Dialogue.request (.report report)).Yields [⟨.report report, ()⟩] () :=
      Dialogue.yields_request_iff.2 rfl
    exact yields_lift_iff.2 ⟨(), told, rfl⟩

theorem yields_session_iff {id : SessionId} {call : SessionCall} {transcript : Transcript}
    {result : Except SessionError call.Result} :
    (Attempt.session id call).run.Yields transcript result ↔
      transcript = [⟨.session id call, result⟩] :=
  Dialogue.yields_request_iff

theorem yields_failingAs_iff {wrap : ε → ε'} {attempt : Attempt ε α} {transcript : Transcript}
    {result : Except ε' α} :
    (attempt.failingAs wrap).run.Yields transcript result ↔
      ∃ inner, attempt.run.Yields transcript inner ∧ result = inner.mapError wrap := by
  change Dialogue.Yields (Except.mapError wrap <$> attempt.run) transcript result ↔ _
  change Dialogue.Yields (attempt.run >>= fun inner => pure (inner.mapError wrap)) _ _ ↔ _
  simp only [Dialogue.yields_bind_iff, Dialogue.yields_pure_iff]
  constructor
  · rintro ⟨first, inner, _, left, ⟨rfl, rfl⟩, rfl⟩
    exact ⟨inner, by simpa using left, rfl⟩
  · rintro ⟨inner, left, rfl⟩
    exact ⟨transcript, inner, [], left, ⟨rfl, rfl⟩, by simp⟩

theorem yields_asking_iff {wrap : ε → ε'} {dialogue : Dialogue (Except ε α)}
    {transcript : Transcript} {result : Except ε' α} :
    (Attempt.asking wrap dialogue).run.Yields transcript result ↔
      ∃ inner, dialogue.Yields transcript inner ∧ result = inner.mapError wrap :=
  yields_failingAs_iff

/-- The terms on which an attempt deals with the world. -/
structure Terms (ε : Type) where
  /-- The answers that are counted on. -/
  relies : Exchange → Prop := fun _ => True
  /-- What may be asked for. -/
  asks : Request → Prop
  /-- The failures that an answer stands for. -/
  blames : Exchange → ε → Prop
  /-- The failures that no answer stands for. -/
  excuses : ε → Prop
  /-- The failed requests that the attempt goes on from. -/
  tolerates : Exchange → Prop := fun _ => False

/-- After a failed request that is not tolerated nothing more is asked for, and the attempt fails by it. -/
def Terms.Heeds (terms : Terms ε) (result : Except ε α) : Transcript → Prop
  | [] => True
  | exchange :: rest => (exchange.Fails → terms.tolerates exchange ∨
      rest = [] ∧ ∃ failure, result = .error failure ∧ terms.blames exchange failure) ∧ terms.Heeds result rest

section Heeding

variable {terms : Terms ε} {terms' : Terms ε'} {result : Except ε α} {transcript first second : Transcript}

/-- An attempt that succeeds tolerated all failed requests. -/
theorem Terms.Heeds.tolerated {value : α} (heeds : terms.Heeds (.ok value : Except ε α) transcript) :
    ∀ exchange ∈ transcript, exchange.Fails → terms.tolerates exchange := by
  induction transcript with
  | nil => simp
  | cons exchange rest ih =>
    refine List.forall_mem_cons.2 ⟨fun fails => ?_, ih heeds.2⟩
    rcases heeds.1 fails with tolerated | ⟨_, _, impossible, _⟩
    · exact tolerated
    · cases impossible

/-- Before its last request, the attempt tolerated all failed requests. -/
theorem Terms.Heeds.before {last : Exchange} (heeds : terms.Heeds result (first ++ [last])) :
    ∀ exchange ∈ first, exchange.Fails → terms.tolerates exchange := by
  induction first with
  | nil => simp
  | cons exchange rest ih =>
    refine List.forall_mem_cons.2 ⟨fun fails => ?_, ih heeds.2⟩
    rcases heeds.1 fails with tolerated | ⟨ended, _⟩
    · exact tolerated
    · simp at ended

/-- An attempt whose failure no answer stands for tolerated all failed requests. -/
theorem Terms.Heeds.unblamed (heeds : terms.Heeds result transcript)
    (unblamed : ∀ exchange failure, result = .error failure → ¬ terms.blames exchange failure) :
    ∀ exchange ∈ transcript, exchange.Fails → terms.tolerates exchange := by
  induction transcript with
  | nil => simp
  | cons exchange rest ih =>
    refine List.forall_mem_cons.2 ⟨fun fails => ?_, ih heeds.2⟩
    rcases heeds.1 fails with tolerated | ⟨_, failure, failed, blamed⟩
    · exact tolerated
    · exact absurd blamed (unblamed exchange failure failed)

theorem Terms.Heeds.append (heeds : terms.Heeds result second)
    (tolerated : ∀ exchange ∈ first, exchange.Fails → terms.tolerates exchange) :
    terms.Heeds result (first ++ second) := by
  induction first with
  | nil => exact heeds
  | cons exchange rest ih =>
    obtain ⟨here, later⟩ := List.forall_mem_cons.1 tolerated
    exact ⟨fun fails => .inl (here fails), ih later⟩

theorem Terms.Heeds.imp {result' : Except ε' β} (heeds : terms.Heeds result transcript)
    (tolerated : ∀ exchange, terms.tolerates exchange → terms'.tolerates exchange)
    (failed : ∀ exchange failure, result = .error failure → terms.blames exchange failure →
      ∃ failure', result' = .error failure' ∧ terms'.blames exchange failure') :
    terms'.Heeds result' transcript := by
  induction transcript with
  | nil => trivial
  | cons exchange rest ih =>
    refine ⟨fun fails => ?_, ih heeds.2⟩
    rcases heeds.1 fails with passed | ⟨ended, failure, same, blamed⟩
    · exact .inl (tolerated exchange passed)
    · exact .inr ⟨ended, failed exchange failure same blamed⟩

end Heeding

/-- What is known of a run of an attempt. -/
structure Terms.Keeps (terms : Terms ε) (returns : α → Prop) (transcript : Transcript) (result : Except ε α) :
    Prop where
  asked : ∀ exchange ∈ transcript, terms.asks exchange.request
  ended : match result with
    | .ok value => returns value
    | .error failure => terms.excuses failure ∨
        ∃ before last, transcript = before ++ [last] ∧ terms.blames last failure
  heeded : terms.Heeds result transcript

/-- As long as the answers can be relied on, every run of the attempt asks only for what the terms
allow, what it returns is as stated, a failure that is not excused is the answer to its last request, and
an answer that tells of a failure is heeded. -/
def Observes (terms : Terms ε) (attempt : Attempt ε α) (returns : α → Prop) : Prop :=
  ∀ transcript result, attempt.run.Yields transcript result →
    (∀ exchange ∈ transcript, terms.relies exchange) → terms.Keeps returns transcript result

variable {terms : Terms ε} {terms' : Terms ε'}

theorem observes_pure {value : α} {returns : α → Prop} (returned : returns value) :
    Observes terms (pure value : Attempt ε α) returns := by
  intro transcript result run _
  obtain ⟨rfl, rfl⟩ := yields_pure_iff.1 run
  exact ⟨by simp, returned, trivial⟩

theorem observes_throw {error : ε} {returns : α → Prop} (excused : terms.excuses error) :
    Observes terms (throw error : Attempt ε α) returns := by
  intro transcript result run _
  obtain ⟨rfl, rfl⟩ := yields_throw_iff.1 run
  exact ⟨by simp, .inl excused, trivial⟩

/-- A run that succeeded, and then another one. -/
theorem Terms.Keeps.append {middle : α → Prop} {returns : β → Prop} {first second : Transcript} {value : α}
    {result : Except ε β} (left : terms.Keeps middle first (.ok value))
    (right : terms.Keeps returns second result) : terms.Keeps returns (first ++ second) result where
  asked := List.forall_mem_append.2 ⟨left.asked, right.asked⟩
  heeded := right.heeded.append left.heeded.tolerated
  ended := by
    have ended := right.ended
    cases result with
    | ok value => exact ended
    | error failure =>
      rcases ended with excused | ⟨before, last, rfl, blamed⟩
      · exact .inl excused
      · exact .inr ⟨first ++ before, last, by simp, blamed⟩

theorem Observes.bind {attempt : Attempt ε α} {next : α → Attempt ε β} {middle : α → Prop}
    {returns : β → Prop} (first : attempt.Observes terms middle)
    (second : ∀ value, middle value → (next value).Observes terms returns) :
    Observes terms (attempt >>= next) returns := by
  intro transcript result run relied
  rcases yields_bind_iff.1 run with ⟨error, failed, rfl⟩ | ⟨left, value, right, passed, later, rfl⟩
  · obtain ⟨asked, ended, heeded⟩ := first _ _ failed relied
    refine ⟨asked, ended, heeded.imp (fun _ tolerated => tolerated) ?_⟩
    rintro _ _ ⟨⟩ blamed
    exact ⟨_, rfl, blamed⟩
  · have here := first _ _ passed fun exchange member => relied exchange (List.mem_append_left _ member)
    exact here.append <| second value here.ended _ _ later fun exchange member =>
      relied exchange (List.mem_append_right _ member)

/-- The second attempt keeps the terms whatever the first one returns. -/
theorem Observes.andThen {attempt : Attempt ε α} {next : α → Attempt ε β} {middle : α → Prop}
    {returns : β → Prop} (first : attempt.Observes terms middle)
    (second : ∀ value, (next value).Observes terms returns) :
    Observes terms (attempt >>= next) returns :=
  first.bind fun value _ => second value

theorem Observes.failingAs {wrap : ε → ε'} {attempt : Attempt ε α} {returns : α → Prop}
    (observed : attempt.Observes terms returns)
    (relied : ∀ exchange, terms'.relies exchange → terms.relies exchange)
    (asked : ∀ request, terms.asks request → terms'.asks request)
    (blamed : ∀ exchange error, terms.blames exchange error → terms'.blames exchange (wrap error))
    (excused : ∀ error, terms.excuses error → terms'.excuses (wrap error))
    (tolerated : ∀ exchange, terms.tolerates exchange → terms'.tolerates exchange) :
    (attempt.failingAs wrap).Observes terms' returns := by
  intro transcript result run reliable
  obtain ⟨inner, ran, rfl⟩ := yields_failingAs_iff.1 run
  obtain ⟨asks, ends, heeded⟩ := observed _ _ ran fun exchange member =>
    relied exchange (reliable exchange member)
  refine ⟨fun exchange member => asked _ (asks exchange member), ?_, heeded.imp tolerated ?_⟩
  · cases inner with
    | ok value => exact ends
    | error failure =>
      rcases ends with lone | ⟨before, last, rfl, atLast⟩
      · exact .inl (excused failure lone)
      · exact .inr ⟨before, last, rfl, blamed last failure atLast⟩
  · rintro exchange failure rfl atLast
    exact ⟨_, rfl, blamed exchange failure atLast⟩

theorem observes_report {report : Report} (asked : terms.asks (.report report)) :
    Observes terms (Attempt.report report : Attempt ε Unit) fun _ => True := by
  intro transcript result run _
  obtain ⟨rfl, rfl⟩ := yields_report_iff.1 run
  exact ⟨by simpa using asked, trivial, fun fails => fails.elim, trivial⟩

/-- A single exchange that ends a run, where its failure is the failure of the run. -/
theorem keeps_one {returns : α → Prop} {exchange : Exchange} {result : Except ε α}
    (asked : terms.asks exchange.request) (returned : ∀ value, result = .ok value → returns value)
    (blamed : ∀ error, result = .error error → terms.blames exchange error)
    (heard : exchange.Fails → ∃ error, result = .error error) :
    terms.Keeps returns [exchange] result where
  asked := by simpa using asked
  ended := by
    cases result with
    | ok value => exact returned value rfl
    | error error => exact .inr ⟨[], exchange, rfl, blamed error rfl⟩
  heeded := by
    refine ⟨fun fails => ?_, trivial⟩
    obtain ⟨error, failed⟩ := heard fails
    exact .inr ⟨rfl, error, failed, blamed error failed⟩

/-- A call of a session; its failure is to be blamed on its answer. -/
theorem observes_session {wrap : SessionError → ε} {id : SessionId} {call : SessionCall}
    {returns : call.Result → Prop} (asked : terms.asks (.session id call))
    (returned : ∀ value, terms.relies ⟨.session id call, .ok value⟩ → returns value)
    (blamed : ∀ error, terms.blames ⟨.session id call, .error error⟩ (wrap error)) :
    ((Attempt.session id call).failingAs wrap).Observes terms returns := by
  intro transcript result run relied
  obtain ⟨inner, ran, rfl⟩ := yields_failingAs_iff.1 run
  obtain rfl := yields_session_iff.1 ran
  cases inner with
  | ok value =>
    refine keeps_one asked ?_ nofun fun fails => fails.elim
    rintro _ ⟨⟩
    exact returned value (relied _ (by simp))
  | error error =>
    refine keeps_one asked nofun ?_ fun _ => ⟨_, rfl⟩
    rintro _ ⟨⟩
    exact blamed error

/-- A single request that may fail; its failure is to be blamed on its answer. -/
theorem observes_asking {wrap : ε' → ε} {request : Request} {read : request.Answer → Except ε' α}
    (asked : terms.asks request)
    (blamed : ∀ answer error, read answer = .error error →
      terms.blames ⟨request, answer⟩ (wrap error))
    (heard : ∀ answer, Exchange.Fails ⟨request, answer⟩ → ∃ error, read answer = .error error := by
      rintro (_ | _) fails <;> first | exact ⟨_, rfl⟩ | exact fails.elim) :
    (Attempt.asking wrap (.ask request fun answer => .done (read answer))).Observes terms
      fun _ => True := by
  intro transcript result run _
  obtain ⟨inner, ran, rfl⟩ := yields_asking_iff.1 run
  cases ran with
  | ask answer rest =>
    obtain ⟨rfl, reads⟩ := Dialogue.yields_pure_iff.1 rest
    refine keeps_one asked (fun _ _ => trivial) ?_ fun fails => ?_
    · rintro error failed
      cases inner with
      | ok value => cases failed
      | error inner =>
        cases failed
        exact blamed answer inner reads.symm
    · obtain ⟨error, failed⟩ := heard answer fails
      rw [← reads] at failed
      exact ⟨wrap error, by rw [failed]; rfl⟩

/-- A request whose answer the rest of the attempt looks at. The rest goes on, or gives up at once and
blames the answer. -/
theorem observes_lift {request : Request} {next : request.Answer → Attempt ε α} {returns : α → Prop}
    (asked : terms.asks request)
    (answered : ∀ answer, (next answer).Observes terms returns ∧
        (Exchange.Fails ⟨request, answer⟩ → terms.tolerates ⟨request, answer⟩) ∨
      ∃ error, next answer = throw error ∧ terms.blames ⟨request, answer⟩ error) :
    Observes terms (ExceptT.lift (Dialogue.request request) >>= next) returns := by
  intro transcript result run relied
  rcases yields_bind_iff.1 run with ⟨_, failed, _⟩ | ⟨_, answer, rest, passed, later, rfl⟩
  · obtain ⟨_, _, impossible⟩ := yields_lift_iff.1 failed
    cases impossible
  · obtain ⟨_, looked, same⟩ := yields_lift_iff.1 passed
    obtain rfl := Dialogue.yields_request_iff.1 looked
    cases same
    rcases answered answer with ⟨observed, tolerated⟩ | ⟨error, stops, blamed⟩
    · have here : terms.Keeps (fun _ => True) [⟨request, answer⟩] (.ok answer) :=
        ⟨by simpa using asked, trivial, fun fails => .inl (tolerated fails), trivial⟩
      exact here.append <| observed _ _ later fun exchange member =>
        relied exchange (List.mem_append_right _ member)
    · rw [stops] at later
      obtain ⟨rfl, rfl⟩ := yields_throw_iff.1 later
      refine keeps_one asked nofun ?_ fun _ => ⟨error, rfl⟩
      rintro _ ⟨⟩
      exact blamed

/-- A sum of attempts keeps the terms that each of them keeps. -/
theorem observes_total {attempt : β → Attempt ε Nat} {elements : List β}
    (each : ∀ element ∈ elements, (attempt element).Observes terms fun _ => True) :
    (Attempt.total attempt elements).Observes terms fun _ => True := by
  induction elements with
  | nil => exact observes_pure trivial
  | cons element rest ih =>
    obtain ⟨here, there⟩ := List.forall_mem_cons.1 each
    refine here.andThen fun _ => ?_
    refine (ih there).andThen fun _ => ?_
    exact observes_pure trivial

/-- Every run of the attempt that succeeds asks for one of the wanted things. -/
def Performs (wanted : Request → Prop) (attempt : Attempt ε α) : Prop :=
  ∀ transcript value, attempt.run.Yields transcript (.ok value) →
    ∃ exchange ∈ transcript, wanted exchange.request

variable {wanted : Request → Prop}

theorem performs_throw {error : ε} : Performs wanted (throw error : Attempt ε α) := by
  intro transcript value run
  cases (yields_throw_iff.1 run).2

theorem Performs.before {attempt : Attempt ε α} (performs : attempt.Performs wanted)
    (next : α → Attempt ε β) : Performs wanted (attempt >>= next) := by
  intro transcript value run
  rcases yields_bind_iff.1 run with ⟨_, _, impossible⟩ | ⟨_, _, _, passed, _, rfl⟩
  · cases impossible
  · obtain ⟨exchange, member, asked⟩ := performs _ _ passed
    exact ⟨exchange, List.mem_append_left _ member, asked⟩

theorem Performs.after {next : α → Attempt ε β} (performs : ∀ value, (next value).Performs wanted)
    (attempt : Attempt ε α) : Performs wanted (attempt >>= next) := by
  intro transcript value run
  rcases yields_bind_iff.1 run with ⟨_, _, impossible⟩ | ⟨_, _, _, _, later, rfl⟩
  · cases impossible
  · obtain ⟨exchange, member, asked⟩ := performs _ _ _ later
    exact ⟨exchange, List.mem_append_right _ member, asked⟩

theorem performs_session {wrap : SessionError → ε} {id : SessionId} {call : SessionCall}
    (asked : wanted (.session id call)) :
    ((Attempt.session id call).failingAs wrap).Performs wanted := by
  intro transcript value run
  obtain ⟨_, ran, _⟩ := yields_failingAs_iff.1 run
  obtain rfl := yields_session_iff.1 ran
  exact ⟨_, List.mem_singleton_self _, asked⟩

theorem performs_asking {wrap : ε' → ε} {request : Request}
    {next : request.Answer → Dialogue (Except ε' α)} (asked : wanted request) :
    (Attempt.asking wrap (.ask request next)).Performs wanted := by
  intro transcript value run
  obtain ⟨_, ran, _⟩ := yields_asking_iff.1 run
  cases ran with
  | ask answer rest => exact ⟨_, List.mem_cons_self .., asked⟩

/-- A run of an attempt whose first part is a run that succeeds. -/
theorem yields_then {attempt : Attempt ε α} {next : α → Attempt ε β} {value : α}
    {first second : Transcript} {result : Except ε β} (passed : attempt.run.Yields first (.ok value))
    (later : (next value).run.Yields second result) :
    (attempt >>= next).run.Yields (first ++ second) result :=
  yields_bind_iff.2 (.inr ⟨first, value, second, passed, later, rfl⟩)

theorem yields_call {wrap : SessionError → ε} {id : SessionId} {call : SessionCall}
    (value : call.Result) :
    ((Attempt.session id call).failingAs wrap).run.Yields [⟨.session id call, .ok value⟩]
      (.ok value) :=
  yields_failingAs_iff.2 ⟨.ok value, yields_session_iff.2 rfl, rfl⟩

theorem yields_answer {wrap : ε' → ε} {request : Request}
    {next : request.Answer → Dialogue (Except ε' α)} {answer : request.Answer} {value : α}
    (answered : next answer = .done (.ok value)) :
    (Attempt.asking wrap (.ask request next)).run.Yields [⟨request, answer⟩] (.ok value) := by
  have ran : Dialogue.Yields (.ask request next) [⟨request, answer⟩] (.ok value) :=
    .ask answer (answered ▸ .done _)
  exact yields_asking_iff.2 ⟨.ok value, ran, rfl⟩

end Attempt

end Rollout.Deployment
