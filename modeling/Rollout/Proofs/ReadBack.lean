import Rollout.Proofs.Discretion
import Rollout.Proofs.Exports
import Rollout.Proofs.Placeholders
import Rollout.Proofs.Reading
import Rollout.Ssh.Host

/-!
# Reading a remote variable back

A remote variable is read by a command that shows it, sent with the exports in front. What was set arrives
and comes back whole exactly if no value that is set has a blank in it, and the value that is asked for is
not the word by which `echo` is told to end no line: a value of several words is cut short on its way, and
that word is not shown.
-/

namespace Rollout.Session

open Rollout.Machine (Interpreter)
open Rollout.Machine.Interpreter (Varies)
open Rollout.Shell (isPlain IsVariable)

/-! ### What `echo` shows -/

theorem utf8Chars_append (first second : List Char) :
    Machine.utf8Chars (first ++ second) = Machine.utf8Chars first ++ Machine.utf8Chars second := by
  simp [Machine.utf8Chars, Machine.utf8, String.ofList_append]

theorem utf8Chars_cons (c : Char) (text : List Char) :
    Machine.utf8Chars (c :: text) = Machine.utf8Chars [c] ++ Machine.utf8Chars text :=
  utf8Chars_append [c] text

/-- A text without backslashes has nothing to be carried out in it. -/
theorem unescapeWithin_eq {escapes : Machine.Escapes} {text : List Char} (plain : '\\' ∉ text) {fuel : Nat}
    (enough : text.length ≤ fuel) :
    Machine.unescapeWithin escapes fuel text = (Machine.utf8Chars text, false) := by
  induction text generalizing fuel with
  | nil => cases fuel <;> rfl
  | cons c text ih =>
    obtain ⟨fuel, rfl⟩ : ∃ n, fuel = n + 1 := ⟨fuel - 1, by simp at enough; omega⟩
    simp only [List.mem_cons, not_or] at plain
    have rest := ih plain.2 (Nat.le_of_succ_le_succ enough)
    rw [Machine.unescapeWithin, rest, utf8Chars_cons c text]
    exact fun same => plain.1 same.symm

/-- `echo` shows a word on a line of its own, whatever it is but the one by which it is told to end no line. -/
theorem shellEcho_word {value : String} (plain : '\\' ∉ value.toList) (notOption : value ≠ "-n")
    (machine : Machine) : (machine.shellEcho [value]).out = Machine.utf8Chars (value.toList ++ ['\n']) := by
  have text : Machine.unescape Machine.Dialect.shell.textEscapes value = (Machine.utf8Chars value.toList, false) :=
    unescapeWithin_eq plain (Nat.le_of_eq String.length_toList)
  have line : Machine.utf8Chars ['\n'] = [10] := by decide
  unfold Machine.shellEcho
  split
  next words arguments same =>
    split at same
    next only => exact absurd (List.cons.inj only).1 notOption
    next =>
      obtain ⟨rfl, rfl⟩ := Prod.mk.inj same
      simp [text, utf8Chars_append, line]

theorem shellEcho_option (machine : Machine) : (machine.shellEcho ["-n"]).out = [] := rfl

theorem utf8Chars_singleton {c : Char} (ascii : c.toNat < 128) : Machine.utf8Chars [c] = [UInt8.ofNat c.toNat] := by
  have bytes : Machine.utf8Chars [c] = Text.bytesOf (String.ofList [c]) := rfl
  have small : c.val.toNat ≤ 127 := Nat.le_of_lt_succ ascii
  rw [bytes, Text.bytesOf_eq_flatMap, String.toList_ofList, List.flatMap_singleton, String.utf8EncodeChar]
  exact if_pos small

/-- Bytes of ASCII characters are read as these characters. -/
theorem decodeChars_utf8Chars {text : List Char} (ascii : ∀ c ∈ text, c.toNat < 128) :
    Text.decodeChars (Machine.utf8Chars text) = text := by
  induction text with
  | nil =>
    unfold Text.decodeChars
    rfl
  | cons c text ih =>
    have here := ascii c (by simp)
    have rest := ih fun d member => ascii d (by simp [member])
    have number : (UInt8.ofNat c.toNat).toNat = c.toNat := by simp; omega
    have small : UInt8.ofNat c.toNat < 0x80 := by
      rw [UInt8.lt_iff_toNat_lt, number]
      exact here
    rw [utf8Chars_cons, utf8Chars_singleton here, List.singleton_append]
    unfold Text.decodeChars
    simp [Text.nextChar, small, number, rest]

/-! ### Plain values -/

theorem ascii_of_isPlain {c : Char} (plain : isPlain c = true) : c.toNat < 128 := by
  rw [isPlain, Bool.or_eq_true] at plain
  obtain letter | sign := plain
  · simp only [Char.isAlphanum, Char.isAlpha, Char.isUpper, Char.isLower, Char.isDigit, Bool.or_eq_true,
      Bool.and_eq_true, decide_eq_true_eq, ge_iff_le, UInt32.le_iff_toNat_le] at letter
    have number : c.toNat = c.val.toNat := rfl
    rw [number]
    grind
  · have all : "/._-+:@%,=".toList.all (·.toNat < 128) = true := by decide
    rw [List.contains_iff_mem] at sign
    simpa using List.all_eq_true.1 all c sign

/-- A plain character is none of those at which texts are cut, as a look at the ASCII characters shows. -/
theorem isBlank_of_isPlain {c : Char} (plain : isPlain c = true) : Text.isBlank c = false := by
  have all : ∀ n < 128, isPlain (Char.ofNat n) = true → Text.isBlank (Char.ofNat n) = false := by decide
  have here := all c.toNat (ascii_of_isPlain plain)
  rw [Char.ofNat_toNat] at here
  exact here plain

theorem IsPlainValue.word {value : String} (plain : IsPlainValue value) (whole : ' ' ∉ value.toList) :
    value.toList ≠ [] ∧ ∀ c ∈ value.toList, isPlain c = true := by
  rw [IsPlainValue, Text.splitOn_of_not_mem whole] at plain
  exact plain value.toList (by simp)

/-- All that a plain value has in it is plain characters, and the blanks between its words. -/
theorem IsPlainValue.not_mem {value : String} (plain : IsPlainValue value) {c : Char} (other : c ≠ ' ')
    (special : isPlain c = false) : c ∉ value.toList := by
  intro member
  obtain ⟨word, among, inside⟩ := Text.exists_mem_splitOn member other
  exact absurd ((plain word among).2 c inside) (by simp [special])

/-! ### What a session takes from a shell -/

/-- The shell ends well, and its output is the text, however the two streams of it come together. -/
def Prints (after : Interpreter) (output : String) : Prop :=
  after.ended = none ∧ after.status = 0 ∧ ∀ paced,
    Text.decodeLossy (Ssh.Reply.captured { output := after.written.reverse, paced }) = output

variable {environment : Environment} {key value : String}

/-- The variables of an environment arrive on a machine that is sent the command to show one of them: its shell
comes to define them, each whole, and nothing else, and what it prints is the value with blanks around it. -/
def Arrives (machine : Machine) (environment : Environment) (key value : String) : Prop :=
  ∃ bound after,
    (∀ fuel, bound ≤ fuel → (Interpreter.started machine).carryOut fuel
      (commandLine ("echo $" ++ key) { environment }).toList = after) ∧
    Defines (Interpreter.started machine) environment after ∧
    ∃ output, Prints after output ∧ Text.trimmed output = value

theorem started_stopped (machine : Machine) : (Interpreter.started machine).stopped = false := by
  unfold Interpreter.started Interpreter.assign
  split <;> rfl

theorem started_output (machine : Machine) :
    (Interpreter.started machine).written = [] ∧ (Interpreter.started machine).out = .out ∧
      (Interpreter.started machine).ended = none := by
  unfold Interpreter.started Interpreter.assign
  split <;> exact ⟨rfl, rfl, rfl⟩

theorem Defines.congr {start first second : Interpreter} (bindings : first.bindings = second.bindings)
    (exports : first.machine.environment = second.machine.environment) :
    Defines start environment first ↔ Defines start environment second := by
  constructor
  · rintro ⟨whole, others⟩
    simp only [bindings, exports] at whole others
    exact ⟨whole, others⟩
  · rintro ⟨whole, others⟩
    simp only [← bindings, ← exports] at whole others
    exact ⟨whole, others⟩

/-- Showing a variable changes none. -/
theorem defines_shown_iff {start shell : Interpreter} :
    Defines start environment (shown shell key) ↔ Defines start environment shell := by
  rw [shown]
  split
  · rfl
  · obtain ⟨bindings, exports⟩ :=
      shell.variables_emit shell.out (Machine.shellEcho shell.machine (shownFields shell key)).out 0
    exact Defines.congr bindings exports

/-- A line of plain characters is printed as it is. -/
theorem prints_line {text : List Char} {shell : Interpreter} (plain : ∀ c ∈ text, isPlain c = true)
    (fresh : shell.written = []) (out : shell.out = .out) (ended : shell.ended = none) :
    Prints ((shell.emit shell.out (Machine.utf8Chars (text ++ ['\n']))).withStatus 0)
      (String.ofList (text ++ ['\n'])) := by
  have newline : Machine.utf8Chars ['\n'] = [10] := by decide
  have nonempty : (Machine.utf8Chars (text ++ ['\n'])).isEmpty = false := by simp [utf8Chars_append, newline]
  have ascii : ∀ c ∈ text ++ ['\n'], c.toNat < 128 := by
    intro c member
    obtain inText | atEnd := List.mem_append.1 member
    · exact ascii_of_isPlain (plain c inText)
    · obtain rfl := List.mem_singleton.1 atEnd
      decide
  have chunks : ((shell.emit shell.out (Machine.utf8Chars (text ++ ['\n']))).withStatus 0).written =
      [(true, Machine.utf8Chars (text ++ ['\n']))] := by
    rw [out, Interpreter.emit, nonempty]
    simp [Interpreter.withStatus, fresh]
  refine ⟨?_, rfl, fun paced => ?_⟩
  · rw [out, Interpreter.emit, nonempty]
    exact ended
  · have bytes : Ssh.Reply.captured { output := [(true, Machine.utf8Chars (text ++ ['\n']))], paced } =
        Machine.utf8Chars (text ++ ['\n']) := by
      cases paced <;> simp [Ssh.Reply.captured, Ssh.Reply.stream]
    rw [chunks, List.reverse_singleton, bytes, Text.decodeLossy, decodeChars_utf8Chars ascii]

theorem trimmed_line {text : List Char} (plain : ∀ c ∈ text, isPlain c = true) :
    Text.trimmed (String.ofList (text ++ ['\n'])) = String.ofList text := by
  have cut : Text.trim ([] ++ text ++ ['\n']) = text :=
    Text.trim_of_forall (fun c member => isBlank_of_isPlain (plain c member)) (by simp) (by simp; decide)
  rw [List.nil_append] at cut
  rw [Text.trimmed, String.toList_ofList, cut]

/-- A shell that writes nothing prints nothing. -/
theorem Prints.eq_empty {after : Interpreter} {output : String} (prints : Prints after output)
    (silent : after.written = []) : output = "" := by
  obtain ⟨-, -, said⟩ := prints
  rw [← said true, silent]
  simp [Ssh.Reply.captured, Text.decodeLossy, Text.decodeChars]

/-- A value of one word is printed as it is, but for `-n`. -/
theorem prints_shown_iff {machine : Machine} {shell : Interpreter}
    (varies : Varies (Interpreter.started machine) shell) (plain : IsPlainValue value) (whole : ' ' ∉ value.toList)
    (found : shell.value key = some value) :
    (∃ output, Prints (shown shell key) output ∧ Text.trimmed output = value) ↔ value ≠ "-n" := by
  obtain ⟨written, out, ended⟩ := started_output machine
  have running := varies.stopped_eq.trans (started_stopped machine)
  obtain ⟨nonempty, chars⟩ := plain.word whole
  have fields : shownFields shell key = [value] := by
    rw [shownFields, found, Option.getD_some]
    exact Interpreter.fields_value (by simpa using nonempty)
      fun c member => Interpreter.not_blank_of_isPlain (chars c member)
  have fresh : shell.written = [] := by rw [varies, written]
  rw [shown, running, fields]
  simp only [Bool.false_eq_true, if_false]
  constructor
  · rintro ⟨output, prints, same⟩ rfl
    rw [shellEcho_option, Interpreter.emit_nil] at prints
    rw [prints.eq_empty fresh] at same
    exact absurd same (by decide)
  · intro notOption
    have line := prints_line chars fresh (by rw [varies, out]) (by rw [varies, ended])
    rw [← shellEcho_word (plain.not_mem (by decide) (by decide)) notOption shell.machine] at line
    exact ⟨_, line, by rw [trimmed_line chars, String.ofList_toList]⟩

/-- Plain values arrive exactly if each is one word and the one that is asked for is not `-n`. -/
theorem arrives_iff (machine : Machine) (distinct : environment.Pairwise fun b c => b.1 ≠ c.1)
    (plain : ∀ binding ∈ environment, IsPlain binding) (member : (key, value) ∈ environment) :
    Arrives machine environment key value ↔
      (∀ binding ∈ environment, ' ' ∉ binding.2.toList) ∧ value ≠ "-n" := by
  have start := started_stopped machine
  have own := plain (key, value) member
  obtain ⟨bound, reached⟩ := carryOut_showing plain own.name start
  have afterwards (whole : ∀ binding ∈ environment, ' ' ∉ binding.2.toList) :
      (∃ output, Prints (shown (environment.foldl exported (Interpreter.started machine)) key) output ∧
        Text.trimmed output = value) ↔ value ≠ "-n" := by
    have defined := (defines_exports distinct plain whole start).whole (key, value) member
    have found := (environment.foldl exported (Interpreter.started machine)).value_of_isVariable own.name
    rw [String.ofList_toList, defined.1, defined.2, Option.none_or] at found
    exact prints_shown_iff (varies_exports plain whole start) own.value (whole (key, value) member) found
  constructor
  · rintro ⟨limit, after, comes, defines, prints⟩
    obtain rfl : shown (environment.foldl exported (Interpreter.started machine)) key = after := by
      rw [← reached (max bound limit) (by omega), comes (max bound limit) (by omega)]
    have whole := (defines_exports_iff distinct plain start).1 (defines_shown_iff.1 defines)
    exact ⟨whole, (afterwards whole).1 prints⟩
  · rintro ⟨whole, notOption⟩
    exact ⟨bound, _, reached, defines_shown_iff.2 (defines_exports distinct plain whole start),
      (afterwards whole).2 notOption⟩

example (machine : Machine) : Arrives machine [("A", "b"), ("B", "c/d")] "B" "c/d" :=
  (arrives_iff machine (by decide) (by decide) (by decide)).2 (by decide)

end Rollout.Session

namespace Rollout.Deployment

open Rollout.Machine (Interpreter)
open Rollout.Script (Action)

/-- The parts set plain variables, and to plain values. -/
def SetsPlain (parts : List Part) : Prop :=
  ∀ part ∈ parts, ∀ key text, part.step.action = .env key text → Session.IsPlain (key, text)

/-- All that the part asks for is the command that shows a variable, behind the exports of the environment, on
the session of the parts before it; and what is answered, without the blanks around it, is then the value of
a name. -/
def Part.Shows (part : Part) (before : List Part) (environment : Session.Environment) (name key : String) :
    Prop :=
  ∃ session directory answer, Leads before session directory ∧
    part.transcript = [⟨.session session (.capture ("echo $" ++ key) { environment }), answer⟩] ∧
    ∀ output, answer = .ok output → part.outcome.failure = none ∧
      part.outcome.context.bindings.get? name = some (Text.trimmed output)

variable {setup : Setup} {context : Context} {transcript : Transcript} {parts : List Part} {part : Part}

theorem fill_of_not_mem {values : String → Option String} {text : String} (plain : '}' ∉ text.toList) :
    Variables.fill values text = text := by
  have unclosed : Variables.cutAtPair '}' text.toList = none := by
    rw [Option.eq_none_iff_forall_ne_some]
    rintro ⟨before, after⟩ found
    rw [Variables.cutAtPair_eq found] at plain
    exact plain (by simp)
  rw [Variables.fill, Variables.segments_of_none (Variables.placeholder?_of_unclosed unclosed)]
  simp

theorem filled_name {key : String} (isVariable : Shell.IsVariable key.toList) : filled parts key = key :=
  fill_of_not_mem fun member => absurd (isVariable.chars '}' member) (by decide)

theorem exported_plain (sets : SetsPlain parts) {key value : String} (exported : Exported parts key value) :
    Session.IsPlain (key, value) := by
  obtain ⟨before, part, after, text, rfl, written, -, rfl⟩ := exported
  have plain := sets part (by simp) key text written
  rwa [filled, fill_of_not_mem (plain.value.not_mem (by decide) (by decide))]

/-- A key that is set has a value. -/
theorem exists_exported {key text : String} (member : part ∈ parts) (written : part.step.action = .env key text) :
    ∃ value, Exported parts key value := by
  induction parts using List.reverseRecOn with
  | nil => cases member
  | append_singleton before last ih =>
    by_cases sets : ∃ other text, last.step.action = .env other text
    · obtain ⟨other, text, sets⟩ := sets
      by_cases same : key = other
      · subst same
        exact ⟨filled before text, (exported_concat_env sets).2 (.inl rfl)⟩
      · have earlier : part ∈ before := by
          refine (List.mem_append.1 member).resolve_right fun here => same ?_
          rw [List.mem_singleton.1 here, sets] at written
          injection written with keys
          exact keys.symm
        obtain ⟨value, exported⟩ := ih earlier
        exact ⟨value, (exported_concat_env sets).2 (.inr ⟨same, exported⟩)⟩
    · have other : ∀ key text, last.step.action ≠ .env key text := fun key text is => sets ⟨key, text, is⟩
      have earlier : part ∈ before := by
        refine (List.mem_append.1 member).resolve_right fun here => ?_
        exact other key text (List.mem_singleton.1 here ▸ written)
      obtain ⟨value, exported⟩ := ih earlier
      exact ⟨value, (exported_concat_of_ne other).2 exported⟩

/-- Reading a remote variable is one exchange, and what it answers is the value of the name. -/
theorem change_shows {session : SessionId} {name key : String} {result : Except ActionError Context}
    (isOpen : context.session = some session)
    (run : (change setup context (.var name (.environment .remote key))).run.Yields transcript result) :
    ∃ answer, transcript =
        [⟨.session session (.capture ("echo $" ++ key) { environment := context.environment }), answer⟩] ∧
      ∀ output, answer = .ok output →
        result = .ok { context with bindings := context.bindings.set name (Text.trimmed output) } := by
  rcases Attempt.yields_bind_iff.1 run with ⟨_, failed, rfl⟩ | ⟨_, _, _, passed, atEnd, rfl⟩
  · obtain ⟨answer, said, same⟩ := onSession_use isOpen failed
    refine ⟨answer, said, ?_⟩
    rintro output rfl
    cases same
  · obtain ⟨rfl, rfl⟩ := Attempt.yields_pure_iff.1 atEnd
    obtain ⟨answer, rfl, same⟩ := onSession_use isOpen passed
    refine ⟨answer, rfl, ?_⟩
    rintro output rfl
    cases same
    rfl

theorem Executes.shows {name key : String} {outcome : Outcome}
    (executes : Executes setup context (.var name (.environment .remote key)) transcript outcome) :
    (context.session = none ∧ transcript = [] ∧ outcome.failure = some .notConnected) ∨
      ∃ session answer, context.session = some session ∧
        transcript = [⟨.session session (.capture ("echo $" ++ key) { environment := context.environment }),
          answer⟩] ∧
        ∀ output, answer = .ok output → outcome =
          { context := { context with bindings := context.bindings.set name (Text.trimmed output) } } := by
  cases executes with
  | unconnected _ closed => exact .inl ⟨closed, rfl, rfl⟩
  | changed _ connected run =>
    obtain ⟨session, isOpen⟩ := Option.isSome_iff_exists.1 (connected rfl)
    obtain ⟨answer, said, result⟩ := change_shows isOpen run
    refine .inr ⟨session, answer, isOpen, said, fun output answered => ?_⟩
    rw [Except.ok.inj (result output answered)]
  | failed _ connected run =>
    obtain ⟨session, isOpen⟩ := Option.isSome_iff_exists.1 (connected rfl)
    obtain ⟨answer, said, result⟩ := change_shows isOpen run
    exact .inr ⟨session, answer, isOpen, said, fun output answered => nomatch result output answered⟩

/-- A part that reads a plain variable shows it. -/
theorem Recalls.shows (recalls : Recalls parts part.before) (happens : part.Happens setup) {name key : String}
    (written : part.step.action = .var name (.environment .remote key))
    (isVariable : Shell.IsVariable key.toList) :
    part.Unconnected parts ∨ part.Shows parts part.before.environment name key := by
  have executes := happens.executes
  have filled_eq : part.before.bindings.substitute key = key := by
    rw [recalls.substitute_eq, filled_name isVariable]
  rw [Part.action, written, Action.substitute, Action.substituteSource, filled_eq] at executes
  obtain ⟨closed, silent, fails⟩ | ⟨session, answer, isOpen, said, answered⟩ := executes.shows
  · exact .inl (recalls.unconnected closed silent fails)
  · refine .inr ⟨session, _, answer, recalls.leads_session isOpen, said, fun output same => ?_⟩
    rw [answered output same]
    exact ⟨rfl, (Variables.get?_set ..).trans (if_pos rfl)⟩

/-- Whatever was said before a run: where plain variables are set to plain values, a part that reads one of them
back is shown it behind the exports of the environment. On every machine the variables arrive and the value
comes back exactly if every value that is set is one word and the value that is read is not `-n`. -/
theorem run_reads_back_iff (setup : Setup) (script : Script) (behaviour : Behaviour) (past : Transcript) :
    let run := (run setup script).under behaviour past
    ∃ parts final steps closing, Course setup script.steps {} parts final run.2.2 steps ∧
      (disconnect final).Yields closing run.2.1 ∧ run.1 = steps ++ closing ∧
      ∀ before part after name key, parts = before ++ part :: after →
        part.step.action = .var name (.environment .remote key) → SetsPlain before →
        (∃ earlier ∈ before, ∃ text, earlier.step.action = .env key text) →
          part.Unconnected before ∨
            ∃ environment value, Exports before environment ∧ (key, value) ∈ environment ∧
              part.Shows before environment name key ∧
              ∀ machine, Session.Arrives machine environment key value ↔
                (∀ binding ∈ environment, ' ' ∉ binding.2.toList) ∧ value ≠ "-n" := by
  intro run
  obtain ⟨parts, final, steps, closing, course, closed, split⟩ :=
    run_course (Dialogue.yields_under behaviour past (Deployment.run setup script))
  refine ⟨parts, final, steps, closing, course, closed, split, ?_⟩
  rintro before part after name key among written sets ⟨earlier, member, text, setting⟩
  have recalls : Recalls before part.before := course.recalls recalls_fresh among
  have happens : part.Happens setup := course.happens part (by simp [among])
  obtain ⟨value, exported⟩ := exists_exported member setting
  have own := exported_plain sets exported
  refine (recalls.shows happens written own.name).imp id fun shows => ?_
  have exports := recalls.exports_environment
  have stored := (exports.exact key value).2 exported
  refine ⟨part.before.environment, value, exports, stored, shows, fun machine => ?_⟩
  have distinct : part.before.environment.Pairwise fun b c => b.1 ≠ c.1 :=
    recalls.ascending.imp String.ne_of_lt
  have plain : ∀ binding ∈ part.before.environment, Session.IsPlain binding := fun binding member =>
    exported_plain sets ((exports.exact binding.1 binding.2).1 member)
  exact Session.arrives_iff machine distinct plain stored

/-- A world in which every login succeeds and every command that is captured prints the same text. -/
def printingWorld (output : String) : Behaviour
  | _, .session _ (.capture ..) => (.ok output : Except SessionError String)
  | past, request => failingWorld "" past request

def wordScript : Script where
  steps := [⟨.connect { username := "u", host := "h", port := 22, password := some "p" }, 1⟩,
    ⟨.env "A" "b", 2⟩, ⟨.var "X" (.environment .remote "A"), 3⟩]

/-- In the parts before the last only `A` is set. -/
theorem wordScript_sets {before : List Part} (early : before.map (·.step) = wordScript.steps.take 2) {part : Part}
    (member : part ∈ before) {key text : String} (sets : part.step.action = .env key text) :
    key = "A" ∧ text = "b" := by
  have among : part.step ∈ wordScript.steps.take 2 := early ▸ List.mem_map_of_mem member
  rcases List.mem_pair.1 among with same | same
  · simp [same] at sets
  · simpa [same, eq_comm] using sets

/-- One word arrives and comes back whole. -/
theorem run_reads_back_word :
    ∃ (before : List Part) (part : Part) (environment : Session.Environment),
      part.step.action = .var "X" (.environment .remote "A") ∧ SetsPlain before ∧
      (∃ earlier ∈ before, earlier.step.action = .env "A" "b") ∧ Exports before environment ∧
      part.Shows before environment "X" "A" ∧ ∀ machine, Session.Arrives machine environment "A" "b" := by
  obtain ⟨parts, final, steps, closing, course, -, -, reads⟩ :=
    run_reads_back_iff {} wordScript (printingWorld "b\n") []
  have succeeds : ((run {} wordScript).under (printingWorld "b\n") []).2.2 = .ok () := by decide
  have written : parts.map (·.step) = wordScript.steps.take 2 ++ [⟨.var "X" (.environment .remote "A"), 3⟩] :=
    course.map_step_of_ok succeeds
  obtain ⟨before, last, rfl, early, late⟩ := List.map_eq_append_iff.1 written
  obtain ⟨reading, rfl, shown⟩ := List.map_eq_singleton_iff.1 late
  have plain : SetsPlain before := by
    intro part member key text sets
    obtain ⟨rfl, rfl⟩ := wordScript_sets early member sets
    decide
  have carriedOut : ∀ step ∈ wordScript.steps.take 2, ∃ part ∈ before, part.step = step :=
    fun step member => List.mem_map.1 (early ▸ member)
  obtain ⟨connect, first, connects⟩ := carriedOut _ (.head _)
  obtain ⟨setting, second, sets⟩ := carriedOut _ (.tail _ (.head _))
  have isSet : ∃ earlier ∈ before, earlier.step.action = .env "A" "b" := ⟨setting, second, by rw [sets]⟩
  rcases reads before reading [] "X" "A" rfl (by rw [shown]) plain (isSet.imp fun _ set => ⟨set.1, "b", set.2⟩)
    with ⟨unconnected, -⟩ | ⟨environment, value, exports, stored, shows, arrives⟩
  · exact absurd ⟨_, by rw [connects]⟩ (unconnected connect first)
  · have only : ∀ binding ∈ environment, binding = ("A", "b") := by
      rintro ⟨key, value⟩ member
      obtain ⟨before, part, after, text, split, sets, -, rfl⟩ := (exports.exact key value).1 member
      obtain ⟨rfl, rfl⟩ := wordScript_sets early (split ▸ by simp) sets
      rw [filled, fill_of_not_mem (by decide)]
    obtain ⟨-, rfl⟩ := Prod.mk.inj (only _ stored)
    have oneWord : ∀ binding ∈ environment, ' ' ∉ binding.2.toList := by
      intro binding member
      rw [only binding member]
      decide
    exact ⟨before, reading, environment, by rw [shown], plain, isSet, exports, shows,
      fun machine => (arrives machine).2 ⟨oneWord, by decide⟩⟩

def wordsScript : Script where
  steps := [⟨.connect { username := "u", host := "h", port := 22, password := some "p" }, 1⟩,
    ⟨.env "A" "b c", 2⟩, ⟨.var "X" (.environment .remote "A"), 3⟩]

/-- A machine without files, on which `ENV A = b c` is exported. -/
def wordsExported : Interpreter :=
  Session.exported (Interpreter.started { files := {}, directory := "/" }) ("A", "b c")

/-- `ENV A = b c` is cut short: `A` is `b` for the shell, and `b` is what the session takes from it. -/
theorem words_cut_short :
    Script.parse "CONNECT u:p@h\nENV A = b c\nVAR X = REMOTE_ENV(A)" = .ok wordsScript ∧
    (∃ bound after, (∀ fuel, bound ≤ fuel →
        (Interpreter.started { files := {}, directory := "/" }).carryOut fuel
          (Session.commandLine ("echo $" ++ "A") { environment := [("A", "b c")] }).toList = after) ∧
      after.machine.environment.lookup "A" = some "b" ∧ Session.Prints after "b\n") ∧
    (let run := (run {} wordsScript).under (printingWorld "b\n") []
    .session 0 (.capture "echo $A" { environment := [("A", "b c")] }) ∈ run.1.map (·.request) ∧
      run.2.1.bindings.get? "X" = some "b") := by
  have plain : ∀ binding ∈ [("A", "b c")], Session.IsPlain binding := by decide
  have cut : Session.Prints (Session.shown wordsExported "A") "b\n" := by
    have running : wordsExported.stopped = false := by decide
    have fields : Session.shownFields wordsExported "A" = ["b"] := by decide
    have line : (Machine.shellEcho wordsExported.machine ["b"]).out = Machine.utf8Chars (['b'] ++ ['\n']) :=
      Session.shellEcho_word (by decide) (by decide) _
    rw [Session.shown, running, fields, line]
    exact Session.prints_line (List.all_eq_true.1 rfl) (by decide) (by decide) (by decide)
  obtain ⟨bound, reached⟩ :=
    Session.carryOut_showing plain (plain ("A", "b c") (by simp)).name (Session.started_stopped _)
  exact ⟨rfl, ⟨bound, _, reached, by decide, cut⟩, by decide +kernel⟩

end Rollout.Deployment
