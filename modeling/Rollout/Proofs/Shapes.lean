import Rollout.Proofs.Gaps
import Rollout.Proofs.Linewise
import Rollout.Proofs.Tokens
import Rollout.Proofs.Wording

/-!
# The shape of what is read

Whatever a script is accepted from, its actions are in good shape: a login names a user and a host, a key is
one word, a command has something to start, and the paths of an action are there. The facts about a text are
brought along the reader: from a line to its tokens, from the tokens to the arguments of a statement, and
from those to the parts of an action. At every stage the characters are some of the line's, so no text of an
action goes over two lines.

Resolving placeholders can empty any text it touches, but the shape of an action, which is its keyword, its
key, its port, the lengths of its lists and its side, stays what it was.
-/

namespace Rollout

namespace Text

variable {text word : List Char} {c : Char}

theorem mem_of_mem_trim (member : c ∈ trim text) : c ∈ text := by
  rw [trim, trimEnd, List.mem_reverse] at member
  have inStart := (List.dropWhile_sublist _).mem member
  exact (List.dropWhile_sublist _).mem (List.mem_reverse.1 inStart)

/-- What is left of a text between its blanks begins with a character that is not blank. -/
theorem begins_of_trim (written : trim text ≠ []) : ∃ first rest, trim text = first :: rest ∧ isBlank first = false := by
  have starts : trim text <+: trimStart text := by
    rw [trim, trimEnd, ← List.reverse_suffix, List.reverse_reverse]
    exact List.dropWhile_suffix _
  obtain ⟨first, rest, shape⟩ := List.exists_cons_of_ne_nil written
  obtain ⟨more, whole⟩ := starts
  have notBlank := List.head?_dropWhile_not isBlank text
  rw [← trimStart, ← whole, shape] at notBlank
  exact ⟨first, rest, shape, by simpa using notBlank⟩

theorem mem_of_mem_words (member : word ∈ words text) (inside : c ∈ word) : c ∈ text := by
  induction text using blank_induction with
  | word text solid => exact eq_of_mem_words solid member ▸ inside
  | further before d after solid blank ih =>
    rw [words_append_blank blank] at member
    rcases List.mem_append.1 member with first | later
    · exact List.mem_append_left _ (eq_of_mem_words solid first ▸ inside)
    · exact List.mem_append_right _ (List.mem_cons_of_mem _ (ih later))

end Text

namespace Script

open Rollout.Text
open Rollout.Script.Statement

section Cutting

variable {mark : Char} {text before after : List Char}

theorem Statement.cutAt_eq_some (cut : cutAt mark text = some (before, after)) :
    text = before ++ mark :: after ∧ mark ∉ before := by
  induction text generalizing before with
  | nil => cases cut
  | cons c rest ih =>
    rw [cutAt] at cut
    split at cut
    next same =>
      cases cut
      exact ⟨by simp [same], by simp⟩
    next different =>
      obtain ⟨⟨inner, behind⟩, there, same⟩ := Option.map_eq_some_iff.1 cut
      cases same
      obtain ⟨rfl, absent⟩ := ih there
      exact ⟨rfl, by simpa [absent] using fun same => different same.symm⟩

theorem Statement.not_mem_of_cutAt (uncut : cutAt mark text = none) : mark ∉ text := by
  induction text with
  | nil => simp
  | cons c rest ih =>
    rw [cutAt] at uncut
    split at uncut
    · cases uncut
    next different =>
      have absent := ih (Option.map_eq_none_iff.1 uncut)
      simpa [absent] using fun same => different same.symm

theorem cutAtLast_eq_some (cut : cutAtLast mark text = some (before, after)) :
    text = before ++ mark :: after ∧ mark ∉ after := by
  obtain ⟨⟨behind, ahead⟩, found, same⟩ := Option.map_eq_some_iff.1 cut
  cases same
  obtain ⟨whole, absent⟩ := cutAt_eq_some found
  refine ⟨?_, by simpa using absent⟩
  rw [← List.reverse_reverse text, whole]
  simp

end Cutting

section Unquoting

variable {quote : Option Char} {text found : List Char} {c : Char}

theorem mem_of_mem_unquote (member : c ∈ unquote quote text) : c ∈ text := by
  fun_induction unquote quote text <;> grind

theorem mem_of_mem_unquotedWords {word : Option (List Char)} (member : found ∈ unquotedWords quote word text)
    (inside : c ∈ found) : c ∈ word.getD [] ∨ c ∈ text := by
  have ended {word : Option (List Char)} (ends : found ∈ (word.map List.reverse).toList) : c ∈ word.getD [] := by
    obtain ⟨underway, rfl, rfl⟩ := Option.map_eq_some_iff.1 (Option.mem_toList.1 ends)
    simpa using inside
  fun_induction unquotedWords quote word text with
  | case1 => exact .inl (ended member)
  | case2 | case3 | case4 | case6 => grind
  | case5 =>
    rcases List.mem_append.1 member with here | later
    · exact .inl (ended here)
    · grind

/-- A word under way is one of the words. -/
theorem unquotedWords_underway (quote : Option Char) (word text : List Char) :
    unquotedWords quote (some word) text ≠ [] := by
  generalize begun : some word = underway
  fun_induction unquotedWords quote underway text generalizing word <;> grind

theorem unquotedWords_ne_nil (solid : isBlank c = false) (rest : List Char) :
    unquotedWords none none (c :: rest) ≠ [] := by
  rw [unquotedWords]
  split
  · exact unquotedWords_underway _ _ _
  · simpa [solid] using unquotedWords_underway none [c] rest

end Unquoting

/-! ### The shape of an action -/

def OneLine (text : String) : Prop :=
  '\n' ∉ text.toList

/-- A word that can stand before an equals sign. -/
structure IsKey (key : String) : Prop where
  written : key ≠ ""
  noBlank : ∀ c ∈ key.toList, isBlank c = false
  noEquals : '=' ∉ key.toList

structure Login.WellShaped (login : Login) : Prop where
  user : login.username ≠ "" ∧ ':' ∉ login.username.toList
  host : login.host ≠ "" ∧ ':' ∉ login.host.toList ∧ '@' ∉ login.host.toList
  port : login.port.toNat < 65536

/-- There is a value, the name of a variable is one word, and a command has something to start. -/
def Source.WellShaped : Source → Prop
  | .literal value => value ≠ ""
  | .environment _ name => name ≠ "" ∧ ∀ c ∈ name.toList, isBlank c = false
  | .command _ argv => argv ≠ []

/-- Nothing that the action needs is missing. -/
def Action.Complete : Action → Prop
  | .connect login => login.WellShaped
  | .var key source => IsKey key ∧ source.WellShaped
  | .env key value => IsKey key ∧ value ≠ ""
  | .cd target => target ≠ ""
  | .cmd .. => True
  | .run command => command ≠ ""
  | .move source destination | .copy source destination => source ≠ "" ∧ destination ≠ ""
  | .delete targets => targets ≠ [] ∧ ∀ target ∈ targets, target ≠ ""
  | .upload sources destination | .download sources destination =>
    sources ≠ [] ∧ (∀ source ∈ sources, source ≠ "") ∧ destination ≠ ""

def Login.texts (login : Login) : List String :=
  login.username :: login.host :: login.password.toList

def Source.texts : Source → List String
  | .literal value => [value]
  | .environment _ name => [name]
  | .command _ argv => argv

def Action.texts : Action → List String
  | .connect login => login.texts
  | .var key source => key :: source.texts
  | .env key value => [key, value]
  | .cd target => [target]
  | .cmd program arguments => program :: arguments
  | .run command => [command]
  | .move source destination | .copy source destination => [source, destination]
  | .delete targets => targets
  | .upload sources destination | .download sources destination => sources ++ [destination]

structure Action.WellShaped (action : Action) : Prop where
  complete : action.Complete
  oneLine : ∀ text ∈ action.texts, OneLine text

/-- All characters of the texts are some of the given ones. -/
def WrittenIn (source : List Char) (texts : List String) : Prop :=
  ∀ text ∈ texts, ∀ c ∈ text.toList, c ∈ source

theorem WrittenIn.oneLine {source : List Char} {texts : List String} (written : WrittenIn source texts)
    (oneLine : '\n' ∉ source) : ∀ text ∈ texts, OneLine text :=
  fun text member inside => oneLine (written text member '\n' inside)

section Logins

variable {credentials address : List Char} {login : Login}

/-- The login of a user and a password at an address, once these are told apart. -/
def loginAt (username : List Char) (password : Option String) (address : List Char) : Except Fault Login :=
  let finish (host : List Char) (port : UInt16) : Except Fault Login :=
    if username.isEmpty then .error .noUsername
    else if host.isEmpty then .error .noHost
    else .ok { username := String.ofList username, host := String.ofList host, port, password }
  match cutAt ':' address with
  | none => finish address defaultPort
  | some (host, port) =>
    match port? port with
    | none => .error (.badPort (String.ofList port))
    | some port => finish host port

theorem loginOf_eq (credentials address : List Char) : loginOf credentials address =
    match cutAt ':' credentials with
    | some (username, password) => loginAt username (some (String.ofList password)) address
    | none => loginAt credentials none address := by
  unfold loginOf loginAt
  cases cutAt ':' credentials <;> rfl

theorem loginAt_eq_ok {username : List Char} {password : Option String}
    (made : loginAt username password address = .ok login) (user : ':' ∉ username)
    (undivided : '@' ∉ address) :
    login.WellShaped ∧ ∃ host, host ⊆ address ∧
      login.texts = String.ofList username :: String.ofList host :: password.toList := by
  have finish {host : List Char} {port : UInt16} (clear : ':' ∉ host) (within : host ⊆ address)
      (finished : (if username.isEmpty then .error .noUsername
        else if host.isEmpty then .error .noHost
        else .ok { username := String.ofList username, host := String.ofList host, port, password } :
          Except Fault Login) = .ok login) :
      login.WellShaped ∧ ∃ host, host ⊆ address ∧
        login.texts = String.ofList username :: String.ofList host :: password.toList := by
    split at finished
    · cases finished
    next hasUser =>
      split at finished
      · cases finished
      next hasHost =>
        cases finished
        refine ⟨⟨⟨?_, by simpa using user⟩, ⟨?_, by simpa using clear, ?_⟩, UInt16.toNat_lt port⟩,
          host, within, rfl⟩
        · simpa [← String.toList_inj] using hasUser
        · simpa [← String.toList_inj] using hasHost
        · simpa using fun inside => undivided (within inside)
  unfold loginAt at made
  dsimp only at made
  split at made
  next uncut => exact finish (not_mem_of_cutAt uncut) (List.Subset.refl _) made
  next host port cut =>
    obtain ⟨whole, absent⟩ := cutAt_eq_some cut
    split at made
    · cases made
    next => exact finish absent (whole ▸ List.subset_append_left _ _) made

/-- A login has its texts from its two parts, neither of which has the at sign between them. -/
theorem loginOf_eq_ok (made : loginOf credentials address = .ok login) (undivided : '@' ∉ address) :
    login.WellShaped ∧ WrittenIn (credentials ++ address) login.texts := by
  rw [loginOf_eq] at made
  split at made
  next username password cut =>
    obtain ⟨rfl, absent⟩ := cutAt_eq_some cut
    obtain ⟨shaped, host, within, texts⟩ := loginAt_eq_ok made absent undivided
    refine ⟨shaped, fun text member c inside => ?_⟩
    grind [String.toList_ofList]
  next uncut =>
    obtain ⟨shaped, host, within, texts⟩ := loginAt_eq_ok made (not_mem_of_cutAt uncut) undivided
    refine ⟨shaped, fun text member c inside => ?_⟩
    grind [String.toList_ofList]

theorem Login.ofText_eq_ok {target : String} (read : Login.ofText target = .ok login) :
    login.WellShaped ∧ WrittenIn target.toList login.texts := by
  unfold Login.ofText at read
  split at read
  · cases read
  next credentials address cut =>
    obtain ⟨whole, undivided⟩ := cutAtLast_eq_some cut
    obtain ⟨shaped, written⟩ := loginOf_eq_ok read undivided
    refine ⟨shaped, fun text member c inside => ?_⟩
    rw [whole]
    rcases List.mem_append.1 (written text member c inside) with before | after
    · exact List.mem_append_left _ before
    · exact List.mem_append_right _ (List.mem_cons_of_mem _ after)

end Logins

section Sources

variable {form : Form} {body : List Char} {source : Source}

/-- What stands between the parentheses of a form makes a source in good shape, or none. -/
theorem Form.source_eq_ok (made : form.source (trim body) = .ok source) :
    source.WellShaped ∧ WrittenIn body source.texts := by
  unfold Form.source at made
  split at made
  · cases made
  next written =>
    obtain ⟨first, rest, shape, solid⟩ := begins_of_trim (by simpa using written)
    split at made
    next side =>
      split at made
      · cases made
      next noBlank =>
        cases made
        refine ⟨⟨by simpa [← String.toList_inj] using written, by simpa using noBlank⟩, ?_⟩
        intro text member c inside
        obtain rfl := List.mem_singleton.1 member
        exact mem_of_mem_trim (by simpa using inside)
    next =>
      cases made
      refine ⟨by simpa [Source.WellShaped, shape] using unquotedWords_ne_nil solid rest, ?_⟩
      intro text member c inside
      obtain ⟨word, among, rfl⟩ := List.mem_map.1 member
      have found := mem_of_mem_unquotedWords among (by simpa using inside)
      exact mem_of_mem_trim (by simpa using found)
    next =>
      cases made
      refine ⟨by simpa [Source.WellShaped, shape] using words_ne_nil solid rest, ?_⟩
      intro text member c inside
      obtain ⟨word, among, rfl⟩ := List.mem_map.1 member
      exact mem_of_mem_trim (mem_of_mem_words among (by simpa using inside))

theorem Source.ofText_eq_ok {text : String} (written : text ≠ "") (read : Source.ofText text = .ok source) :
    source.WellShaped ∧ WrittenIn text.toList source.texts := by
  unfold Source.ofText at read
  split at read
  · cases read
    exact ⟨written, by simp [WrittenIn, Source.texts]⟩
  next form _ =>
    split at read
    · obtain ⟨shaped, inside⟩ := Form.source_eq_ok read
      refine ⟨shaped, fun part member c found => ?_⟩
      exact List.mem_of_mem_drop (List.mem_of_mem_dropLast (inside part member c found))
    · cases read

end Sources

section Statements

variable {keyword : Keyword} {given arguments : List String} {action : Action} {line : List Char} {c : Char}

theorem mem_joined {tokens : List (List Char)} (member : c ∈ joined tokens) :
    c = ' ' ∨ ∃ token ∈ tokens, c ∈ token := by
  induction tokens with
  | nil => cases member
  | cons token rest ih =>
    by_cases more : rest = []
    · rw [more, joined_singleton] at member
      exact .inr ⟨token, List.mem_cons_self, member⟩
    · rw [joined_cons token more] at member
      grind

theorem spaced_eq (arguments : List String) :
    (Action.spaced arguments).toList = joined (arguments.map String.toList) := by
  rw [← intercalate_map_ofList, List.map_map, Action.spaced]
  simp [Function.comp_def]

theorem mem_spaced (member : c ∈ (Action.spaced arguments).toList) :
    c = ' ' ∨ ∃ argument ∈ arguments, c ∈ argument.toList := by
  rw [spaced_eq] at member
  simpa using mem_joined member

/-- What is put together from texts that are not empty is not empty. -/
theorem spaced_ne_empty (nonempty : arguments ≠ []) (written : ∀ argument ∈ arguments, argument ≠ "") :
    Action.spaced arguments ≠ "" := by
  obtain ⟨first, rest, rfl⟩ := List.exists_cons_of_ne_nil nonempty
  have begins : first.toList ≠ [] := by simpa using written first List.mem_cons_self
  rw [Ne, ← String.toList_inj, spaced_eq, List.map_cons]
  by_cases more : rest = []
  · simpa [more, joined_singleton] using begins
  · simp [joined_cons, more]

/-- An assignment has a key and a value, both of characters of the tokens. -/
theorem assignment_eq_ok (assigned : assignment keyword given = .ok arguments) :
    ∃ key value, arguments = [key, value] ∧ IsKey key ∧ value ≠ "" ∧
      WrittenIn (Action.spaced given).toList arguments := by
  unfold assignment at assigned
  split at assigned
  · cases assigned
  next left right cut =>
    obtain ⟨whole, absent⟩ := cutAt_eq_some cut
    dsimp only at assigned
    split at assigned
    · cases assigned
    next named =>
      split at assigned
      · cases assigned
      next valued =>
        cases assigned
        simp only [Bool.or_eq_true, not_or] at named
        refine ⟨_, _, rfl, ⟨?_, by simpa using named.2, ?_⟩, ?_, ?_⟩
        · simpa [← String.toList_inj] using named.1
        · simpa using fun inside => absent (mem_of_mem_trim inside)
        · simpa [← String.toList_inj] using valued
        · intro text member c inside
          change c ∈ (" ".intercalate given).toList
          rw [whole]
          simp only [List.mem_cons, List.not_mem_nil, or_false] at member
          rcases member with rfl | rfl
          · exact List.mem_append_left _ (mem_of_mem_trim (by simpa using inside))
          · exact List.mem_append_right _ (List.mem_cons_of_mem _ (mem_of_mem_trim (by simpa using inside)))

structure Stated (keyword : Keyword) (arguments : List String) : Prop where
  given : arguments ≠ []
  written : ∀ argument ∈ arguments, argument ≠ ""
  oneLine : ∀ argument ∈ arguments, OneLine argument
  key : keyword.isAssignment = true → ∃ key value, arguments = [key, value] ∧ IsKey key

theorem stated_of_ofLine (oneLine : '\n' ∉ line)
    (states : Statement.ofLine line = .ok (some (keyword, arguments))) : Stated keyword arguments := by
  obtain ⟨word, tokens, read, made⟩ := ofLine_states states
  obtain ⟨nonempty, same⟩ := ofTokens_states made
  have written : ∀ argument ∈ tokens.map String.ofList, argument ≠ "" := by
    intro argument member
    obtain ⟨token, among, rfl⟩ := List.mem_map.1 member
    simpa [← String.toList_inj] using
      (isToken_of_tokensFrom .nothing read (List.mem_cons_of_mem word among)).1
  have clear : ∀ argument ∈ tokens.map String.ofList, OneLine argument := by
    intro argument member inside
    obtain ⟨token, among, rfl⟩ := List.mem_map.1 member
    have there := mem_of_tokensFrom read (List.mem_cons_of_mem word among) (by simpa using inside)
    exact oneLine (by simpa using there)
  split at same
  · obtain ⟨key, value, rfl, named, valued, within⟩ := assignment_eq_ok same
    refine ⟨by simp, by simp [named.written, valued], within.oneLine fun inside => ?_, fun _ => ⟨key, value, rfl, named⟩⟩
    rcases mem_spaced inside with space | ⟨argument, among, broken⟩
    · cases space
    · exact clear argument among broken
  next listed =>
    subst same
    exact ⟨nonempty, written, clear, fun assigns => absurd assigns listed⟩

/-- What a keyword makes of the arguments of a line is in good shape. -/
theorem wellShaped_of_ofArguments (stated : Stated keyword arguments)
    (made : Action.ofArguments keyword arguments = .ok action) : action.WellShaped := by
  obtain ⟨given, written, oneLine, key⟩ := stated
  cases keyword with
  | connect =>
    obtain ⟨target, rfl, one⟩ := ofOne_eq_ok made
    cases read : Login.ofText target with
    | error => simp [read, Except.map] at one
    | ok login =>
      rw [read] at one
      cases one
      obtain ⟨shaped, within⟩ := Login.ofText_eq_ok read
      exact ⟨shaped, within.oneLine (oneLine target List.mem_cons_self)⟩
  | var =>
    obtain ⟨key', value, rfl, two⟩ := ofTwo_eq_ok made
    obtain ⟨_, _, same, named⟩ := key rfl
    cases same
    cases read : Source.ofText value with
    | error => simp [read, Except.map] at two
    | ok source =>
      rw [read] at two
      cases two
      obtain ⟨shaped, within⟩ := Source.ofText_eq_ok (written value (by simp)) read
      refine ⟨⟨named, shaped⟩, List.forall_mem_cons.2 ⟨oneLine _ (by simp), ?_⟩⟩
      exact within.oneLine (oneLine value (by simp))
  | env =>
    obtain ⟨key', value, rfl, two⟩ := ofTwo_eq_ok made
    obtain ⟨_, _, same, named⟩ := key rfl
    cases same
    cases two
    exact ⟨⟨named, written value (by simp)⟩, oneLine⟩
  | cd =>
    obtain ⟨target, rfl, one⟩ := ofOne_eq_ok made
    cases one
    exact ⟨written target (by simp), oneLine⟩
  | cmd =>
    have unquoted : ∀ text ∈ arguments.map fun argument => String.ofList (unquote none argument.toList),
        OneLine text := by
      intro text member inside
      obtain ⟨argument, among, rfl⟩ := List.mem_map.1 member
      exact oneLine argument among (mem_of_mem_unquote (by simpa using inside))
    rw [Action.ofArguments] at made
    split at made
    · cases made
    next program rest shape =>
      cases made
      rw [shape] at unquoted
      exact ⟨trivial, unquoted⟩
  | run =>
    rw [Action.ofArguments] at made
    split at made
    · cases made
    · cases made
      refine ⟨spaced_ne_empty given written, fun text member inside => ?_⟩
      obtain rfl := List.mem_singleton.1 member
      rcases mem_spaced inside with space | ⟨argument, among, broken⟩
      · cases space
      · exact oneLine argument among broken
  | move | copy =>
    obtain ⟨source, destination, rfl, two⟩ := ofTwo_eq_ok made
    cases two
    exact ⟨⟨written source (by simp), written destination (by simp)⟩, oneLine⟩
  | delete =>
    rw [Action.ofArguments] at made
    split at made
    · cases made
    · cases made
      exact ⟨⟨given, written⟩, oneLine⟩
  | upload | download =>
    obtain ⟨sources, destination, nonempty, rfl, rfl⟩ := ofSources_eq_ok made
    obtain ⟨named, last⟩ := List.forall_mem_append.1 written
    exact ⟨⟨nonempty, named, last destination List.mem_cons_self⟩, oneLine⟩

/-- A line that asks for an action asks for one in good shape. -/
theorem wellShaped_of_actionOf (oneLine : '\n' ∉ line) (asks : actionOf line = some (some action)) :
    action.WellShaped := by
  unfold actionOf at asks
  split at asks
  · cases asks
  · cases asks
  next keyword arguments states =>
    obtain ⟨found, made, same⟩ := Option.map_eq_some_iff.1 asks
    cases same
    refine wellShaped_of_ofArguments (stated_of_ofLine oneLine states) ?_
    cases read : Action.ofArguments keyword arguments with
    | error => simp [read, Except.toOption] at made
    | ok action => simpa [read, Except.toOption] using made

/-- Every action of a script that is accepted is in good shape. -/
theorem wellShaped_of_parse {source : String} {script : Script} (read : parse source = .ok script)
    {step : Step} (member : step ∈ script.steps) : step.action.WellShaped := by
  rw [parse_eq_ok_iff] at read
  obtain ⟨_, line, found, asks⟩ := (mem_stepsFrom_iff read step).1 member
  exact wellShaped_of_actionOf (not_mem_of_mem_splitOn (List.mem_of_getElem? found)) asks

end Statements

/-! ### What substitution leaves alone -/

/-- What a text of the world cannot change in an action. -/
structure Shape where
  keyword : Keyword
  /-- The key that an assignment sets. -/
  key : Option String := none
  port : Option UInt16 := none
  /-- How many words a command has, or how many paths a list. -/
  length : Option Nat := none
  side : Option Side := none
  deriving DecidableEq, Repr

/-- Where a variable's value comes from, and how many words a command has there. -/
def Source.shape (key : String) : Source → Shape
  | .literal _ => { keyword := .var, key := some key }
  | .environment side _ => { keyword := .var, key := some key, side := some side }
  | .command side argv => { keyword := .var, key := some key, side := some side, length := some argv.length }

def Action.shape : Action → Shape
  | .connect login => { keyword := .connect, port := some login.port }
  | .var key source => source.shape key
  | .env key _ => { keyword := .env, key := some key }
  | .cd _ => { keyword := .cd }
  | .cmd _ arguments => { keyword := .cmd, length := some arguments.length }
  | .run _ => { keyword := .run }
  | .move .. => { keyword := .move }
  | .copy .. => { keyword := .copy }
  | .delete targets => { keyword := .delete, length := some targets.length }
  | .upload sources _ => { keyword := .upload, length := some sources.length }
  | .download sources _ => { keyword := .download, length := some sources.length }

theorem Action.shape_substitute (table : Variables) (action : Action) :
    (action.substitute table).shape = action.shape := by
  cases action with
  | var key source => cases source <;> simp [Action.substitute, substituteSource, Action.shape, Source.shape]
  | _ => simp [Action.substitute, Action.shape]

end Script

end Rollout
