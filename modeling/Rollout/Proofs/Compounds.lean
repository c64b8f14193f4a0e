import Rollout.Proofs.CommandTokens
import Rollout.Shell.Command

/-!
# Commands joined by operators

Simple commands joined by `&&` and `||` make and-or lists, which associate to the left, and semicolons
put and-or lists one after another. Whatever the simple commands are, the tokens of such a text are read as
the tree that this says, and a shell that carries the tree out may find any status for each of them.
-/

namespace Rollout.Shell

/-! ### What is joined -/

/-- Words that are no command's name where a command begins. -/
def reserved : List String :=
  closers ++ ["!", "\x7b", "if", "while", "until", "for"]

/-- A simple command: words and redirections, with what its tokens say. -/
structure Simple where
  tokens : List Token
  words : List Word
  redirects : List Redirect
  read : readSimple tokens = some (words, redirects, [])
  nonempty : tokens ≠ []
  named : ∀ word ∈ head? tokens, word ∉ reserved

theorem readSimple_words (words : List Word) : readSimple (words.map .word) = some (words, [], []) := by
  induction words with
  | nil => rfl
  | cons word words ih => simp [readSimple, ih]

def Simple.ofWords (name : Word) (others : List Word) (free : ∀ text ∈ name.bare?, text ∉ reserved) : Simple where
  tokens := (name :: others).map .word
  words := name :: others
  redirects := []
  read := readSimple_words (name :: others)
  nonempty := by simp
  named := free

/-- How a simple command goes on from the one before it. -/
inductive Connective where
  | both
  | either
  deriving DecidableEq, Repr

namespace Connective

def operator : Connective → Token
  | both => .operator "&&"
  | either => .operator "||"

def join : Connective → Command → Command → Command
  | both => .both
  | either => .either

end Connective

/-- Simple commands joined by `&&` and `||`. -/
structure AndOr where
  first : Simple
  rest : List (Connective × Simple)

def Simple.tree (simple : Simple) : Command :=
  .simple simple.words simple.redirects

namespace AndOr

def tailTokens (rest : List (Connective × Simple)) : List Token :=
  rest.flatMap fun (connective, simple) => connective.operator :: simple.tokens

def tokens (list : AndOr) : List Token :=
  list.first.tokens ++ tailTokens list.rest

def treeFrom (left : Command) (rest : List (Connective × Simple)) : Command :=
  rest.foldl (fun left (connective, simple) => connective.join left simple.tree) left

def tree (list : AndOr) : Command :=
  treeFrom list.first.tree list.rest

end AndOr

/-- And-or lists joined by semicolons. -/
structure Compound where
  first : AndOr
  rest : List AndOr

namespace Compound

def tokensOf (first : AndOr) : List AndOr → List Token
  | [] => first.tokens
  | next :: rest => first.tokens ++ .operator ";" :: tokensOf next rest

def tokens (compound : Compound) : List Token :=
  tokensOf compound.first compound.rest

def treeOf (first : AndOr) : List AndOr → Command
  | [] => first.tree
  | next :: rest => .sequence first.tree (treeOf next rest)

def tree (compound : Compound) : Command :=
  treeOf compound.first compound.rest

end Compound

/-! ### Reading -/

/-- What can come after a simple command of a compound. -/
def Follows (rest : List Token) : Prop :=
  ∀ token ∈ rest.head?, token ∈ [Token.operator ";", .operator "&&", .operator "||"]

theorem follows_operator (connective : Connective) (rest : List Token) :
    Follows (connective.operator :: rest) := by
  cases connective <;> simp [Follows, Connective.operator]

/-- Nothing of what follows a simple command belongs to it. -/
theorem readSimple_follows {rest : List Token} (follows : Follows rest) :
    readSimple rest = some ([], [], rest) := by
  cases rest with
  | nil => rfl
  | cons token more =>
    have among := follows token (by simp)
    simp only [List.mem_cons, List.not_mem_nil, or_false] at among
    obtain rfl | rfl | rfl := among <;>
      rcases more with _ | ⟨_ | _ | _, more⟩ <;> simp [readSimple, redirectOf]

/-- A simple command that takes all of its tokens takes just these where something follows it. -/
theorem readSimple_append {tokens rest : List Token} {words : List Word} {redirects : List Redirect}
    (read : readSimple tokens = some (words, redirects, [])) (follows : Follows rest) :
    readSimple (tokens ++ rest) = some (words, redirects, rest) := by
  fun_induction readSimple tokens generalizing words redirects with
  | case1 number operator target more redirect known ih =>
    obtain ⟨⟨others, rest', left⟩, read, same⟩ := Option.map_eq_some_iff.1 read
    obtain ⟨rfl, rfl, rfl⟩ : others = words ∧ redirect :: rest' = redirects ∧ left = [] := by
      simpa using same
    simp [readSimple, known, ih read]
  | case2 => simp at read
  | case3 operator target more redirect known ih =>
    obtain ⟨⟨others, rest', left⟩, read, same⟩ := Option.map_eq_some_iff.1 read
    obtain ⟨rfl, rfl, rfl⟩ : others = words ∧ redirect :: rest' = redirects ∧ left = [] := by
      simpa using same
    simp [readSimple, known, ih read]
  | case4 => simp at read
  | case5 word more ih =>
    obtain ⟨⟨others, rest', left⟩, read, same⟩ := Option.map_eq_some_iff.1 read
    obtain ⟨rfl, rfl, rfl⟩ : word :: others = words ∧ rest' = redirects ∧ left = [] := by
      simpa using same
    simp [readSimple, ih read]
  | case6 tokens _ _ _ =>
    obtain ⟨rfl, rfl, rfl⟩ : [] = words ∧ [] = redirects ∧ tokens = [] := by simpa using read
    exact readSimple_follows follows

/-- A simple command begins with a word, or with what a redirection begins with. -/
theorem Simple.head_cases (simple : Simple) :
    ∃ token more, simple.tokens = token :: more ∧
      ((∃ word, token = .word word) ∨ (∃ number, token = .descriptor number) ∨
        ∃ text ∈ ["<", ">", ">>", ">&"], token = .operator text) := by
  obtain ⟨tokens, words, redirects, read, nonempty, -⟩ := simple
  obtain ⟨token, more, rfl⟩ := List.exists_cons_of_ne_nil nonempty
  refine ⟨token, more, rfl, ?_⟩
  match token with
  | .word word => exact .inl ⟨word, rfl⟩
  | .descriptor number => exact .inr (.inl ⟨number, rfl⟩)
  | .operator text =>
    refine .inr (.inr ⟨text, ?_, rfl⟩)
    unfold readSimple at read
    unfold redirectOf at read
    grind

theorem Simple.head?_append (simple : Simple) (rest : List Token) :
    head? (simple.tokens ++ rest) = head? simple.tokens := by
  obtain ⟨token, more, eq, -⟩ := simple.head_cases
  rw [eq]
  cases token <;> rfl

theorem Simple.not_reserved (simple : Simple) {word : String} (among : word ∈ reserved) :
    head? simple.tokens ≠ some word :=
  fun same => simple.named word same among

theorem eq_nil_of_readSimple {tokens : List Token} (read : readSimple tokens = some ([], [], [])) :
    tokens = [] := by
  fun_cases readSimple tokens <;> simp_all [readSimple]

theorem Simple.not_operator (simple : Simple) {text : String} (apart : text ∉ ["<", ">", ">>", ">&"])
    (rest more : List Token) : simple.tokens ++ rest ≠ .operator text :: more := by
  obtain ⟨token, others, eq, kind⟩ := simple.head_cases
  rw [eq]
  intro same
  obtain rfl := (List.cons.inj same).1
  obtain ⟨word, same⟩ | ⟨number, same⟩ | ⟨text', among, same⟩ := kind
  · exact Token.noConfusion same
  · exact Token.noConfusion same
  · exact apart (Token.operator.inj same ▸ among)

theorem Simple.skipNewlines_append (simple : Simple) (rest : List Token) :
    skipNewlines (simple.tokens ++ rest) = simple.tokens ++ rest := by
  rw [skipNewlines]
  exact simple.not_operator (by decide) rest

theorem Simple.skipSeparators_append (simple : Simple) (rest : List Token) :
    skipSeparators (simple.tokens ++ rest) = simple.tokens ++ rest := by
  rw [skipSeparators]
  · exact simple.not_operator (by decide) rest
  · exact simple.not_operator (by decide) rest

/-- Where a simple command begins, no compound one does. -/
theorem readCommand_simple (simple : Simple) {rest : List Token} (follows : Follows rest) (fuel : Nat) :
    readCommand (fuel + 1) (simple.tokens ++ rest) = some (simple.tree, rest) := by
  have taken := readSimple_append simple.read follows
  have holds : simple.words = [] → simple.redirects ≠ [] := by
    intro noWords noRedirects
    have read := simple.read
    rw [noWords, noRedirects] at read
    exact simple.nonempty (eq_nil_of_readSimple read)
  have free (word : String) (among : word ∈ reserved) : head? (simple.tokens ++ rest) ≠ some word := by
    rw [simple.head?_append]
    exact simple.not_reserved among
  rw [readCommand]
  · split
    case h_1 same => exact absurd same (free _ (by decide))
    case h_2 same => exact absurd same (free _ (by decide))
    case h_3 same => exact absurd same (free _ (by decide))
    case h_4 same => exact absurd same (free _ (by decide))
    case h_5 same => exact absurd same (free _ (by decide))
    case h_6 => simpa [taken, Simple.tree] using holds
  · exact simple.not_operator (by decide) rest

/-- A simple command of a compound is a pipeline by itself. -/
theorem readPipeline_simple (simple : Simple) {rest : List Token} (follows : Follows rest) (fuel : Nat) :
    readPipeline (fuel + 2) (simple.tokens ++ rest) = some (simple.tree, rest) := by
  have positive : head? (simple.tokens ++ rest) ≠ some "!" := by
    rw [simple.head?_append]
    exact simple.not_reserved (by decide)
  have noPipe (more : List Token) : rest ≠ .operator "|" :: more := by
    rintro rfl
    simpa using follows (.operator "|") (by simp)
  rw [readPipeline, if_neg positive, readCommand_simple simple follows]
  grind

/-- What can come after an and-or list of a compound. -/
def Closes (rest : List Token) : Prop :=
  ∀ token ∈ rest.head?, token = .operator ";"

theorem Closes.follows {rest : List Token} (closes : Closes rest) : Follows rest := by
  intro token head
  simp [closes token head]

theorem follows_tailTokens (list : List (Connective × Simple)) {rest : List Token} (closes : Closes rest) :
    Follows (AndOr.tailTokens list ++ rest) := by
  cases list with
  | nil => exact closes.follows
  | cons next list => exact follows_operator next.1 _

/-- The rest of an and-or list is joined to what is to its left. -/
theorem readAndOrAfter_tailTokens (list : List (Connective × Simple)) {rest : List Token}
    (closes : Closes rest) {fuel : Nat} (enough : list.length + 3 ≤ fuel) (left : Command) :
    readAndOrAfter fuel left (AndOr.tailTokens list ++ rest) = some (AndOr.treeFrom left list, rest) := by
  induction list generalizing left fuel with
  | nil =>
    obtain ⟨fuel, rfl⟩ : ∃ n, fuel = n + 1 := ⟨fuel - 1, by omega⟩
    have noBoth (more : List Token) : rest ≠ .operator "&&" :: more := by
      rintro rfl
      simpa using closes (.operator "&&") (by simp)
    have noEither (more : List Token) : rest ≠ .operator "||" :: more := by
      rintro rfl
      simpa using closes (.operator "||") (by simp)
    simp [AndOr.tailTokens, AndOr.treeFrom, readAndOrAfter, noBoth, noEither]
  | cons next list ih =>
    obtain ⟨connective, simple⟩ := next
    obtain ⟨fuel, rfl⟩ : ∃ n, fuel = n + 3 := ⟨fuel - 3, by simp only [List.length_cons] at enough; omega⟩
    have after : AndOr.tailTokens ((connective, simple) :: list) ++ rest =
        connective.operator :: (simple.tokens ++ (AndOr.tailTokens list ++ rest)) := by
      simp [AndOr.tailTokens]
    have next := readPipeline_simple simple (follows_tailTokens list closes) fuel
    have enough' : list.length + 3 ≤ fuel + 2 := by
      simp only [List.length_cons] at enough
      omega
    have onward := ih enough' (connective.join left simple.tree)
    rw [after]
    cases connective with
    | both =>
      rw [Connective.operator, readAndOrAfter, simple.skipNewlines_append, next]
      exact onward
    | either =>
      rw [Connective.operator, readAndOrAfter, simple.skipNewlines_append, next]
      exact onward

theorem readAndOr_tokens (list : AndOr) {rest : List Token} (closes : Closes rest) {fuel : Nat}
    (enough : list.rest.length + 4 ≤ fuel) :
    readAndOr fuel (list.tokens ++ rest) = some (list.tree, rest) := by
  obtain ⟨fuel, rfl⟩ : ∃ n, fuel = n + 3 := ⟨fuel - 3, by omega⟩
  rw [readAndOr, AndOr.tokens, List.append_assoc,
    readPipeline_simple list.first (follows_tailTokens list.rest closes) fuel]
  exact readAndOrAfter_tailTokens list.rest closes (by omega) list.first.tree

/-- No list of commands is over where a simple command begins. -/
theorem Simple.not_over (simple : Simple) (rest : List Token) :
    ¬ ((simple.tokens ++ rest).isEmpty || closers.contains ((head? (simple.tokens ++ rest)).getD "") ||
        (simple.tokens ++ rest).head? = some (.operator ")")) = true := by
  have notClosed : simple.tokens.head? ≠ some (.operator ")") := by
    intro head
    obtain ⟨more, same⟩ := List.head?_eq_some_iff.1 head
    have apart : ")" ∉ ["<", ">", ">>", ">&"] := by decide
    exact simple.not_operator apart [] more (by rw [List.append_nil, same])
  have notCloser : (head? simple.tokens).getD "" ∉ closers := by
    cases name : head? simple.tokens with
    | none => decide
    | some word => exact fun among => simple.not_reserved (List.mem_append_left _ among) name
  simp [simple.nonempty, notClosed, simple.head?_append, notCloser]

/-- Reading a list of commands begins with its first and-or list. -/
theorem readList_tokens (list : AndOr) {rest : List Token} (closes : Closes rest) {fuel : Nat}
    (enough : list.rest.length + 4 ≤ fuel) :
    readList (fuel + 1) (list.tokens ++ rest) =
      if rest.isEmpty then some (list.tree, [])
      else (readList fuel rest.tail).map fun (others, rest) => (.sequence list.tree others, rest) := by
  have whole : list.tokens ++ rest = list.first.tokens ++ (AndOr.tailTokens list.rest ++ rest) := by
    rw [AndOr.tokens, List.append_assoc]
  have first := readAndOr_tokens list closes enough
  rw [whole] at first ⊢
  rw [readList]
  simp only [list.first.skipSeparators_append]
  rw [if_neg (list.first.not_over _), first]
  cases rest with
  | nil => rfl
  | cons token more =>
    obtain rfl := closes token (by simp)
    cases read : readList fuel more <;> simp [read]

theorem AndOr.length_rest_lt (list : AndOr) : list.rest.length < list.tokens.length := by
  have first : 0 < list.first.tokens.length := List.length_pos_iff.2 list.first.nonempty
  have rest : list.rest.length ≤ (tailTokens list.rest).length := by
    induction list.rest with
    | nil => simp
    | cons next rest ih =>
      simp only [tailTokens, List.flatMap_cons, List.length_append, List.length_cons] at ih ⊢
      omega
  rw [tokens, List.length_append]
  omega

/-- The tokens of a compound are read as its tree, and nothing is left of them. -/
theorem readList_tokensOf (first : AndOr) (rest : List AndOr) {fuel : Nat}
    (enough : (Compound.tokensOf first rest).length + 5 ≤ fuel) :
    readList fuel (Compound.tokensOf first rest) = some (Compound.treeOf first rest, []) := by
  have short := first.length_rest_lt
  obtain ⟨fuel, rfl⟩ : ∃ n, fuel = n + 1 := ⟨fuel - 1, by omega⟩
  induction rest generalizing first fuel with
  | nil =>
    rw [Compound.tokensOf] at enough ⊢
    rw [← List.append_nil first.tokens]
    rw [readList_tokens first (by simp [Closes]) (by omega)]
    rfl
  | cons next rest ih =>
    rw [Compound.tokensOf, List.length_append, List.length_cons] at enough
    obtain ⟨fuel, rfl⟩ : ∃ n, fuel = n + 1 := ⟨fuel - 1, by omega⟩
    have others := ih next next.length_rest_lt fuel (by omega)
    rw [Compound.tokensOf, readList_tokens first (by simp [Closes]) (by omega), List.tail_cons, others]
    rfl

/-- A text whose tokens are those of a compound holds the compound. -/
theorem parse_of_tokens {text : List Char} {compound : Compound}
    (read : Shell.tokens text = some compound.tokens) : parse text = some compound.tree := by
  have enough : compound.tokens.length + 5 ≤ 8 * (compound.tokens.length + 1) := by omega
  have whole : readList (8 * (compound.tokens.length + 1)) compound.tokens = some (compound.tree, []) :=
    readList_tokensOf compound.first compound.rest enough
  rw [parse, read]
  simp only [whole]

/-! ### Carrying out -/

/-- How a simple command ends: with a status, or so that the shell passes over what comes next, as after
`exit`. -/
inductive Outcome where
  | status (code : Nat)
  | stopped
  deriving DecidableEq, Repr

/-- A simple command that was executed, and how it ended. -/
structure Executed where
  words : List Word
  redirects : List Redirect
  outcome : Outcome
  deriving DecidableEq, Repr

/-- A shell that carries out a command may execute these simple commands, with these outcomes, and end
so. Any simple command may have any outcome. -/
inductive Runs : Command → List Executed → Outcome → Prop where
  | simple (words : List Word) (redirects : List Redirect) (outcome : Outcome) :
    Runs (.simple words redirects) [⟨words, redirects, outcome⟩] outcome
  | both {left right : Command} {first second : List Executed} {after : Outcome} :
    Runs left first (.status 0) → Runs right second after → Runs (.both left right) (first ++ second) after
  | bothPassed {left right : Command} {first : List Executed} {before : Outcome} :
    Runs left first before → before ≠ .status 0 → Runs (.both left right) first before
  | either {left right : Command} {first second : List Executed} {code : Nat} {after : Outcome} :
    Runs left first (.status (code + 1)) → Runs right second after →
    Runs (.either left right) (first ++ second) after
  | eitherPassed {left right : Command} {first : List Executed} {before : Outcome} :
    Runs left first before → (∀ code, before ≠ .status (code + 1)) → Runs (.either left right) first before
  | sequence {left right : Command} {first second : List Executed} {code : Nat} {after : Outcome} :
    Runs left first (.status code) → Runs right second after →
    Runs (.sequence left right) (first ++ second) after
  | sequenceStopped {left right : Command} {first : List Executed} :
    Runs left first .stopped → Runs (.sequence left right) first .stopped

/-- Whether a shell goes on with what a connective joins, after what stands before it. -/
def Connective.GoesOn : Connective → Outcome → Prop
  | both, outcome => outcome = .status 0
  | either, outcome => ∃ code, outcome = .status (code + 1)

/-- What is executed of the rest of an and-or list, from left to right, after the outcome so far. -/
inductive Continues : Outcome → List (Connective × Simple) → List Executed → Outcome → Prop where
  | done (outcome : Outcome) : Continues outcome [] [] outcome
  | taken {before after : Outcome} {connective : Connective} {simple : Simple} (outcome : Outcome)
      {rest : List (Connective × Simple)} {more : List Executed} :
    connective.GoesOn before → Continues outcome rest more after →
    Continues before ((connective, simple) :: rest) (⟨simple.words, simple.redirects, outcome⟩ :: more) after
  | passed {before after : Outcome} {connective : Connective} {simple : Simple}
      {rest : List (Connective × Simple)} {more : List Executed} :
    ¬ connective.GoesOn before → Continues before rest more after →
    Continues before ((connective, simple) :: rest) more after

theorem runs_simple_iff {simple : Simple} {executed : List Executed} {outcome : Outcome} :
    Runs simple.tree executed outcome ↔ executed = [⟨simple.words, simple.redirects, outcome⟩] := by
  constructor
  · rintro ⟨⟩
    rfl
  · rintro rfl
    exact .simple simple.words simple.redirects outcome

theorem runs_join_iff {connective : Connective} {left right : Command} {executed : List Executed}
    {outcome : Outcome} :
    Runs (connective.join left right) executed outcome ↔
      (∃ first second before, Runs left first before ∧ connective.GoesOn before ∧
        Runs right second outcome ∧ executed = first ++ second) ∨
      (Runs left executed outcome ∧ ¬ connective.GoesOn outcome) := by
  constructor
  · intro run
    cases connective with
    | both =>
      cases run with
      | both first second => exact .inl ⟨_, _, _, first, rfl, second, rfl⟩
      | bothPassed first failed => exact .inr ⟨first, failed⟩
    | either =>
      cases run with
      | either first second => exact .inl ⟨_, _, _, first, ⟨_, rfl⟩, second, rfl⟩
      | eitherPassed first succeeded => exact .inr ⟨first, fun ⟨code, same⟩ => succeeded code same⟩
  · rintro (⟨first, second, before, run, goesOn, rest, rfl⟩ | ⟨run, passed⟩)
    · cases connective with
      | both =>
        obtain rfl := goesOn
        exact .both run rest
      | either =>
        obtain ⟨code, rfl⟩ := goesOn
        exact .either run rest
    · cases connective with
      | both => exact .bothPassed run passed
      | either => exact .eitherPassed run fun code same => passed ⟨code, same⟩

/-- An and-or list is carried out from left to right: what stands to the left first, and then each of the
others or not, as the last outcome says. -/
theorem runs_treeFrom_iff {left : Command} {rest : List (Connective × Simple)} {executed : List Executed}
    {outcome : Outcome} :
    Runs (AndOr.treeFrom left rest) executed outcome ↔
      ∃ first more before, Runs left first before ∧ Continues before rest more outcome ∧
        executed = first ++ more := by
  induction rest generalizing left executed with
  | nil =>
    constructor
    · exact fun run => ⟨executed, [], outcome, run, .done outcome, by simp⟩
    · rintro ⟨first, more, before, run, ⟨⟩, rfl⟩
      rwa [List.append_nil]
  | cons next rest ih =>
    obtain ⟨connective, simple⟩ := next
    rw [AndOr.treeFrom, List.foldl_cons, ← AndOr.treeFrom, ih]
    constructor
    · rintro ⟨first, more, before, run, onward, rfl⟩
      obtain ⟨start, second, between, begun, goesOn, next, rfl⟩ | ⟨begun, passed⟩ := runs_join_iff.1 run
      · obtain rfl := runs_simple_iff.1 next
        exact ⟨start, _, between, begun, .taken before goesOn onward, by simp⟩
      · exact ⟨first, more, before, begun, .passed passed onward, rfl⟩
    · rintro ⟨first, more, before, run, onward, rfl⟩
      cases onward with
      | taken result goesOn onward =>
        exact ⟨_, _, result, runs_join_iff.2 (.inl ⟨_, _, _, run, goesOn, runs_simple_iff.2 rfl, rfl⟩),
          onward, by simp⟩
      | passed passed onward => exact ⟨first, more, before, runs_join_iff.2 (.inr ⟨run, passed⟩), onward, rfl⟩

theorem runs_andOr_iff {list : AndOr} {executed : List Executed} {outcome : Outcome} :
    Runs list.tree executed outcome ↔
      ∃ result more, Continues result list.rest more outcome ∧
        executed = ⟨list.first.words, list.first.redirects, result⟩ :: more := by
  rw [AndOr.tree, runs_treeFrom_iff]
  constructor
  · rintro ⟨first, more, before, run, onward, rfl⟩
    obtain rfl := runs_simple_iff.1 run
    exact ⟨before, more, onward, rfl⟩
  · rintro ⟨result, more, onward, rfl⟩
    exact ⟨_, more, result, runs_simple_iff.2 rfl, onward, rfl⟩

/-- Any and-or list can be carried out without the shell being stopped. -/
theorem exists_continues (rest : List (Connective × Simple)) (code : Nat) :
    ∃ more final, Continues (.status code) rest more (.status final) := by
  induction rest generalizing code with
  | nil => exact ⟨[], code, .done _⟩
  | cons next rest ih =>
    obtain ⟨connective, simple⟩ := next
    by_cases goesOn : connective.GoesOn (.status code)
    · obtain ⟨more, final, onward⟩ := ih 0
      exact ⟨_, final, .taken (.status 0) goesOn onward⟩
    · obtain ⟨more, final, onward⟩ := ih code
      exact ⟨more, final, .passed goesOn onward⟩

theorem exists_runs (first : AndOr) (rest : List AndOr) :
    ∃ executed final, Runs (Compound.treeOf first rest) executed (.status final) ∧ executed ≠ [] := by
  induction rest generalizing first with
  | nil =>
    obtain ⟨more, final, onward⟩ := exists_continues first.rest 0
    exact ⟨_, final, runs_andOr_iff.2 ⟨.status 0, more, onward, rfl⟩, by simp⟩
  | cons next rest ih =>
    obtain ⟨more, code, onward⟩ := exists_continues first.rest 0
    obtain ⟨others, final, run, -⟩ := ih next
    exact ⟨_, final, .sequence (runs_andOr_iff.2 ⟨.status 0, more, onward, rfl⟩) run, by simp⟩

/-! ### Commands before a compound -/

namespace Compound

def prepend (simple : Simple) (compound : Compound) : Compound :=
  ⟨⟨simple, []⟩, compound.first :: compound.rest⟩

/-- The compound after a simple command and `&&`, which joins its first simple command only. -/
def guarded (guard : Simple) (compound : Compound) : Compound :=
  ⟨⟨guard, (.both, compound.first.first) :: compound.first.rest⟩, compound.rest⟩

theorem tokens_prepend (simple : Simple) (compound : Compound) :
    (compound.prepend simple).tokens = simple.tokens ++ .operator ";" :: compound.tokens := by
  simp [prepend, tokens, tokensOf, AndOr.tokens, AndOr.tailTokens]

theorem tree_prepend (simple : Simple) (compound : Compound) :
    (compound.prepend simple).tree = .sequence simple.tree compound.tree := rfl

theorem tokens_guarded (guard : Simple) (compound : Compound) :
    (compound.guarded guard).tokens = guard.tokens ++ .operator "&&" :: compound.tokens := by
  obtain ⟨first, rest⟩ := compound
  cases rest <;>
    simp [guarded, tokens, tokensOf, AndOr.tokens, AndOr.tailTokens, Connective.operator]

/-- A shell carries out the commands before a compound one after another, and then the compound, unless one
of them stops it. -/
theorem runs_prepended {simples : List Simple} {compound : Compound} {executed : List Executed}
    {outcome : Outcome} (run : Runs (simples.foldr prepend compound).tree executed outcome) :
    executed.length ≤ simples.length ∨
      ∃ before more, executed = before ++ more ∧ before.map (·.words) = simples.map (·.words) ∧
        Runs compound.tree more outcome := by
  induction simples generalizing executed with
  | nil => exact .inr ⟨[], executed, rfl, rfl, run⟩
  | cons simple simples ih =>
    rw [List.foldr_cons, tree_prepend] at run
    cases run with
    | sequence first second =>
      obtain rfl := runs_simple_iff.1 first
      obtain short | ⟨before, more, rfl, words, run⟩ := ih second
      · exact .inl (by simpa using short)
      · exact .inr ⟨_ :: before, more, rfl, by simp [words], run⟩
    | sequenceStopped first =>
      obtain rfl := runs_simple_iff.1 first
      exact .inl (by simp)

theorem exists_prepended (simples : List Simple) {compound : Compound} {executed : List Executed}
    {outcome : Outcome} (run : Runs compound.tree executed outcome) :
    ∃ before, before.length = simples.length ∧
      Runs (simples.foldr prepend compound).tree (before ++ executed) outcome := by
  induction simples with
  | nil => exact ⟨[], rfl, run⟩
  | cons simple simples ih =>
    obtain ⟨before, length, run⟩ := ih
    refine ⟨⟨simple.words, simple.redirects, .status 0⟩ :: before, by simp [length], ?_⟩
    have first : Runs simple.tree [⟨simple.words, simple.redirects, .status 0⟩] (.status 0) :=
      runs_simple_iff.2 rfl
    exact first.sequence run

end Compound

/-- Where every connective is `&&`, nothing comes after a failure. -/
theorem Continues.failed {before after : Outcome} {rest : List (Connective × Simple)} {more : List Executed}
    (onward : Continues before rest more after) (failed : before ≠ .status 0)
    (guards : ∀ next ∈ rest, next.1 = .both) : more = [] := by
  induction onward with
  | done => rfl
  | @taken before _ connective simple _ _ _ goesOn _ _ =>
    obtain rfl : connective = .both := guards (connective, simple) (by simp)
    exact absurd goesOn failed
  | passed _ _ ih => exact ih failed fun next member => guards next (by simp [member])

/-- One `||` is enough for something to come after a failure. -/
theorem exists_continues_failed {rest : List (Connective × Simple)} (code : Nat)
    (way : ∃ next ∈ rest, next.1 = .either) :
    ∃ more final, Continues (.status (code + 1)) rest more (.status final) ∧ more ≠ [] := by
  induction rest with
  | nil => simp at way
  | cons next rest ih =>
    obtain ⟨connective, simple⟩ := next
    cases connective with
    | either =>
      obtain ⟨more, final, onward⟩ := exists_continues rest 0
      exact ⟨_, final, .taken (.status 0) ⟨code, rfl⟩ onward, by simp⟩
    | both =>
      obtain ⟨more, final, onward, nonempty⟩ := ih (by simpa using way)
      exact ⟨more, final, .passed (by simp [Connective.GoesOn]) onward, nonempty⟩

/-- A guard keeps a whole compound back exactly if the compound is one and-or list and its connectives are
all `&&`. -/
theorem Compound.guarded_iff (guard : Simple) (compound : Compound) :
    (∀ executed outcome result, Runs (compound.guarded guard).tree executed outcome →
      executed.head? = some ⟨guard.words, guard.redirects, result⟩ → result ≠ .status 0 →
      executed.length = 1) ↔
    compound.rest = [] ∧ ∀ next ∈ compound.first.rest, next.1 = .both := by
  obtain ⟨⟨first, others⟩, rest⟩ := compound
  constructor
  · intro kept
    have started {more : List Executed} {code : Nat}
        (onward : Continues (.status 1) ((.both, first) :: others) more (.status code)) :
        Runs (AndOr.tree ⟨guard, (.both, first) :: others⟩)
          (⟨guard.words, guard.redirects, .status 1⟩ :: more) (.status code) :=
      runs_andOr_iff.2 ⟨_, more, onward, rfl⟩
    cases rest with
    | cons next rest =>
      -- The semicolon is reached, whatever came before it.
      obtain ⟨more, code, onward⟩ := exists_continues ((.both, first) :: others) 1
      obtain ⟨after, final, run, nonempty⟩ := exists_runs next rest
      have length := kept _ _ (.status 1) (.sequence (started onward) run) rfl (by simp)
      simp [nonempty] at length
    | nil =>
      refine ⟨rfl, fun next member => ?_⟩
      match way : next.1 with
      | .both => rfl
      | .either =>
        obtain ⟨more, code, onward, nonempty⟩ := exists_continues_failed 0 ⟨next, member, way⟩
        have length := kept _ _ (.status 1) (started (.passed (by simp [Connective.GoesOn]) onward)) rfl
          (by simp)
        simp [nonempty] at length
  · rintro ⟨rfl, guards⟩ executed outcome result run head failed
    obtain ⟨result', more, onward, rfl⟩ := runs_andOr_iff.1 run
    obtain rfl : result' = result := congrArg Executed.outcome (Option.some.inj head)
    have nothing := onward.failed failed fun next member => by
      obtain rfl | member := List.mem_cons.1 member
      · rfl
      · exact guards next member
    simp [nothing]

end Rollout.Shell
