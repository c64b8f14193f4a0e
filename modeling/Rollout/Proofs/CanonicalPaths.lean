import Mathlib.Logic.Function.Iterate
import Rollout.Proofs.Layout

/-!
# The canonical form of a path

Cleaning keeps a stack of segments, which is always some steps up with names after them, and an absolute
path has no steps up. So a cleaned path has one form, and cleaning it again changes nothing.

The stack also says where a path leads: up from the directory in which the path is followed, once for each
step up, and down along the names. A segment that changes the place changes the stack in the same way, so in a
tree without links a path and its cleaned form lead to the same place.
-/

namespace Rollout

open Rollout.Text

/-! ### Places in a tree -/

namespace Tree

variable {tree : Tree} {place : Place} {name : List Char}

/-- What has an entry is a directory. -/
theorem at?_of_entry (there : (tree.at? (place ++ [name])).isSome = true) :
    tree.at? place = some .directory := by
  induction place generalizing tree with
  | nil =>
    cases tree with
    | file => simp [at?] at there
    | directory => rfl
  | cons first rest ih =>
    cases tree with
    | file => simp [at?] at there
    | directory entries =>
      rw [List.cons_append, at?] at there
      rw [at?]
      cases looked : entries.lookup (String.ofList first) with
      | none => simp [looked] at there
      | some entry =>
        rw [looked] at there
        exact ih there

/-- Above what is there, there are directories. -/
theorem at?_dropLast (inner : place ≠ []) (there : (tree.at? place).isSome = true) :
    tree.at? place.dropLast = some .directory := by
  obtain ⟨above, name, rfl⟩ := List.eq_nil_or_concat place |>.resolve_left inner
  rw [List.concat_eq_append] at there ⊢
  rw [List.dropLast_concat]
  exact at?_of_entry there

theorem isSome_at?_dropLast (there : (tree.at? place).isSome = true) :
    (tree.at? place.dropLast).isSome = true := by
  by_cases root : place = []
  · rwa [root] at there ⊢
  · rw [at?_dropLast root there]
    rfl

theorem isSome_at?_of_append {below : Place} (there : (tree.at? (place ++ below)).isSome = true) :
    (tree.at? place).isSome = true := by
  induction below using List.reverseRecOn with
  | nil => rwa [List.append_nil] at there
  | append_singleton below name ih =>
    rw [← List.append_assoc] at there
    exact ih (by rw [at?_of_entry there]; rfl)

/-- The root is above every directory, and is one. -/
theorem at?_nil_of_directory (directory : tree.at? place = some .directory) : tree.at? [] = some .directory := by
  cases tree with
  | file => cases place <;> simp [at?, standing] at directory
  | directory => rfl

/-- Where one segment leads from a place. A segment that stays, and one that goes up, may or may not be asked
of a directory only; a name leads to an entry that is there. -/
inductive Steps (tree : Tree) (strict : Bool) : Place → List Char → Place → Prop
  | stay {place : Place} {segment : List Char} (stays : segment = [] ∨ segment = ['.'])
      (allowed : strict = true → tree.at? place = some .directory) : Steps tree strict place segment place
  | up {place : Place} (allowed : strict = true → tree.at? place = some .directory) :
      Steps tree strict place ['.', '.'] place.dropLast
  | down {place : Place} {name : List Char} (named : IsName name)
      (there : (tree.at? (place ++ [name])).isSome = true) : Steps tree strict place name (place ++ [name])

/-- Where segments lead from a place, one after the other. -/
inductive Walks (tree : Tree) (strict : Bool) : Place → List (List Char) → Place → Prop
  | here (place : Place) : Walks tree strict place [] place
  | next {place between final : Place} {segment : List Char} {rest : List (List Char)}
      (first : Steps tree strict place segment between) (others : Walks tree strict between rest final) :
      Walks tree strict place (segment :: rest) final

/-- A path leads to a place of the tree: an absolute path from the root, any other path from the directory in
which it is followed. -/
def Resolves (tree : Tree) (strict : Bool) (start : Place) (path : String) (place : Place) : Prop :=
  Walks tree strict (if RemotePath.isAbsolute path.toList then [] else start) (splitOn '/' path.toList) place

end Tree

namespace RemotePath

/-! ### Stacks -/

abbrev stepUp : List Char := ['.', '.']

/-- The stack with so many steps up and the names after them. -/
def stacked (ups : Nat) (names : Place) : List (List Char) :=
  names.reverse ++ List.replicate ups stepUp

/-- The steps up, of which an absolute path has none, and the names that a stack can consist of. -/
structure IsStack (absolute : Bool) (ups : Nat) (names : Place) : Prop where
  named : ∀ name ∈ names, IsName name
  rooted : absolute = true → ups = 0

section Stacks

variable {absolute : Bool} {ups : Nat} {names : Place} {name segment : List Char}
  {stack : List (List Char)}

theorem stacked_concat (ups : Nat) (names : Place) (name : List Char) :
    stacked ups (names ++ [name]) = name :: stacked ups names := by
  simp [stacked]

theorem push_stay (stays : segment = [] ∨ segment = ['.']) : push absolute stack segment = stack :=
  if_pos stays

/-- A step up takes the name before it away. -/
theorem push_stepUp_name (named : IsName name) : push absolute (name :: stack) stepUp = stack := by
  simp [push, named.notAbove]

/-- Above the root there is nothing. -/
theorem push_stepUp_root : push true [] stepUp = [] := by
  simp [push]

/-- A relative path keeps the steps up that it begins with. -/
theorem push_stepUp_stepUp (ups : Nat) : push false (stacked ups []) stepUp = stacked (ups + 1) [] := by
  cases ups <;> simp [push, stacked, List.replicate_succ]

theorem isStack_nil (absolute : Bool) : IsStack absolute 0 [] :=
  ⟨by simp, fun _ => rfl⟩

theorem IsStack.concat (isStack : IsStack absolute ups names) (named : IsName name) :
    IsStack absolute ups (names ++ [name]) :=
  ⟨by simpa [or_imp, forall_and] using ⟨isStack.named, named⟩, isStack.rooted⟩

theorem IsStack.of_concat (isStack : IsStack absolute ups (names ++ [name])) : IsStack absolute ups names :=
  ⟨fun part member => isStack.named part (List.mem_append_left _ member), isStack.rooted⟩

/-- One segment: a stack stays one. -/
theorem IsStack.push_segment (isStack : IsStack absolute ups names) (single : '/' ∉ segment) :
    ∃ ups' names', push absolute (stacked ups names) segment = stacked ups' names' ∧
      IsStack absolute ups' names' := by
  by_cases stays : segment = [] ∨ segment = ['.']
  · exact ⟨ups, names, push_stay stays, isStack⟩
  by_cases goesUp : segment = stepUp
  · subst goesUp
    rcases List.eq_nil_or_concat names with rfl | ⟨before, last, rfl⟩
    · cases absolute with
      | true =>
        obtain rfl := isStack.rooted rfl
        exact ⟨0, [], push_stepUp_root, isStack⟩
      | false => exact ⟨ups + 1, [], push_stepUp_stepUp ups, by simp, by simp⟩
    · rw [List.concat_eq_append] at isStack ⊢
      refine ⟨ups, before, ?_, isStack.of_concat⟩
      rw [stacked_concat, push_stepUp_name (isStack.named last (by simp))]
  · rw [not_or] at stays
    have named : IsName segment := ⟨stays.1, stays.2, goesUp, single⟩
    exact ⟨ups, names ++ [segment], by rw [push_name named, stacked_concat], isStack.concat named⟩

/-- All segments: what is stacked is a stack. -/
theorem IsStack.push_segments (isStack : IsStack absolute ups names) (segments : List (List Char))
    (single : ∀ segment ∈ segments, '/' ∉ segment) :
    ∃ ups' names', segments.foldl (push absolute) (stacked ups names) = stacked ups' names' ∧
      IsStack absolute ups' names' := by
  induction segments generalizing ups names with
  | nil => exact ⟨ups, names, rfl, isStack⟩
  | cons segment rest ih =>
    obtain ⟨here, later⟩ := List.forall_mem_cons.1 single
    obtain ⟨ups', names', pushed, isStack'⟩ := isStack.push_segment here
    rw [List.foldl_cons, pushed]
    exact ih isStack' later

/-- A path comes down to steps up, of which an absolute path has none, and names. -/
theorem exists_parts (path : List Char) : ∃ ups names,
    parts path = List.replicate ups stepUp ++ names ∧ IsStack (isAbsolute path) ups names := by
  obtain ⟨ups, names, pushed, isStack⟩ := (isStack_nil (isAbsolute path)).push_segments
    (splitOn '/' path) fun _ => not_mem_of_mem_splitOn
  refine ⟨ups, names, ?_, isStack⟩
  have whole : parts path = (stacked ups names).reverse := congrArg List.reverse pushed
  simpa [stacked] using whole

/-- Steps up and names are stacked as they come. -/
theorem IsStack.push_parts (isStack : IsStack absolute ups names) :
    (List.replicate ups stepUp ++ names).foldl (push absolute) [] = stacked ups names := by
  have raised : (List.replicate ups stepUp).foldl (push absolute) [] = stacked ups [] := by
    cases absolute with
    | true =>
      obtain rfl := isStack.rooted rfl
      rfl
    | false =>
      clear isStack
      induction ups with
      | zero => rfl
      | succ ups ih =>
        rw [List.replicate_succ', List.foldl_append, ih]
        exact push_stepUp_stepUp ups
  rw [List.foldl_append, raised, foldl_push isStack.named]
  simp [stacked]

theorem foldl_push_stays {stays : List (List Char)} (each : ∀ segment ∈ stays, segment = [] ∨ segment = ['.']) :
    stays.foldl (push absolute) stack = stack := by
  induction stays with
  | nil => rfl
  | cons segment rest ih =>
    obtain ⟨here, later⟩ := List.forall_mem_cons.1 each
    rw [List.foldl_cons, push_stay here, ih later]

end Stacks

/-! ### The text of a cleaned path -/

section Texts

variable {absolute : Bool} {ups : Nat} {names : Place} {path : String}

theorem IsStack.clear (isStack : IsStack absolute ups names) :
    ∀ segment ∈ List.replicate ups stepUp ++ names, segment ≠ [] ∧ '/' ∉ segment := by
  intro segment member
  rcases List.mem_append.1 member with up | name
  · obtain rfl := List.eq_of_mem_replicate up
    decide
  · exact ⟨(isStack.named segment name).nonempty, (isStack.named segment name).single⟩

/-- A text that is joined from segments begins with a character of the first one. -/
theorem joinWith_begins {first : List Char} (nonempty : first ≠ []) (single : '/' ∉ first)
    (rest : List (List Char)) : ∃ c more, joinWith '/' (first :: rest) = c :: more ∧ c ≠ '/' := by
  obtain ⟨c, more, rfl⟩ := List.exists_cons_of_ne_nil nonempty
  have other : c ≠ '/' := fun same => single (by simp [same])
  cases rest with
  | nil => exact ⟨c, more, rfl, other⟩
  | cons next others => exact ⟨c, more ++ '/' :: joinWith '/' (next :: others), by simp [joinWith], other⟩

/-- The text of segments splits into these, after segments that lead nowhere, and is absolute if it is meant
to be. -/
theorem splitOn_render (absolute : Bool) {segments : List (List Char)}
    (clear : ∀ segment ∈ segments, segment ≠ [] ∧ '/' ∉ segment) :
    isAbsolute (render absolute segments) = absolute ∧
      ∃ stays, (∀ segment ∈ stays, segment = [] ∨ segment = ['.']) ∧
        splitOn '/' (render absolute segments) = stays ++ segments := by
  have single : ∀ segment ∈ segments, '/' ∉ segment := fun segment member => (clear segment member).2
  cases segments with
  | nil =>
    cases absolute with
    | true => exact ⟨rfl, [[], []], by simp, by simp [render, joinWith, splitOn]⟩
    | false => exact ⟨by decide, [['.']], by simp, by simp [render, joinWith, splitOn]⟩
  | cons first rest =>
    have pieces := splitOn_joinWith single (List.cons_ne_nil first rest)
    cases absolute with
    | true => exact ⟨rfl, [[]], by simp, by simp [render, splitOn, pieces]⟩
    | false =>
      obtain ⟨nonempty, alone⟩ := clear first (by simp)
      obtain ⟨c, more, text, other⟩ := joinWith_begins nonempty alone rest
      have written : render false (first :: rest) = joinWith '/' (first :: rest) := by
        simp [render, text]
      refine ⟨?_, [], by simp, by rw [written, pieces]; rfl⟩
      simp [written, text, isAbsolute, other]

/-- Steps up and names are what their text comes down to. -/
theorem IsStack.parts_render (isStack : IsStack absolute ups names) :
    isAbsolute (render absolute (List.replicate ups stepUp ++ names)) = absolute ∧
      parts (render absolute (List.replicate ups stepUp ++ names)) = List.replicate ups stepUp ++ names := by
  obtain ⟨kept, stays, each, pieces⟩ := splitOn_render absolute isStack.clear
  refine ⟨kept, ?_⟩
  rw [parts, kept, pieces, List.foldl_append, foldl_push_stays each, isStack.push_parts]
  simp [stacked]

theorem IsStack.cleanChars_render (isStack : IsStack absolute ups names) :
    cleanChars (render absolute (List.replicate ups stepUp ++ names)) =
      render absolute (List.replicate ups stepUp ++ names) := by
  obtain ⟨kept, segments⟩ := isStack.parts_render
  rw [cleanChars, kept, segments]

/-- Cleaning keeps what a path comes down to, and whether it is absolute. -/
theorem parts_clean (path : String) : isAbsolute (clean path).toList = isAbsolute path.toList ∧
    parts (clean path).toList = parts path.toList := by
  obtain ⟨ups, names, segments, isStack⟩ := exists_parts path.toList
  rw [clean, String.toList_ofList, cleanChars, segments]
  exact isStack.parts_render

theorem clean_clean (path : String) : clean (clean path) = clean path := by
  obtain ⟨absolute, segments⟩ := parts_clean path
  rw [clean, cleanChars, absolute, segments]
  rfl

/-- The form of a cleaned path: the root, the directory in which the path is followed, names below the root, or
steps up and names after them, each segment with one slash between it and the next. -/
inductive Canonical : String → Prop
  | root : Canonical "/"
  | here : Canonical "."
  | absolute {names : Place} (nonempty : names ≠ []) (named : ∀ name ∈ names, IsName name) :
      Canonical (String.ofList ('/' :: joinWith '/' names))
  | relative {ups : Nat} {names : Place} (nonempty : List.replicate ups stepUp ++ names ≠ [])
      (named : ∀ name ∈ names, IsName name) :
      Canonical (String.ofList (joinWith '/' (List.replicate ups stepUp ++ names)))

/-- A relative text of segments is just these, joined. -/
theorem IsStack.render_relative (isStack : IsStack false ups names)
    (nonempty : List.replicate ups stepUp ++ names ≠ []) :
    render false (List.replicate ups stepUp ++ names) = joinWith '/' (List.replicate ups stepUp ++ names) := by
  have clear := isStack.clear
  obtain ⟨first, rest, shape⟩ := List.exists_cons_of_ne_nil nonempty
  rw [shape] at clear ⊢
  obtain ⟨c, more, text, _⟩ := joinWith_begins (clear first (by simp)).1 (clear first (by simp)).2 rest
  simp [render, text]

/-- The cleaned paths are those in canonical form. -/
theorem canonical_iff {path : String} : Canonical path ↔ clean path = path := by
  constructor
  · intro canonical
    cases canonical with
    | root | here => decide
    | @absolute names some named =>
      have isStack : IsStack true 0 names := ⟨named, fun _ => rfl⟩
      rw [clean, String.toList_ofList]
      exact congrArg String.ofList isStack.cleanChars_render
    | @relative ups names some named =>
      have isStack : IsStack false ups names := ⟨named, fun rooted => Bool.noConfusion rooted⟩
      rw [clean, String.toList_ofList, ← isStack.render_relative some, isStack.cleanChars_render]
  · intro clean
    obtain ⟨ups, names, segments, isStack⟩ := exists_parts path.toList
    rw [← clean, RemotePath.clean, cleanChars, segments]
    cases absolute : isAbsolute path.toList with
    | true =>
      rw [absolute] at isStack
      obtain rfl := isStack.rooted rfl
      by_cases empty : names = []
      · subst empty
        exact .root
      · exact .absolute empty isStack.named
    | false =>
      rw [absolute] at isStack
      by_cases empty : List.replicate ups stepUp ++ names = []
      · rw [empty]
        exact .here
      · rw [isStack.render_relative empty]
        exact .relative empty isStack.named

theorem canonical_clean (path : String) : Canonical (clean path) :=
  canonical_iff.2 (clean_clean path)

end Texts

/-! ### Where a path leads -/

/-- The place that the segments of a stack lead to from another one, judged by the segments alone. -/
def placeOf (origin : Place) : List (List Char) → Place
  | [] => origin
  | top :: below => if top = stepUp then (placeOf origin below).dropLast else placeOf origin below ++ [top]

section Meaning

variable {tree : Tree} {strict absolute : Bool} {ups : Nat} {names origin start place final : Place}
  {segment : List Char} {segments stack : List (List Char)} {path : String}

theorem placeOf_stacked (origin : Place) (named : ∀ name ∈ names, IsName name) :
    placeOf origin (stacked ups names) = List.dropLast^[ups] origin ++ names := by
  induction names using List.reverseRecOn with
  | nil =>
    rw [List.append_nil]
    induction ups with
    | zero => rfl
    | succ ups ih =>
      rw [Function.iterate_succ_apply', ← ih, ← push_stepUp_stepUp]
      cases ups <;> simp [push, placeOf, stacked, List.replicate_succ]
  | append_singleton names name ih =>
    have last := named name (by simp)
    rw [stacked_concat, placeOf, if_neg last.notAbove, ih fun part member => named part (by simp [member]),
      List.append_assoc]

/-- One segment: the place of the stack moves along. -/
theorem placeOf_push (rooted : absolute = true → origin = [] ∧ ∀ part ∈ stack, IsName part)
    (steps : tree.Steps strict (placeOf origin stack) segment place) :
    place = placeOf origin (push absolute stack segment) := by
  cases steps with
  | stay stays => rw [push_stay stays]
  | down named => rw [push_name named, placeOf, if_neg named.notAbove]
  | up =>
    cases stack with
    | nil =>
      cases absolute with
      | true =>
        obtain ⟨rfl, -⟩ := rooted rfl
        rfl
      | false => rfl
    | cons top below =>
      by_cases raised : top = stepUp
      · cases absolute with
        | true => exact absurd raised ((rooted rfl).2 top (by simp)).notAbove
        | false => simp [push, placeOf, raised]
      · simp [push, placeOf, raised]

/-- All segments: the place of the stack is where they lead. -/
theorem placeOf_foldl_push (rooted : absolute = true → origin = [] ∧ ∀ part ∈ stack, IsName part)
    (single : ∀ part ∈ segments, '/' ∉ part) (walks : tree.Walks strict (placeOf origin stack) segments final) :
    final = placeOf origin (segments.foldl (push absolute) stack) := by
  induction segments generalizing stack with
  | nil =>
    cases walks
    rfl
  | cons segment rest ih =>
    obtain ⟨here, later⟩ := List.forall_mem_cons.1 single
    cases walks with
    | next first others =>
      obtain rfl := placeOf_push rooted first
      refine ih (fun root => ⟨(rooted root).1, ?_⟩) later others
      subst root
      exact push_names (rooted rfl).2 here

/-- A walk comes by what is there. -/
theorem isSome_of_walks (walks : tree.Walks strict place segments final)
    (there : (tree.at? place).isSome = true) : (tree.at? final).isSome = true := by
  induction walks with
  | here => exact there
  | next first _ ih =>
    cases first with
    | stay => exact ih there
    | up => exact ih (Tree.isSome_at?_dropLast there)
    | down _ entry => exact ih entry

/-- To what is there, names lead one by one. -/
theorem walks_names (named : ∀ name ∈ names, IsName name) (there : (tree.at? (place ++ names)).isSome = true) :
    tree.Walks strict place names (place ++ names) := by
  induction names generalizing place with
  | nil =>
    rw [List.append_nil]
    exact .here place
  | cons name rest ih =>
    obtain ⟨here, later⟩ := List.forall_mem_cons.1 named
    have split : place ++ name :: rest = place ++ [name] ++ rest := by simp
    rw [split] at there ⊢
    exact .next (.down here (Tree.isSome_at?_of_append there)) (ih later there)

/-- Steps up from a directory and names after them lead where they say, if there is something. -/
theorem walks_parts (directory : tree.at? origin = some .directory) (named : ∀ name ∈ names, IsName name)
    (there : (tree.at? (List.dropLast^[ups] origin ++ names)).isSome = true) :
    tree.Walks strict origin (List.replicate ups stepUp ++ names) (List.dropLast^[ups] origin ++ names) := by
  induction ups generalizing origin with
  | zero => exact walks_names named there
  | succ ups ih =>
    have outer : tree.at? origin.dropLast = some .directory := by
      by_cases root : origin = []
      · rwa [root] at directory ⊢
      · exact Tree.at?_dropLast root (by rw [directory]; rfl)
    exact .next (.up fun _ => directory) (ih outer there)

theorem walks_stays {stays : List (List Char)} (directory : tree.at? place = some .directory)
    (each : ∀ segment ∈ stays, segment = [] ∨ segment = ['.']) (walks : tree.Walks strict place segments final) :
    tree.Walks strict place (stays ++ segments) final := by
  induction stays with
  | nil => exact walks
  | cons segment rest ih =>
    obtain ⟨here, later⟩ := List.forall_mem_cons.1 each
    exact .next (.stay here fun _ => directory) (ih later)

/-- A path and its cleaned form lead to the same place. The cleaned form needs no more than directories on the
way, also where the path itself does. -/
theorem resolves_clean (directory : tree.at? start = some .directory)
    (resolves : tree.Resolves strict start path place) (strict' : Bool) :
    tree.Resolves strict' start (clean path) place := by
  obtain ⟨ups, names, segments, isStack⟩ := exists_parts path.toList
  unfold Tree.Resolves at resolves ⊢
  rw [(parts_clean path).1]
  -- An absolute path is followed from the root, which is a directory too.
  have outset : tree.at? (if isAbsolute path.toList then [] else start) = some .directory := by
    split
    · exact Tree.at?_nil_of_directory directory
    · exact directory
  have rooted : isAbsolute path.toList = true → (if isAbsolute path.toList then [] else start) = [] :=
    fun absolute => if_pos absolute
  generalize (if isAbsolute path.toList then [] else start) = origin at resolves outset rooted ⊢
  have there := isSome_of_walks resolves (by rw [outset]; rfl)
  have led : place = placeOf origin (parts path.toList).reverse := by
    rw [parts, List.reverse_reverse]
    exact placeOf_foldl_push (fun absolute => ⟨rooted absolute, by simp⟩) (fun _ => not_mem_of_mem_splitOn) resolves
  have stack : (parts path.toList).reverse = stacked ups names := by simp [segments, stacked]
  rw [stack, placeOf_stacked origin isStack.named] at led
  obtain ⟨-, stays, each, pieces⟩ := splitOn_render (isAbsolute path.toList) isStack.clear
  rw [clean, String.toList_ofList, cleanChars, segments, pieces]
  subst led
  exact walks_stays outset each (walks_parts outset isStack.named there)

end Meaning

/-- Cleaning gives every path one form and keeps what it means. A cleaned path is absolute if the path is, is not
changed by cleaning it again, and is in canonical form; in every tree, what a path leads to from a directory its
cleaned form leads to as well, whether or not a file is taken for a directory by segments that lead nowhere or
up. -/
theorem clean_canonical_and_faithful :
    (∀ path, isAbsolute (clean path).toList = isAbsolute path.toList ∧ clean (clean path) = clean path ∧
      Canonical (clean path)) ∧
    ∀ (tree : Tree) (strict strict' : Bool) (start : Place) (path : String) (place : Place),
      tree.at? start = some .directory → tree.Resolves strict start path place →
        tree.Resolves strict' start (clean path) place := by
  refine ⟨fun path => ⟨(parts_clean path).1, clean_clean path, canonical_clean path⟩, ?_⟩
  intro tree strict strict' start path place directory resolves
  exact resolves_clean directory resolves strict'

/-- From a directory below the root, two steps up stay at the root. -/
theorem clean_faithful_above_root :
    let tree : Tree := .directory [("a", .directory [("b", .file [] 0o644)])]
    tree.at? [['a']] = some .directory ∧ tree.Resolves false [['a']] ".././../a//b/" [['a'], ['b']] ∧
      clean ".././../a//b/" = "../../a/b" ∧ tree.Resolves true [['a']] "../../a/b" [['a'], ['b']] := by
  intro tree
  have directory : tree.at? [['a']] = some .directory := rfl
  have pieces : splitOn '/' ".././../a//b/".toList =
      [stepUp, ['.'], stepUp, ['a'], [], ['b'], []] := by decide
  have isName (c : Char) (other : c ≠ '.' ∧ c ≠ '/') : IsName [c] :=
    ⟨by simp, by simp [other.1], by simp, by simp [other.2.symm]⟩
  have relative : isAbsolute ".././../a//b/".toList = false := by decide
  have resolves : tree.Resolves false [['a']] ".././../a//b/" [['a'], ['b']] := by
    rw [Tree.Resolves, pieces, relative]
    refine .next (.up nofun) (.next (.stay (.inr rfl) nofun) (.next (.up nofun) ?_))
    refine .next (.down (isName 'a' (by decide)) rfl) (.next (.stay (.inl rfl) nofun) ?_)
    exact .next (.down (isName 'b' (by decide)) rfl) (.next (.stay (.inl rfl) nofun) (.here _))
  have cleaned : clean ".././../a//b/" = "../../a/b" := by decide
  refine ⟨directory, resolves, cleaned, ?_⟩
  rw [← cleaned]
  exact clean_canonical_and_faithful.2 tree false true _ _ _ directory resolves

end RemotePath

end Rollout
