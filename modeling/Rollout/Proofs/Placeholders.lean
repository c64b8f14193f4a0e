import Rollout.Proofs.Reading
import Rollout.Variables

/-!
# Placeholders in parts of a text

A text that is cut at a character that is no brace has the placeholders of its two parts, unless one is
opened before the cut and closed after it. So a text all of whose placeholders are free of blanks can be
filled in word by word.
-/

namespace Rollout.Variables

open Rollout.Text

section Cutting

variable {brace c : Char} {before after inside text rest : List Char}

theorem cutAtPair_eq (found : cutAtPair brace text = some (before, after)) :
    text = before ++ brace :: brace :: after := by
  fun_induction cutAtPair brace text generalizing before after with
  | case1 a b rest hit =>
    cases found
    rw [hit.1, hit.2]
    rfl
  | case2 a b rest miss ih =>
    obtain ⟨⟨first, second⟩, inner, same⟩ := Option.map_eq_some_iff.1 found
    cases same
    rw [ih inner]
    rfl
  | case3 => cases found

theorem cutAtPair_cons (different : c ≠ brace) (text : List Char) :
    cutAtPair brace (c :: text) = (cutAtPair brace text).map fun (before, after) => (c :: before, after) := by
  cases text with
  | nil => rfl
  | cons d rest => rw [cutAtPair, if_neg (fun same => different same.1)]

/-- Nothing after the first pair moves it. -/
theorem cutAtPair_append_some (found : cutAtPair brace text = some (before, after)) (rest : List Char) :
    cutAtPair brace (text ++ rest) = some (before, after ++ rest) := by
  fun_induction cutAtPair brace text generalizing before after with
  | case1 a b more hit =>
    cases found
    simp [cutAtPair, hit]
  | case2 a b more miss ih =>
    obtain ⟨⟨first, second⟩, inner, same⟩ := Option.map_eq_some_iff.1 found
    cases same
    have further := ih inner
    rw [List.cons_append] at further
    rw [List.cons_append, List.cons_append, cutAtPair, if_neg miss, further]
    rfl
  | case3 => cases found

/-- Where there is no pair before another character, the first pair is the first one after it. -/
theorem cutAtPair_append_none (missing : cutAtPair brace text = none) (different : c ≠ brace)
    (rest : List Char) :
    cutAtPair brace (text ++ c :: rest) =
      (cutAtPair brace rest).map fun (before, after) => (text ++ c :: before, after) := by
  fun_induction cutAtPair brace text with
  | case1 => cases missing
  | case2 a b more miss ih =>
    have further := ih (by simpa using missing)
    rw [List.cons_append] at further
    rw [List.cons_append, List.cons_append, cutAtPair, if_neg miss, further, Option.map_map]
    rfl
  | case3 text short =>
    cases text with
    | nil => exact cutAtPair_cons different rest
    | cons a more =>
      cases more with
      | nil =>
        change cutAtPair brace (a :: c :: rest) = _
        rw [cutAtPair, if_neg (fun same => different same.2), cutAtPair_cons different, Option.map_map]
        rfl
      | cons b more => exact absurd rfl (short a b more)

/-- What stands after another character has its first pair where the whole text has it. -/
theorem cutAtPair_of_append {inner : List Char}
    (found : cutAtPair brace (before ++ c :: rest) = some (before ++ c :: inner, after))
    (different : c ≠ brace) : cutAtPair brace rest = some (inner, after) := by
  cases first : cutAtPair brace before with
  | none =>
    rw [cutAtPair_append_none first different] at found
    obtain ⟨⟨left, right⟩, there, same⟩ := Option.map_eq_some_iff.1 found
    simp only [Prod.mk.injEq, List.append_cancel_left_eq, List.cons.injEq, true_and] at same
    rw [there, same.1, same.2]
  | some parts =>
    obtain ⟨left, right⟩ := parts
    rw [cutAtPair_append_some first] at found
    have short := congrArg List.length (cutAtPair_eq first)
    have long := congrArg (fun parts => parts.1.length) (Option.some.inj found)
    simp only [List.length_append, List.length_cons] at short long
    omega

/-- A pair is found where no brace before it is part of one. -/
theorem cutAtPair_pair (missing : cutAtPair brace (text ++ [brace]) = none) (rest : List Char) :
    cutAtPair brace (text ++ brace :: brace :: rest) = some (text, rest) := by
  induction text with
  | nil => simp [cutAtPair]
  | cons a more ih =>
    cases more with
    | nil =>
      have different : a ≠ brace := by simpa [cutAtPair] using missing
      simp [cutAtPair, different]
    | cons b others =>
      rw [List.cons_append, List.cons_append, cutAtPair] at missing ⊢
      split at missing
      next => cases missing
      next miss =>
        rw [if_neg miss, ← List.cons_append, ih (by simpa using missing)]
        rfl

theorem cutAtPair_of_not_mem (missing : brace ∉ text) : cutAtPair brace (text ++ [brace]) = none := by
  induction text with
  | nil => rfl
  | cons a more ih =>
    have different : a ≠ brace := fun same => missing (by simp [same])
    rw [List.cons_append, cutAtPair_cons different, ih fun member => missing (List.mem_cons_of_mem a member)]
    rfl

/-- A text without pairs has none in what stands after another character. -/
theorem cutAtPair_none_of_append (missing : cutAtPair brace (before ++ c :: after) = none)
    (different : c ≠ brace) : cutAtPair brace after = none := by
  cases first : cutAtPair brace before with
  | none => simpa [cutAtPair_append_none first different] using missing
  | some => simp [cutAtPair_append_some first] at missing

end Cutting

section Pieces

variable {c : Char} {before after inside name rest text : List Char}

theorem segments_of_none (missing : placeholder? text = none) : segments text = [.literal text] := by
  rw [segments]
  split
  next => rfl
  next found => simp [missing] at found

theorem segments_of_some (found : placeholder? text = some (before, name, rest)) :
    segments text = .literal before :: .reference name :: segments rest := by
  rw [segments]
  split
  next missing => simp [missing] at found
  next again =>
    rw [found] at again
    cases again
    rfl

theorem placeholder?_eq (found : placeholder? text = some (before, name, rest)) :
    text = before ++ '{' :: '{' :: (name ++ '}' :: '}' :: rest) := by
  obtain ⟨⟨first, inside⟩, opened, closes⟩ := Option.bind_eq_some_iff.1 found
  obtain ⟨⟨inner, behind⟩, closed, same⟩ := Option.map_eq_some_iff.1 closes
  cases same
  rw [cutAtPair_eq opened, cutAtPair_eq closed]

theorem placeholder?_append_some (found : placeholder? text = some (before, name, rest))
    (after : List Char) : placeholder? (text ++ after) = some (before, name, rest ++ after) := by
  obtain ⟨⟨first, inside⟩, opened, closes⟩ := Option.bind_eq_some_iff.1 found
  obtain ⟨⟨inner, behind⟩, closed, same⟩ := Option.map_eq_some_iff.1 closes
  cases same
  simp [placeholder?, cutAtPair_append_some opened, cutAtPair_append_some closed]

/-- Where nothing is opened before a cut, the first placeholder is the first one after it. -/
theorem placeholder?_append_unopened (unopened : cutAtPair '{' before = none) (different : c ≠ '{')
    (after : List Char) :
    placeholder? (before ++ c :: after) =
      (placeholder? after).map fun (first, name, rest) => (before ++ c :: first, name, rest) := by
  unfold placeholder?
  rw [cutAtPair_append_none unopened different]
  cases cutAtPair '{' after with
  | none => rfl
  | some => simp [Function.comp_def]

/-- Where a placeholder is open at a cut, it goes on to the first closing after it. -/
theorem placeholder?_append_open (opened : cutAtPair '{' text = some (before, inside))
    (unclosed : cutAtPair '}' inside = none) (different : c ≠ '}') (after : List Char) :
    placeholder? (text ++ c :: after) =
      (cutAtPair '}' after).map fun (name, rest) => (before, inside ++ c :: name, rest) := by
  unfold placeholder?
  rw [cutAtPair_append_some opened, Option.bind_some]
  dsimp only
  rw [cutAtPair_append_none unclosed different, Option.map_map]
  rfl

/-- Where nothing closes, nothing is a placeholder. -/
theorem placeholder?_of_unclosed (unclosed : cutAtPair '}' text = none) : placeholder? text = none := by
  unfold placeholder?
  cases opened : cutAtPair '{' text with
  | none => rfl
  | some parts =>
    obtain ⟨before, inside⟩ := parts
    rw [cutAtPair_eq opened, List.append_cons] at unclosed
    simp [cutAtPair_none_of_append unclosed (by decide)]

/-- How a text in which no placeholder ends goes on over one more character: nothing is found, or the first
placeholder comes after the character, or it is opened before and holds the character. -/
inductive Passes (before : List Char) (c : Char) (after : List Char) : Prop
  | nothing (whole : placeholder? (before ++ c :: after) = none) (later : placeholder? after = none)
  | later {first name rest : List Char} (later : placeholder? after = some (first, name, rest))
      (whole : placeholder? (before ++ c :: after) = some (before ++ c :: first, name, rest))
  | holds {first inside name rest : List Char} (opened : before = first ++ '{' :: '{' :: inside)
      (closed : cutAtPair '}' after = some (name, rest))
      (whole : placeholder? (before ++ c :: after) = some (first, inside ++ c :: name, rest))

theorem passes_of_none (missing : placeholder? before = none) (notOpening : c ≠ '{')
    (notClosing : c ≠ '}') (after : List Char) : Passes before c after := by
  cases opened : cutAtPair '{' before with
  | none =>
    have whole := placeholder?_append_unopened opened notOpening after
    cases found : placeholder? after with
    | none =>
      rw [found] at whole
      exact .nothing whole found
    | some parts =>
      rw [found] at whole
      exact .later found whole
  | some parts =>
    obtain ⟨first, inside⟩ := parts
    have unclosed : cutAtPair '}' inside = none := by simpa [placeholder?, opened] using missing
    have whole := placeholder?_append_open opened unclosed notClosing after
    cases closed : cutAtPair '}' after with
    | none =>
      rw [closed] at whole
      exact .nothing whole (placeholder?_of_unclosed closed)
    | some parts =>
      rw [closed] at whole
      exact .holds (cutAtPair_eq opened) closed whole

/-- No placeholder of the text holds a blank. -/
def Compact (text : List Char) : Prop :=
  ∀ name, .reference name ∈ segments text → ∀ c ∈ name, isBlank c = false

theorem compact_of_none (missing : placeholder? text = none) : Compact text := by
  intro name member
  simp [segments_of_none missing] at member

theorem compact_iff_of_some (found : placeholder? text = some (before, name, rest)) :
    Compact text ↔ (∀ c ∈ name, isBlank c = false) ∧ Compact rest := by
  unfold Compact
  rw [segments_of_some found]
  simp

/-- A blank in a compact text stands between the pieces before it and those after it, for a reading of the
pieces that goes through text character by character. -/
theorem flatMap_segments_append {α : Type} {f : Segment → List α}
    (spelled : ∀ first second, f (.literal (first ++ second)) = f (.literal first) ++ f (.literal second))
    (blank : isBlank c = true) (compact : Compact (before ++ c :: after)) :
    (segments (before ++ c :: after)).flatMap f =
      (segments before).flatMap f ++ (f (.literal [c]) ++ (segments after).flatMap f) := by
  have different {d : Char} (solid : isBlank d = false) : c ≠ d := by
    rintro rfl
    simp [blank] at solid
  have split (first second : List Char) : f (.literal (first ++ c :: second)) =
      f (.literal first) ++ (f (.literal [c]) ++ f (.literal second)) := by
    rw [spelled, ← List.singleton_append, spelled]
  fun_induction segments before with
  | case1 before missing =>
    cases passes_of_none missing (different rfl) (different rfl) after with
    | nothing whole later =>
      rw [segments_of_none whole, segments_of_none later]
      simp [split]
    | later later whole =>
      rw [segments_of_some whole, segments_of_some later]
      simp [split]
    | @holds first inside name rest _ _ whole =>
      -- No placeholder of a compact text holds the blank.
      have member : .reference (inside ++ c :: name) ∈ segments (before ++ c :: after) := by
        rw [segments_of_some whole]
        simp
      have solid := compact _ member c (by simp)
      simp [blank] at solid
  | case2 before first name rest found ih =>
    have whole := placeholder?_append_some found (c :: after)
    have further := ih ((compact_iff_of_some whole).1 compact).2
    rw [segments_of_some whole]
    simp [further]

end Pieces

section Resolving

variable {table : Variables} {c : Char} {before after name rest text : List Char}

def resolve (table : Variables) (text : List Char) : List Char :=
  (segments text).flatMap table.expand

theorem substitute_ofList (table : Variables) (text : List Char) :
    table.substitute (String.ofList text) = String.ofList (table.resolve text) := by
  simp [substitute, resolve]

theorem resolve_of_none (missing : placeholder? text = none) : table.resolve text = text := by
  simp [resolve, segments_of_none missing, expand]

theorem resolve_of_some (found : placeholder? text = some (before, name, rest)) :
    table.resolve text = before ++ (table.expand (.reference name) ++ table.resolve rest) := by
  simp [resolve, segments_of_some found, expand]

/-- Text before which nothing is opened stays as it is. -/
theorem resolve_unopened (unopened : cutAtPair '{' before = none) (different : c ≠ '{')
    (after : List Char) :
    table.resolve (before ++ c :: after) = before ++ c :: table.resolve after := by
  have whole := placeholder?_append_unopened unopened different after
  cases found : placeholder? after with
  | none =>
    rw [found] at whole
    rw [resolve_of_none whole, resolve_of_none found]
  | some parts =>
    rw [found] at whole
    rw [resolve_of_some whole, resolve_of_some found]
    simp

/-- Blanks before a text are no part of any placeholder. -/
theorem resolve_blanks {lead : List Char} (blank : ∀ c ∈ lead, isBlank c = true) (text : List Char) :
    table.resolve (lead ++ text) = lead ++ table.resolve text := by
  induction lead with
  | nil => rfl
  | cons c rest ih =>
    have different : c ≠ '{' := by
      rintro rfl
      cases blank '{' List.mem_cons_self
    have nothing : cutAtPair '{' ([] : List Char) = none := rfl
    have later := ih fun d member => blank d (List.mem_cons_of_mem c member)
    rw [List.cons_append, List.cons_append, ← later]
    exact resolve_unopened nothing different _

/-- A compact text is filled in on both sides of a blank. -/
theorem resolve_append_blank (blank : isBlank c = true) (compact : Compact (before ++ c :: after)) :
    table.resolve (before ++ c :: after) = table.resolve before ++ c :: table.resolve after :=
  flatMap_segments_append (fun _ _ => rfl) blank compact

def names (text : List Char) : List (List Char) :=
  (segments text).flatMap fun
    | .literal _ => []
    | .reference name => [name]

theorem mem_names_iff : name ∈ names text ↔ .reference name ∈ segments text := by
  unfold names
  rw [List.mem_flatMap]
  constructor
  · rintro ⟨segment, member, inside⟩
    cases segment with
    | literal => cases inside
    | reference => exact List.mem_singleton.1 inside ▸ member
  · exact fun member => ⟨_, member, List.mem_singleton.2 rfl⟩

theorem names_append_blank (blank : isBlank c = true) (compact : Compact (before ++ c :: after)) :
    names (before ++ c :: after) = names before ++ names after :=
  flatMap_segments_append (fun _ _ => rfl) blank compact

theorem Compact.right (compact : Compact (before ++ c :: after)) (blank : isBlank c = true) :
    Compact after := by
  intro name member
  apply compact name
  rw [← mem_names_iff, names_append_blank blank compact]
  exact List.mem_append_right _ (mem_names_iff.2 member)

def Segment.written : Segment → List Char
  | .literal text => text
  | .reference name => '{' :: '{' :: (name ++ ['}', '}'])

/-- The pieces of a text are all of it. -/
theorem flatMap_written (text : List Char) : (segments text).flatMap Segment.written = text := by
  fun_induction segments text with
  | case1 text => simp [Segment.written]
  | case2 text before name rest found ih =>
    rw [List.flatMap_cons, List.flatMap_cons, ih, placeholder?_eq found]
    simp [Segment.written]

/-- The table that binds every name in a text to its own placeholder. -/
def mirror (text : List Char) : Variables where
  bindings := (names text).map fun name =>
    (String.ofList name, String.ofList (Segment.reference name).written)

theorem get?_mirror (member : name ∈ names text) :
    (mirror text).get? (String.ofList name) = some (String.ofList (Segment.reference name).written) := by
  unfold get? mirror
  generalize names text = all at member
  induction all with
  | nil => cases member
  | cons first others ih =>
    by_cases same : name = first
    · simp [same]
    · have later : name ∈ others := (List.mem_cons.1 member).resolve_left same
      have different : (String.ofList name == String.ofList first) = false :=
        beq_false_of_ne fun equal => same (String.ofList_injective equal)
      simpa only [List.map_cons, List.lookup_cons, different] using ih later

/-- Under that table every text with no other names, and without blanks in them, is as it was. -/
theorem resolve_mirror {part : List Char} (compact : Compact part) (among : names part ⊆ names text) :
    (mirror text).resolve part = part := by
  have kept : ∀ segment ∈ segments part, (mirror text).expand segment = segment.written := by
    intro segment member
    cases segment with
    | literal => rfl
    | reference name =>
      have plain : trim ([] ++ name ++ []) = name :=
        trim_of_forall (compact name member) (by simp) (by simp)
      rw [List.nil_append, List.append_nil] at plain
      have bound := get?_mirror (among (mem_names_iff.2 member))
      simp [expand, plain, bound]
  rw [resolve, List.flatMap_def, List.map_congr_left kept, ← List.flatMap_def, flatMap_written]

/-- No placeholder is open at the end of the text, and none is opened by one brace more. -/
def Settled (text : List Char) : Prop :=
  ∀ last, (segments text).getLast? = some (.literal last) → cutAtPair '{' (last ++ ['{']) = none

/-- A placeholder after a settled text is one of the whole text. -/
theorem resolve_settled {inside : List Char} (settled : Settled before) (unclosed : '}' ∉ inside)
    (after : List Char) :
    table.resolve (before ++ '{' :: '{' :: (inside ++ '}' :: '}' :: after)) =
      table.resolve before ++ (table.expand (.reference inside) ++ table.resolve after) := by
  fun_induction segments before with
  | case1 before missing =>
    have opened := cutAtPair_pair (settled before (by simp [segments_of_none missing]))
      (inside ++ '}' :: '}' :: after)
    have found : placeholder? (before ++ '{' :: '{' :: (inside ++ '}' :: '}' :: after)) =
        some (before, inside, after) := by
      simp [placeholder?, opened, cutAtPair_pair (cutAtPair_of_not_mem unclosed)]
    rw [resolve_of_some found, resolve_of_none missing]
  | case2 before first name rest found ih =>
    have later : Settled rest := by
      intro last ends
      apply settled last
      rw [segments_of_some found, List.getLast?_cons_cons, List.getLast?_cons, ends]
      rfl
    rw [resolve_of_some (placeholder?_append_some found _), resolve_of_some found, ih later]
    simp only [List.append_assoc]

end Resolving

end Rollout.Variables
