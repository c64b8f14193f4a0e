import Rollout.Proofs.Placeholders

/-!
# Substitution goes over a text once

A text falls into literals and references before any table is looked at. No literal hides a placeholder that
begins in it, a reference ends at the first two closing braces, and these two rules leave no choice: a list of
pieces that keeps them is filled in as the text is. So what a value holds has no part in where the references
are, and a text is changed only where a whole placeholder stands.
-/

namespace Rollout.Variables

open Rollout.Text

/-- A whole placeholder stands at the beginning of the text. -/
def BeginsPlaceholder (text : List Char) : Prop :=
  ∃ inside, text = '{' :: '{' :: inside ∧ ['}', '}'] <:+: inside

/-- A whole placeholder stands somewhere in the text. -/
def HoldsPlaceholder (text : List Char) : Prop :=
  ∃ rest, rest <:+ text ∧ BeginsPlaceholder rest

/-- How a text falls into pieces. No placeholder begins in a literal, seen together with the rest of the text,
and a reference does not go on behind two closing braces. -/
inductive Segmented : List Char → List Segment → Prop
  | nothing : Segmented [] []
  | literal {text rest : List Char} {pieces : List Segment}
      (bare : ∀ later, later <:+ text → later ≠ [] → ¬ BeginsPlaceholder (later ++ rest))
      (behind : Segmented rest pieces) : Segmented (text ++ rest) (.literal text :: pieces)
  | reference {name rest : List Char} {pieces : List Segment} (closed : ¬ ['}', '}'] <:+: name ++ ['}'])
      (behind : Segmented rest pieces) :
      Segmented ((Segment.reference name).written ++ rest) (.reference name :: pieces)

section Finding

variable {brace c : Char} {text before name rest after : List Char}

theorem cutAtPair_eq_none_iff : cutAtPair brace text = none ↔ ¬ [brace, brace] <:+: text := by
  induction text with
  | nil => simp [cutAtPair]
  | cons a more ih =>
    cases more with
    | nil => simp [cutAtPair, List.infix_cons_iff]
    | cons b others =>
      have here : [brace, brace] <+: a :: b :: others ↔ a = brace ∧ b = brace := by
        simp [List.cons_prefix_cons, eq_comm]
      rw [cutAtPair, List.infix_cons_iff, here]
      by_cases hit : a = brace ∧ b = brace
      · simp [hit]
      · rw [if_neg hit, Option.map_eq_none_iff, ih]
        simp [hit]

theorem placeholder?_of_begins (begins : BeginsPlaceholder text) :
    ∃ name rest, placeholder? text = some ([], name, rest) := by
  obtain ⟨inside, rfl, closes⟩ := begins
  cases found : cutAtPair '}' inside with
  | none => exact absurd closes (cutAtPair_eq_none_iff.1 found)
  | some parts => exact ⟨parts.1, parts.2, by simp [placeholder?, cutAtPair, found]⟩

/-- A character at which no placeholder begins is no part of the first one. -/
theorem placeholder?_cons (bare : ¬ BeginsPlaceholder (c :: text)) :
    placeholder? (c :: text) =
      (placeholder? text).map fun (before, name, rest) => (c :: before, name, rest) := by
  cases text with
  | nil => rfl
  | cons d more =>
    by_cases opens : c = '{' ∧ d = '{'
    · obtain ⟨rfl, rfl⟩ := opens
      have unclosed : cutAtPair '}' more = none :=
        cutAtPair_eq_none_iff.2 fun closes => bare ⟨more, rfl, closes⟩
      have later : cutAtPair '}' ('{' :: more) = none := by
        rw [cutAtPair_cons (by decide), unclosed]
        rfl
      rw [placeholder?_of_unclosed later]
      simp [placeholder?, cutAtPair, unclosed]
    · unfold placeholder?
      rw [cutAtPair, if_neg opens]
      cases cutAtPair '{' (d :: more) with
      | none => rfl
      | some parts => simp [Function.comp_def]

theorem holdsPlaceholder_cons_iff :
    HoldsPlaceholder (c :: text) ↔ BeginsPlaceholder (c :: text) ∨ HoldsPlaceholder text := by
  constructor
  · rintro ⟨rest, suffix, begins⟩
    rcases List.suffix_cons_iff.1 suffix with rfl | later
    · exact .inl begins
    · exact .inr ⟨rest, later, begins⟩
  · rintro (begins | ⟨rest, suffix, begins⟩)
    · exact ⟨_, List.suffix_refl _, begins⟩
    · exact ⟨rest, List.suffix_cons_iff.2 (.inr suffix), begins⟩

theorem placeholder?_eq_none_iff : placeholder? text = none ↔ ¬ HoldsPlaceholder text := by
  induction text with
  | nil =>
    have nothing : ¬ HoldsPlaceholder [] := by
      rintro ⟨rest, suffix, inside, rfl, _⟩
      simp at suffix
    exact iff_of_true rfl nothing
  | cons c text ih =>
    rw [holdsPlaceholder_cons_iff]
    by_cases begins : BeginsPlaceholder (c :: text)
    · obtain ⟨name, rest, found⟩ := placeholder?_of_begins begins
      simp [found, begins]
    · rw [placeholder?_cons begins, Option.map_eq_none_iff, ih]
      simp [begins]

/-- No placeholder begins before the first one that is found. -/
theorem bare_of_found (found : placeholder? text = some (before, name, rest)) {later : List Char}
    (suffix : later <:+ before) (written : later ≠ []) :
    ¬ BeginsPlaceholder (later ++ (Segment.reference name).written ++ rest) := by
  induction before generalizing text with
  | nil => exact absurd (List.suffix_nil.1 suffix) written
  | cons c first ih =>
    have whole : text = c :: (first ++ (Segment.reference name).written ++ rest) := by
      rw [placeholder?_eq found]
      simp [Segment.written]
    have bare : ¬ BeginsPlaceholder text := by
      intro begins
      obtain ⟨_, _, again⟩ := placeholder?_of_begins begins
      simp [found] at again
    rw [whole] at found bare
    rw [placeholder?_cons bare] at found
    obtain ⟨⟨first', name', rest'⟩, inner, same⟩ := Option.map_eq_some_iff.1 found
    cases same
    rcases List.suffix_cons_iff.1 suffix with rfl | behind
    · exact bare
    · exact ih inner behind

/-- A reference ends where two closing braces stand for the first time. -/
theorem closed_of_found (found : placeholder? text = some (before, name, rest)) :
    ¬ ['}', '}'] <:+: name ++ ['}'] := by
  obtain ⟨⟨first, inside⟩, -, closes⟩ := Option.bind_eq_some_iff.1 found
  obtain ⟨⟨inner, behind⟩, closed, same⟩ := Option.map_eq_some_iff.1 closes
  cases same
  rw [← cutAtPair_eq_none_iff]
  cases earlier : cutAtPair '}' (name ++ ['}']) with
  | none => rfl
  | some parts =>
    have whole : inside = name ++ ['}'] ++ '}' :: rest := by simp [cutAtPair_eq closed]
    have again := cutAtPair_append_some earlier ('}' :: rest)
    rw [← whole, closed] at again
    -- The pair would be found before the end of the name, and is found there.
    have short := congrArg List.length (cutAtPair_eq earlier)
    have same := congrArg (fun parts => parts.1.length) (Option.some.inj again)
    simp only [List.length_append, List.length_cons, List.length_nil] at short same
    omega

/-- Before an opening brace behind which nothing closes, a placeholder begins only if it ends there. -/
theorem begins_of_append (begins : BeginsPlaceholder (before ++ '{' :: text))
    (unclosed : ¬ ['}', '}'] <:+: text) : BeginsPlaceholder before := by
  obtain ⟨inside, whole, closes⟩ := begins
  have unclosed' : ¬ ['}', '}'] <:+: '{' :: text := by simp [List.infix_cons_iff, unclosed]
  rcases before with _ | ⟨a, _ | ⟨b, inner⟩⟩
  · obtain ⟨-, rfl⟩ := List.cons.inj whole
    exact absurd (List.infix_cons_iff.2 (.inr closes)) unclosed
  · obtain ⟨-, same⟩ := List.cons.inj whole
    obtain ⟨-, rfl⟩ := List.cons.inj same
    exact absurd closes unclosed
  · obtain ⟨rfl, same⟩ := List.cons.inj whole
    obtain ⟨rfl, rfl⟩ := List.cons.inj same
    refine ⟨inner, rfl, ?_⟩
    cases found : cutAtPair '}' inner with
    | some parts => exact ⟨parts.1, parts.2, by simp [cutAtPair_eq found]⟩
    | none =>
      have nothing : cutAtPair '}' (inner ++ '{' :: text) = none := by
        rw [cutAtPair_append_none found (by decide), cutAtPair_eq_none_iff.2 unclosed]
        rfl
      exact absurd closes (cutAtPair_eq_none_iff.1 nothing)

/-- Nothing is found in what goes on with two opening braces that are not closed, if nothing was found before
them. -/
theorem placeholder?_unmatched (missing : placeholder? before = none) (unclosed : ¬ ['}', '}'] <:+: after) :
    placeholder? (before ++ '{' :: '{' :: after) = none := by
  have unclosed' : ¬ ['}', '}'] <:+: '{' :: after := by simp [List.infix_cons_iff, unclosed]
  induction before with
  | nil => exact placeholder?_of_unclosed (cutAtPair_eq_none_iff.2 (by simp [List.infix_cons_iff, unclosed]))
  | cons c more ih =>
    have nothing := placeholder?_eq_none_iff.1 missing
    rw [holdsPlaceholder_cons_iff, not_or] at nothing
    have bare : ¬ BeginsPlaceholder (c :: more ++ '{' :: '{' :: after) := fun begins =>
      nothing.1 (begins_of_append begins unclosed')
    rw [List.cons_append] at bare
    rw [List.cons_append, placeholder?_cons bare, ih (placeholder?_eq_none_iff.2 nothing.2)]
    rfl

end Finding

section Pieces

variable {table other : Variables} {c : Char} {text name rest before after : List Char} {pieces : List Segment}

/-- The pieces that are read keep the rules. -/
theorem segmented_segments (text : List Char) : Segmented text (segments text) := by
  fun_induction segments text with
  | case1 text missing =>
    have whole : Segmented (text ++ []) [.literal text] := by
      refine .literal (fun later suffix _ begins => ?_) .nothing
      rw [List.append_nil] at begins
      exact placeholder?_eq_none_iff.1 missing ⟨later, suffix, begins⟩
    rwa [List.append_nil] at whole
  | case2 text first name rest found ih =>
    have whole : text = first ++ ((Segment.reference name).written ++ rest) := by
      rw [placeholder?_eq found]
      simp [Segment.written]
    rw [whole]
    refine .literal (fun later suffix written => ?_) (.reference (closed_of_found found) ih)
    rw [← List.append_assoc]
    exact bare_of_found found suffix written

theorem Segmented.written (segmented : Segmented text pieces) : pieces.flatMap Segment.written = text := by
  induction segmented with
  | nothing => rfl
  | literal _ _ ih => rw [List.flatMap_cons, ih, Segment.written]
  | reference _ _ ih => rw [List.flatMap_cons, ih]

/-- A character at which no placeholder begins stands for itself. -/
theorem resolve_cons (bare : ¬ BeginsPlaceholder (c :: text)) :
    table.resolve (c :: text) = c :: table.resolve text := by
  have whole := placeholder?_cons bare
  cases found : placeholder? text with
  | none =>
    rw [found] at whole
    rw [resolve_of_none whole, resolve_of_none found]
  | some parts =>
    rw [found] at whole
    rw [resolve_of_some whole, resolve_of_some found]
    rfl

theorem resolve_literal (bare : ∀ later, later <:+ text → later ≠ [] → ¬ BeginsPlaceholder (later ++ rest)) :
    table.resolve (text ++ rest) = text ++ table.resolve rest := by
  induction text with
  | nil => rfl
  | cons c more ih =>
    have later := ih fun later suffix => bare later (suffix.trans (List.suffix_cons c more))
    rw [List.cons_append, List.cons_append, ← later]
    exact resolve_cons (bare (c :: more) (List.suffix_refl _) (List.cons_ne_nil c more))

theorem resolve_reference (closed : ¬ ['}', '}'] <:+: name ++ ['}']) :
    table.resolve ((Segment.reference name).written ++ rest) =
      table.expand (.reference name) ++ table.resolve rest := by
  have found : placeholder? ((Segment.reference name).written ++ rest) = some ([], name, rest) := by
    simp [placeholder?, Segment.written, cutAtPair, cutAtPair_pair (cutAtPair_eq_none_iff.2 closed)]
  rw [resolve_of_some found]
  rfl

/-- Whatever keeps the rules is filled in as the text is. -/
theorem Segmented.resolve_eq (segmented : Segmented text pieces) (table : Variables) :
    table.resolve text = pieces.flatMap table.expand := by
  induction segmented with
  | nothing => exact resolve_of_none rfl
  | literal bare _ ih => rw [resolve_literal bare, ih, List.flatMap_cons, expand]
  | reference closed _ ih => rw [resolve_reference closed, ih, List.flatMap_cons]

/-- Two tables with the same values for the names in the pieces fill them in alike. -/
theorem flatMap_expand_congr (agree : ∀ name, .reference name ∈ pieces →
      table.get? (String.ofList (trim name)) = other.get? (String.ofList (trim name))) :
    pieces.flatMap table.expand = pieces.flatMap other.expand := by
  have alike : ∀ piece ∈ pieces, table.expand piece = other.expand piece := by
    intro piece member
    cases piece with
    | literal => rfl
    | reference name => rw [expand, expand, agree name member]
  rw [List.flatMap_def, List.map_congr_left alike, ← List.flatMap_def]

/-- Two opening braces that are not closed, and all that follows, are kept. -/
theorem resolve_unmatched (unclosed : ¬ ['}', '}'] <:+: after) (table : Variables) :
    table.resolve (before ++ '{' :: '{' :: after) = table.resolve before ++ '{' :: '{' :: after := by
  fun_induction segments before with
  | case1 before missing =>
    rw [resolve_of_none missing, resolve_of_none (placeholder?_unmatched missing unclosed)]
  | case2 before first name rest found ih =>
    rw [resolve_of_some (placeholder?_append_some found _), resolve_of_some found, ih]
    simp only [List.append_assoc]

end Pieces

/-- Every text falls into pieces, which are the text as it is written, and whatever pieces it falls into, no
table has a part in that: under every table the text becomes its literals as they are with the values of the
names between them. So tables that agree on the names in the text make the same of it, a text without a whole
placeholder stays as it is, and so does all that follows two opening braces that are not closed. -/
theorem substitution_one_pass (text : String) :
    (∃ pieces, Segmented text.toList pieces) ∧
    (∀ pieces, Segmented text.toList pieces →
      pieces.flatMap Segment.written = text.toList ∧
      (∀ table : Variables, (table.substitute text).toList = pieces.flatMap table.expand) ∧
      ∀ table other : Variables, (∀ name, .reference name ∈ pieces →
        table.get? (String.ofList (trim name)) = other.get? (String.ofList (trim name))) →
          table.substitute text = other.substitute text) ∧
    (¬ HoldsPlaceholder text.toList → ∀ table : Variables, table.substitute text = text) ∧
    ∀ before after : String, text = before ++ "\x7b\x7b" ++ after → ¬ ['}', '}'] <:+: after.toList →
      ∀ table : Variables, table.substitute text = table.substitute before ++ "\x7b\x7b" ++ after := by
  have filled (table : Variables) (given : String) :
      table.substitute given = String.ofList (table.resolve given.toList) := rfl
  refine ⟨⟨_, segmented_segments text.toList⟩, fun pieces segmented => ⟨segmented.written, ?_, ?_⟩, ?_, ?_⟩
  · intro table
    rw [filled, String.toList_ofList, segmented.resolve_eq table]
  · intro table other agree
    rw [filled, filled, segmented.resolve_eq table, segmented.resolve_eq other, flatMap_expand_congr agree]
  · intro nothing table
    rw [filled, resolve_of_none (placeholder?_eq_none_iff.2 nothing), String.ofList_toList]
  · intro before after whole unclosed table
    have written : text.toList = before.toList ++ '{' :: '{' :: after.toList := by simp [whole]
    apply String.toList_injective
    rw [filled, filled, written, resolve_unmatched unclosed table]
    simp

/-- Three opening braces in a row, blanks around a name, and an opening without a closing. -/
def braced : String := "x\x7b\x7b\x7bA\x7d\x7d\x7d\x7b\x7b B \x7d\x7d\x7b\x7bC"

def bracedPieces : List Segment :=
  [.literal "x".toList, .reference "\x7bA".toList, .literal "\x7d".toList, .reference " B ".toList,
    .literal "\x7b\x7bC".toList]

/-- A table with a value that looks like a placeholder. -/
def nested : Variables := { bindings := [("\x7bA", "1"), ("B", "\x7b\x7b\x7bA\x7d\x7d\x7d"), ("C", "2")] }

def inverted : String := "a\x7d\x7d\x7b\x7bb"

theorem substitution_one_pass_braced :
    Segmented braced.toList bracedPieces ∧
    (nested.substitute braced).toList = "x1\x7d\x7b\x7b\x7bA\x7d\x7d\x7d\x7b\x7bC".toList ∧
    nested.substitute braced = (nested.set "C" "3").substitute braced ∧
    (¬ HoldsPlaceholder inverted.toList ∧ nested.substitute inverted = inverted) ∧
    ¬ ['}', '}'] <:+: "C".toList ∧
    nested.substitute braced =
      nested.substitute "x\x7b\x7b\x7bA\x7d\x7d\x7d\x7b\x7b B \x7d\x7d" ++ "\x7b\x7b" ++ "C" := by
  have pieces : segments braced.toList = bracedPieces := by cbv
  have segmented : Segmented braced.toList bracedPieces := pieces ▸ segmented_segments braced.toList
  have nothing : ¬ HoldsPlaceholder inverted.toList := placeholder?_eq_none_iff.1 (by rfl)
  obtain ⟨-, filled, agree⟩ := (substitution_one_pass braced).2.1 _ segmented
  refine ⟨segmented, filled nested, agree nested _ ?_, ⟨nothing, ?_⟩, by decide, ?_⟩
  · intro name member
    simp only [bracedPieces, List.mem_cons, reduceCtorEq, Segment.reference.injEq, false_or, or_false,
      List.not_mem_nil] at member
    rcases member with rfl | rfl <;> rfl
  · exact (substitution_one_pass inverted).2.2.1 nothing nested
  · exact (substitution_one_pass braced).2.2.2 _ _ (by rfl) (by decide) nested

end Rollout.Variables
