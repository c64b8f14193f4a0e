import Rollout.Text.Blank

/-!
# Variables

The values that earlier `VAR` steps assigned, and their use in later steps. A placeholder is a name
between two opening and two closing braces; blanks around the name do not matter. Substitution never
fails and never looks twice: an unknown name stands for nothing, an opening without a closing is plain
text, and a value that was put in is not searched for placeholders again.

This is section 4.3 of the specification.
-/

namespace Rollout

open Rollout.Text

/-- A table of values by name; each name is bound at most once. -/
structure Variables where
  bindings : List (String × String) := []
  deriving DecidableEq, Repr

namespace Variables

def empty : Variables := {}

def get? (table : Variables) (name : String) : Option String :=
  table.bindings.lookup name

/-- The bindings with `name` bound to `value`, in its old place if it had one. -/
def bind (name value : String) : List (String × String) → List (String × String)
  | [] => [(name, value)]
  | binding :: rest =>
    if binding.1 = name then (name, value) :: rest else binding :: bind name value rest

def set (table : Variables) (name value : String) : Variables :=
  { bindings := bind name value table.bindings }

def size (table : Variables) : Nat :=
  table.bindings.length

inductive Segment where
  /-- Text that stands for itself. -/
  | literal (text : List Char)
  /-- What stands between the braces of a placeholder, blanks included. -/
  | reference (name : List Char)
  deriving DecidableEq, Repr

/-- The text before and after the first two braces of the given kind in a row. -/
def cutAtPair (brace : Char) : List Char → Option (List Char × List Char)
  | a :: b :: rest =>
    if a = brace ∧ b = brace then some ([], rest)
    else (cutAtPair brace (b :: rest)).map fun (before, after) => (a :: before, after)
  | _ => none

theorem cutAtPair_length {brace : Char} {text before after : List Char}
    (found : cutAtPair brace text = some (before, after)) : after.length < text.length := by
  fun_induction cutAtPair brace text generalizing before after with
  | case1 a b rest hit =>
    simp only [Option.some.injEq, Prod.mk.injEq] at found
    simp only [← found.2, List.length_cons]
    omega
  | case2 a b rest miss ih =>
    simp only [Option.map_eq_some_iff, Prod.exists, Prod.mk.injEq] at found
    obtain ⟨before', after', inner, _, rfl⟩ := found
    have := ih inner
    simp only [List.length_cons] at this ⊢
    omega
  | case3 text _ => simp at found

/-- The first placeholder of a text: what stands before it, between its braces, and after it. Each
opening is matched with the first closing after it. -/
def placeholder? (text : List Char) : Option (List Char × List Char × List Char) :=
  (cutAtPair '{' text).bind fun (before, inside) =>
    (cutAtPair '}' inside).map fun (name, rest) => (before, name, rest)

theorem placeholder?_length {text before name rest : List Char}
    (found : placeholder? text = some (before, name, rest)) : rest.length < text.length := by
  simp only [placeholder?, Option.bind_eq_some_iff, Option.map_eq_some_iff, Prod.exists,
    Prod.mk.injEq] at found
  obtain ⟨_, inside, opened, _, _, closed, _, _, rfl⟩ := found
  exact Nat.lt_trans (cutAtPair_length closed) (cutAtPair_length opened)

/-- The pieces of a text, from left to right. Text from an opening without a closing is literal. -/
def segments (text : List Char) : List Segment :=
  match _ : placeholder? text with
  | none => [.literal text]
  | some (before, name, rest) => .literal before :: .reference name :: segments rest
termination_by text.length
decreasing_by exact placeholder?_length ‹_›

def expand (table : Variables) : Segment → List Char
  | .literal text => text
  | .reference name => ((table.get? (String.ofList (trim name))).getD "").toList

/-- The text with every placeholder replaced by its value. -/
def substitute (table : Variables) (text : String) : String :=
  String.ofList ((segments text.toList).flatMap table.expand)

end Variables

end Rollout
