import Rollout.LocalPath
import Rollout.RemotePath

/-!
# Segments of paths

Cleaning an absolute remote path leaves a list of names, and that list is all there is to say about the
path: going one level down puts a name at its end, and cleaning again changes nothing. A local path is
not cleaned, but a name that is joined to it is one more component at its end.
-/

namespace Rollout.Text

variable {mark : Char}

/-- The pieces are those of the list library. -/
theorem splitOn_eq (mark : Char) (text : List Char) : splitOn mark text = text.splitOn mark := by
  induction text with
  | nil => rfl
  | cons c rest ih =>
    rw [List.splitOn_cons_eq_if_modifyHead, splitOn, ih]
    by_cases same : c = mark
    · simp [same]
    · cases pieces : rest.splitOn mark with
      | nil => exact absurd pieces (List.splitOn_ne_nil mark rest)
      | cons piece more => simp [same]

theorem joinWith_eq (mark : Char) (pieces : List (List Char)) :
    joinWith mark pieces = [mark].intercalate pieces := by
  induction pieces with
  | nil => rfl
  | cons piece rest ih =>
    cases rest with
    | nil => simp [joinWith]
    | cons next others =>
      rw [List.intercalate_cons_cons, ← ih]
      simp [joinWith]

theorem splitOn_append_mark (before after : List Char) :
    splitOn mark (before ++ mark :: after) = splitOn mark before ++ splitOn mark after := by
  simp only [splitOn_eq]
  exact List.splitOn_append_cons_self before after

theorem splitOn_of_not_mem {text : List Char} (absent : mark ∉ text) : splitOn mark text = [text] := by
  rw [splitOn_eq]
  exact List.splitOn_eq_singleton absent

theorem splitOn_joinWith {pieces : List (List Char)} (free : ∀ piece ∈ pieces, mark ∉ piece)
    (nonempty : pieces ≠ []) : splitOn mark (joinWith mark pieces) = pieces := by
  rw [splitOn_eq, joinWith_eq]
  exact List.splitOn_intercalate mark free nonempty

theorem exists_mem_splitOn {c : Char} {text : List Char} (member : c ∈ text) (other : c ≠ mark) :
    ∃ piece ∈ splitOn mark text, c ∈ piece := by
  induction text with
  | nil => cases member
  | cons d rest ih =>
    rw [splitOn]
    split
    next same =>
      have later : c ∈ rest := (List.mem_cons.1 member).resolve_left fun here => other (here.trans same)
      obtain ⟨piece, among, inside⟩ := ih later
      exact ⟨piece, by simp [among], inside⟩
    next =>
      cases pieces : splitOn mark rest with
      | nil => exact absurd pieces (splitOn_ne_nil mark rest)
      | cons first more =>
        rw [pieces] at ih
        obtain rfl | later := List.mem_cons.1 member
        · exact ⟨c :: first, by simp, by simp⟩
        · obtain ⟨piece, among, inside⟩ := ih later
          obtain rfl | among := List.mem_cons.1 among
          · exact ⟨d :: piece, by simp, by simp [inside]⟩
          · exact ⟨piece, by simp [among], inside⟩

theorem not_mem_of_mem_splitOn {text piece : List Char} (member : piece ∈ splitOn mark text) :
    mark ∉ piece := by
  induction text generalizing piece with
  | nil =>
    obtain rfl := List.mem_singleton.1 member
    simp
  | cons c rest ih =>
    rw [splitOn] at member
    split at member
    · rcases List.mem_cons.1 member with rfl | later
      · simp
      · exact ih later
    next different =>
      cases pieces : splitOn mark rest with
      | nil => exact absurd pieces (splitOn_ne_nil mark rest)
      | cons first more =>
        rw [pieces] at ih member
        rcases List.mem_cons.1 member with rfl | later
        · have free := ih (List.mem_cons_self ..)
          simpa [free] using fun same => different same.symm
        · exact ih (List.mem_cons_of_mem _ later)

end Rollout.Text

namespace Rollout

open Rollout.Text

/-- A segment that leads one level down. -/
structure IsName (segment : List Char) : Prop where
  nonempty : segment ≠ []
  notHere : segment ≠ ['.']
  notAbove : segment ≠ ['.', '.']
  single : '/' ∉ segment

namespace RemotePath

variable {absolute : Bool} {path segment : List Char} {stack names : List (List Char)}

theorem push_name (name : IsName segment) : push absolute stack segment = segment :: stack := by
  simp [push, name.nonempty, name.notHere, name.notAbove]

/-- Below the root, a stack of names stays one. -/
theorem push_names (named : ∀ part ∈ stack, IsName part) (single : '/' ∉ segment) :
    ∀ part ∈ push true stack segment, IsName part := by
  unfold push
  split
  · exact named
  next counts =>
    split
    · cases stack with
      | nil => simp
      | cons top below =>
        obtain ⟨here, there⟩ := List.forall_mem_cons.1 named
        simpa [here.notAbove] using there
    next notAbove =>
      rw [not_or] at counts
      exact List.forall_mem_cons.2 ⟨⟨counts.1, counts.2, notAbove, single⟩, named⟩

theorem foldl_push_names {segments : List (List Char)} (single : ∀ part ∈ segments, '/' ∉ part)
    (named : ∀ part ∈ stack, IsName part) :
    ∀ part ∈ segments.foldl (push true) stack, IsName part := by
  induction segments generalizing stack with
  | nil => exact named
  | cons segment rest ih =>
    obtain ⟨here, there⟩ := List.forall_mem_cons.1 single
    exact ih there (push_names named here)

/-- Names are stacked as they come. -/
theorem foldl_push (named : ∀ part ∈ names, IsName part) :
    names.foldl (push absolute) stack = names.reverse ++ stack := by
  induction names generalizing stack with
  | nil => rfl
  | cons name rest ih =>
    obtain ⟨here, there⟩ := List.forall_mem_cons.1 named
    rw [List.foldl_cons, push_name here, ih there]
    simp

/-- An absolute path comes down to names. -/
theorem parts_isName (root : isAbsolute path = true) : ∀ part ∈ parts path, IsName part := by
  intro part member
  rw [parts, root, List.mem_reverse] at member
  exact foldl_push_names (fun _ => not_mem_of_mem_splitOn) (by simp) part member

theorem isAbsolute_append (root : isAbsolute path = true) (more : List Char) :
    isAbsolute (path ++ more) = true := by
  cases path with
  | nil => cases root
  | cons c rest => exact root

/-- A name goes at the end of the parts. -/
theorem parts_append_name (root : isAbsolute path = true) (name : IsName segment) :
    parts (path ++ '/' :: segment) = parts path ++ [segment] := by
  simp only [parts, isAbsolute_append root, root, splitOn_append_mark, splitOn_of_not_mem name.single,
    List.foldl_append, List.foldl_cons, List.foldl_nil, push_name name, List.reverse_cons]

theorem cleanChars_of_isAbsolute (root : isAbsolute path = true) :
    cleanChars path = '/' :: joinWith '/' (parts path) := by
  simp [cleanChars, render, root]

/-- Names below the root are the parts of the path that is written with them. -/
theorem parts_root_joinWith (named : ∀ part ∈ names, IsName part) :
    parts ('/' :: joinWith '/' names) = names := by
  have split : splitOn '/' ('/' :: joinWith '/' names) = [] :: splitOn '/' (joinWith '/' names) := by
    simp [splitOn]
  rw [parts, split]
  cases names with
  | nil => rfl
  | cons name rest =>
    rw [splitOn_joinWith (fun part member => (named part member).single) (by simp)]
    change (List.foldl (push true) [] (name :: rest)).reverse = name :: rest
    rw [foldl_push named]
    simp

theorem isAbsolute_cleanChars (root : isAbsolute path = true) : isAbsolute (cleanChars path) = true := by
  rw [cleanChars_of_isAbsolute root]
  rfl

theorem parts_cleanChars (root : isAbsolute path = true) : parts (cleanChars path) = parts path := by
  rw [cleanChars_of_isAbsolute root, parts_root_joinWith (parts_isName root)]

/-- Only the root comes down to nothing. -/
theorem clean_eq_root_iff {path : String} (root : isAbsolute path.toList = true) :
    clean path = "/" ↔ parts path.toList = [] := by
  rw [← String.toList_inj, clean, String.toList_ofList, cleanChars_of_isAbsolute root]
  constructor
  · intro same
    have names := parts_root_joinWith (parts_isName root)
    rw [same] at names
    exact names.symm
  · intro empty
    rw [empty]
    rfl

/-- What is joined to an absolute path with a name: the same path with one more part. -/
theorem join_name {base name : String} (root : isAbsolute base.toList = true)
    (named : IsName name.toList) :
    isAbsolute (join base name).toList = true ∧
      parts (join base name).toList = parts base.toList ++ [name.toList] := by
  have nonempty : base.isEmpty = false := by
    rw [← Bool.not_eq_true]
    intro empty
    simp [String.isEmpty_iff.1 empty, isAbsolute] at root
  have below : (base ++ "/" ++ name).toList = base.toList ++ '/' :: name.toList := by simp
  rw [join, nonempty]
  simp only [Bool.false_eq_true, if_false, clean, String.toList_ofList, below]
  have rooted := isAbsolute_append root ('/' :: name.toList)
  exact ⟨isAbsolute_cleanChars rooted, by rw [parts_cleanChars rooted, parts_append_name root named]⟩

/-- The last part of a path is its name. -/
theorem baseName_of_parts {path last : String} {above : List (List Char)}
    (split : parts path.toList = above ++ [last.toList]) : baseName path = last := by
  simp [baseName, split]

end RemotePath

namespace LocalPath

/-- The pieces that count: all names, and a dot that begins the text. -/
def kept : List (List Char) → List (List Char)
  | [] => []
  | first :: rest =>
    if first = ['.'] then first :: rest.filter counts else (first :: rest).filter counts

theorem components_eq (path : String) : components path = kept (splitOn '/' path.toList) := by
  unfold components kept
  rfl

theorem kept_append {pieces : List (List Char)} (nonempty : pieces ≠ []) (more : List (List Char)) :
    kept (pieces ++ more) = kept pieces ++ more.filter counts := by
  cases pieces with
  | nil => exact absurd rfl nonempty
  | cons first rest =>
    simp only [kept, List.cons_append, List.filter_append]
    split
    · rfl
    · rw [← List.cons_append, List.filter_append]

theorem counts_name {segment : List Char} (named : IsName segment) : counts segment = true := by
  simp [counts, named.nonempty, named.notHere]

theorem isAbsolute_name {name : String} (named : IsName name.toList) : isAbsolute name = false := by
  unfold isAbsolute
  cases text : name.toList with
  | nil => rfl
  | cons c rest =>
    have single := named.single
    rw [text] at single
    have different : c ≠ '/' := fun same => single (by simp [same])
    simp [different]

/-- A name after a slash is one more component. -/
theorem components_slash_name {before segment : List Char} {path : String} (named : IsName segment)
    (text : path.toList = before ++ '/' :: segment) :
    components path = kept (splitOn '/' before) ++ [segment] := by
  rw [components_eq, text, splitOn_append_mark, splitOn_of_not_mem named.single,
    kept_append (splitOn_ne_nil '/' before)]
  simp [counts_name named]

/-- `inner` is `outer` itself or below it, judged by the texts alone. -/
def Covers (outer inner : String) : Prop :=
  isAbsolute outer = isAbsolute inner ∧ components outer <+: components inner

/-- `inner` is one level below `outer`, under the name. -/
structure Enters (outer : String) (name : List Char) (inner : String) : Prop where
  isName : IsName name
  absolute : isAbsolute inner = isAbsolute outer
  below : components inner = components outer ++ [name]

/-- A name that is joined to a path is one more component at its end. -/
theorem enters_join (base : String) {name : String} (named : IsName name.toList) :
    Enters base name.toList (join base name) := by
  have relative := isAbsolute_name named
  by_cases empty : base = ""
  · subst empty
    have joined : join "" name = name := by simp [join]
    rw [joined]
    refine ⟨named, relative, ?_⟩
    have alone : kept [name.toList] = [name.toList] := by
      simp only [kept, named.notHere, if_false, List.filter_cons, counts_name named, if_true,
        List.filter_nil]
    rw [components_eq, splitOn_of_not_mem named.single, alone]
    rfl
  · have nonempty : base.isEmpty = false := by simpa using empty
    have headed (more : String) : isAbsolute (base ++ more) = isAbsolute base := by
      unfold isAbsolute
      cases text : base.toList with
      | nil => exact absurd (String.toList_eq_nil_iff.1 text) empty
      | cons c rest => simp [text]
    by_cases slashed : base.toList.getLast? = some '/'
    · obtain ⟨before, text⟩ := List.getLast?_eq_some_iff.1 slashed
      have joined : join base name = base ++ name := by simp [join, relative, nonempty, slashed]
      have shape : (base ++ name).toList = before ++ '/' :: name.toList := by simp [text]
      have whole : components base = kept (splitOn '/' before) := by
        rw [components_eq, text, splitOn_append_mark, kept_append (splitOn_ne_nil '/' before)]
        simp [splitOn, counts]
      rw [joined]
      exact ⟨named, headed name, by rw [components_slash_name named shape, whole]⟩
    · have joined : join base name = base ++ ("/" ++ name) := by
        simp [join, relative, nonempty, slashed, String.append_assoc]
      have shape : (base ++ ("/" ++ name)).toList = base.toList ++ '/' :: name.toList := by simp
      rw [joined]
      exact ⟨named, headed _, by rw [components_slash_name named shape, components_eq]⟩

variable {outer base inner above directory landing : String} {name : List Char}

theorem covers_refl (path : String) : Covers path path :=
  ⟨rfl, List.prefix_refl _⟩

theorem Covers.trans (first : Covers outer base) (second : Covers base inner) : Covers outer inner :=
  ⟨first.1.trans second.1, first.2.trans second.2⟩

theorem Enters.covers (enters : Enters outer name inner) : Covers outer inner :=
  ⟨enters.absolute.symm, enters.below ▸ List.prefix_append _ _⟩

/-- Above a path that is entered into a directory, or below it, there are only the directory, what is
above the directory, and what is at or below the entered path. -/
theorem Enters.above_or_below (enters : Enters directory name landing) (inside : Covers landing inner)
    (onWay : Covers above inner) : Covers above directory ∨ Covers landing above := by
  have rooted : isAbsolute above = isAbsolute directory :=
    onWay.1.trans (inside.1.symm.trans enters.absolute)
  rcases List.prefix_or_prefix_of_prefix onWay.2 inside.2 with short | long
  · rw [enters.below, List.prefix_concat_iff] at short
    rcases short with same | within
    · have whole : components landing = components above := enters.below.trans same.symm
      exact .inr ⟨enters.absolute.trans rooted.symm, whole ▸ List.prefix_refl _⟩
    · exact .inl ⟨rooted, within⟩
  · exact .inr ⟨enters.absolute.trans rooted.symm, long⟩

/-- Joined to a directory, the root is the root. -/
theorem join_root (directory : String) : join directory "/" = "/" := by
  have rooted : isAbsolute "/" = true := rfl
  simp [join, rooted]

theorem root_join {name : String} (named : IsName name.toList) : join "/" name = "/" ++ name := by
  have relative := isAbsolute_name named
  simp [join, relative]

/-- What is one level below a directory and leads to a name at the root has that name. -/
theorem Enters.eq_of_root_covers {file : String} (enters : Enters directory name landing)
    (named : IsName file.toList) (inside : Covers landing ("/" ++ file)) : name = file.toList := by
  have shape : ("/" ++ file).toList = [] ++ '/' :: file.toList := by simp
  have alone : components ("/" ++ file) = [file.toList] := components_slash_name named shape
  obtain ⟨rest, same⟩ := inside.2
  rw [alone, enters.below] at same
  cases above : components directory with
  | nil =>
    rw [above] at same
    exact (List.cons.inj same).1
  | cons head tail =>
    rw [above] at same
    simp at same

end LocalPath

end Rollout
