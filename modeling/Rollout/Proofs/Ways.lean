import Rollout.Proofs.Layout

/-!
# Ways to places

A clean remote path is the text for a place. A local path is followed segment by segment, from the root or
from the directory in which the program runs, and all places that it comes by count: they have to be there,
or have to be made, before there can be anything at its end. Joining a name to a path goes one place
further on either side.
-/

namespace Rollout

open Rollout.Text

theorem Text.mem_of_mem_splitOn {mark c : Char} {text piece : List Char}
    (member : piece ∈ splitOn mark text) (inside : c ∈ piece) : c ∈ text := by
  induction text generalizing piece with
  | nil =>
    obtain rfl := List.mem_singleton.1 member
    exact inside
  | cons first rest ih =>
    rw [splitOn] at member
    split at member
    · rcases List.mem_cons.1 member with rfl | later
      · cases inside
      · exact List.mem_cons_of_mem _ (ih later inside)
    · cases pieces : splitOn mark rest with
      | nil => exact absurd pieces (splitOn_ne_nil mark rest)
      | cons piece' more =>
        rw [pieces] at ih member
        rcases List.mem_cons.1 member with rfl | later
        · rcases List.mem_cons.1 inside with rfl | within
          · exact List.mem_cons_self ..
          · exact List.mem_cons_of_mem _ (ih (List.mem_cons_self ..) within)
        · exact List.mem_cons_of_mem _ (ih (List.mem_cons_of_mem _ later) inside)

namespace RemotePath

def pathTo (place : Place) : String :=
  String.ofList ('/' :: joinWith '/' place)

variable {place : Place} {name : String}

theorem clean_eq_pathTo {path : String} (root : isAbsolute path.toList = true) :
    clean path = pathTo (parts path.toList) := by
  rw [clean, cleanChars_of_isAbsolute root]
  rfl

theorem isAbsolute_pathTo (place : Place) : isAbsolute (pathTo place).toList = true := by
  rw [pathTo, String.toList_ofList]
  rfl

theorem parts_pathTo (named : ∀ part ∈ place, IsName part) : parts (pathTo place).toList = place := by
  rw [pathTo, String.toList_ofList, parts_root_joinWith named]

theorem mem_push {absolute : Bool} {stack : List (List Char)} {segment part : List Char}
    (member : part ∈ push absolute stack segment) : part = segment ∨ part ∈ stack := by
  unfold push at member
  grind

/-- What a path comes down to are segments of it. -/
theorem mem_splitOn_of_mem_parts {path part : List Char} (member : part ∈ parts path) :
    part ∈ splitOn '/' path := by
  have among {segments stack : List (List Char)}
      (member : part ∈ segments.foldl (push (isAbsolute path)) stack) :
      part ∈ segments ∨ part ∈ stack := by
    induction segments generalizing stack with
    | nil => exact .inr member
    | cons segment rest ih =>
      rcases ih member with later | now
      · exact .inl (List.mem_cons_of_mem _ later)
      · rcases mem_push now with rfl | before
        · exact .inl (List.mem_cons_self ..)
        · exact .inr before
  rcases among (List.mem_reverse.1 member) with segment | none
  · exact segment
  · cases none

/-- What is joined is clean. -/
theorem join_eq_pathTo {base : String} (root : isAbsolute base.toList = true) :
    join base name = pathTo (parts (join base name).toList) := by
  have nonempty : base.isEmpty = false := by
    rw [← Bool.not_eq_true]
    intro empty
    simp [String.isEmpty_iff.1 empty, isAbsolute] at root
  have below : isAbsolute (base ++ "/" ++ name).toList = true := by
    rw [String.append_assoc, String.toList_append]
    exact isAbsolute_append root _
  have joined : join base name = clean (base ++ "/" ++ name) := by
    rw [join, nonempty]
    rfl
  rw [joined, clean, String.toList_ofList, parts_cleanChars below]
  exact clean_eq_pathTo below

theorem join_pathTo (named : ∀ part ∈ place, IsName part) (entry : IsName name.toList) :
    join (pathTo place) name = pathTo (place ++ [name.toList]) := by
  have root := isAbsolute_pathTo place
  rw [join_eq_pathTo root, (join_name root entry).2, parts_pathTo named]

theorem baseName_pathTo (named : ∀ part ∈ place, IsName part) (entry : IsName name.toList) :
    baseName (pathTo (place ++ [name.toList])) = name := by
  refine baseName_of_parts (parts_pathTo fun part member => ?_)
  rcases List.mem_append.1 member with above | last
  · exact named part above
  · exact List.mem_singleton.1 last ▸ entry

end RemotePath

namespace LocalPath

def enter (place : Place) (segment : List Char) : Place :=
  if segment = ['.'] then place
  else if segment = ['.', '.'] then place.dropLast
  else place ++ [segment]

/-- The places that segments lead to, one after the other, with the one they start from. -/
def trail (place : Place) : List (List Char) → List Place
  | [] => [place]
  | segment :: rest => place :: trail (enter place segment) rest

def start (here : Place) (path : String) : Place :=
  if isAbsolute path then [] else here

def visited (here : Place) (path : String) : List Place :=
  trail (start here path) (components path)

/-- The place that a path leads to. -/
def place (here : Place) (path : String) : Place :=
  (components path).foldl enter (start here path)

/-- The path ends in a name, with no slash after it. -/
def EndsInName (path : String) : Prop :=
  ∃ name, (splitOn '/' path.toList).getLast? = some name ∧ IsName name

/-- The last segment of the path that is not empty is a dot. -/
def EndsInDot (path : String) : Prop :=
  ((splitOn '/' path.toList).filter fun segment => !segment.isEmpty).getLast? = some ['.']

variable {here from_ : Place} {base path name : String} {segment : List Char}

theorem enter_name (named : IsName segment) : enter from_ segment = from_ ++ [segment] := by
  rw [enter, if_neg named.notHere, if_neg named.notAbove]

theorem trail_append_name (named : IsName segment) (segments : List (List Char)) :
    trail from_ (segments ++ [segment]) =
      trail from_ segments ++ [segments.foldl enter from_ ++ [segment]] := by
  induction segments generalizing from_ with
  | nil => simp [trail, enter_name named]
  | cons first rest ih => simp [trail, ih]

theorem getLast?_trail (segments : List (List Char)) :
    (trail from_ segments).getLast? = some (segments.foldl enter from_) := by
  induction segments generalizing from_ with
  | nil => rfl
  | cons first rest ih => simp [trail, List.getLast?_cons, ih]

theorem start_mem_visited : start here path ∈ visited here path := by
  unfold visited
  cases components path <;> simp [trail]

theorem place_mem_visited : place here path ∈ visited here path :=
  List.mem_of_getLast? (getLast?_trail _)

theorem mem_visited_iff {other : Place} :
    other ∈ visited here path ↔ other ∈ (visited here path).dropLast ∨ other = place here path := by
  have split : (visited here path).dropLast ++ [place here path] = visited here path :=
    List.dropLast_append_getLast? _ (getLast?_trail _)
  rw [← split, List.mem_append, List.mem_singleton, split]

theorem mem_kept {pieces : List (List Char)} (member : segment ∈ kept pieces) :
    segment ∈ pieces ∧ (segment = ['.'] ∨ counts segment = true) := by
  cases pieces with
  | nil => cases member
  | cons first rest =>
    rw [kept] at member
    split at member
    next dot =>
      rcases List.mem_cons.1 member with rfl | later
      · exact ⟨List.mem_cons_self .., .inl dot⟩
      · obtain ⟨among, counted⟩ := List.mem_filter.1 later
        exact ⟨List.mem_cons_of_mem _ among, .inr counted⟩
    next =>
      obtain ⟨among, counted⟩ := List.mem_filter.1 member
      exact ⟨among, .inr counted⟩

/-- A path that ends in a name: the name is one, and its text is part of the path's. -/
theorem fileName_isName (ends : fileName path = some name) :
    IsName name.toList ∧ ∀ c ∈ name.toList, c ∈ path.toList := by
  rw [fileName] at ends
  cases last : (components path).getLast? with
  | none => simp [last] at ends
  | some segment =>
    simp only [last, Option.ite_none_left_eq_some, not_or, Option.some.injEq] at ends
    obtain ⟨⟨notHere, notAbove⟩, rfl⟩ := ends
    have member := List.mem_of_getLast? last
    rw [components_eq] at member
    obtain ⟨among, dot | counted⟩ := mem_kept member
    · exact absurd dot notHere
    · rw [String.toList_ofList]
      refine ⟨⟨?_, notHere, notAbove, not_mem_of_mem_splitOn among⟩, fun c inside => ?_⟩
      · rintro rfl
        simp [counts] at counted
      · exact mem_of_mem_splitOn among inside

section Join

variable (named : IsName name.toList)

include named

theorem start_join : start here (join base name) = start here base := by
  rw [start, start, (enters_join base named).absolute]

theorem place_join : place here (join base name) = place here base ++ [name.toList] := by
  rw [place, start_join named, (enters_join base named).below, List.foldl_append]
  exact enter_name named

theorem visited_join :
    visited here (join base name) = visited here base ++ [place here (join base name)] := by
  rw [place_join named, visited, start_join named, (enters_join base named).below,
    trail_append_name named]
  rfl

theorem baseName_join : baseName (join base name) = name := by
  rw [baseName, fileName, (enters_join base named).below, List.getLast?_concat]
  simp [named.notHere, named.notAbove]

/-- The text that is joined ends in the name, after a slash if there is anything before it. -/
theorem join_cases (base : String) : join base name = name ∨
    ∃ before, (join base name).toList = before ++ '/' :: name.toList ∧
      ∀ c ∈ before, c ∈ base.toList := by
  have relative := isAbsolute_name named
  by_cases empty : base.isEmpty = true
  · exact .inl (by simp [join, empty])
  · by_cases slashed : base.toList.getLast? = some '/'
    · obtain ⟨before, text⟩ := List.getLast?_eq_some_iff.1 slashed
      refine .inr ⟨before, by simp [join, relative, empty, text], fun c member => ?_⟩
      simp [text, member]
    · exact .inr ⟨base.toList, by simp [join, relative, empty, slashed], fun c member => member⟩

theorem getLast?_splitOn_join (base : String) :
    (splitOn '/' (join base name).toList).getLast? = some name.toList := by
  have alone := splitOn_of_not_mem named.single
  rcases join_cases named base with whole | ⟨before, text, _⟩
  · rw [whole, alone]
    rfl
  · rw [text, splitOn_append_mark, alone, List.getLast?_concat]

theorem endsInName_join : EndsInName (join base name) :=
  ⟨_, getLast?_splitOn_join named _, named⟩

theorem not_endsInDot_join : ¬ EndsInDot (join base name) := by
  obtain ⟨before, split⟩ := List.getLast?_eq_some_iff.1 (getLast?_splitOn_join named base)
  rw [EndsInDot, split, List.filter_append]
  simp [named.nonempty, named.notHere]

theorem join_ne_empty : join base name ≠ "" := by
  intro empty
  have last := getLast?_splitOn_join named base
  rw [empty] at last
  exact named.nonempty (Option.some.inj last).symm

theorem not_mem_join {c : Char} (outer : c ∉ base.toList) (inner : c ∉ name.toList) (other : c ≠ '/') :
    c ∉ (join base name).toList := by
  rcases join_cases named base with whole | ⟨before, text, within⟩
  · rwa [whole]
  · rw [text]
    simp only [List.mem_append, List.mem_cons, not_or]
    exact ⟨fun member => outer (within c member), other, inner⟩

end Join

end LocalPath

end Rollout
