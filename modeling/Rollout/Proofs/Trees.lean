import Rollout.Proofs.CleanPaths
import Rollout.Proofs.Server
import Rollout.Proofs.Ways

/-!
# Trees of directories

In a tree every entry stands in a directory, up to the root. The clean path to a place is one name below
the clean path to the place above it, so a new directory in a directory leaves a tree, and what stands at a
place has directories at all places above it. Where there are no links, a clean path leads to itself.
-/

namespace Rollout

open Rollout.Text

namespace RemotePath

variable {top place : Place} {name : List Char}

/-- The path to a place is its names, each after a slash. -/
theorem toList_pathTo (nonempty : place ≠ []) : (pathTo place).toList = place.flatMap ('/' :: ·) := by
  rw [pathTo, String.toList_ofList]
  induction place with
  | nil => exact absurd rfl nonempty
  | cons first rest ih =>
    cases rest with
    | nil => simp [joinWith]
    | cons next more =>
      have later := ih (by simp)
      rw [List.flatMap_cons, ← later, joinWith]
      · rfl
      · simp

theorem toList_pathTo_concat (place : Place) (name : List Char) :
    (pathTo (place ++ [name])).toList = place.flatMap ('/' :: ·) ++ '/' :: name := by
  rw [toList_pathTo (by simp), List.flatMap_append]
  simp

/-- Different places have different paths. -/
theorem pathTo_inj (named : ∀ part ∈ top, IsName part) (named' : ∀ part ∈ place, IsName part) :
    pathTo top = pathTo place ↔ top = place := by
  constructor
  · intro same
    rw [← parts_pathTo named, same, parts_pathTo named']
  · exact congrArg pathTo

theorem pathTo_eq_root_iff (named : ∀ part ∈ place, IsName part) : pathTo place = "/" ↔ place = [] :=
  (pathTo_inj named (by simp) : pathTo place = pathTo [] ↔ place = [])

/-- An entry of a directory has the path of the directory and a name after it. -/
theorem child_pathTo (named : ∀ part ∈ place, IsName part) (name : List Char) :
    Files.child (pathTo place) (String.ofList name) = pathTo (place ++ [name]) := by
  apply String.toList_injective
  rw [toList_pathTo_concat, Files.child]
  by_cases top : place = []
  · rw [if_pos ((pathTo_eq_root_iff named).2 top), top]
    simp
  · rw [if_neg fun root => top ((pathTo_eq_root_iff named).1 root), String.toList_append,
      String.toList_append, toList_pathTo top]
    simp

theorem parent_pathTo (named : ∀ part ∈ place ++ [name], IsName part) :
    Files.parent (pathTo (place ++ [name])) = pathTo place := by
  have split : splitOn '/' (pathTo (place ++ [name])).toList = [] :: (place ++ [name]) := by
    rw [pathTo, String.toList_ofList, splitOn, if_pos rfl,
      splitOn_joinWith (fun part member => (named part member).single) (by simp)]
  rw [Files.parent, split]
  cases place with
  | nil => rfl
  | cons first rest =>
    have above : ([] :: (first :: rest ++ [name])).dropLast = [] :: first :: rest := by
      rw [← List.cons_append, List.dropLast_concat]
    rw [above]
    rfl

theorem parent_pathTo_dropLast (named : ∀ part ∈ place, IsName part) :
    Files.parent (pathTo place) = pathTo place.dropLast := by
  rcases List.eq_nil_or_concat place with rfl | ⟨above, name, rfl⟩
  · decide
  · rw [List.concat_eq_append] at named ⊢
    rw [parent_pathTo named, List.dropLast_concat]

/-- The name of an entry is the last of the names on the way to it. -/
theorem name_pathTo (named : ∀ part ∈ place ++ [name], IsName part) :
    Files.name (pathTo (place ++ [name])) = String.ofList name := by
  rw [Files.name, pathTo, String.toList_ofList, splitOn, if_pos rfl,
    splitOn_joinWith (fun part member => (named part member).single) (by simp), List.getLast?_cons]
  simp

theorem name_root : Files.name (pathTo []) = "" := by
  decide

/-- The names on the way to a place are what is left of its path between the slashes. -/
theorem splitOn_pathTo (named : ∀ part ∈ place, IsName part) :
    (splitOn '/' (pathTo place).toList).filter (fun segment => !segment.isEmpty) = place := by
  rw [pathTo, String.toList_ofList, splitOn, if_pos rfl]
  cases place with
  | nil => rfl
  | cons first rest =>
    rw [splitOn_joinWith (fun part member => (named part member).single) (by simp),
      List.filter_cons_of_neg (by simp), List.filter_eq_self.2]
    intro part member
    simpa using (named part member).nonempty

theorem prefixesFrom_cons (named : ∀ part ∈ top, IsName part) (rest : Place) :
    Files.prefixesFrom (pathTo top) (name :: rest) =
      pathTo (top ++ [name]) :: Files.prefixesFrom (pathTo (top ++ [name])) rest := by
  rw [Files.prefixesFrom, child_pathTo named]

/-- The paths on the way from one place to another below it lead to the places in between. -/
theorem mem_prefixesFrom_iff {path : String} (named : ∀ part ∈ top ++ place, IsName part) :
    path ∈ Files.prefixesFrom (pathTo top) place ↔
      ∃ below, below <+: place ∧ below ≠ [] ∧ path = pathTo (top ++ below) := by
  induction place generalizing top with
  | nil => simp [Files.prefixesFrom]
  | cons name rest ih =>
    have above : ∀ part ∈ top, IsName part := fun part member => named part (by simp [member])
    rw [prefixesFrom_cons above, List.mem_cons, ih (by simpa using named)]
    constructor
    · rintro (rfl | ⟨below, within, _, rfl⟩)
      · exact ⟨[name], by simp, by simp, rfl⟩
      · exact ⟨name :: below, List.cons_prefix_cons.2 ⟨rfl, within⟩, by simp, by simp⟩
    · rintro ⟨below, within, nonempty, rfl⟩
      obtain ⟨first, more, rfl⟩ := List.exists_cons_of_ne_nil nonempty
      obtain ⟨rfl, onward⟩ := List.cons_prefix_cons.1 within
      by_cases here : more = []
      · exact .inl (by rw [here])
      · exact .inr ⟨more, onward, here, by simp⟩

/-- The prefixes of the path to a place are the paths to the places above it and to itself. -/
theorem mem_prefixes_iff {path : String} (named : ∀ part ∈ place, IsName part) :
    path ∈ Files.prefixes (pathTo place) ↔ ∃ above, above <+: place ∧ path = pathTo above := by
  have inner : path ∈ Files.prefixesFrom (pathTo []) place ↔
      ∃ below, below <+: place ∧ below ≠ [] ∧ path = pathTo ([] ++ below) := mem_prefixesFrom_iff named
  rw [Files.prefixes, splitOn_pathTo named, List.mem_cons]
  constructor
  · rintro (rfl | member)
    · exact ⟨[], List.nil_prefix, rfl⟩
    · obtain ⟨above, within, _, same⟩ := inner.1 member
      exact ⟨above, within, same⟩
  · rintro ⟨above, within, rfl⟩
    by_cases root : above = []
    · exact .inl (root ▸ rfl)
    · exact .inr (inner.2 ⟨above, within, root, rfl⟩)

/-- Clean paths are the paths to places. -/
theorem IsClean.exists_pathTo {path : String} (clean : IsClean path) :
    ∃ place : Place, (∀ part ∈ place, IsName part) ∧ path = pathTo place := by
  rcases clean.names with rfl | names
  · exact ⟨[], by simp, rfl⟩
  · obtain ⟨rest, text⟩ := List.head?_eq_some_iff.1 clean.rooted
    have split : splitOn '/' path.toList = [] :: splitOn '/' rest := by
      rw [text, splitOn, if_pos rfl]
    refine ⟨splitOn '/' rest, fun part member => ?_, ?_⟩
    · obtain ⟨nonempty, notHere, notAbove⟩ := names part (by rwa [split])
      exact ⟨nonempty, notHere, notAbove, not_mem_of_mem_splitOn member⟩
    · apply String.toList_injective
      rw [text, pathTo, String.toList_ofList, joinWith_splitOn]

end RemotePath

namespace Files

variable {files : Files} {path : String} {mode : Nat}

structure IsTree (files : Files) : Prop where
  root : files.isDirectory "/" = true
  nested : ∀ path node, files.get? path = some node → path ≠ "/" →
    files.isDirectory (Files.parent path) = true

def Clean (files : Files) : Prop :=
  ∀ entry ∈ files.nodes, RemotePath.IsClean entry.1

/-- The entries of a directory have names. -/
theorem Clean.isName (clean : files.Clean) {entry : String × Node} (member : entry ∈ files.children path) :
    IsName (name entry.1).toList := by
  obtain ⟨present, isChild⟩ := List.mem_filter.1 member
  obtain ⟨place, named, same⟩ := (clean entry present).exists_pathTo
  rw [same] at isChild ⊢
  rcases List.eq_nil_or_concat place with rfl | ⟨above, last, rfl⟩
  · exact absurd isChild (by simp [Files.isChild, RemotePath.name_root])
  · rw [List.concat_eq_append] at named ⊢
    rw [RemotePath.name_pathTo named, String.toList_ofList]
    exact named last (by simp)

/-- A table with clean paths, each once, in ascending order. -/
structure Table (files : Files) : Prop where
  clean : files.Clean
  ordered : files.nodes.Pairwise fun first second => first.1 < second.1

/-- What is in such a table is found there. -/
theorem Table.get?_of_mem (table : files.Table) {node : Node} (member : (path, node) ∈ files.nodes) :
    files.get? path = some node := by
  have ordered := table.ordered
  obtain ⟨before, after, split⟩ := List.append_of_mem member
  rw [split] at ordered
  refine List.lookup_eq_some_iff.2 ⟨before, after, split, fun entry earlier => ?_⟩
  have less := (List.pairwise_append.1 ordered).2.2 entry earlier (path, node) (by simp)
  simpa using (String.ne_of_lt less).symm

/-- An entry of a directory stands under its name in it. -/
theorem eq_child {entry : String × Node} (member : entry ∈ files.children path) :
    entry.1 = child path (name entry.1) := by
  have isChild := (List.mem_filter.1 member).2
  simp only [Files.isChild, Bool.and_eq_true, decide_eq_true_eq] at isChild
  exact isChild.1

theorem mem_of_get? {node : Node} (there : files.get? path = some node) : (path, node) ∈ files.nodes := by
  obtain ⟨before, after, split, _⟩ := List.lookup_eq_some_iff.1 there
  rw [split]
  simp

/-- It is enough to look at the entries of the table. -/
theorem isTree_of_nodes (root : files.isDirectory "/" = true)
    (nested : ∀ entry ∈ files.nodes, entry.1 = "/" ∨ files.isDirectory (parent entry.1) = true) :
    files.IsTree where
  root := root
  nested _ _ there inner := (nested _ (mem_of_get? there)).resolve_left inner

/-- No links are in the tree. -/
def Plain (files : Files) : Prop :=
  ∀ path target, files.get? path ≠ some (.link target)

theorem plain_of_nodes (plain : ∀ entry ∈ files.nodes, ∀ target, entry.2 ≠ .link target) : files.Plain :=
  fun _ target there => plain _ (mem_of_get? there) target rfl

theorem Plain.set_directory (plain : files.Plain) (path : String) (mode : Nat) :
    (files.set path (.directory mode)).Plain := by
  intro other target
  rw [get?_set]
  split
  · simp
  · exact plain other target

theorem isDirectory_iff : files.isDirectory path = true ↔ ∃ mode, files.get? path = some (.directory mode) := by
  unfold isDirectory
  cases there : files.get? path with
  | none => simp
  | some node => cases node <;> simp [Node.isDirectory]

theorem isDirectory_set_directory (files : Files) (path other : String) (mode : Nat) :
    (files.set path (.directory mode)).isDirectory other = true ↔
      other = path ∨ files.isDirectory other = true := by
  rw [isDirectory_iff, get?_set, isDirectory_iff]
  by_cases here : other = path
  · simp [here]
  · simp [here]

/-- A new directory in a directory leaves a tree. -/
theorem IsTree.set_directory (tree : files.IsTree) (below : files.isDirectory (parent path) = true)
    (mode : Nat) : (files.set path (.directory mode)).IsTree := by
  constructor
  · exact (isDirectory_set_directory ..).2 (.inr tree.root)
  · intro other node there inner
    rw [isDirectory_set_directory]
    rw [get?_set] at there
    split at there
    next here => exact .inr (here ▸ below)
    next => exact .inr (tree.nested other node there inner)

end Files

namespace Sftp

open RemotePath (pathTo child_pathTo)

variable {files : Files} {follow : Bool} {place : Place}

/-- Without links names lead down one by one. -/
theorem walk_plain (plain : files.Plain) {top : Place} (named : ∀ part ∈ top ++ place, IsName part)
    (nesting : Nat) :
    walk files follow nesting (pathTo top) (place.map String.ofList) = .ok (pathTo (top ++ place)) := by
  induction place generalizing top with
  | nil => simp [walk]
  | cons name rest ih =>
    have above : ∀ part ∈ top, IsName part := fun part member => named part (by simp [member])
    have later := @ih (top ++ [name]) (by simpa using named)
    have down : String.ofList name ≠ ".." := by
      intro up
      exact (named name (by simp)).notAbove (by simpa using congrArg String.toList up)
    rw [List.map_cons, walk]
    · rw [child_pathTo above]
      rw [List.append_assoc, List.singleton_append] at later
      split
      next target there => exact absurd there (plain _ target)
      next => exact later
    · exact fun up => down up

theorem segments_pathTo (named : ∀ part ∈ place, IsName part) :
    segments (pathTo place) = place.map String.ofList := by
  have counted (segment : List Char) :
      ((fun text : String => !(text.isEmpty || decide (text = "."))) ∘ String.ofList) segment =
        (decide (segment ≠ ['.']) && !segment.isEmpty) := by
    have nothing : (String.ofList segment).isEmpty = segment.isEmpty := by
      cases segment <;> simp [String.isEmpty_iff]
    have dot : String.ofList segment = "." ↔ segment = ['.'] :=
      ⟨fun same => by simpa using congrArg String.toList same, fun same => by rw [same]⟩
    simp [nothing, dot, Bool.and_comm]
  have kept : place.filter (fun segment => decide (segment ≠ ['.'])) = place := by
    rw [List.filter_eq_self]
    intro part member
    simpa using (named part member).notHere
  rw [segments, List.filter_map, List.filter_congr fun segment _ => counted segment, ← List.filter_filter,
    RemotePath.splitOn_pathTo named, kept]

/-- Without links a clean path leads to itself. -/
theorem locate_pathTo (plain : files.Plain) (named : ∀ part ∈ place, IsName part) (follow : Bool) :
    locate files follow (pathTo place) = .ok (pathTo place) := by
  rw [locate, segments_pathTo named]
  have whole : walk files follow nestingLimit (pathTo []) (place.map String.ofList) =
      .ok (pathTo ([] ++ place)) := walk_plain plain named nestingLimit
  exact whole

end Sftp

end Rollout
