import Mathlib.Algebra.GroupWithZero.Nat
import Mathlib.Data.List.Infix
import Rollout.Copy
import Rollout.Proofs.Paths

/-!
# Layouts of files

What stands on one side of a transfer is seen as a table from places to what stands there. A tree is what
a source consists of, with its entries in ascending order of their names. A shape is grafted onto a layout
at a place: there and below it the layout shows what the shape has, and elsewhere, or where the shape has
nothing, what it showed before. A directory is grafted by grafting its entries one after the other.
-/

namespace Rollout

/-- The names that lead from the root to a place. -/
abbrev Place := List (List Char)

/-- What can stand at a place. -/
inductive Standing where
  | directory
  | file (content : Bytes) (mode : Nat)
  deriving DecidableEq, Repr

def Standing.isDirectory : Standing → Bool
  | directory => true
  | file .. => false

theorem Standing.isDirectory_iff {standing : Standing} :
    standing.isDirectory = true ↔ standing = .directory := by
  cases standing <;> simp [isDirectory]

/-- What stands at each place. -/
abbrev Layout := Place → Option Standing

namespace Layout

def set (layout : Layout) (place : Place) (standing : Standing) : Layout :=
  fun other => if other = place then some standing else layout other

/-- The layout with directories at those of the places where nothing stood. -/
def withDirectories (layout : Layout) (places : List Place) : Layout :=
  fun place => if place ∈ places then (layout place).or (some .directory) else layout place

/-- The layout with a shape put onto it at a place. -/
def graft (layout : Layout) (top : Place) (shape : Layout) : Layout :=
  fun place => if top <+: place then (shape (place.drop top.length)).or (layout place) else layout place

/-- Where the shape would come to stand there is no file in place of a directory of the shape and no
directory in place of a file. -/
def Admits (layout : Layout) (top : Place) (shape : Layout) : Prop :=
  ∀ rest coming there, shape rest = some coming → layout (top ++ rest) = some there →
    coming.isDirectory = there.isDirectory

/-- There is no file at any of the places. -/
def Free (layout : Layout) (places : List Place) : Prop :=
  ∀ place ∈ places, ∀ standing, layout place = some standing → standing = .directory

/-- There is a directory at each of the places. -/
def Made (layout : Layout) (places : List Place) : Prop :=
  ∀ place ∈ places, layout place = some .directory

variable {layout shape : Layout} {top place rest : Place} {places : List Place}

theorem set_self (layout : Layout) (place : Place) (standing : Standing) :
    layout.set place standing place = some standing :=
  if_pos rfl

theorem set_set (layout : Layout) (place : Place) (first second : Standing) :
    (layout.set place first).set place second = layout.set place second := by
  funext other
  unfold set
  split <;> rfl

theorem withDirectories_apply_of_mem (member : place ∈ places) :
    layout.withDirectories places place = (layout place).or (some .directory) :=
  if_pos member

theorem withDirectories_apply_of_not_mem (absent : place ∉ places) :
    layout.withDirectories places place = layout place :=
  if_neg absent

/-- Directories that are there already are not made again. -/
theorem withDirectories_of_made (made : layout.Made places) : layout.withDirectories places = layout := by
  funext place
  by_cases member : place ∈ places
  · rw [withDirectories_apply_of_mem member, made place member]
    rfl
  · exact withDirectories_apply_of_not_mem member

theorem made_withDirectories (free : layout.Free places) :
    (layout.withDirectories places).Made places := by
  intro place member
  rw [withDirectories_apply_of_mem member]
  cases there : layout place with
  | none => rfl
  | some standing =>
    rw [free place member standing there]
    rfl

/-- A file that is written where no directory is takes none away. -/
theorem Made.set (made : layout.Made places)
    (vacant : ∀ standing, layout place = some standing → standing ≠ .directory) (standing : Standing) :
    (layout.set place standing).Made places := by
  intro other member
  have different : other ≠ place := fun same => vacant .directory (same ▸ made other member) rfl
  rw [Layout.set, if_neg different, made other member]

theorem withDirectories_append (layout : Layout) (first second : List Place) :
    layout.withDirectories (first ++ second) =
      (layout.withDirectories first).withDirectories second := by
  funext place
  unfold withDirectories
  by_cases early : place ∈ first <;> by_cases late : place ∈ second <;> simp [early, late]

theorem Made.free (made : layout.Made places) : layout.Free places := by
  intro place member standing stands
  rw [made place member] at stands
  exact (Option.some.inj stands).symm

/-- What stands in the way of directories does so before others are made, too. -/
theorem Free.of_withDirectories {more : List Place} (free : (layout.withDirectories places).Free more) :
    layout.Free more := by
  intro place member standing stands
  refine free place member standing ?_
  unfold Layout.withDirectories
  split <;> rw [stands]
  rfl

theorem Free.append {more : List Place} (free : layout.Free places) (others : layout.Free more) :
    layout.Free (places ++ more) := by
  intro place member
  exact (List.mem_append.1 member).elim (free place) (others place)

theorem graft_append (layout shape : Layout) (top rest : Place) :
    layout.graft top shape (top ++ rest) = (shape rest).or (layout (top ++ rest)) := by
  rw [graft, if_pos (List.prefix_append top rest), List.drop_left]

theorem graft_apart (apart : ¬ top <+: place) : layout.graft top shape place = layout place :=
  if_neg apart

/-- Two layouts are the same if they agree below a place and apart from it. -/
theorem ext_at {first second : Layout} (top : Place)
    (below : ∀ rest, first (top ++ rest) = second (top ++ rest))
    (apart : ∀ place, ¬ top <+: place → first place = second place) : first = second := by
  funext place
  by_cases under : top <+: place
  · obtain ⟨rest, rfl⟩ := under
    exact below rest
  · exact apart place under

/-- A graft leaves a directory one. -/
theorem graft_directory (admits : layout.Admits top shape) (stands : layout place = some .directory) :
    layout.graft top shape place = some .directory := by
  by_cases under : top <+: place
  · obtain ⟨rest, rfl⟩ := under
    rw [graft_append]
    cases coming : shape rest with
    | none => exact stands
    | some standing =>
      have kind := admits rest standing .directory coming stands
      rw [Standing.isDirectory_iff.1 kind]
      rfl
  · rw [graft_apart under, stands]

theorem made_graft (admits : layout.Admits top shape) (made : layout.Made places) :
    (layout.graft top shape).Made places :=
  fun place member => graft_directory admits (made place member)

/-- A directory can be made where one is to be grafted, and the graft will not know. -/
theorem graft_withDirectories (directory : shape [] = some .directory) :
    (layout.withDirectories [top]).graft top shape = layout.graft top shape := by
  refine ext_at top (fun rest => ?_) fun place apart => ?_
  · rw [graft_append, graft_append]
    cases rest with
    | nil => rw [directory, Option.some_or, Option.some_or]
    | cons name rest =>
      rw [withDirectories_apply_of_not_mem]
      simp
  · have different : place ∉ [top] := by
      rintro member
      exact apart (List.mem_singleton.1 member ▸ List.prefix_refl _)
    rw [graft_apart apart, graft_apart apart, withDirectories_apply_of_not_mem different]

theorem Admits.withDirectories (admits : layout.Admits top shape)
    (directory : shape [] = some .directory) : (layout.withDirectories [top]).Admits top shape := by
  intro rest coming there shaped stands
  cases rest with
  | nil =>
    rw [directory] at shaped
    cases shaped
    rw [List.append_nil, withDirectories_apply_of_mem (List.mem_singleton_self top)] at stands
    cases before : layout top with
    | none =>
      rw [before] at stands
      cases stands
      rfl
    | some standing =>
      rw [before] at stands
      obtain rfl : standing = there := Option.some.inj stands
      exact admits [] .directory standing directory (by rwa [List.append_nil])
  | cons name rest =>
    rw [withDirectories_apply_of_not_mem (by simp)] at stands
    exact admits (name :: rest) coming there shaped stands

/-- Where a directory is to be grafted, one can be made. -/
theorem Admits.free (admits : layout.Admits top shape) (directory : shape [] = some .directory) :
    layout.Free [top] := by
  intro place member standing stands
  obtain rfl := List.mem_singleton.1 member
  have kind := admits [] .directory standing directory (by rwa [List.append_nil])
  exact Standing.isDirectory_iff.1 kind.symm

theorem Made.append {more : List Place} (made : layout.Made places) (others : layout.Made more) :
    layout.Made (places ++ more) := by
  intro place member
  exact (List.mem_append.1 member).elim (made place) (others place)

theorem Made.withDirectories {more : List Place} (made : layout.Made places) :
    (layout.withDirectories more).Made places := by
  intro place member
  unfold Layout.withDirectories
  split <;> rw [made place member]
  rfl

/-- Where a file is to be grafted there is no directory. -/
theorem Admits.vacant {content : Bytes} {mode : Nat} (admits : layout.Admits top shape)
    (file : shape [] = some (.file content mode)) :
    ∀ standing, layout top = some standing → standing ≠ .directory := by
  rintro standing stands rfl
  have kind := admits [] _ .directory file (by rwa [List.append_nil])
  cases kind

/-- Places under different names of one directory are apart. -/
theorem not_prefix_of_ne {name other : List Char} (different : name ≠ other) :
    ¬ top ++ [name] <+: top ++ [other] ++ rest := by
  rw [List.append_assoc, List.prefix_append_right_inj]
  simp [different]

/-- A graft under one name of a directory leaves room under another. -/
theorem Admits.graft_ne {shape' : Layout} {name other : List Char} (different : name ≠ other)
    (admits : layout.Admits (top ++ [other]) shape') :
    (layout.graft (top ++ [name]) shape).Admits (top ++ [other]) shape' := by
  intro rest coming there shaped stands
  rw [graft_apart (not_prefix_of_ne different)] at stands
  exact admits rest coming there shaped stands

end Layout

theorem inits_concat (top : Place) (name : List Char) :
    (top ++ [name]).inits = top.inits ++ [top ++ [name]] := by
  rw [List.inits_append]
  simp

/-- Directories that are made on the way to a place do not matter for what is below it. -/
theorem Layout.Admits.below {layout shape : Layout} {top : Place} {name : List Char}
    (admits : layout.Admits (top ++ [name]) shape) :
    (layout.withDirectories top.inits).Admits (top ++ [name]) shape := by
  intro rest coming there shaped stands
  refine admits rest coming there shaped ?_
  rwa [Layout.withDirectories_apply_of_not_mem] at stands
  rw [List.mem_inits, List.append_assoc]
  intro short
  have length := short.length_le
  simp only [List.length_append, List.length_cons, List.length_nil] at length
  omega

/-- A file or a directory with all that is in it. -/
inductive Tree where
  | file (content : Bytes) (mode : Nat)
  | directory (entries : List (String × Tree))

/-- A name that an entry of a directory can have: it leads one level down and holds no NUL. -/
structure IsEntry (segment : List Char) : Prop extends IsName segment where
  noNul : Char.ofNat 0 ∉ segment

namespace Tree

def standing : Tree → Standing
  | file content mode => .file content mode
  | directory _ => .directory

def isDirectory (tree : Tree) : Bool :=
  tree.standing.isDirectory

/-- What stands at a place seen from the place of the tree. -/
def at? (tree : Tree) (place : Place) : Option Standing :=
  match place with
  | [] => some tree.standing
  | name :: rest =>
    match tree with
    | file .. => none
    | directory entries => (entries.lookup (String.ofList name)).bind fun entry => entry.at? rest

theorem sizeOf_lt_directory {entries : List (String × Tree)} {entry : String × Tree}
    (member : entry ∈ entries) : sizeOf entry.2 < sizeOf (directory entries) := by
  have within := List.sizeOf_lt_of_mem member
  obtain ⟨name, tree⟩ := entry
  simp only [Prod.mk.sizeOf_spec, directory.sizeOf_spec] at within ⊢
  omega

def size : Tree → Nat
  | file content _ => content.length
  | directory entries => (entries.map fun entry => entry.2.size).sum
termination_by tree => tree
decreasing_by exact sizeOf_lt_directory ‹_›

/-- Directories are nested at most so deep. -/
def FitsIn : Nat → Tree → Prop
  | _, file .. => True
  | 0, directory _ => False
  | depth + 1, directory entries => ∀ entry ∈ entries, FitsIn depth entry.2

/-- Entries have names of entries, each its own, and are in the order of their names, and modes are
permission bits. -/
inductive Proper : Tree → Prop
  | file (content : Bytes) {mode : Nat} (bits : mode < 0o10000) : Proper (file content mode)
  | directory {entries : List (String × Tree)} (named : ∀ entry ∈ entries, IsEntry entry.1.toList)
      (ordered : entries.Pairwise fun first second => first.1 < second.1)
      (inner : ∀ entry ∈ entries, Proper entry.2) : Proper (directory entries)

theorem Proper.ordered {entries : List (String × Tree)} (proper : (Tree.directory entries).Proper) :
    entries.Pairwise fun first second => first.1 < second.1 := by
  cases proper with
  | directory _ ordered _ => exact ordered

theorem Proper.bits {content : Bytes} {mode : Nat} (proper : (Tree.file content mode).Proper) :
    mode < 0o10000 := by
  cases proper with
  | file _ bits => exact bits

/-- What the tree shows at each place, each standing seen in some way. -/
def seen (view : Standing → Standing) (tree : Tree) : Layout :=
  fun place => (tree.at? place).map view

def branches (view : Standing → Standing) (entries : List (String × Tree)) : Layout
  | [] => none
  | name :: rest => (entries.lookup (String.ofList name)).bind fun entry => entry.seen view rest

variable {view : Standing → Standing} {entries : List (String × Tree)} {tree : Tree} {name : String}

theorem seen_id (tree : Tree) : tree.seen id = tree.at? := by
  funext place
  exact Option.map_id'

/-- There is room for a tree however its standings are seen, as long as files are seen as files. -/
theorem admits_seen {layout : Layout} {top : Place}
    (kinds : ∀ standing, (view standing).isDirectory = standing.isDirectory)
    (admits : layout.Admits top tree.at?) : layout.Admits top (tree.seen view) := by
  intro rest coming there shaped stands
  obtain ⟨standing, at_, rfl⟩ := Option.map_eq_some_iff.1 shaped
  rw [kinds]
  exact admits rest standing there at_ stands

theorem seen_file (content : Bytes) (mode : Nat) (top : Place) (layout : Layout) :
    layout.graft top ((file content mode).seen view) = layout.set top (view (.file content mode)) := by
  refine Layout.ext_at top (fun rest => ?_) fun place apart => ?_
  · rw [Layout.graft_append]
    cases rest with
    | nil => simp [seen, at?, standing, Layout.set]
    | cons name rest => simp [seen, at?, Layout.set]
  · have different : place ≠ top := fun same => apart (same ▸ List.prefix_refl _)
    rw [Layout.graft_apart apart, Layout.set, if_neg different]

/-- On a directory, a directory is grafted as its entries are. -/
theorem seen_directory {layout : Layout} {top : Place} (made : layout top = some .directory)
    (same : view .directory = .directory) :
    layout.graft top ((directory entries).seen view) = layout.graft top (branches view entries) := by
  refine Layout.ext_at top (fun rest => ?_) fun place apart => ?_
  · rw [Layout.graft_append, Layout.graft_append]
    cases rest with
    | nil => simp [seen, at?, standing, same, branches, made]
    | cons name rest =>
      rw [seen, at?, Option.map_bind]
      rfl
  · rw [Layout.graft_apart apart, Layout.graft_apart apart]

theorem branches_nil : branches view [] = fun _ => none := by
  funext place
  cases place <;> rfl

theorem branches_cons_same {rest : Place} :
    branches view ((name, tree) :: entries) (name.toList :: rest) = tree.seen view rest := by
  simp [branches]

theorem branches_cons_ne {other : List Char} {rest : Place} (different : other ≠ name.toList) :
    branches view ((name, tree) :: entries) (other :: rest) = branches view entries (other :: rest) := by
  have absent : (String.ofList other == name) = false :=
    beq_false_of_ne fun same => different (by rw [← same, String.toList_ofList])
  rw [branches, branches, List.lookup_cons, absent]

theorem branches_of_new {rest : Place} (new : ∀ entry ∈ entries, name ≠ entry.1) :
    branches view entries (name.toList :: rest) = none := by
  have absent : entries.lookup name = none :=
    List.lookup_eq_none_iff.2 fun entry member => by simpa using new entry member
  rw [branches, String.ofList_toList, absent]
  rfl

/-- Entries with names of their own are grafted one after the other. -/
theorem graft_branches (layout : Layout) (top : Place)
    (distinct : entries.Pairwise fun first second => first.1 ≠ second.1) :
    entries.foldl (fun layout entry => layout.graft (top ++ [entry.1.toList]) (entry.2.seen view))
      layout = layout.graft top (branches view entries) := by
  induction entries generalizing layout with
  | nil =>
    rw [branches_nil]
    refine Layout.ext_at top (fun rest => ?_) fun place apart => ?_
    · rw [Layout.graft_append]
      rfl
    · rw [Layout.graft_apart apart]
      rfl
  | cons entry others ih =>
    obtain ⟨name, tree⟩ := entry
    obtain ⟨new, distinct⟩ := List.pairwise_cons.1 distinct
    rw [List.foldl_cons, ih _ distinct]
    refine Layout.ext_at top (fun rest => ?_) fun place apart => ?_
    · rw [Layout.graft_append, Layout.graft_append]
      cases rest with
      | nil =>
        have above : ¬ top ++ [name.toList] <+: top ++ [] := by
          rw [List.prefix_append_right_inj]
          simp
        rw [Layout.graft_apart above]
        rfl
      | cons other rest =>
        by_cases same : other = name.toList
        · subst same
          have below : top ++ name.toList :: rest = top ++ [name.toList] ++ rest := by simp
          rw [branches_of_new new, branches_cons_same, below, Layout.graft_append]
          rfl
        · have beside : ¬ top ++ [name.toList] <+: top ++ other :: rest := by
            rw [List.prefix_append_right_inj]
            simpa using Ne.symm same
          rw [branches_cons_ne same, Layout.graft_apart beside]
    · have beside : ¬ top ++ [name.toList] <+: place :=
        fun inside => apart ((List.prefix_append top _).trans inside)
      rw [Layout.graft_apart apart, Layout.graft_apart apart,
        Layout.graft_apart beside]

theorem lookup_of_mem (distinct : entries.Pairwise fun first second => first.1 ≠ second.1)
    (member : (name, tree) ∈ entries) : entries.lookup name = some tree := by
  induction entries with
  | nil => cases member
  | cons entry others ih =>
    obtain ⟨new, distinct⟩ := List.pairwise_cons.1 distinct
    rcases List.mem_cons.1 member with rfl | later
    · simp
    · have different : (name == entry.1) = false := beq_false_of_ne (new _ later).symm
      rw [List.lookup_cons, different]
      exact ih distinct later

theorem at?_entry (distinct : entries.Pairwise fun first second => first.1 ≠ second.1)
    (member : (name, tree) ∈ entries) (rest : Place) :
    (directory entries).at? (name.toList :: rest) = tree.at? rest := by
  rw [at?, String.ofList_toList, lookup_of_mem distinct member]
  rfl

theorem distinct_of_ordered (ordered : entries.Pairwise fun first second => first.1 < second.1) :
    entries.Pairwise fun first second => first.1 ≠ second.1 :=
  ordered.imp fun less => String.ne_of_lt less

theorem admits_entry {layout : Layout} {top : Place}
    (distinct : entries.Pairwise fun first second => first.1 ≠ second.1)
    (member : (name, tree) ∈ entries)
    (admits : layout.Admits top ((directory entries).seen view)) :
    layout.Admits (top ++ [name.toList]) (tree.seen view) := by
  intro rest coming there shaped stands
  refine admits (name.toList :: rest) coming there ?_ (by rwa [List.append_assoc] at stands)
  rw [seen, at?_entry distinct member]
  exact shaped

/-- The layout can take the entries of a directory: all places that lead to it are directories, and under
each name there is room for the entry. -/
structure Awaits (layout : Layout) (ways : List Place) (top : Place) (view : Standing → Standing)
    (entries : List (String × Tree)) : Prop where
  made : layout.Made ways
  distinct : entries.Pairwise fun first second => first.1 ≠ second.1
  admits : ∀ entry ∈ entries, layout.Admits (top ++ [entry.1.toList]) (entry.2.seen view)

/-- Once an entry is there, the others can still come. -/
theorem Awaits.next {layout : Layout} {ways : List Place} {top : Place} {entry : String × Tree}
    (awaits : Awaits layout ways top view (entry :: entries)) :
    Awaits (layout.graft (top ++ [entry.1.toList]) (entry.2.seen view)) ways top view entries := by
  obtain ⟨new, distinct⟩ := List.pairwise_cons.1 awaits.distinct
  obtain ⟨admits, others⟩ := List.forall_mem_cons.1 awaits.admits
  refine ⟨Layout.made_graft admits awaits.made, distinct, fun other later => ?_⟩
  have apart : entry.1.toList ≠ other.1.toList := fun same => new other later (String.toList_inj.1 same)
  exact (others other later).graft_ne apart

/-- Where a directory is to come and the places that lead to it are free, it can be made and take its
entries. -/
theorem Awaits.start {layout : Layout} {ways : List Place} {top : Place} (free : layout.Free ways)
    (admits : (layout.withDirectories ways).Admits top ((directory entries).seen view))
    (same : view .directory = .directory)
    (distinct : entries.Pairwise fun first second => first.1 ≠ second.1) :
    Awaits (layout.withDirectories (ways ++ [top])) (ways ++ [top]) top view entries := by
  have directory : (directory entries).seen view [] = some .directory := congrArg some same
  rw [Layout.withDirectories_append]
  refine ⟨?_, distinct,
    fun entry member => admits_entry distinct member (admits.withDirectories directory)⟩
  exact (Layout.made_withDirectories free).withDirectories.append
    (Layout.made_withDirectories (admits.free directory))

/-- When the entries have come one after the other, the directory has come. -/
theorem foldl_graft {layout : Layout} {ways : List Place} {top : Place} (free : layout.Free ways)
    (admits : (layout.withDirectories ways).Admits top ((directory entries).seen view))
    (same : view .directory = .directory)
    (distinct : entries.Pairwise fun first second => first.1 ≠ second.1) :
    entries.foldl (fun layout entry => layout.graft (top ++ [entry.1.toList]) (entry.2.seen view))
      (layout.withDirectories (ways ++ [top])) =
        (layout.withDirectories ways).graft top ((directory entries).seen view) := by
  have directory : (directory entries).seen view [] = some .directory := congrArg some same
  have there := (Awaits.start free admits same distinct).made top (by simp)
  rw [graft_branches _ _ distinct, ← seen_directory there same, Layout.withDirectories_append,
    Layout.graft_withDirectories directory]

/-- The tree is what stands at and below the place. -/
def StandsAt (tree : Tree) (layout : Layout) (top : Place) : Prop :=
  ∀ rest, layout (top ++ rest) = tree.at? rest

section StandsAt

variable {layout : Layout} {top : Place}

theorem StandsAt.here (stands : tree.StandsAt layout top) : layout top = some tree.standing := by
  have here := stands []
  rwa [List.append_nil] at here

theorem StandsAt.entry (distinct : entries.Pairwise fun first second => first.1 ≠ second.1)
    (stands : (directory entries).StandsAt layout top) (member : (name, tree) ∈ entries) :
    tree.StandsAt layout (top ++ [name.toList]) := by
  intro rest
  rw [List.append_assoc]
  exact (stands _).trans (at?_entry distinct member rest)

/-- What stands directly in a directory are its entries. -/
theorem StandsAt.child_iff (distinct : entries.Pairwise fun first second => first.1 ≠ second.1)
    (stands : (directory entries).StandsAt layout top) {standing : Standing} :
    layout (top ++ [name.toList]) = some standing ↔
      ∃ tree, (name, tree) ∈ entries ∧ tree.standing = standing := by
  rw [stands, at?, String.ofList_toList]
  constructor
  · intro found
    obtain ⟨tree, looked, here⟩ := Option.bind_eq_some_iff.1 found
    obtain ⟨before, after, rfl, _⟩ := List.lookup_eq_some_iff.1 looked
    exact ⟨tree, by simp, Option.some.inj here⟩
  · rintro ⟨tree, member, rfl⟩
    rw [lookup_of_mem distinct member]
    rfl

/-- The names of what stands directly in a directory are those of its entries. -/
theorem StandsAt.mem_names_iff (distinct : entries.Pairwise fun first second => first.1 ≠ second.1)
    (stands : (directory entries).StandsAt layout top) :
    name ∈ entries.map Prod.fst ↔ (layout (top ++ [name.toList])).isSome = true := by
  rw [Option.isSome_iff_exists, List.mem_map]
  constructor
  · rintro ⟨⟨_, tree⟩, member, rfl⟩
    exact ⟨_, (stands.child_iff distinct).2 ⟨tree, member, rfl⟩⟩
  · rintro ⟨standing, there⟩
    obtain ⟨tree, member, _⟩ := (stands.child_iff distinct).1 there
    exact ⟨_, member, rfl⟩

end StandsAt

end Tree

end Rollout
