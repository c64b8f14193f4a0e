import Mathlib.Data.List.Dedup
import Rollout.Proofs.Faithful

/-!
# Both sides in memory

A world made of two tables, one for what stands on the operator's machine and one for the remote host. It
answers by its tables and keeps them by what it is asked, without ever refusing what it could refuse. It is
a faithful world, so all that holds of transfers in faithful worlds can be seen at work in it.
-/

namespace Rollout.Deployment

open Rollout.LocalPath (visited place)
open Rollout.RemotePath (parts pathTo)

/-- What stands at places, latest first. -/
abbrev Table := List (Place × Standing)

namespace Table

def layout (table : Table) : Layout :=
  fun place => table.lookup place

def put (table : Table) (place : Place) (standing : Standing) : Table :=
  (place, standing) :: table

/-- The table with directories at those of the places where nothing stood. -/
def make (table : Table) (places : List Place) : Table :=
  (places.filter fun place => (table.lookup place).isNone).map (fun place => (place, .directory)) ++ table

/-- The name of an entry of a directory, if the place is one. -/
def nameIn (top : Place) (place : Place) : Option String :=
  if place.dropLast = top then place.getLast?.map String.ofList else none

def names (table : Table) (top : Place) : List String :=
  (table.filterMap fun entry => nameIn top entry.1).dedup

variable {table : Table} {top : Place}

theorem layout_put (table : Table) (place : Place) (standing : Standing) :
    (table.put place standing).layout = table.layout.set place standing := by
  funext other
  by_cases same : other = place
  · simp [layout, put, Layout.set, same]
  · simp [layout, put, Layout.set, same, List.lookup_cons, beq_false_of_ne same]

theorem lookup_directories (places : List Place) (other : Place) :
    (places.map fun place => (place, Standing.directory)).lookup other =
      if other ∈ places then some .directory else none := by
  induction places with
  | nil => simp
  | cons place rest ih =>
    rw [List.map_cons, List.lookup_cons, ih]
    by_cases same : other = place
    · simp [same]
    · simp [same, beq_false_of_ne same]

theorem layout_make (table : Table) (places : List Place) :
    (table.make places).layout = table.layout.withDirectories places := by
  funext other
  rw [layout, make, List.lookup_append, lookup_directories, Layout.withDirectories]
  by_cases member : other ∈ places
  · cases there : table.lookup other <;> simp [member, layout, there]
  · simp [member, layout]

theorem nameIn_eq_some_iff {place : Place} {name : String} :
    nameIn top place = some name ↔ place = top ++ [name.toList] := by
  rw [nameIn]
  constructor
  · intro named
    split at named
    next above =>
      obtain ⟨segment, last, rfl⟩ := Option.map_eq_some_iff.1 named
      rw [String.toList_ofList, ← above]
      exact (List.dropLast_append_getLast? segment last).symm
    · cases named
  · rintro rfl
    simp

theorem mem_names {name : String} :
    name ∈ table.names top ↔ (table.layout (top ++ [name.toList])).isSome = true := by
  rw [names, List.mem_dedup, List.mem_filterMap, layout, Option.isSome_iff_ne_none, ne_eq,
    List.lookup_eq_none_iff, not_forall]
  simp only [nameIn_eq_some_iff, bne_iff_ne, ne_eq]
  refine exists_congr fun entry => ?_
  rw [Classical.not_imp, Classical.not_not, eq_comm]

def ofTree (top : Place) : Tree → Table
  | .file content mode => [(top, .file content mode)]
  | .directory entries =>
    (top, .directory) :: entries.flatMap fun entry => ofTree (top ++ [entry.1.toList]) entry.2
termination_by tree => tree
decreasing_by exact Tree.sizeOf_lt_directory ‹_›

theorem prefix_of_mem_ofTree {top : Place} {tree : Tree} {entry : Place × Standing}
    (member : entry ∈ ofTree top tree) : top <+: entry.1 := by
  fun_induction ofTree top tree with
  | case1 top content mode =>
    obtain rfl := List.mem_singleton.1 member
    exact List.prefix_refl _
  | case2 top entries ih =>
    rcases List.mem_cons.1 member with rfl | below
    · exact List.prefix_refl _
    · obtain ⟨inner, among, inside⟩ := List.mem_flatMap.1 below
      exact (List.prefix_append top _).trans (ih inner among inside)

theorem lookup_ofTree_apart {top place : Place} {tree : Tree} (apart : ¬ top <+: place) :
    (ofTree top tree).lookup place = none :=
  List.lookup_eq_none_iff.2 fun _ member => bne_iff_ne.2 fun same =>
    apart (same ▸ prefix_of_mem_ofTree member)

/-- What entries show is found among what all of them show, each under its own name. -/
theorem lookup_flatMap_entries {entries : List (String × Tree)} {top rest : Place} {name : List Char}
    (distinct : entries.Pairwise fun first second => first.1 ≠ second.1)
    (inner : ∀ entry ∈ entries, (ofTree (top ++ [name]) entry.2).lookup (top ++ [name] ++ rest) =
      entry.2.at? rest) :
    (entries.flatMap fun entry => ofTree (top ++ [entry.1.toList]) entry.2).lookup
        (top ++ [name] ++ rest) =
      (entries.lookup (String.ofList name)).bind fun entry => entry.at? rest := by
  induction entries with
  | nil => rfl
  | cons entry others ih =>
    obtain ⟨new, distinct⟩ := List.pairwise_cons.1 distinct
    obtain ⟨first, inner⟩ := List.forall_mem_cons.1 inner
    rw [List.flatMap_cons, List.lookup_append, ih distinct inner, List.lookup_cons]
    by_cases same : entry.1.toList = name
    · subst same
      have absent : others.lookup (String.ofList entry.1.toList) = none :=
        List.lookup_eq_none_iff.2 fun other member => by simpa using new other member
      rw [first, absent]
      simp
    · have apart : ¬ top ++ [entry.1.toList] <+: top ++ [name] ++ rest :=
        Layout.not_prefix_of_ne same
      have different : (String.ofList name == entry.1) = false :=
        beq_false_of_ne fun equal => same (by rw [← equal, String.toList_ofList])
      rw [lookup_ofTree_apart apart, different, Option.none_or]

theorem beq_above (top : Place) (name : List Char) (rest : Place) :
    (top ++ name :: rest == top) = false := by
  simp

theorem lookup_ofTree {tree : Tree} (proper : tree.Proper) (top rest : Place) :
    (ofTree top tree).lookup (top ++ rest) = tree.at? rest := by
  induction proper generalizing top rest with
  | file content bits =>
    cases rest with
    | nil => simp [ofTree, Tree.at?, Tree.standing]
    | cons name rest =>
      rw [ofTree, List.lookup_cons, beq_above, Tree.at?]
      rfl
  | directory named ordered inner ih =>
    cases rest with
    | nil => simp [ofTree, Tree.at?, Tree.standing]
    | cons name rest =>
      have split : top ++ name :: rest = top ++ [name] ++ rest := by simp
      rw [ofTree, List.lookup_cons, beq_above, Tree.at?, split]
      refine lookup_flatMap_entries (Tree.distinct_of_ordered ordered) fun entry member => ?_
      exact ih entry member _ _

theorem layout_append_ofTree {tree : Tree} {top place : Place} (others : Table)
    (apart : ¬ top <+: place) : (others ++ ofTree top tree).layout place = others.layout place := by
  rw [layout, List.lookup_append, lookup_ofTree_apart apart, Option.or_none, layout]

/-- A tree that is put into a table where there is nothing stands there. -/
theorem standsAt_ofTree {tree : Tree} {top : Place} {others : Table} (proper : tree.Proper)
    (apart : ∀ entry ∈ others, ¬ top <+: entry.1) :
    tree.StandsAt (others ++ ofTree top tree).layout top := by
  intro rest
  have absent : others.lookup (top ++ rest) = none :=
    List.lookup_eq_none_iff.2 fun entry member => bne_iff_ne.2 fun same =>
      apart entry member (same ▸ List.prefix_append top rest)
  rw [layout, List.lookup_append, absent, Option.none_or, lookup_ofTree proper]

end Table

/-- Both sides in memory. -/
structure Store where
  files : Table
  remote : Table

namespace Store

def sides (store : Store) : Sides :=
  { files := store.files.layout, remote := store.remote.layout }

def describe : Standing → Metadata
  | .directory => { isDirectory := true, size := 0, mode := 0o755 }
  | .file content mode => { isDirectory := false, size := content.length, mode }

def metadata? (table : Table) (top : Place) : Option Metadata :=
  (table.lookup top).map describe

def changeMode (table : Table) (top : Place) (mode : Nat) : Table :=
  match table.lookup top with
  | some (.file content _) => table.put top (.file content mode)
  | _ => table

def arrivalMode : Nat := 0o600

def entries (table : Table) (top : Place) : List Entry :=
  (table.names top).map fun name =>
    { name, isDirectory := (table.lookup (top ++ [name.toList])).any Standing.isDirectory }

/-- What is in a file on one side comes to a place on the other. -/
def copied (source : Table) (origin : Place) (target : Table) (goal : Place) : Option (Table × Nat) :=
  match source.lookup origin with
  | some (.file content _) => some (target.put goal (.file content arrivalMode), content.length)
  | _ => none

/-- The answer to a call of a session, and what is in memory afterwards. -/
def call (here : Place) (store : Store) : (call : SessionCall) → Store × Except SessionError call.Result
  | .stat path => (store, match metadata? store.remote (parts path.toList) with
    | some metadata => .ok metadata
    | none => .error (.notFound path))
  | .list path => (store, .ok (entries store.remote (parts path.toList)))
  | .makeDirectories path =>
    ({ store with remote := store.remote.make (parts path.toList).inits }, .ok ())
  | .upload source target _ =>
    match copied store.files (place here source) store.remote (parts target.toList) with
    | some (remote, count) => ({ store with remote }, .ok count)
    | none => (store, .error (.io (.os .noEntry)))
  | .download source target _ =>
    match copied store.remote (parts source.toList) store.files (place here target) with
    | some (files, count) => ({ store with files }, .ok count)
    | none => (store, .error (.notFound source))
  | .chmod path mode =>
    ({ store with remote := changeMode store.remote (parts path.toList) mode }, .ok ())
  | .home => (store, .ok "/")
  | .close => (store, .ok ())
  | .run .. | .rename .. | .copy .. | .remove _ | .capture .. => (store, .error (.task "closed"))

/-- The answer to a call of the machine, and what is in memory afterwards. -/
def machine (here : Place) (store : Store) : (call : MachineCall) → Store × call.Answer
  | .metadata path => (store, match metadata? store.files (place here path) with
    | some metadata => (.ok metadata : Except IoError Metadata)
    | none => .error (.os .noEntry))
  | .entries path => (store, (.ok (store.files.names (place here path)) : Except IoError (List String)))
  | .makeDirectories path =>
    ({ store with files := store.files.make (visited here path) }, (.ok () : Except IoError Unit))
  | .setMode path mode =>
    ({ store with files := changeMode store.files (place here path) mode },
      (.ok () : Except IoError Unit))
  | .environmentVariable _ => (store, none)
  | .currentDirectory => (store, (.ok "" : Except IoError String))
  | .run .. => (store, (.error .emptyCommand : Except LocalError Unit))
  | .capture .. => (store, (.error .emptyCommand : Except LocalError String))

def answer (here : Place) (store : Store) : (request : Request) → Store × request.Answer
  | .session _ request => store.call here request
  | .machine request => store.machine here request
  | .report _ => (store, ())
  | .askPassword _ => (store, (.ok "" : Except IoError String))
  | .dial _ => (store, (.ok 0 : Except SessionError SessionId))

def after (here : Place) (store : Store) (past : Transcript) : Store :=
  past.foldl (fun now exchange => (now.answer here exchange.request).1) store

def behaviour (here : Place) (store : Store) : Behaviour :=
  fun past request => ((store.after here past).answer here request).2

def sees (here : Place) (store : Store) (past : Transcript) : Sides :=
  (store.after here past).sides

variable {here : Place} {store : Store}

theorem describe_describes (standing : Standing) : (describe standing).Describes standing := by
  cases standing <;> rfl

theorem metadata?_of_layout {table : Table} {top : Place} {standing : Standing}
    (stands : table.layout top = some standing) : metadata? table top = some (describe standing) := by
  rw [metadata?, show table.lookup top = some standing from stands, Option.map_some]

theorem layout_changeMode {table : Table} {top : Place} {content : Bytes} {old : Nat}
    (stands : table.layout top = some (.file content old)) (mode : Nat) :
    (changeMode table top mode).layout = table.layout.set top (.file content mode) := by
  rw [changeMode, show table.lookup top = some (.file content old) from stands]
  exact Table.layout_put ..

theorem copied_of_layout {source target : Table} {origin goal : Place} {content : Bytes} {mode : Nat}
    (stands : source.layout origin = some (.file content mode)) :
    copied source origin target goal =
      some (target.put goal (.file content arrivalMode), content.length) := by
  rw [copied, show source.lookup origin = some (.file content mode) from stands]

theorem namesIn_names (table : Table) (top : Place) : NamesIn (table.names top) table.layout top :=
  ⟨List.nodup_dedup _, fun _ => Table.mem_names⟩

theorem entriesIn_entries (table : Table) (top : Place) :
    EntriesIn (entries table top) table.layout top := by
  refine ⟨?_, fun entry => ?_⟩
  · rw [entries, List.map_map]
    exact (List.map_id _).symm ▸ List.nodup_dedup _
  · rw [entries, List.mem_map]
    constructor
    · rintro ⟨name, member, rfl⟩
      obtain ⟨standing, stands⟩ := Option.isSome_iff_exists.1 (Table.mem_names.1 member)
      exact ⟨standing, stands, by rw [show table.lookup _ = some standing from stands]; rfl⟩
    · rintro ⟨standing, stands, kind⟩
      refine ⟨entry.name, Table.mem_names.2 (Option.isSome_iff_exists.2 ⟨standing, stands⟩), ?_⟩
      rw [show table.lookup _ = some standing from stands, Option.any_some, ← kind]

/-- A request is answered by what is in memory then. -/
theorem gives {past : Transcript} {request : Request} {now : Store} {reply : request.Answer}
    {after : Sides} (answers : (store.after here past).answer here request = (now, reply))
    (leaves : now.sides = after) :
    Gives (store.behaviour here) (store.sees here) past request reply after := by
  refine ⟨congrArg Prod.snd answers, ?_⟩
  rw [sees, Store.after, List.foldl_append, ← leaves]
  exact congrArg (fun reply => reply.1.sides) answers

theorem sees_eq (past : Transcript) : store.sees here past =
    { files := (store.after here past).files.layout
      remote := (store.after here past).remote.layout } := rfl

theorem parts_pathTo {top : Place} (named : ∀ part ∈ top, IsEntry part) :
    parts (pathTo top).toList = top :=
  RemotePath.parts_pathTo fun part member => (named part member).toIsName

/-- Both sides in memory do as they are documented to. -/
theorem faithful (here : Place) (store : Store) (session : SessionId) :
    Faithful (store.behaviour here) (store.sees here) session here where
  report past report := gives rfl rfl
  metadata := by
    intro past path standing leads
    have stands : (store.after here past).files.layout (place here path) = some standing := leads.stands
    refine ⟨describe standing, describe_describes standing, gives ?_ rfl⟩
    rw [answer, machine, metadata?_of_layout stands]
    rfl
  entries _ := ⟨_, namesIn_names .., gives rfl rfl⟩
  pave _ := gives rfl (by rw [sides, Table.layout_make, sees_eq])
  setMode := by
    intro past path content old mode leads bits
    refine gives rfl ?_
    rw [sides, layout_changeMode leads.stands, sees_eq]
  stat := by
    intro past top standing named stands
    refine ⟨describe standing, describe_describes standing, gives ?_ rfl⟩
    rw [answer, call, parts_pathTo named, metadata?_of_layout stands]
    rfl
  list := by
    intro past top named stands
    refine ⟨_, entriesIn_entries .., gives ?_ rfl⟩
    rw [answer, call, parts_pathTo named]
    rfl
  makeDirectories := by
    intro past top named free
    refine gives rfl ?_
    rw [sides, parts_pathTo named, Table.layout_make, sees_eq]
  upload := by
    intro past path content mode top name transfer leads named made vacant
    let now := store.after here past
    let target := now.remote.put (top ++ [name]) (.file content arrivalMode)
    have leaves : ({ now with remote := target } : Store).sides = { store.sees here past with
        remote := (store.sees here past).remote.set (top ++ [name]) (.file content arrivalMode) } := by
      rw [sides, Table.layout_put, sees_eq]
    refine ⟨arrivalMode, gives ?_ leaves⟩
    rw [answer, call, parts_pathTo named, copied_of_layout leads.stands]
    rfl
  chmod := by
    intro past content old mode top named stands bits
    refine gives rfl ?_
    rw [sides, parts_pathTo named, layout_changeMode stands, sees_eq]
  download := by
    intro past path content mode top transfer named stands opens
    let now := store.after here past
    let target := now.files.put (place here path) (.file content arrivalMode)
    have leaves : ({ now with files := target } : Store).sides = { store.sees here past with
        files := (store.sees here past).files.set (place here path) (.file content arrivalMode) } := by
      rw [sides, Table.layout_put, sees_eq]
    refine ⟨arrivalMode, gives ?_ leaves⟩
    rw [answer, call, parts_pathTo named, copied_of_layout stands]
    rfl

end Store

/-- A directory with two files, one of which tells no mode, and an empty directory in it. -/
def sample : Tree :=
  .directory [("a", .file [1, 2] 0o600), ("b", .file [3] 0), ("e", .directory [])]

theorem proper_sample : sample.Proper := by
  have entry (c : Char) (single : c ≠ '/') (notHere : c ≠ '.') (noNul : Char.ofNat 0 ≠ c) :
      IsEntry [c] :=
    ⟨⟨by simp, by simpa, by simp, by simpa using single.symm⟩, by simpa⟩
  refine .directory ?_ ?_ ?_
  · simpa using ⟨entry 'a' (by decide) (by decide) (by decide),
      entry 'b' (by decide) (by decide) (by decide), entry 'e' (by decide) (by decide) (by decide)⟩
  · decide
  · simpa using ⟨.file _ (by decide), .file _ (by decide), .directory (by simp) (by simp) (by simp)⟩

/-- The sample stands at `d` on both sides, on the machine in the directory in which the program runs. -/
def bothSides : Store :=
  { files := [([], .directory), ([['w']], .directory)] ++ Table.ofTree [['w'], ['d']] sample
    remote := [([], .directory)] ++ Table.ofTree [['d']] sample }

end Rollout.Deployment
