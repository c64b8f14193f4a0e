import Rollout.Proofs.Leftovers
import Rollout.Proofs.Trees

/-!
# Chains of new directories

Making a directory and its parents asks for one prefix of the path after the other, shortest first, and
makes those that are missing. In a tree nothing is below what is missing, so from the first directory that
is made on all are made, each in the one before it, until the end or until the server refuses. Nothing that
was there is changed.

A path at which a file stands is found, and then the file stays where a directory was asked for.
-/

namespace Rollout

namespace Files

variable {files after : Files} {path other : String} {made : List String} {mode : Nat}

/-- The tree with new directories at the paths, in order: each path was free, and it is an entry of a
directory by then. -/
inductive Grown : Files → List String → Files → Prop
  | done (files : Files) : Grown files [] files
  | more {files after : Files} {path : String} {made : List String}
      (free : files.get? path = none) (inside : files.isDirectory (parent path) = true)
      (later : Grown (files.set path (.directory 0o755)) made after) : Grown files (path :: made) after

/-- New directories are all that is new. -/
theorem Grown.get? (grown : Grown files made after) (other : String) :
    after.get? other = if other ∈ made then some (.directory 0o755) else files.get? other := by
  induction grown with
  | done => simp
  | @more files after path made free inside later ih =>
    rw [ih, get?_set]
    by_cases new : other ∈ made
    · simp [new]
    · simp [new]

/-- New directories are where nothing was. -/
theorem Grown.free (grown : Grown files made after) : ∀ path ∈ made, files.get? path = none := by
  induction grown with
  | done => simp
  | @more files after path made free inside later ih =>
    refine List.forall_mem_cons.2 ⟨free, fun other member => ?_⟩
    have absent := ih other member
    rw [get?_set] at absent
    split at absent
    · cases absent
    · exact absent

theorem Grown.isTree (grown : Grown files made after) (tree : files.IsTree) : after.IsTree := by
  induction grown with
  | done => exact tree
  | more free inside later ih => exact ih (tree.set_directory inside _)

theorem Grown.isDirectory (grown : Grown files made after) (there : files.isDirectory path = true) :
    after.isDirectory path = true := by
  induction grown with
  | done => exact there
  | more free inside later ih => exact ih ((isDirectory_set_directory ..).2 (.inr there))

open RemotePath (pathTo parent_pathTo pathTo_inj pathTo_eq_root_iff)

/-- A new directory has no entries. -/
theorem IsTree.free_below_new {place : Place} {name : List Char} (tree : files.IsTree)
    (named : ∀ part ∈ place, IsName part) (entry : IsName name)
    (free : files.get? (pathTo place) = none) :
    (files.set (pathTo place) (.directory mode)).get? (pathTo (place ++ [name])) = none := by
  have inner : ∀ part ∈ place ++ [name], IsName part := by
    intro part member
    rcases List.mem_append.1 member with above | here
    · exact named part above
    · rwa [List.mem_singleton.1 here]
  rw [get?_set, if_neg fun same => by simpa using (pathTo_inj inner named).1 same]
  cases there : files.get? (pathTo (place ++ [name])) with
  | none => rfl
  | some node =>
    have nested := tree.nested _ node there fun root => by simpa using (pathTo_eq_root_iff inner).1 root
    rw [parent_pathTo inner, isDirectory, free] at nested
    cases nested

/-- Where something stands at each prefix of a path, all prefixes but the path itself are directories. -/
theorem IsTree.isDirectory_above {place : Place} (tree : files.IsTree) (named : ∀ part ∈ place, IsName part)
    (there : ∀ path ∈ prefixes (pathTo place), (files.get? path).isSome) (path : String)
    (member : path ∈ prefixes (pathTo place)) : path = pathTo place ∨ files.isDirectory path = true := by
  obtain ⟨above, ⟨more, rfl⟩, rfl⟩ := (RemotePath.mem_prefixes_iff named).1 member
  cases more with
  | nil => exact .inl (by rw [List.append_nil])
  | cons name rest =>
    have whole : ∀ part ∈ (above ++ [name]) ++ rest, IsName part := by simpa using named
    have inner : ∀ part ∈ above ++ [name], IsName part :=
      fun part member => whole part (List.mem_append_left _ member)
    have next := there (pathTo (above ++ [name]))
      ((RemotePath.mem_prefixes_iff named).2 ⟨above ++ [name], ⟨rest, by simp⟩, rfl⟩)
    obtain ⟨node, present⟩ := Option.isSome_iff_exists.1 next
    have nested := tree.nested _ node present fun root => by simpa using (pathTo_eq_root_iff inner).1 root
    rw [parent_pathTo inner] at nested
    exact .inr nested

end Files

namespace Sftp

open RemotePath (pathTo parent_pathTo)

variable {files files' : Files} {place : Place} {name : List Char}

/-- A directory that is made is an entry of a directory where nothing was. -/
theorem made_of_makeDirectory {mode : Nat} (plain : files.Plain)
    (named : ∀ part ∈ place ++ [name], IsName part)
    (makes : makeDirectory files (pathTo (place ++ [name])) mode = .ok files') :
    files.get? (pathTo (place ++ [name])) = none ∧ files.isDirectory (pathTo place) = true ∧
      files' = files.set (pathTo (place ++ [name])) (.directory (mode &&& modeMask)) := by
  unfold makeDirectory at makes
  rw [locate_pathTo plain named] at makes
  dsimp only [bind, Except.bind] at makes
  split at makes
  · cases makes
  next absent =>
    split at makes
    next inside =>
      cases makes
      refine ⟨by simpa using absent, ?_, rfl⟩
      rwa [hasParent, parent_pathTo named] at inside
    next => cases makes

end Sftp

namespace Ssh

open Exchange (exchange_bind exchange_tryCatch)
open Files (Grown)
open RemotePath (pathTo parent_pathTo prefixesFrom_cons)

variable {world after : World} {path : String} {result : Except SessionError Unit}

def makeDirectory (path : String) : Exchange Unit := do
  Exchange.request (.makeDirectory path directoryMode)
  Exchange.settle (Sftp.makeDirectory (← get).host.files path directoryMode)

/-- What making sure of a directory comes to: something is found there, a directory is made, or the server
refuses. -/
inductive Ensured (path : String) (before : Host) : Host → Except SessionError Unit → Prop
  | found {found : String × Node} (there : Sftp.find before.files true path = .ok found) :
      Ensured path before before (.ok ())
  | made {files : Files} (makes : Sftp.makeDirectory before.files path directoryMode = .ok files) :
      Ensured path before (before.holding files) (.ok ())
  | refused (error : SessionError) : Ensured path before before (.error error)

/-- A request for a new directory is refused, or the tree has the directory then. -/
theorem exchange_makeDirectory (world : World) (path : String) :
    (∃ error, (world.exchange (makeDirectory path)).2 = .error error ∧
      (world.exchange (makeDirectory path)).1.host = world.host) ∨
    ∃ files, Sftp.makeDirectory world.host.files path directoryMode = .ok files ∧
      (world.exchange (makeDirectory path)).2 = .ok () ∧
      (world.exchange (makeDirectory path)).1.host = world.host.holding files := by
  unfold makeDirectory
  rw [exchange_bind, exchange_request]
  cases world.host.fault? (.makeDirectory path directoryMode) with
  | some status => exact .inl ⟨_, rfl, rfl⟩
  | none =>
    dsimp only
    rw [exchange_get]
    have same : (world.note (.requested (.makeDirectory path directoryMode))).host = world.host := rfl
    rw [same, Exchange.settle, exchange_bind]
    cases makes : Sftp.makeDirectory world.host.files path directoryMode with
    | error status => exact .inl ⟨_, rfl, rfl⟩
    | ok files => exact .inr ⟨files, rfl, rfl, rfl⟩

/-- Making sure of a directory asks once or twice and changes the tree at most by the new directory. -/
theorem exchange_ensureDirectory (world : World) (path : String) :
    Ensured path world.host (world.exchange (ensureDirectory path)).1.host
      (world.exchange (ensureDirectory path)).2 := by
  unfold ensureDirectory
  rw [exchange_tryCatch, exchange_bind, exchange_attributes]
  cases look : world.host.look true path with
  | ok told =>
    obtain ⟨found, there⟩ := find_of_look look
    exact .found there
  | error status =>
    dsimp only [Except.mapError]
    by_cases missing : status.error.isMissing = true
    · rw [if_pos missing]
      change Ensured path world.host
        ((world.note (.requested (.stat path))).exchange (makeDirectory path)).1.host
        ((world.note (.requested (.stat path))).exchange (makeDirectory path)).2
      rcases exchange_makeDirectory (world.note (.requested (.stat path))) path with
        ⟨error, fails, host⟩ | ⟨files, makes, succeeds, host⟩
      · rw [fails, host]
        exact .refused error
      · rw [succeeds, host]
        exact .made makes
    · rw [if_neg missing]
      exact .refused _

/-- Paths made sure of in order, up to one that the server refuses. -/
inductive EnsuredAll : List String → Host → Host → Except SessionError Unit → Prop
  | done (host : Host) : EnsuredAll [] host host (.ok ())
  | next {path : String} {rest : List String} {before between after : Host}
      {result : Except SessionError Unit} (here : Ensured path before between (.ok ()))
      (later : EnsuredAll rest between after result) : EnsuredAll (path :: rest) before after result
  | stopped {path : String} {before after : Host} {error : SessionError} (rest : List String)
      (here : Ensured path before after (.error error)) :
      EnsuredAll (path :: rest) before after (.error error)

theorem exchange_ensureAll (world : World) (paths : List String) :
    EnsuredAll paths world.host (world.exchange (ensureAll paths)).1.host
      (world.exchange (ensureAll paths)).2 := by
  induction paths generalizing world with
  | nil => exact .done _
  | cons path rest ih =>
    have here := exchange_ensureDirectory world path
    rw [ensureAll, exchange_bind]
    generalize world.exchange (ensureDirectory path) = first at here ⊢
    obtain ⟨between, error | ⟨⟩⟩ := first
    · exact .stopped rest here
    · exact .next here (ih between)

/-- In a tree without links, a path that is made sure of is there already, or it is an entry of a directory
that was free and is a new directory. -/
theorem Ensured.there_or_new {place : Place} {name : List Char} {before after : Host}
    (ensured : Ensured (pathTo (place ++ [name])) before after (.ok ())) (plain : before.files.Plain)
    (named : ∀ part ∈ place ++ [name], IsName part) :
    (after = before ∧ (before.files.get? (pathTo (place ++ [name]))).isSome) ∨
    (before.files.get? (pathTo (place ++ [name])) = none ∧ before.files.isDirectory (pathTo place) = true ∧
      after.files = before.files.set (pathTo (place ++ [name])) (.directory 0o755)) := by
  cases ensured with
  | @found found there =>
    obtain ⟨leads, present⟩ : Sftp.locate before.files true (pathTo (place ++ [name])) = .ok found.1 ∧
        before.files.get? found.1 = some found.2 := Sftp.find_eq_ok_iff.1 there
    rw [Sftp.locate_pathTo plain named, Except.ok.injEq] at leads
    rw [← leads] at present
    exact .inl ⟨rfl, by rw [present]; rfl⟩
  | made makes =>
    obtain ⟨absent, inside, rfl⟩ := Sftp.made_of_makeDirectory plain named makes
    exact .inr ⟨absent, inside, rfl⟩

/-- What making sure of a row of directories comes to in the tree. -/
structure Chain (before : Files) (rest above made below : List String) (after : Files)
    (result : Except SessionError Unit) : Prop where
  split : rest = above ++ made ++ below
  there : ∀ path ∈ above, (before.get? path).isSome
  grown : Grown before made after
  finished : result = .ok () → below = []

theorem Chain.done (files : Files) (result : Except SessionError Unit) :
    Chain files [] [] [] [] files result :=
  ⟨rfl, by simp, .done _, fun _ => rfl⟩

theorem Chain.refused (files : Files) (rest : List String) (error : SessionError) :
    Chain files rest [] [] rest files (.error error) :=
  ⟨rfl, by simp, .done _, nofun⟩

/-- A directory that is made lengthens the row of those that are made after it. -/
theorem Chain.cons_made {before between after : Files} {rest made below : List String}
    (chain : Chain between rest [] made below after result) (free : before.get? path = none)
    (inside : before.isDirectory (Files.parent path) = true)
    (new : between = before.set path (.directory 0o755)) :
    Chain before (path :: rest) [] (path :: made) below after result where
  split := by rw [chain.split]; simp
  there := by simp
  grown := .more free inside (new ▸ chain.grown)
  finished := chain.finished

theorem Chain.cons_there {before after : Files} {rest above made below : List String}
    (chain : Chain before rest above made below after result) (there : (before.get? path).isSome) :
    Chain before (path :: rest) (path :: above) made below after result where
  split := by rw [chain.split]; simp
  there := List.forall_mem_cons.2 ⟨there, chain.there⟩
  grown := chain.grown
  finished := chain.finished

/-- Where a directory has no entries, all directories below it are made in turn. -/
theorem EnsuredAll.chain_made {top rest : Place} {before after : Host}
    (ensured : EnsuredAll (Files.prefixesFrom (pathTo top) rest) before after result)
    (tree : before.files.IsTree) (plain : before.files.Plain)
    (named : ∀ part ∈ top ++ rest, IsName part)
    (empty : ∀ name, IsName name → before.files.get? (pathTo (top ++ [name])) = none) :
    ∃ made below, Chain before.files (Files.prefixesFrom (pathTo top) rest) [] made below after.files
      result := by
  induction rest generalizing top before with
  | nil =>
    cases ensured
    exact ⟨[], [], .done ..⟩
  | cons name rest ih =>
    have whole : ∀ part ∈ (top ++ [name]) ++ rest, IsName part := by simpa using named
    have here : ∀ part ∈ top ++ [name], IsName part :=
      fun part member => whole part (List.mem_append_left _ member)
    rw [prefixesFrom_cons fun part member => here part (by simp [member])] at ensured ⊢
    cases ensured with
    | next first later =>
      rcases first.there_or_new plain here with ⟨_, there⟩ | ⟨free, inside, files⟩
      · rw [empty name (here name (by simp))] at there
        cases there
      · rw [← parent_pathTo here] at inside
        obtain ⟨made, below, chain⟩ := ih later (files ▸ tree.set_directory inside _)
          (files ▸ plain.set_directory _ _) whole
          (files ▸ fun next named' => tree.free_below_new here named' free)
        exact ⟨_, below, chain.cons_made free inside files⟩
    | stopped _ first =>
      cases first
      exact ⟨[], _, .refused ..⟩

/-- The directories that are there come first, and then those that are made. -/
theorem EnsuredAll.chain {top rest : Place} {before after : Host}
    (ensured : EnsuredAll (Files.prefixesFrom (pathTo top) rest) before after result)
    (tree : before.files.IsTree) (plain : before.files.Plain)
    (named : ∀ part ∈ top ++ rest, IsName part) :
    ∃ above made below, Chain before.files (Files.prefixesFrom (pathTo top) rest) above made below
      after.files result := by
  induction rest generalizing top with
  | nil =>
    cases ensured
    exact ⟨[], [], [], .done ..⟩
  | cons name rest ih =>
    have whole : ∀ part ∈ (top ++ [name]) ++ rest, IsName part := by simpa using named
    have here : ∀ part ∈ top ++ [name], IsName part :=
      fun part member => whole part (List.mem_append_left _ member)
    rw [prefixesFrom_cons fun part member => here part (by simp [member])] at ensured ⊢
    cases ensured with
    | next first later =>
      rcases first.there_or_new plain here with ⟨rfl, there⟩ | ⟨free, inside, files⟩
      · obtain ⟨above, made, below, chain⟩ := ih later whole
        exact ⟨_, made, below, chain.cons_there there⟩
      · rw [← parent_pathTo here] at inside
        obtain ⟨made, below, chain⟩ := later.chain_made (files ▸ tree.set_directory inside _)
          (files ▸ plain.set_directory _ _) whole
          (files ▸ fun next named' => tree.free_below_new here named' free)
        exact ⟨[], _, below, chain.cons_made free inside files⟩
    | stopped _ first =>
      cases first
      exact ⟨[], [], _, .refused ..⟩

/-- A row that is done to its end has something at each of its paths. -/
theorem Chain.isSome {before after : Files} {rest above made below : List String}
    (chain : Chain before rest above made below after (.ok ())) : ∀ path ∈ rest, (after.get? path).isSome := by
  intro path member
  rw [chain.split, chain.finished rfl, List.append_nil, List.mem_append] at member
  rw [chain.grown.get?]
  split
  · rfl
  next old =>
    exact chain.there path (member.resolve_right old)

/-- A row that is done to its end is of directories, unless a file stood at the last of its paths. -/
theorem Chain.directories_iff {before after : Files} {above made below : List String} {place : Place}
    (chain : Chain before (Files.prefixes (pathTo place)) above made below after (.ok ()))
    (tree : before.IsTree) (plain : before.Plain) (named : ∀ part ∈ place, IsName part) :
    (∀ path ∈ Files.prefixes (pathTo place), after.isDirectory path = true) ↔
      ∀ content mode, before.get? (pathTo place) ≠ some (.file content mode) := by
  constructor
  · intro directories content mode file
    have there := directories _ ((RemotePath.mem_prefixes_iff named).2 ⟨place, List.prefix_refl _, rfl⟩)
    have old : pathTo place ∉ made := by
      intro new
      rw [chain.grown.free _ new] at file
      cases file
    rw [Files.isDirectory, chain.grown.get?, if_neg old, file] at there
    cases there
  · intro noFile path member
    rcases (chain.grown.isTree tree).isDirectory_above named chain.isSome path member with rfl | directory
    · obtain ⟨node, present⟩ := Option.isSome_iff_exists.1 (chain.isSome _ member)
      rw [Files.isDirectory_iff]
      rw [chain.grown.get?] at present ⊢
      split at present
      next new => exact ⟨_, if_pos new⟩
      next old =>
        rw [if_neg old]
        cases node with
        | directory mode => exact ⟨mode, present⟩
        | file content mode => exact absurd present (noFile content mode)
        | link target => exact absurd present (plain _ target)
    · exact directory

/-- Making a directory with its parents goes along the prefixes of the path. -/
theorem exists_chain_makeDirectories (world : World) (tree : world.host.files.IsTree)
    (plain : world.host.files.Plain) {place : Place} (named : ∀ part ∈ place, IsName part) :
    ∃ above made below, Chain world.host.files (Files.prefixes (pathTo place)) above made below
      (world.exchange (makeDirectories (pathTo place))).1.host.files
      (world.exchange (makeDirectories (pathTo place))).2 := by
  have ensured : EnsuredAll (Files.prefixesFrom (pathTo []) place) world.host
      (world.exchange (makeDirectories (pathTo place))).1.host
      (world.exchange (makeDirectories (pathTo place))).2 := by
    unfold makeDirectories
    rw [RemotePath.splitOn_pathTo named]
    exact exchange_ensureAll world _
  obtain ⟨above, made, below, chain⟩ := ensured.chain tree plain named
  have root : (world.host.files.get? "/").isSome := by
    obtain ⟨mode, there⟩ := Files.isDirectory_iff.1 tree.root
    rw [there]
    rfl
  refine ⟨"/" :: above, made, below, ?_⟩
  rw [Files.prefixes, RemotePath.splitOn_pathTo named]
  exact chain.cons_there root

/-- Making a directory with its parents makes the missing prefixes of the path from some prefix on, each in
the one before it, all of them if it succeeds, and changes nothing else. So what stands at the path after a
success is a directory, unless a file stood there. -/
theorem makeDirectories_chain (world : World) (tree : world.host.files.IsTree)
    (plain : world.host.files.Plain) (clean : RemotePath.IsClean path) :
    let before := world.host.files
    let after := (world.exchange (makeDirectories path)).1.host.files
    let result := (world.exchange (makeDirectories path)).2
    (∃ above made below, Chain before (Files.prefixes path) above made below after result ∧
      (∀ place ∈ made, before.get? place = none) ∧
      ∀ place, after.get? place = if place ∈ made then some (.directory 0o755) else before.get? place) ∧
    (result = .ok () → ((∀ place ∈ Files.prefixes path, after.isDirectory place = true) ↔
      ∀ content mode, before.get? path ≠ some (.file content mode))) := by
  intro before after result
  obtain ⟨place, named, rfl⟩ := clean.exists_pathTo
  obtain ⟨above, made, below, chain⟩ := exists_chain_makeDirectories world tree plain named
  refine ⟨⟨above, made, below, chain, chain.grown.free, chain.grown.get?⟩, fun succeeds => ?_⟩
  change (world.exchange (makeDirectories (pathTo place))).2 = .ok () at succeeds
  rw [succeeds] at chain
  exact chain.directories_iff tree plain named

section Examples

def partlyMade : World where
  machine := { files := {}, directory := "/" }
  host := {
    home := "/"
    files := {
      nodes := [("/", .directory 0o755), ("/a", .directory 0o755), ("/a/f", .file [120] 0o644)] } }

theorem partlyMade_isTree : partlyMade.host.files.IsTree := by
  refine Files.isTree_of_nodes (by cbv) ?_
  simp only [partlyMade, List.forall_mem_cons]
  exact ⟨.inl trivial, .inr (by cbv), .inr (by cbv), by simp⟩

theorem partlyMade_plain : partlyMade.host.files.Plain :=
  Files.plain_of_nodes (by simp [partlyMade])

/-- Two directories are made in the one that is there. -/
theorem makeDirectories_chain_two :
    partlyMade.host.files.IsTree ∧ partlyMade.host.files.Plain ∧ RemotePath.IsClean "/a/b/c" ∧
      (partlyMade.exchange (makeDirectories "/a/b/c")).2 = .ok () ∧
      ∀ place ∈ Files.prefixes "/a/b/c",
        (partlyMade.exchange (makeDirectories "/a/b/c")).1.host.files.isDirectory place = true := by
  have clean : RemotePath.IsClean "/a/b/c" := by decide
  have succeeds : (partlyMade.exchange (makeDirectories "/a/b/c")).2 = .ok () := by cbv
  have absent : partlyMade.host.files.get? "/a/b/c" = none := by cbv
  refine ⟨partlyMade_isTree, partlyMade_plain, clean, succeeds, ?_⟩
  have chain := makeDirectories_chain partlyMade partlyMade_isTree partlyMade_plain clean
  exact (chain.2 succeeds).2 fun content mode => by simp [absent]

/-- Where a file stands a directory is made without a failure, and the file stays. -/
theorem file_stays_directory_made :
    partlyMade.host.files.IsTree ∧ partlyMade.host.files.Plain ∧ RemotePath.IsClean "/a/f" ∧
      (partlyMade.exchange (makeDirectories "/a/f")).2 = .ok () ∧
      (partlyMade.exchange (makeDirectories "/a/f")).1.host.files.isDirectory "/a/f" = false :=
  ⟨partlyMade_isTree, partlyMade_plain, by decide, by cbv, by cbv⟩

end Examples

end Ssh

end Rollout
