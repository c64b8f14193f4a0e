import Rollout.Sftp.Tree

/-!
# What file servers keep

A tree is a table, and what is put at one place is found there and changes no other place. Where a path
leads depends on the links of the tree alone, so requests that only write files leave all paths as they
were. Each request is described by what it asks of the tree and by the one place that it changes.
-/

namespace Rollout

namespace Files

theorem lookup_cons_eq_ite (key : String) (node : Node) (rest : List (String × Node)) (path : String) :
    ((key, node) :: rest).lookup path = if path = key then some node else rest.lookup path := by
  rw [List.lookup_cons]
  by_cases same : path = key
  · simp [same]
  · rw [beq_false_of_ne same, if_neg same]

theorem lookup_insert (nodes : List (String × Node)) (path other : String) (node : Node) :
    (insert path node nodes).lookup other = if other = path then some node else nodes.lookup other := by
  induction nodes with
  | nil => rw [insert, lookup_cons_eq_ite]
  | cons entry rest ih =>
    obtain ⟨key, present⟩ := entry
    rw [insert]
    split
    next here =>
      obtain rfl : path = key := here
      rw [lookup_cons_eq_ite, lookup_cons_eq_ite]
      split <;> rfl
    next elsewhere =>
      split
      next before => rw [lookup_cons_eq_ite]
      next after =>
        rw [lookup_cons_eq_ite, ih, lookup_cons_eq_ite]
        by_cases same : other = path
        · rw [if_pos same, if_pos same, if_neg (same ▸ elsewhere)]
        · rw [if_neg same, if_neg same]

theorem get?_set (files : Files) (path other : String) (node : Node) :
    (files.set path node).get? other = if other = path then some node else files.get? other :=
  lookup_insert files.nodes path other node

end Files

namespace Sftp

variable {files files' : Files} {follow : Bool} {path place : String} {content : Bytes} {mode : Nat}

/-- The links of both trees stand at the same places and lead the same way. -/
def SameLinks (files files' : Files) : Prop :=
  ∀ place target, files.get? place = some (.link target) ↔ files'.get? place = some (.link target)

theorem walk_congr (links : SameLinks files files') (follow : Bool) (nesting : Nat) (directory : String)
    (rest : List String) :
    walk files follow nesting directory rest = walk files' follow nesting directory rest := by
  fun_induction walk files follow nesting directory rest with
  | case1 => simp [walk]
  | case2 follow nesting directory rest ih => rw [ih]; simp [walk]
  | case3 follow nesting directory name rest below path target there ends =>
    rw [walk, (links path target).1 there]
    · exact (if_pos ends).symm
    · simpa using below
  | case4 follow directory name rest below path target there goes =>
    rw [walk, (links path target).1 there]
    · exact (if_neg goes).symm
    · simpa using below
  | case5 follow directory name rest below path target there goes nesting start status leads ih =>
    rw [walk, (links path target).1 there]
    · refine .trans ?_ (if_neg goes).symm
      have leads' : walk files' true nesting
          (if target.toList.head? = some '/' then "/" else directory) (segments target) = .error status :=
        ih.symm.trans leads
      dsimp only
      rw [leads']
    · simpa using below
  | case6 follow directory name rest below path target there goes nesting start place leads ih ih' =>
    rw [walk, (links path target).1 there, ih']
    · refine .trans ?_ (if_neg goes).symm
      have leads' : walk files' true nesting
          (if target.toList.head? = some '/' then "/" else directory) (segments target) = .ok place :=
        ih.symm.trans leads
      dsimp only
      rw [leads']
    · simpa using below
  | case7 follow nesting directory name rest below path none ih =>
    rw [walk, ih]
    · cases here : files'.get? path with
      | none => rfl
      | some node =>
        cases node with
        | link target => exact absurd ((links path target).2 here) (none target)
        | _ => rfl
    · simpa using below

theorem locate_congr (links : SameLinks files files') (follow : Bool) (path : String) :
    locate files follow path = locate files' follow path :=
  walk_congr links follow nestingLimit "/" (segments path)

theorem find_eq_ok_iff {node : Node} : find files follow path = .ok (place, node) ↔
    locate files follow path = .ok place ∧ files.get? place = some node := by
  unfold find
  cases locate files follow path with
  | error status =>
    constructor
    · intro impossible
      cases impossible
    · rintro ⟨impossible, _⟩
      cases impossible
  | ok found =>
    dsimp only [bind, Except.bind]
    constructor
    · intro shown
      split at shown
      next present there =>
        cases shown
        exact ⟨rfl, there⟩
      next => cases shown
    · rintro ⟨same, there⟩
      cases same
      rw [there]

/-- What is opened for reading is a file. -/
theorem file_of_openRead (opened : openRead files path = .ok place) :
    ∃ content mode, find files true path = .ok (place, .file content mode) := by
  unfold openRead at opened
  cases found : find files true path with
  | error status =>
    rw [found] at opened
    cases opened
  | ok result =>
    obtain ⟨there, node⟩ := result
    rw [found] at opened
    cases node with
    | file content mode =>
      cases opened
      exact ⟨content, mode, rfl⟩
    | directory mode => cases opened
    | link target => cases opened

/-- What is opened for writing is a file or nothing yet, and it is an empty file then. -/
theorem emptied_of_openWrite (opened : openWrite files path mode = .ok (place, files')) :
    locate files true path = .ok place ∧ (∀ target, files.get? place ≠ some (.link target)) ∧
      ∃ bits, files' = files.set place (.file [] bits) := by
  unfold openWrite at opened
  cases located : locate files true path with
  | error status =>
    rw [located] at opened
    cases opened
  | ok there =>
    rw [located] at opened
    dsimp only [bind, Except.bind] at opened
    split at opened
    next content old present =>
      cases opened
      exact ⟨rfl, by simp [present], old, rfl⟩
    next => cases opened
    next absent =>
      split at opened
      · cases opened
        exact ⟨rfl, by simp [absent], _, rfl⟩
      · cases opened

/-- The file at a place with new content keeps its mode. -/
theorem fill_eq (present : files.get? place = some (.file content mode)) (written : Bytes) :
    fill files place written = files.set place (.file written mode) := by
  rw [fill, present]

/-- The mode of a file is set to the bits that can be set. -/
theorem setMode_file (found : find files true path = .ok (place, .file content mode)) (bits : Nat) :
    setMode files path bits = .ok (files.set place (.file content (bits &&& modeMask))) := by
  rw [setMode, found]
  rfl

/-- The bits that mark the kind of a node are no bits that can be set. -/
theorem permissions_masked (mode : Nat) : (mode ||| fileBits) &&& modeMask = mode &&& modeMask := by
  rw [Nat.and_or_distrib_right]
  change (mode &&& modeMask) ||| 0 = _
  rw [Nat.or_zero]

theorem masked_masked (mode : Nat) : mode &&& modeMask &&& modeMask = mode &&& modeMask := by
  rw [Nat.and_assoc, Nat.and_self]

end Sftp

end Rollout
