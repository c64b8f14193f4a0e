import Rollout.Proofs.Server

/-!
# What paths name

A path names an entry of a tree if every directory and link on its way is there: each segment but the
last leads to a directory, directly or through links, and the last one is an entry itself. `Leads` says
this of a tree alone, without a bound on the nesting of links. A file server is more lenient, since it
also goes on where nothing stands, and stricter, since it gives up on deep nesting; but what a path
names, the server finds at the same place unless it gives up. A tree that has lost entries names nothing
that it did not name before.
-/

namespace Rollout

namespace Files

def Within (smaller larger : Files) : Prop :=
  ∀ place node, smaller.get? place = some node → larger.get? place = some node

theorem Within.refl (files : Files) : Within files files :=
  fun _ _ there => there

theorem Within.trans {first second third : Files} (within : Within first second)
    (within' : Within second third) : Within first third :=
  fun place node there => within' place node (within place node there)

theorem Within.isDirectory {smaller larger : Files} (within : Within smaller larger) {place : String}
    (directory : smaller.isDirectory place = true) : larger.isDirectory place = true := by
  unfold Files.isDirectory at *
  cases there : smaller.get? place with
  | none => simp [there] at directory
  | some node =>
    rw [there] at directory
    rwa [within place node there]

theorem get?_erase (files : Files) (place other : String) :
    (files.erase place).get? other = if other = place then none else files.get? other := by
  unfold erase get?
  induction files.nodes with
  | nil => simp
  | cons entry rest ih =>
    obtain ⟨key, node⟩ := entry
    rw [List.filter_cons, lookup_cons_eq_ite]
    split
    next keeps =>
      rw [lookup_cons_eq_ite, ih]
      by_cases here : other = key
      · subst here
        rw [if_pos rfl, if_neg (by simpa using keeps), if_pos rfl]
      · rw [if_neg here, if_neg here]
    next goes =>
      obtain rfl : key = place := by simpa using goes
      rw [ih]
      by_cases here : other = key
      · rw [if_pos here, if_pos here]
      · rw [if_neg here, if_neg here, if_neg here]

theorem erase_within (files : Files) (place : String) : Within (files.erase place) files := by
  intro other node there
  rw [get?_erase] at there
  split at there
  · cases there
  · exact there

end Files

namespace Sftp

open Files (Within)

variable {files smaller larger : Files} {follow : Bool} {path directory place : String}
  {rest : List String}

/-- Where the segments of a path lead from a directory on, through what is there. A link at the end is
followed only if `follow` says so. -/
inductive Leads (files : Files) : Bool → String → List String → String → Prop
  | here {follow : Bool} {directory : String} : Leads files follow directory [] directory
  | up {follow : Bool} {directory place : String} {rest : List String}
      (leads : Leads files follow (Files.parent directory) rest place) :
      Leads files follow directory (".." :: rest) place
  | entry {follow : Bool} {directory name place : String} {rest : List String} {node : Node}
      (named : name ≠ "..") (there : files.get? (Files.child directory name) = some node)
      (stays : (rest = [] ∧ follow = false) ∨ ∀ target, node ≠ .link target)
      (passable : rest ≠ [] → node.isDirectory = true)
      (leads : Leads files follow (Files.child directory name) rest place) :
      Leads files follow directory (name :: rest) place
  | link {follow : Bool} {directory name target middle place : String} {rest : List String}
      (named : name ≠ "..") (there : files.get? (Files.child directory name) = some (.link target))
      (goes : rest ≠ [] ∨ follow = true)
      (aims : Leads files true (if target.toList.head? = some '/' then "/" else directory)
        (segments target) middle)
      (passable : rest ≠ [] → files.isDirectory middle = true)
      (leads : Leads files follow middle rest place) :
      Leads files follow directory (name :: rest) place

/-- The path leads to a node. -/
def Reaches (files : Files) (follow : Bool) (path place : String) (node : Node) : Prop :=
  Leads files follow "/" (segments path) place ∧ files.get? place = some node

/-- The path names an entry, which may be a link. -/
def Names (files : Files) (path : String) : Prop :=
  ∃ place node, Reaches files false path place node

/-- The path names a link that leads to nothing. -/
def Dangles (files : Files) (path : String) : Prop :=
  (∃ place target, Reaches files false path place (.link target)) ∧
    ∀ place node, ¬ Reaches files true path place node

theorem Leads.mono (within : Within smaller larger) (leads : Leads smaller follow directory rest place) :
    Leads larger follow directory rest place := by
  induction leads with
  | here => exact .here
  | up _ ih => exact .up ih
  | entry named there stays passable _ ih => exact .entry named (within _ _ there) stays passable ih
  | link named there goes _ passable _ aims ih =>
    exact .link named (within _ _ there) goes aims (fun more => within.isDirectory (passable more)) ih

theorem Reaches.mono (within : Within smaller larger) {node : Node}
    (reaches : Reaches smaller follow path place node) : Reaches larger follow path place node :=
  ⟨reaches.1.mono within, within _ _ reaches.2⟩

/-- Where a path leads, a server goes too, unless it gives up. -/
theorem Leads.walk (leads : Leads files follow directory rest place) (nesting : Nat) :
    Sftp.walk files follow nesting directory rest = .ok place ∨
      Sftp.walk files follow nesting directory rest = .error Status.failure := by
  induction leads generalizing nesting with
  | here => simp [Sftp.walk]
  | up _ ih => simpa [Sftp.walk] using ih nesting
  | @entry follow directory name place rest node named there stays passable leads ih =>
    rw [Sftp.walk]
    · rw [there]
      cases node with
      | link target =>
        rcases stays with ⟨rfl, rfl⟩ | never
        · cases leads
          exact .inl rfl
        · exact absurd rfl (never target)
      | _ => exact ih nesting
    · exact fun up => named up
  | @link follow directory name target middle place rest named there goes aims passable leads ih ih' =>
    rw [Sftp.walk]
    · rw [there]
      have goesOn : ¬ (rest.isEmpty && !follow) = true := by
        rcases goes with more | follows
        · simp [more]
        · simp [follows]
      dsimp only
      rw [if_neg goesOn]
      cases nesting with
      | zero => exact .inr rfl
      | succ nesting =>
        rcases ih nesting with found | lost
        · simpa only [found] using ih' (nesting + 1)
        · simp only [lost]
          exact .inr trivial
    · exact fun up => named up

/-- What a path leads to, a server finds, unless it gives up. -/
theorem Reaches.find {node : Node} (reaches : Reaches files follow path place node) :
    Sftp.find files follow path = .ok (place, node) ∨
      Sftp.find files follow path = .error Status.failure := by
  obtain ⟨leads, there⟩ := reaches
  rcases leads.walk nestingLimit with located | lost
  · exact .inl (find_eq_ok_iff.2 ⟨located, there⟩)
  · refine .inr ?_
    unfold Sftp.find locate
    rw [lost]
    rfl

/-- What is no link is reached by following links too. -/
theorem Leads.followed (leads : Leads files follow directory rest place)
    (plain : ∀ target, files.get? place ≠ some (.link target)) :
    Leads files true directory rest place := by
  induction leads with
  | here => exact .here
  | up _ ih => exact .up (ih plain)
  | @entry follow directory name place rest node named there stays passable leads ih =>
    refine .entry named there (.inr ?_) passable (ih plain)
    rcases stays with ⟨rfl, rfl⟩ | never
    · cases leads
      rintro target rfl
      exact plain target there
    · exact never
  | link named there goes aims passable _ _ ih => exact .link named there (.inr rfl) aims passable (ih plain)

/-- If a server finds nothing where a path leads, then at most a dangling link is left of what the path
names, however many entries the tree loses. -/
theorem dangles_of_missing (within : Within smaller larger)
    (missing : Sftp.find larger true path = .error Status.noSuchFile) (names : Names smaller path) :
    Dangles smaller path := by
  have nothing : ∀ place node, ¬ Reaches smaller true path place node := by
    intro place node reaches
    rcases (reaches.mono within).find with found | lost
    · rw [missing] at found
      cases found
    · rw [missing] at lost
      cases lost
  obtain ⟨place, node, leads, there⟩ := names
  refine ⟨?_, nothing⟩
  cases node with
  | link target => exact ⟨place, target, leads, there⟩
  | _ => exact absurd ⟨leads.followed (by simp [there]), there⟩ (nothing place _)

end Sftp

end Rollout
