/-!
# Keywords

The eleven words that can begin a statement. Reading a word and writing a keyword are inverse to each
other, so a statement can be shown with the word it was written with.

The keywords are those of section 3 of the specification.
-/

namespace Rollout.Script

/-- The eleven statement keywords. -/
inductive Keyword where
  | connect
  | var
  | env
  | cd
  | cmd
  | run
  | move
  | copy
  | delete
  | upload
  | download
  deriving DecidableEq, Repr

namespace Keyword

/-- Every keyword once, in the order in which they are documented. -/
def all : List Keyword :=
  [connect, var, env, cd, cmd, run, move, copy, delete, upload, download]

def word : Keyword → String
  | connect => "CONNECT"
  | var => "VAR"
  | env => "ENV"
  | cd => "CD"
  | cmd => "CMD"
  | run => "RUN"
  | move => "MOVE"
  | copy => "COPY"
  | delete => "DELETE"
  | upload => "UPLOAD"
  | download => "DOWNLOAD"

/-- The name of the keyword's variant in written scripts: its word in title case. -/
def title : Keyword → String
  | connect => "Connect"
  | var => "Var"
  | env => "Env"
  | cd => "Cd"
  | cmd => "Cmd"
  | run => "Run"
  | move => "Move"
  | copy => "Copy"
  | delete => "Delete"
  | upload => "Upload"
  | download => "Download"

def ofWord? (text : String) : Option Keyword :=
  all.find? fun keyword => keyword.word = text

/-- `ENV` and `VAR` take `KEY = VALUE` in place of a list of arguments. -/
def isAssignment : Keyword → Bool
  | var | env => true
  | _ => false

/-- The keyword's place in `all`. -/
def index (keyword : Keyword) : Nat :=
  all.idxOf keyword

theorem ofWord?_word (keyword : Keyword) : ofWord? keyword.word = some keyword := by
  cases keyword <;> decide

end Keyword

end Rollout.Script
