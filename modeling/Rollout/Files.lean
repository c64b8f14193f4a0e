import Rollout.Copy
import Rollout.RemotePath

/-!
# Trees of files

A tree of directories, files and symbolic links, kept as one table from absolute path to node, in
ascending order of paths. Paths here are clean and absolute: `/`, or segments each after a slash. How
a request's path leads to such a path, through links or not, is not decided here.
-/

namespace Rollout

/-- What stands at a path. -/
inductive Node where
  | directory (mode : Nat)
  | file (content : Bytes) (mode : Nat)
  | link (target : String)
  deriving DecidableEq, Repr

namespace Node

def isDirectory : Node → Bool
  | directory _ => true
  | _ => false

end Node

/-- The nodes of a tree by path, in ascending order of paths. -/
structure Files where
  nodes : List (String × Node) := []
  deriving DecidableEq, Repr

namespace Files

def insert (path : String) (node : Node) : List (String × Node) → List (String × Node)
  | [] => [(path, node)]
  | entry :: rest =>
    if path = entry.1 then (path, node) :: rest
    else if path < entry.1 then (path, node) :: entry :: rest
    else entry :: insert path node rest

def get? (files : Files) (path : String) : Option Node :=
  files.nodes.lookup path

def set (files : Files) (path : String) (node : Node) : Files :=
  { nodes := insert path node files.nodes }

def erase (files : Files) (path : String) : Files :=
  { nodes := files.nodes.filter fun entry => entry.1 ≠ path }

def isDirectory (files : Files) (path : String) : Bool :=
  (files.get? path).any Node.isDirectory

def child (directory name : String) : String :=
  if directory = "/" then "/" ++ name else directory ++ "/" ++ name

def parent (path : String) : String :=
  match (Text.splitOn '/' path.toList).dropLast with
  | [] | [[]] => "/"
  | segments => String.ofList (Text.joinWith '/' segments)

def name (path : String) : String :=
  String.ofList ((Text.splitOn '/' path.toList).getLast?.getD [])

def isChild (directory path : String) : Bool :=
  path = child directory (name path) && !(name path).isEmpty

def children (files : Files) (directory : String) : List (String × Node) :=
  files.nodes.filter fun entry => isChild directory entry.1

/-- Every prefix of a path that ends with one of the given segments, below `directory`. -/
def prefixesFrom (directory : String) : List (List Char) → List String
  | [] => []
  | segment :: rest =>
    let path := child directory (String.ofList segment)
    path :: prefixesFrom path rest

/-- The root and every prefix of a path, shortest first; empty segments do not count. -/
def prefixes (path : String) : List String :=
  "/" :: prefixesFrom "/" ((Text.splitOn '/' path.toList).filter fun segment => !segment.isEmpty)

/-- The tree with a directory at every prefix of a path where nothing was. -/
def addDirectories (files : Files) (path : String) : Files :=
  (prefixes path).foldl
    (fun files path =>
      if (files.get? path).isSome then files else files.set path (.directory 0o755))
    files

/-- The tree with `node` at `path` and directories above it. -/
def place (files : Files) (path : String) (node : Node) : Files :=
  (files.addDirectories (parent path)).set path node

def isWithin (top path : String) : Bool :=
  path = top || (child top "").toList.isPrefixOf path.toList

/-- The tree with a node put at a path: for a directory the directories that are missing, for any other
node its place and directories above it. -/
def put (files : Files) (path : String) (node : Node) : Files :=
  if node.isDirectory then files.addDirectories path else files.place path node

/-- Whether a path is `top` or begins with `top` and a slash. -/
def continues (top path : String) : Bool :=
  path = top || (top ++ "/").toList.isPrefixOf path.toList

/-- The tree with `source` and every path that continues it moved to `target`. Nodes that stood there
make way for those that arrive. -/
def rename (files : Files) (source target : String) : Files :=
  let (moving, staying) := files.nodes.partition fun entry => continues source entry.1
  moving.foldl
    (fun files entry =>
      files.set (target ++ String.ofList (entry.1.toList.drop source.length)) entry.2)
    { nodes := staying }

end Files

end Rollout
