import ShellTutor.Calendar
import ShellTutor.Dictionary
import ShellTutor.Path
import ShellTutor.Permission

/-!
# The file tree

A tree is kept as a list of nodes, each under its absolute path in normal form, in the order in
which they were created. A directory also lists the names of its children in that order. Nodes are
only ever added or changed, never removed, and a change that fails leaves no trace: the operations
return the new tree or a cause.
-/

namespace ShellTutor

/-- What a node holds besides its permissions and its owner. -/
inductive NodeBody where
  | file (content : String)
  /-- The names of the children, oldest first. -/
  | directory (created : Timestamp) (children : List String)
  deriving DecidableEq, Repr

/-- A file or a directory. -/
structure Node where
  permissions : Permissions
  owner : String
  group : String
  modified : Timestamp
  body : NodeBody
  deriving DecidableEq, Repr

namespace Node

def isDirectory (n : Node) : Bool :=
  match n.body with
  | .file _ => false
  | .directory _ _ => true

def content? (n : Node) : Option String :=
  match n.body with
  | .file content => some content
  | .directory _ _ => none

/-- The size in a listing: the number of characters of a file, the same for all directories. -/
def size (n : Node) : Nat :=
  match n.body with
  | .file content => content.length
  | .directory _ _ => 4096

def typeChar (n : Node) : Char :=
  if n.isDirectory then 'd' else '-'

/-- The node with one more child. A file stays as it is. -/
def addChild (n : Node) (name : String) (now : Timestamp) : Node :=
  match n.body with
  | .file _ => n
  | .directory created children =>
    { n with modified := now, body := .directory created (children ++ [name]) }

end Node

/-- How a write treats the content that is already there. -/
inductive WriteMode where
  | overwrite
  /-- Adds a line feed and then the new content. -/
  | append
  deriving DecidableEq, Repr

def WriteMode.contentAfter (mode : WriteMode) (old new : String) : String :=
  match mode with
  | .overwrite => new
  | .append => old ++ "\n" ++ new

/-- The files and directories of a session. -/
structure FileTree where
  nodes : List (String × Node)
  /-- The owner of new nodes. -/
  owner : String
  /-- The group of new nodes. -/
  group : String
  deriving DecidableEq, Repr

namespace FileTree

variable (t : FileTree)

def node? (key : String) : Option Node :=
  t.nodes.lookup key

def put (key : String) (node : Node) : FileTree :=
  { t with nodes := Dictionary.put key node t.nodes }

/-- A node that is put under a key is found there, and other keys keep their nodes. -/
theorem node?_put (key : String) (node : Node) (other : String) :
    (t.put key node).node? other = if other = key then some node else t.node? other :=
  Dictionary.lookup_put key other node t.nodes

/-- The node that a path names, whatever its spelling of slashes. -/
def get? (path : String) : Option Node :=
  t.node? (Path.normalize path)

def contains (path : String) : Bool :=
  (t.get? path).isSome

def fileContent? (path : String) : Option String :=
  (t.get? path).bind Node.content?

def isDirectory (path : String) : Bool :=
  (t.get? path).any Node.isDirectory

/-- The node that a path names, or the failure to find it. -/
def find (path : String) : Except ShellError Node :=
  match t.get? path with
  | some node => .ok node
  | none => .error (.notFound path)

/-- The children of a directory with their nodes, oldest first. -/
def list (path : String) : Except ShellError (List (String × Node)) :=
  let key := Path.normalize path
  match t.node? key with
  | none => .error (.notFound key)
  | some node =>
    match node.body with
    | .file _ => .error (.notADirectory key)
    | .directory _ children =>
      .ok (children.filterMap fun name =>
        (t.node? (Path.join key name)).map fun child => (name, child))

def newDirectory (now : Timestamp) : Node :=
  ⟨.directoryDefault, t.owner, t.group, now, .directory now []⟩

def newFile (content : String) (now : Timestamp) : Node :=
  ⟨.fileDefault, t.owner, t.group, now, .file content⟩

/-- Puts a node under a new name into a directory and lists it there. -/
def insertChild (dir name : String) (node : Node) (now : Timestamp) : FileTree :=
  let t := t.put (Path.join dir name) node
  match t.node? dir with
  | some parent => t.put dir (parent.addChild name now)
  | none => t

end FileTree

def isFileName (name : String) : Bool :=
  name ≠ "" && name ≠ "." && name ≠ ".." && !name.toList.contains '/'

namespace FileTree

def empty (owner group : String) (now : Timestamp) : FileTree :=
  let t : FileTree := ⟨[], owner, group⟩
  t.put "/" (t.newDirectory now)

variable (t : FileTree)

/-- The failure to make or write the name in the directory with the given key, if its spelling or
the directory rules it out. -/
def checkPlace (key name : String) : Except ShellError Unit :=
  if !isFileName name then .error (.invalidName name)
  else
    match t.node? key with
    | none => .error (.notFound key)
    | some node => if node.isDirectory then .ok () else .error (.notADirectory key)

def createDirectory (dir name : String) (now : Timestamp) : Except ShellError FileTree := do
  let key := Path.normalize dir
  t.checkPlace key name
  match t.node? (Path.join key name) with
  | some _ => .error (.alreadyExists name)
  | none => .ok (t.insertChild key name (t.newDirectory now) now)

/-- Makes a file. Of a node that is there already only the time is refreshed. -/
def createFile (dir name content : String) (now : Timestamp) : Except ShellError FileTree := do
  let key := Path.normalize dir
  t.checkPlace key name
  match t.node? (Path.join key name) with
  | some node => .ok (t.put (Path.join key name) { node with modified := now })
  | none => .ok (t.insertChild key name (t.newFile content now) now)

/-- Writes a file, and makes it if it is missing. Appending to a file that exists puts one line feed
before the new content, even when the file is empty. -/
def writeFile (dir name content : String) (mode : WriteMode) (now : Timestamp) :
    Except ShellError FileTree := do
  let key := Path.normalize dir
  t.checkPlace key name
  match t.node? (Path.join key name) with
  | none => .ok (t.insertChild key name (t.newFile content now) now)
  | some node =>
    match node.body with
    | .directory _ _ => .error (.isADirectory name)
    | .file old =>
      .ok (t.put (Path.join key name)
        { node with modified := now, body := .file (mode.contentAfter old content) })

/-- Applies a mode to a node. Returns the new permissions with the tree. -/
def changePermissions (dir name : String) (spec : ModeSpec) :
    Except ShellError (Permissions × FileTree) :=
  let key := Path.join (Path.normalize dir) name
  match t.node? key with
  | none => .error (.notFound name)
  | some node =>
    let permissions := node.permissions.apply spec
    .ok (permissions, t.put key { node with permissions })

/-- Reads a file, for which its owner needs the permission to read. -/
def read (dir name : String) : Except ShellError String :=
  match t.node? (Path.join (Path.normalize dir) name) with
  | none => .error (.notFound name)
  | some node =>
    match node.body with
    | .directory _ _ => .error (.isADirectory name)
    | .file content =>
      if node.permissions.owner.read then .ok content else .error (.permissionDenied name)

/-- Reads the file that `operand` names from the directory `cwd`. -/
def readFrom (cwd operand : String) : Except ShellError String :=
  let (dir, name) := Path.splitParent (Path.resolve cwd operand)
  t.read dir name

/-- The number of files and of directories below a directory, looking at most `depth` levels down.
A path that is no directory has none. -/
def countTo : Nat → String → Nat × Nat
  | 0, _ => (0, 0)
  | depth + 1, path =>
    match t.list path with
    | .error _ => (0, 0)
    | .ok entries =>
      entries.foldl
        (fun (files, directories) (name, node) =>
          if node.isDirectory then
            let (f, d) := countTo depth (Path.join path name)
            (files + f, directories + d + 1)
          else (files + 1, directories))
        (0, 0)

/-- The number of files and of directories below a directory. There are no more levels than
nodes. -/
def countBelow (path : String) : Nat × Nat :=
  t.countTo t.nodes.length path

end FileTree

end ShellTutor
