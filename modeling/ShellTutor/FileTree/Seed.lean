/-!
# Seeds

A seed lists what the home directory of a lesson holds at the start, as files and directories nested
in each other. What an entry leaves open is filled in when the tree is built.
-/

namespace ShellTutor

/-- Whether a seed entry is a file or a directory. -/
inductive SeedKind where
  | file
  | directory
  deriving DecidableEq, Repr

/-- A file or directory of a seed. -/
structure SeedEntry where
  name : String
  kind : SeedKind := .file
  content : Option String := none
  /-- Three octal digits. -/
  mode : Option String := none
  owner : Option String := none
  group : Option String := none
  children : List SeedEntry := []
  deriving Repr, Inhabited

namespace SeedEntry

def file (name content : String) : SeedEntry :=
  { name, content := some content }

def directory (name : String) (children : List SeedEntry) : SeedEntry :=
  { name, kind := .directory, children }

def withMode (entry : SeedEntry) (mode : String) : SeedEntry :=
  { entry with mode := some mode }

end SeedEntry

end ShellTutor
