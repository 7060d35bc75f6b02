import ShellTutor.FileTree.Basic
import ShellTutor.FileTree.Seed

/-!
# Trees from seeds

The tree of a lesson starts with its home directory, the directories above it, and what the seed
lists. An entry whose name cannot be a component of a path is skipped with all that is in it.
-/

namespace ShellTutor

/-- The mode that an entry of a kind has when it names none. -/
def SeedKind.defaultPermissions : SeedKind → Permissions
  | .file => .fileDefault
  | .directory => .directoryDefault

namespace FileTree

/-- Makes the missing directories on the way from `current` along the given components. -/
def ensureFrom (t : FileTree) (now : Timestamp) (current : String) : List String → FileTree
  | [] => t
  | component :: rest =>
    let next := Path.join current component
    match t.node? next with
    | some _ => ensureFrom t now next rest
    | none => ensureFrom (t.insertChild current component (t.newDirectory now) now) now next rest

def ensureDirectories (t : FileTree) (path : String) (now : Timestamp) : FileTree :=
  t.ensureFrom now "/" (Path.components path)

def seedPermissions (entry : SeedEntry) : Except ShellError Permissions :=
  match entry.mode with
  | some mode => Permissions.ofOctal mode
  | none => .ok entry.kind.defaultPermissions

/-- The node of an entry. Children of a file and content of a directory are left out. -/
def seedNode (t : FileTree) (entry : SeedEntry) (permissions : Permissions) (now : Timestamp) :
    Node where
  permissions
  owner := entry.owner.getD t.owner
  group := entry.group.getD t.group
  modified := now
  body :=
    match entry.kind with
    | .file => .file (entry.content.getD "")
    | .directory => .directory now []

/-- The tree with an entry's own node in the directory `dir`, without what the entry contains. -/
def loadNode (t : FileTree) (dir : String) (entry : SeedEntry) (now : Timestamp) :
    Except ShellError FileTree := do
  let key := Path.join dir entry.name
  match t.node? key with
  | some _ => .error (.alreadyExists key)
  | none =>
    let permissions ← seedPermissions entry
    .ok (t.insertChild dir entry.name (t.seedNode entry permissions now) now)

mutual

/-- Loads an entry and all that is in it into the directory `dir`. -/
def loadEntry (t : FileTree) (dir : String) (now : Timestamp) :
    SeedEntry → Except ShellError FileTree
  | ⟨name, kind, content, mode, owner, group, children⟩ =>
    if !isFileName name then .ok t
    else
      match t.loadNode dir ⟨name, kind, content, mode, owner, group, children⟩ now with
      | .error e => .error e
      | .ok t =>
        match kind with
        | .file => .ok t
        | .directory => loadEntries t (Path.join dir name) now children

/-- Loads entries into the directory `dir`, one after the other. -/
def loadEntries (t : FileTree) (dir : String) (now : Timestamp) :
    List SeedEntry → Except ShellError FileTree
  | [] => .ok t
  | entry :: rest =>
    match loadEntry t dir now entry with
    | .error e => .error e
    | .ok t => loadEntries t dir now rest

end

/-- The tree whose home directory holds what the seed lists. -/
def ofSeed (home owner group : String) (entries : List SeedEntry) (now : Timestamp) :
    Except ShellError FileTree :=
  let home := Path.normalize home
  ((FileTree.empty owner group now).ensureDirectories home now).loadEntries home now entries

end FileTree

end ShellTutor
