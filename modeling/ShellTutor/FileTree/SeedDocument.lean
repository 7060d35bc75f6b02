import ShellTutor.Document.Json
import ShellTutor.Document.Reading
import ShellTutor.Error
import ShellTutor.FileTree.Seed

/-!
# Seeds in documents

A seed entry is a record whose parts are those of `SeedEntry`; all but its name may be missing. A
seed on its own is a JSON list of entries.
-/

namespace ShellTutor.SeedEntry

open Document

/-- The parts of a seed entry, in order. -/
def partNames : List String :=
  ["name", "kind", "content", "mode", "owner", "group", "children"]

def readKind : Reader SeedKind :=
  readChoice [("file", .file), ("directory", .directory)]

def readWith (children : List SeedEntry) (r : Reading) (v : Value) : Option SeedEntry := do
  match ← parts? partNames r v with
  | [name, kind, content, mode, owner, group, _] =>
    some
      { name := ← required readText r name
        kind := ← orElse .file readKind r kind
        content := ← orElse none (readOptional readText) r content
        mode := ← orElse none (readOptional readText) r mode
        owner := ← orElse none (readOptional readText) r owner
        group := ← orElse none (readOptional readText) r group
        children }
  | _ => none

mutual

def read (r : Reading) : Value → Option SeedEntry
  | .record fields => do
    let r ← r.enter
    readWith (← readField r fields) r (.record fields)
  | .list items => do
    let r ← r.enter
    readWith (← readItem r 6 items) r (.list items)
  | v => readWith [] r v

def readField (r : Reading) : List (Option String × Value) → Option (List SeedEntry)
  | [] => some []
  | (key, v) :: rest => if key = some "children" then readAll r v else readField r rest

/-- Reads the children from the values of an entry that is given as a list, of which `skip` come
before them. -/
def readItem (r : Reading) : Nat → List Value → Option (List SeedEntry)
  | _, [] => some []
  | 0, v :: _ => readAll r v
  | skip + 1, _ :: rest => readItem r skip rest

def readAll (r : Reading) : Value → Option (List SeedEntry)
  | .list items => do
    let r ← r.enter
    readEach r items
  | _ => none

def readEach (r : Reading) : List Value → Option (List SeedEntry)
  | [] => some []
  | v :: rest => do
    let entry ← read r v
    let entries ← readEach r rest
    return entry :: entries

end

def ofJson (s : String) : Except ShellError (List SeedEntry) :=
  match (Json.parse? s).bind (readAll .json) with
  | some entries => .ok entries
  | none => .error (.json "expected a list of seed entries")

end ShellTutor.SeedEntry
