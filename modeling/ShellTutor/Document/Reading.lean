import ShellTutor.Document.Value

/-!
# Taking values apart

What a lesson or a seed consists of is read from a value by its expected form. A record may also be
given as the list of its values, in the order in which its parts are declared. The two formats
differ in small ways, which `Reading` holds in one place.
-/

namespace ShellTutor.Document

/-- The formats of documents. -/
inductive Format where
  | json
  | toml
  deriving DecidableEq, Repr

/-- How a value is read: its format, and how many lists and records may still be entered, if there
is a limit. -/
structure Reading where
  format : Format
  room : Option Nat

namespace Reading

/-- The outermost value of a JSON text, where lists and records that are read may nest 127 deep. -/
def json : Reading := ⟨.json, some 127⟩

def toml : Reading := ⟨.toml, none⟩

def enter (r : Reading) : Option Reading :=
  match r.room with
  | none => some r
  | some 0 => none
  | some (n + 1) => some { r with room := some n }

/-- Whether a list that stands for a record may have more items than the record has parts. -/
def allowsSurplus (r : Reading) : Bool :=
  r.format = .toml

/-- Whether a value may stand beside a choice that carries nothing. -/
def isNothing (r : Reading) (v : Value) : Bool :=
  match r.format, v with
  | .json, .null => true
  | .toml, .list [] => true
  | .toml, .record [] => true
  | _, _ => false

end Reading

abbrev Reader (α : Type) := Reading → Value → Option α

def readText : Reader String
  | _, .text s => s
  | _, _ => none

def readBool : Reader Bool
  | _, .bool b => some b
  | _, _ => none

def readNat (bound : Nat) : Reader Nat
  | _, .integer n => if 0 ≤ n ∧ n ≤ bound then some n.toNat else none
  | _, _ => none

def readOptional {α : Type} (read : Reader α) : Reader (Option α)
  | _, .null => some none
  | r, v => (read r v).map some

def readList {α : Type} (read : Reader α) : Reader (List α)
  | r, .list items => do
    let r ← r.enter
    items.mapM (read r)
  | _, _ => none

def readChoice {α : Type} (choices : List (String × α)) : Reader α
  | _, .text (some name) => choices.lookup name
  | r, .record [(some name, v)] => do
    let r ← r.enter
    if r.isNothing v then choices.lookup name else none
  | _, _ => none

/-- The values of a record's fields, `none` for a missing one. A field may not be given twice. -/
def fieldValues? (names : List String) (fields : List (Option String × Value)) :
    Option (List (Option Value)) :=
  let known := fields.filter fun (key, _) => key.any names.contains
  if fields.any (fun (key, _) => key.isNone) || !(known.map Prod.fst).Nodup then none
  else some (names.map fun name => known.lookup (some name))

/-- The parts of a record, in the order of `names`; `none` for a missing one. -/
def parts? (names : List String) (r : Reading) : Value → Option (List (Option Value))
  | .record fields => fieldValues? names fields
  | .list items =>
    if names.length < items.length ∧ !r.allowsSurplus then none
    else some ((List.range names.length).map fun i => items[i]?)
  | .moment => some (names.map fun _ => none)
  | _ => none

def required {α : Type} (read : Reader α) (r : Reading) : Option Value → Option α
  | some v => read r v
  | none => none

/-- Reads a part that stands for `fallback` when it is missing. -/
def orElse {α : Type} (fallback : α) (read : Reader α) (r : Reading) : Option Value → Option α
  | some v => read r v
  | none => some fallback

end ShellTutor.Document
