import ShellTutor.Command.Filter.Input
import ShellTutor.Number.Natural
import ShellTutor.Text.Search

/-!
# Selecting fields

`cut` splits each line at a delimiter and keeps some of the fields. A single number asks for one
field, and a line that lacks it gives an empty row. In a list, fields that a line lacks are skipped.
-/

namespace ShellTutor.Filter

/-- The word that `cut` expects next. -/
inductive CutWord where
  /-- A flag or a file. -/
  | any
  /-- The delimiter of a `-d` that stood alone. -/
  | delimiter
  /-- The fields of an `-f` that stood alone. -/
  | fields
  /-- The second of two lone quotes: a quoted blank falls apart into these. -/
  | closing (quote : String)
  deriving DecidableEq, Repr

/-- What to cut. -/
structure CutOptions where
  delimiter : String := "\t"
  fields : String := "1"
  file : Option String := none
  expected : CutWord := .any
  deriving DecidableEq, Repr

namespace CutOptions

/-- Takes a delimiter, without its quotes. -/
def withDelimiter (o : CutOptions) (value : String) : CutOptions :=
  { o with
    delimiter := Text.without ['\x22', '\x27'] value
    expected := if value = "\"" ∨ value = "'" then .closing value else .any }

def freeWord (o : CutOptions) (arg : String) : CutOptions :=
  match Text.after? "-d" arg, Text.after? "-f" arg with
  | some value, _ => if value = "" then { o with expected := .delimiter } else o.withDelimiter value
  | none, some value =>
    if value = "" then { o with expected := .fields }
    else { o with fields := value, expected := .any }
  | none, none => { o with file := some arg, expected := .any }

/-- Takes one more word of the arguments of `cut`. -/
def word (o : CutOptions) (arg : String) : CutOptions :=
  match o.expected with
  | .any => o.freeWord arg
  | .delimiter => o.withDelimiter arg
  | .fields => { o with fields := arg, expected := .any }
  | .closing quote =>
    if arg = quote then { o with delimiter := " ", expected := .any } else o.freeWord arg

/-- The options after the last word. A flag that stood alone there has an empty value. -/
def finish (o : CutOptions) : CutOptions :=
  match o.expected with
  | .delimiter => { o with delimiter := "", expected := .any }
  | .fields => { o with fields := "", expected := .any }
  | _ => o

/-- Reads the arguments of `cut`. -/
def parse (args : List String) : CutOptions :=
  (args.foldl word {}).finish

end CutOptions

/-- A range of fields, counted from one. Without an end it goes up to the last field. -/
structure FieldRange where
  first : Nat
  last : Option Nat
  deriving DecidableEq, Repr

def FieldRange.select {α : Type} (range : FieldRange) (items : List α) : List α :=
  let upTo :=
    match range.last with
    | some last => items.take last
    | none => items
  upTo.drop (range.first - 1)

/-- Which fields to keep. -/
inductive FieldSpec where
  | single (index : Nat)
  | list (ranges : List FieldRange)
  deriving DecidableEq, Repr

def fieldIndex? (cs : List Char) : Option Nat :=
  match Number.count? (String.ofList cs) with
  | some 0 => none
  | n => n

/-- Reads one item of a list of fields: `N`, `N-`, `-M` or `N-M`. -/
def fieldRange? (cs : List Char) : Option FieldRange :=
  match Text.splitOnce '-' cs with
  | some ([], []) => none
  | some ([], last) => (fieldIndex? last).map fun last => ⟨1, some last⟩
  | some (first, []) => (fieldIndex? first).map fun first => ⟨first, none⟩
  | some (first, last) => do return ⟨← fieldIndex? first, some (← fieldIndex? last)⟩
  | none => (fieldIndex? cs).map fun n => ⟨n, some n⟩

def fieldSpec? (cs : List Char) : Option FieldSpec :=
  if cs.contains ',' || cs.contains '-' then ((cs.splitOn ',').mapM fieldRange?).map .list
  else (fieldIndex? cs).map .single

def FieldSpec.select (spec : FieldSpec) (fields : List (List Char)) : List (List Char) :=
  match spec with
  | .single index => [fields.getD (index - 1) []]
  | .list ranges => ranges.flatMap fun range => range.select fields

/-- The row of a line: its fields that are kept, with the delimiter between them. -/
def cutLine (delimiter : String) (spec : FieldSpec) (line : String) : String :=
  let fields := Text.splitText delimiter.toList line.toList
  String.ofList (List.intercalate delimiter.toList (spec.select fields))

def cut (usage : String) (args : List String) (piped : Option String) (env : Environment) :
    Except ShellError CommandOutput := do
  let o := CutOptions.parse args
  if o.delimiter = "" then
    throw (.invalidArgument "the delimiter must be a single character")
  match fieldSpec? o.fields.toList with
  | none => throw (.invalidArgument ("invalid field list: '" ++ o.fields ++ "'"))
  | some spec =>
    let lines := Text.lines (← input usage env piped o.file)
    return .text (Text.unlines (lines.map (cutLine o.delimiter spec)))

end ShellTutor.Filter
