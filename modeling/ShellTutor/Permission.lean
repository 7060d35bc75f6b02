import ShellTutor.Error
import ShellTutor.Number.Natural

/-!
# Permissions and modes

A node has three permissions for each of three classes. Permissions are kept as such, and their two
written forms are derived: three octal digits, and nine characters of `rwx` with dashes. A mode is
what `chmod` takes: either three octal digits, or clauses such as `u+x` separated by commas.
-/

namespace ShellTutor

/-- The permissions of one class. -/
structure Access where
  read : Bool
  write : Bool
  exec : Bool
  deriving DecidableEq, Repr

namespace Access

def none : Access := ⟨false, false, false⟩

def all : Access := ⟨true, true, true⟩

def readWrite : Access := ⟨true, true, false⟩

def readExec : Access := ⟨true, false, true⟩

def readOnly : Access := ⟨true, false, false⟩

def digit (a : Access) : Nat :=
  4 * a.read.toNat + 2 * a.write.toNat + a.exec.toNat

/-- The three characters of a class, a dash for each permission that it lacks. -/
def symbolic (a : Access) : String :=
  String.ofList
    [if a.read then 'r' else '-', if a.write then 'w' else '-', if a.exec then 'x' else '-']

def ofDigit? (c : Char) : Option Access :=
  if '0' ≤ c ∧ c ≤ '7' then
    let n := Number.digitValue c
    some ⟨n / 4 % 2 == 1, n / 2 % 2 == 1, n % 2 == 1⟩
  else Option.none

def union (a b : Access) : Access :=
  ⟨a.read || b.read, a.write || b.write, a.exec || b.exec⟩

/-- The permissions of the first set that are not in the second. -/
def diff (a b : Access) : Access :=
  ⟨a.read && !b.read, a.write && !b.write, a.exec && !b.exec⟩

end Access

/-- The permissions of a node: for its owner, its group and all others. -/
structure Permissions where
  owner : Access
  group : Access
  other : Access
  deriving DecidableEq, Repr

namespace Permissions

/-- `rw-r--r--`, which new files have. -/
def fileDefault : Permissions := ⟨.readWrite, .readOnly, .readOnly⟩

/-- `rwxr-xr-x`, which new directories have. -/
def directoryDefault : Permissions := ⟨.all, .readExec, .readExec⟩

def octal (p : Permissions) : String :=
  toString p.owner.digit ++ toString p.group.digit ++ toString p.other.digit

/-- The nine characters of `rwx` and dashes. -/
def symbolic (p : Permissions) : String :=
  p.owner.symbolic ++ p.group.symbolic ++ p.other.symbolic

def ofOctal (s : String) : Except ShellError Permissions :=
  match s.toList.mapM Access.ofDigit? with
  | some [owner, group, other] => .ok ⟨owner, group, other⟩
  | _ => .error (.invalidMode s)

end Permissions

/-- What a clause of a symbolic mode does with the permissions that it names. -/
inductive ModeOp where
  | add
  | remove
  | assign
  deriving DecidableEq, Repr

/-- The classes that a clause of a symbolic mode is about. -/
structure Targets where
  user : Bool
  group : Bool
  other : Bool
  deriving DecidableEq, Repr

def Targets.none : Targets := ⟨false, false, false⟩

def Targets.all : Targets := ⟨true, true, true⟩

/-- A clause of a symbolic mode, such as `u+x` or `go=r`. -/
structure ModeClause where
  targets : Targets
  op : ModeOp
  bits : Access
  deriving DecidableEq, Repr

/-- What `chmod` is asked to do. -/
inductive ModeSpec where
  | octal (permissions : Permissions)
  | symbolic (clauses : List ModeClause)
  deriving DecidableEq, Repr

namespace ModeOp

def ofChar? : Char → Option ModeOp
  | '+' => some .add
  | '-' => some .remove
  | '=' => some .assign
  | _ => none

def apply (op : ModeOp) (bits old : Access) : Access :=
  match op with
  | .add => old.union bits
  | .remove => old.diff bits
  | .assign => bits

end ModeOp

namespace ModeClause

def addTarget? (t : Targets) : Char → Option Targets
  | 'u' => some { t with user := true }
  | 'g' => some { t with group := true }
  | 'o' => some { t with other := true }
  | 'a' => some .all
  | _ => none

def addBit? (a : Access) : Char → Option Access
  | 'r' => some { a with read := true }
  | 'w' => some { a with write := true }
  | 'x' => some { a with exec := true }
  | _ => none

/-- Reads a clause: letters for the classes, an operator, letters for the permissions. No class
means every class, and only an assignment may name no permission. -/
def ofChars? (cs : List Char) : Option ModeClause := do
  let who := cs.takeWhile fun c => (ModeOp.ofChar? c).isNone
  let tail := cs.dropWhile fun c => (ModeOp.ofChar? c).isNone
  let op ← ModeOp.ofChar? (← tail.head?)
  let targets ← who.foldlM addTarget? Targets.none
  let bits ← tail.tail.foldlM addBit? Access.none
  if bits = Access.none ∧ op ≠ .assign then none
  else some ⟨if targets = Targets.none then .all else targets, op, bits⟩

def ofString (s : String) : Except ShellError ModeClause :=
  match ofChars? s.toList with
  | some clause => .ok clause
  | none => .error (.invalidMode s)

def apply (clause : ModeClause) (p : Permissions) : Permissions :=
  let change (targeted : Bool) (old : Access) : Access :=
    if targeted then clause.op.apply clause.bits old else old
  ⟨change clause.targets.user p.owner, change clause.targets.group p.group,
    change clause.targets.other p.other⟩

end ModeClause

namespace ModeSpec

/-- Reads a mode. A text of digits alone is octal, everything else symbolic. -/
def ofString (s : String) : Except ShellError ModeSpec :=
  if s ≠ "" ∧ s.toList.all Number.isDigit then (Permissions.ofOctal s).map octal
  else
    let pieces := (s.toList.splitOn ',').map String.ofList
    (pieces.mapM ModeClause.ofString).map symbolic

end ModeSpec

/-- The permissions after a mode was applied. Clauses act one after the other. -/
def Permissions.apply (p : Permissions) : ModeSpec → Permissions
  | .octal permissions => permissions
  | .symbolic clauses => clauses.foldl (fun p clause => clause.apply p) p

/-- The two forms in which a mode can be written. -/
inductive ModeKind where
  | octal
  | symbolic
  deriving DecidableEq, Repr

/-- The form of a mode, if the text is one. -/
def ModeKind.of? (s : String) : Option ModeKind :=
  match ModeSpec.ofString s with
  | .ok (.octal _) => some .octal
  | .ok (.symbolic _) => some .symbolic
  | .error _ => none

end ShellTutor
