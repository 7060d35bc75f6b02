import ShellTutor.Command.Environment
import ShellTutor.Command.Line
import ShellTutor.Text.Column
import ShellTutor.Text.Search

/-!
# Commands on files and directories

Commands that only look return what they give back. Commands that change something also return the
environment that they leave; one with several operands works through them in order and stops at the
first that fails, and what it did before stays done.
-/

namespace ShellTutor

def Node.longLine (n : Node) (name : String) : String :=
  n.typeChar.toString ++ n.permissions.symbolic ++ " " ++ n.owner ++ " " ++ n.group ++ " " ++
    Text.alignRight 5 (toString n.size) ++ " " ++ n.modified.listingText ++ " " ++ name

/-- Does something for each operand in order, up to the first failure. -/
def eachOperand {α β : Type} (act : FileTree → α → Except ShellError (β × FileTree)) :
    FileTree → List α → Except ShellError (List β) × FileTree
  | t, [] => (.ok [], t)
  | t, operand :: rest =>
    match act t operand with
    | .error e => (.error e, t)
    | .ok (b, t) =>
      match eachOperand act t rest with
      | (.error e, t) => (.error e, t)
      | (.ok bs, t) => (.ok (b :: bs), t)

namespace Files

/-- Where `cd` leads with an operand. A path above the home directory leads to the home directory.
-/
def destination (env : Environment) (arg : String) : String :=
  let path := env.resolve arg
  if path = "/" ∨ (path ++ "/").toList.isPrefixOf env.home.toList then env.home else path

/-- Changes the working directory. -/
def changeDirectory (args : List String) (env : Environment) : Outcome :=
  match args with
  | [] => (.ok .nothing, { env with cwd := env.home })
  | arg :: _ =>
    let target := destination env arg
    match env.tree.get? target with
    | some node =>
      if node.isDirectory then (.ok .nothing, { env with cwd := target })
      else (.error (.notADirectory arg), env)
    | none => (.error (.notFound arg), env)

/-- What a listing shows. -/
structure ListOptions where
  long : Bool := false
  /-- Whether to show a directory itself and not what is in it. -/
  itself : Bool := false
  operand : Option String := none
  deriving DecidableEq, Repr

/-- Takes one more letter of a flag of `ls`. -/
def ListOptions.flag (o : ListOptions) : Char → Except ShellError ListOptions
  | 'l' => .ok { o with long := true }
  | 'd' => .ok { o with itself := true }
  | 'a' => .ok o
  | other => .error (.invalidOption other)

/-- Takes one more word of the arguments of `ls`. A lone dash is an operand. -/
def ListOptions.word (o : ListOptions) (arg : String) : Except ShellError ListOptions :=
  match Text.after? "-" arg with
  | some flags =>
    if flags = "" then .ok { o with operand := some arg } else flags.toList.foldlM flag o
  | none => .ok { o with operand := some arg }

def list (args : List String) (env : Environment) : Except ShellError CommandOutput := do
  let o ← args.foldlM ListOptions.word {}
  let path := (o.operand.map env.resolve).getD env.cwd
  let shown := o.operand.getD "."
  match env.tree.get? path with
  | none => .error (.notFound shown)
  | some node =>
    if o.itself || !node.isDirectory then
      return .text (if o.long then node.longLine shown else shown)
    else
      let entries ← env.tree.list path
      if o.long then
        let total := "total " ++ toString entries.length
        return .text (Text.unlines (total :: entries.map fun (name, child) => child.longLine name))
      else return .listing (entries.map fun (name, child) => ⟨name, child.isDirectory⟩)

def makeDirectory (env : Environment) (t : FileTree) (operand : String) :
    Except ShellError (Unit × FileTree) :=
  let (dir, name) := Path.splitParent (env.resolve operand)
  (t.createDirectory dir name env.now).map fun t => ((), t)

def makeDirectories (args : List String) (env : Environment) : Outcome :=
  let (result, tree) := eachOperand (makeDirectory env) env.tree args
  (result.map fun _ => .nothing, { env with tree })

/-- Makes the empty file that an operand names, or refreshes its time. -/
def touchFile (env : Environment) (t : FileTree) (operand : String) :
    Except ShellError (Unit × FileTree) :=
  let (dir, name) := Path.splitParent (env.resolve operand)
  (t.createFile dir name "" env.now).map fun t => ((), t)

def touchFiles (args : List String) (env : Environment) : Outcome :=
  let (result, tree) := eachOperand (touchFile env) env.tree args
  (result.map fun _ => .nothing, { env with tree })

/-- Shows files one after the other, with `-n` as numbered lines. -/
def concatenate (usage : String) (args : List String) (env : Environment) :
    Except ShellError CommandOutput := do
  let files := args.filter (· ≠ "-n")
  if files.isEmpty then throw (.wrongUsage usage)
  let text := Text.unlines (← files.mapM env.readOperand)
  if args.contains "-n" then
    return .text (Text.unlines ((Text.lines text).zipIdx 1 |>.map fun (line, n) =>
      Text.alignRight 6 (toString n) ++ " " ++ line))
  else return .text text

/-- Shows text, without one pair of quotes around it. -/
def echo (args : List String) : CommandOutput :=
  .text (stripQuotes (" ".intercalate args))

/-- Changes the permissions of one operand and reports them. -/
def changeMode (env : Environment) (spec : ModeSpec) (t : FileTree) (operand : String) :
    Except ShellError (String × FileTree) :=
  let (dir, name) := Path.splitParent (env.resolve operand)
  (t.changePermissions dir name spec).map fun (p, t) =>
    ("mode of '" ++ operand ++ "' is now " ++ p.octal ++ " (" ++ p.symbolic ++ ")", t)

/-- Changes permissions. The first argument is the mode. -/
def changeModes (args : List String) (env : Environment) : Outcome :=
  match ModeSpec.ofString (args.headD "") with
  | .error e => (.error e, env)
  | .ok spec =>
    let (result, tree) := eachOperand (changeMode env spec) env.tree args.tail
    (result.map fun report => .notice (Text.unlines report), { env with tree })

def history (env : Environment) : CommandOutput :=
  .text (Text.unlines (env.history.zipIdx 1 |>.map fun (line, n) => toString n ++ ": " ++ line))

def page (args : List String) (env : Environment) : Except ShellError CommandOutput := do
  let operand := args.headD ""
  return .pager operand (← env.readOperand operand)

/-- Opens a file in the editor. A missing file starts empty if its directory exists. -/
def edit (args : List String) (env : Environment) : Except ShellError CommandOutput := do
  let operand := args.headD ""
  let path := env.resolve operand
  match env.tree.get? path with
  | some _ => return .editor path (← env.readOperand operand)
  | none =>
    if env.tree.isDirectory (Path.parent path) then return .editor path ""
    else throw (.notFound operand)

end Files

end ShellTutor
