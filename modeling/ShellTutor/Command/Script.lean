import ShellTutor.Command.Environment
import ShellTutor.Text.Blank
import ShellTutor.Text.Lines
import ShellTutor.Text.Search

/-!
# Walking through scripts

A script is not interpreted. Its lines are looked at one by one: an assignment sets a variable, an
`echo` prints its text with the variables put in, and lines that branch, loop or call a function are
acknowledged in brackets.
-/

namespace ShellTutor.Script

def keywords : List String :=
  ["if", "then", "else", "elif", "fi", "for", "while", "until", "do", "done", "case", "esac",
    "function", "return", "exit", "local", "in"]

/-- What `read` assigns, since nobody is there to type. -/
def demoInput : String := "demo input"

def isNameStart (c : Char) : Bool :=
  ('a' ≤ c && c ≤ 'z') || ('A' ≤ c && c ≤ 'Z') || c = '_'

def isNameChar (c : Char) : Bool :=
  isNameStart c || ('0' ≤ c && c ≤ '9')

def isIdentifier : List Char → Bool
  | [] => false
  | c :: cs => isNameStart c && cs.all isNameChar

/-- Reads `name=value`. A line with `$` or `;` is no assignment. -/
def assignment? (line : List Char) : Option (String × String) :=
  if line.contains '$' || line.contains ';' then none
  else
    match Text.splitOnce '=' line with
    | some (name, value) =>
      if isIdentifier name then
        some (String.ofList name, String.ofList (value.filter (· != '\x22')))
      else none
    | none => none

/-- The words of a line, which blanks and semicolons separate. -/
def lineWords (line : List Char) : List String :=
  (Text.runs (fun c => Text.isBlank c || c == ';') line).map String.ofList

/-- Whether a line is a bare name, or the start of the definition of a function. -/
def isFunctionCall (first : String) (words : List String) : Bool :=
  let isDefinition := ['(', ')'].isSuffixOf first.toList
  let name := if isDefinition then first.toList.take (first.toList.length - 2) else first.toList
  let restFits :=
    match words with
    | [_] => true
    | [_, brace] => brace = "\x7b" && isDefinition
    | _ => false
  restFits && isIdentifier name && !keywords.contains (String.ofList name)

/-- The name behind a `$` and the text after the reference: a name in braces, else the longest run
of characters that names consist of. -/
def reference (cs : List Char) : List Char × List Char :=
  let bare := (cs.takeWhile isNameChar, cs.dropWhile isNameChar)
  match cs with
  | '\x7b' :: rest => (Text.splitOnce '\x7d' rest).getD bare
  | _ => bare

/-- What is left after a reference is no longer than the text was. -/
theorem length_reference_le (cs : List Char) : (reference cs).2.length ≤ cs.length := by
  have drop (p : Char → Bool) (cs : List Char) : (cs.dropWhile p).length ≤ cs.length :=
    (List.dropWhile_sublist p).length_le
  unfold reference
  split
  · rename_i rest
    unfold Text.splitOnce
    have h := drop (· != '\x7d') rest
    split
    · exact drop _ _
    · rename_i heq
      rw [heq] at h
      simp only [Option.getD_some, List.length_cons] at h ⊢
      omega
  · exact drop _ _

/-- Puts values in for references. A `$` that no name follows stays. -/
def substitute (value : String → String) : List Char → List Char
  | [] => []
  | c :: cs =>
    if c = '$' then
      let name := (reference cs).1
      have := length_reference_le cs
      (if name.isEmpty then ['$'] else (value (String.ofList name)).toList) ++
        substitute value (reference cs).2
    else c :: substitute value cs
termination_by cs => cs.length

/-- The value of a name: a variable, else what the session knows as `USER`, `HOME` or `PWD`, else
nothing. -/
def lookup (env : Environment) (name : String) : String :=
  match env.vars.get? name with
  | some value => value
  | none =>
    if name = "USER" then env.user
    else if name = "HOME" then env.home
    else if name = "PWD" then env.cwd
    else ""

/-- A text with the date, the working directory and the values of variables put in, in that
order. -/
def expand (env : Environment) (text : List Char) : String :=
  let text := Text.replaceAll "$(date)".toList env.now.fullText.toList text
  let text := Text.replaceAll "$(pwd)".toList env.cwd.toList text
  String.ofList (substitute (lookup env) text)

/-- What a line of a script prints, if anything, and the environment after it. -/
def walkLine (line : String) (env : Environment) : Option String × Environment :=
  match assignment? line.toList with
  | some (name, value) => (none, { env with vars := env.vars.set name value })
  | none =>
    let words := lineWords line.toList
    let has (word : String) : Bool := words.contains word
    let branches := (has "if" || has "elif") && has "then"
    let loops := (has "for" || has "while" || has "until") && has "do"
    if words.head? = some "echo" then
      let text := Text.trim ((Text.after? "echo" line).getD "")
      (some (expand env (text.toList.filter (· != '\x22'))), env)
    else if words.head? = some "read" then
      let printed := "[user input: " ++ demoInput ++ "]"
      match words.tail.head? with
      | some name => (some printed, { env with vars := env.vars.set name demoInput })
      | none => (some printed, env)
    else if branches then (some "[conditional executed]", env)
    else if loops then (some "[loop executed]", env)
    else
      match words with
      | first :: _ =>
        (if isFunctionCall first words then some "[function executed]" else none, env)
      | [] => (none, env)

/-- What the lines of a script print. Blank lines and comments are passed over. -/
def walk (env : Environment) : List String → List String × Environment
  | [] => ([], env)
  | raw :: rest =>
    let line := Text.trim raw
    if line = "" ∨ line.toList.head? = some '#' then walk env rest
    else
      let (printed, env) := walkLine line env
      let (others, env) := walk env rest
      (printed.toList ++ others, env)

/-- Walks through a script. What it prints stands between a start and a finish marker, and its
assignments stay. -/
def run (name source : String) (env : Environment) : List String × Environment :=
  let (printed, env) := walk env (Text.lines source)
  (["--- running " ++ name ++ " ---"] ++ printed ++ ["--- " ++ name ++ " finished ---"], env)

def runOperand (operand : String) (env : Environment) : Outcome :=
  match env.readOperand operand with
  | .error e => (.error e, env)
  | .ok source =>
    let (printed, env) := run operand source env
    (.ok (.text (Text.unlines printed)), env)

/-- Runs the script that an operand names, for which its owner needs the permission to execute. -/
def execute (operand : String) (env : Environment) : Outcome :=
  let shown := "./" ++ operand
  match env.tree.get? (env.resolve operand) with
  | none => (.error (.notFound shown), env)
  | some node =>
    if node.isDirectory then (.error (.isADirectory shown), env)
    else if !node.permissions.owner.exec then (.error (.permissionDenied shown), env)
    else runOperand operand env

end ShellTutor.Script
