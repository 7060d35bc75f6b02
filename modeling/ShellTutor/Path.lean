import ShellTutor.Text.Search

/-!
# Paths

A path is a text whose components are separated by slashes. In normal form it starts with a slash,
has one slash between each two components and none at the end; the root is a lone slash. `normalize`
brings a path to normal form, and `resolve` also takes `.` and `..` for what they mean.
-/

namespace ShellTutor.Path

/-- The pieces of a path between its slashes, empty ones included. -/
def pieces (path : String) : List String :=
  (path.toList.splitOn '/').map String.ofList

/-- The components of a path: its non-empty pieces. -/
def components (path : String) : List String :=
  (pieces path).filter (· ≠ "")

/-- The path in normal form that has the given components. -/
def ofComponents (components : List String) : String :=
  "/" ++ "/".intercalate components

/-- Whether there is a slash at the end of a text that is more than a lone slash. -/
def hasFinalSlash (cs : List Char) : Bool :=
  1 < cs.length && cs.getLast? == some '/'

/-- Whether a path is spelled in normal form. -/
def isNormalized (path : String) : Bool :=
  path.toList.head? == some '/' && !hasFinalSlash path.toList && !Text.occurs "//" path

/-- The text with one slash in place of several in a row. With `slash`, one was read last. -/
def squeeze (slash : Bool) : List Char → List Char
  | [] => []
  | c :: cs =>
    if c = '/' then
      if slash then squeeze true cs else '/' :: squeeze true cs
    else c :: squeeze false cs

/-- The path written anew with a slash at its start, single slashes and none at its end. -/
def rebuild (path : String) : String :=
  let built := '/' :: squeeze true path.toList
  String.ofList (if hasFinalSlash built then built.dropLast else built)

/-- The normal form of a path. The components `.` and `..` are kept, and a path that is spelled in
normal form is left as it is. -/
def normalize (path : String) : String :=
  if isNormalized path then path else rebuild path

def join (dir name : String) : String :=
  if dir = "/" then "/" ++ name else dir ++ "/" ++ name

/-- The directory that a path lies in. The root lies in itself, and a text without any slash in the
root. -/
def parent (path : String) : String :=
  match path.toList.reverse.dropWhile (· != '/') with
  | [] | [_] => "/"
  | _ :: dir => String.ofList dir.reverse

/-- The parts of a path before and after its last slash. The directory of a name directly below the
root is the root, and so is that of a text without any slash. -/
def splitParent (path : String) : String × String :=
  let backwards := path.toList.reverse
  let name := (backwards.takeWhile (· != '/')).reverse
  match backwards.dropWhile (· != '/') with
  | [] | [_] => ("/", String.ofList name)
  | _ :: dir => (String.ofList dir.reverse, String.ofList name)

/-- The components reached from `stack` (innermost first) by one more step: an empty step and `.`
stay, `..` goes up one directory, and up from the root is the root. -/
def step (stack : List String) (component : String) : List String :=
  if component = "" ∨ component = "." then stack
  else if component = ".." then stack.tail
  else component :: stack

/-- The absolute path that `input` names from the directory `cwd`, with `.` and `..` taken for what
they mean. -/
def resolve (cwd input : String) : String :=
  let raw := if input.toList.head? = some '/' then input else join cwd input
  ofComponents ((pieces raw).foldl step []).reverse

end ShellTutor.Path
