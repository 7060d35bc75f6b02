import ShellTutor.Command.Files
import ShellTutor.Text.Lines

/-!
# The administration tool

`admin` runs one of five functions once the tool's script in the home directory is executable: a
report on the system, a fixed table of processes, counts over the log files, a backup of the home
directory's files, and a long listing.
-/

namespace ShellTutor.Admin

/-- The script of the tool, from the home directory. -/
def toolScript : String := "scripts/admin_tool.sh"

def functions : List String :=
  ["system-info", "process-monitor", "log-analysis", "backup", "file-manager"]

/-- Whether the tool's script is a file that its owner may execute. -/
def isReady (env : Environment) : Bool :=
  (env.tree.get? (Path.join env.home toolScript)).any fun node =>
    !node.isDirectory && node.permissions.owner.exec

def systemInfo (env : Environment) : List String :=
  let (files, directories) := env.tree.countBelow env.home
  ["=== system information ===", "os:        Linux Quest OS 1.0", "user:      " ++ env.user,
    "home:      " ++ env.home, "cwd:       " ++ env.cwd, "time:      " ++ env.now.reportText,
    "files:     " ++ toString files, "dirs:      " ++ toString directories]

def processMonitor : List String :=
  ["=== process monitor ===", "  PID USER     %CPU %MEM COMMAND",
    "    1 root      0.1  0.4 init", "  412 root      0.3  1.2 sshd",
    "  988 quest     1.5  2.8 bash", " 1024 quest     0.0  0.6 admin_tool.sh"]

/-- The line on one log file: how many of its lines name each level. -/
def logLine (name content : String) : String :=
  let count (level : String) : String :=
    toString ((Text.lines content).countP (Text.occurs level))
  name ++ ": " ++ count "INFO" ++ " info, " ++ count "WARN" ++ " warnings, " ++ count "ERROR" ++
    " errors"

/-- The counts for each log file in the home directory's `logs`. -/
def logAnalysis (env : Environment) : Except ShellError (List String) := do
  let entries ← env.tree.list (Path.join env.home "logs")
  let reports := entries.filterMap fun (name, node) =>
    if ".log".toList.isSuffixOf name.toList then node.content?.map (logLine name) else none
  return "=== log analysis ===" :: if reports.isEmpty then ["no log files found"] else reports

def backupFile (env : Environment) (t : FileTree) (file : String × String) :
    Except ShellError (String × FileTree) :=
  (t.writeFile (Path.join env.home "backup") file.1 file.2 .overwrite env.now).map fun t =>
    ("backed up " ++ file.1, t)

/-- The tree with a backup directory in the home directory. -/
def ensureBackup (env : Environment) : Except ShellError FileTree :=
  if env.tree.contains (Path.join env.home "backup") then .ok env.tree
  else env.tree.createDirectory env.home "backup" env.now

/-- Copies the files of the home directory into its `backup`. -/
def backup (env : Environment) : Except ShellError (List String) × Environment :=
  match ensureBackup env with
  | .error e => (.error e, env)
  | .ok tree =>
    match tree.list env.home with
    | .error e => (.error e, { env with tree })
    | .ok entries =>
      let files := entries.filterMap fun (name, node) =>
        node.content?.map fun content => (name, content)
      let (result, tree) := eachOperand (backupFile env) tree files
      (result.map fun report =>
        "=== backup ===" :: report ++ [toString files.length ++ " file(s) copied to ~/backup"],
        { env with tree })

def fileManager (env : Environment) : Except ShellError (List String) := do
  let entries ← env.tree.list env.cwd
  return ("=== files in " ++ env.cwd ++ " ===") ::
    entries.map fun (name, node) => node.longLine name

def call (function : String) (env : Environment) : Except ShellError (List String) × Environment :=
  match function with
  | "system-info" => (.ok (systemInfo env), env)
  | "process-monitor" => (.ok processMonitor, env)
  | "log-analysis" => (logAnalysis env, env)
  | "backup" => backup env
  | "file-manager" => (fileManager env, env)
  | other =>
    (.error (.invalidArgument ("unknown function '" ++ other ++ "' (available: " ++
      ", ".intercalate functions ++ ")")), env)

/-- Runs the function that the first argument names, once the tool is executable. -/
def run (args : List String) (env : Environment) : Outcome :=
  if isReady env then
    let (result, env) := call (args.headD "") env
    (result.map fun lines => .text (Text.unlines lines), env)
  else
    (.error (.invalidArgument ("~/" ++ toolScript ++ " is not executable yet (try chmod +x)")), env)

end ShellTutor.Admin
