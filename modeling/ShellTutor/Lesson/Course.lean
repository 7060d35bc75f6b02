import ShellTutor.Lesson.Basic
import ShellTutor.Text.Lines

/-!
# The course

The course has seven lessons, one for each day: what the home directory holds in the morning, which
commands are enabled, and which tasks are to be done.
-/

namespace ShellTutor.Course

/-- First steps: `echo`, `pwd` and `ls`. -/
def dayOne : Lesson where
  title := "Day 1: First steps in the terminal"
  day := 1
  commands := ["echo", "pwd", "ls", "clear", "history"]
  tree :=
    [.directory "documents" [],
      .directory "downloads" [],
      .directory "pictures" [],
      .directory "music" [],
      .file "quest_log.txt" "The journey into Linux Quest has begun...",
      .file "README.md" "Welcome to Linux Quest, Day 1!"]
  tasks :=
    [ { id := "task-echo"
        description := "Say hello with echo"
        command := some "echo" },
      { id := "task-pwd"
        description := "Find out where you are with pwd"
        command := some "pwd" },
      { id := "task-ls"
        description := "Look around with ls"
        command := some "ls" }]

def dayTwo : Lesson where
  title := "Day 2: Directories and files"
  day := 2
  commands := ["echo", "pwd", "ls", "cd", "mkdir", "touch", "cat", "clear", "history"]
  tree :=
    [.file "sample.txt" "This is a sample file.",
      .file "welcome.txt" "Welcome to Linux Quest, Day 2!"]
  tasks :=
    [ { id := "task-ls-l"
        description := "Show details with ls -l"
        command := some "ls"
        args := ["-l"] },
      { id := "task-mkdir"
        description := "Create the adventure directory"
        command := some "mkdir"
        pathExists := some "/home/quest/adventure" },
      { id := "task-cd"
        description := "Move into the adventure directory"
        command := some "cd"
        cwd := some "/home/quest/adventure" },
      { id := "task-cd-parent"
        description := "Go back up with cd .."
        command := some "cd"
        args := [".."] },
      { id := "task-touch"
        description := "Create an empty file with touch"
        command := some "touch" },
      { id := "task-echo-redirect"
        description := "Write to a file with echo and >"
        command := some "echo"
        redirect := some .overwrite },
      { id := "task-append"
        description := "Append to a file with >>"
        command := some "echo"
        redirect := some .append },
      { id := "task-cat"
        description := "Read a file with cat"
        command := some "cat" }]

def longStoryText : String :=
  Text.unlines
    ["=== Linux Quest adventure log ===",
      "Day1: first time at the terminal",
      "Day2: mastered directories and files",
      "Day3: learning to read files",
      "Day4: permissions are next",
      "Day5: writing shell scripts",
      "Day6: the secrets of pipes and redirection",
      "Day7: the final trial and graduation",
      "",
      "The adventurer's creed:",
      "1. Learn with curiosity",
      "2. Do not fear failure",
      "3. Value the basics",
      "4. Never stop learning",
      "5. Help your fellow adventurers",
      "",
      "How far we have come:",
      "- The terminal feels natural now",
      "- File operations are second nature",
      "- Errors are no longer scary",
      "- Searching for answers is a skill",
      "- The black screen became a friend",
      "- Every command tells a story",
      "- Tomorrow brings a new quest"]

def adventureLogText : String :=
  Text.unlines
    ["New discoveries on Day 3:",
      "- cat shows a whole file",
      "- less pages through a file",
      "- head shows the beginning",
      "- tail shows the end",
      "- grep searches for words"]

def configText : String :=
  Text.unlines
    ["# system settings",
      "username=quest_adventurer",
      "theme=dark",
      "language=en",
      "debug=true",
      "auto_save=enabled",
      "backup_enabled=true"]

/-- Reading files with `cat`, `less`, `head`, `tail` and `grep`. -/
def dayThree : Lesson where
  title := "Day 3: Reading files"
  day := 3
  commands := ["ls", "cd", "pwd", "cat", "less", "head", "tail", "grep", "nano", "clear",
    "history"]
  tree :=
    [.file "long_story.txt" longStoryText,
      .file "adventure_log.txt" adventureLogText,
      .file "config.txt" configText]
  tasks :=
    [ { id := "task-cat-full"
        description := "Read all of long_story.txt with cat"
        command := some "cat"
        target := some "/home/quest/long_story.txt"
        notArgs := ["-n"] },
      { id := "task-cat-n"
        description := "Show line numbers with cat -n"
        command := some "cat"
        args := ["-n"] },
      { id := "task-less"
        description := "Page through long_story.txt with less"
        command := some "less" },
      { id := "task-head"
        description := "Peek at the start of a file with head"
        command := some "head" },
      { id := "task-tail"
        description := "Check the end of a file with tail"
        command := some "tail" },
      { id := "task-grep"
        description := "Search config.txt with grep"
        command := some "grep" },
      { id := "task-nano"
        description := "Open a file in the editor with nano"
        command := some "nano" }]

/-- The script to run on day four. It prints the date. -/
def myScriptText : String :=
  Text.unlines
    ["#!/bin/bash",
      "echo \"Hello from my script!\"",
      "echo \"Current time: $(date)\"",
      ""]

def notesText : String :=
  Text.unlines
    ["Just an ordinary notes file.",
      "Learning about permissions."]

/-- Permissions and `chmod`. -/
def dayFour : Lesson where
  title := "Day 4: Permissions"
  day := 4
  commands := ["ls", "cd", "pwd", "cat", "chmod", "mkdir", "touch", "bash", "./", "clear",
    "history"]
  tree :=
    [.file "secret.txt" "This is secret information, protected by permissions.",
      .file "my_script.sh" myScriptText,
      .directory "test_dir" [],
      SeedEntry.withMode (.file "notes.txt" notesText) "664"]
  tasks :=
    [ { id := "task-ls-l"
        description := "Inspect permissions with ls -l"
        command := some "ls"
        args := ["-l"] },
      { id := "task-chmod-number"
        description := "Change permissions with an octal mode"
        command := some "chmod"
        mode := some .octal },
      { id := "task-chmod-letter"
        description := "Change permissions with a symbolic mode"
        command := some "chmod"
        mode := some .symbolic },
      { id := "task-script-execute"
        description := "Give yourself execute permission on my_script.sh"
        command := some "chmod"
        file := some { path := some "/home/quest/my_script.sh", executable := some true } },
      { id := "task-run-script"
        description := "Run ./my_script.sh"
        command := some "./"
        lineContains := some "my_script.sh" },
      { id := "task-directory-permission"
        description := "Create a directory and inspect its permissions"
        command := some "mkdir" }]

def helloText : String :=
  Text.unlines
    ["#!/bin/bash",
      "echo \"Hello World!\""]

def variablesText : String :=
  Text.unlines
    ["#!/bin/bash",
      "NAME=\"Adventurer\"",
      "LEVEL=5",
      "echo \"Hello, $NAME! You are level $LEVEL.\"",
      "echo \"Working in $(pwd)\"",
      ""]

/-- A script that reads input, branches, loops and defines a function. -/
def controlText : String :=
  Text.unlines
    ["#!/bin/bash",
      "read ANSWER",
      "if [ \"$ANSWER\" = \"yes\" ]; then",
      "  echo \"Onward!\"",
      "fi",
      "for i in 1 2 3; do",
      "  echo \"Step $i\"",
      "done",
      "greet() \x7b",
      "  echo \"Greetings, $USER\"",
      "\x7d",
      "greet",
      ""]

def dayFive : Lesson where
  title := "Day 5: Shell scripts"
  day := 5
  commands := ["ls", "cd", "pwd", "cat", "echo", "chmod", "bash", "./", "edit", "nano", "demo",
    "clear", "history"]
  tree :=
    [.file "hello.sh" helloText,
      .directory "examples" [.file "variables.sh" variablesText, .file "control.sh" controlText]]
  tasks :=
    [ { id := "task-create-script"
        description := "Write a script with a #!/bin/bash line and an echo"
        command := some "save"
        file := some { contains := ["#!/bin/bash", "echo"] } },
      { id := "task-variables"
        description := "Assign and use a variable in a script"
        command := some "save"
        file := some { contains := ["=", "$"] } },
      { id := "task-user-input"
        description := "Read user input with read"
        command := some "save"
        file := some { contains := ["read"] } },
      { id := "task-if-statement"
        description := "Branch with if, then and fi"
        command := some "save"
        file := some { contains := ["if", "then", "fi"] } },
      { id := "task-for-loop"
        description := "Repeat with for, do and done"
        command := some "save"
        file := some { contains := ["for", "do", "done"] } },
      { id := "task-function"
        description := "Define a function with name() \x7b ... \x7d"
        command := some "save"
        file := some { contains := ["\x7b", "\x7d"], containsAny := ["function", "()"] } },
      { id := "task-practical-script"
        description := "Run a script of your own that reads input, branches or loops"
        command := some "./"
        file := some
          { contains := ["#!/bin/bash", "echo"]
            containsAny := ["read", "if", "for"] } }]

/-- The log of a web server, to count requests in. -/
def accessText : String :=
  Text.unlines
    ["192.168.1.10 - - [28/Jul/2024:10:30:15] \"GET /index.html\" 200 1234",
      "192.168.1.11 - - [28/Jul/2024:10:31:22] \"GET /about.html\" 200 5678",
      "192.168.1.10 - - [28/Jul/2024:10:32:45] \"POST /login\" 404 0",
      "192.168.1.12 - - [28/Jul/2024:10:33:12] \"GET /products.html\" 200 9876",
      "192.168.1.10 - - [28/Jul/2024:10:34:33] \"GET /index.html\" 200 1234",
      "192.168.1.13 - - [28/Jul/2024:10:35:44] \"GET /contact.html\" 500 0",
      "192.168.1.11 - - [28/Jul/2024:10:36:55] \"GET /about.html\" 301 0",
      "192.168.1.14 - - [28/Jul/2024:10:37:12] \"GET /index.html\" 200 1234",
      "192.168.1.10 - - [28/Jul/2024:10:38:33] \"GET /search.html\" 403 0",
      "192.168.1.15 - - [28/Jul/2024:10:39:44] \"POST /submit\" 200 789"]

def usersText : String :=
  Text.unlines
    ["alice:admin:25:marketing",
      "bob:user:30:engineering",
      "charlie:admin:28:sales",
      "diana:user:35:marketing",
      "eve:moderator:22:support",
      "frank:user:40:engineering",
      "grace:admin:27:sales",
      "henry:user:33:support",
      "ivy:moderator:29:marketing",
      "jack:user:31:engineering"]

def salesText : String :=
  Text.unlines
    ["date,product,amount,sales_person",
      "2024-07-01,Product A,10000,Alice",
      "2024-07-01,Product B,15000,Bob",
      "2024-07-02,Product A,12000,Alice",
      "2024-07-02,Product C,8000,Charlie",
      "2024-07-03,Product B,18000,Bob",
      "2024-07-03,Product A,14000,Alice",
      "2024-07-04,Product C,9000,Charlie",
      "2024-07-04,Product B,16000,Bob",
      "2024-07-05,Product A,11000,Alice",
      "2024-07-05,Product D,20000,Diana"]

def daySix : Lesson where
  title := "Day 6: Pipes and redirection"
  day := 6
  commands := ["ls", "cd", "pwd", "cat", "echo", "grep", "sort", "uniq", "wc", "cut", "head",
    "tail", "clear", "history"]
  tree :=
    [.file "access.log" accessText,
      .file "users.txt" usersText,
      .file "sales.csv" salesText]
  tasks :=
    [ { id := "task-basic-pipe"
        description := "Connect two commands with a pipe"
        minStages := 2 },
      { id := "task-redirect-output"
        description := "Save output to a file with >"
        redirect := some .overwrite },
      { id := "task-append-output"
        description := "Append output to a file with >>"
        redirect := some .append },
      { id := "task-multiple-pipes"
        description := "Chain three or more commands"
        minStages := 3 },
      { id := "task-grep-pipe"
        description := "Filter piped data with grep"
        minStages := 2
        uses := ["grep"] },
      { id := "task-sort-uniq"
        description := "Count distinct values with sort | uniq -c"
        uses := ["sort", "uniq"] },
      { id := "task-data-analysis"
        description := "Extract a column with cut"
        uses := ["cut"] }]

def toolConfigText : String :=
  Text.unlines
    ["# admin tool settings",
      "hostname=linux",
      "backup_dir=/home/quest/backup",
      "log_level=info"]

/-- The system log, with two warnings. -/
def systemText : String :=
  Text.unlines
    ["[2024-07-29 10:30:15] INFO: system startup complete",
      "[2024-07-29 10:31:22] WARN: memory usage above 80%",
      "[2024-07-29 10:32:45] ERROR: disk space low",
      "[2024-07-29 10:33:12] INFO: backup started",
      "[2024-07-29 10:34:33] INFO: backup finished",
      "[2024-07-29 10:35:44] WARN: suspicious login attempt detected",
      "[2024-07-29 10:36:55] INFO: system optimization run"]

/-- The administration tool, which becomes executable on day seven. -/
def adminToolText : String :=
  Text.unlines
    ["#!/bin/bash",
      "# system administration menu",
      "TOOL=\"Linux Quest admin tool\"",
      "echo \"=== $TOOL ===\"",
      "show_menu",
      "read CHOICE",
      "if [ \"$CHOICE\" = \"1\" ]; then",
      "  echo \"System info for $USER\"",
      "fi",
      "for f in logs/*.log; do",
      "  echo \"Analyzing logs\"",
      "done",
      "echo \"Report generated: $(date)\"",
      "# functions: admin system-info, admin process-monitor, admin log-analysis,",
      "# admin backup, admin file-manager",
      ""]

/-- The final trial, with every command. -/
def daySeven : Lesson where
  title := "Day 7: The final trial"
  day := 7
  tree :=
    [.file "config.txt" toolConfigText,
      .directory "logs" [.file "system.log" systemText],
      .directory "backup" [],
      .directory "scripts" [.file "admin_tool.sh" adminToolText]]
  tasks :=
    [ { id := "task-create-admin-tool"
        description := "Make scripts/admin_tool.sh executable"
        command := some "chmod"
        lineContains := some "admin_tool.sh" },
      { id := "task-run-admin-tool"
        description := "Run the admin tool"
        lineContains := some "admin_tool.sh"
        uses := ["./"] },
      { id := "task-system-info"
        description := "Show system information with admin system-info"
        command := some "admin"
        args := ["system-info"] },
      { id := "task-process-monitor"
        description := "Watch processes with admin process-monitor"
        command := some "admin"
        args := ["process-monitor"] },
      { id := "task-log-analysis"
        description := "Count warnings in logs/system.log"
        uses := ["grep", "wc"] },
      { id := "task-backup-system"
        description := "Write a report into the backup directory"
        lineContains := some "backup/"
        redirect := some .any },
      { id := "task-file-management"
        description := "Review file permissions with admin file-manager"
        command := some "admin"
        args := ["file-manager"] },
      { id := "task-graduation"
        description := "Review everything you did with history"
        command := some "history" }]

/-- The lessons of the course, in order. -/
def days : List Lesson :=
  [dayOne, dayTwo, dayThree, dayFour, dayFive, daySix, daySeven]

end ShellTutor.Course
