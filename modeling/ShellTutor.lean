import ShellTutor.Calendar
import ShellTutor.Command.Admin
import ShellTutor.Command.Builtin
import ShellTutor.Command.Demo
import ShellTutor.Command.Environment
import ShellTutor.Command.Files
import ShellTutor.Command.Filter.Count
import ShellTutor.Command.Filter.Cut
import ShellTutor.Command.Filter.Grep
import ShellTutor.Command.Filter.Input
import ShellTutor.Command.Filter.Sort
import ShellTutor.Command.Filter.Uniq
import ShellTutor.Command.Line
import ShellTutor.Command.Output
import ShellTutor.Command.Registry
import ShellTutor.Command.Script
import ShellTutor.Dictionary
import ShellTutor.Document.Json
import ShellTutor.Document.Reading
import ShellTutor.Document.Toml
import ShellTutor.Document.Value
import ShellTutor.Editor
import ShellTutor.Error
import ShellTutor.FileTree.Basic
import ShellTutor.FileTree.Load
import ShellTutor.FileTree.Seed
import ShellTutor.FileTree.SeedDocument
import ShellTutor.Lesson.Basic
import ShellTutor.Lesson.Course
import ShellTutor.Lesson.Document
import ShellTutor.Lesson.Resolve
import ShellTutor.Main
import ShellTutor.Number.Binary64
import ShellTutor.Number.Natural
import ShellTutor.Pager
import ShellTutor.Path
import ShellTutor.Permission
import ShellTutor.Proofs.Calendar
import ShellTutor.Proofs.Command.Admin
import ShellTutor.Proofs.Command.Alike
import ShellTutor.Proofs.Command.Allowlist
import ShellTutor.Proofs.Command.Backup
import ShellTutor.Proofs.Command.ChangeMode
import ShellTutor.Proofs.Command.Confidential
import ShellTutor.Proofs.Command.Crash
import ShellTutor.Proofs.Command.Distinct
import ShellTutor.Proofs.Command.Effect
import ShellTutor.Proofs.Command.Failure
import ShellTutor.Proofs.Command.Fields
import ShellTutor.Proofs.Command.FirstFailure
import ShellTutor.Proofs.Command.Frame
import ShellTutor.Proofs.Command.Grammar
import ShellTutor.Proofs.Command.Lookup
import ShellTutor.Proofs.Command.OneByOne
import ShellTutor.Proofs.Command.Operand
import ShellTutor.Proofs.Command.Partition
import ShellTutor.Proofs.Command.Pipeline
import ShellTutor.Proofs.Command.Reads
import ShellTutor.Proofs.Command.Sorting
import ShellTutor.Proofs.Command.Spelling
import ShellTutor.Proofs.Command.Splice
import ShellTutor.Proofs.FileTree.Alike
import ShellTutor.Proofs.FileTree.Calls
import ShellTutor.Proofs.FileTree.Change
import ShellTutor.Proofs.FileTree.Connected
import ShellTutor.Proofs.FileTree.Copying
import ShellTutor.Proofs.FileTree.Counting
import ShellTutor.Proofs.FileTree.Growth
import ShellTutor.Proofs.FileTree.Lasting
import ShellTutor.Proofs.FileTree.Locality
import ShellTutor.Proofs.FileTree.Naming
import ShellTutor.Proofs.FileTree.Planting
import ShellTutor.Proofs.FileTree.Reachable
import ShellTutor.Proofs.Number.Integer
import ShellTutor.Proofs.Number.Order
import ShellTutor.Proofs.Outcome
import ShellTutor.Proofs.Pager.Search
import ShellTutor.Proofs.Pager.Window
import ShellTutor.Proofs.Path.Components
import ShellTutor.Proofs.Path.Composition
import ShellTutor.Proofs.Path.Rebuild
import ShellTutor.Proofs.Path.Resolve
import ShellTutor.Proofs.Path.Spelling
import ShellTutor.Proofs.Permission.Bits
import ShellTutor.Proofs.Permission.Grammar
import ShellTutor.Proofs.Permission.Octal
import ShellTutor.Proofs.Screen.Flagged
import ShellTutor.Proofs.Screen.Highlight
import ShellTutor.Proofs.Script.Expansion
import ShellTutor.Proofs.Script.Names
import ShellTutor.Proofs.Script.Place
import ShellTutor.Proofs.Script.Program
import ShellTutor.Proofs.Script.Walk
import ShellTutor.Proofs.Session.Actions
import ShellTutor.Proofs.Session.Backup
import ShellTutor.Proofs.Session.Editing
import ShellTutor.Proofs.Session.Failure
import ShellTutor.Proofs.Session.Modes
import ShellTutor.Proofs.Session.Reachable
import ShellTutor.Proofs.Session.Selection
import ShellTutor.Proofs.Session.Spelling
import ShellTutor.Proofs.Session.Submission
import ShellTutor.Proofs.Session.Unedited
import ShellTutor.Proofs.Session.Variables
import ShellTutor.Proofs.Session.WorkingDirectory
import ShellTutor.Proofs.Sort.Order
import ShellTutor.Proofs.Sort.Runs
import ShellTutor.Proofs.Sort.Small
import ShellTutor.Proofs.Sort.Stable
import ShellTutor.Proofs.Task.Completion
import ShellTutor.Proofs.Task.Dispatch
import ShellTutor.Proofs.Text.Lines
import ShellTutor.Proofs.Text.Lowercase
import ShellTutor.Proofs.Text.Occurrence
import ShellTutor.Proofs.Text.Replace
import ShellTutor.Proofs.Text.Split
import ShellTutor.Screen.Line
import ShellTutor.Screen.Render
import ShellTutor.Session.Basic
import ShellTutor.Session.Display
import ShellTutor.Session.Submit
import ShellTutor.Sort.Small
import ShellTutor.Sort.Stable
import ShellTutor.Task.Board
import ShellTutor.Task.Event
import ShellTutor.Task.Rule
import ShellTutor.Terminal.Dialogue
import ShellTutor.Terminal.Input
import ShellTutor.Text.Blank
import ShellTutor.Text.CaseTable
import ShellTutor.Text.Column
import ShellTutor.Text.Lines
import ShellTutor.Text.Lowercase
import ShellTutor.Text.Search
import ShellTutor.Text.Utf8
