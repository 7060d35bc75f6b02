import ShellTutor.Text.Lines

/-!
# What a command gives back

Besides text a command can give back entries of a directory, a message, or a signal to the session:
to clear the screen, to open the pager, to open the editor. Only text, lines and entries carry data
into a pipeline or a file.
-/

namespace ShellTutor

/-- A name in a directory. -/
structure ListingEntry where
  name : String
  isDirectory : Bool
  deriving DecidableEq, Repr

/-- The name as it is shown, with a slash behind a directory. -/
def ListingEntry.display (entry : ListingEntry) : String :=
  if entry.isDirectory then entry.name ++ "/" else entry.name

/-- What a command gives back. -/
inductive CommandOutput where
  | text (text : String)
  /-- Lines, with a term to mark in them. -/
  | lines (lines : List String) (highlight : Option String)
  | listing (entries : List ListingEntry)
  /-- A message, which is no data. -/
  | notice (text : String)
  | nothing
  | clear
  | pager (title content : String)
  | editor (path content : String)
  deriving DecidableEq, Repr

/-- The data for the next stage or for the target of a redirect. -/
def CommandOutput.data : CommandOutput → String
  | .text t => t
  | .lines ls _ => Text.unlines ls
  | .listing entries => Text.unlines (entries.map ListingEntry.name)
  | _ => ""

end ShellTutor
