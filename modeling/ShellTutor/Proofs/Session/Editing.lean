import ShellTutor.Proofs.Session.Actions

/-!
# Editing a file

From the line that opens the editor to the one that closes it, everything is told by the lines that
are typed. The buffer is what they make of the lines of the file. The tree is changed by the lines
that write, and each of these succeeds, since the place that was checked when the editor opened is
never taken away. Closing is refused while something is in the buffer that was not written.
-/

namespace ShellTutor

namespace EditorInput

/-- The texts that the editor takes for commands. Blanks around them do not count. -/
def commandWords : List String :=
  [":w", "^O", ":wq", ":x", ":q", "^X", ":q!", ":d", ":p"]

/-- A line that is no command, and is added to the buffer. -/
def IsText (line : String) : Prop :=
  Text.trim line ∉ commandWords

/-- A line that writes the buffer. -/
def Writes (line : String) : Prop :=
  Text.trim line ∈ [":w", "^O", ":wq", ":x"]

instance (line : String) : Decidable (IsText line) :=
  inferInstanceAs (Decidable (Text.trim line ∉ commandWords))

instance (line : String) : Decidable (Writes line) :=
  inferInstanceAs (Decidable (Text.trim line ∈ _))

theorem parse_eq_text_iff (line : String) : parse line = .text line ↔ IsText line := by
  unfold parse
  split <;> simp_all [IsText, commandWords]

theorem isWrite_parse_iff (line : String) : (parse line).isWrite = true ↔ Writes line := by
  unfold parse
  split <;> simp_all [isWrite, Writes]

/-- The texts that stand for an input. -/
def spellings : EditorInput → List String
  | .write => [":w", "^O"]
  | .writeQuit => [":wq", ":x"]
  | .quit => [":q", "^X"]
  | .forceQuit => [":q!"]
  | .deleteLast => [":d"]
  | .show => [":p"]
  | .text _ => []

theorem parse_eq_iff (line : String) (input : EditorInput) (h : input.spellings ≠ []) :
    parse line = input ↔ Text.trim line ∈ input.spellings := by
  unfold parse
  cases input with
  | text content => exact absurd rfl h
  | _ => split <;> simp_all [spellings]

theorem parse_eq_deleteLast_iff (line : String) :
    parse line = .deleteLast ↔ Text.trim line = ":d" := by
  rw [parse_eq_iff line .deleteLast (by decide), spellings, List.mem_singleton]

/-- Text is kept with its blanks. -/
theorem eq_of_parse_eq_text {line content : String} (h : parse line = .text content) :
    content = line := by
  unfold parse at h
  split at h <;> cases h
  rfl

end EditorInput

namespace Editor

open EditorInput (IsText Writes)

/-- The buffer after one more line: text is added as it is, and `:d` takes the last line away. -/
def typed (buffer : List String) (line : String) : List String :=
  if IsText line then buffer ++ [line]
  else if Text.trim line = ":d" then buffer.dropLast
  else buffer

/-- The buffer after lines that were typed into it. -/
def bufferAfter (start lines : List String) : List String :=
  lines.foldl typed start

/-- A line that adds something to a buffer or takes something from it. -/
def Alters (buffer : List String) (line : String) : Prop :=
  IsText line ∨ Text.trim line = ":d" ∧ buffer ≠ []

/-- Among the lines there is one that altered the buffer, and none behind it wrote it. -/
def Unsaved (start lines : List String) : Prop :=
  ∃ before line after, lines = before ++ line :: after ∧
    Alters (bufferAfter start before) line ∧ ∀ later ∈ after, ¬ Writes later

variable {start lines : List String} {line : String}

theorem bufferAfter_append (start lines : List String) (line : String) :
    bufferAfter start (lines ++ [line]) = typed (bufferAfter start lines) line := by
  simp only [bufferAfter, List.foldl_append, List.foldl_cons, List.foldl_nil]

theorem not_unsaved_nil (start : List String) : ¬ Unsaved start [] := by
  rintro ⟨before, line, after, hsplit, -⟩
  simp at hsplit

/-- A line among those typed so far, or the one typed last. -/
theorem cases_of_split {before after : List String} {earlier : String}
    (h : lines ++ [line] = before ++ earlier :: after) :
    lines = before ∧ line = earlier ∧ after = [] ∨
      ∃ init, lines = before ++ earlier :: init ∧ after = init ++ [line] := by
  rcases List.eq_nil_or_concat after with rfl | ⟨init, last, rfl⟩
  · obtain ⟨hlines, hline⟩ := List.append_inj' h rfl
    exact Or.inl ⟨hlines, List.singleton_inj.mp hline, rfl⟩
  · rw [List.concat_eq_append, ← List.cons_append, ← List.append_assoc] at h
    obtain ⟨hlines, hline⟩ := List.append_inj' h rfl
    obtain rfl : line = last := List.singleton_inj.mp hline
    exact Or.inr ⟨init, hlines, List.concat_eq_append⟩

theorem unsaved_append :
    Unsaved start (lines ++ [line]) ↔
      Alters (bufferAfter start lines) line ∨ Unsaved start lines ∧ ¬ Writes line := by
  constructor
  · rintro ⟨before, altered, after, hsplit, halters, hunwritten⟩
    rcases cases_of_split hsplit with ⟨rfl, rfl, -⟩ | ⟨init, rfl, rfl⟩
    · exact Or.inl halters
    · refine Or.inr ⟨⟨before, altered, init, rfl, halters, fun later hlater => ?_⟩, ?_⟩
      · exact hunwritten later (List.mem_append_left _ hlater)
      · exact hunwritten line (List.mem_append_right _ (List.mem_singleton_self line))
  · rintro (halters | ⟨⟨before, altered, after, rfl, halters, hunwritten⟩, hline⟩)
    · exact ⟨lines, line, [], rfl, halters, by simp⟩
    · refine ⟨before, altered, after ++ [line], by simp, halters, fun later hlater => ?_⟩
      rcases List.mem_append.mp hlater with hafter | hlast
      · exact hunwritten later hafter
      · rwa [List.mem_singleton.mp hlast]

/-- The editor after an input, if it stays open. -/
def next? (e : Editor) : EditorInput → Option Editor
  | .text line => some (e.push line)
  | .show => some e
  | .deleteLast => some e.deleteLast.2
  | .quit => if e.modified then some e else none
  | .forceQuit => none
  | .write => some e.markSaved
  | .writeQuit => none

theorem lines_deleteLast (e : Editor) : e.deleteLast.2.lines = e.lines.dropLast := by
  rw [deleteLast]
  cases hlast : e.lines.getLast? with
  | some line => rfl
  | none => simp [List.getLast?_eq_none_iff.mp hlast]

theorem modified_deleteLast (e : Editor) :
    e.deleteLast.2.modified = true ↔ e.lines ≠ [] ∨ e.modified = true := by
  rw [deleteLast]
  cases hlast : e.lines.getLast? with
  | some line =>
    have hne : e.lines ≠ [] := by
      rintro hnil
      rw [hnil] at hlast
      cases hlast
    simp [hne]
  | none => simp [List.getLast?_eq_none_iff.mp hlast]

/-- While the editor stays open, its buffer and its mark follow the lines that are typed. -/
theorem next?_parse {e e' : Editor} (h : e.next? (.parse line) = some e') :
    e'.path = e.path ∧ e'.lines = typed e.lines line ∧
      (e'.modified = true ↔ Alters e.lines line ∨ e.modified = true ∧ ¬ Writes line) := by
  simp only [typed, Alters, ← EditorInput.parse_eq_text_iff, ← EditorInput.parse_eq_deleteLast_iff,
    ← EditorInput.isWrite_parse_iff]
  cases hinput : EditorInput.parse line with
  | text content =>
    obtain rfl := EditorInput.eq_of_parse_eq_text hinput
    rw [hinput] at h
    cases h
    simp [push]
  | deleteLast =>
    rw [hinput] at h
    cases h
    simp [Session.path_deleteLast, lines_deleteLast, modified_deleteLast, EditorInput.isWrite]
  | write =>
    rw [hinput] at h
    cases h
    simp [markSaved, EditorInput.isWrite]
  | «show» =>
    rw [hinput] at h
    cases h
    simp [EditorInput.isWrite]
  | quit =>
    rw [hinput, next?] at h
    split at h
    · cases h
      simp [EditorInput.isWrite]
    · cases h
  | forceQuit =>
    rw [hinput] at h
    cases h
  | writeQuit =>
    rw [hinput] at h
    cases h

end Editor

/-- The editor opens a file with its content, and a missing one empty. -/
theorem Files.content_of_edit {args : List String} {env : Environment} {path content : String}
    (h : edit args env = .ok (.editor path content)) :
    path = env.resolve (args.headD "") ∧
      Text.lines content = ((env.tree.fileContent? path).map Text.lines).getD [] := by
  have hnormal : Path.IsNormal (env.resolve (args.headD "")) := Path.isNormal_resolve _ _
  rw [edit] at h
  cases hnode : env.tree.get? (env.resolve (args.headD "")) with
  | some node =>
    rw [hnode] at h
    obtain ⟨text, hread, h⟩ := Outcome.bind_eq_ok.mp h
    cases h
    have hplace := env.tree.readFrom_eq env.cwd (args.headD "")
    have hcontent := FileTree.fileContent?_of_read hnormal (hplace.symm.trans hread)
    refine ⟨rfl, ?_⟩
    rw [hcontent]
    rfl
  | none =>
    rw [hnode] at h
    simp only at h
    split at h
    · cases h
      refine ⟨rfl, ?_⟩
      rw [FileTree.fileContent?, hnode]
      rfl
    · cases h

theorem Registry.stageArgs_edit {word : String}
    (hword : word.toLower = "edit" ∨ word.toLower = "nano") (args : List String) :
    stageArgs (word :: args) = args := by
  obtain ⟨cmd, hcmd⟩ : ∃ cmd : Command, word.toLower = cmd.name :=
    hword.elim (fun h => ⟨.edit, h⟩) fun h => ⟨.nano, h⟩
  exact stageArgs_of_toLower hcmd args

/-- A stage that opens the editor did so with its own arguments. -/
theorem Registry.edit_of_run_singleton {reg : Registry} {tokens : List String} {env : Environment}
    {path content : String}
    (hout : (reg.run { stages := [tokens] } none env).1 = .ok (.editor path content)) :
    Files.edit (stageArgs tokens) env = .ok (.editor path content) := by
  rw [run_singleton, dispatch] at hout
  split at hout
  · obtain ⟨text, hcontra⟩ := text_of_help hout
    cases hcontra
  · cases hresolve : reg.resolveStage tokens with
    | error e =>
      rw [hresolve] at hout
      cases hout
    | ok found =>
      obtain ⟨cmd, args⟩ := found
      have hargs : args = stageArgs tokens := by
        unfold resolveStage at hresolve
        simp only at hresolve
        split at hresolve
        · split at hresolve
          · cases hresolve
            rfl
          · cases hresolve
        · cases hresolve
      rw [hresolve] at hout
      simp only at hout
      split at hout
      · cases hout
      · rw [← hargs]
        exact (Command.edit_of_execute hout).1

namespace Session

open EditorInput (IsText Writes)
open Editor (typed bufferAfter Alters Unsaved)

variable {s : Session} {line : String} {now : Timestamp}

/-- An editor that is open after a line, and was not before, was opened by what the line ran. -/
theorem editor_of_afterRun (hclosed : s.editor? = none) {parsed : ParsedLine} {e : Editor}
    (hopen : (s.afterRun parsed now).editor? = some e) :
    ∃ path content, (s.registry.run parsed none (s.environment now)).1 =
      .ok (.editor path content) ∧ e = .ofText path content := by
  rw [afterRun] at hopen
  cases hout : (s.run parsed now).1 with
  | error cause =>
    rw [hout, run_eq] at hopen
    rw [hclosed] at hopen
    cases hopen
  | ok output =>
    simp only [hout] at hopen
    rcases present_cases (s.run parsed now).2 output with hsame | ⟨window, hsame⟩ |
      ⟨path, content, rfl, hsame⟩
    · rw [hsame, run_eq, hclosed] at hopen
      cases hopen
    · rw [hsame, run_eq, hclosed] at hopen
      cases hopen
    · rw [hsame] at hopen
      exact ⟨path, content, hout, (Option.some.inj hopen).symm⟩

/-- The lines of the file at a path, or none. -/
def linesOf (tree : FileTree) (path : String) : List String :=
  ((tree.fileContent? path).map Text.lines).getD []

/-- What `edit` and `nano` open is the file that their operand leads to, with its lines, and they
change nothing. -/
theorem opened_by_edit (hcommands : s.takesCommands = true) {word x : String} {more : List String}
    (hword : word.toLower = "edit" ∨ word.toLower = "nano")
    (hparse : ParsedLine.parse (Text.trim line) = .ok { stages := [word :: x :: more] })
    (hopen : (s.submit line now).2.inEditor = true) :
    (s.submit line now).2.editor? =
        some ⟨Path.resolve s.cwd x, linesOf s.tree (Path.resolve s.cwd x), false⟩ ∧
      (s.submit line now).2.tree = s.tree ∧ (s.submit line now).2.cwd = s.cwd := by
  have hline : Text.trim line ≠ "" := ne_empty_of_parse hparse (by simp)
  have hsubmit := submit_of_parse hcommands hline hparse now
  have hclosed : (s.logged (Text.trim line)).editor? = none := (takesCommands_iff.mp hcommands).2
  obtain ⟨e, he⟩ := Option.isSome_iff_exists.mp hopen
  rw [hsubmit] at he
  obtain ⟨path, content, hout, rfl⟩ := editor_of_afterRun hclosed he
  have hedit := Registry.edit_of_run_singleton hout
  rw [Registry.stageArgs_edit hword] at hedit
  obtain ⟨hpath, hlines⟩ := Files.content_of_edit hedit
  obtain ⟨-, hsame⟩ := Registry.edit_of_run hout
  have hframe := afterRun_frame (s.logged (Text.trim line)) { stages := [word :: x :: more] } now
  have htree := (congrArg Session.tree hframe).trans (congrArg Environment.tree hsame)
  have hcwd := (congrArg Session.cwd hframe).trans (congrArg Environment.cwd hsame)
  have hplace : path = Path.resolve s.cwd x := hpath
  rw [hsubmit]
  refine ⟨?_, htree, hcwd⟩
  rw [← hplace]
  exact he.trans (congrArg some (by rw [Editor.ofText, hlines]; rfl))

theorem submit_of_editor (hpager : s.pager? = none) {e : Editor} (heditor : s.editor? = some e)
    (line : String) (now : Timestamp) : s.submit line now = s.edit e now (.parse line) := by
  rw [submit, hpager, heditor]

/-- An input that writes nothing changes the editor alone. -/
theorem edit_next {e : Editor} (heditor : s.editor? = some e) {input : EditorInput}
    (hinput : input.isWrite = false) (now : Timestamp) :
    (s.edit e now input).2 = { s with editor? := e.next? input } := by
  have hsame : s = { s with editor? := some e } := by rw [← heditor]
  cases input with
  | write => cases hinput
  | writeQuit => cases hinput
  | «show» => exact hsame
  | quit =>
    rw [edit, Editor.next?]
    split
    · exact hsame
    · rfl
  | _ => rfl

/-- An input that writes succeeds, and changes the tree as a write does. -/
theorem Sound.edit_write (hs : s.Sound) {e : Editor} (heditor : s.editor? = some e)
    {input : EditorInput} (hinput : input.isWrite = true) (now : Timestamp) :
    ∃ tree, s.tree.writeFile (Path.parent e.path) (Path.lastName e.path) e.content .overwrite now =
        .ok tree ∧
      (s.edit e now input).1.events = [.saved e.path s.cwd] ∧
      (s.edit e now input).2 =
        ({ s with tree, editor? := e.next? input } : Session).seen (.saved e.path s.cwd) := by
  obtain ⟨hresolved, hplace⟩ := hs.writable e heditor
  obtain ⟨tree, htree⟩ := FileTree.exists_writeFile hresolved hplace e.content .overwrite now
  refine ⟨tree, htree, ?_⟩
  cases input with
  | write =>
    have hstep : s.edit e now .write = s.writeBuffer e [] (some e.markSaved) now := rfl
    rw [hstep]
    exact writeBuffer_eq s hresolved [] (some e.markSaved) htree
  | writeQuit =>
    have hstep : s.edit e now .writeQuit = s.writeBuffer e [editorClosed] none now := rfl
    rw [hstep]
    exact writeBuffer_eq s hresolved [editorClosed] none htree
  | _ => cases hinput

/-- A line that writes nothing changes the editor alone. -/
theorem Sound.submit_unwritten (hs : s.Sound) {e : Editor} (heditor : s.editor? = some e)
    (hline : ¬ Writes line) (now : Timestamp) :
    (s.submit line now).2 = { s with editor? := e.next? (.parse line) } := by
  have hpager : s.pager? = none := hs.apart.resolve_right (by simp [heditor])
  rw [← EditorInput.isWrite_parse_iff, Bool.not_eq_true] at hline
  rw [submit_of_editor hpager heditor]
  exact edit_next heditor hline now

/-- A line that writes succeeds, whatever the buffer is. -/
theorem Sound.submit_written (hs : s.Sound) {e : Editor} (heditor : s.editor? = some e)
    (hline : Writes line) (now : Timestamp) :
    ∃ tree, s.tree.WrittenAt e.path now tree ∧ tree.fileContent? e.path = some e.content ∧
      (s.submit line now).1.events = [.saved e.path s.cwd] ∧
      (s.submit line now).2 = ({ s with
        tree, editor? := e.next? (.parse line) } : Session).seen (.saved e.path s.cwd) := by
  have hpager : s.pager? = none := hs.apart.resolve_right (by simp [heditor])
  have hnormal := (hs.writable e heditor).1.isNormal
  rw [submit_of_editor hpager heditor]
  obtain ⟨tree, htree, hevents, hnext⟩ :=
    hs.edit_write heditor ((EditorInput.isWrite_parse_iff line).mpr hline) now
  exact ⟨tree, FileTree.writtenAt_of_writeFile hnormal htree,
    FileTree.fileContent?_of_overwrite hnormal htree, hevents, hnext⟩

theorem Sound.editor_submit (hs : s.Sound) {e : Editor} (heditor : s.editor? = some e)
    (line : String) (now : Timestamp) :
    (s.submit line now).2.editor? = e.next? (.parse line) := by
  by_cases hline : Writes line
  · obtain ⟨tree, -, -, -, hnext⟩ := hs.submit_written heditor hline now
    rw [hnext, seen]
  · rw [hs.submit_unwritten heditor hline now]

/-- The sessions that come of an opened editor and the lines that are typed into it, one after the
other while it is open. -/
inductive Edits (opened : Session) : List String → Session → Prop
  | opened : Edits opened [] opened
  | typed {lines : List String} {s : Session} (h : Edits opened lines s)
      (hopen : s.inEditor = true) (line : String) (now : Timestamp) :
      Edits opened (lines ++ [line]) (s.submit line now).2

/-- What the lines typed so far have led to, in the editor of the file at `path` that was opened
with the lines `start`. -/
structure Edited (opened : Session) (path : String) (start lines : List String) (s : Session) :
    Prop where
  /-- While the editor is open, its buffer is what the lines make of it, and it is marked if
  something in it is not written. -/
  editor : ∀ e, s.editor? = some e →
    e.path = path ∧ e.lines = bufferAfter start lines ∧ (e.modified = true ↔ Unsaved start lines)
  untouched : (∀ line ∈ lines, ¬ Writes line) → s.tree = opened.tree
  /-- The file holds the buffer as it was at the last write. -/
  stored : ∀ before line after, lines = before ++ line :: after → Writes line →
    (∀ later ∈ after, ¬ Writes later) →
      s.tree.fileContent? path = some (Text.unlines (bufferAfter start before))
  others : ∀ other, Path.normalize other ≠ path →
    s.tree.fileContent? other = opened.tree.fileContent? other
  cwd : s.cwd = opened.cwd

/-- What one more line leads to when the editor of the file at `path` is open with a buffer. -/
structure Answers (s : Session) (path : String) (buffer : List String) (unsaved : Prop)
    (line : String) (events : List CommandEvent) (next : Session) : Prop where
  untouched : ¬ Writes line → next = { s with editor? := next.editor? }
  /-- The write succeeds and is reported. The file holds the buffer, and no other file changes. -/
  write : Writes line → events = [.saved path s.cwd] ∧
    next.tree.fileContent? path = some (Text.unlines buffer) ∧
    ∀ other, Path.normalize other ≠ path →
      next.tree.fileContent? other = s.tree.fileContent? other
  writeStays : Text.trim line ∈ [":w", "^O"] → next.editor? = some ⟨path, buffer, false⟩
  writeCloses : Text.trim line ∈ [":wq", ":x"] → next.editor? = none
  quit : Text.trim line ∈ [":q", "^X"] →
    (next.editor? = none ↔ ¬ unsaved) ∧ (unsaved → next = s)
  discard : Text.trim line = ":q!" → next = { s with editor? := none }

theorem Sound.answers (hs : s.Sound) {e : Editor} (heditor : s.editor? = some e) (line : String)
    (now : Timestamp) :
    s.Answers e.path e.lines (e.modified = true) line (s.submit line now).1.events
      (s.submit line now).2 := by
  have hsame : s = { s with editor? := some e } := by rw [← heditor]
  have hnext := hs.editor_submit heditor line now
  have hparse := EditorInput.parse_eq_iff line
  have hwrites := EditorInput.isWrite_parse_iff line
  constructor
  case untouched =>
    intro hline
    rw [hnext]
    exact hs.submit_unwritten heditor hline now
  case write =>
    intro hline
    obtain ⟨tree, hchange, hcontent, hevents, hstep⟩ := hs.submit_written heditor hline now
    rw [hstep]
    exact ⟨hevents, hcontent, fun other hother => hchange.fileContent?_elsewhere hother⟩
  case writeStays =>
    intro hline
    rw [hnext, (hparse .write (by decide)).mpr hline]
    rfl
  case writeCloses =>
    intro hline
    rw [hnext, (hparse .writeQuit (by decide)).mpr hline]
    rfl
  case quit =>
    intro hline
    have hinput := (hparse .quit (by decide)).mpr hline
    rw [hinput] at hnext hwrites
    have hstep := hs.submit_unwritten heditor (fun hwrite => by cases hwrites.mpr hwrite) now
    rw [hinput, Editor.next?] at hstep
    rw [Editor.next?] at hnext
    by_cases hmodified : e.modified = true
    · rw [if_pos hmodified] at hnext hstep
      refine ⟨?_, fun _ => hstep.trans hsame.symm⟩
      rw [hnext]
      simp [hmodified]
    · rw [if_neg hmodified] at hnext
      exact ⟨iff_of_true hnext hmodified, fun hunsaved => absurd hunsaved hmodified⟩
  case discard =>
    intro hline
    have hinput := (hparse .forceQuit (by decide)).mpr (List.mem_singleton.mpr hline)
    rw [hinput] at hwrites
    have hstep := hs.submit_unwritten heditor (fun hwrite => by cases hwrites.mpr hwrite) now
    rwa [hinput] at hstep

variable {opened : Session} {path : String} {start lines : List String}

theorem edited_opened (heditor : opened.editor? = some ⟨path, start, false⟩) :
    Edited opened path start [] opened := by
  constructor
  case editor =>
    intro e he
    obtain rfl : Editor.mk path start false = e := Option.some.inj (heditor.symm.trans he)
    exact ⟨rfl, rfl, by simp [Editor.not_unsaved_nil]⟩
  case untouched => exact fun _ => rfl
  case stored =>
    intro before line after hsplit
    simp at hsplit
  case others => exact fun _ _ => rfl
  case cwd => rfl

/-- The answer to a line, told from the lines before it. -/
theorem Edited.answers (h : Edited opened path start lines s) (hs : s.Sound)
    (hopen : s.inEditor = true) (line : String) (now : Timestamp) :
    s.Answers path (bufferAfter start lines) (Unsaved start lines) line
      (s.submit line now).1.events (s.submit line now).2 := by
  obtain ⟨e, heditor⟩ := Option.isSome_iff_exists.mp hopen
  obtain ⟨hpath, hbuffer, hmark⟩ := h.editor e heditor
  rw [← hpath, ← hbuffer, ← hmark]
  exact hs.answers heditor line now

/-- What is told of the lines so far goes on to be true with one more. -/
theorem Edited.typed (h : Edited opened path start lines s) (hs : s.Sound)
    (hopen : s.inEditor = true) (line : String) (now : Timestamp) :
    Edited opened path start (lines ++ [line]) (s.submit line now).2 := by
  have hanswers := h.answers hs hopen line now
  have htouches := (hs.submitted line now).touches
  obtain ⟨e, heditor⟩ := Option.isSome_iff_exists.mp hopen
  have hnext := hs.editor_submit heditor line now
  generalize (s.submit line now).1.events = events at hanswers
  generalize (s.submit line now).2 = next at hanswers htouches hnext ⊢
  constructor
  case editor =>
    intro e' he'
    obtain ⟨hpath, hbuffer, hmark⟩ := h.editor e heditor
    obtain ⟨hpath', hbuffer', hmark'⟩ := Editor.next?_parse (hnext.symm.trans he')
    refine ⟨hpath'.trans hpath, ?_, ?_⟩
    · rw [Editor.bufferAfter_append, hbuffer', hbuffer]
    · rw [Editor.unsaved_append, hmark', hbuffer, hmark]
  case untouched =>
    intro hunwritten
    rw [List.forall_mem_append, List.forall_mem_singleton] at hunwritten
    rw [hanswers.untouched hunwritten.2]
    exact h.untouched hunwritten.1
  case stored =>
    intro before written after hsplit hwritten hafter
    rcases Editor.cases_of_split hsplit with ⟨rfl, rfl, -⟩ | ⟨init, rfl, rfl⟩
    · exact (hanswers.write hwritten).2.1
    · rw [List.forall_mem_append, List.forall_mem_singleton] at hafter
      rw [hanswers.untouched hafter.2]
      exact h.stored before written init rfl hwritten hafter.1
  case others =>
    intro other hother
    by_cases hline : Writes line
    · rw [(hanswers.write hline).2.2 other hother, h.others other hother]
    · rw [hanswers.untouched hline]
      exact h.others other hother
  case cwd =>
    by_contra hne
    -- only `cd` moves, and no command sees a line while the editor is open
    have hcommands := (htouches.cwd fun hsame => hne (hsame.trans h.cwd)).1
    rw [(takesCommands_iff.mp hcommands).2] at heditor
    cases heditor

/-- By induction on the lines: as long as the editor is open, the next line is an input for it. -/
theorem Edits.edited (h : Edits opened lines s) (hs : opened.Sound)
    (heditor : opened.editor? = some ⟨path, start, false⟩) :
    s.Sound ∧ Edited opened path start lines s := by
  induction h with
  | opened => exact ⟨hs, edited_opened heditor⟩
  | typed _ hopen line now ih => exact ⟨ih.1.submit line now, ih.2.typed ih.1 hopen line now⟩

/-- Editing from its first line to its last. Whatever was done before, the editor opens with the
lines of the file that the operand leads to. From then on buffer and file are what the typed lines
make of them, and no other file changes. -/
theorem editing_follows_lines {lesson : Lesson} {begun : Session} {now₀ : Timestamp}
    (hbegun : ofLesson lesson now₀ = .ok begun) (earlier : List Action)
    (hs : earlier.foldl act begun = s) (hcommands : s.takesCommands = true) {word x : String}
    {more : List String} (hword : word.toLower = "edit" ∨ word.toLower = "nano")
    (hparse : ParsedLine.parse (Text.trim line) = .ok { stages := [word :: x :: more] })
    (hpath : Path.resolve s.cwd x = path) (hstart : linesOf s.tree path = start)
    (hopened : (s.submit line now).2 = opened) (hopen : opened.inEditor = true) :
    opened.editor? = some ⟨path, start, false⟩ ∧ opened.tree = s.tree ∧
      ∀ lines s', Edits opened lines s' → Edited opened path start lines s' ∧
        (s'.inEditor = true → ∀ line now,
          s'.Answers path (bufferAfter start lines) (Unsaved start lines) line
            (s'.submit line now).1.events (s'.submit line now).2) := by
  have hsound : s.Sound := hs ▸ (sound_ofLesson hbegun).acts earlier
  have hsoundOpened : opened.Sound := hopened ▸ hsound.submit line now
  rw [← hopened] at hopen
  obtain ⟨heditor, htree, -⟩ := opened_by_edit hcommands hword hparse hopen
  rw [hopened, hpath, hstart] at heditor
  rw [hopened] at htree
  refine ⟨heditor, htree, fun lines s' hedits => ?_⟩
  obtain ⟨hsound', hedited⟩ := hedits.edited hsoundOpened heditor
  exact ⟨hedited, fun hopen' => hedited.answers hsound' hopen'⟩

theorem editing_follows_lines_of_notes :
    ∃ begun opened s',
      ofLesson { Lesson.blank with tree := [.file "notes" "milk"] } ⟨0⟩ = .ok begun ∧
      (([Action.submit "pwd" ⟨1⟩].foldl act begun).submit "edit notes" ⟨2⟩).2 = opened ∧
      Edits opened [" eggs ", ":w", ":d"] s' ∧
      s'.tree.fileContent? "/home/quest/notes" = some "milk\n eggs " ∧
      (s'.submit ":q" ⟨6⟩).2 = s' := by
  have hrun : ((ofLesson { Lesson.blank with tree := [.file "notes" "milk"] } ⟨0⟩).toOption.map
      fun begun =>
        let s := [Action.submit "pwd" ⟨1⟩].foldl act begun
        let opened := (s.submit "edit notes" ⟨2⟩).2
        let first := (opened.submit " eggs " ⟨3⟩).2
        let second := (first.submit ":w" ⟨4⟩).2
        let third := (second.submit ":d" ⟨5⟩).2
        (s.cwd, linesOf s.tree "/home/quest/notes",
          [s.takesCommands, opened.inEditor, first.inEditor, second.inEditor, third.inEditor])) =
      some ("/home/quest", ["milk"], [true, true, true, true, true]) := by
    decide +kernel
  obtain ⟨begun, hbegun, hseen⟩ := exists_ofLesson hrun
  simp only [Prod.mk.injEq, List.cons.injEq, and_true] at hseen
  obtain ⟨hcwd, hstart, hcommands, hopen, hfirst, hsecond, hthird⟩ := hseen
  have hpath : Path.resolve ([Action.submit "pwd" ⟨1⟩].foldl act begun).cwd "notes" =
      "/home/quest/notes" := by
    rw [hcwd]
    decide
  have hparse : ParsedLine.parse (Text.trim "edit notes") =
      .ok { stages := [["edit", "notes"]] } := by
    decide +kernel
  have hfollows := (editing_follows_lines hbegun [.submit "pwd" ⟨1⟩] rfl hcommands
    (Or.inl (by decide +kernel)) hparse hpath hstart rfl hopen).2.2
  have hedits : Edits _ [" eggs ", ":w", ":d"] _ :=
    ((Edits.opened.typed hopen " eggs " ⟨3⟩).typed hfirst ":w" ⟨4⟩).typed hsecond ":d" ⟨5⟩
  obtain ⟨hedited, hanswers⟩ := hfollows _ _ hedits
  refine ⟨begun, _, _, hbegun, rfl, hedits, ?_, ?_⟩
  · exact hedited.stored [" eggs "] ":w" [":d"] rfl (by decide) (by decide)
  · exact ((hanswers hthird ":q" ⟨6⟩).quit (by decide)).2
      ⟨[" eggs ", ":w"], ":d", [], rfl, Or.inr ⟨by decide, by decide⟩, by simp⟩

end Session

end ShellTutor
