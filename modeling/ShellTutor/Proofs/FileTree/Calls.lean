import ShellTutor.Proofs.FileTree.Locality
import ShellTutor.Proofs.FileTree.Reachable

/-!
# What a call touches

A call that fails leaves no trace, and one that succeeds touches the node that it names. If that
node is new, its directory lists it behind its other children and has a new time; if it was there
before, it stays the kind of node that it was. It does not matter how the path of the directory is
spelled, since all that a call looks up or changes goes by the normal form. What was written can be
read back where the owner may read.
-/

namespace ShellTutor

/-- The text of a file after a write, which may have had a text before. -/
def WriteMode.textAfter (mode : WriteMode) (old? : Option String) (new : String) : String :=
  match mode, old? with
  | .append, some old => old ++ "\n" ++ new
  | _, _ => new

namespace FileTree

open ShellTutor.Path (join normalize lastName)

variable {t t' : FileTree}

namespace Call

def dir : Call → String
  | .createDirectory dir _ _ | .createFile dir _ _ _ | .writeFile dir _ _ _ _
  | .changePermissions dir _ _ => dir

def name : Call → String
  | .createDirectory _ name _ | .createFile _ name _ _ | .writeFile _ name _ _ _
  | .changePermissions _ name _ => name

/-- The key of the node that a call names. -/
def key (call : Call) : String :=
  join (normalize call.dir) call.name

/-- The node that a call makes where there is none, and its time. A mode is not given to what is not
there. -/
def made? (t : FileTree) : Call → Option (Node × Timestamp)
  | .createDirectory _ _ now =>
    some (⟨.directoryDefault, t.owner, t.group, now, .directory now []⟩, now)
  | .createFile _ _ content now | .writeFile _ _ content _ now =>
    some (⟨.fileDefault, t.owner, t.group, now, .file content⟩, now)
  | .changePermissions _ _ _ => none

/-- What a call makes of a node that is there. Only a file is written, and no directory is made
twice. -/
inductive Updates : Call → Node → Node → Prop
  | touch (dir name content : String) (now : Timestamp) (old : Node) :
      Updates (.createFile dir name content now) old { old with modified := now }
  | write (dir name content : String) (mode : WriteMode) (now : Timestamp) {old : Node}
      {text : String} (htext : old.body = .file text) :
      Updates (.writeFile dir name content mode now) old
        { old with modified := now, body := .file (mode.contentAfter text content) }
  | chmod (dir name : String) (spec : ModeSpec) (old : Node) :
      Updates (.changePermissions dir name spec) old
        { old with permissions := old.permissions.apply spec }

/-- Whatever a call makes of a node, its owner, its kind and its children stay. -/
theorem Updates.keeps {call : Call} {old new : Node} (h : call.Updates old new) :
    old.Keeps new := by
  cases h with
  | touch => exact ⟨rfl, rfl, rfl⟩
  | write _ _ _ _ _ htext => exact ⟨rfl, rfl, by simp [Node.listing?, htext]⟩
  | chmod => exact ⟨rfl, rfl, rfl⟩

/-- The one node that a call touches. -/
inductive Effect (t : FileTree) (call : Call) (t' : FileTree) : Prop
  /-- A new node, which its directory lists under its name. -/
  | made {node : Node} {now : Timestamp} (hmade : call.made? t = some (node, now))
      (hparent : Path.parent call.key = normalize call.dir) (hlast : lastName call.key = call.name)
      (hadded : t.NodeAdded call.key node now t') (hkeys : t'.keys = t.keys ++ [call.key])
  /-- A node that was there, with the owner, the kind and the children that it had. -/
  | updated {old new : Node} (hupdates : call.Updates old new) (hkeeps : old.Keeps new)
      (hchanged : t.NodeChanged call.key old new t') (hkeys : t'.keys = t.keys)

variable {call : Call}

/-- Where a call may make a node, it is made. -/
theorem effect_insertChild {node : Node} {now : Timestamp}
    (hmade : call.made? t = some (node, now))
    (hplace : isFileName call.name = true ∧ t.HasDirectory (normalize call.dir))
    (hnew : t.node? call.key = none) :
    Effect t call (t.insertChild (normalize call.dir) call.name node now) := by
  have hdir := Path.isNormal_normalize call.dir
  have hname := isComponent_of_isFileName hplace.1
  exact .made hmade (Path.parent_join hdir hname) (Path.lastName_join hdir hname)
    (nodeAdded_insertChild hdir hname hplace.2 hnew node now)
    (keys_insertChild hdir hname hplace.2 hnew node now)

theorem effect_put {old new : Node} (hold : t.node? call.key = some old)
    (hupdates : call.Updates old new) : Effect t call (t.put call.key new) :=
  .updated hupdates hupdates.keeps (nodeChanged_put hold new)
    (keys_put_of_mem (mem_keys_of_node? hold) new)

/-- Every call that succeeds has its effect. -/
theorem effect_of_result (h : call.result t = .ok t') : Effect t call t' := by
  cases call with
  | createDirectory dir name now =>
    obtain ⟨hplace, hnew, rfl⟩ := createDirectory_eq_ok.mp h
    exact effect_insertChild rfl hplace hnew
  | createFile dir name content now =>
    obtain ⟨hplace, ⟨hnew, rfl⟩ | ⟨old, hold, rfl⟩⟩ := createFile_eq_ok.mp h
    · exact effect_insertChild rfl hplace hnew
    · exact effect_put hold (.touch dir name content now old)
  | writeFile dir name content mode now =>
    obtain ⟨hplace, ⟨hnew, rfl⟩ | ⟨old, text, hold, htext, rfl⟩⟩ := writeFile_eq_ok.mp h
    · exact effect_insertChild rfl hplace hnew
    · exact effect_put hold (.write dir name content mode now htext)
  | changePermissions dir name spec =>
    obtain ⟨⟨permissions, after⟩, hcall, rfl⟩ := Outcome.map_eq_ok.mp h
    obtain ⟨old, hold, rfl, rfl⟩ := changePermissions_eq_ok.mp hcall
    exact effect_put hold (.chmod dir name spec old)

end Call

/-- New nodes go on to have the owner and the group that they had. -/
theorem Change.owner_group (h : t.Change t') : t'.owner = t.owner ∧ t'.group = t.group := by
  cases h with
  | add => exact ⟨owner_insertChild .., group_insertChild ..⟩
  | update => exact ⟨rfl, rfl⟩

/-- What a call that succeeds has done. -/
structure Touched (t : FileTree) (call : Call) (t' : FileTree) : Prop where
  owner : t'.owner = t.owner
  group : t'.group = t.group
  effect : call.Effect t t'
  /-- A file that was written and that its owner may read has its new text, and one that was
  appended to has it behind the old and one line feed. -/
  readBack : ∀ dir name content mode now node, call = .writeFile dir name content mode now →
    t'.node? call.key = some node → node.permissions.owner.read = true →
    t'.read dir name = .ok (mode.textAfter ((t.node? call.key).bind Node.content?) content)

/-- A file that was written holds the text that its mode asks for. -/
theorem read_of_writeFile {dir name content : String} {mode : WriteMode} {now : Timestamp}
    {node : Node} (h : t.writeFile dir name content mode now = .ok t')
    (hnode : t'.node? (join (normalize dir) name) = some node)
    (hread : node.permissions.owner.read = true) :
    t'.read dir name = .ok (mode.textAfter
      ((t.node? (join (normalize dir) name)).bind Node.content?) content) := by
  refine read_eq_ok.mpr ⟨node, hnode, ?_, hread⟩
  obtain ⟨⟨hname, -⟩, ⟨hnew, rfl⟩ | ⟨old, text, hold, htext, rfl⟩⟩ := writeFile_eq_ok.mp h
  · rw [node?_insertChild (Path.isNormal_normalize dir) (isComponent_of_isFileName hname),
      if_pos rfl, Option.some.injEq] at hnode
    rw [← hnode, hnew]
    cases mode <;> rfl
  · rw [node?_put, if_pos rfl, Option.some.injEq] at hnode
    have hcontent : old.content? = some text := by rw [Node.content?, htext]
    rw [← hnode, hold, Option.bind_some, hcontent]
    cases mode <;> rfl

theorem touched_of_result {call : Call} (h : call.result t = .ok t') : t.Touched call t' := by
  obtain ⟨howner, hgroup⟩ := (change_of_call h).owner_group
  refine ⟨howner, hgroup, Call.effect_of_result h, ?_⟩
  rintro dir name content mode now node rfl hnode hread
  exact read_of_writeFile h hnode hread

/-- A call does nothing at all, or just what it names. -/
theorem run_touches (t : FileTree) (call : Call) :
    (∀ e, call.result t = .error e → call.run t = t) ∧
      ∀ t', call.result t = .ok t' → call.run t = t' ∧ t.Touched call t' := by
  constructor
  · intro e h
    rw [Call.run, h]
  · intro t' h
    exact ⟨by rw [Call.run, h], touched_of_result h⟩

/-- Two spellings of one directory: what the first call writes there, the second appends to. -/
theorem run_touches_of_appended_line :
    ∃ t t' : FileTree, t.Reachable ∧
      Call.result t (.writeFile "/a//" "f" "y" .append ⟨3⟩) = .ok t' ∧
      t.Touched (.writeFile "/a//" "f" "y" .append ⟨3⟩) t' ∧ t'.read "/a//" "f" = .ok "x\ny" ∧
      Call.run t (.createDirectory "//a" "f" ⟨3⟩) = t := by
  generalize htree : Call.run (Call.run (.empty "quest" "quest" ⟨0⟩) (.createDirectory "" "a" ⟨1⟩))
    (.writeFile "//a/" "f" "x" .overwrite ⟨2⟩) = t
  generalize hcall : Call.writeFile "/a//" "f" "y" .append ⟨3⟩ = call
  have hreachable : t.Reachable := htree ▸ .call _ (.call _ (.empty "quest" "quest" ⟨0⟩))
  have hresult : ((call.result t).toOption.bind fun t' => t'.node? call.key).map
      (·.permissions.owner.read) = some true ∧
      (t.node? call.key).bind Node.content? = some "x" ∧
      (Call.result t (.createDirectory "//a" "f" ⟨3⟩)).toOption = none := by
    subst htree hcall
    decide +kernel
  obtain ⟨hread, hold, hrefused⟩ := hresult
  cases hmade : call.result t with
  | error e =>
    rw [hmade] at hread
    cases hread
  | ok t' =>
    rw [hmade] at hread
    obtain ⟨node, hnode, hreadable⟩ := Option.map_eq_some_iff.mp hread
    obtain ⟨-, htouched⟩ := (run_touches t call).2 t' hmade
    have hback := htouched.readBack _ _ _ _ _ node hcall.symm hnode hreadable
    rw [hold] at hback
    refine ⟨t, t', hreachable, hmade, htouched, hback, ?_⟩
    cases hcreate : Call.result t (.createDirectory "//a" "f" ⟨3⟩) with
    | error e => exact (run_touches t _).1 e hcreate
    | ok after =>
      rw [hcreate] at hrefused
      cases hrefused

/-- A node that no call names is left alone by all of them, unless it is the directory of one that
is named. -/
theorem node?_runs (t : FileTree) {calls : List Call} {key : String}
    (h : ∀ call ∈ calls, key ≠ call.key ∧ key ≠ Path.parent call.key) :
    (calls.foldl Call.run t).node? key = t.node? key := by
  induction calls generalizing t with
  | nil => rfl
  | cons call rest ih =>
    obtain ⟨hkey, hparent⟩ := h call (List.mem_cons_self ..)
    have hfirst : (call.run t).node? key = t.node? key := by
      rw [Call.run]
      cases hresult : call.result t with
      | error e => rfl
      | ok after =>
        cases Call.effect_of_result hresult with
        | made _ _ _ hadded _ => exact hadded.elsewhere key hkey hparent
        | updated _ _ hchanged _ => exact hchanged.elsewhere key hkey
    rw [List.foldl_cons, ih _ fun other hother => h other (List.mem_cons_of_mem _ hother), hfirst]

end FileTree

end ShellTutor
