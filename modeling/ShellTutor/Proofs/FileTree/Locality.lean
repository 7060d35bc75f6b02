import ShellTutor.Proofs.FileTree.Change

/-!
# Where a write is seen

Writing a file is seen at the file and nowhere else, apart from the directory that lists a file for
the first time. This is said through look-ups, for trees of any shape.
-/

namespace ShellTutor.FileTree

open ShellTutor.Path (IsNormal join normalize lastName)

variable {t t' : FileTree}

@[simp] theorem owner_put (t : FileTree) (key : String) (node : Node) :
    (t.put key node).owner = t.owner := rfl

@[simp] theorem group_put (t : FileTree) (key : String) (node : Node) :
    (t.put key node).group = t.group := rfl

@[simp] theorem owner_insertChild (t : FileTree) (dir name : String) (node : Node)
    (now : Timestamp) : (t.insertChild dir name node now).owner = t.owner := by
  rw [insertChild]
  split <;> rfl

@[simp] theorem group_insertChild (t : FileTree) (dir name : String) (node : Node)
    (now : Timestamp) : (t.insertChild dir name node now).group = t.group := by
  rw [insertChild]
  split <;> rfl

/-- One node became another, and every other node is what it was. -/
structure NodeChanged (t : FileTree) (path : String) (old new : Node) (t' : FileTree) : Prop where
  before : t.node? path = some old
  after : t'.node? path = some new
  elsewhere : ∀ key, key ≠ path → t'.node? key = t.node? key

/-- A node is new at `path`, its directory lists it last and has a new time, and every other node is
what it was. -/
structure NodeAdded (t : FileTree) (path : String) (node : Node) (now : Timestamp)
    (t' : FileTree) : Prop where
  before : t.node? path = none
  after : t'.node? path = some node
  parent : ∃ parent created names, t.node? (Path.parent path) = some parent ∧
    parent.body = .directory created names ∧ t'.node? (Path.parent path) = some
      { parent with modified := now, body := .directory created (names ++ [lastName path]) }
  elsewhere : ∀ key, key ≠ path → key ≠ Path.parent path → t'.node? key = t.node? key

theorem nodeChanged_put {path : String} {old : Node} (hold : t.node? path = some old)
    (new : Node) : t.NodeChanged path old new (t.put path new) where
  before := hold
  after := by rw [node?_put, if_pos rfl]
  elsewhere := by
    intro key hkey
    rw [node?_put, if_neg hkey]

theorem nodeAdded_insertChild {dir name : String} (hdir : IsNormal dir)
    (hname : Path.IsComponent name) (hparent : t.HasDirectory dir)
    (hnew : t.node? (join dir name) = none) (node : Node) (now : Timestamp) :
    t.NodeAdded (join dir name) node now (t.insertChild dir name node now) := by
  have hnode? := node?_insertChild (t := t) hdir hname node now
  have hne : dir ≠ join dir name := (Path.join_ne_dir hdir hname).symm
  refine ⟨hnew, by rw [hnode?, if_pos rfl], ?_, ?_⟩
  · rw [Path.parent_join hdir hname, Path.lastName_join hdir hname]
    obtain ⟨parent, hfound, hisdir⟩ := hparent
    cases hbody : parent.body with
    | file content => simp [Node.isDirectory, hbody] at hisdir
    | directory created names =>
      refine ⟨parent, created, names, hfound, hbody, ?_⟩
      rw [hnode?, if_neg hne, if_pos rfl, hfound, Option.map_some, Node.addChild, hbody]
  · intro key hkey hkey'
    rw [Path.parent_join hdir hname] at hkey'
    rw [hnode?, if_neg hkey, if_neg hkey']

/-- A write at `path` is all that happened to a tree: a file that is there has other content and a
new time, or a file with the default permissions is new. -/
structure WrittenAt (t : FileTree) (path : String) (now : Timestamp) (t' : FileTree) : Prop where
  owner : t'.owner = t.owner
  group : t'.group = t.group
  file : (∃ node old new, node.body = .file old ∧
      t.NodeChanged path node { node with modified := now, body := .file new } t') ∨
    ∃ content, t.NodeAdded path ⟨.fileDefault, t.owner, t.group, now, .file content⟩ now t'

/-- A write leaves the contents of all other files as they are. -/
theorem WrittenAt.fileContent?_elsewhere {path : String} {now : Timestamp}
    (h : t.WrittenAt path now t') {other : String} (hother : normalize other ≠ path) :
    t'.fileContent? other = t.fileContent? other := by
  rw [fileContent?, fileContent?, get?, get?]
  generalize normalize other = key at hother ⊢
  rcases h.file with ⟨node, old, new, -, hchanged⟩ | ⟨content, hadded⟩
  · rw [hchanged.elsewhere key hother]
  · by_cases hparent : key = Path.parent path
    · obtain ⟨dir, created, names, hbefore, hbody, hafter⟩ := hadded.parent
      rw [hparent, hbefore, hafter]
      simp [Node.content?, hbody]
    · rw [hadded.elsewhere key hother hparent]

theorem ne_root_of_isFileName {path : String} (h : isFileName (lastName path) = true) :
    path ≠ "/" := by
  rintro rfl
  exact (isComponent_of_isFileName h).1 rfl

/-- A file that is written where a normal path says is all that changes. -/
theorem writtenAt_of_writeFile {path content : String} {mode : WriteMode} {now : Timestamp}
    (hpath : IsNormal path)
    (h : t.writeFile (Path.parent path) (lastName path) content mode now = .ok t') :
    t.WrittenAt path now t' := by
  obtain ⟨⟨hname, hparent⟩, hwrite⟩ := writeFile_eq_ok.mp h
  have hdir : normalize (Path.parent path) = Path.parent path := hpath.parent
  have hjoin := Path.join_parent_lastName hpath (ne_root_of_isFileName hname)
  rw [hdir, hjoin] at hwrite
  rw [hdir] at hparent
  rcases hwrite with ⟨hnew, rfl⟩ | ⟨node, old, hold, hbody, rfl⟩
  · have hadded := nodeAdded_insertChild hpath.parent (isComponent_of_isFileName hname) hparent
      (by rw [hjoin, hnew]) (t.newFile content now) now
    rw [hjoin] at hadded
    exact ⟨by simp, by simp, Or.inr ⟨content, hadded⟩⟩
  · exact ⟨rfl, rfl, Or.inl ⟨node, old, _, hbody, nodeChanged_put hold _⟩⟩

/-- Under the name of a file, a text can be written unless a directory has the name. -/
theorem exists_writeFile_iff {dir name content : String} {mode : WriteMode} {now : Timestamp}
    (hname : isFileName name = true) (hdir : t.HasDirectory (normalize dir)) :
    (∃ t', t.writeFile dir name content mode now = .ok t') ↔
      ¬ t.HasDirectory (join (normalize dir) name) := by
  simp only [writeFile_eq_ok, hname, hdir, true_and]
  generalize join (normalize dir) name = key
  cases hnode : t.node? key with
  | none => simp [HasDirectory, hnode]
  | some node =>
    cases hbody : node.body with
    | file old => simp [HasDirectory, hnode, Node.isDirectory, hbody]
    | directory created names => simp [HasDirectory, hnode, Node.isDirectory, hbody]

/-- Reading from a directory is reading what the resolved path names. -/
theorem readFrom_eq (t : FileTree) (cwd operand : String) :
    t.readFrom cwd operand =
      t.read (Path.parent (Path.resolve cwd operand)) (Path.lastName (Path.resolve cwd operand)) := by
  rw [readFrom, Path.splitParent_eq]

/-- Reading what an operand leads to is looking it up. -/
theorem readFrom_of_file {cwd operand content : String} {node : Node}
    (hnode : t.get? (Path.resolve cwd operand) = some node) (hbody : node.body = .file content) :
    t.readFrom cwd operand =
      if node.permissions.owner.read then .ok content
      else .error (.permissionDenied (lastName (Path.resolve cwd operand))) := by
  have hnormal : normalize (Path.resolve cwd operand) = Path.resolve cwd operand :=
    Path.isNormal_resolve cwd operand
  rw [get?, hnormal] at hnode
  rw [readFrom_eq, read, Path.join_normalize_parent hnormal]
  simp only [hnode, hbody]

/-- What an operand leads to is read if it is a file that its owner may read. -/
theorem readFrom_eq_ok {cwd operand content : String} :
    t.readFrom cwd operand = .ok content ↔
      ∃ node, t.get? (Path.resolve cwd operand) = some node ∧ node.body = .file content ∧
        node.permissions.owner.read = true := by
  have hnormal : normalize (Path.resolve cwd operand) = Path.resolve cwd operand :=
    Path.isNormal_resolve cwd operand
  rw [readFrom_eq, read_eq_ok, Path.join_normalize_parent hnormal, get?, hnormal]

/-- What was read is what the file holds. -/
theorem fileContent?_of_read {path content : String} (hpath : IsNormal path)
    (h : t.read (Path.parent path) (lastName path) = .ok content) :
    t.fileContent? path = some content := by
  obtain ⟨node, hnode, hbody, -⟩ := read_eq_ok.mp h
  have hkey : normalize path = path := hpath
  rw [Path.join_normalize_parent hpath] at hnode
  rw [fileContent?, get?, hkey]
  exact Option.bind_eq_some_iff.mpr ⟨node, hnode, by rw [Node.content?, hbody]⟩

/-- A file that is overwritten holds what was written. -/
theorem fileContent?_of_overwrite {path content : String} {now : Timestamp}
    (hpath : IsNormal path)
    (h : t.writeFile (Path.parent path) (Path.lastName path) content .overwrite now = .ok t') :
    t'.fileContent? path = some content := by
  obtain ⟨⟨hname, -⟩, hwrite⟩ := writeFile_eq_ok.mp h
  have hdir : Path.normalize (Path.parent path) = Path.parent path := hpath.parent
  have hkey : Path.normalize path = path := hpath
  have hjoin := Path.join_parent_lastName hpath (ne_root_of_isFileName hname)
  rw [hdir, hjoin] at hwrite
  rw [fileContent?, get?, hkey]
  rcases hwrite with ⟨-, rfl⟩ | ⟨node, old, -, -, rfl⟩
  · rw [node?_insertChild hpath.parent (isComponent_of_isFileName hname), hjoin, if_pos rfl]
    rfl
  · rw [node?_put, if_pos rfl]
    rfl

end ShellTutor.FileTree
