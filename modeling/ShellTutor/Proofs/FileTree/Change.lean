import ShellTutor.FileTree.Basic
import ShellTutor.Proofs.Outcome
import ShellTutor.Proofs.Path.Components

/-!
# What a change does to a tree

Each operation on a tree, when it succeeds, either lists one new node in a directory or changes one
node that is there and leaves its owner, its kind and its children alone. `Change` says just that,
with all that the operation has checked before. An operation is opened up once, here; what holds
of every tree is then proved by the two cases of `Change`.
-/

namespace ShellTutor

open ShellTutor.Path (IsNormal IsComponent join normalize)

/-- The children of a directory. A file has none to speak of. -/
def Node.children? (n : Node) : Option (List String) :=
  match n.body with
  | .file _ => none
  | .directory _ children => some children

/-- When a directory was created, and its children. -/
def Node.listing? (n : Node) : Option (Timestamp × List String) :=
  match n.body with
  | .file _ => none
  | .directory created children => some (created, children)

/-- The part of a node that stays until it is given a child. -/
structure Node.Keeps (old new : Node) : Prop where
  owner : new.owner = old.owner
  group : new.group = old.group
  listing : new.listing? = old.listing?

theorem Node.children?_eq (n : Node) : n.children? = n.listing?.map Prod.snd := by
  rcases n with ⟨_, _, _, _, _ | _⟩ <;> rfl

theorem Node.Keeps.children {old new : Node} (h : old.Keeps new) :
    new.children? = old.children? := by
  rw [Node.children?_eq, h.listing, Node.children?_eq]

theorem Node.isDirectory_eq_isSome (n : Node) : n.isDirectory = n.children?.isSome := by
  rcases n with ⟨_, _, _, _, _ | _⟩ <;> rfl

theorem Node.Keeps.isDirectory {old new : Node} (h : old.Keeps new) :
    new.isDirectory = old.isDirectory := by
  rw [Node.isDirectory_eq_isSome, h.children, Node.isDirectory_eq_isSome]

theorem Node.children?_addChild (n : Node) (name : String) (now : Timestamp) :
    (n.addChild name now).children? = n.children?.map (· ++ [name]) := by
  rcases n with ⟨_, _, _, _, _ | _⟩ <;> rfl

theorem Node.isDirectory_addChild (n : Node) (name : String) (now : Timestamp) :
    (n.addChild name now).isDirectory = n.isDirectory := by
  rcases n with ⟨_, _, _, _, _ | _⟩ <;> rfl

theorem isComponent_of_isFileName {name : String} (h : isFileName name = true) :
    IsComponent name := by
  simp only [isFileName, Bool.and_eq_true, decide_eq_true_eq, Bool.not_eq_true'] at h
  exact ⟨h.1.1.1, by simpa using h.2⟩

namespace FileTree

variable (t : FileTree)

/-- The keys of all nodes, oldest first. -/
def keys : List String :=
  t.nodes.map Prod.fst

/-- Whether a key is that of a directory. -/
def HasDirectory (key : String) : Prop :=
  ∃ node, t.node? key = some node ∧ node.isDirectory = true

variable {t}

theorem node?_eq_none {key : String} : t.node? key = none ↔ key ∉ t.keys := by
  rw [node?, List.lookup_eq_none_iff, keys, List.mem_map]
  constructor
  · rintro h ⟨entry, hentry, rfl⟩
    simpa using h entry hentry
  · intro h entry hentry
    rw [bne_iff_ne]
    rintro rfl
    exact h ⟨entry, hentry, rfl⟩

theorem mem_keys_of_node? {key : String} {node : Node} (h : t.node? key = some node) :
    key ∈ t.keys := by
  refine Decidable.byContradiction fun hkey => ?_
  rw [node?_eq_none.mpr hkey] at h
  cases h

theorem HasDirectory.mem_keys {key : String} (h : t.HasDirectory key) : key ∈ t.keys := by
  obtain ⟨node, hnode, -⟩ := h
  exact mem_keys_of_node? hnode

theorem isDirectory_iff {path : String} (hpath : IsNormal path) :
    t.isDirectory path = true ↔ t.HasDirectory path := by
  have hkey : normalize path = path := hpath
  rw [isDirectory, get?, hkey, Option.any_eq_true]
  rfl

theorem keys_put_of_mem {key : String} (h : key ∈ t.keys) (node : Node) :
    (t.put key node).keys = t.keys :=
  (Dictionary.keys_put key node t.nodes).trans (if_pos h)

theorem keys_put_of_not_mem {key : String} (h : key ∉ t.keys) (node : Node) :
    (t.put key node).keys = t.keys ++ [key] :=
  (Dictionary.keys_put key node t.nodes).trans (if_neg h)

section InsertChild

variable {dir name : String} (hdir : IsNormal dir) (hname : IsComponent name)
include hdir hname

/-- The new node is found, the directory lists it, and no other node is touched. -/
theorem node?_insertChild (node : Node) (now : Timestamp) (other : String) :
    (t.insertChild dir name node now).node? other =
      if other = join dir name then some node
      else if other = dir then (t.node? dir).map (·.addChild name now)
      else t.node? other := by
  have hne : dir ≠ join dir name := (Path.join_ne_dir hdir hname).symm
  have hparent : (t.put (join dir name) node).node? dir = t.node? dir := by
    rw [node?_put, if_neg hne]
  simp only [insertChild, hparent]
  cases hold : t.node? dir with
  | none =>
    rw [node?_put]
    by_cases hother : other = dir
    · subst hother
      simp [hne, hold]
    · simp [hother]
  | some parent =>
    rw [node?_put, node?_put]
    by_cases hother : other = dir
    · subst hother
      simp [hne]
    · simp [hother]

theorem keys_insertChild (hparent : t.HasDirectory dir) (hnew : t.node? (join dir name) = none)
    (node : Node) (now : Timestamp) :
    (t.insertChild dir name node now).keys = t.keys ++ [join dir name] := by
  have hkeys := keys_put_of_not_mem (node?_eq_none.mp hnew) node
  obtain ⟨parent, hold, -⟩ := hparent
  have hold' : (t.put (join dir name) node).node? dir = some parent := by
    rw [node?_put, if_neg (Path.join_ne_dir hdir hname).symm, hold]
  simp only [insertChild, hold']
  rw [keys_put_of_mem (mem_keys_of_node? hold'), hkeys]

end InsertChild

/-- The tree after one node was added or changed. -/
inductive Change (t : FileTree) : FileTree → Prop
  /-- A file or an empty directory gets a name in a directory that is there. Unlike a directory, a
  file is never made under the name of a step in a path. -/
  | add {dir name : String} {node : Node} {now : Timestamp}
      (hdir : IsNormal dir) (hname : IsComponent name) (hparent : t.HasDirectory dir)
      (hnew : t.node? (join dir name) = none) (hempty : ∀ names ∈ node.children?, names = [])
      (hfile : node.isDirectory = false → isFileName name = true) :
      Change t (t.insertChild dir name node now)
  /-- A node that is there becomes another with the same owner, kind and children. -/
  | update {key : String} {old new : Node} (hold : t.node? key = some old)
      (hkeeps : old.Keeps new) : Change t (t.put key new)

theorem checkPlace_eq_ok {key name : String} :
    t.checkPlace key name = .ok () ↔ isFileName name = true ∧ t.HasDirectory key := by
  unfold checkPlace HasDirectory
  cases hname : isFileName name with
  | false => simp
  | true =>
    cases hnode : t.node? key with
    | none => simp
    | some node => cases hdir : node.isDirectory <;> simp [hdir]

variable {t' : FileTree} {dir name content : String} {now : Timestamp}

/-- Making a directory adds an empty one. -/
theorem createDirectory_eq_ok :
    t.createDirectory dir name now = .ok t' ↔
      (isFileName name = true ∧ t.HasDirectory (normalize dir)) ∧
        t.node? (join (normalize dir) name) = none ∧
        t' = t.insertChild (normalize dir) name (t.newDirectory now) now := by
  simp only [createDirectory, Outcome.check_eq_ok, checkPlace_eq_ok]
  cases hnode : t.node? (join (normalize dir) name) with
  | none => simp [eq_comm (a := t')]
  | some node => simp

/-- Making a file adds one, or sets the time of what has its name. -/
theorem createFile_eq_ok :
    t.createFile dir name content now = .ok t' ↔
      (isFileName name = true ∧ t.HasDirectory (normalize dir)) ∧
        (t.node? (join (normalize dir) name) = none ∧
            t' = t.insertChild (normalize dir) name (t.newFile content now) now ∨
          ∃ node, t.node? (join (normalize dir) name) = some node ∧
            t' = t.put (join (normalize dir) name) { node with modified := now }) := by
  simp only [createFile, Outcome.check_eq_ok, checkPlace_eq_ok]
  cases hnode : t.node? (join (normalize dir) name) with
  | none => simp [eq_comm (a := t')]
  | some node => simp [eq_comm (a := t')]

/-- Writing a file adds one, or sets the content and the time of the one that has its name. -/
theorem writeFile_eq_ok {mode : WriteMode} :
    t.writeFile dir name content mode now = .ok t' ↔
      (isFileName name = true ∧ t.HasDirectory (normalize dir)) ∧
        (t.node? (join (normalize dir) name) = none ∧
            t' = t.insertChild (normalize dir) name (t.newFile content now) now ∨
          ∃ node old, t.node? (join (normalize dir) name) = some node ∧ node.body = .file old ∧
            t' = t.put (join (normalize dir) name)
              { node with modified := now, body := .file (mode.contentAfter old content) }) := by
  simp only [writeFile, Outcome.check_eq_ok, checkPlace_eq_ok]
  cases hnode : t.node? (join (normalize dir) name) with
  | none => simp [eq_comm (a := t')]
  | some node => cases hbody : node.body <;> simp [hbody, eq_comm (a := t')]

theorem changePermissions_eq_ok {spec : ModeSpec} {permissions : Permissions} :
    t.changePermissions dir name spec = .ok (permissions, t') ↔
      ∃ node, t.node? (join (normalize dir) name) = some node ∧
        permissions = node.permissions.apply spec ∧
        t' = t.put (join (normalize dir) name) { node with permissions } := by
  simp only [changePermissions]
  cases hnode : t.node? (join (normalize dir) name) with
  | none => simp
  | some node =>
    simp only [Except.ok.injEq, Prod.mk.injEq, Option.some.injEq, exists_eq_left']
    constructor
    · rintro ⟨rfl, rfl⟩
      exact ⟨rfl, rfl⟩
    · rintro ⟨rfl, rfl⟩
      exact ⟨rfl, rfl⟩

/-- A file is read where its owner may read it. -/
theorem read_eq_ok :
    t.read dir name = .ok content ↔
      ∃ node, t.node? (Path.join (Path.normalize dir) name) = some node ∧
        node.body = .file content ∧ node.permissions.owner.read = true := by
  rw [read]
  cases hnode : t.node? (Path.join (Path.normalize dir) name) with
  | none => simp
  | some node =>
    cases hbody : node.body with
    | directory created children => simp [hbody]
    | file old =>
      cases hread : node.permissions.owner.read <;> simp [hbody, hread]

theorem change_of_createDirectory (h : t.createDirectory dir name now = .ok t') : t.Change t' := by
  obtain ⟨⟨hname, hparent⟩, hnew, rfl⟩ := createDirectory_eq_ok.mp h
  exact .add (Path.isNormal_normalize dir) (isComponent_of_isFileName hname) hparent hnew
    (by simp [newDirectory, Node.children?]) fun _ => hname

private theorem change_newFile
    (hplace : isFileName name = true ∧ t.HasDirectory (normalize dir))
    (hnew : t.node? (join (normalize dir) name) = none) :
    t.Change (t.insertChild (normalize dir) name (t.newFile content now) now) :=
  .add (Path.isNormal_normalize dir) (isComponent_of_isFileName hplace.1) hplace.2 hnew
    (by simp [newFile, Node.children?]) fun _ => hplace.1

theorem change_of_createFile (h : t.createFile dir name content now = .ok t') : t.Change t' := by
  obtain ⟨hplace, ⟨hnew, rfl⟩ | ⟨node, hold, rfl⟩⟩ := createFile_eq_ok.mp h
  · exact change_newFile hplace hnew
  · exact .update hold ⟨rfl, rfl, rfl⟩

theorem change_of_writeFile {mode : WriteMode}
    (h : t.writeFile dir name content mode now = .ok t') : t.Change t' := by
  obtain ⟨hplace, ⟨hnew, rfl⟩ | ⟨node, old, hold, hbody, rfl⟩⟩ := writeFile_eq_ok.mp h
  · exact change_newFile hplace hnew
  · exact .update hold ⟨rfl, rfl, by simp [Node.listing?, hbody]⟩

theorem change_of_changePermissions {spec : ModeSpec} {permissions : Permissions}
    (h : t.changePermissions dir name spec = .ok (permissions, t')) : t.Change t' := by
  obtain ⟨node, hold, rfl, rfl⟩ := changePermissions_eq_ok.mp h
  exact .update hold ⟨rfl, rfl, rfl⟩

end FileTree

end ShellTutor
