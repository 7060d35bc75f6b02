import Mathlib.Data.List.Forall2
import ShellTutor.Proofs.FileTree.Locality

/-!
# Trees that differ in hidden contents

Two trees are alike when some files hold other texts of the same length and nothing else differs.
Every operation on both gives the same answer and leaves trees that are alike, because it looks at
the kind, the permissions and the size of a node only; a read is the one that looks at a text, and
it fails on both when the owner may not read.
-/

namespace ShellTutor

open Outcome (Paired)

/-- Two nodes that differ at most in what their files hold, and not in its length. -/
structure Node.Twin (n n' : Node) : Prop where
  permissions : n'.permissions = n.permissions
  owner : n'.owner = n.owner
  group : n'.group = n.group
  modified : n'.modified = n.modified
  listing : n'.listing? = n.listing?
  size : n'.size = n.size

namespace Node.Twin

variable {n n' : Node}

theorem refl (n : Node) : n.Twin n :=
  ⟨rfl, rfl, rfl, rfl, rfl, rfl⟩

theorem isDirectory (h : n.Twin n') : n'.isDirectory = n.isDirectory := by
  rw [isDirectory_eq_isSome, children?_eq, h.listing, ← children?_eq, ← isDirectory_eq_isSome]

/-- Only files can differ at all. -/
theorem eq_or_files (h : n.Twin n') :
    n' = n ∨ ∃ content content', n.body = .file content ∧ n'.body = .file content' ∧
      content'.length = content.length := by
  obtain ⟨permissions, owner, group, modified, body⟩ := n
  obtain ⟨permissions', owner', group', modified', body'⟩ := n'
  obtain ⟨rfl, rfl, rfl, rfl, hlisting, hsize⟩ := h
  cases body with
  | file content =>
    cases body' with
    | file content' => exact Or.inr ⟨content, content', rfl, rfl, hsize⟩
    | directory created names => cases hlisting
  | directory created names =>
    cases body' with
    | file content' => cases hlisting
    | directory created' names' =>
      left
      cases hlisting
      rfl

theorem addChild (h : n.Twin n') (name : String) (now : Timestamp) :
    (n.addChild name now).Twin (n'.addChild name now) := by
  rcases h.eq_or_files with rfl | ⟨content, content', hbody, hbody', -⟩
  · exact .refl _
  · rwa [Node.addChild, Node.addChild, hbody, hbody']

end Node.Twin

namespace FileTree

/-- Two trees with the same nodes, but that hidden files may hold other texts of the same
length. -/
structure Alike (hidden : String → Prop) (t t' : FileTree) : Prop where
  owner : t'.owner = t.owner
  group : t'.group = t.group
  keys : t'.keys = t.keys
  twins : ∀ key, Option.Rel Node.Twin (t.node? key) (t'.node? key)
  shown : ∀ key, ¬ hidden key → t'.node? key = t.node? key

/-- Whether no hidden file can be read by its owner. -/
def Unreadable (hidden : String → Prop) (t : FileTree) : Prop :=
  ∀ key node, hidden key → t.node? key = some node → node.permissions.owner.read = false

/-- Two entries of the directory `key` that differ at most in a hidden content. -/
structure EntryTwin (hidden : String → Prop) (key : String) (entry entry' : String × Node) :
    Prop where
  name : entry'.1 = entry.1
  twin : entry.2.Twin entry'.2
  shown : ¬ hidden (Path.join key entry.1) → entry' = entry

instance (f : String) (t : FileTree) : Decidable (t.Unreadable (· = f)) :=
  decidable_of_iff (∀ node ∈ t.node? f, node.permissions.owner.read = false)
    ⟨fun h _ node hkey hfound => h node (hkey ▸ hfound), fun h node hfound => h f node rfl hfound⟩

variable {hidden : String → Prop} {t t' : FileTree}

/-- What a listing shows is the same if it is the same for twins. -/
theorem map_of_entryTwins {β : Type} (view : String × Node → β)
    (hview : ∀ name node node', node.Twin node' → view (name, node') = view (name, node))
    {key : String} {entries entries' : List (String × Node)}
    (h : List.Forall₂ (EntryTwin hidden key) entries entries') :
    entries'.map view = entries.map view := by
  induction h with
  | nil => rfl
  | @cons entry entry' rest rest' hentry _ ih =>
    obtain ⟨name, node⟩ := entry
    obtain ⟨name', node'⟩ := entry'
    obtain rfl : name' = name := hentry.name
    rw [List.map_cons, List.map_cons, hview _ _ _ hentry.twin, ih]

namespace Alike

theorem refl (hidden : String → Prop) (t : FileTree) : Alike hidden t t where
  owner := rfl
  group := rfl
  keys := rfl
  twins := by
    intro key
    cases t.node? key with
    | none => exact .none
    | some node => exact .some (.refl node)
  shown := fun _ _ => rfl

/-- With more hidden, trees stay alike. -/
theorem mono (h : Alike hidden t t') {more : String → Prop} (hmore : ∀ key, hidden key → more key) :
    Alike more t t' :=
  ⟨h.owner, h.group, h.keys, h.twins, fun key hkey => h.shown key fun hh => hkey (hmore key hh)⟩

/-- What is found under a key: nothing in both, or two twins. -/
theorem node?_cases (h : Alike hidden t t') (key : String) :
    (t.node? key = none ∧ t'.node? key = none) ∨
      ∃ node node', t.node? key = some node ∧ t'.node? key = some node' ∧ node.Twin node' ∧
        (¬ hidden key → node' = node) := by
  have htwins := h.twins key
  have hshown := h.shown key
  generalize t.node? key = found at htwins hshown ⊢
  generalize t'.node? key = found' at htwins hshown ⊢
  cases htwins with
  | none => exact Or.inl ⟨rfl, rfl⟩
  | @some node node' htwin =>
    exact Or.inr ⟨node, node', rfl, rfl, htwin, fun hkey => Option.some.inj (hshown hkey)⟩

theorem put (h : Alike hidden t t') {key : String} {node node' : Node} (htwin : node.Twin node')
    (hshown : ¬ hidden key → node' = node) : Alike hidden (t.put key node) (t'.put key node') where
  owner := h.owner
  group := h.group
  keys := by
    by_cases hkey : key ∈ t.keys
    · rw [keys_put_of_mem hkey, keys_put_of_mem (h.keys ▸ hkey), h.keys]
    · rw [keys_put_of_not_mem hkey, keys_put_of_not_mem (h.keys ▸ hkey), h.keys]
  twins := by
    intro other
    rw [node?_put, node?_put]
    by_cases hother : other = key
    · rw [if_pos hother, if_pos hother]
      exact .some htwin
    · rw [if_neg hother, if_neg hother]
      exact h.twins other
  shown := by
    intro other hother
    rw [node?_put, node?_put]
    by_cases heq : other = key
    · rw [if_pos heq, if_pos heq, hshown (heq ▸ hother)]
    · rw [if_neg heq, if_neg heq, h.shown other hother]

theorem insertChild (h : Alike hidden t t') {dir name : String} {node node' : Node}
    (htwin : node.Twin node') (hshown : ¬ hidden (Path.join dir name) → node' = node)
    (now : Timestamp) :
    Alike hidden (t.insertChild dir name node now) (t'.insertChild dir name node' now) := by
  have hput : Alike hidden (t.put (Path.join dir name) node) (t'.put (Path.join dir name) node') :=
    h.put htwin hshown
  unfold FileTree.insertChild
  simp only
  rcases hput.node?_cases dir with ⟨hnone, hnone'⟩ | ⟨parent, parent', hfound, hfound', hparents, hsame⟩
  · rw [hnone, hnone']
    exact hput
  · rw [hfound, hfound']
    exact hput.put (hparents.addChild name now) fun hdir => by rw [hsame hdir]

theorem isDirectory (h : Alike hidden t t') (path : String) :
    t'.isDirectory path = t.isDirectory path := by
  rw [FileTree.isDirectory, FileTree.isDirectory, get?, get?]
  rcases h.node?_cases (Path.normalize path) with ⟨hnone, hnone'⟩ |
    ⟨node, node', hfound, hfound', htwin, -⟩
  · rw [hnone, hnone']
  · rw [hfound, hfound', Option.any_some, Option.any_some, htwin.isDirectory]

theorem contains (h : Alike hidden t t') (path : String) : t'.contains path = t.contains path := by
  rw [FileTree.contains, FileTree.contains, get?, get?]
  rcases h.node?_cases (Path.normalize path) with ⟨hnone, hnone'⟩ | ⟨node, node', hfound, hfound', -⟩
  · rw [hnone, hnone']
  · rw [hfound, hfound']
    rfl

/-- The entries of a directory are twins under the same names. -/
theorem list (h : Alike hidden t t') (path : String) :
    Paired (List.Forall₂ (EntryTwin hidden (Path.normalize path))) (t.list path)
      (t'.list path) := by
  unfold FileTree.list
  simp only
  generalize Path.normalize path = key
  rcases h.node?_cases key with ⟨hnone, hnone'⟩ | ⟨node, node', hfound, hfound', htwin, -⟩
  · rw [hnone, hnone']
    exact .error _
  · rw [hfound, hfound']
    simp only
    rcases htwin.eq_or_files with rfl | ⟨content, content', hbody, hbody', -⟩
    · cases node'.body with
      | file content => exact .error _
      | directory created names =>
        refine .ok (List.rel_filterMap ?_ (List.forall₂_same.mpr fun _ _ => rfl))
        rintro name _ rfl
        rcases h.node?_cases (Path.join key name) with ⟨hnone, hnone'⟩ |
          ⟨child, child', hchild, hchild', hchildren, hsame⟩
        · simp only [hnone, hnone', Option.map_none]
          exact .none
        · simp only [hchild, hchild', Option.map_some]
          exact .some ⟨rfl, hchildren, fun hkey => by rw [hsame hkey]⟩
    · rw [hbody, hbody']
      exact .error _

theorem checkPlace (h : Alike hidden t t') (key name : String) :
    t'.checkPlace key name = t.checkPlace key name := by
  unfold FileTree.checkPlace
  rcases h.node?_cases key with ⟨hnone, hnone'⟩ | ⟨node, node', hfound, hfound', htwin, -⟩
  · rw [hnone, hnone']
  · rw [hfound, hfound']
    simp only [htwin.isDirectory]

theorem createDirectory (h : Alike hidden t t') (dir name : String) (now : Timestamp) :
    Paired (Alike hidden) (t.createDirectory dir name now) (t'.createDirectory dir name now) := by
  have hnew : t'.newDirectory now = t.newDirectory now := by
    rw [newDirectory, newDirectory, h.owner, h.group]
  simp only [FileTree.createDirectory, h.checkPlace, hnew]
  cases t.checkPlace (Path.normalize dir) name with
  | error e => exact .error e
  | ok u =>
    simp only [Outcome.ok_bind]
    rcases h.node?_cases (Path.join (Path.normalize dir) name) with ⟨hnone, hnone'⟩ |
      ⟨node, node', hfound, hfound', -⟩
    · rw [hnone, hnone']
      exact .ok (h.insertChild (.refl _) (fun _ => rfl) now)
    · rw [hfound, hfound']
      exact .error _

theorem createFile (h : Alike hidden t t') (dir name content : String) (now : Timestamp) :
    Paired (Alike hidden) (t.createFile dir name content now)
      (t'.createFile dir name content now) := by
  have hnew : t'.newFile content now = t.newFile content now := by
    rw [newFile, newFile, h.owner, h.group]
  simp only [FileTree.createFile, h.checkPlace, hnew]
  cases t.checkPlace (Path.normalize dir) name with
  | error e => exact .error e
  | ok u =>
    simp only [Outcome.ok_bind]
    rcases h.node?_cases (Path.join (Path.normalize dir) name) with ⟨hnone, hnone'⟩ |
      ⟨node, node', hfound, hfound', htwin, hsame⟩
    · rw [hnone, hnone']
      exact .ok (h.insertChild (.refl _) (fun _ => rfl) now)
    · rw [hfound, hfound']
      refine .ok (h.put ?_ fun hkey => by rw [hsame hkey])
      exact ⟨htwin.permissions, htwin.owner, htwin.group, rfl, htwin.listing, htwin.size⟩

/-- The same text can be written anywhere, and other texts of the same length where files are
hidden. -/
theorem writeFile (h : Alike hidden t t') (dir name : String) {content content' : String}
    (hlength : content'.length = content.length)
    (hsame : isFileName name = true → ¬ hidden (Path.join (Path.normalize dir) name) →
      content' = content) (mode : WriteMode) (now : Timestamp) :
    Paired (Alike hidden) (t.writeFile dir name content mode now)
      (t'.writeFile dir name content' mode now) := by
  simp only [FileTree.writeFile, h.checkPlace]
  cases hplace : t.checkPlace (Path.normalize dir) name with
  | error e => exact .error e
  | ok u =>
    have hsame := hsame (checkPlace_eq_ok.mp hplace).1
    simp only [Outcome.ok_bind]
    rcases h.node?_cases (Path.join (Path.normalize dir) name) with ⟨hnone, hnone'⟩ |
      ⟨node, node', hfound, hfound', htwin, hshown⟩
    · rw [hnone, hnone']
      refine .ok (h.insertChild ?_ ?_ now)
      · exact ⟨rfl, h.owner, h.group, rfl, rfl, hlength⟩
      · intro hkey
        rw [newFile, newFile, h.owner, h.group, hsame hkey]
    · rw [hfound, hfound']
      simp only
      rcases htwin.eq_or_files with rfl | ⟨old, old', hbody, hbody', hold⟩
      · cases node'.body with
        | directory created names => exact .error _
        | file old =>
          refine .ok (h.put ?_ fun hkey => by rw [hsame hkey])
          refine ⟨rfl, rfl, rfl, rfl, rfl, ?_⟩
          cases mode <;> simp [Node.size, WriteMode.contentAfter, hlength]
      · rw [hbody, hbody']
        refine .ok (h.put ?_ fun hkey => ?_)
        · refine ⟨htwin.permissions, htwin.owner, htwin.group, rfl, rfl, ?_⟩
          cases mode <;> simp [Node.size, WriteMode.contentAfter, hlength, hold]
        · have hnodes := hshown hkey
          subst hnodes
          rw [hbody', NodeBody.file.injEq] at hbody
          rw [hbody, hsame hkey]

theorem writeFile_same (h : Alike hidden t t') (dir name content : String) (mode : WriteMode)
    (now : Timestamp) :
    Paired (Alike hidden) (t.writeFile dir name content mode now)
      (t'.writeFile dir name content mode now) :=
  h.writeFile dir name rfl (fun _ _ => rfl) mode now

theorem changePermissions (h : Alike hidden t t') (dir name : String) (spec : ModeSpec) :
    Paired (fun r r' => r'.1 = r.1 ∧ Alike hidden r.2 r'.2) (t.changePermissions dir name spec)
      (t'.changePermissions dir name spec) := by
  simp only [FileTree.changePermissions]
  rcases h.node?_cases (Path.join (Path.normalize dir) name) with ⟨hnone, hnone'⟩ |
    ⟨node, node', hfound, hfound', htwin, hsame⟩
  · rw [hnone, hnone']
    exact .error _
  · rw [hfound, hfound']
    refine .ok ⟨by simp only [htwin.permissions], h.put ?_ fun hkey => by rw [hsame hkey]⟩
    exact ⟨by simp only [htwin.permissions], htwin.owner, htwin.group, htwin.modified, htwin.listing,
      htwin.size⟩

/-- What is hidden is not read. -/
theorem read (h : Alike hidden t t') (hhidden : t.Unreadable hidden) (dir name : String) :
    t'.read dir name = t.read dir name := by
  rw [FileTree.read, FileTree.read]
  rcases h.node?_cases (Path.join (Path.normalize dir) name) with ⟨hnone, hnone'⟩ |
    ⟨node, node', hfound, hfound', htwin, hsame⟩
  · rw [hnone, hnone']
  · rw [hfound, hfound']
    rcases htwin.eq_or_files with rfl | ⟨content, content', hbody, hbody', -⟩
    · rfl
    · by_cases hkey : hidden (Path.join (Path.normalize dir) name)
      · have hread := hhidden _ node hkey hfound
        simp [hbody, hbody', htwin.permissions, hread]
      · rw [hsame hkey]

theorem readFrom (h : Alike hidden t t') (hhidden : t.Unreadable hidden) (cwd operand : String) :
    t'.readFrom cwd operand = t.readFrom cwd operand := by
  unfold FileTree.readFrom
  simp only [h.read hhidden]

end Alike

/-- Another text of the same length in one file makes a tree that is alike. -/
theorem alike_put_content {f content : String} {node : Node} (hfound : t.node? f = some node)
    (hbody : node.body = .file content) (content' : String)
    (hlength : content'.length = content.length) :
    Alike (· = f) t (t.put f { node with body := .file content' }) where
  owner := rfl
  group := rfl
  keys := keys_put_of_mem (mem_keys_of_node? hfound) _
  twins := by
    intro key
    rw [node?_put]
    by_cases hkey : key = f
    · rw [if_pos hkey, hkey, hfound]
      refine .some ⟨rfl, rfl, rfl, rfl, ?_, ?_⟩
      · simp [Node.listing?, hbody]
      · simp [Node.size, hbody, hlength]
    · rw [if_neg hkey]
      exact (Alike.refl (· = f) t).twins key
  shown := by
    intro key hkey
    rw [node?_put, if_neg hkey]

end FileTree

end ShellTutor
