import ShellTutor.Proofs.FileTree.Reachable

/-!
# The files of a directory

A directory can go by the name of a step in a path, since the way to home is made as it is spelled.
A file cannot: wherever files come from, their names are checked. So each file can be written under
its own name anywhere, and the files of a directory can be listed by name and text.
-/

namespace ShellTutor.FileTree

open ShellTutor.Path (IsNormal IsComponent join normalize lastName)

variable {t t' : FileTree}

/-- Every file goes by a name that a file can be given. -/
def FilesNamed (t : FileTree) : Prop :=
  ∀ key node, t.node? key = some node → node.isDirectory = false → isFileName (lastName key) = true

theorem filesNamed_empty (owner group : String) (now : Timestamp) :
    (FileTree.empty owner group now).FilesNamed := by
  intro key node hnode hfile
  obtain ⟨-, rfl⟩ := node?_empty hnode
  cases hfile

theorem Change.filesNamed (h : t.Change t') (hnamed : t.FilesNamed) : t'.FilesNamed := by
  intro key node hnode hfile
  cases h with
  | @add dir name new now hdir hname hparent hnew hempty hcheck =>
    rw [node?_insertChild hdir hname] at hnode
    split_ifs at hnode with hjoin hsame
    · obtain rfl := Option.some.inj hnode
      rw [hjoin, Path.lastName_join hdir hname]
      exact hcheck hfile
    · obtain ⟨parent, hold, rfl⟩ := Option.map_eq_some_iff.mp hnode
      rw [Node.isDirectory_addChild] at hfile
      exact hsame ▸ hnamed dir parent hold hfile
    · exact hnamed key node hnode hfile
  | @update changed old new hold hkeeps =>
    rw [node?_put] at hnode
    split_ifs at hnode with hsame
    · obtain rfl := Option.some.inj hnode
      rw [hkeeps.isDirectory] at hfile
      exact hsame ▸ hnamed changed old hold hfile
    · exact hnamed key node hnode hfile

theorem Changes.filesNamed (h : Changes t t') (hnamed : t.FilesNamed) : t'.FilesNamed := by
  induction h with
  | refl => exact hnamed
  | tail _ hlast ih => exact hlast.filesNamed ih

theorem filesNamed_ofSeed {home owner group : String} {entries : List SeedEntry} {now : Timestamp}
    (h : ofSeed home owner group entries now = .ok t) : t.FilesNamed :=
  (changes_ofSeed h).filesNamed (filesNamed_empty owner group now)

/-- The list has every file that lies in the directory, once, by its name and its text. -/
structure ListsFiles (t : FileTree) (dir : String) (files : List (String × String)) : Prop where
  nodup : (files.map Prod.fst).Nodup
  mem_iff : ∀ name content, (name, content) ∈ files ↔
    isFileName name = true ∧ ∃ node, t.node? (join dir name) = some node ∧
      node.body = .file content

section ListsFiles

variable {dir : String} {files : List (String × String)} {file : String × String}
  (h : t.ListsFiles dir files) (hfile : file ∈ files)
include h hfile

theorem ListsFiles.isFileName : isFileName file.1 = true :=
  ((h.mem_iff file.1 file.2).mp hfile).1

theorem ListsFiles.isComponent : IsComponent file.1 :=
  isComponent_of_isFileName (h.isFileName hfile)

end ListsFiles

/-- What lies in a directory is found under its name there. -/
theorem Connected.mem_nodesIn_iff (hc : t.Connected) {dir name : String} {node : Node}
    (hdir : IsNormal dir) :
    (name, node) ∈ t.nodesIn dir ↔ IsComponent name ∧ t.node? (join dir name) = some node := by
  have hsame : normalize dir = dir := hdir
  simp only [nodesIn, hsame, List.mem_map, List.mem_filter, ne_eq, decide_not, Bool.and_eq_true,
    Bool.not_eq_true', decide_eq_false_iff_not, beq_iff_eq, Prod.mk.injEq, Prod.exists]
  constructor
  · rintro ⟨key, found, ⟨hmem, hne, rfl⟩, rfl, rfl⟩
    have hfound := node?_of_mem hc.nodup hmem
    have hkey := hc.normal key (mem_keys_of_node? hfound)
    obtain ⟨parent, last, hparent, hlast, rfl⟩ := hkey.exists_join hne
    rw [Path.parent_join hparent hlast, Path.lastName_join hparent hlast]
    exact ⟨hlast, hfound⟩
  · rintro ⟨hname, hfound⟩
    obtain ⟨before, after, hsplit, -⟩ := List.lookup_eq_some_iff.mp hfound
    refine ⟨join dir name, node, ⟨?_, Path.join_ne_root hdir hname, Path.parent_join hdir hname⟩,
      Path.lastName_join hdir hname, rfl⟩
    rw [hsplit]
    exact List.mem_append_right _ (List.mem_cons_self ..)

theorem Connected.isComponent_of_mem_childNames (hc : t.Connected) {dir name : String}
    (h : name ∈ t.childNames dir) : IsComponent name := by
  obtain ⟨key, hkey, hroot, -, rfl⟩ := mem_childNames.mp h
  obtain ⟨parent, last, hparent, hlast, rfl⟩ := (hc.normal key hkey).exists_join hroot
  rwa [Path.lastName_join hparent hlast]

theorem Connected.nodup_names_nodesIn (hc : t.Connected) (dir : String) :
    ((t.nodesIn dir).map Prod.fst).Nodup := by
  have hsame : (t.nodesIn dir).map Prod.fst = t.childNames (normalize dir) := by
    simp [nodesIn, childNames, keys, List.filter_map, Function.comp_def]
  rw [hsame]
  exact hc.nodup_childNames _

/-- What is new in a directory is the last that lies there. -/
theorem Connected.nodesIn_insertChild (hc : t.Connected) {dir name : String} (hdir : IsNormal dir)
    (hname : IsComponent name) (hparent : t.HasDirectory dir)
    (hnew : t.node? (join dir name) = none) {node : Node} (hempty : ∀ names ∈ node.children?, names = []) (now : Timestamp) :
    (t.insertChild dir name node now).nodesIn dir = t.nodesIn dir ++ [(name, node)] := by
  have hsame : normalize dir = dir := hdir
  have hfound := node?_insertChild (t := t) hdir hname node now
  obtain ⟨names, hnames⟩ := hparent.exists_children?
  obtain ⟨above, hnode, hchildren⟩ := Option.bind_eq_some_iff.mp hnames
  have hlisted : (t.insertChild dir name node now).children? (normalize dir) =
      some (names ++ [name]) := by
    rw [hsame, children?, hfound, if_neg (Path.join_ne_dir hdir hname).symm, if_pos rfl, hnode,
      Option.map_some, Option.bind_some, Node.children?_addChild, hchildren, Option.map_some]
  have hold : ∀ other ∈ names,
      (t.insertChild dir name node now).node? (join dir other) = t.node? (join dir other) := by
    intro other hother
    have hkey : join dir other ∈ t.keys := hc.wellFormed.child_key dir names hnames other hother
    have hne : join dir other ≠ dir := by
      rw [hc.childNames_of_children? hnames] at hother
      exact Path.join_ne_dir hdir (hc.isComponent_of_mem_childNames hother)
    have hother : join dir other ≠ join dir name := fun h => node?_eq_none.mp hnew (h ▸ hkey)
    rw [hfound, if_neg hother, if_neg hne]
  have hbefore : t.children? (normalize dir) = some names := by rw [hsame, hnames]
  rw [(hc.insertChild hdir hname hparent hnew hempty).nodesIn_eq hlisted, hc.nodesIn_eq hbefore,
    hsame, List.filterMap_append]
  congr 1
  · exact List.filterMap_congr fun other hother => by rw [hold other hother]
  · simp [hfound]

variable (t) in
/-- The files in a directory, oldest first. -/
def filesIn (dir : String) : List (String × String) :=
  (t.nodesIn dir).filterMap fun (name, node) => node.content?.map fun content => (name, content)

/-- A new directory is none of the files. -/
theorem Connected.filesIn_insertChild (hc : t.Connected) {dir name : String} (hdir : IsNormal dir)
    (hname : IsComponent name) (hparent : t.HasDirectory dir)
    (hnew : t.node? (join dir name) = none) (now : Timestamp) :
    (t.insertChild dir name (t.newDirectory now) now).filesIn dir = t.filesIn dir := by
  have hempty : ∀ names ∈ (t.newDirectory now).children?, names = [] := by
    simp [newDirectory, Node.children?]
  rw [filesIn, hc.nodesIn_insertChild hdir hname hparent hnew hempty, List.filterMap_append]
  simp [filesIn, newDirectory, Node.content?]

theorem Connected.listsFiles (hc : t.Connected) (hnamed : t.FilesNamed) {dir : String}
    (hdir : IsNormal dir) : t.ListsFiles dir (t.filesIn dir) where
  nodup := by
    have hnames := hc.nodup_names_nodesIn dir
    rw [List.nodup_iff_pairwise_ne, List.pairwise_map] at hnames ⊢
    refine List.pairwise_filterMap.mpr (hnames.imp ?_)
    rintro ⟨name, node⟩ ⟨name', node'⟩ hne file hfile file' hfile'
    obtain ⟨content, -, rfl⟩ := Option.map_eq_some_iff.mp hfile
    obtain ⟨content', -, rfl⟩ := Option.map_eq_some_iff.mp hfile'
    exact hne
  mem_iff := by
    intro name content
    have hcontent (node : Node) : node.content? = some content ↔ node.body = .file content := by
      rcases node with ⟨_, _, _, _, _ | _⟩ <;> simp [Node.content?]
    simp only [filesIn, List.mem_filterMap, Option.map_eq_some_iff, Prod.mk.injEq, Prod.exists]
    constructor
    · rintro ⟨found, node, hmem, text, htext, rfl, rfl⟩
      obtain ⟨hname, hnode⟩ := (hc.mem_nodesIn_iff hdir).mp hmem
      rw [hcontent] at htext
      have hfile : node.isDirectory = false := by rw [Node.isDirectory, htext]
      have hlast := hnamed _ node hnode hfile
      rw [Path.lastName_join hdir hname] at hlast
      exact ⟨hlast, node, hnode, htext⟩
    · rintro ⟨hname, node, hnode, hbody⟩
      exact ⟨name, node, (hc.mem_nodesIn_iff hdir).mpr ⟨isComponent_of_isFileName hname, hnode⟩,
        content, (hcontent node).mpr hbody, rfl, rfl⟩

end ShellTutor.FileTree
