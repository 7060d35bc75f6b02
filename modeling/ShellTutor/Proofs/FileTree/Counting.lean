import Mathlib.Data.List.Induction
import Mathlib.Data.List.Perm.Subperm
import ShellTutor.Proofs.FileTree.Naming
import ShellTutor.Proofs.Path.Spelling

/-!
# Counting what lies below a directory

A count goes down from a directory to each directory in it, by way of the child lists. In a
connected tree every node below the directory is in exactly one branch: it has the name of a child
behind the directory, and that child is there. So the branches together are the nodes below, each
once, and what lies below a child is strictly less. The count therefore comes to an end by itself,
with the number of files and of directories below, and a bound on its depth that is no smaller than
the number of nodes cuts nothing off.
-/

namespace ShellTutor.FileTree

open ShellTutor.Path (IsNormal IsComponent IsAbove components join normalize)

variable {t : FileTree}

/-- Whatever lies above a node is a directory. The induction goes down from the directory to the
node, from the last component of what is between them. -/
theorem Connected.hasDirectory_of_isAbove (hc : t.Connected) {dir key : String}
    (hdir : IsNormal dir) (hkey : key ∈ t.keys) (habove : IsAbove dir key) :
    t.HasDirectory dir := by
  obtain ⟨below, hne, heq⟩ := habove
  induction below using List.reverseRecOn generalizing key with
  | nil => exact absurd rfl hne
  | append_singleton init last ih =>
    have hroot : key ≠ "/" := by
      rintro rfl
      have hnil : components "/" = [] := by decide
      simp [hnil] at heq
    obtain ⟨up, name, hup, hname, rfl⟩ := (hc.normal key hkey).exists_join hroot
    have hparent := hc.parent _ hkey hroot
    rw [Path.parent_join hup hname] at hparent
    rw [Path.components_join hup hname, ← List.append_assoc] at heq
    have hsplit := List.append_inj_left' heq rfl
    by_cases hinit : init = []
    · rw [hinit, List.append_nil] at hsplit
      rwa [← hdir.ofComponents_eq, ← hsplit, hup.ofComponents_eq]
    · exact ih hparent.mem_keys hinit hsplit

variable (t) in
/-- The nodes strictly below a directory, oldest first, each under its key. -/
def nodesBelow (dir : String) : List (String × Node) :=
  t.nodes.filter fun (key, _) => IsAbove (normalize dir) key

variable (t) in
/-- A node in a directory under its key, with all that lies below it. -/
def branch (dir : String) (entry : String × Node) : List (String × Node) :=
  (join (normalize dir) entry.1, entry.2) :: t.nodesBelow (join dir entry.1)

/-- How many of the nodes are files, and how many are directories. -/
def kinds (nodes : List (String × Node)) : Nat × Nat :=
  (nodes.countP fun (_, node) => !node.isDirectory, nodes.countP fun (_, node) => node.isDirectory)

theorem Connected.mem_nodes_iff (hc : t.Connected) {key : String} {node : Node} :
    (key, node) ∈ t.nodes ↔ t.node? key = some node := by
  constructor
  · exact node?_of_mem hc.nodup
  · intro hnode
    obtain ⟨before, after, hsplit, -⟩ := List.lookup_eq_some_iff.mp hnode
    rw [hsplit]
    exact List.mem_append_right _ (List.mem_cons_self ..)

theorem Connected.mem_nodesBelow_iff (hc : t.Connected) {dir key : String} {node : Node} :
    (key, node) ∈ t.nodesBelow dir ↔ t.node? key = some node ∧ IsAbove (normalize dir) key := by
  rw [nodesBelow, List.mem_filter, hc.mem_nodes_iff, decide_eq_true_eq]

theorem Connected.nodup_keys_nodesBelow (hc : t.Connected) (dir : String) :
    ((t.nodesBelow dir).map Prod.fst).Nodup :=
  hc.nodup.sublist (List.filter_sublist.map Prod.fst)

theorem nodesIn_normalize (dir : String) : t.nodesIn (normalize dir) = t.nodesIn dir := by
  rw [nodesIn, nodesIn, Path.normalize_normalize]

/-- An entry of a directory is the node under its name there. -/
theorem Connected.of_mem_nodesIn (hc : t.Connected) {dir name : String} {node : Node}
    (h : (name, node) ∈ t.nodesIn dir) :
    IsComponent name ∧ t.node? (join (normalize dir) name) = some node := by
  rw [← nodesIn_normalize] at h
  exact (hc.mem_nodesIn_iff (Path.isNormal_normalize dir)).mp h

/-- Nothing lies below what is no directory. -/
theorem Connected.nodesBelow_eq_nil (hc : t.Connected) {dir : String}
    (h : ¬ t.HasDirectory (normalize dir)) : t.nodesBelow dir = [] := by
  refine List.eq_nil_iff_forall_not_mem.mpr fun (key, node) hmem => ?_
  obtain ⟨hnode, habove⟩ := hc.mem_nodesBelow_iff.mp hmem
  exact h (hc.hasDirectory_of_isAbove (Path.isNormal_normalize dir) (mem_keys_of_node? hnode)
    habove)

theorem Connected.length_nodesBelow_lt (hc : t.Connected) (dir : String) :
    (t.nodesBelow dir).length < t.nodes.length := by
  obtain ⟨root, hroot, -⟩ := hc.root
  rw [nodesBelow, List.length_filter_lt_length_iff_exists]
  exact ⟨("/", root), hc.mem_nodes_iff.mpr hroot, by simp [Path.not_isAbove_root]⟩

section Branch

variable {dir name : String} {node : Node} (hc : t.Connected)
include hc

theorem Connected.mem_branch_iff (hentry : (name, node) ∈ t.nodesIn dir) {key : String}
    {found : Node} :
    (key, found) ∈ t.branch dir (name, node) ↔
      t.node? key = some found ∧
        (key = join (normalize dir) name ∨ IsAbove (join (normalize dir) name) key) := by
  obtain ⟨hname, hnode⟩ := hc.of_mem_nodesIn hentry
  rw [branch, List.mem_cons, hc.mem_nodesBelow_iff, Path.normalize_join hname, Prod.mk.injEq]
  constructor
  · rintro (⟨rfl, rfl⟩ | ⟨hfound, habove⟩)
    · exact ⟨hnode, Or.inl rfl⟩
    · exact ⟨hfound, Or.inr habove⟩
  · rintro ⟨hfound, rfl | habove⟩
    · rw [hnode, Option.some.injEq] at hfound
      exact Or.inl ⟨rfl, hfound.symm⟩
    · exact Or.inr ⟨hfound, habove⟩

/-- The components of a key in a branch start with the name of the branch behind the directory. -/
theorem Connected.prefix_of_mem_branch (hentry : (name, node) ∈ t.nodesIn dir) {key : String}
    {found : Node} (h : (key, found) ∈ t.branch dir (name, node)) :
    components (normalize dir) ++ [name] <+: components key := by
  obtain ⟨hname, -⟩ := hc.of_mem_nodesIn hentry
  rw [← Path.components_join (Path.isNormal_normalize dir) hname]
  rcases ((hc.mem_branch_iff hentry).mp h).2 with rfl | habove
  · exact List.prefix_refl _
  · exact (Path.isAbove_iff.mp habove).1

/-- No key is in two branches. -/
theorem Connected.name_eq_of_mem_branch {other : String} {node' : Node}
    (hentry : (name, node) ∈ t.nodesIn dir) (hother : (other, node') ∈ t.nodesIn dir) {key : String}
    {found found' : Node} (h : (key, found) ∈ t.branch dir (name, node))
    (h' : (key, found') ∈ t.branch dir (other, node')) : name = other := by
  have hprefix := List.prefix_of_prefix_length_le (hc.prefix_of_mem_branch hentry h)
    (hc.prefix_of_mem_branch hother h') (by simp)
  have heq := hprefix.eq_of_length (by simp)
  simpa using heq

theorem Connected.nodup_branch (hentry : (name, node) ∈ t.nodesIn dir) :
    (t.branch dir (name, node)).Nodup := by
  obtain ⟨hname, -⟩ := hc.of_mem_nodesIn hentry
  refine List.nodup_cons.mpr ⟨fun hmem => ?_, (hc.nodup_keys_nodesBelow _).of_map _⟩
  have habove := (hc.mem_nodesBelow_iff.mp hmem).2
  rw [Path.normalize_join hname] at habove
  exact Path.not_isAbove_self _ habove

theorem Connected.branch_subset (hentry : (name, node) ∈ t.nodesIn dir) :
    t.branch dir (name, node) ⊆ t.nodesBelow dir := by
  rintro ⟨key, found⟩ hmem
  obtain ⟨hname, -⟩ := hc.of_mem_nodesIn hentry
  obtain ⟨hfound, hplace⟩ := (hc.mem_branch_iff hentry).mp hmem
  have hkey := hc.normal key (mem_keys_of_node? hfound)
  exact hc.mem_nodesBelow_iff.mpr ⟨hfound,
    (Path.isAbove_iff_exists_join (Path.isNormal_normalize dir) hkey).mpr ⟨name, hname, hplace⟩⟩

/-- Strictly less lies below a node in a directory than below the directory. -/
theorem Connected.length_nodesBelow_join_lt (hentry : (name, node) ∈ t.nodesIn dir) :
    (t.nodesBelow (join dir name)).length < (t.nodesBelow dir).length :=
  (List.subperm_of_subset (hc.nodup_branch hentry) (hc.branch_subset hentry)).length_le

end Branch

/-- The branches of a directory are what lies below it, each node once. -/
theorem Connected.nodesBelow_perm (hc : t.Connected) (dir : String) :
    (t.nodesBelow dir).Perm ((t.nodesIn dir).flatMap (t.branch dir)) := by
  have hnormal := Path.isNormal_normalize dir
  have hbelow : (t.nodesBelow dir).Nodup := (hc.nodup_keys_nodesBelow dir).of_map _
  have hnames := hc.nodup_names_nodesIn dir
  rw [List.nodup_iff_pairwise_ne, List.pairwise_map] at hnames
  have hbranches : ((t.nodesIn dir).flatMap (t.branch dir)).Nodup := by
    refine List.nodup_flatMap.mpr ⟨fun entry hentry => hc.nodup_branch hentry,
      hnames.imp_of_mem ?_⟩
    intro entry other hentry hother hne (key, found) hmem hmem'
    exact hne (hc.name_eq_of_mem_branch hentry hother hmem hmem')
  refine (List.perm_ext_iff_of_nodup hbelow hbranches).mpr fun (key, found) => ?_
  rw [List.mem_flatMap]
  constructor
  · intro hmem
    obtain ⟨hfound, habove⟩ := hc.mem_nodesBelow_iff.mp hmem
    have hkey := hc.normal key (mem_keys_of_node? hfound)
    obtain ⟨name, hname, hplace⟩ := (Path.isAbove_iff_exists_join hnormal hkey).mp habove
    -- the child is there, since it is the node itself or lies above it
    obtain ⟨child, hchild⟩ : ∃ child, t.node? (join (normalize dir) name) = some child := by
      rcases hplace with rfl | hhigher
      · exact ⟨found, hfound⟩
      · obtain ⟨child, hchild, -⟩ := hc.hasDirectory_of_isAbove (Path.isNormal_join hnormal hname)
          (mem_keys_of_node? hfound) hhigher
        exact ⟨child, hchild⟩
    have hentry : (name, child) ∈ t.nodesIn dir := by
      rw [← nodesIn_normalize]
      exact (hc.mem_nodesIn_iff hnormal).mpr ⟨hname, hchild⟩
    exact ⟨(name, child), hentry, (hc.mem_branch_iff hentry).mpr ⟨hfound, hplace⟩⟩
  · rintro ⟨entry, hentry, hmem⟩
    exact hc.branch_subset hentry hmem

/-- The totals with one more entry of a directory, where `count` counts below directories. -/
def countEntry (count : String → Nat × Nat) (path : String) :
    Nat × Nat → String × Node → Nat × Nat
  | (files, directories), (name, node) =>
    if node.isDirectory then
      (files + (count (join path name)).1, directories + (count (join path name)).2 + 1)
    else (files + 1, directories)

/-- The count below a path, where `count` counts below the directories in it. -/
def countLevel (t : FileTree) (count : String → Nat × Nat) (path : String) : Nat × Nat :=
  match t.list path with
  | .error _ => (0, 0)
  | .ok entries => entries.foldl (countEntry count path) (0, 0)

/-- The count below the first path asks for the count below the second, a directory in it. -/
def AsksFor (t : FileTree) (path other : String) : Prop :=
  ∃ entries name node, t.list path = .ok entries ∧ (name, node) ∈ entries ∧
    node.isDirectory = true ∧ other = join path name

theorem countTo_succ (depth : Nat) (path : String) :
    t.countTo (depth + 1) path = t.countLevel (t.countTo depth) path := rfl

theorem exists_list_error {path : String} (h : t.isDirectory path = false) :
    ∃ e, t.list path = .error e := by
  rw [isDirectory, get?] at h
  rw [list]
  cases hnode : t.node? (normalize path) with
  | none => exact ⟨_, rfl⟩
  | some node =>
    cases hbody : node.body with
    | file content => exact ⟨.notADirectory (normalize path), by simp [hbody]⟩
    | directory created names => simp [hnode, Node.isDirectory, hbody] at h

theorem Connected.list_eq_ok_iff (hc : t.Connected) {path : String}
    {entries : List (String × Node)} :
    t.list path = .ok entries ↔ t.isDirectory path = true ∧ entries = t.nodesIn path := by
  cases hdir : t.isDirectory path with
  | false =>
    obtain ⟨e, hlist⟩ := exists_list_error hdir
    simp [hlist]
  | true => simp [hc.list_eq hdir, eq_comm]

theorem Connected.length_lt_of_asksFor (hc : t.Connected) {path other : String}
    (h : t.AsksFor path other) : (t.nodesBelow other).length < (t.nodesBelow path).length := by
  obtain ⟨entries, name, node, hlist, hentry, -, rfl⟩ := h
  obtain ⟨-, rfl⟩ := hc.list_eq_ok_iff.mp hlist
  exact hc.length_nodesBelow_join_lt hentry

/-- One entry adds its branch, when what lies below it is counted. -/
theorem Connected.countEntry_kinds (hc : t.Connected) {count : String → Nat × Nat} {path : String}
    {entry : String × Node} (hentry : entry ∈ t.nodesIn path)
    (hcount : entry.2.isDirectory = true →
      count (join path entry.1) = kinds (t.nodesBelow (join path entry.1)))
    (before : List (String × Node)) :
    countEntry count path (kinds before) entry = kinds (before ++ t.branch path entry) := by
  obtain ⟨name, node⟩ := entry
  obtain ⟨hname, hnode⟩ := hc.of_mem_nodesIn hentry
  cases hdir : node.isDirectory with
  | true =>
    rw [countEntry, if_pos hdir, hcount hdir]
    simp [kinds, branch, hdir, Nat.add_assoc]
  | false =>
    have hnone : t.nodesBelow (join path name) = [] := by
      refine hc.nodesBelow_eq_nil ?_
      rintro ⟨found, hfound, hisdir⟩
      rw [Path.normalize_join hname, hnode, Option.some.injEq] at hfound
      rw [← hfound, hdir] at hisdir
      cases hisdir
    rw [countEntry, if_neg (by simp [hdir])]
    simp [kinds, branch, hdir, hnone]

/-- A level counts the branches, when what it asks for is counted. The fold goes along the entries,
with the branches of those that are done in front. -/
theorem Connected.countLevel_eq (hc : t.Connected) {count : String → Nat × Nat} {path : String}
    (hcount : ∀ other, t.AsksFor path other → count other = kinds (t.nodesBelow other)) :
    t.countLevel count path = kinds (t.nodesBelow path) := by
  cases hdir : t.isDirectory path with
  | false =>
    obtain ⟨e, hlist⟩ := exists_list_error hdir
    have hnone : ¬ t.HasDirectory (normalize path) := fun hthere =>
      Bool.eq_false_iff.mp hdir ((Option.any_eq_true _ _).mpr hthere)
    rw [countLevel, hlist, hc.nodesBelow_eq_nil hnone]
    rfl
  | true =>
    have hlist := hc.list_eq hdir
    have hfold (entries : List (String × Node)) (hentries : entries ⊆ t.nodesIn path)
        (before : List (String × Node)) :
        entries.foldl (countEntry count path) (kinds before) =
          kinds (before ++ entries.flatMap (t.branch path)) := by
      induction entries generalizing before with
      | nil => simp
      | cons entry entries ih =>
        obtain ⟨hentry, hrest⟩ := List.cons_subset.mp hentries
        have hbelow (hisdir : entry.2.isDirectory = true) :=
          hcount (join path entry.1) ⟨_, entry.1, entry.2, hlist, hentry, hisdir, rfl⟩
        rw [List.foldl_cons, hc.countEntry_kinds hentry hbelow, ih hrest, List.flatMap_cons,
          List.append_assoc]
    have hperm := hc.nodesBelow_perm path
    rw [countLevel, hlist]
    refine (hfold _ (List.Subset.refl _) []).trans ?_
    rw [List.nil_append, kinds, kinds, hperm.countP_eq, hperm.countP_eq]

/-- With more levels than there are nodes below, all of these are counted. -/
theorem Connected.countTo_eq (hc : t.Connected) {depth : Nat} {path : String}
    (hdepth : (t.nodesBelow path).length < depth) :
    t.countTo depth path = kinds (t.nodesBelow path) := by
  induction depth generalizing path with
  | zero => exact absurd hdepth (Nat.not_lt_zero _)
  | succ depth ih =>
    rw [countTo_succ]
    refine hc.countLevel_eq fun other hasks => ih ?_
    have hless := hc.length_lt_of_asksFor hasks
    omega

theorem Connected.countBelow_eq (hc : t.Connected) (path : String) :
    t.countBelow path = kinds (t.nodesBelow path) :=
  hc.countTo_eq (hc.length_nodesBelow_lt path)

/-- Each count asks for counts of directories with less below them. -/
theorem Connected.wellFounded_asksFor (hc : t.Connected) :
    WellFounded fun other path => t.AsksFor path other :=
  Subrelation.wf hc.length_lt_of_asksFor (measure fun path => (t.nodesBelow path).length).wf

/-- Counting comes to an end on every tree that sessions can come to have, and is exact. No count
asks for others without end, each is what its level makes of those that it asks for, and no bound
of at least the number of nodes cuts one off. Below a directory it gives the number of files and of
directories whose keys lie strictly below the normal form of the path, each of which it counts once,
and below anything else it gives nothing. -/
theorem countBelow_exact (h : t.Reachable) :
    (WellFounded fun other path => t.AsksFor path other) ∧
    ∀ path,
      t.countBelow path = t.countLevel t.countBelow path ∧
      (∀ depth, t.nodes.length ≤ depth → t.countTo depth path = t.countBelow path) ∧
      (t.isDirectory path = true →
        t.countBelow path = kinds (t.nodesBelow path) ∧
          ((t.nodesBelow path).map Prod.fst).Nodup ∧
          ∀ key node, (key, node) ∈ t.nodesBelow path ↔
            t.node? key = some node ∧ IsAbove (normalize path) key) ∧
      (t.isDirectory path = false → t.countBelow path = (0, 0)) := by
  obtain ⟨owner, group, now, hchanges⟩ := changes_of_reachable h
  have hc : t.Connected := (connected_empty owner group now).changes hchanges
  refine ⟨hc.wellFounded_asksFor, fun path => ⟨?_, fun depth hdepth => ?_, fun _ => ?_, ?_⟩⟩
  · rw [hc.countBelow_eq, hc.countLevel_eq fun other _ => hc.countBelow_eq other]
  · have hless := hc.length_nodesBelow_lt path
    rw [hc.countBelow_eq, hc.countTo_eq (by omega)]
  · exact ⟨hc.countBelow_eq path, hc.nodup_keys_nodesBelow path, fun _ _ => hc.mem_nodesBelow_iff⟩
  · intro hdir
    obtain ⟨e, hlist⟩ := exists_list_error hdir
    rw [hc.countBelow_eq, ← hc.countLevel_eq fun other _ => hc.countBelow_eq other, countLevel,
      hlist]

theorem countBelow_exact_of_seed :
    ∃ t : FileTree, t.Reachable ∧ t.isDirectory "home//." = true ∧
      t.countBelow "home//." = kinds (t.nodesBelow "home//.") ∧
      (t.nodesBelow "home//.").map Prod.fst =
        ["/home/./docs", "/home/./docs/notes", "/home/./docs/new", "/home/./docs/new/er"] ∧
      t.countBelow "home//." = (1, 3) ∧
      t.isDirectory "/home/./docs/notes" = false ∧ t.countBelow "/home/./docs/notes" = (0, 0) := by
  have hcalls : ((ofSeed "home//./" "quest" "quest"
      [.directory "docs" [.file "notes" "hi"]] ⟨0⟩).toOption.map fun t =>
        let after := Call.run (Call.run t (.createDirectory "/home/./docs" "new" ⟨1⟩))
          (.createDirectory "/home/./docs//new" "er" ⟨2⟩)
        (after.isDirectory "home//.", (after.nodesBelow "home//.").map Prod.fst,
          kinds (after.nodesBelow "home//."), after.isDirectory "/home/./docs/notes")) =
      some (true, ["/home/./docs", "/home/./docs/notes", "/home/./docs/new",
        "/home/./docs/new/er"], (1, 3), false) := by decide +kernel
  cases hseed : ofSeed "home//./" "quest" "quest" [.directory "docs" [.file "notes" "hi"]] ⟨0⟩ with
  | error e =>
    rw [hseed] at hcalls
    cases hcalls
  | ok t =>
    rw [hseed] at hcalls
    obtain ⟨hdir, hcalls⟩ := Prod.mk.inj (Option.some.inj hcalls)
    obtain ⟨hkeys, hcalls⟩ := Prod.mk.inj hcalls
    obtain ⟨hkinds, hfile⟩ := Prod.mk.inj hcalls
    have hreachable : Reachable _ := .call (.createDirectory "/home/./docs//new" "er" ⟨2⟩)
      (.call (.createDirectory "/home/./docs" "new" ⟨1⟩) (.seed hseed))
    obtain ⟨-, hcount⟩ := countBelow_exact hreachable
    obtain ⟨-, -, hbelow, -⟩ := hcount "home//."
    obtain ⟨-, -, -, hnone⟩ := hcount "/home/./docs/notes"
    exact ⟨_, hreachable, hdir, (hbelow hdir).1, hkeys, (hbelow hdir).1.trans hkinds, hfile,
      hnone hfile⟩

end ShellTutor.FileTree
