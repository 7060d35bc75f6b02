import ShellTutor.Proofs.FileTree.Connected

/-!
# Trees that seeds and calls make

A reachable tree starts as the root alone or as a loaded seed and then takes any calls of the four
operations, whether they succeed or fail. All of it comes down to single changes, so that every
reachable tree is connected, and listing a directory gives its children in the order in which they
were created.
-/

namespace ShellTutor.FileTree

open ShellTutor.Path (IsNormal IsComponent join normalize lastName)

variable {t t' : FileTree}

theorem keys_empty (owner group : String) (now : Timestamp) :
    (FileTree.empty owner group now).keys = ["/"] := rfl

theorem node?_empty {owner group : String} {now : Timestamp} {key : String} {node : Node}
    (h : (FileTree.empty owner group now).node? key = some node) :
    key = "/" ∧ node = ⟨.directoryDefault, owner, group, now, .directory now []⟩ := by
  rw [empty, node?_put] at h
  by_cases hkey : key = "/"
  · rw [if_pos hkey, Option.some.injEq] at h
    exact ⟨hkey, h.symm⟩
  · rw [if_neg hkey] at h
    cases h

theorem hasDirectory_root_empty (owner group : String) (now : Timestamp) :
    (FileTree.empty owner group now).HasDirectory "/" :=
  ⟨_, by rw [empty, node?_put, if_pos rfl], rfl⟩

theorem connected_empty (owner group : String) (now : Timestamp) :
    (FileTree.empty owner group now).Connected := by
  refine ⟨hasDirectory_root_empty owner group now, ?_, ?_, ?_, ?_⟩
  · simp [keys_empty, Path.isNormal_root]
  · simp [keys_empty]
  · simp [keys_empty]
  · intro key node names hnode hchildren
    obtain ⟨-, rfl⟩ := node?_empty hnode
    rw [childNames, keys_empty]
    simpa [Node.children?, eq_comm] using hchildren

def OnlyDirectories (t : FileTree) : Prop :=
  ∀ key node, t.node? key = some node → node.isDirectory = true

theorem OnlyDirectories.insertChild (hall : t.OnlyDirectories) {dir name : String} {node : Node}
    (hdir : IsNormal dir) (hname : IsComponent name) (hnode : node.isDirectory = true)
    (now : Timestamp) : (t.insertChild dir name node now).OnlyDirectories := by
  intro key found hfound
  rw [node?_insertChild hdir hname] at hfound
  by_cases hjoin : key = join dir name
  · rw [if_pos hjoin, Option.some.injEq] at hfound
    exact hfound ▸ hnode
  · rw [if_neg hjoin] at hfound
    by_cases heq : key = dir
    · rw [if_pos heq, Option.map_eq_some_iff] at hfound
      obtain ⟨old, hold, rfl⟩ := hfound
      rw [Node.isDirectory_addChild, hall dir old hold]
    · rw [if_neg heq] at hfound
      exact hall key found hfound

/-- Making missing directories from one that is there is a chain of changes, as long as no file
stands in the way. -/
theorem changes_ensureFrom (now : Timestamp) {current : String} {cs : List String}
    (hall : t.OnlyDirectories) (hcurrent : IsNormal current) (hdir : t.HasDirectory current)
    (hcs : ∀ c ∈ cs, IsComponent c) :
    Changes t (t.ensureFrom now current cs) ∧
      (t.ensureFrom now current cs).HasDirectory (cs.foldl join current) := by
  induction cs generalizing t current with
  | nil => exact ⟨.refl, hdir⟩
  | cons c cs ih =>
    have hc : IsComponent c := hcs c (List.mem_cons_self ..)
    have hrest : ∀ d ∈ cs, IsComponent d := fun d hd => hcs d (List.mem_cons_of_mem _ hd)
    have hnext : IsNormal (join current c) := Path.isNormal_join hcurrent hc
    rw [ensureFrom, List.foldl_cons]
    cases hnode : t.node? (join current c) with
    | some node => exact ih hall hnext ⟨node, hnode, hall _ node hnode⟩ hrest
    | none =>
      have hadd : t.Change (t.insertChild current c (t.newDirectory now) now) :=
        .add hcurrent hc hdir hnode (by simp [newDirectory, Node.children?]) Bool.noConfusion
      have hthere : (t.insertChild current c (t.newDirectory now) now).HasDirectory
          (join current c) :=
        ⟨t.newDirectory now, by rw [node?_insertChild hcurrent hc, if_pos rfl], rfl⟩
      obtain ⟨hchanges, hreached⟩ :=
        ih (hall.insertChild hcurrent hc rfl now) hnext hthere hrest
      exact ⟨.head hadd hchanges, hreached⟩

theorem foldl_join_ofComponents {cs ds : List String} (hcs : ∀ c ∈ cs, IsComponent c)
    (hds : ∀ d ∈ ds, IsComponent d) :
    ds.foldl join (Path.ofComponents cs) = Path.ofComponents (cs ++ ds) := by
  induction ds generalizing cs with
  | nil => simp
  | cons d ds ih =>
    have hcs' : ∀ c ∈ cs ++ [d], IsComponent c := by
      intro c hc
      rcases List.mem_append.mp hc with hc | hc
      · exact hcs c hc
      · exact List.mem_singleton.mp hc ▸ hds d (List.mem_cons_self ..)
    rw [List.foldl_cons, Path.join_ofComponents hcs,
      ih hcs' fun e he => hds e (List.mem_cons_of_mem _ he)]
    simp

/-- Home and the directories above it are made one by one. -/
theorem changes_ensureDirectories (owner group home : String) (now : Timestamp) :
    let t := FileTree.empty owner group now
    Changes t (t.ensureDirectories (normalize home) now) ∧
      (t.ensureDirectories (normalize home) now).HasDirectory (normalize home) := by
  intro t
  have hcs : ∀ c ∈ Path.components (normalize home), IsComponent c :=
    fun _ => Path.isComponent_of_mem_components
  have hall : t.OnlyDirectories := by
    intro key node hnode
    obtain ⟨-, rfl⟩ := node?_empty hnode
    rfl
  obtain ⟨hchanges, hreached⟩ := changes_ensureFrom now hall Path.isNormal_root
    (hasDirectory_root_empty owner group now) hcs
  have hwalk : (Path.components (normalize home)).foldl join "/" = normalize home := by
    have h := foldl_join_ofComponents (List.forall_mem_nil IsComponent) hcs
    rw [List.nil_append] at h
    exact h.trans (Path.isNormal_normalize home).ofComponents_eq
  rw [hwalk] at hreached
  exact ⟨hchanges, hreached⟩

/-- A node of a seed is new, and a directory among them starts empty. -/
theorem change_of_loadNode {dir : String} {entry : SeedEntry} {now : Timestamp}
    (hdir : IsNormal dir) (hparent : t.HasDirectory dir) (hname : isFileName entry.name = true)
    (h : t.loadNode dir entry now = .ok t') :
    t.Change t' ∧ (entry.kind = .directory → t'.HasDirectory (join dir entry.name)) := by
  have hcomponent := isComponent_of_isFileName hname
  rw [loadNode] at h
  cases hnode : t.node? (join dir entry.name) with
  | some node => simp [hnode] at h
  | none =>
    simp only [hnode] at h
    obtain ⟨permissions, -, h⟩ := Outcome.bind_eq_ok.mp h
    rw [Except.ok.injEq] at h
    subst h
    constructor
    · refine .add hdir hcomponent hparent hnode ?_ fun _ => hname
      intro names hnames
      cases hkind : entry.kind with
      | file => simp [seedNode, Node.children?, hkind] at hnames
      | directory => simpa [seedNode, Node.children?, hkind, eq_comm] using hnames
    · intro hkind
      refine ⟨t.seedNode entry permissions now, ?_, ?_⟩
      · rw [node?_insertChild hdir hcomponent, if_pos rfl]
      · simp [seedNode, Node.isDirectory, hkind]

mutual

/-- Loading an entry with all that is in it is a chain of changes. -/
theorem changes_loadEntry {dir : String} {now : Timestamp} (entry : SeedEntry) {t t' : FileTree}
    (hdir : IsNormal dir) (hparent : t.HasDirectory dir)
    (h : loadEntry t dir now entry = .ok t') : Changes t t' := by
  obtain ⟨name, kind, content, mode, owner, group, children⟩ := entry
  rw [loadEntry] at h
  cases hname : isFileName name with
  | false =>
    simp only [hname, Bool.not_false, if_true, Except.ok.injEq] at h
    exact h ▸ .refl
  | true =>
    simp only [hname, Bool.not_true, Bool.false_eq_true, if_false] at h
    cases hload : t.loadNode dir ⟨name, kind, content, mode, owner, group, children⟩ now with
    | error e => simp [hload] at h
    | ok mid =>
      simp only [hload] at h
      obtain ⟨hchange, hmade⟩ := change_of_loadNode hdir hparent hname hload
      cases kind with
      | file =>
        simp only [Except.ok.injEq] at h
        exact h ▸ .single hchange
      | directory =>
        exact .head hchange (changes_loadEntries children
          (Path.isNormal_join hdir (isComponent_of_isFileName hname)) (hmade rfl) h)

theorem changes_loadEntries {dir : String} {now : Timestamp} (entries : List SeedEntry)
    {t t' : FileTree} (hdir : IsNormal dir) (hparent : t.HasDirectory dir)
    (h : loadEntries t dir now entries = .ok t') : Changes t t' := by
  cases entries with
  | nil =>
    rw [loadEntries, Except.ok.injEq] at h
    exact h ▸ .refl
  | cons entry rest =>
    rw [loadEntries] at h
    cases hload : loadEntry t dir now entry with
    | error e => simp [hload] at h
    | ok mid =>
      simp only [hload] at h
      have hfirst := changes_loadEntry entry hdir hparent hload
      exact hfirst.trans (changes_loadEntries rest hdir (hfirst.hasDirectory hparent) h)

end

theorem changes_ofSeed {home owner group : String} {entries : List SeedEntry} {now : Timestamp}
    (h : ofSeed home owner group entries now = .ok t) :
    Changes (FileTree.empty owner group now) t := by
  obtain ⟨hchanges, hhome⟩ := changes_ensureDirectories owner group home now
  exact hchanges.trans (changes_loadEntries entries (Path.isNormal_normalize home) hhome h)

/-- The home directory of a seed is there. -/
theorem hasDirectory_ofSeed {home owner group : String} {entries : List SeedEntry} {now : Timestamp}
    (h : ofSeed home owner group entries now = .ok t) : t.HasDirectory (normalize home) := by
  obtain ⟨-, hhome⟩ := changes_ensureDirectories owner group home now
  exact (changes_loadEntries entries (Path.isNormal_normalize home) hhome h).hasDirectory hhome

/-- A call of one of the operations that change a tree, with the time at which it is made. -/
inductive Call where
  | createDirectory (dir name : String) (now : Timestamp)
  | createFile (dir name content : String) (now : Timestamp)
  | writeFile (dir name content : String) (mode : WriteMode) (now : Timestamp)
  | changePermissions (dir name : String) (spec : ModeSpec)

def Call.result (t : FileTree) : Call → Except ShellError FileTree
  | .createDirectory dir name now => t.createDirectory dir name now
  | .createFile dir name content now => t.createFile dir name content now
  | .writeFile dir name content mode now => t.writeFile dir name content mode now
  | .changePermissions dir name spec => (t.changePermissions dir name spec).map Prod.snd

/-- The tree after a call. One that fails leaves it as it was. -/
def Call.run (t : FileTree) (call : Call) : FileTree :=
  match call.result t with
  | .ok after => after
  | .error _ => t

/-- The trees that sessions can come to have. -/
inductive Reachable : FileTree → Prop
  | empty (owner group : String) (now : Timestamp) : Reachable (.empty owner group now)
  | seed {home owner group : String} {entries : List SeedEntry} {now : Timestamp} {t : FileTree}
      (h : ofSeed home owner group entries now = .ok t) : Reachable t
  | call {t : FileTree} (call : Call) (h : Reachable t) : Reachable (call.run t)

theorem change_of_call {call : Call} (h : call.result t = .ok t') : t.Change t' := by
  cases call with
  | createDirectory => exact change_of_createDirectory h
  | createFile => exact change_of_createFile h
  | writeFile => exact change_of_writeFile h
  | changePermissions =>
    obtain ⟨⟨permissions, after⟩, hcall, rfl⟩ := Outcome.map_eq_ok.mp h
    exact change_of_changePermissions hcall

theorem changes_run (t : FileTree) (call : Call) : Changes t (call.run t) := by
  rw [Call.run]
  cases hresult : call.result t with
  | ok after => exact .single (change_of_call hresult)
  | error e => exact .refl

theorem changes_runs (t : FileTree) (calls : List Call) : Changes t (calls.foldl Call.run t) := by
  induction calls generalizing t with
  | nil => exact .refl
  | cons call calls ih => exact (changes_run t call).trans (ih (call.run t))

theorem changes_of_reachable (h : t.Reachable) :
    ∃ owner group now, Changes (FileTree.empty owner group now) t := by
  induction h with
  | empty owner group now => exact ⟨owner, group, now, .refl⟩
  | seed h => exact ⟨_, _, _, changes_ofSeed h⟩
  | @call t call _ ih =>
    obtain ⟨owner, group, now, hchanges⟩ := ih
    exact ⟨owner, group, now, hchanges.trans (changes_run t call)⟩

/-- The keys of a tree in the order in which its nodes were made, one at a time. -/
inductive Created : FileTree → List String → Prop
  | root (owner group : String) (now : Timestamp) : Created (.empty owner group now) ["/"]
  | add {t : FileTree} {order : List String} {dir name : String} (h : Created t order)
      (hparent : t.HasDirectory dir) (hnew : t.node? (join dir name) = none) (node : Node)
      (now : Timestamp) : Created (t.insertChild dir name node now) (order ++ [join dir name])
  | update {t : FileTree} {order : List String} {key : String} {old : Node} (h : Created t order)
      (hold : t.node? key = some old) (new : Node) : Created (t.put key new) order

theorem created_of_changes {owner group : String} {now : Timestamp}
    (h : Changes (FileTree.empty owner group now) t) : t.Created t.keys := by
  induction h with
  | refl => exact .root owner group now
  | tail _ hlast ih =>
    cases hlast with
    | @add dir name node now hdir hname hparent hnew _ _ =>
      rw [keys_insertChild hdir hname hparent hnew]
      exact .add ih hparent hnew node now
    | @update key old new hold _ =>
      rw [keys_put_of_mem (mem_keys_of_node? hold)]
      exact .update ih hold new

variable (t) in
/-- The names that a directory lists. -/
def children? (key : String) : Option (List String) :=
  (t.node? key).bind Node.children?

theorem HasDirectory.exists_children? {dir : String} (h : t.HasDirectory dir) :
    ∃ names, t.children? dir = some names := by
  obtain ⟨node, hnode, hisdir⟩ := h
  rw [Node.isDirectory_eq_isSome] at hisdir
  obtain ⟨names, hnames⟩ := Option.isSome_iff_exists.mp hisdir
  exact ⟨names, by rw [children?, hnode, Option.bind_some, hnames]⟩

/-- Every node is listed by its directory, and directories list nothing else. -/
structure WellFormed (t : FileTree) : Prop where
  root : t.HasDirectory "/"
  keys_nodup : t.keys.Nodup
  key_normal : ∀ key ∈ t.keys, normalize key = key
  key_listed : ∀ key ∈ t.keys, key ≠ "/" →
    ∃ names, t.children? (Path.parent key) = some names ∧ names.count (lastName key) = 1
  child_key : ∀ dir names, t.children? dir = some names → ∀ name ∈ names, join dir name ∈ t.keys
  children_nodup : ∀ dir names, t.children? dir = some names → names.Nodup

variable (t) in
/-- The nodes whose parent is a directory, oldest first, each under its last component. -/
def nodesIn (dir : String) : List (String × Node) :=
  (t.nodes.filter fun (key, _) => key ≠ "/" && Path.parent key == normalize dir).map
    fun (key, node) => (lastName key, node)

theorem Connected.childNames_of_children? (hc : t.Connected) {dir : String} {names : List String}
    (h : t.children? dir = some names) : names = t.childNames dir := by
  obtain ⟨node, hnode, hchildren⟩ := Option.bind_eq_some_iff.mp h
  exact hc.children dir node names hnode hchildren

theorem Connected.nodup_childNames (hc : t.Connected) (dir : String) :
    (t.childNames dir).Nodup := by
  refine List.Nodup.map_on ?_ (hc.nodup.filter _)
  intro key hkey other hother hlast
  simp only [List.mem_filter, ne_eq, decide_not, Bool.and_eq_true, Bool.not_eq_true',
    decide_eq_false_iff_not, beq_iff_eq] at hkey hother
  -- a key is put together from its parent and its last component
  rw [← Path.join_parent_lastName (hc.normal key hkey.1) hkey.2.1,
    ← Path.join_parent_lastName (hc.normal other hother.1) hother.2.1, hkey.2.2, hother.2.2, hlast]

theorem Connected.wellFormed (hc : t.Connected) : t.WellFormed where
  root := hc.root
  keys_nodup := hc.nodup
  key_normal := hc.normal
  key_listed := by
    intro key hkey hne
    obtain ⟨names, hchildren⟩ := (hc.parent key hkey hne).exists_children?
    refine ⟨names, hchildren, ?_⟩
    rw [hc.childNames_of_children? hchildren]
    exact List.count_eq_one_of_mem (hc.nodup_childNames _)
      (mem_childNames.mpr ⟨key, hkey, hne, rfl, rfl⟩)
  child_key := by
    intro dir names hchildren name hname
    rw [hc.childNames_of_children? hchildren] at hname
    obtain ⟨key, hkey, hne, rfl, rfl⟩ := mem_childNames.mp hname
    rwa [Path.join_parent_lastName (hc.normal key hkey) hne]
  children_nodup := by
    intro dir names hchildren
    rw [hc.childNames_of_children? hchildren]
    exact hc.nodup_childNames dir

/-- With keys that occur once, each entry is what its key names. -/
theorem node?_of_mem {key : String} {node : Node} (hnodup : t.keys.Nodup)
    (h : (key, node) ∈ t.nodes) : t.node? key = some node := by
  obtain ⟨before, after, hsplit⟩ := List.append_of_mem h
  refine List.lookup_eq_some_iff.mpr ⟨before, after, hsplit, ?_⟩
  intro entry hentry
  rw [bne_iff_ne]
  rintro rfl
  rw [keys, hsplit, List.map_append, List.map_cons] at hnodup
  exact (List.nodup_append.mp hnodup).2.2 entry.1 (List.mem_map_of_mem hentry) entry.1
    (List.mem_cons_self ..) rfl

/-- A directory is listed by looking up its children. -/
theorem list_of_children? {dir : String} {names : List String}
    (h : t.children? (normalize dir) = some names) :
    t.list dir = .ok (names.filterMap fun name =>
      (t.node? (join (normalize dir) name)).map fun child => (name, child)) := by
  obtain ⟨node, hnode, hnames⟩ := Option.bind_eq_some_iff.mp h
  cases hbody : node.body with
  | file content => simp [Node.children?, hbody] at hnames
  | directory created children =>
    simp only [Node.children?, hbody, Option.some.injEq] at hnames
    simp [list, hnode, hbody, hnames]

/-- What lies in a directory are its children. -/
theorem Connected.nodesIn_eq (hc : t.Connected) {dir : String} {names : List String}
    (h : t.children? (normalize dir) = some names) :
    t.nodesIn dir = names.filterMap fun name =>
      (t.node? (join (normalize dir) name)).map fun child => (name, child) := by
  rw [hc.childNames_of_children? h, childNames, keys, List.filter_map, List.map_map,
    List.filterMap_map, nodesIn, ← List.filterMap_eq_map]
  symm
  refine List.filterMap_congr fun entry hentry => ?_
  obtain ⟨hmem, hplace⟩ := List.mem_filter.mp hentry
  simp only [Function.comp_apply, ne_eq, decide_not, Bool.and_eq_true, Bool.not_eq_true',
    decide_eq_false_iff_not, beq_iff_eq] at hplace
  have hkey : entry.1 ∈ t.keys := List.mem_map_of_mem hmem
  have hjoin : join (normalize dir) (lastName entry.1) = entry.1 := by
    rw [← hplace.2, Path.join_parent_lastName (hc.normal _ hkey) hplace.1]
  simp [hjoin, node?_of_mem hc.nodup hmem]

/-- Listing a directory finds every node that lies in it. -/
theorem Connected.list_eq (hc : t.Connected) {dir : String} (hdir : t.isDirectory dir = true) :
    t.list dir = .ok (t.nodesIn dir) := by
  have hthere : t.HasDirectory (normalize dir) := (Option.any_eq_true _ _).mp hdir
  obtain ⟨names, hnames⟩ := hthere.exists_children?
  rw [list_of_children? hnames, hc.nodesIn_eq hnames]

/-- Every tree that sessions can come to have is well formed. Listing a directory gives the nodes
in it, each once; it gives them in the order of their keys, which is that of their creation, and
later calls only ever add keys behind. -/
theorem wellFormed_of_reachable (h : t.Reachable) :
    t.WellFormed ∧ (∀ dir, t.isDirectory dir = true → t.list dir = .ok (t.nodesIn dir)) ∧
      t.Created t.keys ∧ ∀ calls : List Call, t.keys <+: (calls.foldl Call.run t).keys := by
  obtain ⟨owner, group, now, hchanges⟩ := changes_of_reachable h
  have hc : t.Connected := (connected_empty owner group now).changes hchanges
  refine ⟨hc.wellFormed, ?_, created_of_changes hchanges, ?_⟩
  · intro dir hdir
    exact hc.list_eq hdir
  · intro calls
    exact (changes_runs t calls).keys_grow

theorem wellFormed_of_seed_and_calls :
    ∃ t : FileTree, t.Reachable ∧
      t.keys = ["/", "/home", "/home/.", "/home/./docs", "/home/./docs/notes", "/home/./docs/new",
        "/home/./out"] ∧
      t.WellFormed ∧ t.list "home//./docs" = .ok (t.nodesIn "home//./docs") ∧ t.Created t.keys := by
  have hcalls : ((ofSeed "home//./" "quest" "quest"
      [.directory "docs" [.file "notes" "hi"]] ⟨0⟩).toOption.map fun t =>
        let after := Call.run (Call.run (Call.run t (.createDirectory "/home/./docs" "new" ⟨1⟩))
          (.createFile "/home/." "a/b" "" ⟨2⟩)) (.writeFile "home//." "out" "x" .append ⟨3⟩)
        (after.keys, after.isDirectory "home//./docs")) =
      some (["/", "/home", "/home/.", "/home/./docs", "/home/./docs/notes", "/home/./docs/new",
        "/home/./out"], true) := by decide +kernel
  cases hseed : ofSeed "home//./" "quest" "quest" [.directory "docs" [.file "notes" "hi"]] ⟨0⟩ with
  | error e =>
    rw [hseed] at hcalls
    cases hcalls
  | ok t =>
    rw [hseed] at hcalls
    obtain ⟨hkeys, hdir⟩ := Prod.mk.inj (Option.some.inj hcalls)
    have hreachable : Reachable _ := .call (.writeFile "home//." "out" "x" .append ⟨3⟩)
      (.call (.createFile "/home/." "a/b" "" ⟨2⟩)
        (.call (.createDirectory "/home/./docs" "new" ⟨1⟩) (.seed hseed)))
    obtain ⟨hwell, hlist, hcreated, -⟩ := wellFormed_of_reachable hreachable
    exact ⟨_, hreachable, hkeys, hwell, hlist _ hdir, hcreated⟩

end ShellTutor.FileTree
