import ShellTutor.Proofs.Command.Spelling
import ShellTutor.Proofs.FileTree.Copying
import ShellTutor.Proofs.FileTree.Naming

/-!
# What a backup does

A backup works on the tree that it reads from: it may make a directory in home before home is
listed, and then it writes below home while it goes through the list. Neither is seen in the list,
which has the files of home only. So the backup is told by the tree that it starts with: whether all
of its writes succeed, and what they leave behind.
-/

namespace ShellTutor

open ShellTutor.Path (IsNormal IsComponent join normalize)

namespace FileTree

variable {t made t' : FileTree} {home : String} {files : List (String × String)} {now : Timestamp}

/-- Nothing stands in the way of copies of the files in the directory: it is missing, or it is a
directory in which no directory has the name of a file. -/
def TakesCopies (t : FileTree) (dir : String) (files : List (String × String)) : Prop :=
  t.node? dir = none ∨ t.HasDirectory dir ∧ ∀ file ∈ files, ¬ t.HasDirectory (join dir file.1)

/-- The files of home are in its directory `backup`. A copy that was there before keeps its
permissions and its owner, and the directory itself may be new. Nothing else is touched. -/
structure BackedUp (t : FileTree) (home : String) (files : List (String × String))
    (now : Timestamp) (t' : FileTree) : Prop where
  owner : t'.owner = t.owner
  group : t'.group = t.group
  copy : ∀ file ∈ files, t'.node? (join (join home "backup") file.1) =
    some (t.fileWith (join (join home "backup") file.1) file.2 now)
  directory : t'.node? (join home "backup") =
    some (((t.node? (join home "backup")).getD (t.newDirectory now)).addChildren
      (t.newNames (join home "backup") files) now)
  parent : t'.node? home =
    if (t.node? (join home "backup")).isSome then t.node? home
    else (t.node? home).map (·.addChild "backup" now)
  elsewhere : ∀ key, key ≠ home → key ≠ join home "backup" →
    (∀ file ∈ files, key ≠ join (join home "backup") file.1) → t'.node? key = t.node? key

theorem isComponent_backup : IsComponent "backup" :=
  ⟨by decide, by decide⟩

section BackedUp

variable (hhome : IsNormal home) (hnames : ∀ file ∈ files, IsComponent file.1)
include hhome hnames

/-- Copies in a directory that was there. -/
theorem Written.backedUp (hdir : t.HasDirectory (join home "backup"))
    (h : t.Written (join home "backup") files now t') : t.BackedUp home files now t' := by
  obtain ⟨node, hnode, -⟩ := hdir
  refine ⟨h.owner, h.group, h.copy, ?_, ?_, fun key _ => h.elsewhere key⟩
  · rw [h.directory, hnode]
    rfl
  · rw [hnode, Option.isSome_some, if_pos rfl]
    refine h.elsewhere home (Path.join_ne_dir hhome isComponent_backup).symm fun file hfile => ?_
    exact (Path.join_join_ne_dir hhome isComponent_backup (hnames file hfile)).symm

/-- Copies in a directory that was made for them. -/
theorem Written.backedUp_new (hnew : t.node? (join home "backup") = none)
    (h : (t.insertChild home "backup" (t.newDirectory now) now).Written (join home "backup") files
      now t') : t.BackedUp home files now t' := by
  have hfound := node?_insertChild (t := t) hhome isComponent_backup (t.newDirectory now) now
  have hjoin : IsNormal (join home "backup") := Path.isNormal_join hhome isComponent_backup
  have hdir : join home "backup" ≠ home := Path.join_ne_dir hhome isComponent_backup
  have hplaces : ∀ file ∈ files, join (join home "backup") file.1 ≠ join home "backup" ∧
      join (join home "backup") file.1 ≠ home := fun file hfile =>
    ⟨Path.join_ne_dir hjoin (hnames file hfile),
      Path.join_join_ne_dir hhome isComponent_backup (hnames file hfile)⟩
  have hsame : ∀ file ∈ files, (t.insertChild home "backup" (t.newDirectory now) now).node?
      (join (join home "backup") file.1) = t.node? (join (join home "backup") file.1) := by
    intro file hfile
    rw [hfound, if_neg (hplaces file hfile).1, if_neg (hplaces file hfile).2]
  have hnewNames : (t.insertChild home "backup" (t.newDirectory now) now).newNames
      (join home "backup") files = t.newNames (join home "backup") files := by
    refine List.filter_congr fun name hname => ?_
    obtain ⟨file, hfile, rfl⟩ := List.mem_map.mp hname
    rw [hsame file hfile]
  constructor
  case owner => rw [h.owner, owner_insertChild]
  case group => rw [h.group, group_insertChild]
  case copy =>
    intro file hfile
    rw [h.copy file hfile, fileWith, fileWith, hsame file hfile, newFile, newFile,
      owner_insertChild, group_insertChild]
  case directory =>
    rw [h.directory, hfound, if_pos rfl, hnewNames, hnew]
    rfl
  case parent =>
    rw [hnew, Option.isSome_none, if_neg Bool.false_ne_true,
      h.elsewhere home hdir.symm fun file hfile => (hplaces file hfile).2.symm, hfound,
      if_neg hdir.symm, if_pos rfl]
  case elsewhere =>
    intro key hkey hbackup hothers
    rw [h.elsewhere key hbackup hothers, hfound, if_neg hbackup, if_neg hkey]

end BackedUp

end FileTree

namespace Admin

open FileTree (BackedUp TakesCopies Written)

variable {env : Environment} {t : FileTree} {files : List (String × String)}

/-- The lines that tell of a backup. -/
def report (files : List (String × String)) : List String :=
  "=== backup ===" :: files.map (fun file => "backed up " ++ file.1) ++
    [toString files.length ++ " file(s) copied to ~/backup"]

theorem isNormal_backup (home : String) : IsNormal (join (normalize home) "backup") :=
  Path.isNormal_join (Path.isNormal_normalize home) FileTree.isComponent_backup

/-- Where the copies go. -/
theorem normalize_backup (home : String) :
    normalize (join home "backup") = join (normalize home) "backup" := by
  rw [← Path.normalize_join_normalize]
  exact isNormal_backup home

theorem backupFile_eq (env : Environment) (t : FileTree) (file : String × String) :
    backupFile env t file =
      (t.writeFile (join (normalize env.home) "backup") file.1 file.2 .overwrite env.now).map
        fun t => ("backed up " ++ file.1, t) := by
  have hsame : normalize (join env.home "backup") =
      normalize (join (normalize env.home) "backup") := by
    rw [normalize_backup, normalize_backup, Path.normalize_normalize]
  rw [backupFile, t.writeFile_congr hsame]

/-- All files are written, or one of them is where a directory is. -/
theorem backupFiles_cases {dir : String} (htarget : join (normalize env.home) "backup" = dir)
    (hdir : t.HasDirectory dir) (hnames : ∀ file ∈ files, isFileName file.1 = true)
    (hnodup : (files.map Prod.fst).Nodup) :
    ((∀ file ∈ files, ¬ t.HasDirectory (join dir file.1)) ∧
        ∃ t', t.Written dir files env.now t' ∧
          eachOperand (backupFile env) t files =
            (.ok (files.map fun file => "backed up " ++ file.1), t')) ∨
      (∃ file ∈ files, t.HasDirectory (join dir file.1)) ∧
        ∃ e t', eachOperand (backupFile env) t files = (.error e, t') := by
  have hnormal : IsNormal dir := htarget ▸ isNormal_backup env.home
  have hsame : normalize dir = dir := hnormal
  induction files generalizing t with
  | nil => exact Or.inl ⟨List.forall_mem_nil _, t, .refl t dir env.now, rfl⟩
  | cons file rest ih =>
    obtain ⟨name, content⟩ := file
    obtain ⟨hname, hrest⟩ := List.forall_mem_cons.mp hnames
    obtain ⟨hnew, hnodup⟩ := List.nodup_cons.mp hnodup
    have hcomponent := isComponent_of_isFileName hname
    have hcomponents : ∀ file ∈ rest, IsComponent file.1 := fun file hfile =>
      isComponent_of_isFileName (hrest file hfile)
    have hwrites : (∃ t', t.writeFile dir name content .overwrite env.now = .ok t') ↔
        ¬ t.HasDirectory (join dir name) := by
      rw [FileTree.exists_writeFile_iff hname (hsame.symm ▸ hdir), hsame]
    rw [eachOperand, backupFile_eq, htarget]
    cases hwrite : t.writeFile dir name content .overwrite env.now with
    | error e =>
      have htaken : t.HasDirectory (join dir name) := by
        by_contra hfree
        obtain ⟨t', hok⟩ := hwrites.mpr hfree
        rw [hwrite] at hok
        cases hok
      exact Or.inr ⟨⟨_, List.mem_cons_self .., htaken⟩, e, t, rfl⟩
    | ok mid =>
      have hfree : ¬ t.HasDirectory (join dir name) := hwrites.mp ⟨mid, hwrite⟩
      have hwritten := FileTree.written_of_writeFile hnormal hwrite
      have hthere : mid.HasDirectory dir :=
        (FileTree.change_of_writeFile hwrite).hasDirectory hdir
      -- what stands in the way of the other files has not changed
      have hothers : ∀ file ∈ rest,
          (mid.HasDirectory (join dir file.1) ↔ t.HasDirectory (join dir file.1)) := by
        intro file hfile
        rw [FileTree.HasDirectory, FileTree.HasDirectory,
          hwritten.node?_other hnormal hcomponent (hcomponents file hfile)]
        rintro rfl
        exact hnew (List.mem_map.mpr ⟨file, hfile, rfl⟩)
      rcases ih hthere hrest hnodup with
        ⟨hrestFree, t', hlater, hrun⟩ | ⟨⟨file, hfile, htaken⟩, e, t', hrun⟩
      · refine Or.inl ⟨List.forall_mem_cons.mpr ⟨hfree, fun file hfile => ?_⟩, t',
          hwritten.cons hnormal hcomponent hcomponents hnew hlater, by simp [hrun]⟩
        exact mt (hothers file hfile).mpr (hrestFree file hfile)
      · exact Or.inr ⟨⟨file, List.mem_cons_of_mem _ hfile, (hothers file hfile).mp htaken⟩, e, t',
          by simp [hrun]⟩

/-- Without a directory for the copies, not even the first file is written. -/
theorem backupFiles_of_no_directory (h : ¬ t.HasDirectory (join (normalize env.home) "backup"))
    (hfiles : files ≠ []) : ∃ e, eachOperand (backupFile env) t files = (.error e, t) := by
  obtain ⟨file, rest, rfl⟩ := List.exists_cons_of_ne_nil hfiles
  rw [eachOperand, backupFile_eq]
  cases hwrite :
    t.writeFile (join (normalize env.home) "backup") file.1 file.2 .overwrite env.now with
  | error e => exact ⟨e, rfl⟩
  | ok t' =>
    obtain ⟨⟨-, hdir⟩, -⟩ := FileTree.writeFile_eq_ok.mp hwrite
    have hnormal : normalize (join (normalize env.home) "backup") =
        join (normalize env.home) "backup" := isNormal_backup env.home
    exact absurd (hnormal ▸ hdir) h

theorem ensureBackup_of_missing (hhome : env.tree.HasDirectory (normalize env.home))
    (hnew : env.tree.node? (join (normalize env.home) "backup") = none) :
    ensureBackup env = .ok (env.tree.insertChild (normalize env.home) "backup"
      (env.tree.newDirectory env.now) env.now) := by
  rw [ensureBackup, FileTree.contains, FileTree.get?, normalize_backup, hnew, Option.isSome_none,
    if_neg Bool.false_ne_true]
  exact FileTree.createDirectory_eq_ok.mpr ⟨⟨by decide, hhome⟩, hnew, rfl⟩

theorem ensureBackup_of_there {node : Node}
    (hnode : env.tree.node? (join (normalize env.home) "backup") = some node) :
    ensureBackup env = .ok env.tree := by
  rw [ensureBackup, FileTree.contains, FileTree.get?, normalize_backup, hnode, Option.isSome_some,
    if_pos rfl]

/-- A backup goes through the files that are in home once there is a directory for the copies. -/
theorem backup_eq {made : FileTree} (hmade : ensureBackup env = .ok made) (hc : made.Connected)
    (hhome : made.HasDirectory (normalize env.home)) :
    backup env =
      ((eachOperand (backupFile env) made (made.filesIn (normalize env.home))).1.map fun lines =>
          "=== backup ===" :: lines ++
            [toString (made.filesIn (normalize env.home)).length ++ " file(s) copied to ~/backup"],
        { env with tree :=
          (eachOperand (backupFile env) made (made.filesIn (normalize env.home))).2 }) := by
  have hthere : made.isDirectory (normalize env.home) = true :=
    (FileTree.isDirectory_iff (Path.isNormal_normalize _)).mpr hhome
  have hlist : made.list env.home = .ok (made.nodesIn (normalize env.home)) := by
    rw [made.list_congr (Path.normalize_normalize env.home).symm, hc.list_eq hthere]
  rw [backup, hmade]
  simp only [hlist]
  rfl

/-- Where there is no backup, the files are copied into a new directory. -/
theorem backup_of_missing (hc : env.tree.Connected)
    (hhome : env.tree.HasDirectory (normalize env.home))
    (hlists : env.tree.ListsFiles (normalize env.home) (env.tree.filesIn (normalize env.home)))
    (hnew : env.tree.node? (join (normalize env.home) "backup") = none) :
    ∃ t', env.tree.BackedUp (normalize env.home) (env.tree.filesIn (normalize env.home)) env.now
        t' ∧
      backup env =
        (.ok (report (env.tree.filesIn (normalize env.home))), { env with tree := t' }) := by
  have hnormal := Path.isNormal_normalize env.home
  have hbackup := FileTree.isComponent_backup
  have hmade := ensureBackup_of_missing hhome hnew
  have hfiles := hc.filesIn_insertChild hnormal hbackup hhome hnew env.now
  have hfree : ∀ file ∈ env.tree.filesIn (normalize env.home), (env.tree.insertChild
      (normalize env.home) "backup" (env.tree.newDirectory env.now) env.now).node?
        (join (join (normalize env.home) "backup") file.1) = none := fun file hfile =>
    hc.free_below hnormal hbackup hhome hnew _ _ (hlists.isComponent hfile)
  have hconnected : (env.tree.insertChild (normalize env.home) "backup"
      (env.tree.newDirectory env.now) env.now).Connected :=
    hc.insertChild hnormal hbackup hhome hnew (by simp [FileTree.newDirectory, Node.children?])
  have hthere := hhome.insertChild hnormal hbackup hnew (env.tree.newDirectory env.now) env.now
  have hdir : (env.tree.insertChild (normalize env.home) "backup"
      (env.tree.newDirectory env.now) env.now).HasDirectory (join (normalize env.home) "backup") :=
    ⟨_, by rw [FileTree.node?_insertChild hnormal hbackup, if_pos rfl], rfl⟩
  rw [backup_eq hmade hconnected hthere, hfiles]
  rcases backupFiles_cases rfl hdir (fun _ => hlists.isFileName) hlists.nodup with
    ⟨-, t', hwritten, hrun⟩ | ⟨⟨file, hfile, node, hnode, -⟩, -⟩
  · refine ⟨t', hwritten.backedUp_new hnormal (fun _ => hlists.isComponent) hnew, ?_⟩
    rw [hrun]
    rfl
  · rw [hfree file hfile] at hnode
    cases hnode

/-- A backup succeeds just if nothing stands in the way of the copies, and then leaves them. -/
theorem backup_cases (hc : env.tree.Connected) (hnamed : env.tree.FilesNamed)
    (hhome : env.tree.HasDirectory (normalize env.home)) :
    (env.tree.TakesCopies (join (normalize env.home) "backup")
          (env.tree.filesIn (normalize env.home)) ∧
        ∃ t', env.tree.BackedUp (normalize env.home) (env.tree.filesIn (normalize env.home))
            env.now t' ∧
          backup env =
            (.ok (report (env.tree.filesIn (normalize env.home))), { env with tree := t' })) ∨
      ¬ env.tree.TakesCopies (join (normalize env.home) "backup")
          (env.tree.filesIn (normalize env.home)) ∧
        ∃ e t', backup env = (.error e, { env with tree := t' }) := by
  have hnormal := Path.isNormal_normalize env.home
  have hlists := hc.listsFiles hnamed hnormal
  cases hnode : env.tree.node? (join (normalize env.home) "backup") with
  | none => exact Or.inl ⟨Or.inl hnode, backup_of_missing hc hhome hlists hnode⟩
  | some node =>
    rw [backup_eq (ensureBackup_of_there hnode) hc hhome]
    by_cases hdir : env.tree.HasDirectory (join (normalize env.home) "backup")
    · rcases backupFiles_cases rfl hdir (fun _ => hlists.isFileName) hlists.nodup with
        ⟨hfree, t', hwritten, hrun⟩ | ⟨⟨file, hfile, htaken⟩, e, t', hrun⟩
      · refine Or.inl ⟨Or.inr ⟨hdir, hfree⟩, t',
          hwritten.backedUp hnormal (fun _ => hlists.isComponent) hdir, ?_⟩
        rw [hrun]
        rfl
      · refine Or.inr ⟨?_, e, t', by rw [hrun]; rfl⟩
        rintro (hmissing | ⟨-, hfree⟩)
        · rw [hmissing] at hnode
          cases hnode
        · exact hfree file hfile htaken
    · -- here `backup` is itself a file of home
      have hfiles : env.tree.filesIn (normalize env.home) ≠ [] := by
        cases hbody : node.body with
        | directory created names =>
          exact absurd ⟨node, hnode, by rw [Node.isDirectory, hbody]⟩ hdir
        | file content =>
          exact List.ne_nil_of_mem
            ((hlists.mem_iff "backup" content).mpr ⟨by decide, node, hnode, hbody⟩)
      obtain ⟨e, hrun⟩ := backupFiles_of_no_directory hdir hfiles
      refine Or.inr ⟨?_, e, env.tree, by rw [hrun]; rfl⟩
      rintro (hmissing | ⟨hthere, -⟩)
      · rw [hmissing] at hnode
        cases hnode
      · exact hdir hthere

end Admin

/-- Where `admin` is enabled and its tool can be executed, `admin backup` is a backup. -/
theorem Registry.run_backup {names : List String} {env : Environment}
    (henabled : (builtin.restrict names).isEnabled "admin" = true)
    (hready : Admin.isReady env = true) {word : String} (hword : word.toLower = "admin")
    (more : List String) :
    (builtin.restrict names).run { stages := [word :: "backup" :: more] } none env =
      ((Admin.backup env).1.map fun lines => .text (Text.unlines lines), (Admin.backup env).2) := by
  have hname : word.toLower = Command.admin.name := hword
  have hsame : (builtin.restrict names).isEnabled word =
      (builtin.restrict names).isEnabled "admin" := by
    rw [isEnabled, isEnabled, hname, show "admin".toLower = _ from toLower_name .admin]
  have hargs : stageArgs (word :: "backup" :: more) = "backup" :: more :=
    stageArgs_of_toLower hname _
  have harity : checkArity .admin (stageArgs (word :: "backup" :: more)) = .ok () := by
    simp [hargs, checkArity, Command.minArgs]
  have hcmd := get?_of_isEnabled hname (hsame.trans henabled)
  rw [run_singleton, dispatch_of_checkArity hcmd harity, hargs, Command.execute, Admin.run,
    if_pos hready]
  rfl

end ShellTutor
