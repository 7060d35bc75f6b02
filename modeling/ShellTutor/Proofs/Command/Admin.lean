import ShellTutor.Proofs.Command.Alike
import ShellTutor.Proofs.FileTree.Counting

/-!
# What the administration tool gives away

The tool looks at contents without a read, so the permissions of a file do not hide it here. Still
only two of its functions look at contents: the counts over the log files depend on those, and a
backup has them in its copies. All else is the same on environments that differ in hidden contents.
-/

namespace ShellTutor.Admin

open Outcome (Paired)
open ShellTutor.Path (IsComponent)

variable {hidden : String → Prop} {env env' : Environment}

/-- Whether a key is that of a file whose lines the tool counts, a log file that the log directory
lists. -/
def IsLog (env : Environment) (key : String) : Prop :=
  ∃ entries, env.tree.list (Path.join env.home "logs") = .ok entries ∧
    ∃ entry ∈ entries, ".log".toList.isSuffixOf entry.1.toList = true ∧
      key = Path.join (Path.normalize (Path.join env.home "logs")) entry.1

/-- Whether a key is that of the copy that a backup makes of the file `f`, which lies in the home
directory itself. -/
def IsCopy (env : Environment) (f key : String) : Prop :=
  ∃ name, IsComponent name ∧ f = Path.join (Path.normalize env.home) name ∧
    key = Path.join (Path.normalize (Path.join env.home "backup")) name

/-- In a connected tree such a log file lies in the log directory itself. -/
theorem IsLog.exists_component (hc : env.tree.Connected) {key : String} (h : IsLog env key) :
    ∃ name, IsComponent name ∧
      key = Path.join (Path.normalize (Path.join env.home "logs")) name := by
  obtain ⟨entries, hlist, ⟨name, node⟩, hentry, -, rfl⟩ := h
  obtain ⟨-, rfl⟩ := hc.list_eq_ok_iff.mp hlist
  exact ⟨name, (hc.of_mem_nodesIn hentry).1, rfl⟩

/-- Trees that are alike have as many files and directories. -/
theorem countTo_alike {t t' : FileTree} (h : FileTree.Alike hidden t t') (depth : Nat)
    (path : String) : t'.countTo depth path = t.countTo depth path := by
  induction depth generalizing path with
  | zero => rfl
  | succ depth ih =>
    have hentries := h.list path
    rw [FileTree.countTo, FileTree.countTo]
    generalize t.list path = entries at hentries ⊢
    generalize t'.list path = entries' at hentries ⊢
    cases hentries with
    | error e => rfl
    | ok hentries =>
      simp only [ih]
      generalize ((0, 0) : Nat × Nat) = counts
      induction hentries generalizing counts with
      | nil => rfl
      | @cons entry entry' rest rest' hentry _ ih' =>
        obtain ⟨name, node⟩ := entry
        obtain ⟨name', node'⟩ := entry'
        obtain rfl : name' = name := hentry.name
        rw [List.foldl_cons, List.foldl_cons, ih']
        simp only [hentry.twin.isDirectory]

section Reports

variable (h : env.Alike hidden env')
include h

theorem isReady_alike : isReady env' = isReady env := by
  rw [isReady, isReady, h.home, FileTree.get?, FileTree.get?]
  rcases h.tree.node?_cases (Path.normalize (Path.join env.home toolScript)) with
    ⟨hnone, hnone'⟩ | ⟨node, node', hfound, hfound', htwin, -⟩
  · rw [hnone, hnone']
  · rw [hfound, hfound', Option.any_some, Option.any_some, htwin.isDirectory, htwin.permissions]

theorem systemInfo_alike : systemInfo env' = systemInfo env := by
  have hlength : env'.tree.nodes.length = env.tree.nodes.length := by
    have hkeys := congrArg List.length h.tree.keys
    rwa [FileTree.keys, FileTree.keys, List.length_map, List.length_map] at hkeys
  have hcount : env'.tree.countBelow env.home = env.tree.countBelow env.home := by
    rw [FileTree.countBelow, FileTree.countBelow, hlength, countTo_alike h.tree]
  unfold systemInfo
  rw [h.home, h.user, h.cwd, h.now, hcount]

theorem fileManager_alike : fileManager env' = fileManager env := by
  have hentries := h.tree.list env.cwd
  unfold fileManager
  rw [h.cwd]
  generalize env.tree.list env.cwd = entries at hentries ⊢
  generalize env'.tree.list env.cwd = entries' at hentries ⊢
  cases hentries with
  | error e => rfl
  | ok hentries =>
    have hlines := FileTree.map_of_entryTwins (fun e => e.2.longLine e.1)
      (fun _ _ _ htwin => htwin.longLine _) hentries
    simp only [Outcome.ok_bind, hlines]

/-- The counts are the same if no log file is hidden. -/
theorem logAnalysis_alike (hlogs : ∀ key, IsLog env key → ¬ hidden key) :
    logAnalysis env' = logAnalysis env := by
  have hentries := h.tree.list (Path.join env.home "logs")
  unfold logAnalysis
  rw [h.home]
  generalize hlist : env.tree.list (Path.join env.home "logs") = entries at hentries ⊢
  generalize env'.tree.list (Path.join env.home "logs") = entries' at hentries ⊢
  cases hentries with
  | error e => rfl
  | @ok entries entries' hentries =>
    have hshown : ∀ entry ∈ entries, ".log".toList.isSuffixOf entry.1.toList = true →
        ¬ hidden (Path.join (Path.normalize (Path.join env.home "logs")) entry.1) :=
      fun entry hentry hsuffix => hlogs _ ⟨entries, hlist, entry, hentry, hsuffix, rfl⟩
    clear hlist
    have hreports : ∀ report : String × Node → Option String,
        (∀ entry, ".log".toList.isSuffixOf entry.1.toList = false → report entry = none) →
        entries'.filterMap report = entries.filterMap report := by
      intro report hreport
      induction hentries with
      | nil => rfl
      | @cons entry entry' rest rest' hentry _ ih =>
        obtain ⟨hfirst, hrest⟩ := List.forall_mem_cons.mp hshown
        have ih := ih hrest
        cases hsuffix : ".log".toList.isSuffixOf entry.1.toList with
        | false =>
          rw [List.filterMap_cons_none (hreport entry hsuffix),
            List.filterMap_cons_none (hreport entry' (hentry.name ▸ hsuffix)), ih]
        | true =>
          rw [hentry.shown (hfirst hsuffix), List.filterMap_cons,
            List.filterMap_cons, ih]
    simp only [Outcome.ok_bind]
    rw [hreports]
    rintro ⟨name, node⟩ hsuffix
    exact if_neg (ne_true_of_eq_false hsuffix)

end Reports

/-- Two files to copy, under one name, and with other contents only if the file is hidden. -/
structure FileTwin (hidden : String → Prop) (key : String) (file file' : String × String) :
    Prop where
  name : file'.1 = file.1
  length : file'.2.length = file.2.length
  shown : ¬ hidden (Path.join key file.1) → file' = file

/-- The files of a directory, with their contents. -/
theorem fileTwins_of_entryTwins {key : String} {entries entries' : List (String × Node)}
    (h : List.Forall₂ (FileTree.EntryTwin hidden key) entries entries') :
    List.Forall₂ (FileTwin hidden key)
      (entries.filterMap fun (name, node) => node.content?.map fun content => (name, content))
      (entries'.filterMap fun (name, node) => node.content?.map fun content => (name, content)) := by
  refine List.rel_filterMap ?_ h
  rintro ⟨name, node⟩ ⟨name', node'⟩ hentry
  obtain rfl : name' = name := hentry.name
  rcases hentry.twin.eq_or_files with heq | ⟨content, content', hbody, hbody', hlength⟩
  · obtain rfl : node' = node := heq
    simp only
    cases node'.content? with
    | none => exact .none
    | some content => exact .some ⟨rfl, rfl, fun _ => rfl⟩
  · simp only at hbody hbody'
    simp only [Node.content?, hbody, hbody', Option.map_some]
    refine .some ⟨rfl, hlength, fun hkey => ?_⟩
    have hnodes : node' = node := congrArg Prod.snd (hentry.shown hkey)
    rw [hnodes, hbody, NodeBody.file.injEq] at hbody'
    rw [hbody']

theorem alike_ensureBackup (h : env.Alike hidden env') :
    Paired (FileTree.Alike hidden) (ensureBackup env) (ensureBackup env') := by
  rw [ensureBackup, ensureBackup, h.home, h.now, h.tree.contains]
  split
  · exact .ok h.tree
  · exact h.tree.createDirectory _ _ _

/-- What is hidden after a backup: what was hidden before, and the copies of hidden files. -/
def HiddenAfter (env : Environment) (hidden : String → Prop) (key : String) : Prop :=
  hidden key ∨ ∃ f, hidden f ∧ IsCopy env f key

theorem alike_backupFile (h : env.Alike hidden env') {t t' : FileTree}
    (ht : FileTree.Alike (HiddenAfter env hidden) t t') {file file' : String × String}
    (hfile : FileTwin hidden (Path.normalize env.home) file file') :
    Paired (fun r r' => r'.1 = r.1 ∧ FileTree.Alike (HiddenAfter env hidden) r.2 r'.2)
      (backupFile env t file) (backupFile env' t' file') := by
  obtain ⟨name, content⟩ := file
  obtain ⟨name', content'⟩ := file'
  obtain rfl : name' = name := hfile.name
  rw [backupFile, backupFile, h.home, h.now]
  refine (ht.writeFile _ _ hfile.length ?_ .overwrite env.now).map
    fun _ _ hwritten => ⟨rfl, hwritten⟩
  intro hname hkey
  refine congrArg Prod.snd (hfile.shown fun hhidden => hkey ?_)
  exact Or.inr ⟨_, hhidden, name', isComponent_of_isFileName hname, rfl, rfl⟩

/-- A backup reports the same, and only the copies of hidden files come to differ. -/
theorem alike_backup (h : env.Alike hidden env') :
    Outcome.Alike (HiddenAfter env hidden) (backup env) (backup env') := by
  have hmade := alike_ensureBackup h
  have hmore : ∀ key, hidden key → HiddenAfter env hidden key := fun _ => Or.inl
  obtain ⟨tree', htree', rfl⟩ := h
  unfold backup
  generalize ensureBackup env = made at hmade ⊢
  generalize ensureBackup { env with tree := tree' } = made' at hmade ⊢
  cases hmade with
  | error e => exact ⟨rfl, tree', htree'.mono hmore, rfl⟩
  | @ok tree tree'' ht =>
    have hentries := ht.list env.home
    simp only
    generalize tree.list env.home = entries at hentries ⊢
    generalize tree''.list env.home = entries' at hentries ⊢
    cases hentries with
    | error e => exact ⟨rfl, tree'', ht.mono hmore, rfl⟩
    | ok hentries =>
      have hfiles := fileTwins_of_entryTwins hentries
      obtain ⟨hresult, htrees⟩ := alike_eachOperand (R := FileTwin hidden (Path.normalize env.home))
        (fun _ _ _ _ ht hfile => alike_backupFile ⟨tree', htree', rfl⟩ ht hfile) hfiles
        (ht.mono hmore)
      exact ⟨by simp only [hresult, hfiles.length_eq], _, htrees, rfl⟩

theorem alike_call (h : env.Alike hidden env') (function : String) :
    (function ≠ "log-analysis" ∨ (∀ key, IsLog env key → ¬ hidden key) →
        (call function env').1 = (call function env).1) ∧
      Environment.Alike (HiddenAfter env hidden) (call function env).2 (call function env').2 := by
  have hafter : env.Alike (HiddenAfter env hidden) env' := by
    obtain ⟨tree, htree, rfl⟩ := h
    exact ⟨tree, htree.mono fun _ => Or.inl, rfl⟩
  unfold call
  split
  · exact ⟨fun _ => by rw [systemInfo_alike h], hafter⟩
  · exact ⟨fun _ => rfl, hafter⟩
  · refine ⟨fun hlogs => ?_, hafter⟩
    rw [logAnalysis_alike h (hlogs.resolve_left fun hne => hne rfl)]
  · exact ⟨fun _ => (alike_backup h).answer, (alike_backup h).left⟩
  · exact ⟨fun _ => fileManager_alike h, hafter⟩
  · exact ⟨fun _ => rfl, hafter⟩

/-- The text of one file shows in the answers of the tool only if the file is a log file and its
lines are counted, and elsewhere in the tree only in the copy that a backup makes of the file. -/
theorem run_alike_but_copy (f : String) (h : env.Alike (· = f) env') (args : List String) :
    (args.headD "" ≠ "log-analysis" ∨ ¬ IsLog env f → (run args env').1 = (run args env).1) ∧
      Environment.Alike (fun key => key = f ∨ IsCopy env f key) (run args env).2
        (run args env').2 := by
  have hhidden : HiddenAfter env (· = f) = fun key => key = f ∨ IsCopy env f key := by
    funext key
    simp [HiddenAfter]
  rw [← hhidden, run, run, isReady_alike h]
  split
  · obtain ⟨hanswer, hleft⟩ := alike_call h (args.headD "")
    refine ⟨fun hcase => ?_, hleft⟩
    have hlogs : args.headD "" ≠ "log-analysis" ∨ ∀ key, IsLog env key → ¬ key = f :=
      hcase.imp_right fun hf key hkey heq => hf (heq ▸ hkey)
    exact congrArg (Except.map _) (hanswer hlogs)
  · obtain ⟨tree, htree, rfl⟩ := h
    exact ⟨fun _ => rfl, tree, htree.mono fun _ => Or.inl, rfl⟩

/-- A root directory with the tool, a log file and another file, for a home. Nobody may read the two
files. -/
def guarded (log secret : String) : Environment where
  cwd := "/"
  home := "/"
  user := "quest"
  tree :=
    let folder : Node := ⟨.directoryDefault, "quest", "quest", ⟨0⟩, .directory ⟨0⟩ []⟩
    let file (permissions : Permissions) (text : String) : Node :=
      ⟨permissions, "quest", "quest", ⟨0⟩, .file text⟩
    (((((FileTree.empty "quest" "quest" ⟨0⟩).insertChild "/" "scripts" folder ⟨0⟩).insertChild
      "/scripts" "admin_tool.sh" (file ⟨.all, .none, .none⟩ "") ⟨0⟩).insertChild
      "/" "logs" folder ⟨0⟩).insertChild
      "/logs" "a.log" (file ⟨.none, .none, .none⟩ log) ⟨0⟩).insertChild
      "/" "secret" (file ⟨.none, .none, .none⟩ secret) ⟨0⟩
  vars := {}
  history := []
  now := ⟨0⟩

theorem guarded_log_alike :
    (guarded "INFO" "one").Alike (· = "/logs/a.log") (guarded "WARN" "one") := by
  have hfound : (guarded "INFO" "one").tree.node? "/logs/a.log" =
      some ⟨⟨.none, .none, .none⟩, "quest", "quest", ⟨0⟩, .file "INFO"⟩ := by decide +kernel
  exact ⟨_, FileTree.alike_put_content hfound rfl "WARN" (by decide), by decide +kernel⟩

theorem guarded_secret_alike :
    (guarded "INFO" "one").Alike (· = "/secret") (guarded "INFO" "two") := by
  have hfound : (guarded "INFO" "one").tree.node? "/secret" =
      some ⟨⟨.none, .none, .none⟩, "quest", "quest", ⟨0⟩, .file "one"⟩ := by decide +kernel
  exact ⟨_, FileTree.alike_put_content hfound rfl "two" (by decide), by decide +kernel⟩

theorem run_alike_but_copy_of_secret :
    (guarded "INFO" "one").Alike (· = "/secret") (guarded "INFO" "two") ∧
      (run ["backup"] (guarded "INFO" "two")).1 = (run ["backup"] (guarded "INFO" "one")).1 ∧
      Environment.Alike (fun key => key = "/secret" ∨ IsCopy (guarded "INFO" "one") "/secret" key)
        (run ["backup"] (guarded "INFO" "one")).2 (run ["backup"] (guarded "INFO" "two")).2 := by
  obtain ⟨hanswer, hleft⟩ := run_alike_but_copy "/secret" guarded_secret_alike ["backup"]
  exact ⟨guarded_secret_alike, hanswer (Or.inl (by decide)), hleft⟩

/-- The counts of a log file and the copy of a file both disclose a text that nobody may read. -/
theorem run_discloses_text :
    isReady (guarded "INFO" "one") = true ∧
      ((guarded "INFO" "one").Alike (· = "/logs/a.log") (guarded "WARN" "one") ∧
        (guarded "INFO" "one").tree.Unreadable (· = "/logs/a.log") ∧
        (run ["log-analysis"] (guarded "WARN" "one")).1 ≠
          (run ["log-analysis"] (guarded "INFO" "one")).1) ∧
      ((guarded "INFO" "one").Alike (· = "/secret") (guarded "INFO" "two") ∧
        (guarded "INFO" "one").tree.Unreadable (· = "/secret") ∧
        (run ["backup"] (guarded "INFO" "one")).2.readOperand "/backup/secret" = .ok "one" ∧
        (run ["backup"] (guarded "INFO" "two")).2.readOperand "/backup/secret" = .ok "two") :=
  ⟨by decide +kernel, ⟨guarded_log_alike, by decide +kernel, by decide +kernel⟩,
    guarded_secret_alike, by decide +kernel, by decide +kernel, by decide +kernel⟩

end ShellTutor.Admin
