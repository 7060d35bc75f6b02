import ShellTutor.Proofs.FileTree.Connected
import ShellTutor.Proofs.FileTree.Growth

/-!
# Files that are written into one directory

Texts are written into a directory under different names, one after the other. What a write finds
under a name is what was there before the first one, since the writes so far were under other names.
So the whole run is told by the tree that it started with: each text is in a file of its own, where
an older file keeps its permissions and its owner, the directory lists the names that are new, and
nothing else has changed.
-/

namespace ShellTutor.FileTree

open ShellTutor.Path (IsNormal IsComponent join normalize)

variable {t mid t' : FileTree} {dir name content : String} {now : Timestamp}
  {files rest : List (String × String)}

/-- The file under a key once a text is written there: a new one, or the one that is there with
another text and time. -/
def fileWith (t : FileTree) (key content : String) (now : Timestamp) : Node :=
  { (t.node? key).getD (t.newFile content now) with modified := now, body := .file content }

/-- The names of those files that are not yet in the directory. -/
def newNames (t : FileTree) (dir : String) (files : List (String × String)) : List String :=
  (files.map Prod.fst).filter fun name => (t.node? (join dir name)).isNone

/-- The files were written into the directory, and nothing else was done. -/
structure Written (t : FileTree) (dir : String) (files : List (String × String)) (now : Timestamp)
    (t' : FileTree) : Prop where
  owner : t'.owner = t.owner
  group : t'.group = t.group
  copy : ∀ file ∈ files,
    t'.node? (join dir file.1) = some (t.fileWith (join dir file.1) file.2 now)
  directory : t'.node? dir = (t.node? dir).map (·.addChildren (t.newNames dir files) now)
  elsewhere : ∀ key, key ≠ dir → (∀ file ∈ files, key ≠ join dir file.1) →
    t'.node? key = t.node? key

theorem Written.refl (t : FileTree) (dir : String) (now : Timestamp) : t.Written dir [] now t where
  owner := rfl
  group := rfl
  copy := by simp
  directory := by cases t.node? dir <;> rfl
  elsewhere := fun _ _ _ => rfl

/-- One write, of a text under a name. -/
theorem written_of_writeFile (hdir : IsNormal dir)
    (h : t.writeFile dir name content .overwrite now = .ok t') :
    t.Written dir [(name, content)] now t' := by
  have hsame : normalize dir = dir := hdir
  obtain ⟨⟨hname, hparent⟩, hwrite⟩ := writeFile_eq_ok.mp h
  rw [hsame] at hparent hwrite
  have hcomponent := isComponent_of_isFileName hname
  have hne : dir ≠ join dir name := (Path.join_ne_dir hdir hcomponent).symm
  rcases hwrite with ⟨hnew, rfl⟩ | ⟨old, text, hold, -, rfl⟩
  · have hfound := node?_insertChild (t := t) hdir hcomponent (t.newFile content now) now
    have hnames : t.newNames dir [(name, content)] = [name] := by simp [newNames, hnew]
    constructor
    case owner => rw [owner_insertChild]
    case group => rw [group_insertChild]
    case copy =>
      refine List.forall_mem_singleton.mpr ?_
      rw [hfound, if_pos rfl, fileWith, hnew]
      rfl
    case directory =>
      rw [hfound, if_neg hne, if_pos rfl, hnames]
      rfl
    case elsewhere =>
      intro key hkey hother
      rw [hfound, if_neg (hother _ (List.mem_singleton_self _)), if_neg hkey]
  · have hnames : t.newNames dir [(name, content)] = [] := by simp [newNames, hold]
    constructor
    case owner => rfl
    case group => rfl
    case copy =>
      refine List.forall_mem_singleton.mpr ?_
      rw [node?_put, if_pos rfl, fileWith, hold]
      rfl
    case directory =>
      rw [node?_put, if_neg hne, hnames]
      exact Option.map_id'.symm
    case elsewhere =>
      intro key _ hother
      rw [node?_put, if_neg (hother _ (List.mem_singleton_self _))]

/-- Under another name, a write is not noticed. -/
theorem Written.node?_other (h : t.Written dir [(name, content)] now mid) (hdir : IsNormal dir)
    (hname : IsComponent name) {other : String} (hother : IsComponent other) (hne : other ≠ name) :
    mid.node? (join dir other) = t.node? (join dir other) := by
  refine h.elsewhere _ (Path.join_ne_dir hdir hother) ?_
  refine List.forall_mem_singleton.mpr fun hsame => ?_
  rw [← Path.lastName_join hdir hother, hsame, Path.lastName_join hdir hname] at hne
  exact hne rfl

/-- A write, and then others under other names. -/
theorem Written.cons (hdir : IsNormal dir) (hname : IsComponent name)
    (hrest : ∀ file ∈ rest, IsComponent file.1) (hnew : name ∉ rest.map Prod.fst)
    (h : t.Written dir [(name, content)] now mid) (h' : mid.Written dir rest now t') :
    t.Written dir ((name, content) :: rest) now t' := by
  have hother : ∀ file ∈ rest, mid.node? (join dir file.1) = t.node? (join dir file.1) := by
    intro file hfile
    refine h.node?_other hdir hname (hrest file hfile) ?_
    rintro rfl
    exact hnew (List.mem_map_of_mem hfile)
  have hcopies : ∀ file ∈ rest,
      mid.fileWith (join dir file.1) file.2 now = t.fileWith (join dir file.1) file.2 now := by
    intro file hfile
    rw [fileWith, fileWith, hother file hfile, newFile, newFile, h.owner, h.group]
  have hnames : t.newNames dir ((name, content) :: rest) =
      t.newNames dir [(name, content)] ++ mid.newNames dir rest := by
    have hlater : mid.newNames dir rest = t.newNames dir rest := by
      refine List.filter_congr fun other hmem => ?_
      obtain ⟨file, hfile, rfl⟩ := List.mem_map.mp hmem
      rw [hother file hfile]
    rw [hlater, newNames, newNames, newNames, ← List.filter_append, ← List.map_append]
    rfl
  constructor
  case owner => rw [h'.owner, h.owner]
  case group => rw [h'.group, h.group]
  case copy =>
    refine List.forall_mem_cons.mpr ⟨?_, fun file hfile => ?_⟩
    · rw [h'.elsewhere _ (Path.join_ne_dir hdir hname), h.copy _ (List.mem_singleton_self _)]
      intro file hfile hsame
      refine hnew (List.mem_map.mpr ⟨file, hfile, ?_⟩)
      rw [← Path.lastName_join hdir (hrest file hfile), ← hsame, Path.lastName_join hdir hname]
    · rw [h'.copy file hfile, hcopies file hfile]
  case directory =>
    rw [h'.directory, h.directory, Option.map_map, hnames]
    refine congrArg (Option.map · (t.node? dir)) (funext fun node => ?_)
    simp [Node.addChildren]
  case elsewhere =>
    intro key hkey hothers
    obtain ⟨hfirst, hlater⟩ := List.forall_mem_cons.mp hothers
    rw [h'.elsewhere key hkey hlater,
      h.elsewhere key hkey (List.forall_mem_singleton.mpr hfirst)]

end ShellTutor.FileTree
