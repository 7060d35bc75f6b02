import Mathlib.Data.List.Nodup
import Mathlib.Logic.Relation
import ShellTutor.FileTree.Load
import ShellTutor.Proofs.FileTree.Change

/-!
# The tree as keys and as child lists

A tree is kept twice: as nodes under their keys, and as the names that directories list. `Connected`
says that the second can be read off the first. A directory lists the names of the keys that have it
for a parent, in the order in which these were created. Every change keeps this, so it holds of each
tree that seeds and calls can make.
-/

namespace ShellTutor.FileTree

open ShellTutor.Path (IsNormal IsComponent join normalize lastName)

variable {t t' : FileTree}

/-- The tree after any number of changes. -/
def Changes : FileTree → FileTree → Prop :=
  Relation.ReflTransGen Change

/-- A directory with one more child, or elsewhere, is still there. -/
theorem HasDirectory.insertChild {dir name : String} (hdir : IsNormal dir)
    (hname : IsComponent name) (hnew : t.node? (join dir name) = none) (new : Node)
    (now : Timestamp) {key : String} (hkey : t.HasDirectory key) :
    (t.insertChild dir name new now).HasDirectory key := by
  obtain ⟨node, hnode, hisdir⟩ := hkey
  have hne : key ≠ join dir name := by
    rintro rfl
    rw [hnode] at hnew
    cases hnew
  rw [HasDirectory, node?_insertChild hdir hname, if_neg hne]
  by_cases heq : key = dir
  · subst heq
    exact ⟨node.addChild name now, by simp [hnode], by rw [Node.isDirectory_addChild, hisdir]⟩
  · exact ⟨node, by rw [if_neg heq, hnode], hisdir⟩

/-- No change takes a directory away or makes a file of it. -/
theorem Change.hasDirectory (h : t.Change t') {key : String} (hkey : t.HasDirectory key) :
    t'.HasDirectory key := by
  cases h with
  | add hdir hname _ hnew _ _ => exact hkey.insertChild hdir hname hnew _ _
  | @update changed old new hold hkeeps =>
    obtain ⟨node, hnode, hisdir⟩ := hkey
    rw [HasDirectory, node?_put]
    by_cases heq : key = changed
    · subst heq
      rw [hnode, Option.some.injEq] at hold
      subst hold
      exact ⟨new, by rw [if_pos rfl], by rw [hkeeps.isDirectory, hisdir]⟩
    · exact ⟨node, by rw [if_neg heq, hnode], hisdir⟩

theorem Changes.hasDirectory (h : Changes t t') {key : String} (hkey : t.HasDirectory key) :
    t'.HasDirectory key := by
  induction h with
  | refl => exact hkey
  | tail _ hlast ih => exact hlast.hasDirectory ih

/-- Keys keep their order, and a new one comes behind them. -/
theorem Change.keys_grow (h : t.Change t') : t.keys <+: t'.keys := by
  cases h with
  | add hdir hname hparent hnew _ _ =>
    rw [keys_insertChild hdir hname hparent hnew]
    exact List.prefix_append _ _
  | update hold _ =>
    exact ⟨[], by rw [List.append_nil, keys_put_of_mem (mem_keys_of_node? hold)]⟩

theorem Changes.keys_grow (h : Changes t t') : t.keys <+: t'.keys := by
  induction h with
  | refl => exact List.prefix_refl _
  | tail _ hlast ih => exact ih.trans hlast.keys_grow

variable (t) in
/-- The last components of the keys that have a directory for a parent, oldest first. -/
def childNames (dir : String) : List String :=
  (t.keys.filter fun key => key ≠ "/" && Path.parent key == dir).map lastName

/-- The two views of a tree fit each other. -/
structure Connected (t : FileTree) : Prop where
  root : t.HasDirectory "/"
  normal : ∀ key ∈ t.keys, IsNormal key
  nodup : t.keys.Nodup
  parent : ∀ key ∈ t.keys, key ≠ "/" → t.HasDirectory (Path.parent key)
  children : ∀ key node names, t.node? key = some node → node.children? = some names →
    names = t.childNames key

theorem mem_childNames {dir name : String} :
    name ∈ t.childNames dir ↔
      ∃ key ∈ t.keys, key ≠ "/" ∧ Path.parent key = dir ∧ lastName key = name := by
  simp [childNames, and_assoc]

/-- A new node is the youngest child of its directory and has no children itself. -/
theorem childNames_insertChild {dir name : String} (hdir : IsNormal dir) (hname : IsComponent name)
    (hparent : t.HasDirectory dir) (hnew : t.node? (join dir name) = none) (node : Node)
    (now : Timestamp) (other : String) :
    (t.insertChild dir name node now).childNames other =
      t.childNames other ++ if other = dir then [name] else [] := by
  have hroot := Path.join_ne_root hdir hname
  have hparent' := Path.parent_join hdir hname
  rw [childNames, keys_insertChild hdir hname hparent hnew, List.filter_append, List.map_append,
    childNames]
  by_cases heq : other = dir
  · simp [heq, hroot, hparent', Path.lastName_join hdir hname]
  · have hne : dir ≠ other := fun h => heq h.symm
    simp [heq, hne, hparent']

/-- No key lies below one that is missing: it would have made a directory of it. -/
theorem Connected.childNames_of_missing (hc : t.Connected) {dir : String}
    (hmissing : dir ∉ t.keys) : t.childNames dir = [] := by
  refine List.eq_nil_iff_forall_not_mem.mpr fun name hname => ?_
  obtain ⟨key, hkey, hne, hbelow, -⟩ := mem_childNames.mp hname
  exact hmissing (hbelow ▸ (hc.parent key hkey hne).mem_keys)

theorem Connected.insertChild (hc : t.Connected) {dir name : String} {node : Node} {now : Timestamp}
    (hdir : IsNormal dir) (hname : IsComponent name) (hparent : t.HasDirectory dir)
    (hnew : t.node? (join dir name) = none) (hempty : ∀ names ∈ node.children?, names = []) :
    (t.insertChild dir name node now).Connected := by
  have hkept {key : String} (hkey : t.HasDirectory key) :
      (t.insertChild dir name node now).HasDirectory key :=
    hkey.insertChild hdir hname hnew node now
  have hkeys := keys_insertChild hdir hname hparent hnew node now
  have hmissing : join dir name ∉ t.keys := node?_eq_none.mp hnew
  refine ⟨hkept hc.root, ?_, ?_, ?_, ?_⟩
  · intro key hkey
    rw [hkeys, List.mem_append, List.mem_singleton] at hkey
    rcases hkey with hkey | rfl
    · exact hc.normal key hkey
    · exact Path.isNormal_join hdir hname
  · rw [hkeys, ← List.concat_eq_append]
    exact hc.nodup.concat hmissing
  · intro key hkey hne
    rw [hkeys, List.mem_append, List.mem_singleton] at hkey
    rcases hkey with hkey | rfl
    · exact hkept (hc.parent key hkey hne)
    · rw [Path.parent_join hdir hname]
      exact hkept hparent
  · intro key found names hfound hchildren
    rw [node?_insertChild hdir hname] at hfound
    rw [childNames_insertChild hdir hname hparent hnew]
    by_cases hjoin : key = join dir name
    · rw [if_pos hjoin, Option.some.injEq] at hfound
      subst hfound hjoin
      rw [hempty names hchildren, hc.childNames_of_missing hmissing,
        if_neg (Path.join_ne_dir hdir hname), List.append_nil]
    · rw [if_neg hjoin] at hfound
      by_cases heq : key = dir
      · subst heq
        rw [if_pos rfl, Option.map_eq_some_iff] at hfound
        obtain ⟨old, hold, rfl⟩ := hfound
        rw [Node.children?_addChild, Option.map_eq_some_iff] at hchildren
        obtain ⟨before, hbefore, rfl⟩ := hchildren
        rw [if_pos rfl, hc.children key old before hold hbefore]
      · rw [if_neg heq] at hfound
        rw [if_neg heq, List.append_nil]
        exact hc.children key found names hfound hchildren

theorem Connected.put (hc : t.Connected) {key : String} {old new : Node}
    (hold : t.node? key = some old) (hkeeps : old.Keeps new) : (t.put key new).Connected := by
  have hchange : t.Change (t.put key new) := .update hold hkeeps
  have hkeys : (t.put key new).keys = t.keys := keys_put_of_mem (mem_keys_of_node? hold) new
  refine ⟨hchange.hasDirectory hc.root, ?_, ?_, ?_, ?_⟩
  · rw [hkeys]
    exact hc.normal
  · rw [hkeys]
    exact hc.nodup
  · intro other hother hne
    rw [hkeys] at hother
    exact hchange.hasDirectory (hc.parent other hother hne)
  · intro other found names hfound hchildren
    rw [childNames, hkeys]
    rw [node?_put] at hfound
    by_cases heq : other = key
    · rw [if_pos heq, Option.some.injEq] at hfound
      subst hfound heq
      exact hc.children other old names hold (by rw [← hkeeps.children, hchildren])
    · rw [if_neg heq] at hfound
      exact hc.children other found names hfound hchildren

theorem Connected.change (hc : t.Connected) (h : t.Change t') : t'.Connected := by
  cases h with
  | add hdir hname hparent hnew hempty _ => exact hc.insertChild hdir hname hparent hnew hempty
  | update hold hkeeps => exact hc.put hold hkeeps

theorem Connected.changes (hc : t.Connected) (h : Changes t t') : t'.Connected := by
  induction h with
  | refl => exact hc
  | tail _ hlast ih => exact ih.change hlast

end ShellTutor.FileTree
