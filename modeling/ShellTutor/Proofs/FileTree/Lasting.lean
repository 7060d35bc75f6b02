import ShellTutor.Proofs.FileTree.Locality
import ShellTutor.Proofs.FileTree.Connected

/-!
# What stays in a tree

Nodes are added and changed, and nothing takes them away. Along any changes a path that names a node
goes on to name one of the same kind with the same owner and group, and a directory keeps the time
of its creation and the children that it has, before those that it gets. A write goes further: it
makes no directories.
-/

namespace ShellTutor

open ShellTutor.Path (join normalize)

/-- What a node stays, whatever becomes of it: further children are all that a directory gets. -/
structure Node.Grows (old new : Node) : Prop where
  owner : new.owner = old.owner
  group : new.group = old.group
  kind : new.isDirectory = old.isDirectory
  listing : ∀ created names, old.listing? = some (created, names) →
    ∃ more, new.listing? = some (created, names ++ more)

namespace Node

theorem Grows.refl (n : Node) : n.Grows n :=
  ⟨rfl, rfl, rfl, fun _ names h => ⟨[], by rw [List.append_nil, h]⟩⟩

theorem Grows.trans {first second third : Node} (h : first.Grows second) (h' : second.Grows third) :
    first.Grows third := by
  refine ⟨h'.owner.trans h.owner, h'.group.trans h.group, h'.kind.trans h.kind, ?_⟩
  intro created names hlisting
  obtain ⟨more, hmore⟩ := h.listing created names hlisting
  obtain ⟨further, hfurther⟩ := h'.listing created (names ++ more) hmore
  exact ⟨more ++ further, by rw [hfurther, List.append_assoc]⟩

theorem Keeps.grows {old new : Node} (h : old.Keeps new) : old.Grows new := by
  refine ⟨h.owner, h.group, h.isDirectory, fun created names hlisting => ⟨[], ?_⟩⟩
  rw [h.listing, List.append_nil, hlisting]

theorem grows_addChild (n : Node) (name : String) (now : Timestamp) :
    n.Grows (n.addChild name now) := by
  obtain ⟨permissions, owner, group, modified, body⟩ := n
  cases body with
  | file content => exact .refl _
  | directory made children =>
    refine ⟨rfl, rfl, rfl, fun created names hlisting => ⟨[name], ?_⟩⟩
    obtain ⟨rfl, rfl⟩ := Prod.mk.inj (Option.some.inj hlisting)
    rfl

end Node

namespace FileTree

variable {t t' : FileTree}

/-- Every path that names a node goes on to name what this node has grown to. -/
def Kept (t t' : FileTree) : Prop :=
  ∀ path node, t.get? path = some node → ∃ node', t'.get? path = some node' ∧ node.Grows node'

theorem Kept.refl (t : FileTree) : t.Kept t :=
  fun _ node h => ⟨node, h, .refl node⟩

theorem Kept.trans {mid : FileTree} (h : t.Kept mid) (h' : mid.Kept t') : t.Kept t' := by
  intro path node hnode
  obtain ⟨node', hmid, hgrows⟩ := h path node hnode
  obtain ⟨node'', hafter, hmore⟩ := h' path node' hmid
  exact ⟨node'', hafter, hgrows.trans hmore⟩

/-- A single change takes nothing away. -/
theorem Change.kept (h : t.Change t') : t.Kept t' := by
  intro path node hnode
  rw [get?] at hnode ⊢
  generalize normalize path = key at hnode ⊢
  cases h with
  | @add dir name new now hdir hname _ hnew _ _ =>
    have hne : key ≠ join dir name := by
      rintro rfl
      rw [hnode] at hnew
      cases hnew
    rw [node?_insertChild hdir hname, if_neg hne]
    by_cases hparent : key = dir
    · subst hparent
      exact ⟨node.addChild name now, by rw [if_pos rfl, hnode]; rfl, node.grows_addChild name now⟩
    · exact ⟨node, by rw [if_neg hparent, hnode], .refl node⟩
  | @update changed old new hold hkeeps =>
    rw [node?_put]
    by_cases hsame : key = changed
    · subst hsame
      obtain rfl : node = old := Option.some.inj (hnode.symm.trans hold)
      exact ⟨new, by rw [if_pos rfl], hkeeps.grows⟩
    · exact ⟨node, by rw [if_neg hsame, hnode], .refl node⟩

theorem Changes.kept (h : Changes t t') : t.Kept t' := by
  induction h with
  | refl => exact .refl t
  | tail _ hlast ih => exact ih.trans hlast.kept

/-- A directory after a write was one before. -/
theorem WrittenAt.hasDirectory_before {path key : String} {now : Timestamp}
    (h : t.WrittenAt path now t') (hkey : t'.HasDirectory key) : t.HasDirectory key := by
  obtain ⟨node, hnode, hdir⟩ := hkey
  rcases h.file with ⟨old, before, new, -, hchanged⟩ | ⟨content, hadded⟩
  · by_cases hsame : key = path
    · rw [hsame, hchanged.after, Option.some.injEq] at hnode
      rw [← hnode] at hdir
      cases hdir
    · exact ⟨node, (hchanged.elsewhere key hsame).symm.trans hnode, hdir⟩
  · by_cases hsame : key = path
    · rw [hsame, hadded.after, Option.some.injEq] at hnode
      rw [← hnode] at hdir
      cases hdir
    · by_cases hparent : key = Path.parent path
      · obtain ⟨parent, created, names, hbefore, hbody, -⟩ := hadded.parent
        exact ⟨parent, hparent ▸ hbefore, by rw [Node.isDirectory, hbody]⟩
      · exact ⟨node, (hadded.elsewhere key hsame hparent).symm.trans hnode, hdir⟩

end FileTree

end ShellTutor
