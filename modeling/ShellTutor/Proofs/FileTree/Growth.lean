import Mathlib.Data.List.Infix
import ShellTutor.Proofs.FileTree.Locality
import ShellTutor.Proofs.FileTree.Reachable

/-!
# Trees that grow below a directory

A directory gets names, and with each name a node and all that is below that node. `Grown` says what
such a growth leaves behind: the nodes that it added, the longer list of names in the directory, and
every other node as it was. A new node with its own growth is a growth of its directory, and growths
of one directory follow each other; so each recursion that builds a tree is told by the same two
lemmas.
-/

namespace ShellTutor

/-- The node with more children. A file stays as it is. -/
def Node.addChildren (n : Node) (names : List String) (now : Timestamp) : Node :=
  names.foldl (fun n name => n.addChild name now) n

/-- A directory without a growth of its own, as it is made, gets its first names. -/
theorem Node.addChildren_directory (permissions : Permissions) (owner group : String)
    (now : Timestamp) (before names : List String) :
    (Node.mk permissions owner group now (.directory now before)).addChildren names now =
      ⟨permissions, owner, group, now, .directory now (before ++ names)⟩ := by
  induction names generalizing before with
  | nil => simp [addChildren]
  | cons name rest ih =>
    have hstep := ih (before ++ [name])
    rw [List.append_assoc, List.singleton_append] at hstep
    exact hstep

namespace FileTree

open ShellTutor.Path (IsNormal IsComponent join ofComponents)

variable {t t' : FileTree}

/-- The directory `dir` got names, and the tree the nodes that are added with them. -/
structure Grown (t : FileTree) (dir : String) (names : List String)
    (added : List (String × Node)) (now : Timestamp) (t' : FileTree) : Prop where
  owner : t'.owner = t.owner
  group : t'.group = t.group
  keys : t'.keys = t.keys ++ added.map Prod.fst
  parent : t'.node? dir = (t.node? dir).map (·.addChildren names now)
  new : ∀ entry ∈ added, t'.node? entry.1 = some entry.2
  elsewhere : ∀ key ∈ t.keys, key ≠ dir → t'.node? key = t.node? key

namespace Grown

variable {dir name : String} {names more : List String} {added further : List (String × Node)}
  {now : Timestamp}

theorem refl (t : FileTree) (dir : String) (now : Timestamp) : Grown t dir [] [] now t where
  owner := rfl
  group := rfl
  keys := (List.append_nil _).symm
  parent := by cases t.node? dir <;> rfl
  new := by simp
  elsewhere := fun _ _ _ => rfl

theorem mem_keys (h : Grown t dir names added now t') {key : String} (hkey : key ∈ t.keys) :
    key ∈ t'.keys := by
  rw [h.keys]
  exact List.mem_append_left _ hkey

/-- A directory grows further. -/
theorem trans {mid : FileTree} (h : Grown t dir names added now mid)
    (h' : Grown mid dir more further now t') (hne : ∀ entry ∈ added, entry.1 ≠ dir) :
    Grown t dir (names ++ more) (added ++ further) now t' where
  owner := h'.owner.trans h.owner
  group := h'.group.trans h.group
  keys := by rw [h'.keys, h.keys, List.map_append, List.append_assoc]
  parent := by
    rw [h'.parent, h.parent, Option.map_map]
    refine congrArg (Option.map · (t.node? dir)) (funext fun node => ?_)
    simp [Node.addChildren]
  new := by
    intro entry hentry
    rcases List.mem_append.mp hentry with hfirst | hlast
    · have hthere : entry.1 ∈ mid.keys := by
        rw [h.keys]
        exact List.mem_append_right _ (List.mem_map_of_mem hfirst)
      rw [h'.elsewhere _ hthere (hne entry hfirst)]
      exact h.new entry hfirst
    · exact h'.new entry hlast
  elsewhere := by
    intro key hkey hother
    rw [h'.elsewhere key (h.mem_keys hkey) hother, h.elsewhere key hkey hother]

/-- A new node grows, and so does its directory. -/
theorem of_insertChild (hdir : IsNormal dir) (hname : IsComponent name)
    (hparent : t.HasDirectory dir) (hnew : t.node? (join dir name) = none) {node : Node}
    (h : Grown (t.insertChild dir name node now) (join dir name) names added now t') :
    Grown t dir [name] ((join dir name, node.addChildren names now) :: added) now t' := by
  have hfound := node?_insertChild (t := t) hdir hname node now
  have hkeys := keys_insertChild hdir hname hparent hnew node now
  have hne : dir ≠ join dir name := (Path.join_ne_dir hdir hname).symm
  have hold : ∀ key ∈ t.keys, key ∈ (t.insertChild dir name node now).keys ∧
      key ≠ join dir name := by
    intro key hkey
    refine ⟨hkeys ▸ List.mem_append_left _ hkey, ?_⟩
    rintro rfl
    exact node?_eq_none.mp hnew hkey
  constructor
  case owner => rw [h.owner, owner_insertChild]
  case group => rw [h.group, group_insertChild]
  case keys =>
    rw [h.keys, hkeys, List.append_assoc]
    rfl
  case parent =>
    rw [h.elsewhere dir (hold dir hparent.mem_keys).1 hne, hfound, if_neg hne, if_pos rfl]
    rfl
  case new =>
    intro entry hentry
    rcases List.mem_cons.mp hentry with rfl | hbelow
    · rw [h.parent, hfound, if_pos rfl, Option.map_some]
    · exact h.new entry hbelow
  case elsewhere =>
    intro key hkey hother
    rw [h.elsewhere key (hold key hkey).1 (hold key hkey).2, hfound,
      if_neg (hold key hkey).2, if_neg hother]

end Grown

/-- Nothing lies below a node that is new, so all names are free there. -/
theorem Connected.free_below (hc : t.Connected) {dir name below : String} (hdir : IsNormal dir)
    (hname : IsComponent name) (hparent : t.HasDirectory dir)
    (hnew : t.node? (join dir name) = none) (node : Node) (now : Timestamp)
    (hbelow : IsComponent below) :
    (t.insertChild dir name node now).node? (join (join dir name) below) = none := by
  have hjoin : IsNormal (join dir name) := Path.isNormal_join hdir hname
  rw [node?_eq_none, keys_insertChild hdir hname hparent hnew, List.mem_append,
    List.mem_singleton, not_or]
  constructor
  · intro hkey
    have habove := (hc.parent _ hkey (Path.join_ne_root hjoin hbelow)).mem_keys
    rw [Path.parent_join hjoin hbelow] at habove
    exact node?_eq_none.mp hnew habove
  · exact Path.join_ne_dir hjoin hbelow

section Chain

variable (owner group : String) (now : Timestamp)

/-- A directory with the default permissions that was made, with its children, at one time. -/
def directoryOf (names : List String) : Node :=
  ⟨.directoryDefault, owner, group, now, .directory now names⟩

/-- The directories on the way down from the one with the given components, each with the next
one as its only child. -/
def chain (above : List String) : List String → List (String × Node)
  | [] => []
  | next :: rest =>
    (ofComponents (above ++ [next]), directoryOf owner group now rest.head?.toList) ::
      chain (above ++ [next]) rest

theorem keys_chain (above cs : List String) :
    (chain owner group now above cs).map Prod.fst =
      cs.inits.tail.map fun way => ofComponents (above ++ way) := by
  induction cs generalizing above with
  | nil => rfl
  | cons next rest ih =>
    obtain ⟨ways, hways⟩ : ∃ ways, rest.inits = [] :: ways := by cases rest <;> simp
    rw [chain, List.map_cons, ih, List.inits_cons, List.tail_cons, hways]
    simp

/-- Every directory on the way is in the chain. -/
theorem mem_chain (above : List String) {way : List String} (hway : way ≠ [])
    (rest : List String) :
    (ofComponents (above ++ way), directoryOf owner group now rest.head?.toList) ∈
      chain owner group now above (way ++ rest) := by
  induction way generalizing above with
  | nil => exact absurd rfl hway
  | cons next way ih =>
    rw [List.cons_append, chain]
    cases way with
    | nil => exact List.mem_cons_self ..
    | cons second way =>
      have hmem := ih (above ++ [next]) (List.cons_ne_nil second way)
      rw [List.append_assoc, List.singleton_append] at hmem
      exact List.mem_cons_of_mem _ hmem

end Chain

/-- Where no name is taken, a whole chain of directories is made. -/
theorem grown_ensureFrom (now : Timestamp) {above cs : List String} (hc : t.Connected)
    (habove : ∀ c ∈ above, IsComponent c) (hcs : ∀ c ∈ cs, IsComponent c)
    (hthere : t.HasDirectory (ofComponents above))
    (hfree : ∀ name, IsComponent name → t.node? (join (ofComponents above) name) = none) :
    Grown t (ofComponents above) cs.head?.toList (chain t.owner t.group now above cs) now
      (t.ensureFrom now (ofComponents above) cs) := by
  induction cs generalizing t above with
  | nil => exact .refl t (ofComponents above) now
  | cons next rest ih =>
    have hnext : IsComponent next := hcs next (List.mem_cons_self ..)
    have hmore : ∀ c ∈ above ++ [next], IsComponent c :=
      List.forall_mem_append.mpr ⟨habove, List.forall_mem_singleton.mpr hnext⟩
    have hdir : IsNormal (ofComponents above) := Path.isNormal_ofComponents habove
    have hjoin : join (ofComponents above) next = ofComponents (above ++ [next]) :=
      Path.join_ofComponents habove next
    have hmade : (t.insertChild (ofComponents above) next (t.newDirectory now) now).HasDirectory
        (ofComponents (above ++ [next])) :=
      ⟨t.newDirectory now, by rw [node?_insertChild hdir hnext, if_pos hjoin.symm], rfl⟩
    have hconnected :
        (t.insertChild (ofComponents above) next (t.newDirectory now) now).Connected :=
      hc.insertChild hdir hnext hthere (hfree next hnext) (by simp [newDirectory, Node.children?])
    have hrest := ih hconnected hmore (fun c h => hcs c (List.mem_cons_of_mem _ h)) hmade
      fun name hname => hjoin ▸ hc.free_below hdir hnext hthere (hfree next hnext) _ now hname
    rw [owner_insertChild, group_insertChild, ← hjoin] at hrest
    have hgrown := Grown.of_insertChild hdir hnext hthere (hfree next hnext) hrest
    rw [ensureFrom, hfree next hnext, chain, ← hjoin]
    rw [newDirectory, Node.addChildren_directory] at hgrown
    exact hgrown

end FileTree

end ShellTutor
