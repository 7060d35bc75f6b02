import ShellTutor.Proofs.FileTree.Growth
import ShellTutor.Proofs.Path.Resolve
import ShellTutor.Proofs.Permission.Octal

/-!
# What a seed grows into

Loading a seed is read as a growth of its home directory. What may be wrong with a seed is seen on
the seed alone, level by level: a name that siblings share, or a mode that is no octal number. If
neither is the case, the seed is loaded as a whole, and there is a node for each of its entries and
for no other path below home. Entries that loading skips are left out first, by `cleanAll`.
-/

namespace ShellTutor

open ShellTutor.Path (IsNormal IsComponent join normalize ofComponents components)

namespace SeedEntry

mutual

/-- The entry as it is loaded: a file has no children, and a directory has those whose names can be
components of a path. -/
def clean : SeedEntry → SeedEntry
  | ⟨name, kind, content, mode, owner, group, children⟩ =>
    match kind with
    | .file => ⟨name, .file, content, mode, owner, group, []⟩
    | .directory => ⟨name, .directory, content, mode, owner, group, cleanAll children⟩

/-- A seed without the entries that loading skips, at all levels. -/
def cleanAll : List SeedEntry → List SeedEntry
  | [] => []
  | entry :: rest =>
    if isFileName entry.name then clean entry :: cleanAll rest else cleanAll rest

end

mutual

/-- An entry of the directory `dir` and all that is in it, each under its path. -/
def placed (dir : String) : SeedEntry → List (String × SeedEntry)
  | ⟨name, kind, content, mode, owner, group, children⟩ =>
    (join dir name, ⟨name, kind, content, mode, owner, group, children⟩) ::
      placedAll (join dir name) children

/-- The entries of the directory `dir` and all that is in them, each under its path. -/
def placedAll (dir : String) : List SeedEntry → List (String × SeedEntry)
  | [] => []
  | entry :: rest => placed dir entry ++ placedAll dir rest

end

/-- The permissions that the mode of an entry spells, or else those of its kind. -/
def permissions (e : SeedEntry) : Permissions :=
  (e.mode.bind fun mode => (Permissions.ofOctal mode).toOption).getD e.kind.defaultPermissions

/-- The node that an entry stands for. A directory lists its entries in the order of the seed. -/
def node (owner group : String) (now : Timestamp) (e : SeedEntry) : Node where
  permissions := e.permissions
  owner := e.owner.getD owner
  group := e.group.getD group
  modified := now
  body :=
    match e.kind with
    | .file => .file (e.content.getD "")
    | .directory => .directory now (e.children.map name)

/-- The lists of siblings in a seed, at whatever depth. -/
inductive IsLevel : List SeedEntry → List SeedEntry → Prop
  | top (entries : List SeedEntry) : IsLevel entries entries
  | inside {entries level : List SeedEntry} {e : SeedEntry} (he : e ∈ entries)
      (h : IsLevel e.children level) : IsLevel entries level

/-- Siblings have different names, and each mode is an octal number. -/
structure Distinct (level : List SeedEntry) : Prop where
  names : (level.map name).Nodup
  modes : ∀ e ∈ level, ∀ mode ∈ e.mode, Permissions.IsOctal mode

/-- A seed in which nothing is wrong at any level. -/
def Plantable (entries : List SeedEntry) : Prop :=
  ∀ level, IsLevel entries level → Distinct level

theorem plantable_nil : Plantable [] := by
  intro level h
  cases h with
  | top => exact ⟨List.nodup_nil, by simp⟩
  | inside he => cases he

theorem plantable_cons {e : SeedEntry} {rest : List SeedEntry} :
    Plantable (e :: rest) ↔
      e.name ∉ rest.map name ∧ (∀ mode ∈ e.mode, Permissions.IsOctal mode) ∧
        Plantable e.children ∧ Plantable rest := by
  constructor
  · intro h
    obtain ⟨hnames, hmodes⟩ := h _ (.top _)
    rw [List.map_cons, List.nodup_cons] at hnames
    obtain ⟨hmode, hmodes⟩ := List.forall_mem_cons.mp hmodes
    refine ⟨hnames.1, hmode,
      fun level hlevel => h level (.inside (List.mem_cons_self ..) hlevel), ?_⟩
    intro level hlevel
    cases hlevel with
    | top => exact ⟨hnames.2, hmodes⟩
    | inside he hbelow => exact h level (.inside (List.mem_cons_of_mem _ he) hbelow)
  · rintro ⟨hname, hmode, hchildren, hrest⟩ level hlevel
    cases hlevel with
    | top =>
      obtain ⟨hnames, hmodes⟩ := hrest rest (.top rest)
      exact ⟨List.nodup_cons.mpr ⟨hname, hnames⟩, List.forall_mem_cons.mpr ⟨hmode, hmodes⟩⟩
    | inside he hbelow =>
      rcases List.mem_cons.mp he with rfl | he
      · exact hchildren level hbelow
      · exact hrest level (.inside he hbelow)

theorem name_clean (e : SeedEntry) : e.clean.name = e.name := by
  obtain ⟨name, kind, content, mode, owner, group, children⟩ := e
  cases kind <;> rfl

theorem mode_clean (e : SeedEntry) : e.clean.mode = e.mode := by
  obtain ⟨name, kind, content, mode, owner, group, children⟩ := e
  cases kind <;> rfl

theorem placed_eq (dir : String) (e : SeedEntry) :
    e.placed dir = (join dir e.name, e) :: placedAll (join dir e.name) e.children := by
  cases e
  rfl

theorem isFileName_of_mem_cleanAll {entries : List SeedEntry} {e : SeedEntry}
    (h : e ∈ cleanAll entries) : isFileName e.name = true := by
  induction entries with
  | nil => cases h
  | cons first rest ih =>
    rw [cleanAll] at h
    split at h
    · rename_i hname
      rcases List.mem_cons.mp h with rfl | h
      · rw [name_clean, hname]
      · exact ih h
    · exact ih h

theorem placedAll_cons (dir : String) (e : SeedEntry) (rest : List SeedEntry) :
    placedAll dir (e :: rest) = placed dir e ++ placedAll dir rest := by
  rw [placedAll]

theorem mem_placedAll_of_mem {dir : String} {level : List SeedEntry} {e : SeedEntry}
    (h : e ∈ level) : (join dir e.name, e) ∈ placedAll dir level := by
  induction level with
  | nil => cases h
  | cons first rest ih =>
    rw [placedAll_cons]
    rcases List.mem_cons.mp h with rfl | h
    · rw [placed_eq]
      exact List.mem_append_left _ (List.mem_cons_self ..)
    · exact List.mem_append_right _ (ih h)

mutual

/-- What is in an entry lies at its name or below it. -/
theorem components_placed {dir : String} (hdir : IsNormal dir) (e : SeedEntry)
    (hname : isFileName e.name = true) {p : String × SeedEntry} (hp : p ∈ placed dir e.clean) :
    ∃ rest, components p.1 = components dir ++ e.name :: rest := by
  obtain ⟨name, kind, content, mode, owner, group, children⟩ := e
  have hcomponent := isComponent_of_isFileName hname
  have hself : components (join dir name) = components dir ++ [name] :=
    Path.components_join hdir hcomponent
  rw [placed_eq, name_clean] at hp
  rcases List.mem_cons.mp hp with rfl | hp
  · exact ⟨[], hself⟩
  · cases kind with
    | file => simp [clean, placedAll] at hp
    | directory =>
      obtain ⟨child, -, rest, hrest⟩ :=
        components_placedAll (Path.isNormal_join hdir hcomponent) children hp
      exact ⟨child.name :: rest, by rw [hrest, hself, List.append_assoc]; rfl⟩

theorem components_placedAll {dir : String} (hdir : IsNormal dir) (entries : List SeedEntry)
    {p : String × SeedEntry} (hp : p ∈ placedAll dir (cleanAll entries)) :
    ∃ e ∈ cleanAll entries, ∃ rest, components p.1 = components dir ++ e.name :: rest := by
  cases entries with
  | nil => cases hp
  | cons e rest =>
    rw [cleanAll] at hp ⊢
    by_cases hname : isFileName e.name = true
    · rw [if_pos hname] at hp ⊢
      rw [placedAll_cons] at hp
      rcases List.mem_append.mp hp with hp | hp
      · obtain ⟨below, hbelow⟩ := components_placed hdir e hname hp
        exact ⟨e.clean, List.mem_cons_self .., below, by rw [hbelow, name_clean]⟩
      · obtain ⟨other, hother, hbelow⟩ := components_placedAll hdir rest hp
        exact ⟨other, List.mem_cons_of_mem _ hother, hbelow⟩
    · rw [if_neg hname] at hp ⊢
      exact components_placedAll hdir rest hp

end

mutual

/-- With an entry its children have their places. -/
theorem mem_placed_of_child {dir : String} (top : SeedEntry) {p : String × SeedEntry}
    {child : SeedEntry} (hp : p ∈ placed dir top) (hchild : child ∈ p.2.children) :
    (join p.1 child.name, child) ∈ placed dir top := by
  obtain ⟨name, kind, content, mode, owner, group, children⟩ := top
  rw [placed_eq] at hp ⊢
  rcases List.mem_cons.mp hp with rfl | hp
  · exact List.mem_cons_of_mem _ (mem_placedAll_of_mem hchild)
  · exact List.mem_cons_of_mem _ (mem_placedAll_of_child children hp hchild)

theorem mem_placedAll_of_child {dir : String} (level : List SeedEntry) {p : String × SeedEntry}
    {child : SeedEntry} (hp : p ∈ placedAll dir level) (hchild : child ∈ p.2.children) :
    (join p.1 child.name, child) ∈ placedAll dir level := by
  cases level with
  | nil => cases hp
  | cons e rest =>
    rw [placedAll_cons] at hp ⊢
    rcases List.mem_append.mp hp with hp | hp
    · exact List.mem_append_left _ (mem_placed_of_child e hp hchild)
    · exact List.mem_append_right _ (mem_placedAll_of_child rest hp hchild)

end

end SeedEntry

namespace FileTree

open SeedEntry (clean cleanAll placed placedAll Plantable)

variable {t t' : FileTree}

theorem seedPermissions_eq_ok {e : SeedEntry} {permissions : Permissions} :
    seedPermissions e = .ok permissions ↔
      (∀ mode ∈ e.mode, Permissions.IsOctal mode) ∧ permissions = e.permissions := by
  rw [seedPermissions, SeedEntry.permissions]
  cases hmode : e.mode with
  | none => simp [eq_comm]
  | some mode =>
    simp only [Option.mem_def, Option.some.injEq, forall_eq', ← Permissions.exists_ofOctal_iff]
    cases hread : Permissions.ofOctal mode <;> simp [hread, Except.toOption, eq_comm]

/-- The node of an entry is made where the name is free and the mode is one. -/
theorem loadNode_eq_ok {dir : String} {e : SeedEntry} {now : Timestamp} :
    t.loadNode dir e now = .ok t' ↔
      t.node? (join dir e.name) = none ∧ (∀ mode ∈ e.mode, Permissions.IsOctal mode) ∧
        t' = t.insertChild dir e.name (t.seedNode e e.permissions now) now := by
  rw [loadNode]
  cases hnode : t.node? (join dir e.name) with
  | some node => simp
  | none =>
    simp only [Outcome.bind_eq_ok, seedPermissions_eq_ok, Except.ok.injEq, true_and]
    constructor
    · rintro ⟨permissions, ⟨hmode, rfl⟩, rfl⟩
      exact ⟨hmode, rfl⟩
    · rintro ⟨hmode, rfl⟩
      exact ⟨e.permissions, ⟨hmode, rfl⟩, rfl⟩

/-- The node that an entry is loaded as, once it has all its children. -/
theorem seedNode_addChildren (t : FileTree) (e : SeedEntry) (now : Timestamp) :
    (t.seedNode e e.permissions now).addChildren (e.clean.children.map SeedEntry.name) now =
      e.clean.node t.owner t.group now := by
  obtain ⟨name, kind, content, mode, owner, group, children⟩ := e
  cases kind with
  | file => rfl
  | directory => exact Node.addChildren_directory ..

/-- The names of a level are free in the directory `dir`, and nothing is wrong at any level. -/
structure Fits (t : FileTree) (dir : String) (level : List SeedEntry) : Prop where
  free : ∀ e ∈ level, t.node? (join dir e.name) = none
  plantable : Plantable level

/-- The directory `dir` got the entries of a level with all that is in them. -/
def Sown (t : FileTree) (dir : String) (level : List SeedEntry) (now : Timestamp)
    (t' : FileTree) : Prop :=
  Grown t dir (level.map SeedEntry.name)
    ((placedAll dir level).map fun p => (p.1, p.2.node t.owner t.group now)) now t'

theorem fits_nil (t : FileTree) (dir : String) : t.Fits dir [] :=
  ⟨by simp, SeedEntry.plantable_nil⟩

theorem fits_singleton {dir : String} {e : SeedEntry} :
    t.Fits dir [e] ↔ t.node? (join dir e.name) = none ∧
      (∀ mode ∈ e.mode, Permissions.IsOctal mode) ∧ Plantable e.children := by
  constructor
  · rintro ⟨hfree, hplantable⟩
    obtain ⟨-, hmode, hchildren, -⟩ := SeedEntry.plantable_cons.mp hplantable
    exact ⟨hfree e (List.mem_singleton_self e), hmode, hchildren⟩
  · rintro ⟨hfree, hmode, hchildren⟩
    refine ⟨by simpa using hfree, SeedEntry.plantable_cons.mpr ?_⟩
    exact ⟨List.not_mem_nil, hmode, hchildren, SeedEntry.plantable_nil⟩

theorem sown_nil (t : FileTree) (dir : String) (now : Timestamp) : t.Sown dir [] now t :=
  Grown.refl t dir now

section Level

variable {dir : String} {now : Timestamp} (hdir : IsNormal dir)
include hdir

/-- All that an entry adds lies below the directory. -/
theorem Sown.keys_below {e : SeedEntry} (hname : isFileName e.name = true) {entry : String × Node}
    (hentry : entry ∈ (placedAll dir [e.clean]).map fun p => (p.1, p.2.node t.owner t.group now)) :
    ∃ rest, components entry.1 = components dir ++ e.name :: rest := by
  obtain ⟨p, hp, rfl⟩ := List.mem_map.mp hentry
  rw [SeedEntry.placedAll_cons, placedAll, List.append_nil] at hp
  exact SeedEntry.components_placed hdir e hname hp

/-- After an entry its siblings come. -/
theorem Sown.cons {e : SeedEntry} {rest : List SeedEntry} {mid : FileTree}
    (hname : isFileName e.name = true) (hfirst : t.Sown dir [e.clean] now mid)
    (hrest : mid.Sown dir rest now t') : t.Sown dir (e.clean :: rest) now t' := by
  rw [Sown, hfirst.owner, hfirst.group] at hrest
  have hgrown := hfirst.trans hrest ?_
  · rw [← List.map_append, ← List.map_append, SeedEntry.placedAll_cons, placedAll,
      List.append_nil, ← SeedEntry.placedAll_cons] at hgrown
    exact hgrown
  · intro entry hentry heq
    obtain ⟨below, hbelow⟩ := keys_below hdir hname hentry
    rw [heq] at hbelow
    simp at hbelow

/-- An entry takes its name and no other of the directory. -/
theorem fits_cons {e : SeedEntry} {entries : List SeedEntry} {mid : FileTree}
    (hname : isFileName e.name = true) (hfirst : t.Sown dir [e.clean] now mid) :
    t.Fits dir (e.clean :: cleanAll entries) ↔
      t.Fits dir [e.clean] ∧ mid.Fits dir (cleanAll entries) := by
  have hkeys := hfirst.keys
  have htaken : join dir e.name ∈ mid.keys := by
    rw [hkeys, SeedEntry.placedAll_cons, SeedEntry.placed_eq, SeedEntry.name_clean]
    simp
  constructor
  · rintro ⟨hfree, hplantable⟩
    obtain ⟨hother, hmode, hchildren, hrest⟩ := SeedEntry.plantable_cons.mp hplantable
    obtain ⟨hhere, hfree⟩ := List.forall_mem_cons.mp hfree
    refine ⟨fits_singleton.mpr ⟨hhere, hmode, hchildren⟩, ?_, hrest⟩
    intro sibling hsibling
    rw [node?_eq_none, hkeys, List.mem_append, not_or]
    refine ⟨node?_eq_none.mp (hfree sibling hsibling), fun hadded => ?_⟩
    obtain ⟨entry, hentry, heq⟩ := List.mem_map.mp hadded
    obtain ⟨below, hbelow⟩ := Sown.keys_below hdir hname hentry
    have hcomponent := isComponent_of_isFileName (SeedEntry.isFileName_of_mem_cleanAll hsibling)
    rw [heq, Path.components_join hdir hcomponent, List.append_cancel_left_eq,
      List.cons.injEq] at hbelow
    rw [SeedEntry.name_clean, ← hbelow.1] at hother
    exact hother (List.mem_map_of_mem hsibling)
  · rintro ⟨hfits, hfree, hplantable⟩
    obtain ⟨hhere, hmode, hchildren⟩ := fits_singleton.mp hfits
    constructor
    · refine List.forall_mem_cons.mpr ⟨hhere, fun sibling hsibling => ?_⟩
      have hmissing := node?_eq_none.mp (hfree sibling hsibling)
      exact node?_eq_none.mpr fun hkey => hmissing (hfirst.mem_keys hkey)
    · refine SeedEntry.plantable_cons.mpr ⟨?_, hmode, hchildren, hplantable⟩
      rintro hsame
      obtain ⟨sibling, hsibling, heq⟩ := List.mem_map.mp hsame
      rw [SeedEntry.name_clean] at heq
      rw [← heq] at htaken
      exact node?_eq_none.mp (hfree sibling hsibling) htaken

/-- An entry is its own node with what is loaded into it. -/
theorem sown_of_children {e : SeedEntry} (hparent : t.HasDirectory dir)
    (hname : isFileName e.name = true) {mid : FileTree} (hload : t.loadNode dir e now = .ok mid)
    (hchildren : mid.Fits (join dir e.name) e.clean.children ∧
      mid.Sown (join dir e.name) e.clean.children now t') :
    t.Fits dir [e.clean] ∧ t.Sown dir [e.clean] now t' := by
  obtain ⟨hnew, hmode, rfl⟩ := loadNode_eq_ok.mp hload
  obtain ⟨⟨-, hplantable⟩, hsown⟩ := hchildren
  rw [← SeedEntry.name_clean] at hnew
  rw [← SeedEntry.mode_clean] at hmode
  refine ⟨fits_singleton.mpr ⟨hnew, hmode, hplantable⟩, ?_⟩
  rw [SeedEntry.name_clean] at hnew
  rw [Sown, owner_insertChild, group_insertChild] at hsown
  have hgrown := Grown.of_insertChild hdir (isComponent_of_isFileName hname) hparent hnew hsown
  rw [seedNode_addChildren] at hgrown
  rw [Sown, SeedEntry.placedAll_cons, SeedEntry.placed_eq, placedAll, List.append_nil]
  simpa [SeedEntry.name_clean] using hgrown

end Level

theorem loadEntry_of_skipped {e : SeedEntry} (hname : ¬ isFileName e.name = true)
    (t : FileTree) (dir : String) (now : Timestamp) : loadEntry t dir now e = .ok t := by
  obtain ⟨name, kind, content, mode, owner, group, children⟩ := e
  have hinvalid : isFileName name = false := by simpa using hname
  rw [loadEntry, hinvalid]
  rfl

mutual

/-- An entry that was loaded did fit, and it is there with all that is in it. -/
theorem sown_of_loadEntry {dir : String} {now : Timestamp} (e : SeedEntry) {t t' : FileTree}
    (hdir : IsNormal dir) (hparent : t.HasDirectory dir) (hname : isFileName e.name = true)
    (h : loadEntry t dir now e = .ok t') :
    t.Fits dir [e.clean] ∧ t.Sown dir [e.clean] now t' := by
  obtain ⟨name, kind, content, mode, owner, group, children⟩ := e
  have hvalid : isFileName name = true := hname
  rw [loadEntry, hvalid] at h
  simp only [Bool.not_true, Bool.false_eq_true, if_false] at h
  cases hload : t.loadNode dir ⟨name, kind, content, mode, owner, group, children⟩ now with
  | error e => simp [hload] at h
  | ok mid =>
    simp only [hload] at h
    refine sown_of_children hdir hparent hname hload ?_
    cases kind with
    | file =>
      cases h
      exact ⟨fits_nil .., sown_nil ..⟩
    | directory =>
      exact sown_of_loadEntries children
        (Path.isNormal_join hdir (isComponent_of_isFileName hvalid))
        ((change_of_loadNode hdir hparent hname hload).2 rfl) h

theorem sown_of_loadEntries {dir : String} {now : Timestamp} (entries : List SeedEntry)
    {t t' : FileTree} (hdir : IsNormal dir) (hparent : t.HasDirectory dir)
    (h : loadEntries t dir now entries = .ok t') :
    t.Fits dir (cleanAll entries) ∧ t.Sown dir (cleanAll entries) now t' := by
  cases entries with
  | nil =>
    rw [loadEntries, Except.ok.injEq] at h
    subst h
    rw [cleanAll]
    exact ⟨fits_nil .., sown_nil ..⟩
  | cons e rest =>
    rw [loadEntries] at h
    rw [cleanAll]
    by_cases hname : isFileName e.name = true
    · rw [if_pos hname]
      cases hload : loadEntry t dir now e with
      | error cause => simp [hload] at h
      | ok mid =>
        simp only [hload] at h
        obtain ⟨hfits, hsown⟩ := sown_of_loadEntry e hdir hparent hname hload
        have hthere := (changes_loadEntry e hdir hparent hload).hasDirectory hparent
        obtain ⟨hmore, hrest⟩ := sown_of_loadEntries rest hdir hthere h
        exact ⟨(fits_cons hdir hname hsown).mpr ⟨hfits, hmore⟩, hsown.cons hdir hname hrest⟩
    · rw [if_neg hname]
      rw [loadEntry_of_skipped hname] at h
      exact sown_of_loadEntries rest hdir hparent h

end

mutual

/-- An entry that fits is loaded. Below its node all names are free. -/
theorem exists_loadEntry {dir : String} (now : Timestamp) (e : SeedEntry) {t : FileTree}
    (hc : t.Connected) (hdir : IsNormal dir) (hparent : t.HasDirectory dir)
    (hname : isFileName e.name = true) (hfits : t.Fits dir [e.clean]) :
    ∃ t', loadEntry t dir now e = .ok t' := by
  obtain ⟨hnew, hmode, hplantable⟩ := fits_singleton.mp hfits
  rw [SeedEntry.name_clean] at hnew
  rw [SeedEntry.mode_clean] at hmode
  have hload : t.loadNode dir e now = .ok _ := loadNode_eq_ok.mpr ⟨hnew, hmode, rfl⟩
  obtain ⟨name, kind, content, mode, owner, group, children⟩ := e
  have hvalid : isFileName name = true := hname
  have hcomponent := isComponent_of_isFileName hvalid
  rw [loadEntry, hvalid]
  simp only [Bool.not_true, Bool.false_eq_true, if_false, hload]
  cases kind with
  | file => exact ⟨_, rfl⟩
  | directory =>
    obtain ⟨hchange, hmade⟩ := change_of_loadNode hdir hparent hname hload
    refine exists_loadEntries now children (hc.change hchange) (Path.isNormal_join hdir hcomponent)
      (hmade rfl) ⟨fun child hchild => ?_, hplantable⟩
    exact hc.free_below hdir hcomponent hparent hnew _ now
      (isComponent_of_isFileName (SeedEntry.isFileName_of_mem_cleanAll hchild))

theorem exists_loadEntries {dir : String} (now : Timestamp) (entries : List SeedEntry)
    {t : FileTree} (hc : t.Connected) (hdir : IsNormal dir) (hparent : t.HasDirectory dir)
    (hfits : t.Fits dir (cleanAll entries)) : ∃ t', loadEntries t dir now entries = .ok t' := by
  cases entries with
  | nil => exact ⟨t, by rw [loadEntries]⟩
  | cons e rest =>
    rw [loadEntries]
    rw [cleanAll] at hfits
    by_cases hname : isFileName e.name = true
    · rw [if_pos hname] at hfits
      have hfirst : t.Fits dir [e.clean] := by
        obtain ⟨-, hmode, hchildren, -⟩ := SeedEntry.plantable_cons.mp hfits.plantable
        exact fits_singleton.mpr ⟨hfits.free _ (List.mem_cons_self ..), hmode, hchildren⟩
      obtain ⟨mid, hload⟩ := exists_loadEntry now e hc hdir hparent hname hfirst
      obtain ⟨-, hsown⟩ := sown_of_loadEntry e hdir hparent hname hload
      have hchanges := changes_loadEntry e hdir hparent hload
      simp only [hload]
      exact exists_loadEntries now rest (hc.changes hchanges) hdir (hchanges.hasDirectory hparent)
        ((fits_cons hdir hname hsown).mp hfits).2
    · rw [if_neg hname] at hfits
      simp only [loadEntry_of_skipped hname]
      exact exists_loadEntries now rest hc hdir hparent hfits

end

/-- Home, the directories above it, and nothing else. -/
theorem grown_ensureDirectories (home owner group : String) (now : Timestamp) :
    Grown (.empty owner group now) "/" (components home).head?.toList
      (chain owner group now [] (components home)) now
      ((FileTree.empty owner group now).ensureDirectories (normalize home) now) := by
  have hcs : ∀ c ∈ components home, IsComponent c := fun _ => Path.isComponent_of_mem_components
  have hroot : ofComponents [] = "/" := by simp [ofComponents]
  rw [ensureDirectories, Path.normalize_eq, Path.components_ofComponents hcs, ← hroot]
  refine grown_ensureFrom now (connected_empty owner group now) (List.forall_mem_nil _) hcs
    (hroot ▸ hasDirectory_root_empty owner group now) fun name hname => ?_
  rw [hroot, node?_eq_none, keys_empty, List.mem_singleton]
  exact Path.join_ne_root Path.isNormal_root hname

/-- Each directory on the way home has the next one for its only child. -/
theorem node?_ensureDirectories {home : String} {way rest : List String}
    (hway : components home = way ++ rest) (owner group : String) (now : Timestamp) :
    ((FileTree.empty owner group now).ensureDirectories (normalize home) now).node?
      (ofComponents way) = some (directoryOf owner group now rest.head?.toList) := by
  have hgrown := grown_ensureDirectories home owner group now
  by_cases hroot : way = []
  · subst hroot
    rw [List.nil_append] at hway
    have hparent := hgrown.parent
    have hstart : (FileTree.empty owner group now).node? "/" =
        some (directoryOf owner group now []) := by
      rw [empty, node?_put, if_pos rfl]
      rfl
    rw [hstart, Option.map_some, directoryOf, Node.addChildren_directory, hway] at hparent
    simpa [ofComponents, directoryOf] using hparent
  · rw [hway] at hgrown
    have hnew := hgrown.new _ (mem_chain owner group now [] hroot rest)
    rwa [List.nil_append] at hnew

theorem keys_ensureDirectories (home owner group : String) (now : Timestamp) :
    ((FileTree.empty owner group now).ensureDirectories (normalize home) now).keys =
      (components home).inits.map ofComponents := by
  obtain ⟨ways, hways⟩ : ∃ ways, (components home).inits = [] :: ways := by
    cases components home <;> simp
  rw [(grown_ensureDirectories home owner group now).keys, keys_empty, keys_chain, hways]
  simp [ofComponents]

/-- The tree that a seed stands for. Below home there is one node for each of its entries, each
directory lists its entries in the order of the seed, and there are no nodes but these and the
directories on the way home. -/
structure Planted (home owner group : String) (seed : List SeedEntry) (now : Timestamp)
    (t : FileTree) : Prop where
  keys : t.keys = (components home).inits.map ofComponents ++
    (placedAll (normalize home) seed).map Prod.fst
  keys_nodup : t.keys.Nodup
  above : ∀ above next below, components home = above ++ next :: below →
    t.node? (ofComponents above) = some (directoryOf owner group now [next])
  home_node :
    t.node? (normalize home) = some (directoryOf owner group now (seed.map SeedEntry.name))
  entry : ∀ path e, (path, e) ∈ placedAll (normalize home) seed →
    t.node? path = some (e.node owner group now)
  home_list : t.list home = .ok (seed.map fun e => (e.name, e.node owner group now))
  entry_list : ∀ path e, (path, e) ∈ placedAll (normalize home) seed → e.kind = .directory →
    t.list path = .ok (e.children.map fun child => (child.name, child.node owner group now))
  default_owner : t.owner = owner
  default_group : t.group = group

/-- Where every child has its node, a directory lists its children with their nodes. -/
theorem list_eq_of_nodes {path : String} {node : Node} {created : Timestamp}
    {level : List SeedEntry} {owner group : String} {now : Timestamp}
    (hnode : t.node? (normalize path) = some node)
    (hbody : node.body = .directory created (level.map SeedEntry.name))
    (hchildren : ∀ e ∈ level,
      t.node? (join (normalize path) e.name) = some (e.node owner group now)) :
    t.list path = .ok (level.map fun e => (e.name, e.node owner group now)) := by
  simp only [list, hnode, hbody, List.filterMap_map]
  rw [← List.filterMap_eq_map]
  refine congrArg Except.ok (List.filterMap_congr fun e he => ?_)
  simp [hchildren e he]

theorem planted_of_ofSeed {home owner group : String} {entries : List SeedEntry} {now : Timestamp}
    (h : ofSeed home owner group entries now = .ok t) :
    Planted home owner group (cleanAll entries) now t := by
  have hgrown := grown_ensureDirectories home owner group now
  have hmade : ∀ way rest, components home = way ++ rest →
      ((FileTree.empty owner group now).ensureDirectories (normalize home) now).node?
        (ofComponents way) = some (directoryOf owner group now rest.head?.toList) :=
    fun _ _ hway => node?_ensureDirectories hway owner group now
  have hmadekeys := keys_ensureDirectories home owner group now
  obtain ⟨-, hthere⟩ := changes_ensureDirectories owner group home now
  obtain ⟨-, hsown⟩ := sown_of_loadEntries entries (Path.isNormal_normalize home) hthere h
  have hc : t.Connected := (connected_empty owner group now).changes (changes_ofSeed h)
  have howner := hsown.owner.trans hgrown.owner
  have hgroup := hsown.group.trans hgrown.group
  rw [Sown, hgrown.owner, hgrown.group] at hsown
  have hhome : t.node? (normalize home) =
      some (directoryOf owner group now ((cleanAll entries).map SeedEntry.name)) := by
    have hstart := hmade (components home) [] (List.append_nil _).symm
    rw [← Path.normalize_eq] at hstart
    rw [hsown.parent, hstart, Option.map_some, directoryOf, Node.addChildren_directory]
    rfl
  have hentry : ∀ path e, (path, e) ∈ placedAll (normalize home) (cleanAll entries) →
      t.node? path = some (e.node owner group now) := by
    intro path e he
    exact hsown.new (path, e.node owner group now) (List.mem_map.mpr ⟨(path, e), he, rfl⟩)
  constructor
  case keys =>
    rw [hsown.keys, hmadekeys, List.map_map]
    rfl
  case keys_nodup => exact hc.nodup
  case above =>
    intro above next below hway
    have hkey : ofComponents above ∈ (components home).inits.map ofComponents :=
      List.mem_map_of_mem ((List.mem_inits ..).mpr ⟨next :: below, hway.symm⟩)
    have hall : ∀ c ∈ above ++ next :: below, IsComponent c :=
      hway ▸ fun _ => Path.isComponent_of_mem_components
    have hne : ofComponents above ≠ normalize home := by
      rw [Path.normalize_eq, hway, Ne,
        Path.ofComponents_inj (fun c hc => hall c (List.mem_append_left _ hc)) hall]
      simp
    rw [hsown.elsewhere _ (hmadekeys ▸ hkey) hne]
    exact hmade above (next :: below) hway
  case home_node => exact hhome
  case entry => exact hentry
  case home_list =>
    exact list_eq_of_nodes hhome rfl fun e he => hentry _ e (SeedEntry.mem_placedAll_of_mem he)
  case entry_list =>
    intro path e he hkind
    have hnode := hentry path e he
    have hnormal : normalize path = path := hc.normal path (mem_keys_of_node? hnode)
    have hbody : (e.node owner group now).body =
        .directory now (e.children.map SeedEntry.name) := by
      simp [SeedEntry.node, hkind]
    refine list_eq_of_nodes (hnormal.symm ▸ hnode) hbody fun child hchild => ?_
    rw [hnormal]
    exact hentry _ child (SeedEntry.mem_placedAll_of_child _ he hchild)
  case default_owner => exact howner
  case default_group => exact hgroup

/-- A seed is loaded exactly when nothing is wrong with what is left of it without the entries that
are skipped, and then the tree is just what it stands for. -/
theorem ofSeed_plants (home owner group : String) (entries : List SeedEntry) (now : Timestamp) :
    ((∃ t, ofSeed home owner group entries now = .ok t) ↔ Plantable (cleanAll entries)) ∧
      ∀ t, ofSeed home owner group entries now = .ok t →
        Planted home owner group (cleanAll entries) now t := by
  have hdir := Path.isNormal_normalize home
  obtain ⟨hchanges, hthere⟩ := changes_ensureDirectories owner group home now
  refine ⟨⟨?_, fun hplantable => ?_⟩, fun t h => planted_of_ofSeed h⟩
  · rintro ⟨t, h⟩
    exact (sown_of_loadEntries entries hdir hthere h).1.plantable
  · have hc := (connected_empty owner group now).changes hchanges
    refine exists_loadEntries now entries hc hdir hthere ⟨fun e he => ?_, hplantable⟩
    have hcomponent := isComponent_of_isFileName (SeedEntry.isFileName_of_mem_cleanAll he)
    rw [node?_eq_none, keys_ensureDirectories]
    intro hkey
    obtain ⟨way, hway, heq⟩ := List.mem_map.mp hkey
    -- a name in home is longer than any part of the way there
    obtain ⟨rest, hsplit⟩ := (List.mem_inits ..).mp hway
    have hall : ∀ c ∈ way ++ rest, IsComponent c :=
      hsplit.symm ▸ fun _ => Path.isComponent_of_mem_components
    have hcomponents := congrArg components heq
    rw [Path.components_ofComponents fun c hc => hall c (List.mem_append_left _ hc),
      Path.components_join hdir hcomponent, Path.normalize_eq,
      Path.components_ofComponents fun _ => Path.isComponent_of_mem_components,
      ← hsplit] at hcomponents
    have hlength := congrArg List.length hcomponents
    simp only [List.length_append, List.length_singleton] at hlength
    omega

/-- What a file holds besides its text and a name that is none are skipped, a mode below them
included; a name that comes twice is not. -/
theorem ofSeed_plants_nested :
    ∃ t, ofSeed "//home/./" "quest" "staff"
        [.directory "docs" [.file "b" "x", .directory ".." [(SeedEntry.file "c" "").withMode "9"]],
          { SeedEntry.file "a" "y" with mode := some "600", children := [.file "d" ""] }] ⟨5⟩ =
          .ok t ∧
      t.keys = ["/", "/home", "/home/.", "/home/./docs", "/home/./docs/b", "/home/./a"] ∧
      t.list "//home/./" = .ok [
        ("docs", ⟨.directoryDefault, "quest", "staff", ⟨5⟩, .directory ⟨5⟩ ["b"]⟩),
        ("a", ⟨⟨.readWrite, .none, .none⟩, "quest", "staff", ⟨5⟩, .file "y"⟩)] ∧
      ¬ ∃ t, ofSeed "/home" "quest" "staff" [.directory "a" [], .file "a" ""] ⟨5⟩ = .ok t := by
  generalize hseed : [SeedEntry.directory "docs"
    [.file "b" "x", .directory ".." [(SeedEntry.file "c" "").withMode "9"]],
    { SeedEntry.file "a" "y" with mode := some "600", children := [.file "d" ""] }] = seed
  have hloads : (ofSeed "//home/./" "quest" "staff" seed ⟨5⟩).toOption.isSome = true := by
    subst hseed
    decide +kernel
  obtain ⟨-, hplanted⟩ := ofSeed_plants "//home/./" "quest" "staff" seed ⟨5⟩
  have htwice := (ofSeed_plants "/home" "quest" "staff" [.directory "a" [], .file "a" ""] ⟨5⟩).1
  cases hload : ofSeed "//home/./" "quest" "staff" seed ⟨5⟩ with
  | error cause =>
    rw [hload] at hloads
    cases hloads
  | ok t =>
    have hall := hplanted t hload
    subst hseed
    refine ⟨t, rfl, hall.keys.trans (by decide +kernel), ?_, fun hloaded => ?_⟩
    · rw [hall.home_list, Except.ok.injEq]
      decide +kernel
    · have hnames := (htwice.mp hloaded _ (.top _)).names
      revert hnames
      decide +kernel

end FileTree

end ShellTutor
