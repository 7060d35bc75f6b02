import ShellTutor.Permission

/-!
# The nine permissions one by one

A clause decides a permission if it is about the class and either names the permission or assigns.
What the permission then is follows from the clause alone, whatever was there before. So of all the
clauses of a mode only the last one that decides a permission matters for it, and to apply a mode
once more changes nothing.
-/

namespace ShellTutor

/-- Whom a permission is for. -/
inductive UserClass where
  | owner
  | group
  | other
  deriving DecidableEq, Repr

/-- What a permission is for. -/
inductive Right where
  | read
  | write
  | exec
  deriving DecidableEq, Repr

def Access.has (a : Access) : Right → Bool
  | .read => a.read
  | .write => a.write
  | .exec => a.exec

def Targets.has (t : Targets) : UserClass → Bool
  | .owner => t.user
  | .group => t.group
  | .other => t.other

namespace Permissions

/-- The permissions of a class. -/
def access (p : Permissions) : UserClass → Access
  | .owner => p.owner
  | .group => p.group
  | .other => p.other

def has (p : Permissions) (who : UserClass) (right : Right) : Bool :=
  (p.access who).has right

end Permissions

namespace ModeClause

/-- Whether a permission depends on the clause, and on nothing before it. -/
def decides (clause : ModeClause) (who : UserClass) (right : Right) : Bool :=
  clause.targets.has who && (clause.op == .assign || clause.bits.has right)

/-- What becomes of a permission that the clause decides. -/
def gives (clause : ModeClause) (right : Right) : Bool :=
  match clause.op with
  | .add => true
  | .remove => false
  | .assign => clause.bits.has right

/-- The last clause that decides a permission. -/
def lastOn (who : UserClass) (right : Right) (clauses : List ModeClause) : Option ModeClause :=
  clauses.reverse.find? fun clause => clause.decides who right

end ModeClause

/-- What a mode makes of a permission, if it does not leave it as it is. -/
def ModeSpec.decision? (who : UserClass) (right : Right) : ModeSpec → Option Bool
  | .octal p => some (p.has who right)
  | .symbolic clauses => (ModeClause.lastOn who right clauses).map fun clause => clause.gives right

section

variable (who : UserClass) (right : Right)

theorem Access.ext_has {a b : Access} (h : ∀ right, a.has right = b.has right) : a = b := by
  have hread := h .read
  have hwrite := h .write
  have hexec := h .exec
  cases a
  cases b
  simp_all [has]

theorem Permissions.ext_has {p q : Permissions}
    (h : ∀ who right, p.has who right = q.has who right) : p = q := by
  have howner : p.owner = q.owner := Access.ext_has (h .owner)
  have hgroup : p.group = q.group := Access.ext_has (h .group)
  have hother : p.other = q.other := Access.ext_has (h .other)
  cases p
  cases q
  simp_all

@[simp] theorem Access.has_union (a b : Access) :
    (a.union b).has right = (a.has right || b.has right) := by
  cases right <;> rfl

@[simp] theorem Access.has_diff (a b : Access) :
    (a.diff b).has right = (a.has right && !b.has right) := by
  cases right <;> rfl

namespace ModeClause

variable (clause : ModeClause) (p : Permissions)

theorem access_apply :
    (clause.apply p).access who =
      if clause.targets.has who then clause.op.apply clause.bits (p.access who)
      else p.access who := by
  cases who <;> rfl

/-- A clause acts on each permission by itself. -/
theorem has_apply :
    (clause.apply p).has who right =
      if clause.decides who right then clause.gives right else p.has who right := by
  rw [Permissions.has, access_apply, Permissions.has, decides, gives]
  cases clause.targets.has who with
  | false => simp
  | true =>
    cases hop : clause.op <;> cases hbit : clause.bits.has right <;> simp [ModeOp.apply, hbit]

theorem lastOn_cons (rest : List ModeClause) :
    lastOn who right (clause :: rest) =
      (lastOn who right rest).or (if clause.decides who right then some clause else none) := by
  rw [lastOn, List.reverse_cons, List.find?_append, lastOn, List.find?_singleton]

end ModeClause

namespace Permissions

theorem apply_symbolic_cons (p : Permissions) (clause : ModeClause) (rest : List ModeClause) :
    p.apply (.symbolic (clause :: rest)) = (clause.apply p).apply (.symbolic rest) := rfl

theorem apply_symbolic_append (p : Permissions) (first second : List ModeClause) :
    p.apply (.symbolic (first ++ second)) = (p.apply (.symbolic first)).apply (.symbolic second) :=
  List.foldl_append

/-- Among clauses the last that decides a permission has the word. -/
theorem has_apply_symbolic (p : Permissions) (clauses : List ModeClause) :
    (p.apply (.symbolic clauses)).has who right =
      match ModeClause.lastOn who right clauses with
      | some clause => clause.gives right
      | none => p.has who right := by
  induction clauses generalizing p with
  | nil => rfl
  | cons clause rest ih =>
    rw [apply_symbolic_cons, ih, ModeClause.lastOn_cons]
    cases ModeClause.lastOn who right rest with
    | some later => rfl
    | none =>
      rw [ModeClause.has_apply]
      cases clause.decides who right <;> rfl

theorem has_apply (p : Permissions) (spec : ModeSpec) :
    (p.apply spec).has who right = (spec.decision? who right).getD (p.has who right) := by
  cases spec with
  | octal q => rfl
  | symbolic clauses =>
    rw [has_apply_symbolic, ModeSpec.decision?]
    cases ModeClause.lastOn who right clauses <;> rfl

/-- A mode decides the same permissions in the same way each time. -/
theorem apply_apply (p : Permissions) (spec : ModeSpec) :
    (p.apply spec).apply spec = p.apply spec := by
  refine ext_has fun who right => ?_
  rw [has_apply, has_apply]
  cases spec.decision? who right <;> rfl

end Permissions

end

end ShellTutor
