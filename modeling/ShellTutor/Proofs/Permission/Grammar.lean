import ShellTutor.Proofs.Outcome
import ShellTutor.Proofs.Permission.Octal
import ShellTutor.Proofs.Text.Split

/-!
# The grammar of modes

Modes are read by cutting: at commas into clauses, and a clause at its first operator. `Written`
tells what a mode is without reading it: letters, an operator and letters again. The two agree on
all texts. A second operator or a letter of neither kind falls into a part where it may not stand,
an empty piece around a comma lacks its operator, and a text of digits alone is never symbolic.
Whatever is refused is refused with the part at fault.
-/

namespace ShellTutor

open Number (isDigit)

def ModeOp.char : ModeOp → Char
  | .add => '+'
  | .remove => '-'
  | .assign => '='

/-- The classes that letters name. The letter `a` names every class, and so does no letter at
all. -/
def Targets.ofLetters (who : List Char) : Targets :=
  if who = [] ∨ 'a' ∈ who then .all
  else ⟨who.contains 'u', who.contains 'g', who.contains 'o'⟩

/-- The permissions that letters name. -/
def Access.ofLetters (letters : List Char) : Access :=
  ⟨letters.contains 'r', letters.contains 'w', letters.contains 'x'⟩

/-- What a text means as a clause: letters for the classes, one operator, and letters for the
permissions, which only an assignment may lack. -/
inductive ModeClause.Written : List Char → ModeClause → Prop
  | clause {who letters : List Char} {op : ModeOp}
      (hwho : ∀ c ∈ who, c ∈ ['u', 'g', 'o', 'a']) (hletters : ∀ c ∈ letters, c ∈ ['r', 'w', 'x'])
      (hsome : letters ≠ [] ∨ op = .assign) :
      Written (who ++ op.char :: letters) ⟨.ofLetters who, op, .ofLetters letters⟩

/-- What a text means as a mode: three octal digits, or clauses with commas between them. -/
inductive ModeSpec.Written : List Char → ModeSpec → Prop
  | octal {cs : List Char} {p : Permissions} (h : Permissions.Written cs p) : Written cs (.octal p)
  | symbolic {cs : List Char} {clauses : List ModeClause} (hother : ∃ c ∈ cs, isDigit c = false)
      (hclauses : List.Forall₂ ModeClause.Written (cs.splitOn ',') clauses) :
      Written cs (.symbolic clauses)

/-- The piece of a text that keeps it from being a mode: the first that is no clause. A text of
digits alone is one piece. -/
structure ModeSpec.Fault (cs piece : List Char) : Prop where
  place : ∃ before after, cs.splitOn ',' = before ++ piece :: after ∧
    ∀ clear ∈ before, ∃ clause, ModeClause.Written clear clause
  refused : ∀ clause, ¬ ModeClause.Written piece clause

def Targets.letters (t : Targets) : List Char :=
  (if t.user then ['u'] else []) ++ (if t.group then ['g'] else []) ++
    if t.other then ['o'] else []

def Access.letters (a : Access) : List Char :=
  (if a.read then ['r'] else []) ++ (if a.write then ['w'] else []) ++
    if a.exec then ['x'] else []

/-- A clause with each of its classes and permissions once, in a fixed order. -/
def ModeClause.render (clause : ModeClause) : List Char :=
  clause.targets.letters ++ clause.op.char :: clause.bits.letters

/-- The canonical text of a mode. -/
def ModeSpec.render : ModeSpec → String
  | .octal p => p.octal
  | .symbolic clauses => String.ofList ([','].intercalate (clauses.map ModeClause.render))

/-- The form of a mode. -/
def ModeSpec.kind : ModeSpec → ModeKind
  | .octal _ => .octal
  | .symbolic _ => .symbolic

theorem ModeOp.ofChar?_eq_some_iff {c : Char} {op : ModeOp} :
    ofChar? c = some op ↔ c = op.char := by
  unfold ofChar?
  split <;> cases op <;> simp_all [char]

theorem ModeOp.ofChar?_char (op : ModeOp) : ofChar? op.char = some op :=
  ofChar?_eq_some_iff.mpr rfl

namespace ModeClause

theorem addTarget?_eq_some_iff {t t' : Targets} {c : Char} :
    addTarget? t c = some t' ↔
      c ∈ ['u', 'g', 'o', 'a'] ∧
        t' = ⟨t.user || 'u' == c || 'a' == c, t.group || 'g' == c || 'a' == c,
          t.other || 'o' == c || 'a' == c⟩ := by
  unfold addTarget?
  split <;> simp_all [Targets.all, eq_comm]

theorem addBit?_eq_some_iff {a a' : Access} {c : Char} :
    addBit? a c = some a' ↔
      c ∈ ['r', 'w', 'x'] ∧ a' = ⟨a.read || 'r' == c, a.write || 'w' == c, a.exec || 'x' == c⟩ := by
  unfold addBit?
  split <;> simp_all [eq_comm]

/-- Letters add up, whatever their order and however often they come. -/
theorem foldlM_addTarget?_eq_some_iff {who : List Char} {t t' : Targets} :
    who.foldlM addTarget? t = some t' ↔
      (∀ c ∈ who, c ∈ ['u', 'g', 'o', 'a']) ∧
        t' = ⟨t.user || who.contains 'u' || who.contains 'a',
          t.group || who.contains 'g' || who.contains 'a',
          t.other || who.contains 'o' || who.contains 'a'⟩ := by
  induction who generalizing t with
  | nil => simp [eq_comm]
  | cons c rest ih =>
    simp only [List.foldlM_cons, Option.bind_eq_bind, Option.bind_eq_some_iff,
      addTarget?_eq_some_iff, ih, List.forall_mem_cons, List.contains_cons]
    constructor
    · rintro ⟨mid, ⟨hc, rfl⟩, hrest, rfl⟩
      refine ⟨⟨hc, hrest⟩, ?_⟩
      simp only [Bool.or_assoc, Bool.or_left_comm]
    · rintro ⟨⟨hc, hrest⟩, rfl⟩
      refine ⟨_, ⟨hc, rfl⟩, hrest, ?_⟩
      simp only [Bool.or_assoc, Bool.or_left_comm]

/-- The letters for the permissions add up in the same way. -/
theorem foldlM_addBit?_eq_some_iff {letters : List Char} {a a' : Access} :
    letters.foldlM addBit? a = some a' ↔
      (∀ c ∈ letters, c ∈ ['r', 'w', 'x']) ∧
        a' = ⟨a.read || letters.contains 'r', a.write || letters.contains 'w',
          a.exec || letters.contains 'x'⟩ := by
  induction letters generalizing a with
  | nil => simp [eq_comm]
  | cons c rest ih =>
    simp only [List.foldlM_cons, Option.bind_eq_bind, Option.bind_eq_some_iff,
      addBit?_eq_some_iff, ih, List.forall_mem_cons, List.contains_cons]
    constructor
    · rintro ⟨mid, ⟨hc, rfl⟩, hrest, rfl⟩
      exact ⟨⟨hc, hrest⟩, by simp only [Bool.or_assoc]⟩
    · rintro ⟨⟨hc, hrest⟩, rfl⟩
      exact ⟨_, ⟨hc, rfl⟩, hrest, by simp only [Bool.or_assoc]⟩

/-- Letters without `a` name a class one by one. -/
theorem exists_class_of_letters {who : List Char} (hwho : ∀ c ∈ who, c ∈ ['u', 'g', 'o', 'a'])
    (hne : who ≠ []) (hall : 'a' ∉ who) : 'u' ∈ who ∨ 'g' ∈ who ∨ 'o' ∈ who := by
  obtain ⟨c, rest, rfl⟩ := List.exists_cons_of_ne_nil hne
  have hc := hwho c (List.mem_cons_self ..)
  simp only [List.mem_cons, List.not_mem_nil, or_false] at hc
  rcases hc with rfl | rfl | rfl | rfl <;> simp_all

theorem ofLetters_ne_none {who : List Char} (hwho : ∀ c ∈ who, c ∈ ['u', 'g', 'o', 'a']) :
    Targets.ofLetters who ≠ Targets.none := by
  rw [Targets.ofLetters]
  split
  · decide
  · rename_i hsingle
    rw [not_or] at hsingle
    have hclass := exists_class_of_letters hwho hsingle.1 hsingle.2
    simp only [Targets.none, Ne, Targets.mk.injEq, List.contains_eq_mem, decide_eq_false_iff_not]
    tauto

/-- Letters are read as the classes that they name. -/
theorem ofLetters_of_foldlM {who : List Char} {t : Targets}
    (h : who.foldlM addTarget? Targets.none = some t) :
    (∀ c ∈ who, c ∈ ['u', 'g', 'o', 'a']) ∧
      (if t = Targets.none then .all else t) = Targets.ofLetters who := by
  obtain ⟨hwho, rfl⟩ := foldlM_addTarget?_eq_some_iff.mp h
  refine ⟨hwho, ?_⟩
  by_cases hne : who = []
  · subst hne
    rfl
  · by_cases hall : 'a' ∈ who
    · simp [Targets.ofLetters, hall, Targets.none, Targets.all]
    · have hclasses := ofLetters_ne_none hwho
      simp_all [Targets.ofLetters, Targets.none]

theorem foldlM_of_letters {who : List Char} (hwho : ∀ c ∈ who, c ∈ ['u', 'g', 'o', 'a']) :
    ∃ t, who.foldlM addTarget? Targets.none = some t :=
  ⟨_, foldlM_addTarget?_eq_some_iff.mpr ⟨hwho, rfl⟩⟩

theorem foldlM_addBit?_none_eq_some_iff {letters : List Char} {a : Access} :
    letters.foldlM addBit? Access.none = some a ↔
      (∀ c ∈ letters, c ∈ ['r', 'w', 'x']) ∧ a = Access.ofLetters letters := by
  rw [foldlM_addBit?_eq_some_iff]
  simp [Access.none, Access.ofLetters]

theorem ofLetters_eq_none_iff {letters : List Char} (h : ∀ c ∈ letters, c ∈ ['r', 'w', 'x']) :
    Access.ofLetters letters = Access.none ↔ letters = [] := by
  cases letters with
  | nil => simp [Access.ofLetters, Access.none]
  | cons c rest =>
    have hc := h c (List.mem_cons_self ..)
    simp only [List.mem_cons, List.not_mem_nil, or_false] at hc
    rcases hc with rfl | rfl | rfl <;> simp [Access.ofLetters, Access.none]

/-- A letter for classes is no operator, so a clause is cut behind these letters. -/
theorem ofChar?_of_letter {c : Char} (h : c ∈ ['u', 'g', 'o', 'a']) : ModeOp.ofChar? c = none := by
  simp only [List.mem_cons, List.not_mem_nil, or_false] at h
  rcases h with rfl | rfl | rfl | rfl <;> rfl

theorem ofChars?_eq_some_iff {cs : List Char} {clause : ModeClause} :
    ofChars? cs = some clause ↔ Written cs clause := by
  constructor
  · intro h
    unfold ofChars? at h
    simp only [Option.bind_eq_bind, Option.bind_eq_some_iff] at h
    obtain ⟨c, hhead, op, hop, targets, htargets, bits, hbits, h⟩ := h
    obtain rfl := ModeOp.ofChar?_eq_some_iff.mp hop
    obtain ⟨hwho, hclasses⟩ := ofLetters_of_foldlM htargets
    obtain ⟨hletters, rfl⟩ := foldlM_addBit?_none_eq_some_iff.mp hbits
    split at h
    · cases h
    · rename_i hsome
      cases h
      rw [ofLetters_eq_none_iff hletters, not_and_or, not_not] at hsome
      obtain ⟨letters, htail⟩ := List.head?_eq_some_iff.mp hhead
      rw [htail, List.tail_cons] at hletters hsome ⊢
      have hcs := List.takeWhile_append_dropWhile
        (p := fun c => (ModeOp.ofChar? c).isNone) (l := cs)
      rw [htail] at hcs
      have hwritten := Written.clause hwho hletters hsome
      rwa [hcs, ← hclasses] at hwritten
  · rintro ⟨hwho, hletters, hsome⟩
    rename_i who letters op
    have hkeep : ∀ c ∈ who, (ModeOp.ofChar? c).isNone = true := by
      intro c hc
      rw [ofChar?_of_letter (hwho c hc)]
      rfl
    obtain ⟨targets, htargets⟩ := foldlM_of_letters hwho
    have hbits := foldlM_addBit?_none_eq_some_iff.mpr ⟨hletters, rfl⟩
    have hallowed : ¬ (Access.ofLetters letters = Access.none ∧ op ≠ .assign) := by
      rw [ofLetters_eq_none_iff hletters, not_and_or, not_not]
      exact hsome
    unfold ofChars?
    simp [List.takeWhile_append_of_pos hkeep, List.dropWhile_append_of_pos hkeep,
      ModeOp.ofChar?_char, htargets, hbits, hallowed, (ofLetters_of_foldlM htargets).2]

theorem ofString_eq_ok_iff {s : String} {clause : ModeClause} :
    ofString s = .ok clause ↔ Written s.toList clause := by
  rw [← ofChars?_eq_some_iff]
  unfold ofString
  cases ofChars? s.toList <;> simp

theorem ofString_eq_error_iff {s : String} {e : ShellError} :
    ofString s = .error e ↔ (∀ clause, ¬ Written s.toList clause) ∧ e = .invalidMode s := by
  simp only [← ofChars?_eq_some_iff]
  unfold ofString
  cases ofChars? s.toList <;> simp [eq_comm]

/-- A clause holds no comma, and its operator is no digit. -/
theorem Written.not_comma {cs : List Char} {clause : ModeClause} (h : Written cs clause) :
    ',' ∉ cs ∧ ∃ c ∈ cs, isDigit c = false := by
  obtain ⟨hwho, hletters, -⟩ := h
  rename_i who letters op
  refine ⟨?_, op.char, by simp, by cases op <;> decide⟩
  intro hcomma
  rcases List.mem_append.mp hcomma with hcomma | hcomma
  · exact absurd (hwho _ hcomma) (by decide)
  · rcases List.mem_cons.mp hcomma with hcomma | hcomma
    · cases op <;> exact absurd hcomma (by decide)
    · exact absurd (hletters _ hcomma) (by decide)

theorem ofLetters_targets {t : Targets} (h : t ≠ Targets.none) :
    (∀ c ∈ t.letters, c ∈ ['u', 'g', 'o', 'a']) ∧ Targets.ofLetters t.letters = t := by
  rcases t with ⟨_ | _, _ | _, _ | _⟩
  · exact absurd rfl h
  all_goals simp [Targets.letters, Targets.ofLetters]

theorem ofLetters_bits (a : Access) :
    (∀ c ∈ a.letters, c ∈ ['r', 'w', 'x']) ∧ Access.ofLetters a.letters = a := by
  rcases a with ⟨_ | _, _ | _, _ | _⟩ <;> simp [Access.letters, Access.ofLetters]

/-- The canonical text of what a text means as a clause has the same meaning. -/
theorem Written.render {cs : List Char} {clause : ModeClause} (h : Written cs clause) :
    Written clause.render clause := by
  obtain ⟨hwho, hletters, hsome⟩ := h
  rename_i who letters op
  obtain ⟨htarget, hclasses⟩ := ofLetters_targets (ofLetters_ne_none hwho)
  obtain ⟨hbit, hbits⟩ := ofLetters_bits (Access.ofLetters letters)
  have hsome' : (Access.ofLetters letters).letters ≠ [] ∨ op = .assign := by
    refine hsome.imp_left fun hne => ?_
    rwa [Ne, ← ofLetters_eq_none_iff hbit, hbits, ofLetters_eq_none_iff hletters]
  have hwritten := Written.clause htarget hbit hsome'
  rwa [hclasses, hbits] at hwritten

end ModeClause

theorem Permissions.Written.digits_only {cs : List Char} {p : Permissions}
    (h : Permissions.Written cs p) : cs ≠ [] ∧ cs.all isDigit = true := by
  obtain ⟨hdigits⟩ := h
  refine ⟨List.cons_ne_nil _ _, List.all_eq_true.mpr fun c hc => ?_⟩
  obtain ⟨hlow, hhigh⟩ := hdigits c hc
  have hnine : c ≤ '9' := Char.le_trans hhigh (by decide)
  simp [isDigit, hlow, hnine]

namespace ModeSpec

theorem ofString_of_digits {s : String} (h : s ≠ "" ∧ s.toList.all isDigit = true) :
    ofString s = (Permissions.ofOctal s).map octal :=
  if_pos h

theorem ofString_of_other {s : String} (h : ¬ (s ≠ "" ∧ s.toList.all isDigit = true)) :
    ofString s =
      (((s.toList.splitOn ',').map String.ofList).mapM ModeClause.ofString).map symbolic :=
  if_neg h

theorem mapM_pieces_eq_ok_iff {pieces : List (List Char)} {clauses : List ModeClause} :
    (pieces.map String.ofList).mapM ModeClause.ofString = .ok clauses ↔
      List.Forall₂ ModeClause.Written pieces clauses := by
  rw [Outcome.mapM_eq_ok_iff, List.forall₂_map_left_iff]
  simp only [ModeClause.ofString_eq_ok_iff, String.toList_ofList]

/-- There is a first clause, and with it an operator. -/
theorem exists_other_of_clauses {cs : List Char} {clauses : List ModeClause}
    (h : List.Forall₂ ModeClause.Written (cs.splitOn ',') clauses) :
    ∃ c ∈ cs, isDigit c = false := by
  obtain ⟨first, rest, hcut⟩ := List.exists_cons_of_ne_nil (List.splitOn_ne_nil ',' cs)
  have hmem : first ∈ cs.splitOn ',' := hcut ▸ List.mem_cons_self ..
  obtain ⟨before, after, hcs, -⟩ := Text.mem_splitOnP_place hmem
  rw [hcut] at h
  cases h with
  | cons hfirst _ =>
    obtain ⟨-, c, hc, hother⟩ := hfirst.not_comma
    exact ⟨c, by simp [hcs, hc], hother⟩

theorem ofString_eq_ok_iff {s : String} {spec : ModeSpec} :
    ofString s = .ok spec ↔ Written s.toList spec := by
  by_cases hdigits : s ≠ "" ∧ s.toList.all isDigit = true
  · rw [ofString_of_digits hdigits, Outcome.map_eq_ok]
    constructor
    · rintro ⟨p, hread, rfl⟩
      exact .octal (Permissions.ofOctal_eq_ok_iff.mp hread)
    · rintro (hwritten | ⟨⟨c, hc, hother⟩, -⟩)
      · exact ⟨_, Permissions.ofOctal_eq_ok_iff.mpr hwritten, rfl⟩
      · rw [List.all_eq_true.mp hdigits.2 c hc] at hother
        cases hother
  · rw [ofString_of_other hdigits, Outcome.map_eq_ok]
    constructor
    · rintro ⟨clauses, hread, rfl⟩
      have hclauses := mapM_pieces_eq_ok_iff.mp hread
      exact .symbolic (exists_other_of_clauses hclauses) hclauses
    · rintro (hwritten | ⟨-, hclauses⟩)
      · obtain ⟨hne, hall⟩ := hwritten.digits_only
        exact absurd ⟨fun hs => hne (String.toList_eq_nil_iff.mpr hs), hall⟩ hdigits
      · exact ⟨_, mapM_pieces_eq_ok_iff.mpr hclauses, rfl⟩

/-- Two modes with a comma between them are the clauses of both. -/
theorem ofString_comma {first second : String} {front back : List ModeClause}
    (hfirst : ofString first = .ok (.symbolic front))
    (hsecond : ofString second = .ok (.symbolic back)) :
    ofString (first ++ "," ++ second) = .ok (.symbolic (front ++ back)) := by
  rw [ofString_eq_ok_iff] at hfirst hsecond ⊢
  obtain ⟨⟩ | ⟨-, hfront⟩ := hfirst
  obtain ⟨⟩ | ⟨-, hback⟩ := hsecond
  have htext : (first ++ "," ++ second).toList = first.toList ++ ',' :: second.toList := by
    simp [String.toList_append]
  have hclauses : List.Forall₂ ModeClause.Written ((first ++ "," ++ second).toList.splitOn ',')
      (front ++ back) := by
    rw [htext, List.splitOn_append_cons_self]
    exact List.rel_append hfront hback
  exact .symbolic (exists_other_of_clauses hclauses) hclauses

/-- A text of digits is one piece, and no clause. -/
theorem fault_of_digits {cs : List Char} (h : cs.all isDigit = true) : Fault cs cs := by
  have hdigits := List.all_eq_true.mp h
  have hcomma : ',' ∉ cs := fun hmem => absurd (hdigits _ hmem) (by decide)
  refine ⟨⟨[], [], List.splitOn_eq_singleton hcomma, List.forall_mem_nil _⟩,
    fun clause hwritten => ?_⟩
  obtain ⟨-, c, hc, hother⟩ := hwritten.not_comma
  rw [hdigits c hc] at hother
  cases hother

/-- A text that is no mode is refused, and the refusal quotes the piece at fault. -/
theorem exists_fault {s : String} (h : ∀ spec, ¬ Written s.toList spec) :
    ∃ piece, Fault s.toList piece ∧ ofString s = .error (.invalidMode (String.ofList piece)) := by
  by_cases hdigits : s ≠ "" ∧ s.toList.all isDigit = true
  · have hrefused : Permissions.ofOctal s = .error (.invalidMode s) :=
      Permissions.ofOctal_eq_error_iff.mpr ⟨fun p hp => h _ (.octal hp), rfl⟩
    refine ⟨s.toList, fault_of_digits hdigits.2, ?_⟩
    rw [ofString_of_digits hdigits, hrefused, String.ofList_toList]
    rfl
  · rw [ofString_of_other hdigits]
    cases hread : ((s.toList.splitOn ',').map String.ofList).mapM ModeClause.ofString with
    | ok clauses =>
      have hclauses := mapM_pieces_eq_ok_iff.mp hread
      exact absurd (.symbolic (exists_other_of_clauses hclauses) hclauses) (h _)
    | error e =>
      obtain ⟨before, piece, after, hcut, hbefore, hpiece⟩ := Outcome.mapM_eq_error_iff.mp hread
      obtain ⟨front, back, hpieces, rfl, hback⟩ := List.map_eq_append_iff.mp hcut
      obtain ⟨chars, rest, rfl, rfl, -⟩ := List.map_eq_cons_iff.mp hback
      obtain ⟨hother, rfl⟩ := ModeClause.ofString_eq_error_iff.mp hpiece
      rw [String.toList_ofList] at hother
      refine ⟨chars, ⟨⟨front, rest, hpieces, fun clear hclear => ?_⟩, hother⟩, rfl⟩
      obtain ⟨clause, hclause⟩ := hbefore _ (List.mem_map_of_mem hclear)
      rw [ModeClause.ofString_eq_ok_iff, String.toList_ofList] at hclause
      exact ⟨clause, hclause⟩

theorem forall_written_render {pieces : List (List Char)} {clauses : List ModeClause}
    (h : List.Forall₂ ModeClause.Written pieces clauses) :
    ∀ clause ∈ clauses, ModeClause.Written clause.render clause := by
  induction h with
  | nil => exact List.forall_mem_nil _
  | cons hfirst _ ih => exact List.forall_mem_cons.mpr ⟨hfirst.render, ih⟩

/-- Canonical clauses are cut apart where they were joined. -/
theorem splitOn_render {clauses : List ModeClause} (hne : clauses ≠ [])
    (h : ∀ clause ∈ clauses, ModeClause.Written clause.render clause) :
    (ModeSpec.render (.symbolic clauses)).toList.splitOn ',' = clauses.map ModeClause.render := by
  have hcommas : ∀ piece ∈ clauses.map ModeClause.render, ',' ∉ piece := by
    intro piece hpiece
    obtain ⟨clause, hclause, rfl⟩ := List.mem_map.mp hpiece
    exact (h clause hclause).not_comma.1
  rw [ModeSpec.render, String.toList_ofList]
  exact List.splitOn_intercalate ',' hcommas (by simpa using hne)

/-- The canonical text of what a text means has the same meaning. -/
theorem Written.render {cs : List Char} {spec : ModeSpec} (h : Written cs spec) :
    Written spec.render.toList spec := by
  cases h with
  | octal h => exact .octal (Permissions.written_octal _)
  | @symbolic clauses hother hclauses =>
    have hwritten := forall_written_render hclauses
    have hne : clauses ≠ [] := by
      rintro rfl
      exact List.splitOn_ne_nil ',' cs (List.forall₂_nil_right_iff.mp hclauses)
    have hpieces :
        List.Forall₂ ModeClause.Written ((ModeSpec.render (.symbolic clauses)).toList.splitOn ',')
          clauses := by
      rw [splitOn_render hne hwritten, List.forall₂_map_left_iff, List.forall₂_same]
      exact hwritten
    exact .symbolic (exists_other_of_clauses hpieces) hpieces

theorem kind_of_ofString {s : String} {kind : ModeKind} :
    ModeKind.of? s = some kind ↔ ∃ spec, ofString s = .ok spec ∧ spec.kind = kind := by
  unfold ModeKind.of?
  split <;> rename_i hread <;> simp [hread, ModeSpec.kind]

/-- Reading modes is exact: a text is read as what it means, and one without meaning is refused
for its first piece that is no clause. What is read is read again from its canonical text, and the
form of a text is that of its meaning. -/
theorem ofString_exact (s : String) :
    (∀ spec, ofString s = .ok spec ↔ Written s.toList spec) ∧
    ((∀ spec, ¬ Written s.toList spec) →
      ∃ piece, Fault s.toList piece ∧ ofString s = .error (.invalidMode (String.ofList piece))) ∧
    (∀ spec, ofString s = .ok spec → ofString spec.render = .ok spec) ∧
    ∀ kind, ModeKind.of? s = some kind ↔ ∃ spec, Written s.toList spec ∧ spec.kind = kind := by
  refine ⟨fun _ => ofString_eq_ok_iff, exists_fault, fun spec hread => ?_, fun kind => ?_⟩
  · exact ofString_eq_ok_iff.mpr (ofString_eq_ok_iff.mp hread).render
  · simp only [kind_of_ofString, ofString_eq_ok_iff]

theorem ofString_exact_of_repeated_letters :
    (∃ spec, Written "oog+xrx,=".toList spec ∧ ofString spec.render = .ok spec ∧
      spec.render = "go+rx,ugo=") ∧
    ∃ piece, Fault "u+x,".toList piece ∧
      ofString "u+x," = .error (.invalidMode (String.ofList piece)) := by
  obtain ⟨hread, -, hagain, -⟩ := ofString_exact "oog+xrx,="
  obtain ⟨hnone, hrefused, -, -⟩ := ofString_exact "u+x,"
  generalize hspec : ModeSpec.symbolic
    [⟨⟨false, true, true⟩, .add, ⟨true, false, true⟩⟩, ⟨.all, .assign, .none⟩] = spec
  have hok : ofString "oog+xrx,=" = .ok spec := by
    rw [← Outcome.toOption_eq_some_iff, ← hspec]
    decide +kernel
  have hrender : spec.render = "go+rx,ugo=" := by
    rw [← hspec]
    decide +kernel
  refine ⟨⟨spec, (hread spec).mp hok, hagain spec hok, hrender⟩, hrefused fun other hother => ?_⟩
  have hnot : (ofString "u+x,").toOption = none := by decide +kernel
  rw [Outcome.toOption_eq_some_iff.mpr ((hnone other).mpr hother)] at hnot
  cases hnot

end ModeSpec

end ShellTutor
