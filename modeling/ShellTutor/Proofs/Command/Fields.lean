import ShellTutor.Command.Builtin
import ShellTutor.Proofs.Number.Integer
import ShellTutor.Proofs.Outcome
import ShellTutor.Proofs.Text.Occurrence
import ShellTutor.Proofs.Text.Split

/-!
# Fields of a line

Which fields `cut` keeps is written as one number or as a list of ranges. `Written` tells what such
a text means without reading it. Fields are counted from one, and a range covers those between its
ends, so what is kept of a line can be told by the numbers of its fields alone. Cutting loses only
the delimiters between the pieces: the fields up to some number and those behind it are the line
again.
-/

namespace ShellTutor

namespace Number

variable {bound n : Nat} {s : String}

theorem natUpTo?_eq_some_iff :
    natUpTo? bound s = some n ↔
      dropPlus s.toList ≠ [] ∧ (∀ c ∈ dropPlus s.toList, isDigit c = true) ∧
        ofDigits (dropPlus s.toList) = n ∧ n ≤ bound := by
  rw [natUpTo?]
  generalize dropPlus s.toList = digits
  by_cases hdigits : digits ≠ [] ∧ ∀ c ∈ digits, isDigit c = true
  · obtain ⟨hne, hall⟩ := hdigits
    have hread : ¬ (digits.isEmpty || !digits.all isDigit) = true := by
      simpa [hne] using hall
    simp only [if_neg hread, Option.ite_none_right_eq_some, Option.some.injEq]
    constructor
    · rintro ⟨hle, rfl⟩
      exact ⟨hne, hall, rfl, hle⟩
    · rintro ⟨-, -, rfl, hle⟩
      exact ⟨hle, rfl⟩
  · have hrefused : (digits.isEmpty || !digits.all isDigit) = true := by
      by_contra hread
      exact hdigits (by simpa using hread)
    rw [if_pos hrefused]
    refine iff_of_false (by simp) fun h => hdigits ⟨h.1, h.2.1⟩

/-- A number is written in digits and a sign. -/
theorem sign_or_digit_of_natUpTo? (h : natUpTo? bound s = some n) :
    ∀ c ∈ s.toList, c = '+' ∨ isDigit c = true := by
  obtain ⟨-, hdigits, -⟩ := natUpTo?_eq_some_iff.mp h
  generalize s.toList = cs at hdigits
  intro c hc
  unfold dropPlus at hdigits
  split at hdigits
  · exact (List.mem_cons.mp hc).imp id (hdigits c)
  · exact Or.inr (hdigits c hc)

theorem isDigit_of_isDigit {c : Char} (h : c.isDigit = true) : isDigit c = true := by
  rw [Char.isDigit, Bool.and_eq_true, decide_eq_true_eq, decide_eq_true_eq] at h
  exact isDigit_iff.mpr h

/-- A number is read as it is printed. -/
theorem natUpTo?_toString (h : n ≤ bound) : natUpTo? bound (toString n) = some n := by
  have hprinted : (toString n).toList = Nat.toDigits 10 n := Nat.toList_repr
  have hdigits : ∀ c ∈ Nat.toDigits 10 n, isDigit c = true := fun c hc =>
    isDigit_of_isDigit (Nat.isDigit_of_mem_toDigits (by decide) (by decide) hc)
  have hunsigned : dropPlus (Nat.toDigits 10 n) = Nat.toDigits 10 n := by
    unfold dropPlus
    split
    · rename_i cs heq
      have hplus := hdigits '+' (heq ▸ List.mem_cons_self ..)
      cases hplus
    · rfl
  rw [natUpTo?_eq_some_iff, hprinted, hunsigned]
  exact ⟨Nat.toDigits_ne_nil, hdigits, Nat.ofDigitChars_toDigits (by decide) (by decide), h⟩

end Number

namespace Filter

/-- A number that a field can have. -/
def IsFieldNumber (cs : List Char) (n : Nat) : Prop :=
  Number.count? (String.ofList cs) = some n ∧ 1 ≤ n

/-- What a text means as an item of a list: one field, a field and all behind it, all fields up to
one, or those from one to another. -/
inductive FieldRange.Written : List Char → FieldRange → Prop
  | one {cs : List Char} {n : Nat} (h : IsFieldNumber cs n) : Written cs ⟨n, some n⟩
  | onward {cs : List Char} {n : Nat} (h : IsFieldNumber cs n) : Written (cs ++ ['-']) ⟨n, none⟩
  | upTo {cs : List Char} {n : Nat} (h : IsFieldNumber cs n) : Written ('-' :: cs) ⟨1, some n⟩
  | between {cs ds : List Char} {m n : Nat} (hfirst : IsFieldNumber cs m)
      (hlast : IsFieldNumber ds n) : Written (cs ++ '-' :: ds) ⟨m, some n⟩

/-- What a text means to `cut`: a number alone, or items with commas between them. -/
inductive FieldSpec.Written : List Char → FieldSpec → Prop
  | single {cs : List Char} {n : Nat} (h : IsFieldNumber cs n) : Written cs (.single n)
  | list {cs : List Char} {ranges : List FieldRange} (hmark : ',' ∈ cs ∨ '-' ∈ cs)
      (hitems : List.Forall₂ FieldRange.Written (cs.splitOn ',') ranges) : Written cs (.list ranges)

/-- All numbers of a range are at least one, so there is a field before which it begins. -/
structure FieldRange.Counted (range : FieldRange) : Prop where
  first : 1 ≤ range.first
  last : ∀ n ∈ range.last, 1 ≤ n

def FieldSpec.ranges : FieldSpec → List FieldRange
  | .single n => [⟨n, some n⟩]
  | .list ranges => ranges

/-- What a range takes of a list is a slice between two places of it, or nothing. -/
def FieldRange.IsSlice (range : FieldRange) (items slice : List (List Char)) : Prop :=
  ∃ start stop, start + 1 = range.first ∧ stop ≤ items.length ∧
    slice = if start < stop then (items.take stop).drop start else []

/-- The numbers of the fields that a range asks for. -/
def FieldRange.Covers (range : FieldRange) (n : Nat) : Prop :=
  range.first ≤ n ∧ ∀ last ∈ range.last, n ≤ last

instance (range : FieldRange) (n : Nat) : Decidable (range.Covers n) :=
  inferInstanceAs (Decidable (range.first ≤ n ∧ ∀ last ∈ range.last, n ≤ last))

/-- The fields of a line that a range covers, in order. -/
def FieldRange.covered (range : FieldRange) (fields : List (List Char)) : List (List Char) :=
  ((fields.zipIdx 1).filter fun field => range.Covers field.2).map Prod.fst

/-- What is kept of a line: one field, which is empty if the line lacks it, or the fields that the
items of a list cover, item by item. -/
def FieldSpec.kept : FieldSpec → List (List Char) → List (List Char)
  | .single n, fields => [fields.getD (n - 1) []]
  | .list ranges, fields => ranges.flatMap fun range => range.covered fields

/-- The row of a line: the line is cut at the delimiter, and what is kept of it is put together
again. -/
def FieldSpec.IsRow (spec : FieldSpec) (delimiter line row : String) : Prop :=
  ∃ fields, Text.Pieces delimiter.toList line.toList fields ∧
    row.toList = delimiter.toList.intercalate (spec.kept fields)

section Numbers

variable {cs : List Char} {n : Nat}

theorem fieldIndex?_eq_some_iff : fieldIndex? cs = some n ↔ IsFieldNumber cs n := by
  rw [fieldIndex?, IsFieldNumber]
  split
  · rename_i hzero
    simp [hzero]
    omega
  · rename_i hother
    constructor
    · intro hread
      refine ⟨hread, Nat.pos_of_ne_zero ?_⟩
      rintro rfl
      exact hother hread
    · exact fun h => h.1

theorem IsFieldNumber.ne_nil (h : IsFieldNumber cs n) : cs ≠ [] := by
  rintro rfl
  obtain ⟨hne, -⟩ := Number.natUpTo?_eq_some_iff.mp h.1
  exact hne (by decide)

/-- A number holds none of the marks between numbers. -/
theorem IsFieldNumber.plain (h : IsFieldNumber cs n) : ',' ∉ cs ∧ '-' ∉ cs := by
  have hsigns := Number.sign_or_digit_of_natUpTo? h.1
  rw [String.toList_ofList] at hsigns
  exact ⟨fun hmem => absurd (hsigns _ hmem) (by decide),
    fun hmem => absurd (hsigns _ hmem) (by decide)⟩

theorem isFieldNumber_toString (hpositive : 1 ≤ n) (hbound : n ≤ Number.maxCount) :
    IsFieldNumber (toString n).toList n := by
  rw [IsFieldNumber, String.ofList_toList]
  exact ⟨Number.natUpTo?_toString hbound, hpositive⟩

end Numbers

variable {cs : List Char} {range : FieldRange} {spec : FieldSpec}

theorem written_of_fieldRange? (h : fieldRange? cs = some range) : FieldRange.Written cs range := by
  unfold fieldRange? at h
  split at h
  · cases h
  · rename_i last _ hcut
    obtain ⟨rfl, -⟩ := Text.splitOnce_eq_some_iff.mp hcut
    obtain ⟨n, hn, rfl⟩ := Option.map_eq_some_iff.mp h
    exact .upTo (fieldIndex?_eq_some_iff.mp hn)
  · rename_i first _ hcut
    obtain ⟨rfl, -⟩ := Text.splitOnce_eq_some_iff.mp hcut
    obtain ⟨n, hn, rfl⟩ := Option.map_eq_some_iff.mp h
    exact .onward (fieldIndex?_eq_some_iff.mp hn)
  · rename_i first last _ _ _ hcut
    obtain ⟨rfl, -⟩ := Text.splitOnce_eq_some_iff.mp hcut
    obtain ⟨m, hm, h⟩ := Option.bind_eq_some_iff.mp h
    obtain ⟨n, hn, h⟩ := Option.bind_eq_some_iff.mp h
    cases h
    exact .between (fieldIndex?_eq_some_iff.mp hm) (fieldIndex?_eq_some_iff.mp hn)
  · obtain ⟨n, hn, rfl⟩ := Option.map_eq_some_iff.mp h
    exact .one (fieldIndex?_eq_some_iff.mp hn)

theorem FieldRange.Written.fieldRange?_eq (h : FieldRange.Written cs range) :
    fieldRange? cs = some range := by
  unfold fieldRange?
  cases h with
  | one h =>
    have hread := fieldIndex?_eq_some_iff.mpr h
    simp [Text.splitOnce_eq_none_iff.mpr h.plain.2, hread]
  | onward h =>
    have hread := fieldIndex?_eq_some_iff.mpr h
    simp [Text.splitOnce_append h.plain.2, hread, h.ne_nil]
  | @upTo ds n h =>
    have hread := fieldIndex?_eq_some_iff.mpr h
    have hcut : Text.splitOnce '-' ('-' :: ds) = some ([], ds) :=
      Text.splitOnce_append List.not_mem_nil ds
    simp [hcut, hread, h.ne_nil]
  | between hfirst hlast =>
    have hm := fieldIndex?_eq_some_iff.mpr hfirst
    have hn := fieldIndex?_eq_some_iff.mpr hlast
    simp [Text.splitOnce_append hfirst.plain.2, hm, hn, hfirst.ne_nil, hlast.ne_nil]

/-- What `cut` accepts as fields is what is written so. -/
theorem fieldSpec?_eq_some_iff : fieldSpec? cs = some spec ↔ FieldSpec.Written cs spec := by
  have hitem : ∀ cs range, fieldRange? cs = some range ↔ FieldRange.Written cs range :=
    fun _ _ => ⟨written_of_fieldRange?, FieldRange.Written.fieldRange?_eq⟩
  have hmarks : (cs.contains ',' || cs.contains '-') = true ↔ ',' ∈ cs ∨ '-' ∈ cs := by
    rw [Bool.or_eq_true, List.contains_iff_mem, List.contains_iff_mem]
  rw [fieldSpec?]
  split
  · rename_i hlist
    rw [hmarks] at hlist
    simp only [Option.map_eq_some_iff, Outcome.mapM_eq_some_iff, hitem]
    constructor
    · rintro ⟨ranges, hranges, rfl⟩
      exact .list hlist hranges
    · rintro (hsingle | ⟨-, hranges⟩)
      · exact absurd hlist (not_or.mpr hsingle.plain)
      · exact ⟨_, hranges, rfl⟩
  · rename_i halone
    rw [hmarks] at halone
    simp only [Option.map_eq_some_iff, fieldIndex?_eq_some_iff]
    constructor
    · rintro ⟨n, hn, rfl⟩
      exact .single hn
    · rintro (hsingle | ⟨hlist, -⟩)
      · exact ⟨_, hsingle, rfl⟩
      · exact absurd hlist halone

theorem FieldRange.Written.counted (h : FieldRange.Written cs range) : range.Counted := by
  cases h with
  | one h => exact ⟨h.2, by simpa using h.2⟩
  | onward h => exact ⟨h.2, by simp⟩
  | upTo h => exact ⟨le_refl 1, by simpa using h.2⟩
  | between hfirst hlast => exact ⟨hfirst.2, by simpa using hlast.2⟩

theorem FieldRange.Written.not_comma (h : FieldRange.Written cs range) : ',' ∉ cs := by
  cases h with
  | one h => exact h.plain.1
  | onward h => simp [h.plain.1]
  | upTo h => simp [h.plain.1]
  | between hfirst hlast => simp [hfirst.plain.1, hlast.plain.1]

/-- A range that stands alone is a list of one. -/
theorem FieldRange.Written.alone (h : FieldRange.Written cs range) (hmark : '-' ∈ cs) :
    FieldSpec.Written cs (.list [range]) := by
  refine .list (Or.inr hmark) ?_
  rw [List.splitOn_eq_singleton h.not_comma]
  exact .cons h .nil

theorem FieldSpec.Written.counted (h : FieldSpec.Written cs spec) :
    ∀ range ∈ spec.ranges, range.Counted := by
  cases h with
  | single h => exact List.forall_mem_singleton.mpr (FieldRange.Written.one h).counted
  | @list ranges _ hitems =>
    rw [FieldSpec.ranges]
    generalize cs.splitOn ',' = items at hitems
    induction hitems with
    | nil => exact List.forall_mem_nil _
    | cons hfirst _ ih => exact List.forall_mem_cons.mpr ⟨hfirst.counted, ih⟩

section Covered

variable {α : Type} (items : List α) (start n : Nat)

/-- The items numbered below a bound are those taken up to it. -/
theorem filter_zipIdx_lt :
    ((items.zipIdx start).filter fun item => item.2 < start + n) = (items.take n).zipIdx start := by
  induction items generalizing start n with
  | nil => simp
  | cons item rest ih =>
    cases n with
    | zero =>
      rw [List.take_zero, List.zipIdx_nil, List.filter_eq_nil_iff]
      intro numbered hmem
      simpa using List.le_snd_of_mem_zipIdx hmem
    | succ n =>
      have hrest : start + (n + 1) = start + 1 + n := by omega
      rw [List.zipIdx_cons, List.filter_cons_of_pos (by simp), hrest, ih, List.take_succ_cons,
        List.zipIdx_cons]

/-- The items numbered from a bound on are those left when the others are dropped. -/
theorem filter_zipIdx_ge :
    ((items.zipIdx start).filter fun item => start + n ≤ item.2) =
      (items.drop n).zipIdx (start + n) := by
  induction items generalizing start n with
  | nil => simp
  | cons item rest ih =>
    cases n with
    | zero =>
      rw [List.drop_zero, Nat.add_zero, List.filter_eq_self]
      intro numbered hmem
      simpa using List.le_snd_of_mem_zipIdx hmem
    | succ n =>
      have hrest : start + (n + 1) = start + 1 + n := by omega
      rw [List.zipIdx_cons, List.filter_cons_of_neg (by simp), hrest, ih, List.drop_succ_cons]

end Covered

/-- A slice between the ends of a range has the fields that the range covers. -/
theorem FieldRange.Counted.select_eq (h : range.Counted) (fields : List (List Char)) :
    range.select fields = range.covered fields := by
  obtain ⟨first, last⟩ := range
  have hfirst : 1 + (first - 1) = first := Nat.add_sub_cancel' h.first
  have hbehind := fun items : List (List Char) => filter_zipIdx_ge items 1 (first - 1)
  rw [hfirst] at hbehind
  cases last with
  | none =>
    have hcovers : ∀ n, Covers ⟨first, none⟩ n ↔ first ≤ n := by simp [Covers]
    simp only [select, covered, hcovers, hbehind, List.zipIdx_map_fst]
  | some last =>
    have hcovers : ∀ n, Covers ⟨first, some last⟩ n ↔ first ≤ n ∧ n < 1 + last := by
      intro n
      simp only [Covers, Option.mem_some_iff, forall_eq']
      omega
    simp only [select, covered, hcovers, Bool.decide_and, ← List.filter_filter, filter_zipIdx_lt,
      hbehind, List.zipIdx_map_fst]

theorem FieldRange.Counted.isSlice_select (h : range.Counted) (items : List (List Char)) :
    range.IsSlice items (range.select items) := by
  obtain ⟨first, last⟩ := range
  have hstart : first - 1 + 1 = first := Nat.sub_add_cancel h.first
  have hempty : ∀ n, ¬ first - 1 < n → n ≤ items.length → (items.take n).drop (first - 1) = [] :=
    fun n hlow hhigh => List.drop_eq_nil_of_le (by rw [List.length_take]; omega)
  cases last with
  | none =>
    refine ⟨first - 1, items.length, hstart, le_refl _, ?_⟩
    split
    · rw [List.take_length]
      rfl
    · rename_i hlow
      rw [← hempty _ hlow (le_refl _), List.take_length]
      rfl
  | some last =>
    refine ⟨first - 1, min last items.length, hstart, Nat.min_le_right .., ?_⟩
    have htake : items.take (min last items.length) = items.take last := List.take_eq_take_min.symm
    split
    · rw [htake]
      rfl
    · rename_i hlow
      rw [← hempty _ hlow (Nat.min_le_right ..), htake]
      rfl

theorem FieldSpec.select_eq (h : ∀ range ∈ spec.ranges, range.Counted)
    (fields : List (List Char)) : spec.select fields = spec.kept fields := by
  cases spec with
  | single n => rfl
  | list ranges =>
    have hranges : ∀ range ∈ ranges, range.select fields = range.covered fields :=
      fun range hrange => FieldRange.Counted.select_eq (h range hrange) fields
    exact List.flatMap_congr hranges

theorem FieldSpec.isRow_cutLine (h : ∀ range ∈ spec.ranges, range.Counted) {delimiter : String}
    (hdelimiter : delimiter ≠ "") (line : String) :
    spec.IsRow delimiter line (cutLine delimiter spec line) := by
  have hne : delimiter.toList ≠ [] := by simpa using hdelimiter
  refine ⟨_, Text.pieces_splitText hne line.toList, ?_⟩
  rw [cutLine, String.toList_ofList, select_eq h]

theorem covered_onward (n : Nat) (fields : List (List Char)) :
    FieldRange.covered ⟨n + 1, none⟩ fields = fields.drop n := by
  rw [← FieldRange.Counted.select_eq ⟨Nat.le_add_left .., by simp⟩]
  rfl

theorem covered_upTo {n : Nat} (hn : 1 ≤ n) (fields : List (List Char)) :
    FieldRange.covered ⟨1, some n⟩ fields = fields.take n := by
  rw [← FieldRange.Counted.select_eq ⟨le_refl 1, by simpa using hn⟩]
  rfl

/-- Whether a line has fields that are kept. -/
def FieldSpec.HasFields (spec : FieldSpec) (delimiter line : String) : Prop :=
  ∃ fields, Text.Pieces delimiter.toList line.toList fields ∧ spec.kept fields ≠ []

section Row

variable {delimiter line row front back : String} {n : Nat}

/-- All fields, put together again, are the line. -/
theorem eq_of_isRow_all (h : FieldSpec.IsRow (.list [⟨1, none⟩]) delimiter line row) :
    row = line := by
  obtain ⟨fields, hfields, hrow⟩ := h
  rw [FieldSpec.kept, List.flatMap_singleton, covered_onward, List.drop_zero,
    hfields.intercalate] at hrow
  exact String.toList_inj.mp hrow

/-- The fields up to a number and those behind it, put together again, are the line. -/
theorem eq_of_isRow_halves (hn : 1 ≤ n)
    (hfront : FieldSpec.IsRow (.list [⟨1, some n⟩]) delimiter line front)
    (hback : FieldSpec.IsRow (.list [⟨n + 1, none⟩]) delimiter line back) :
    (FieldSpec.HasFields (.list [⟨n + 1, none⟩]) delimiter line →
      front ++ delimiter ++ back = line) ∧
    (¬ FieldSpec.HasFields (.list [⟨n + 1, none⟩]) delimiter line → front = line) := by
  obtain ⟨fields, hfields, hrow⟩ := hfront
  obtain ⟨fields', hfields', hrow'⟩ := hback
  obtain rfl := hfields.unique hfields'
  rw [FieldSpec.kept, List.flatMap_singleton, covered_upTo hn] at hrow
  rw [FieldSpec.kept, List.flatMap_singleton, covered_onward] at hrow'
  have hsome : FieldSpec.HasFields (.list [⟨n + 1, none⟩]) delimiter line ↔ fields.drop n ≠ [] := by
    constructor
    · rintro ⟨others, hothers, hkept⟩
      obtain rfl := hfields.unique hothers
      rwa [FieldSpec.kept, List.flatMap_singleton, covered_onward] at hkept
    · intro hkept
      refine ⟨fields, hfields, ?_⟩
      rwa [FieldSpec.kept, List.flatMap_singleton, covered_onward]
  rw [hsome, ← String.toList_inj, ← String.toList_inj, String.toList_append, String.toList_append,
    hrow, hrow', ← hfields.intercalate]
  constructor
  · intro hrest
    have htaken : fields.take n ≠ [] := by
      rintro hnone
      rw [List.take_eq_nil_iff] at hnone
      rcases hnone with rfl | rfl
      · omega
      · exact hrest List.drop_nil
    rw [← Text.intercalate_append htaken hrest, List.take_append_drop]
  · intro hrest
    rw [not_not] at hrest
    rw [List.take_of_length_le (List.drop_eq_nil_iff.mp hrest)]

end Row

/-- What `cut` answers when it is given a delimiter. -/
theorem cut_eq {args : List String} (hdelimiter : (CutOptions.parse args).delimiter ≠ "")
    (usage : String) (piped : Option String) (env : Environment) :
    cut usage args piped env =
      match fieldSpec? (CutOptions.parse args).fields.toList with
      | none => .error (.invalidArgument
          ("invalid field list: '" ++ (CutOptions.parse args).fields ++ "'"))
      | some spec => (input usage env piped (CutOptions.parse args).file).map fun text =>
          .text (Text.unlines ((Text.lines text).map
            (cutLine (CutOptions.parse args).delimiter spec))) := by
  rw [cut]
  simp only [if_neg hdelimiter]
  cases fieldSpec? (CutOptions.parse args).fields.toList with
  | none => rfl
  | some spec => cases input usage env piped (CutOptions.parse args).file <;> rfl

end Filter

namespace Command

open ShellTutor.Filter

/-- Fields are accepted just if they are written as a number or as a list of ranges. Then there is
a row for each line, made of the fields that the numbers ask for. All fields from the first on give
each line back, and so do the fields up to a number and those behind it, put together. -/
theorem cut_selects_fields {args : List String} {delimiter fields : String}
    (hgiven : (CutOptions.parse args).delimiter = delimiter) (hdelimiter : delimiter ≠ "")
    (hfields : (CutOptions.parse args).fields = fields) (piped : Option String)
    (env : Environment) :
    ((¬ ∃ spec, FieldSpec.Written fields.toList spec) → cut.execute args piped env =
      (.error (.invalidArgument ("invalid field list: '" ++ fields ++ "'")), env)) ∧
    (∀ spec, FieldSpec.Written fields.toList spec →
      (∀ range ∈ spec.ranges,
        range.Counted ∧ ∀ items, range.IsSlice items (range.select items)) ∧
      ∀ text, input cut.usage env piped (CutOptions.parse args).file = .ok text →
        ∃ rows, cut.execute args piped env = (.ok (.text (Text.unlines rows)), env) ∧
          List.Forall₂ (spec.IsRow delimiter) (Text.lines text) rows ∧
          (fields = "1-" → rows = Text.lines text)) ∧
    ∀ n, 1 ≤ n → n + 1 ≤ Number.maxCount →
      FieldSpec.Written ("-" ++ toString n).toList (.list [⟨1, some n⟩]) ∧
      FieldSpec.Written (toString (n + 1) ++ "-").toList (.list [⟨n + 1, none⟩]) ∧
      ∀ line front back, FieldSpec.IsRow (.list [⟨1, some n⟩]) delimiter line front →
        FieldSpec.IsRow (.list [⟨n + 1, none⟩]) delimiter line back →
        (FieldSpec.HasFields (.list [⟨n + 1, none⟩]) delimiter line →
          front ++ delimiter ++ back = line) ∧
        (¬ FieldSpec.HasFields (.list [⟨n + 1, none⟩]) delimiter line → front = line) := by
  subst hgiven hfields
  have hcut := cut_eq hdelimiter cut.usage piped env
  refine ⟨fun hunread => ?_, fun spec hwritten => ⟨fun range hrange => ?_, fun text hinput => ?_⟩,
    fun n hn hbound => ⟨?_, ?_, fun line front back => eq_of_isRow_halves hn⟩⟩
  · have hrefused : fieldSpec? (CutOptions.parse args).fields.toList = none := by
      rw [Option.eq_none_iff_forall_ne_some]
      exact fun spec hspec => hunread ⟨spec, fieldSpec?_eq_some_iff.mp hspec⟩
    rw [hrefused] at hcut
    exact Prod.ext hcut rfl
  · have hcounted := hwritten.counted range hrange
    exact ⟨hcounted, hcounted.isSlice_select⟩
  · rw [fieldSpec?_eq_some_iff.mpr hwritten, hinput] at hcut
    have hrows : ∀ line,
        spec.IsRow (CutOptions.parse args).delimiter line
          (cutLine (CutOptions.parse args).delimiter spec line) :=
      FieldSpec.isRow_cutLine hwritten.counted hdelimiter
    refine ⟨_, Prod.ext hcut rfl, ?_, fun hall => ?_⟩
    · rw [List.forall₂_map_right_iff, List.forall₂_same]
      exact fun line _ => hrows line
    · rw [hall] at hwritten
      have hspec : spec = .list [⟨1, none⟩] := by
        have hread := fieldSpec?_eq_some_iff.mpr hwritten
        have hknown : fieldSpec? "1-".toList = some (.list [⟨1, none⟩]) := by decide +kernel
        rw [hknown, Option.some.injEq] at hread
        exact hread.symm
      subst hspec
      exact List.map_id'' (fun line => eq_of_isRow_all (hrows line)) _
  · rw [String.toList_append]
    exact (FieldRange.Written.upTo (isFieldNumber_toString hn (by omega))).alone (by simp)
  · rw [String.toList_append]
    exact (FieldRange.Written.onward (isFieldNumber_toString (by omega) hbound)).alone (by simp)

theorem cut_selects_fields_of_columns :
    ∃ (env : Environment) (rows : List String) (front back : String),
      FieldSpec.Written "3,1-2".toList (.list [⟨3, some 3⟩, ⟨1, some 2⟩]) ∧
      cut.execute ["-d", "::", "-f3,1-2"] (some "a::b::c\n\n::::x::") env =
        (.ok (.text (Text.unlines rows)), env) ∧
      List.Forall₂ (FieldSpec.IsRow (.list [⟨3, some 3⟩, ⟨1, some 2⟩]) "::")
        ["a::b::c", "", "::::x::"] rows ∧
      Text.unlines rows = "c::a::b\n\nx::::" ∧
      FieldSpec.IsRow (.list [⟨1, some 1⟩]) "::" "a::b:::c" front ∧
      FieldSpec.IsRow (.list [⟨2, none⟩]) "::" "a::b:::c" back ∧
      front ++ "::" ++ back = "a::b:::c" := by
  generalize henv : (⟨"/", "/", "quest", ⟨[], "quest", "quest"⟩, {}, [], ⟨0⟩⟩ : Environment) = env
  have hwritten : FieldSpec.Written "3,1-2".toList (.list [⟨3, some 3⟩, ⟨1, some 2⟩]) :=
    fieldSpec?_eq_some_iff.mp (by decide +kernel)
  have hlines : Text.lines "a::b::c\n\n::::x::" = ["a::b::c", "", "::::x::"] := by
    decide +kernel
  have hgiven : (CutOptions.parse ["-d", "::", "-f3,1-2"]).delimiter = "::" := by decide +kernel
  have hfields : (CutOptions.parse ["-d", "::", "-f3,1-2"]).fields = "3,1-2" := by decide +kernel
  have hshown : cut.execute ["-d", "::", "-f3,1-2"] (some "a::b::c\n\n::::x::") env =
      (.ok (.text "c::a::b\n\nx::::"), env) := by
    subst henv
    decide +kernel
  obtain ⟨-, hrows, hhalves⟩ := cut_selects_fields hgiven (by decide) hfields
    (some "a::b::c\n\n::::x::") env
  obtain ⟨-, hanswer⟩ := hrows _ hwritten
  obtain ⟨rows, hexecute, hrow, -⟩ := hanswer "a::b::c\n\n::::x::" (by subst henv; decide +kernel)
  obtain ⟨hupTo, honward, hwhole⟩ := hhalves 1 (le_refl 1) (by decide +kernel)
  have hfront : FieldSpec.IsRow (.list [⟨1, some 1⟩]) "::" "a::b:::c" "a" :=
    ⟨[['a'], ['b'], [':', 'c']], Text.pieces_splitText (by decide) _, by decide +kernel⟩
  have hback : FieldSpec.IsRow (.list [⟨2, none⟩]) "::" "a::b:::c" "b:::c" :=
    ⟨[['a'], ['b'], [':', 'c']], Text.pieces_splitText (by decide) _, by decide +kernel⟩
  have hmore : FieldSpec.HasFields (.list [⟨2, none⟩]) "::" "a::b:::c" :=
    ⟨[['a'], ['b'], [':', 'c']], Text.pieces_splitText (by decide) _, by decide +kernel⟩
  refine ⟨env, rows, "a", "b:::c", hwritten, hexecute, hlines ▸ hrow, ?_, hfront, hback,
    (hwhole _ _ _ hfront hback).1 hmore⟩
  rw [hshown] at hexecute
  simpa using hexecute.symm

end Command

end ShellTutor
