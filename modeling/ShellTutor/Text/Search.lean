/-!
# Looking for a text inside a text

`occurs` asks whether a needle occurs, `splitText` cuts a text at the leftmost occurrences that do
not overlap, and `replaceAll` puts something else in their place.
-/

namespace ShellTutor.Text

/-- Whether `needle` occurs in a list of characters as a run. -/
def occursIn (needle : List Char) : List Char → Bool
  | [] => needle.isEmpty
  | c :: cs => needle.isPrefixOf (c :: cs) || occursIn needle cs

/-- A needle occurs in a text just if it is one of its runs. -/
theorem occursIn_iff (needle cs : List Char) : occursIn needle cs = true ↔ needle <:+: cs := by
  induction cs with
  | nil => rw [occursIn, List.isEmpty_iff, List.infix_nil]
  | cons c cs ih =>
    rw [occursIn, Bool.or_eq_true, List.isPrefixOf_iff_prefix, ih, List.infix_cons_iff]

/-- Whether `needle` occurs in `text`. -/
def occurs (needle text : String) : Bool :=
  occursIn needle.toList text.toList

/-- Cuts a text at each occurrence of `needle`, leaving out its first `skip` characters: they are
the rest of an occurrence that was already cut. -/
def splitFrom (needle : List Char) : Nat → List Char → List (List Char)
  | _, [] => [[]]
  | skip + 1, _ :: cs => splitFrom needle skip cs
  | 0, c :: cs =>
    if needle.isPrefixOf (c :: cs) then [] :: splitFrom needle (needle.length - 1) cs
    else (splitFrom needle 0 cs).modifyHead (c :: ·)

/-- The pieces of a text between the leftmost occurrences of a non-empty `needle` that do not
overlap. There is always one piece more than there are occurrences. -/
def splitText (needle text : List Char) : List (List Char) :=
  splitFrom needle 0 text

/-- The text with `replacement` in place of each occurrence that `splitText` cuts at. -/
def replaceAll (needle replacement text : List Char) : List Char :=
  List.intercalate replacement (splitText needle text)

/-- The text before and after the first `sep`, if there is one. -/
def splitOnce (sep : Char) (cs : List Char) : Option (List Char × List Char) :=
  match cs.dropWhile (· != sep) with
  | [] => none
  | _ :: after => some (cs.takeWhile (· != sep), after)

/-- What follows `lead` when the text starts with it. -/
def after? (lead text : String) : Option String :=
  if lead.toList.isPrefixOf text.toList then
    some (String.ofList (text.toList.drop lead.toList.length))
  else none

def without (unwanted : List Char) (s : String) : String :=
  String.ofList (s.toList.filter fun c => !unwanted.contains c)

end ShellTutor.Text
