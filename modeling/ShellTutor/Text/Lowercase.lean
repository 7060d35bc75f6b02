import ShellTutor.Text.CaseTable
import ShellTutor.Text.Search

/-!
# Lower case

`lowercase` is Unicode's full lower-case mapping. Every character is mapped on its own, with two
particulars: a capital dotted I becomes two characters, and a capital sigma becomes a final sigma
where it ends a word. Texts that differ only in case are compared through it.
-/

namespace ShellTutor.Text

/-- Whether a code point lies in one of the given ranges. -/
def inRanges (ranges : List (Nat × Nat)) (n : Nat) : Bool :=
  ranges.any fun (low, high) => low ≤ n && n ≤ high

/-- Whether a run of the table holds the code point `n`. -/
def LowerRun.holds (run : LowerRun) (n : Nat) : Bool :=
  run.first ≤ n && n ≤ run.last && (n - run.first) % run.step == 0

/-- The lower-case form of a character that stands for itself, whatever surrounds it. -/
def lowerChar (c : Char) : List Char :=
  if c.toNat < 0x80 then [c.toLower]
  else if c = '\u0130' then ['i', '\u0307']
  else
    match lowerRuns.find? (·.holds c.toNat) with
    | some run => [Char.ofNat (c.toNat + run.shift).toNat]
    | none => [c]

/-- Whether the first character that is not case-ignorable is a cased letter. -/
def startsCased (cs : List Char) : Bool :=
  match cs.dropWhile fun c => inRanges caseIgnorable c.toNat with
  | [] => false
  | c :: _ => inRanges casedLetters c.toNat

/-- The lower-case form of a sigma: final when a letter precedes it and none follows. `before` is
the text before it, last character first. -/
def lowerSigma (before cs : List Char) : Char :=
  if startsCased before && !startsCased cs then '\u03C2' else '\u03C3'

/-- The lower-case form of a text that stands after `before`, which is given backwards. -/
def lowerAfter (before : List Char) : List Char → List Char
  | [] => []
  | c :: cs =>
    (if c = '\u03A3' then [lowerSigma before cs] else lowerChar c) ++ lowerAfter (c :: before) cs

def lowerChars (cs : List Char) : List Char :=
  lowerAfter [] cs

def lowercase (s : String) : String :=
  String.ofList (lowerChars s.toList)

theorem toList_lowercase (s : String) : (lowercase s).toList = lowerChars s.toList :=
  String.toList_ofList

/-- Whether `needle` occurs in `text` when case is ignored. -/
def occursIgnoringCase (needle text : String) : Bool :=
  occursIn (lowerChars needle.toList) (lowerChars text.toList)

/-- This is to occur once both texts are in lower case. -/
theorem occursIgnoringCase_iff (needle text : String) :
    occursIgnoringCase needle text = true ↔
      (lowercase needle).toList <:+: (lowercase text).toList := by
  rw [occursIgnoringCase, occursIn_iff, toList_lowercase, toList_lowercase]

end ShellTutor.Text
