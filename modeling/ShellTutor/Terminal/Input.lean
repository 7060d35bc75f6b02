/-!
# Lines from the keyboard

Input arrives as bytes. A line feed ends a line, with or without a carriage return before it; the
last line may lack it. The bytes of a line have to be the UTF-8 form of a text.
-/

namespace ShellTutor.Terminal

/-- What was read where a line was expected. -/
inductive Input where
  | line (text : String)
  /-- A line that is no text, or that could not be read, and why. -/
  | unreadable (reason : String)
  deriving DecidableEq, Repr

def dropLineEnd (bytes : List UInt8) : List UInt8 :=
  match bytes.reverse with
  | 10 :: 13 :: rest => rest.reverse
  | 10 :: rest => rest.reverse
  | _ => bytes

def Input.ofBytes (bytes : List UInt8) : Input :=
  match String.fromUTF8? ⟨(dropLineEnd bytes).toArray⟩ with
  | some text => .line text
  | none => .unreadable "stream did not contain valid UTF-8"

def splitLines : List UInt8 → List (List UInt8)
  | [] => []
  | b :: bs =>
    if b = 10 then [b] :: splitLines bs
    else
      match splitLines bs with
      | [] => [[b]]
      | line :: rest => (b :: line) :: rest

/-- Cutting loses nothing. -/
theorem flatten_splitLines (bytes : List UInt8) : (splitLines bytes).flatten = bytes := by
  induction bytes with
  | nil => rfl
  | cons b bs ih =>
    unfold splitLines
    split
    · simp [ih]
    · split
      · rename_i h
        rw [h] at ih
        simp [← ih]
      · rename_i h
        rw [h] at ih
        simp [← ih]

def readLines (bytes : List UInt8) : List Input :=
  (splitLines bytes).map Input.ofBytes

end ShellTutor.Terminal
