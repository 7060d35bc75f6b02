import ShellTutor.Document.Value
import ShellTutor.Number.Natural

/-!
# JSON

A JSON text is read in two passes, each a machine that takes one item at a time: the first turns
characters into tokens, the second turns tokens into a value with a stack of the lists and records
that are still open. Neither has a limit on depth. Repeated keys are kept: whether they are allowed
depends on who reads the record.
-/

namespace ShellTutor.Document.Json

/-- The items of a JSON text. -/
inductive Token where
  | openList
  | closeList
  | openRecord
  | closeRecord
  | comma
  | colon
  | value (v : Value)
  deriving Repr

/-- A text between its quotes, as far as it is read. -/
structure PartialText where
  /-- The characters so far, last one first. -/
  backwards : List Char := []
  /-- The first half of a surrogate pair whose other half has to come next. -/
  half : Option Nat := none
  /-- Whether every surrogate so far has its other half. -/
  paired : Bool := true

def PartialText.push (t : PartialText) (c : Char) : PartialText :=
  { backwards := c :: t.backwards, half := none, paired := t.paired && t.half.isNone }

/-- Adds the code unit of an escape: a character, or one half of a pair. -/
def PartialText.pushUnit (t : PartialText) (unit : Nat) : PartialText :=
  if 0xD800 ≤ unit ∧ unit < 0xDC00 then
    { t with half := some unit, paired := t.paired && t.half.isNone }
  else if 0xDC00 ≤ unit ∧ unit < 0xE000 then
    match t.half with
    | some high =>
      { t with
        backwards :=
          Char.ofNat (0x10000 + (high - 0xD800) * 0x400 + (unit - 0xDC00)) :: t.backwards
        half := none }
    | none => { t with paired := false }
  else t.push (Char.ofNat unit)

/-- The text, once its closing quote is reached. -/
def PartialText.finish (t : PartialText) : Option String :=
  if t.paired && t.half.isNone then some (String.ofList t.backwards.reverse) else none

/-- Where the first machine stands. -/
inductive LexState where
  | between
  /-- Inside a number, or a word such as `true`; the characters so far, last one first. -/
  | bare (backwards : List Char)
  | text (t : PartialText)
  /-- After a backslash. -/
  | escape (t : PartialText)
  /-- Inside the four digits of an escape: how many are missing, and the value so far. -/
  | unit (t : PartialText) (missing : Nat) (value : Nat)

/-- Whether the text is a fraction after its whole part: a point and digits, an exponent, or
both. -/
def isTail (cs : List Char) : Bool :=
  let exponent :=
    match cs with
    | '.' :: rest => if (rest.takeWhile Number.isDigit).isEmpty then none
      else some (rest.dropWhile Number.isDigit)
    | rest => some rest
  match exponent with
  | none => false
  | some [] => true
  | some (c :: rest) =>
    let digits :=
      match rest with
      | '+' :: digits => digits
      | '-' :: digits => digits
      | digits => digits
    (c = 'e' || c = 'E') && !digits.isEmpty && digits.all Number.isDigit

/-- Reads a number. Minus zero is not an integer. -/
def number? (cs : List Char) : Option Value :=
  let (negative, cs) :=
    match cs with
    | '-' :: rest => (true, rest)
    | rest => (false, rest)
  let whole := cs.takeWhile Number.isDigit
  let tail := cs.dropWhile Number.isDigit
  if whole.isEmpty || (whole.head? == some '0' && whole.length != 1) then none
  else if tail.isEmpty then
    let n := Number.ofDigits whole
    if negative then (if n = 0 then some .fraction else some (.integer (-(n : Int))))
    else some (.integer n)
  else if isTail tail then some .fraction
  else none

def bare? (cs : List Char) : Option Value :=
  if cs = "null".toList then some .null
  else if cs = "true".toList then some (.bool true)
  else if cs = "false".toList then some (.bool false)
  else number? cs

def punctuation? : Char → Option Token
  | '[' => some .openList
  | ']' => some .closeList
  | '\x7b' => some .openRecord
  | '\x7d' => some .closeRecord
  | ',' => some .comma
  | ':' => some .colon
  | _ => none

/-- Whether a character may stand between tokens without meaning. -/
def isSpace (c : Char) : Bool :=
  c = ' ' || c = '\t' || c = '\n' || c = '\r'

/-- A character outside of texts, where no number or word is being read. -/
def startToken (c : Char) (tokens : List Token) : LexState × List Token :=
  if isSpace c then (.between, tokens)
  else if c = '\x22' then (.text ⟨[], none, true⟩, tokens)
  else
    match punctuation? c with
    | some token => (.between, token :: tokens)
    | none => (.bare [c], tokens)

def endsBare (c : Char) : Bool :=
  isSpace c || c = '\x22' || (punctuation? c).isSome

/-- The text after one more character behind a backslash. -/
def afterBackslash (t : PartialText) : Char → Option LexState
  | '\x22' => some (.text (t.push '\x22'))
  | '\\' => some (.text (t.push '\\'))
  | '/' => some (.text (t.push '/'))
  | 'b' => some (.text (t.push '\x08'))
  | 'f' => some (.text (t.push '\x0c'))
  | 'n' => some (.text (t.push '\n'))
  | 'r' => some (.text (t.push '\r'))
  | 't' => some (.text (t.push '\t'))
  | 'u' => some (.unit t 4 0)
  | _ => none

/-- One character of the first machine. Tokens are kept last one first. -/
def lexStep (state : LexState × List Token) (c : Char) : Option (LexState × List Token) :=
  let (mode, tokens) := state
  match mode with
  | .between => some (startToken c tokens)
  | .bare backwards =>
    if endsBare c then (bare? backwards.reverse).map fun v => startToken c (.value v :: tokens)
    else some (.bare (c :: backwards), tokens)
  | .text t =>
    if c = '\x22' then some (.between, .value (.text t.finish) :: tokens)
    else if c = '\\' then some (.escape t, tokens)
    else if c.toNat < 0x20 then none
    else some (.text (t.push c), tokens)
  | .escape t => (afterBackslash t c).map fun mode => (mode, tokens)
  | .unit t missing value =>
    (hexDigit? c).map fun digit =>
      let value := 16 * value + digit
      if missing ≤ 1 then (.text (t.pushUnit value), tokens)
      else (.unit t (missing - 1) value, tokens)

def tokens? (cs : List Char) : Option (List Token) := do
  let (mode, tokens) ← cs.foldlM lexStep (LexState.between, [])
  match mode with
  | .between => some tokens.reverse
  | .bare backwards => (bare? backwards.reverse).map fun v => (Token.value v :: tokens).reverse
  | _ => none

/-- A list or record that is still open, with its items last one first. -/
inductive Unfinished where
  | list (items : List Value)
  | record (fields : List (Option String × Value))
  /-- A record whose last key waits for its value. -/
  | field (fields : List (Option String × Value)) (key : Option String)

/-- What may come next in the innermost list or record. -/
inductive Phase where
  /-- An item, or the end. -/
  | first
  /-- An item. -/
  | item
  | colon
  /-- A comma, or the end. -/
  | next
  deriving DecidableEq

/-- Where the second machine stands. -/
inductive ReadState where
  | reading (stack : List Unfinished) (phase : Phase)
  | finished (v : Value)

def supply (v : Value) : List Unfinished → Option ReadState
  | [] => some (.finished v)
  | .list items :: rest => some (.reading (.list (v :: items) :: rest) .next)
  | .field fields key :: rest => some (.reading (.record ((key, v) :: fields) :: rest) .next)
  | .record _ :: _ => none

def Phase.startsItem : Phase → Bool
  | .first => true
  | .item => true
  | .colon => false
  | .next => false

def Phase.mayEnd : Phase → Bool
  | .first => true
  | .next => true
  | .item => false
  | .colon => false

def openInner (inner : Unfinished) (stack : List Unfinished) (phase : Phase) : Option ReadState :=
  match stack with
  | .record _ :: _ => none
  | _ => if phase.startsItem then some (.reading (inner :: stack) .first) else none

def readStep : ReadState → Token → Option ReadState
  | .finished _, _ => none
  | .reading (.record fields :: rest) phase, .value (.text key) =>
    if phase.startsItem then some (.reading (.field fields key :: rest) .colon) else none
  | .reading stack phase, .value v => if phase.startsItem then supply v stack else none
  | .reading stack phase, .colon =>
    if phase = .colon then some (.reading stack .item) else none
  | .reading stack phase, .comma =>
    if phase = .next then some (.reading stack .item) else none
  | .reading stack phase, .openList => openInner (.list []) stack phase
  | .reading stack phase, .openRecord => openInner (.record []) stack phase
  | .reading (.list items :: rest) phase, .closeList =>
    if phase.mayEnd then supply (.list items.reverse) rest else none
  | .reading (.record fields :: rest) phase, .closeRecord =>
    if phase.mayEnd then supply (.record fields.reverse) rest else none
  | .reading _ _, .closeList => none
  | .reading _ _, .closeRecord => none

def parse? (s : String) : Option Value := do
  let tokens ← tokens? s.toList
  match ← tokens.foldlM readStep (.reading [] .item) with
  | .finished v => some v
  | .reading _ _ => none

end ShellTutor.Document.Json
