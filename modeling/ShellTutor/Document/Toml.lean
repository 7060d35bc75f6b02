import ShellTutor.Calendar
import ShellTutor.Document.Value
import ShellTutor.Number.Binary64

/-!
# TOML

A TOML text is a sequence of statements: assignments to keys, and headers that open a table. The
statements are read first, each reader taking what it needs from the front of the text. The tables
are then built section by section, where a section is a header with the assignments below it.

A table may be opened once, a key be assigned once, and a dotted key may only reach into tables that
dotted keys have made. Arrays and inline tables nest at most 79 deep.
-/

namespace ShellTutor.Document.Toml

/-- What a reader found, and the rest of the text. -/
abbrev Found (α : Type) := Option (α × List Char)

/-- Repeats a step until it reports the end, at most `count` times. -/
def iterateFor {σ β : Type} (step : σ → List Char → Found (σ ⊕ β)) :
    Nat → σ → List Char → Found β
  | 0, _, _ => none
  | count + 1, s, cs =>
    match step s cs with
    | none => none
    | some (.inr b, rest) => some (b, rest)
    | some (.inl s, rest) => iterateFor step count s rest

/-- Repeats a step until it reports the end. Each step takes a character at least, so that there are
no more steps than characters, and one more for the end. -/
def iterate {σ β : Type} (step : σ → List Char → Found (σ ⊕ β)) (s : σ) (cs : List Char) :
    Found β :=
  iterateFor step (cs.length + 1) s cs

/-! ## Characters -/

def isSpace (c : Char) : Bool :=
  c = ' ' || c = '\t'

/-- Characters that a comment or a quoted text may hold as they are: all but control characters. -/
def isPrintable (c : Char) : Bool :=
  c = '\t' || (0x20 ≤ c.toNat && c.toNat != 0x7F)

def isBareKey (c : Char) : Bool :=
  ('a' ≤ c && c ≤ 'z') || ('A' ≤ c && c ≤ 'Z') || Number.isDigit c || c = '_' || c = '-'

def skipSpace (cs : List Char) : List Char :=
  cs.dropWhile isSpace

def newline? : List Char → Option (List Char)
  | '\n' :: rest => some rest
  | '\r' :: '\n' :: rest => some rest
  | _ => none

/-- The text after the blanks and the comment that may end a line; the line end itself is kept. -/
def skipComment (cs : List Char) : List Char :=
  match skipSpace cs with
  | '#' :: rest => rest.dropWhile isPrintable
  | rest => rest

/-- The text after the rest of a line that holds no more than a comment. -/
def finishLine? (cs : List Char) : Option (List Char) :=
  match skipComment cs with
  | [] => some []
  | rest => newline? rest

/-- The text after blanks, line ends and whole comments. -/
def skipLines (cs : List Char) : List Char :=
  let step (_ : Unit) (cs : List Char) : Found (Unit ⊕ Unit) :=
    match newline? (skipComment cs) with
    | some rest => some (.inl (), rest)
    | none => some (.inr (), skipSpace cs)
  match iterate step () cs with
  | some (_, rest) => rest
  | none => cs

/-! ## Quoted texts -/

/-- Reads a character given by the hexadecimal digits of its code point. -/
def codePoint? (digits : List Char) : Option Char := do
  let values ← digits.mapM hexDigit?
  let n := values.foldl (fun n d => 16 * n + d) 0
  if n.isValidChar then some (Char.ofNat n) else none

def escape? : List Char → Found Char
  | 'b' :: rest => some ('\x08', rest)
  | 't' :: rest => some ('\t', rest)
  | 'n' :: rest => some ('\n', rest)
  | 'f' :: rest => some ('\x0c', rest)
  | 'r' :: rest => some ('\r', rest)
  | '\x22' :: rest => some ('\x22', rest)
  | '\\' :: rest => some ('\\', rest)
  | 'u' :: rest =>
    if rest.length < 4 then none else (codePoint? (rest.take 4)).map fun c => (c, rest.drop 4)
  | 'U' :: rest =>
    if rest.length < 8 then none else (codePoint? (rest.take 8)).map fun c => (c, rest.drop 8)
  | _ => none

/-- One step through a basic text on one line, after its opening quote. -/
def basicStep (backwards : List Char) : List Char → Found (List Char ⊕ String)
  | [] => none
  | '\x22' :: rest => some (.inr (String.ofList backwards.reverse), rest)
  | '\\' :: rest => (escape? rest).map fun (c, rest) => (.inl (c :: backwards), rest)
  | c :: rest => if isPrintable c then some (.inl (c :: backwards), rest) else none

/-- One step through a literal text on one line, after its opening quote. -/
def literalStep (backwards : List Char) : List Char → Found (List Char ⊕ String)
  | [] => none
  | '\x27' :: rest => some (.inr (String.ofList backwards.reverse), rest)
  | c :: rest => if isPrintable c then some (.inl (c :: backwards), rest) else none

/-- One step through a text over several lines at a run of quotes. One or two quotes are part of the
text; three end it, and up to two more in front of these belong to the text. -/
def quotesStep (quote : Char) (backwards cs : List Char) : Found (List Char ⊕ String) :=
  let count := (cs.takeWhile (· == quote)).length
  if count < 3 then some (.inl (List.replicate count quote ++ backwards), cs.drop count)
  else
    let inside := min (count - 3) 2
    some (.inr (String.ofList (List.replicate inside quote ++ backwards).reverse),
      cs.drop (inside + 3))

/-- The text after a backslash, the line end behind it, and all blanks and line ends after that. -/
def foldedLine? (cs : List Char) : Option (List Char) :=
  (newline? (skipSpace cs)).map fun rest =>
    let step (_ : Unit) (cs : List Char) : Found (Unit ⊕ Unit) :=
      match newline? (skipSpace cs) with
      | some rest => some (.inl (), rest)
      | none => some (.inr (), skipSpace cs)
    match iterate step () rest with
    | some (_, rest) => rest
    | none => rest

/-- One step through a character of a text over several lines, or through a line end. -/
def lineStep (backwards cs : List Char) : Found (List Char ⊕ String) :=
  match newline? cs with
  | some rest => some (.inl ('\n' :: backwards), rest)
  | none =>
    match cs with
    | [] => none
    | c :: rest => if isPrintable c then some (.inl (c :: backwards), rest) else none

def longBasicStep (backwards cs : List Char) : Found (List Char ⊕ String) :=
  match cs with
  | '\x22' :: _ => quotesStep '\x22' backwards cs
  | '\\' :: rest =>
    match foldedLine? rest with
    | some rest => some (.inl backwards, rest)
    | none => (escape? rest).map fun (c, rest) => (.inl (c :: backwards), rest)
  | _ => lineStep backwards cs

def longLiteralStep (backwards cs : List Char) : Found (List Char ⊕ String) :=
  match cs with
  | '\x27' :: _ => quotesStep '\x27' backwards cs
  | _ => lineStep backwards cs

/-- A line end directly behind the opening quotes is not part of the text. -/
def dropNewline (cs : List Char) : List Char :=
  (newline? cs).getD cs

def text? : List Char → Found String
  | '\x22' :: '\x22' :: '\x22' :: rest => iterate longBasicStep [] (dropNewline rest)
  | '\x22' :: rest => iterate basicStep [] rest
  | '\x27' :: '\x27' :: '\x27' :: rest => iterate longLiteralStep [] (dropNewline rest)
  | '\x27' :: rest => iterate literalStep [] rest
  | _ => none

/-! ## Keys -/

def keyPart? (cs : List Char) : Found String :=
  match cs with
  | '\x22' :: rest => iterate basicStep [] rest
  | '\x27' :: rest => iterate literalStep [] rest
  | _ =>
    let bare := cs.takeWhile isBareKey
    if bare.isEmpty then none else some (String.ofList bare, cs.dropWhile isBareKey)

def nestingLimit : Nat := 80

/-- Reads a key: parts with dots between them, blanks around each. The last part comes
separately. -/
def key? (cs : List Char) : Option ((List String × String) × List Char) := do
  let step (parts : List String) (cs : List Char) :
      Option ((List String ⊕ (List String × String)) × List Char) := do
    let (part, rest) ← keyPart? (skipSpace cs)
    match skipSpace rest with
    | '.' :: rest => some (.inl (part :: parts), rest)
    | rest => some (.inr (parts.reverse, part), rest)
  let ((front, last), rest) ← iterate step [] cs
  if front.length + 1 < nestingLimit then some ((front, last), rest) else none

/-! ## Plain values -/

/-- Characters of numbers, dates and words. -/
def isPlain (c : Char) : Bool :=
  isBareKey c || c = '+' || c = '.' || c = ':'

/-- Reads digits that may have single underscores between them. -/
def digits? (isDigit : Char → Bool) (cs : List Char) : Option (List Char) :=
  if (cs.splitOn '_').all fun group => !group.isEmpty && group.all isDigit then
    some (cs.filter (· != '_'))
  else none

/-- Reads digits in a base, given without sign. -/
def based? (base : Nat) (cs : List Char) : Option Nat := do
  let values ← (← digits? (fun c => (hexDigit? c).any (· < base)) cs).mapM hexDigit?
  return values.foldl (fun n d => base * n + d) 0

/-- Reads the whole part of a number, which has no leading zero. -/
def whole? (cs : List Char) : Option (List Char) := do
  let digits ← digits? Number.isDigit cs
  if digits.head? = some '0' ∧ digits.length ≠ 1 then none else some digits

/-- Whether an integer has room in 64 bits. -/
def fitsWord (n : Int) : Bool :=
  -9223372036854775808 ≤ n && n ≤ 9223372036854775807

/-- Reads an integer: decimal, or in base 16, 8 or 2. -/
def integer? (cs : List Char) : Option Value := do
  let n ←
    match cs with
    | '0' :: 'x' :: digits => (based? 16 digits).map Int.ofNat
    | '0' :: 'o' :: digits => (based? 8 digits).map Int.ofNat
    | '0' :: 'b' :: digits => (based? 2 digits).map Int.ofNat
    | _ =>
      let (negative, digits) := Number.takeSign cs
      (whole? digits).map fun digits =>
        if negative then -(Number.ofDigits digits : Int) else Number.ofDigits digits
  if fitsWord n then some (.integer n) else none

/-- Reads a number with a fraction or an exponent. It must not be too large. -/
def float? (cs : List Char) : Option Value := do
  let (negative, unsigned) := Number.takeSign cs
  if unsigned = "inf".toList ∨ unsigned = "nan".toList then some .fraction
  else
    let isMark (c : Char) : Bool := c = '.' || c = 'e' || c = 'E'
    let whole ← whole? (unsigned.takeWhile fun c => !isMark c)
    let tail := unsigned.dropWhile fun c => !isMark c
    let (fraction, tail) ←
      match tail with
      | '.' :: rest => do
        let fraction ← digits? Number.isDigit (rest.takeWhile fun c => !isMark c)
        some (fraction, rest.dropWhile fun c => !isMark c)
      | [] => none
      | tail => some ([], tail)
    let exponent ←
      match tail with
      | [] => some 0
      | '.' :: _ => none
      | _ :: rest => do
        let (negative, digits) := Number.takeSign rest
        let n := Number.exponentSize (← digits? Number.isDigit digits)
        some (if negative then -(n : Int) else n)
    let d : Number.Decimal := ⟨negative, whole ++ fraction, exponent - fraction.length⟩
    if d.nearest = .infinite false then none else some .fraction

/-- Reads a number of exactly `count` digits that lies between two bounds. -/
def field? (count low high : Nat) (cs : List Char) : Option Nat :=
  if cs.length = count ∧ cs.all Number.isDigit then
    let n := Number.ofDigits cs
    if low ≤ n ∧ n ≤ high then some n else none
  else none

def isDate (cs : List Char) : Bool :=
  match cs.splitOn '-' with
  | [year, month, day] =>
    match field? 4 0 9999 year, field? 2 1 12 month with
    | some year, some month => (field? 2 1 (Calendar.monthLength year month) day).isSome
    | _, _ => false
  | _ => false

/-- Whether a text is a time of day, with or without parts of a second. -/
def isTime (cs : List Char) : Bool :=
  match cs.splitOn ':' with
  | [hour, minute, second] =>
    let fraction := second.drop 2
    (field? 2 0 23 hour).isSome && (field? 2 0 59 minute).isSome &&
      (field? 2 0 60 (second.take 2)).isSome &&
      (fraction.isEmpty ||
        (fraction.head? == some '.' && 1 < fraction.length && fraction.tail.all Number.isDigit))
  | _ => false

def isOffset (cs : List Char) : Bool :=
  match cs with
  | [] => true
  | ['Z'] => true
  | ['z'] => true
  | sign :: rest =>
    (sign = '+' || sign = '-') &&
      match rest.splitOn ':' with
      | [hour, minute] => (field? 2 0 23 hour).isSome && (field? 2 0 59 minute).isSome
      | _ => false

/-- Whether a text is a time of day with or without a distance from universal time. -/
def isZonedTime (cs : List Char) : Bool :=
  let inTime (c : Char) : Bool := Number.isDigit c || c = ':' || c = '.'
  isTime (cs.takeWhile inTime) && isOffset (cs.dropWhile inTime)

/-- Whether a text without blanks is a date, a time of day, or both. -/
def isMoment (cs : List Char) : Bool :=
  let tail := cs.drop 10
  isTime cs ||
    (isDate (cs.take 10) &&
      (tail.isEmpty ||
        ((tail.head? == some 'T' || tail.head? == some 't') && isZonedTime tail.tail)))

/-- Reads a number, date or word. A date may be followed by a blank and a time of day. -/
def plain? (cs : List Char) : Found Value :=
  let word := cs.takeWhile isPlain
  let rest := cs.dropWhile isPlain
  if word = "true".toList then some (.bool true, rest)
  else if word = "false".toList then some (.bool false, rest)
  else if isDate word then
    match rest with
    | ' ' :: tail =>
      if tail.head?.any Number.isDigit then
        if isZonedTime (tail.takeWhile isPlain) then some (.moment, tail.dropWhile isPlain)
        else none
      else some (.moment, rest)
    | _ => some (.moment, rest)
  else if isMoment word then some (.moment, rest)
  else ((float? word).or (integer? word)).map fun v => (v, rest)

/-! ## Tables under construction -/

/-- What a key of an unfinished table stands for. -/
inductive Item where
  | value (v : Value)
  /-- A table; whether dotted keys have made it, and whether it was only passed through so far. -/
  | table (dotted passing : Bool) (entries : List (String × Item))
  /-- The tables that headers with double brackets have opened under one key. -/
  | tables (elements : List (List (String × Item)))
  deriving Inhabited

abbrev Entries := List (String × Item)

/-- Changes what a key stands for, or adds the key at the end. -/
def alter (key : String) (change : Option Item → Option Item) : Entries → Option Entries
  | [] => (change none).map fun item => [(key, item)]
  | (k, item) :: rest =>
    if k = key then (change (some item)).map fun item => (k, item) :: rest
    else (alter key change rest).map ((k, item) :: ·)

def assignNew (key : String) (item : Item) : Entries → Option Entries :=
  alter key fun
    | none => some item
    | some _ => none

def alterLast {α : Type} (change : α → Option α) : List α → Option (List α)
  | [] => none
  | [x] => (change x).map ([·])
  | x :: y :: rest => (alterLast change (y :: rest)).map (x :: ·)

/-- Assigns a value to a key, reaching through the tables that the front parts of the key name. A
table that is not `direct` takes no key of its own, only keys that reach further. -/
def assign (value : Value) (key : String) : Bool → List String → Entries → Option Entries
  | direct, [], entries => if direct then assignNew key (.value value) entries else none
  | _, part :: path, entries =>
    alter part
      (fun
        | none => (assign value key true path []).map (.table true true)
        | some (.value _) => none
        | some (.tables elements) =>
          (alterLast (assign value key false path) elements).map .tables
        | some (.table dotted passing inner) =>
          if passing then (assign value key dotted path inner).map (.table dotted passing)
          else none)
      entries

/-- Changes what a key stands for in the table that `path` leads to, as a header does. -/
def place (change : Option Item → Option Item) (key : String) :
    List String → Entries → Option Entries
  | [], entries => alter key change entries
  | part :: path, entries =>
    alter part
      (fun
        | none => (place change key path []).map (.table false true)
        | some (.value _) => none
        | some (.tables elements) => (alterLast (place change key path) elements).map .tables
        | some (.table dotted passing inner) =>
          (place change key path inner).map (.table dotted passing))
      entries

/-- An assignment: the front parts of the key, its last part, and the value. -/
abbrev Assignment := List String × String × Value

def assignAll (assignments : List Assignment) (entries : Entries) : Option Entries :=
  assignments.foldlM (fun entries (path, key, value) => assign value key true path entries) entries

/-- The header of a section. -/
inductive Header where
  /-- The start of the text, which belongs to the outermost table. -/
  | top
  /-- A header in single brackets. -/
  | single (path : List String) (key : String)
  /-- A header in double brackets. -/
  | double (path : List String) (key : String)

def addSection (root : Entries) (header : Header) (assignments : List Assignment) :
    Option Entries :=
  match header with
  | .top => assignAll assignments root
  | .single path key =>
    place
      (fun
        | none => (assignAll assignments []).map (.table false false)
        | some (.table false true entries) =>
          (assignAll assignments entries).map (.table false false)
        | some _ => none)
      key path root
  | .double path key =>
    place
      (fun
        | none => (assignAll assignments []).map fun table => .tables [table]
        | some (.tables elements) =>
          (assignAll assignments []).map fun table => .tables (elements ++ [table])
        | some _ => none)
      key path root

mutual

def Item.finish : Item → Value
  | .value v => v
  | .table _ _ entries => .record (finishEntries entries)
  | .tables elements => .list (finishElements elements)

def finishEntries : List (String × Item) → List (Option String × Value)
  | [] => []
  | (key, item) :: rest => (some key, item.finish) :: finishEntries rest

def finishElements : List (List (String × Item)) → List Value
  | [] => []
  | entries :: rest => .record (finishEntries entries) :: finishElements rest

end

/-! ## Values -/

def equals? (cs : List Char) : Option (List Char) :=
  match cs with
  | '=' :: rest => some (skipSpace rest)
  | _ => none

/-- One step through an array, after its opening bracket: an item, with the comma or bracket behind
it. -/
def arrayStep (value? : List Char → Found Value) (backwards : List Value) (cs : List Char) :
    Option ((List Value ⊕ Value) × List Char) :=
  match skipLines cs with
  | ']' :: rest => some (.inr (.list backwards.reverse), rest)
  | cs => do
    let (v, rest) ← value? cs
    match skipLines rest with
    | ',' :: rest => some (.inl (v :: backwards), rest)
    | ']' :: rest => some (.inr (.list (v :: backwards).reverse), rest)
    | _ => none

/-- One step through an inline table: an assignment, with the comma or brace behind it. -/
def inlineStep (value? : List Char → Found Value) (entries : Entries) (cs : List Char) :
    Option ((Entries ⊕ Value) × List Char) := do
  let ((path, key), rest) ← key? cs
  let (v, rest) ← value? (← equals? rest)
  let entries ← assign v key true path entries
  match skipSpace rest with
  | ',' :: rest => some (.inl entries, rest)
  | '\x7d' :: rest => some (.inr (.record (finishEntries entries)), rest)
  | _ => none

/-- Reads a value in which arrays and inline tables nest at most `depth` deep. -/
def value? : Nat → List Char → Found Value
  | depth, cs =>
    match cs, depth with
    | '[' :: rest, depth + 1 => iterate (arrayStep (value? depth)) [] rest
    | '[' :: _, 0 => none
    | '\x7b' :: rest, depth + 1 =>
      match skipSpace rest with
      | '\x7d' :: rest => some (.record [], rest)
      | rest => iterate (inlineStep (value? depth)) [] rest
    | '\x7b' :: _, 0 => none
    | c :: _, _ =>
      if c = '\x22' || c = '\x27' then (text? cs).map fun (s, rest) => (.text (some s), rest)
      else plain? cs
    | [], _ => none

/-! ## Statements -/

/-- The tables so far, and the section that is being read, its assignments last one first. -/
structure Progress where
  root : Entries
  header : Header
  assignments : List Assignment

def Progress.close (p : Progress) : Option Entries :=
  addSection p.root p.header p.assignments.reverse

/-- Reads the rest of a header, after its opening brackets. -/
def header? (closing cs : List Char) : Option ((List String × String) × List Char) := do
  let (path, rest) ← key? cs
  if closing.isPrefixOf rest then some (path, ← finishLine? (rest.drop closing.length)) else none

def statementStep (p : Progress) (cs : List Char) : Option ((Progress ⊕ Value) × List Char) :=
  match skipSpace cs with
  | [] => p.close.map fun root => (.inr (.record (finishEntries root)), [])
  | '[' :: '[' :: rest => do
    let ((path, key), rest) ← header? [']', ']'] rest
    some (.inl ⟨← p.close, .double path key, []⟩, rest)
  | '[' :: rest => do
    let ((path, key), rest) ← header? [']'] rest
    some (.inl ⟨← p.close, .single path key, []⟩, rest)
  | c :: rest =>
    if c = '#' || c = '\n' || c = '\r' then
      (finishLine? (c :: rest)).map fun rest => (.inl p, rest)
    else do
      let ((path, key), rest) ← key? (c :: rest)
      let (v, rest) ← value? (nestingLimit - 1) (← equals? rest)
      let rest ← finishLine? rest
      some (.inl { p with assignments := (path, key, v) :: p.assignments }, rest)

/-- Reads a TOML text, whose value is a record. A byte order mark may stand in front. -/
def parse? (s : String) : Option Value := do
  let cs :=
    match s.toList with
    | '\uFEFF' :: rest => rest
    | cs => cs
  let (v, _) ← iterate statementStep ⟨[], .top, []⟩ cs
  return v

end ShellTutor.Document.Toml
