import ResonantGraph.Binary64

/-!
# Numbers and texts in settings documents

The values of a settings document are texts, numbers and lists of texts. This module reads the first
two.

*Texts* stand between double or single quotes, three of them for a text of several lines. Between
double quotes a backslash begins an escape, or, at the end of a line of a long text, a gap that
swallows all white space that follows. A long text may have one or two quotes in a row, also at its
end. The reader is an automaton with one step per character (`TextState.step`).

*Numbers* are integers, in decimal or with one of the marks `0x`, `0o` and `0b`, and decimals. Digits
may be grouped by single underscores. A decimal integer has no leading zeros; a decimal has digits on
both sides of its point.
-/

namespace ResonantGraph.Settings

/-- A value of a settings document. -/
inductive Value
  /-- A text. -/
  | text (value : String)
  /-- An integer. -/
  | integer (value : Int)
  /-- A decimal. -/
  | decimal (value : Binary64)
  /-- A list of texts. -/
  | texts (value : List String)

/-- Whether a character may stand in a text or comment as itself: anything but a control character
other than the tab. -/
def isPlain (c : Char) : Bool := c = '\t' || (' ' ≤ c && c ≠ '\x7f')

/-- Whether a character is a blank within a line. -/
def isGap (c : Char) : Bool := c = ' ' || c = '\t'

/-! ### Texts -/

/-- How a text is quoted. -/
structure Quoting where
  /-- The quote character. -/
  mark : Char
  /-- Whether the text may have several lines. -/
  long : Bool

/-- Whether a backslash has a meaning. -/
def Quoting.escapes (q : Quoting) : Bool := q.mark = '"'

/-- Where the reader of a text is. -/
inductive TextState
  /-- At an ordinary place. -/
  | plain
  /-- After a number of quotes in a row, in a long text. -/
  | marks (n : Nat)
  /-- After a carriage return, which a line feed must follow. -/
  | carriage
  /-- After a backslash. -/
  | escape
  /-- In the digits of a code point: how many are to come, and the value of the others. -/
  | code (digits value : Nat)
  /-- In a gap after a backslash: whether the line has ended. -/
  | gap (ended : Bool)
  /-- After a carriage return in a gap. -/
  | gapCarriage

/-- What one character does. -/
inductive TextStep
  /-- It adds characters to the text. -/
  | go (added : List Char) (next : TextState)
  /-- It ends the text, adding characters; it is itself part of the quotes or not. -/
  | stop (added : List Char) (taken : Bool)
  /-- It may not stand here. -/
  | fail

/-- The character of a one-letter escape. -/
def escaped? : Char → Option Char
  | 'b' => some '\x08'
  | 't' => some '\t'
  | 'n' => some '\n'
  | 'f' => some '\x0c'
  | 'r' => some '\r'
  | 'e' => some '\x1b'
  | '"' => some '"'
  | '\\' => some '\\'
  | _ => none

/-- How many digits the code point has that a letter announces. -/
def codeLength? : Char → Option Nat
  | 'x' => some 2
  | 'u' => some 4
  | 'U' => some 8
  | _ => none

/-- The value of a hexadecimal digit. -/
def hexValue? (c : Char) : Option Nat :=
  if '0' ≤ c && c ≤ '9' then some (c.toNat - '0'.toNat)
  else if 'a' ≤ c && c ≤ 'f' then some (c.toNat - 'a'.toNat + 10)
  else if 'A' ≤ c && c ≤ 'F' then some (c.toNat - 'A'.toNat + 10)
  else none

/-- The character of a code point, if it has one. -/
def scalar? (n : Nat) : Option Char := if n.isValidChar then some (Char.ofNat n) else none

/-- What a character does at an ordinary place. -/
def plainStep (q : Quoting) (c : Char) : TextStep :=
  if c = q.mark then if q.long then .go [] (.marks 1) else .stop [] true
  else if c = '\\' && q.escapes then .go [] .escape
  else if q.long && c = '\n' then .go [c] .plain
  else if q.long && c = '\r' then .go [] .carriage
  else if isPlain c then .go [c] .plain
  else .fail

/-- Puts characters in front of what a step adds. -/
def TextStep.after (chars : List Char) : TextStep → TextStep
  | go added next => go (chars ++ added) next
  | stop added taken => stop (chars ++ added) taken
  | fail => fail

/-- What a character does. -/
def TextState.step (q : Quoting) (c : Char) : TextState → TextStep
  | plain => plainStep q c
  | marks n =>
    if c = q.mark then
      if n = 4 then .stop (List.replicate 2 c) true else .go [] (.marks (n + 1))
    else if 3 ≤ n then .stop (List.replicate (n - 3) q.mark) false
    else (plainStep q c).after (List.replicate n q.mark)
  | carriage => if c = '\n' then .go ['\r', c] .plain else .fail
  | escape =>
    match escaped? c with
    | some d => .go [d] .plain
    | none =>
      match codeLength? c with
      | some digits => .go [] (.code digits 0)
      | none =>
        if !q.long then .fail
        else if isGap c then .go [] (.gap false)
        else if c = '\n' then .go [] (.gap true)
        else if c = '\r' then .go [] .gapCarriage
        else .fail
  | code digits value =>
    match hexValue? c with
    | none => .fail
    | some d =>
      let value := 16 * value + d
      if digits ≤ 1 then
        match scalar? value with
        | some c => .go [c] .plain
        | none => .fail
      else .go [] (.code (digits - 1) value)
  | gap ended =>
    if isGap c then .go [] (.gap ended)
    else if c = '\n' then .go [] (.gap true)
    else if c = '\r' then .go [] .gapCarriage
    else if ended then plainStep q c
    else .fail
  | gapCarriage => if c = '\n' then .go [] (.gap true) else .fail

/-- Reads a text up to its last quote, and returns it with what is left. -/
def readTextFrom (q : Quoting) (state : TextState) : List Char → Option (List Char × List Char)
  | [] =>
    match state with
    | .marks n => if 3 ≤ n then some (List.replicate (n - 3) q.mark, []) else none
    | _ => none
  | c :: rest =>
    match state.step q c with
    | .go added next =>
      (readTextFrom q next rest).map fun (chars, rest) => (added ++ chars, rest)
    | .stop added true => some (added, rest)
    | .stop added false => some (added, c :: rest)
    | .fail => none

/-- Drops a line end at the beginning. -/
def dropLineEnd : List Char → List Char
  | '\n' :: rest => rest
  | '\r' :: '\n' :: rest => rest
  | rest => rest

/-- Reads a text of one line, after its first quote. -/
def readShort (mark : Char) (rest : List Char) : Option (String × List Char) :=
  (readTextFrom ⟨mark, false⟩ .plain rest).map fun (chars, rest) => (String.ofList chars, rest)

/-- Reads a text of any kind. -/
def readText : List Char → Option (String × List Char)
  | '"' :: '"' :: '"' :: rest => readLong '"' rest
  | '\'' :: '\'' :: '\'' :: rest => readLong '\'' rest
  | '"' :: rest => readShort '"' rest
  | '\'' :: rest => readShort '\'' rest
  | _ => none
where
  /-- Reads a text of several lines, after its first quotes. -/
  readLong (mark : Char) (rest : List Char) : Option (String × List Char) :=
    (readTextFrom ⟨mark, true⟩ .plain (dropLineEnd rest)).map
      fun (chars, rest) => (String.ofList chars, rest)

/-! ### Numbers -/

/-- The digits of a group of digits in a base, without the underscores that may stand between two
of them. -/
def ungroup? (base : Nat) : List Char → Option (List Nat)
  | [] => none
  | [c] => (digit? c).map ([·])
  | c :: '_' :: rest => do return (← digit? c) :: (← ungroup? base rest)
  | c :: rest => do return (← digit? c) :: (← ungroup? base rest)
where
  /-- The value of a digit of the base. -/
  digit? (c : Char) : Option Nat := (hexValue? c).filter (· < base)

/-- The number of a list of digits. -/
def ofDigits (base : Nat) (digits : List Nat) : Nat :=
  digits.foldl (fun n d => base * n + d) 0

/-- The sign in front of a number, if there is one. -/
def splitSign : List Char → Bool × List Char
  | '+' :: rest => (false, rest)
  | '-' :: rest => (true, rest)
  | rest => (false, rest)

/-- Digits in base ten without a leading zero. -/
def whole? (chars : List Char) : Option (List Nat) :=
  match ungroup? 10 chars with
  | some (0 :: _ :: _) => none
  | digits => digits

/-- Reads an integer. -/
def integer? : List Char → Option Int
  | '0' :: 'x' :: rest => (ungroup? 16 rest).map fun ds => (ofDigits 16 ds : Int)
  | '0' :: 'o' :: rest => (ungroup? 8 rest).map fun ds => (ofDigits 8 ds : Int)
  | '0' :: 'b' :: rest => (ungroup? 2 rest).map fun ds => (ofDigits 2 ds : Int)
  | chars =>
    let (negative, chars) := splitSign chars
    (whole? chars).map fun ds =>
      if negative then -(ofDigits 10 ds : Int) else (ofDigits 10 ds : Int)

/-- Reads the exponent of a decimal. -/
def exponent? (chars : List Char) : Option Int :=
  let (negative, chars) := splitSign chars
  (ungroup? 10 chars).map fun ds =>
    if negative then -(ofDigits 10 ds : Int) else (ofDigits 10 ds : Int)

/-- Splits before the first character that satisfies a test. -/
def splitBefore (p : Char → Bool) (chars : List Char) : List Char × List Char :=
  (chars.takeWhile fun c => !p c, chars.dropWhile fun c => !p c)

/-- Reads the magnitude of a decimal; it must not be too great for a real. -/
def magnitude? (chars : List Char) : Option Binary64 := do
  let (front, power) := splitBefore (fun c => c = 'e' || c = 'E') chars
  let (wholePart, fraction) := splitBefore (· = '.') front
  guard (power ≠ [] ∨ fraction ≠ [])
  let wholeDigits ← whole? wholePart
  let fractionDigits ← if fraction = [] then some [] else ungroup? 10 (fraction.drop 1)
  let exponent ← if power = [] then some 0 else exponent? (power.drop 1)
  let x := Binary64.ofDecimal (ofDigits 10 (wholeDigits ++ fractionDigits))
    (exponent - fractionDigits.length)
  guard x.isFinite
  return x

/-- Reads a decimal. -/
def decimal? (chars : List Char) : Option Binary64 :=
  let (negative, chars) := splitSign chars
  let magnitude :=
    if chars = ['i', 'n', 'f'] then some Binary64.infinity
    else if chars = ['n', 'a', 'n'] then some Binary64.nan
    else magnitude? chars
  magnitude.map fun x => if negative then x.neg else x

/-- Whether a character may stand in a number. -/
def isNumeric (c : Char) : Bool := c.isAlphanum || c = '+' || c = '-' || c = '.' || c = '_'

/-- Reads a number. -/
def readNumber (chars : List Char) : Option (Value × List Char) :=
  let (token, rest) := (chars.takeWhile isNumeric, chars.dropWhile isNumeric)
  match integer? token with
  | some n => some (.integer n, rest)
  | none => (decimal? token).map fun x => (.decimal x, rest)

end ResonantGraph.Settings
