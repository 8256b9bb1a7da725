import ResonantGraph.Settings.Scalar

/-!
# Settings documents

A settings document is a list of lines. A line is empty, a comment, or an assignment `key = value`
with or without a comment behind it; lines end with a line feed, before which a carriage return may
stand. A key is a bare word or quoted. The entries of a list may be spread over lines with comments
between them, and a comma may follow the last.

`Document.read?` gives the assignments in order.
-/

namespace ResonantGraph.Settings

/-- Drops blanks within a line. -/
def dropGap (chars : List Char) : List Char := chars.dropWhile isGap

/-- Drops white space, line ends and comments. The flag tells whether a comment is going on. -/
def dropSpace : Bool → List Char → Option (List Char)
  | _, [] => some []
  | comment, '\r' :: rest =>
    match rest with
    | '\n' :: _ => dropSpace comment rest
    | _ => none
  | comment, c :: rest =>
    if c = '\n' then dropSpace false rest
    else if comment then if isPlain c then dropSpace true rest else none
    else if isGap c then dropSpace false rest
    else if c = '#' then dropSpace true rest
    else some (c :: rest)

/-- Drops the rest of a line, in which only a comment may stand. -/
def dropLine (chars : List Char) : Option (List Char) :=
  let chars := dropGap chars
  let rest :=
    match chars with
    | '#' :: comment => comment.dropWhile isPlain
    | _ => chars
  match rest with
  | [] => some []
  | '\n' :: rest => some rest
  | '\r' :: '\n' :: rest => some rest
  | _ => none

/-! ### Lists -/

/-- Reads the entries of a list after its bracket or a comma, at most a given number. -/
def readEntries : Nat → List Char → Option (List String × List Char)
  | 0, _ => none
  | limit + 1, chars => do
    match ← dropSpace false chars with
    | ']' :: rest => return ([], rest)
    | chars =>
      let (entry, rest) ← readText chars
      match ← dropSpace false rest with
      | ']' :: rest => return ([entry], rest)
      | ',' :: rest =>
        let (entries, rest) ← readEntries limit rest
        return (entry :: entries, rest)
      | _ => none

/-- Reads a value. A list has fewer entries than characters. -/
def readValue (chars : List Char) : Option (Value × List Char) :=
  match chars with
  | '[' :: rest =>
    (readEntries chars.length rest).map fun (entries, rest) => (.texts entries, rest)
  | c :: _ =>
    if c = '"' || c = '\'' then (readText chars).map fun (text, rest) => (.text text, rest)
    else readNumber chars
  | [] => none

/-! ### Assignments -/

/-- Whether a character may stand in a bare key. -/
def isBare (c : Char) : Bool := c.isAlphanum || c = '_' || c = '-'

/-- Reads a key. -/
def readKey (chars : List Char) : Option (String × List Char) :=
  match chars with
  | '"' :: rest => readShort '"' rest
  | '\'' :: rest => readShort '\'' rest
  | _ =>
    let word := chars.takeWhile isBare
    if word = [] then none else some (String.ofList word, chars.dropWhile isBare)

/-- Reads a line with an assignment. -/
def readAssignment (chars : List Char) : Option ((String × Value) × List Char) := do
  let (key, rest) ← readKey chars
  match dropGap rest with
  | '=' :: rest =>
    let (value, rest) ← readValue (dropGap rest)
    return ((key, value), ← dropLine rest)
  | _ => none

/-- Reads the lines of a document, at most a given number of assignments. -/
def readLines : Nat → List Char → Option (List (String × Value))
  | 0, _ => none
  | limit + 1, chars => do
    match ← dropSpace false chars with
    | [] => return []
    | chars =>
      let (assignment, rest) ← readAssignment chars
      return assignment :: (← readLines limit rest)

/-- The assignments of a document, if it is one. A byte order mark in front is passed over. -/
def readDocument? (document : String) : Option (List (String × Value)) :=
  let chars := document.toList
  let chars := if chars.head? = some '\ufeff' then chars.drop 1 else chars
  readLines (chars.length + 1) chars

end ResonantGraph.Settings
