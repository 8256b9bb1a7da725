import ResonantGraph.Table
import ResonantGraph.Text.Blank
import ResonantGraph.Text.Lowercase

/-!
# Words

The words of a text are its runs without white space, stripped of ASCII punctuation, in lower case,
and at least a given number of characters long. They form a set.

The set is defined over any way of lowering (`Words.ofTextWith`), since its laws need little of it;
`Words.ofText` uses that of Unicode.
-/

namespace ResonantGraph

namespace Words

/-- Whether a character is ASCII punctuation. -/
def isPunctuation (c : Char) : Bool :=
  ('!' ≤ c && c ≤ '/') || (':' ≤ c && c ≤ '@') || ('[' ≤ c && c ≤ '\x60') ||
    ('\x7b' ≤ c && c ≤ '~')

/-- The word of a run. -/
def ofRun (lower : List Char → List Char) (run : List Char) : List Char :=
  lower (run.filter fun c => !isPunctuation c)

/-- The words of a text in order of occurrence, with repetitions. -/
def listWith (lower : List Char → List Char) (minLength : Nat) (text : List Char) :
    List (List Char) :=
  ((Text.runs text).map (ofRun lower)).filter fun word => minLength ≤ word.length

/-- The words of a text under a way of lowering. -/
def ofTextWith (lower : List Char → List Char) (minLength : Nat) (text : String) : NameSet :=
  NameSet.ofNames ((listWith lower minLength text.toList).map String.ofList)

/-- The words of a text. -/
def ofText (minLength : Nat) (text : String) : NameSet :=
  ofTextWith Text.lowercase minLength text

end Words

end ResonantGraph
