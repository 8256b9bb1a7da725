import ResonantGraph.Text.Lowercase.Data

/-!
# Lowercase text

Lowercase text is formed character by character, with the full mappings of Unicode. Two characters
need more than a distance to their lowercase form:

* a capital I with a dot becomes a small i and a combining dot;
* a capital sigma becomes the final form of the small letter at the end of a word and the ordinary
  one elsewhere. It ends a word when a cased character comes before it and none after it, where
  characters that a word runs across, such as apostrophes and accents, do not count.
-/

namespace ResonantGraph.Text

/-- The lowercase forms of a character that is not a capital sigma. -/
def lowerChar (c : Char) : List Char :=
  if c.toNat < 0x80 then [c.toLower]
  else if c = 'İ' then ['i', '\u0307']
  else
    match caseRuns.find? fun run =>
        run.first ≤ c.toNat && c.toNat ≤ run.last && (c.toNat - run.first) % run.step = 0 with
    | some run => [Char.ofNat (c.toNat + run.distance).toNat]
    | none => [c]

/-- Whether the nearest character that a word does not run across is a cased one. -/
def meetsCased (text : List Char) : Bool :=
  match text.dropWhile caseIgnorable.holds with
  | [] => false
  | c :: _ => casedOnly.holds c

/-- The lowercase form of a text, given the characters before it, nearest first. -/
def lowerAfter (before : List Char) : List Char → List Char
  | [] => []
  | c :: rest =>
    let here :=
      if c = 'Σ' then [if meetsCased before && !meetsCased rest then 'ς' else 'σ']
      else lowerChar c
    here ++ lowerAfter (c :: before) rest

/-- The lowercase form of a text. -/
def lowercase (text : List Char) : List Char := lowerAfter [] text

end ResonantGraph.Text
