import ResonantGraph.Text.Utf8
import ResonantGraph.Failure

/-!
# The wire format

A codec writes values as bytes and reads them back from the front of a list of bytes, leaving the
rest. The format is compact and carries no field names:

* a number is written in base 128, lowest digit first, with the high bit set on every byte but the
  last, and takes at most ten bytes;
* a text is its number of UTF-8 bytes, then the bytes;
* a real is its eight bytes, lowest first;
* a pair is its parts; a list or a table is the number of its entries, then the entries.

The reader is more tolerant than the writer. A number may be written longer than needed, as long as
it fits a word; the entries of a table may come in any order, and of two with one name the later
counts.
-/

namespace ResonantGraph

/-- How values of a type are written and read. -/
structure Codec (α : Type) where
  /-- The bytes of a value. -/
  write : α → List UInt8
  /-- Reads a value from the front of a list of bytes and returns what is left. -/
  read : List UInt8 → Except CodecFault (α × List UInt8)

namespace Codec

variable {α β : Type}

/-! ### Numbers -/

/-- The greatest number of bytes of a number. -/
def maxPlaces : Nat := 10

/-- A number in base 128, lowest digit first, in at most the given number of places. -/
def writeDigits : Nat → Nat → List UInt8
  | 0, _ => []
  | places + 1, n =>
    if n < 128 then [UInt8.ofNat n]
    else UInt8.ofNat (128 + n % 128) :: writeDigits places (n / 128)

/-- Reads a number in base 128 of at most the given number of places. -/
def readDigits : Nat → List UInt8 → Except CodecFault (Nat × List UInt8)
  | 0, _ => .error .endlessNumber
  | _ + 1, [] => .error .shortInput
  | places + 1, b :: rest =>
    if b < 128 then .ok (b.toNat, rest)
    else
      match readDigits places rest with
      | .error e => .error e
      | .ok (high, rest) => .ok (b.toNat - 128 + 128 * high, rest)

/-- Natural numbers that fit a word. -/
def count : Codec Nat where
  write := writeDigits maxPlaces
  read data :=
    match readDigits maxPlaces data with
    | .error e => .error e
    | .ok (n, rest) => if n < UInt64.size then .ok (n, rest) else .error .endlessNumber

/-! ### Combinations -/

/-- Reads through another type. -/
def convert (c : Codec α) (ofRead : α → β) (toWrite : β → α) : Codec β where
  write v := c.write (toWrite v)
  read data :=
    match c.read data with
    | .error e => .error e
    | .ok (v, rest) => .ok (ofRead v, rest)

/-- Values that take no bytes. -/
def none : Codec Unit where
  write _ := []
  read data := .ok ((), data)

/-- One value after another. -/
def pair (c : Codec α) (d : Codec β) : Codec (α × β) where
  write v := c.write v.1 ++ d.write v.2
  read data :=
    match c.read data with
    | .error e => .error e
    | .ok (a, rest) =>
      match d.read rest with
      | .error e => .error e
      | .ok (b, rest) => .ok ((a, b), rest)

/-- Reads a given number of values. -/
def readMany (c : Codec α) : Nat → List UInt8 → Except CodecFault (List α × List UInt8)
  | 0, data => .ok ([], data)
  | n + 1, data =>
    match c.read data with
    | .error e => .error e
    | .ok (v, rest) =>
      match c.readMany n rest with
      | .error e => .error e
      | .ok (vs, rest) => .ok (v :: vs, rest)

/-- The number of values, then the values. -/
def list (c : Codec α) : Codec (List α) where
  write l := count.write l.length ++ l.flatMap c.write
  read data :=
    match count.read data with
    | .error e => .error e
    | .ok (n, rest) => c.readMany n rest

/-! ### The values of a graph -/

/-- Words of 64 bits. -/
def word : Codec UInt64 := count.convert UInt64.ofNat UInt64.toNat

/-- A given number of bytes. -/
def readBytes (n : Nat) (data : List UInt8) : Except CodecFault (List UInt8 × List UInt8) :=
  let taken := data.take n
  if taken.length < n then .error .shortInput else .ok (taken, data.drop n)

/-- Texts. -/
def text : Codec String where
  write s :=
    let data := Text.bytes s
    count.write data.length ++ data
  read data :=
    match count.read data with
    | .error e => .error e
    | .ok (n, rest) =>
      match readBytes n rest with
      | .error e => .error e
      | .ok (taken, rest) =>
        match Text.ofBytes? taken with
        | some s => .ok (s, rest)
        | .none => .error .invalidText

/-- The lowest bytes of a number, lowest first. -/
def lowBytes : Nat → Nat → List UInt8
  | 0, _ => []
  | places + 1, n => UInt8.ofNat (n % 256) :: lowBytes places (n / 256)

/-- The number of a list of bytes, lowest first. -/
def ofLowBytes : List UInt8 → Nat
  | [] => 0
  | b :: rest => b.toNat + 256 * ofLowBytes rest

/-- Reals. -/
def real : Codec Binary64 where
  write x := lowBytes 8 x.bits.toNat
  read data :=
    match readBytes 8 data with
    | .error e => .error e
    | .ok (taken, rest) => .ok (⟨UInt64.ofNat (ofLowBytes taken)⟩, rest)

/-- Tables, as their entries in order. -/
def table (c : Codec α) : Codec (Table α) :=
  (list (text.pair c)).convert Table.ofList Table.entries

/-- Sets of names, in order. -/
def names : Codec NameSet := (table none : Codec (Table Unit))

/-- Named texts. -/
def attributes : Codec Attributes := table text

/-- Identities. -/
def identity : Codec Identity :=
  (text.pair (word.pair ((list text).pair real))).convert
    (fun (signature, frequency, patterns, weight) => { signature, frequency, patterns, weight })
    (fun i => (i.signature, i.frequency, i.patterns, i.weight))

/-- Nodes. -/
def node : Codec Node :=
  (text.pair (text.pair (attributes.pair (identity.pair real)))).convert
    (fun (id, label, attributes, identity, activation) =>
      { id, label, attributes, identity, activation })
    (fun n => (n.id, n.label, n.attributes, n.identity, n.activation))

/-- Edges. -/
def edge : Codec Edge :=
  (text.pair (text.pair (names.pair (attributes.pair real)))).convert
    (fun (id, label, members, attributes, strength) =>
      { id, label, members, attributes, strength })
    (fun e => (e.id, e.label, e.members, e.attributes, e.strength))

end Codec

end ResonantGraph
