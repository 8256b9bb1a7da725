import ResonantGraph.Proofs.Codec.Laws
import Mathlib.Data.Nat.Digits.Defs

/-!
# The wire format, spelled out

The codecs of `ResonantGraph.Codec` are put together from combinators. Here the format is written down
by itself, one definition for each kind of value, with its fields in order and its numbers through the
digits of `Nat.digits`; nothing here can be read, and nothing is limited in size. `Codec.WritesAs` says
that a codec writes what such a definition says, as long as a word can count the bytes. The law
composes as reading does, and gives `Codec.writesAs_graph` in the end.
-/

namespace ResonantGraph

namespace Wire

/-- The digits of a number, each but the last marked by its high bit; zero takes one byte too. -/
def marked : List Nat → List UInt8
  | [] => [0]
  | [digit] => [UInt8.ofNat digit]
  | digit :: digits => UInt8.ofNat (128 + digit) :: marked digits

/-- A number in base 128, lowest digit first. -/
def number (n : Nat) : List UInt8 := marked (Nat.digits 128 n)

/-- A text is counted in bytes. -/
def text (s : String) : List UInt8 := number (Text.bytes s).length ++ Text.bytes s

/-- The eight bytes of a real, lowest first. -/
def real (x : Binary64) : List UInt8 :=
  (List.range 8).map fun i => UInt8.ofNat (x.bits.toNat / 256 ^ i)

/-- How many items there are, then the items. -/
def counted (items : List (List UInt8)) : List UInt8 := number items.length ++ items.flatten

/-- The entries of a table in the order of their names. -/
def table {α : Type} (value : α → List UInt8) (t : Table α) : List UInt8 :=
  counted (t.entries.map fun entry => text entry.1 ++ value entry.2)

def names (s : NameSet) : List UInt8 := counted (s.names.map text)

/-! ### Elements, field by field -/

def identity (i : Identity) : List UInt8 :=
  text i.signature ++ (number i.frequency.toNat ++ (counted (i.patterns.map text) ++ real i.weight))

def node (n : Node) : List UInt8 :=
  text n.id ++ (text n.label ++
    (table text n.attributes ++ (identity n.identity ++ real n.activation)))

def edge (e : Edge) : List UInt8 :=
  text e.id ++ (text e.label ++ (names e.members ++ (table text e.attributes ++ real e.strength)))

def graph (g : Hypergraph) : List UInt8 :=
  table node g.nodes ++ (table edge g.edges ++ number g.sequence.toNat)

/-! ### Digits -/

theorem number_of_lt {n : Nat} (h : n < 128) : number n = [UInt8.ofNat n] := by
  unfold number
  by_cases hzero : n = 0
  · subst hzero
    rw [Nat.digits_zero]
    rfl
  · rw [Nat.digits_of_lt 128 n hzero h]
    rfl

theorem number_of_le {n : Nat} (h : 128 ≤ n) :
    number n = UInt8.ofNat (128 + n % 128) :: number (n / 128) := by
  have hhigh : 0 < n / 128 := by omega
  unfold number
  -- the higher digits are not all zero, so the first is not the last
  rw [Nat.digits_def' (by omega) (by omega : 0 < n), Nat.digits_def' (by omega) hhigh]
  rfl

theorem lowBytes_eq (places n : Nat) :
    Codec.lowBytes places n = (List.range places).map fun i => UInt8.ofNat (n / 256 ^ i) := by
  induction places generalizing n with
  | zero => rfl
  | succ places ih =>
    have hlow : UInt8.ofNat (n % 256) = UInt8.ofNat (n / 256 ^ 0) := by
      rw [Nat.pow_zero, Nat.div_one]
      exact UInt8.ofNat_mod_size
    rw [Codec.lowBytes, ih, List.range_succ_eq_map, List.map_cons, List.map_map, hlow]
    congr 1
    -- the byte at `i` of the quotient is the byte at `i + 1` of the number
    refine List.map_congr_left fun i _ => ?_
    change UInt8.ofNat (n / 256 / 256 ^ i) = UInt8.ofNat (n / 256 ^ (i + 1))
    rw [Nat.div_div_eq_div_mul, Nat.pow_succ']

end Wire

namespace Codec

variable {α β : Type} {c : Codec α} {d : Codec β}

/-- A codec writes what a description says, as long as a word can count the bytes. -/
def WritesAs (c : Codec α) (spelled : α → List UInt8) : Prop :=
  ∀ v, (c.write v).length < UInt64.size → c.write v = spelled v

theorem writeDigits_eq (places n : Nat) (h : n < 128 ^ (places + 1)) :
    writeDigits (places + 1) n = Wire.number n := by
  induction places generalizing n with
  | zero =>
    have hn : n < 128 := by omega
    rw [writeDigits, if_pos hn, Wire.number_of_lt hn]
  | succ places ih =>
    rw [writeDigits]
    split
    · next hn => rw [Wire.number_of_lt hn]
    · next hn =>
      -- a digit less is left, and a place less to put it in
      have hhigh : n / 128 < 128 ^ (places + 1) := by
        rw [Nat.div_lt_iff_lt_mul (by omega), ← Nat.pow_succ]
        exact h
      rw [ih _ hhigh, Wire.number_of_le (Nat.not_lt.1 hn)]

theorem count_eq {n : Nat} (h : n < UInt64.size) : count.write n = Wire.number n :=
  writeDigits_eq 9 n (Nat.lt_of_lt_of_le h (by decide))

theorem writesAs_none : Codec.none.WritesAs fun _ => [] := fun _ _ => rfl

theorem writesAs_word : word.WritesAs fun n => Wire.number n.toNat :=
  fun n _ => count_eq n.toNat_lt

theorem writesAs_text : text.WritesAs Wire.text := by
  intro s h
  have hlen : (count.write (Text.bytes s).length ++ Text.bytes s).length < UInt64.size := h
  rw [List.length_append] at hlen
  change count.write (Text.bytes s).length ++ Text.bytes s = Wire.text s
  rw [count_eq (by omega)]
  rfl

theorem writesAs_real : real.WritesAs Wire.real := fun x _ => Wire.lowBytes_eq 8 x.bits.toNat

theorem WritesAs.convert {spelled : α → List UInt8} (h : c.WritesAs spelled) {ofRead : α → β}
    {toWrite : β → α} : (c.convert ofRead toWrite).WritesAs fun v => spelled (toWrite v) :=
  fun v => h (toWrite v)

theorem WritesAs.pair {first : α → List UInt8} {second : β → List UInt8} (hc : c.WritesAs first)
    (hd : d.WritesAs second) : (c.pair d).WritesAs fun v => first v.1 ++ second v.2 := by
  intro v h
  have hlen : (c.write v.1 ++ d.write v.2).length < UInt64.size := h
  rw [List.length_append] at hlen
  change c.write v.1 ++ d.write v.2 = first v.1 ++ second v.2
  rw [hc v.1 (by omega), hd v.2 (by omega)]

theorem WritesAs.list {spelled : α → List UInt8} (hc : c.WritesAs spelled)
    (pos : ∀ v, 0 < (c.write v).length) :
    (list c).WritesAs fun l => Wire.counted (l.map spelled) := by
  intro l h
  rw [length_list] at h
  -- each value takes a byte at least, so there are no more values than bytes
  have hcount := length_le_flatMap pos l
  have hvalues : l.flatMap c.write = (l.map spelled).flatten := by
    rw [List.flatMap_def]
    refine congrArg List.flatten (List.map_congr_left fun v hv => hc v ?_)
    have hpart := length_write_le_flatMap (c := c) hv
    omega
  change count.write l.length ++ l.flatMap c.write = Wire.counted (l.map spelled)
  rw [hvalues, count_eq (by omega), Wire.counted, List.length_map]

theorem WritesAs.table {spelled : α → List UInt8} (hc : c.WritesAs spelled) :
    (table c).WritesAs (Wire.table spelled) :=
  ((writesAs_text.pair hc).list length_entry_pos).convert

theorem writesAs_names : names.WritesAs Wire.names := by
  intro s h
  -- a name has no value beside it
  have hentries : (s.entries.map fun entry => Wire.text entry.1 ++ []) = s.names.map Wire.text := by
    change _ = (s.entries.map (·.1)).map Wire.text
    rw [List.map_map]
    exact List.map_congr_left fun entry _ => List.append_nil _
  have htable := writesAs_none.table s h
  unfold Wire.table at htable
  rw [hentries] at htable
  exact htable

theorem writesAs_identity : identity.WritesAs Wire.identity := by
  have patterns : (list text).WritesAs fun l => Wire.counted (l.map Wire.text) :=
    writesAs_text.list length_text_pos
  exact (writesAs_text.pair (writesAs_word.pair (patterns.pair writesAs_real))).convert

theorem writesAs_node : node.WritesAs Wire.node :=
  (writesAs_text.pair (writesAs_text.pair (writesAs_text.table.pair
    (writesAs_identity.pair writesAs_real)))).convert

theorem writesAs_edge : edge.WritesAs Wire.edge :=
  (writesAs_text.pair (writesAs_text.pair (writesAs_names.pair
    (writesAs_text.table.pair writesAs_real)))).convert

/-- **Graphs** are written as the format says. -/
theorem writesAs_graph : graph.WritesAs Wire.graph :=
  (writesAs_node.table.pair (writesAs_edge.table.pair writesAs_word)).convert

end Codec

end ResonantGraph
