import ResonantGraph.Snapshot
import Mathlib.Algebra.Group.Nat.Defs

/-!
# Reading what was written

A value *reads back* through a codec when reading its bytes, whatever follows them, gives the value
and leaves what follows (`Codec.ReadsBack`). The law composes: a pair reads back where its parts do, a
list or a table where its entries do and their number fits a word, so each kind of value inherits it
from the kinds that it is made of.

The only demand is that counts fit a word. Texts and collections in the memory of a machine always
are that small; a value of the types here need not be, so the demand has a name for each type, such
as `Node.Fits`. No other property of a value matters, and none of a real: any text reads back, and
every one of the bits of a real does.
-/

namespace ResonantGraph

namespace Codec

variable {α β : Type}

/-- Reading the bytes of a value, whatever follows them, gives the value and what follows. -/
def ReadsBack (c : Codec α) (v : α) : Prop :=
  ∀ rest, c.read (c.write v ++ rest) = .ok (v, rest)

/-! ### Numbers -/

theorem toNat_byte {n : Nat} (h : n < 256) : (UInt8.ofNat n).toNat = n :=
  UInt8.toNat_ofNat_of_lt' h

/-- A byte below 128 is the last one of a number. -/
theorem readDigits_last {n : Nat} (h : n < 128) (places : Nat) (rest : List UInt8) :
    readDigits (places + 1) (UInt8.ofNat n :: rest) = .ok (n, rest) := by
  have hbyte : (UInt8.ofNat n).toNat = n := toNat_byte (by omega)
  have hlast : UInt8.ofNat n < 128 := by
    rw [UInt8.lt_iff_toNat_lt, hbyte]
    exact h
  rw [readDigits, if_pos hlast, hbyte]

/-- A number of at most so many places reads back from its digits. -/
theorem readDigits_writeDigits (places n : Nat) (h : n < 128 ^ (places + 1)) (rest : List UInt8) :
    readDigits (places + 1) (writeDigits (places + 1) n ++ rest) = .ok (n, rest) := by
  -- over the places that are left; each digit read leaves one less
  induction places generalizing n with
  | zero =>
    rw [writeDigits, if_pos (by omega)]
    exact readDigits_last (by omega) 0 rest
  | succ places ih =>
    rw [writeDigits]
    split
    · next hn => exact readDigits_last hn _ rest
    · next hn =>
      -- more digits follow, and the byte says so
      have hbyte : (UInt8.ofNat (128 + n % 128)).toNat = 128 + n % 128 := toNat_byte (by omega)
      have hmore : ¬ UInt8.ofNat (128 + n % 128) < 128 := by
        rw [UInt8.lt_iff_toNat_lt, hbyte]
        exact Nat.not_lt.2 (Nat.le_add_right 128 _)
      have hhigh : n / 128 < 128 ^ (places + 1) := by
        rw [Nat.div_lt_iff_lt_mul (by omega), ← Nat.pow_succ]
        exact h
      have hsum : 128 + n % 128 - 128 + 128 * (n / 128) = n := by omega
      rw [List.cons_append, readDigits, if_neg hmore, ih _ hhigh, hbyte]
      dsimp only
      rw [hsum]

theorem readsBack_count {n : Nat} (h : n < UInt64.size) : count.ReadsBack n := by
  intro rest
  have hplaces : n < 128 ^ (9 + 1) := Nat.lt_of_lt_of_le h (by decide)
  unfold count
  dsimp only
  rw [show maxPlaces = 9 + 1 from rfl, readDigits_writeDigits 9 n hplaces rest]
  dsimp only
  rw [if_pos h]

/-! ### Combinations -/

theorem ReadsBack.convert {c : Codec α} {ofRead : α → β} {toWrite : β → α} {v : β}
    (h : c.ReadsBack (toWrite v)) (inverse : ofRead (toWrite v) = v) :
    (c.convert ofRead toWrite).ReadsBack v := by
  intro rest
  unfold Codec.convert
  dsimp only
  rw [h rest]
  dsimp only
  rw [inverse]

theorem ReadsBack.pair {c : Codec α} {d : Codec β} {v : α × β} (hc : c.ReadsBack v.1)
    (hd : d.ReadsBack v.2) : (c.pair d).ReadsBack v := by
  intro rest
  unfold Codec.pair
  dsimp only
  rw [List.append_assoc, hc]
  dsimp only
  rw [hd]

theorem readMany_flatMap {c : Codec α} {l : List α} (h : ∀ v ∈ l, c.ReadsBack v)
    (rest : List UInt8) : c.readMany l.length (l.flatMap c.write ++ rest) = .ok (l, rest) := by
  induction l with
  | nil => rfl
  | cons v l ih =>
    rw [List.forall_mem_cons] at h
    rw [List.length_cons, List.flatMap_cons, List.append_assoc, readMany, h.1]
    dsimp only
    rw [ih h.2]

theorem ReadsBack.list {c : Codec α} {l : List α} (size : l.length < UInt64.size)
    (h : ∀ v ∈ l, c.ReadsBack v) : (list c).ReadsBack l := by
  intro rest
  unfold Codec.list
  dsimp only
  rw [List.append_assoc, readsBack_count size]
  exact readMany_flatMap h rest

/-! ### The values of a graph -/

theorem readsBack_none (v : Unit) : Codec.none.ReadsBack v := fun _ => rfl

theorem readsBack_word (n : UInt64) : word.ReadsBack n :=
  (readsBack_count n.toNat_lt).convert (UInt64.ofNat_toNat)

theorem length_lowBytes (places n : Nat) : (lowBytes places n).length = places := by
  induction places generalizing n with
  | zero => rfl
  | succ places ih => rw [lowBytes, List.length_cons, ih]

theorem ofLowBytes_lowBytes (places n : Nat) :
    ofLowBytes (lowBytes places n) = n % 256 ^ places := by
  induction places generalizing n with
  | zero => rw [Nat.pow_zero, Nat.mod_one]; rfl
  | succ places ih =>
    have hbyte : (UInt8.ofNat (n % 256)).toNat = n % 256 := toNat_byte (Nat.mod_lt _ (by decide))
    rw [lowBytes, ofLowBytes, ih, hbyte, Nat.pow_succ', Nat.mod_mul]

theorem readBytes_append {n : Nat} {data : List UInt8} (h : data.length = n) (rest : List UInt8) :
    readBytes n (data ++ rest) = .ok (data, rest) := by
  subst h
  unfold readBytes
  dsimp only
  rw [List.take_left', List.drop_left', if_neg (Nat.lt_irrefl _)] <;> rfl

/-- The bits of every real read back, those of a not-a-number among them. -/
theorem readsBack_real (x : Binary64) : real.ReadsBack x := by
  intro rest
  -- eight bytes hold every word, whatever number or not-a-number it stands for
  have hlt : x.bits.toNat < 256 ^ 8 := x.bits.toNat_lt
  have hbits : UInt64.ofNat (ofLowBytes (lowBytes 8 x.bits.toNat)) = x.bits := by
    rw [ofLowBytes_lowBytes, Nat.mod_eq_of_lt hlt, UInt64.ofNat_toNat]
  unfold real
  dsimp only
  rw [readBytes_append (length_lowBytes 8 _)]
  dsimp only
  rw [hbits]

end Codec

/-- A text whose number of bytes fits a word. -/
def Text.Fits (text : String) : Prop := (Text.bytes text).length < UInt64.size

/-- A table whose number of entries fits a word and whose names and values fit. -/
structure Table.Fits {α : Type} (valueFits : α → Prop) (t : Table α) : Prop where
  /-- The number of entries fits. -/
  size : t.size < UInt64.size
  /-- Each name fits, and so does its value. -/
  entries : ∀ entry ∈ t.entries, Text.Fits entry.1 ∧ valueFits entry.2

/-- An identity with texts and a list of patterns that fit. -/
structure Identity.Fits (identity : Identity) : Prop where
  /-- The signature fits. -/
  signature : Text.Fits identity.signature
  /-- The number of patterns fits. -/
  patternCount : identity.patterns.length < UInt64.size
  /-- Each pattern fits. -/
  patterns : ∀ pattern ∈ identity.patterns, Text.Fits pattern

/-- A node with texts, attributes and an identity that fit. -/
structure Node.Fits (node : Node) : Prop where
  /-- The identifier fits. -/
  id : Text.Fits node.id
  /-- The label fits. -/
  label : Text.Fits node.label
  /-- The attributes fit. -/
  attributes : node.attributes.Fits Text.Fits
  /-- The identity fits. -/
  identity : node.identity.Fits

/-- An edge with texts, members and attributes that fit. -/
structure Edge.Fits (edge : Edge) : Prop where
  /-- The identifier fits. -/
  id : Text.Fits edge.id
  /-- The label fits. -/
  label : Text.Fits edge.label
  /-- The members fit. -/
  members : Table.Fits (fun _ => True) edge.members
  /-- The attributes fit. -/
  attributes : edge.attributes.Fits Text.Fits

instance (text : String) : Decidable (Text.Fits text) :=
  inferInstanceAs (Decidable (_ < _))

instance {α : Type} (valueFits : α → Prop) [DecidablePred valueFits] (t : Table α) :
    Decidable (t.Fits valueFits) :=
  decidable_of_iff (t.size < UInt64.size ∧ ∀ entry ∈ t.entries, Text.Fits entry.1 ∧ valueFits entry.2)
    ⟨fun ⟨size, entries⟩ => ⟨size, entries⟩, fun h => ⟨h.size, h.entries⟩⟩

instance (identity : Identity) : Decidable identity.Fits :=
  decidable_of_iff
    (Text.Fits identity.signature ∧ identity.patterns.length < UInt64.size ∧
      ∀ pattern ∈ identity.patterns, Text.Fits pattern)
    ⟨fun ⟨signature, count, patterns⟩ => ⟨signature, count, patterns⟩,
      fun h => ⟨h.signature, h.patternCount, h.patterns⟩⟩

instance (node : Node) : Decidable node.Fits :=
  decidable_of_iff
    (Text.Fits node.id ∧ Text.Fits node.label ∧ node.attributes.Fits Text.Fits ∧
      node.identity.Fits)
    ⟨fun ⟨id, label, attributes, identity⟩ => ⟨id, label, attributes, identity⟩,
      fun h => ⟨h.id, h.label, h.attributes, h.identity⟩⟩

instance (edge : Edge) : Decidable edge.Fits :=
  decidable_of_iff
    (Text.Fits edge.id ∧ Text.Fits edge.label ∧ Table.Fits (fun _ => True) edge.members ∧
      edge.attributes.Fits Text.Fits)
    ⟨fun ⟨id, label, members, attributes⟩ => ⟨id, label, members, attributes⟩,
      fun h => ⟨h.id, h.label, h.members, h.attributes⟩⟩

theorem Node.Fits.setActivation {node : Node} (h : node.Fits) (level : Binary64) :
    (node.setActivation level).Fits := ⟨h.id, h.label, h.attributes, h.identity⟩

namespace Codec

variable {α : Type}

theorem readsBack_text {s : String} (h : Text.Fits s) : text.ReadsBack s := by
  intro rest
  unfold text
  dsimp only
  rw [List.append_assoc, readsBack_count h]
  dsimp only
  rw [readBytes_append rfl]
  dsimp only
  rw [Text.ofBytes?_bytes]

theorem ReadsBack.table {c : Codec α} {valueFits : α → Prop}
    (hc : ∀ v, valueFits v → c.ReadsBack v) {t : Table α} (h : t.Fits valueFits) :
    (table c).ReadsBack t := by
  -- a table is written as the list of its entries
  have entries : ∀ entry ∈ t.entries, (text.pair c).ReadsBack entry := by
    intro entry hentry
    obtain ⟨hname, hvalue⟩ := h.entries entry hentry
    exact (readsBack_text hname).pair (hc entry.2 hvalue)
  exact (ReadsBack.list h.size entries).convert (Table.ofList_entries t)

theorem readsBack_attributes {a : Attributes} (h : a.Fits Text.Fits) : attributes.ReadsBack a :=
  ReadsBack.table (fun _ => readsBack_text) h

theorem readsBack_names {s : NameSet} (h : Table.Fits (fun _ => True) s) : names.ReadsBack s :=
  ReadsBack.table (fun v _ => readsBack_none v) h

theorem readsBack_identity {i : Identity} (h : i.Fits) : identity.ReadsBack i := by
  have patterns : (list text).ReadsBack i.patterns :=
    ReadsBack.list h.patternCount fun pattern hp => readsBack_text (h.patterns pattern hp)
  refine ReadsBack.convert ?_ rfl
  refine ReadsBack.pair (readsBack_text h.signature) ?_
  refine ReadsBack.pair (readsBack_word _) ?_
  exact ReadsBack.pair patterns (readsBack_real _)

/-- **Nodes read back**, bit for bit. -/
theorem readsBack_node {n : Node} (h : n.Fits) : node.ReadsBack n := by
  refine ReadsBack.convert ?_ rfl
  refine ReadsBack.pair (readsBack_text h.id) ?_
  refine ReadsBack.pair (readsBack_text h.label) ?_
  refine ReadsBack.pair (readsBack_attributes h.attributes) ?_
  exact ReadsBack.pair (readsBack_identity h.identity) (readsBack_real _)

/-- **Edges read back**, bit for bit. -/
theorem readsBack_edge {e : Edge} (h : e.Fits) : edge.ReadsBack e := by
  refine ReadsBack.convert ?_ rfl
  refine ReadsBack.pair (readsBack_text h.id) ?_
  refine ReadsBack.pair (readsBack_text h.label) ?_
  refine ReadsBack.pair (readsBack_names h.members) ?_
  exact ReadsBack.pair (readsBack_attributes h.attributes) (readsBack_real _)

end Codec

end ResonantGraph
