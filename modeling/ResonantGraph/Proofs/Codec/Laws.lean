import ResonantGraph.Proofs.Codec.RoundTrip
import Mathlib.Algebra.GroupWithZero.Nat

/-!
# Laws of codecs

`Codec.ReadsBack` is about the bytes of one value. A codec as a whole is *lawful* if three things hold
(`Codec.Lawful`):

* every value whose encoding is shorter than a word can count reads back. Nothing else is asked of the
  value, since no part of an encoding announces more bytes or entries than the encoding has;
* a reader that succeeds does not look at what follows. So it fails on every strict beginning of an
  encoding, wherever the cut falls (`Lawful.read_strict_prefix`);
* a reader never takes fewer bytes than its value is written in. Numbers may be read from more digits
  than they need, and of entries with one name all but one are dropped, but nothing comes out longer.

The laws compose. For each reader there is one lemma that says what a success means (`read_pair`,
`read_list`, …); the laws of a combination follow from it and the laws of its parts, down to those of
nodes, edges and graphs.
-/

namespace ResonantGraph

namespace Table

variable {α : Type}

/-- Placing an entry adds its size at most. -/
theorem sum_place_le (size : String × α → Nat) (name : String) (value : α)
    (l : List (String × α)) :
    ((place name value l).map size).sum ≤ size (name, value) + (l.map size).sum := by
  induction l with
  | nil => exact Nat.le_refl _
  | cons d rest ih =>
    obtain ⟨key, old⟩ := d
    rw [place]
    split
    · -- a new entry in front
      exact Nat.le_refl _
    · split
      · -- the old entry goes
        rw [List.map_cons, List.map_cons, List.sum_cons, List.sum_cons]
        omega
      · rw [List.map_cons, List.map_cons, List.sum_cons, List.sum_cons]
        omega

/-- The table of a list is no larger than the list, whatever its entries count for. -/
theorem sum_ofList_le (size : String × α → Nat) (l : List (String × α)) :
    ((ofList l).entries.map size).sum ≤ (l.map size).sum := by
  -- for any table to begin with, so that the induction may go on from the one after the first entry
  have insertAll_le : ∀ t : Table α,
      ((t.insertAll l).entries.map size).sum ≤ (t.entries.map size).sum + (l.map size).sum := by
    induction l with
    | nil => exact fun t => Nat.le_refl _
    | cons e rest ih =>
      intro t
      have hplace : ((t.insert e.1 e.2).entries.map size).sum ≤
          size e + (t.entries.map size).sum := sum_place_le size e.1 e.2 t.entries
      have hrest := ih (t.insert e.1 e.2)
      rw [insertAll, List.foldl_cons, ← insertAll, List.map_cons, List.sum_cons]
      omega
  have h := insertAll_le ∅
  rwa [entries_empty, List.map_nil, List.sum_nil, Nat.zero_add] at h

/-- Nor does it have more entries. -/
theorem size_ofList_le (l : List (String × α)) : (ofList l).size ≤ l.length := by
  have h := sum_ofList_le (fun _ => 1) l
  rwa [List.map_const', List.map_const', List.sum_replicate_nat, List.sum_replicate_nat, Nat.mul_one,
    Nat.mul_one] at h

theorem size_insert_le (t : Table α) (name : String) (value : α) :
    (t.insert name value).size ≤ t.size + 1 := by
  have h := sum_place_le (fun _ => 1) name value t.entries
  rw [List.map_const', List.map_const', List.sum_replicate_nat, List.sum_replicate_nat, Nat.mul_one,
    Nat.mul_one] at h
  have hsize : (t.insert name value).size = (place name value t.entries).length := rfl
  rw [hsize]
  unfold size
  omega

end Table

namespace Codec

variable {α β : Type}

/-! ### What a success means -/

theorem read_count {data rest : List UInt8} {n : Nat} :
    count.read data = .ok (n, rest) ↔
      readDigits maxPlaces data = .ok (n, rest) ∧ n < UInt64.size := by
  unfold count
  dsimp only
  constructor
  · intro h
    split at h
    · cases h
    · next hdigits =>
      split at h
      · next hlt =>
        cases h
        exact ⟨hdigits, hlt⟩
      · cases h
  · rintro ⟨hdigits, hlt⟩
    rw [hdigits]
    exact if_pos hlt

theorem read_convert {c : Codec α} {ofRead : α → β} {toWrite : β → α} {data rest : List UInt8}
    {v : β} :
    (c.convert ofRead toWrite).read data = .ok (v, rest) ↔
      ∃ w, c.read data = .ok (w, rest) ∧ ofRead w = v := by
  unfold Codec.convert
  dsimp only
  constructor
  · intro h
    split at h
    · cases h
    · next w middle hw =>
      cases h
      exact ⟨w, hw, rfl⟩
  · rintro ⟨w, hw, rfl⟩
    rw [hw]

theorem read_pair {c : Codec α} {d : Codec β} {data rest : List UInt8} {v : α × β} :
    (c.pair d).read data = .ok (v, rest) ↔
      ∃ middle, c.read data = .ok (v.1, middle) ∧ d.read middle = .ok (v.2, rest) := by
  unfold Codec.pair
  dsimp only
  constructor
  · intro h
    split at h
    · cases h
    · next a middle ha =>
      split at h
      · cases h
      · next b _ hb =>
        cases h
        exact ⟨middle, ha, hb⟩
  · rintro ⟨middle, ha, hb⟩
    rw [ha]
    dsimp only
    rw [hb]

theorem readMany_succ {c : Codec α} {n : Nat} {data rest : List UInt8} {l : List α} :
    c.readMany (n + 1) data = .ok (l, rest) ↔
      ∃ v vs middle, l = v :: vs ∧ c.read data = .ok (v, middle) ∧
        c.readMany n middle = .ok (vs, rest) := by
  rw [readMany]
  constructor
  · intro h
    split at h
    · cases h
    · next v middle hv =>
      split at h
      · cases h
      · next vs _ hvs =>
        cases h
        exact ⟨v, vs, middle, rfl, hv, hvs⟩
  · rintro ⟨v, vs, middle, rfl, hv, hvs⟩
    rw [hv]
    dsimp only
    rw [hvs]

theorem length_of_readMany {c : Codec α} {n : Nat} {data rest : List UInt8} {l : List α}
    (h : c.readMany n data = .ok (l, rest)) : l.length = n := by
  induction n generalizing data l with
  | zero =>
    cases h
    rfl
  | succ n ih =>
    obtain ⟨v, vs, middle, rfl, -, hvs⟩ := readMany_succ.1 h
    rw [List.length_cons, ih hvs]

theorem read_list {c : Codec α} {data rest : List UInt8} {l : List α} :
    (list c).read data = .ok (l, rest) ↔
      ∃ middle, count.read data = .ok (l.length, middle) ∧
        c.readMany l.length middle = .ok (l, rest) := by
  unfold Codec.list
  dsimp only
  constructor
  · intro h
    split at h
    · cases h
    · next n middle hn =>
      -- as many values come out as were announced
      cases length_of_readMany h
      exact ⟨middle, hn, h⟩
  · rintro ⟨middle, hn, hl⟩
    rw [hn]
    exact hl

theorem readBytes_eq_ok {n : Nat} {data taken rest : List UInt8} :
    readBytes n data = .ok (taken, rest) ↔ data = taken ++ rest ∧ taken.length = n := by
  constructor
  · intro h
    unfold readBytes at h
    dsimp only at h
    split at h
    · cases h
    · next hlong =>
      cases h
      have hle : (data.take n).length ≤ n := List.length_take_le n data
      exact ⟨(List.take_append_drop n data).symm, by omega⟩
  · rintro ⟨rfl, hn⟩
    exact readBytes_append hn rest

theorem read_text {data rest : List UInt8} {s : String} :
    text.read data = .ok (s, rest) ↔
      count.read data = .ok ((Text.bytes s).length, Text.bytes s ++ rest) := by
  unfold text
  dsimp only
  constructor
  · intro h
    split at h
    · cases h
    · next n middle hn =>
      split at h
      · cases h
      · next taken _ htaken =>
        obtain ⟨rfl, rfl⟩ := readBytes_eq_ok.1 htaken
        split at h
        · next hvalid =>
          -- bytes that are accepted are the bytes of their text
          cases h
          rw [Text.bytes_of_ofBytes? hvalid]
          exact hn
        · cases h
  · intro h
    rw [h]
    dsimp only
    rw [readBytes_append rfl]
    dsimp only
    rw [Text.ofBytes?_bytes]

theorem read_real {data rest : List UInt8} {x : Binary64} :
    real.read data = .ok (x, rest) ↔
      ∃ taken, data = taken ++ rest ∧ taken.length = 8 ∧
        x = ⟨UInt64.ofNat (ofLowBytes taken)⟩ := by
  unfold real
  dsimp only
  constructor
  · intro h
    split at h
    · cases h
    · next taken _ htaken =>
      obtain ⟨rfl, hlen⟩ := readBytes_eq_ok.1 htaken
      cases h
      exact ⟨taken, rfl, hlen, rfl⟩
  · rintro ⟨taken, rfl, hlen, rfl⟩
    rw [readBytes_append hlen]

/-! ### Numbers -/

theorem readDigits_append {places : Nat} {data rest : List UInt8} {n : Nat}
    (h : readDigits places data = .ok (n, rest)) (more : List UInt8) :
    readDigits places (data ++ more) = .ok (n, rest ++ more) := by
  induction places generalizing data n with
  | zero => cases h
  | succ places ih =>
    cases data with
    | nil => cases h
    | cons b data =>
      rw [readDigits] at h
      rw [List.cons_append, readDigits]
      split at h
      · next hlast =>
        cases h
        exact if_pos hlast
      · next hmore =>
        rw [if_neg hmore]
        split at h
        · cases h
        · next high _ hhigh =>
          cases h
          rw [ih hhigh]

/-- A number may be read from more digits than it needs, and never from fewer. -/
theorem length_writeDigits_of_read {places : Nat} {data rest : List UInt8} {n : Nat}
    (h : readDigits places data = .ok (n, rest)) :
    (writeDigits places n).length + rest.length ≤ data.length := by
  induction places generalizing data n with
  | zero => cases h
  | succ places ih =>
    cases data with
    | nil => cases h
    | cons b data =>
      rw [readDigits] at h
      rw [writeDigits]
      split at h
      · next hlast =>
        cases h
        have hn : b.toNat < 128 := UInt8.lt_iff_toNat_lt.1 hlast
        rw [if_pos hn, List.length_singleton, List.length_cons]
        omega
      · next hmore =>
        split at h
        · cases h
        · next high _ hhigh =>
          cases h
          have hlen := ih hhigh
          split
          · -- the higher digits are zero, and need not have been there
            rw [List.length_singleton, List.length_cons]
            omega
          · next hn =>
            -- what is left to write is what the higher digits were read as
            have hbyte : b.toNat < 256 := b.toNat_lt
            have hquotient : (b.toNat - 128 + 128 * high) / 128 = high := by omega
            rw [hquotient, List.length_cons, List.length_cons]
            omega

theorem length_writeDigits_mono {m n : Nat} (h : m ≤ n) (places : Nat) :
    (writeDigits places m).length ≤ (writeDigits places n).length := by
  induction places generalizing m n with
  | zero => exact Nat.le_refl _
  | succ places ih =>
    rw [writeDigits, writeDigits]
    split
    · split
      · exact Nat.le_refl _
      · rw [List.length_singleton, List.length_cons]
        omega
    · next hm =>
      rw [if_neg (by omega : ¬ n < 128), List.length_cons, List.length_cons]
      exact Nat.succ_le_succ (ih (Nat.div_le_div_right h))

theorem length_count_pos (n : Nat) : 0 < (count.write n).length := by
  change 0 < (writeDigits (9 + 1) n).length
  rw [writeDigits]
  split <;> exact Nat.succ_pos _

theorem read_count_append {data rest : List UInt8} {n : Nat} (h : count.read data = .ok (n, rest))
    (more : List UInt8) : count.read (data ++ more) = .ok (n, rest ++ more) := by
  obtain ⟨hdigits, hlt⟩ := read_count.1 h
  exact read_count.2 ⟨readDigits_append hdigits more, hlt⟩

theorem length_count_of_read {data rest : List UInt8} {n : Nat}
    (h : count.read data = .ok (n, rest)) :
    (count.write n).length + rest.length ≤ data.length :=
  length_writeDigits_of_read (read_count.1 h).1

/-! ### Lawful codecs -/

/-- A codec that reads back what it can write, does not look ahead, and never expands. -/
structure Lawful (c : Codec α) : Prop where
  /-- A value reads back if a word can count its bytes. -/
  readsBack : ∀ v, (c.write v).length < UInt64.size → c.ReadsBack v
  /-- What follows a value does not matter to reading it. -/
  read_append : ∀ {data rest v}, c.read data = .ok (v, rest) →
    ∀ more, c.read (data ++ more) = .ok (v, rest ++ more)
  /-- A value is written in no more bytes than it was read from. -/
  length_write : ∀ {data rest v}, c.read data = .ok (v, rest) →
    (c.write v).length + rest.length ≤ data.length

/-- **No strict beginning of an encoding can be read.** -/
theorem Lawful.read_strict_prefix {c : Codec α} (h : c.Lawful) {v : α}
    (size : (c.write v).length < UInt64.size) {part : List UInt8} (hpart : part <+: c.write v)
    (hne : part ≠ c.write v) : ∃ e, c.read part = .error e := by
  obtain ⟨missing, hmissing⟩ := hpart
  cases hread : c.read part with
  | error e => exact ⟨e, rfl⟩
  | ok found =>
    obtain ⟨w, rest⟩ := found
    -- with the missing bytes put back, reading would leave them, and yet it leaves nothing
    have hwhole : c.read (c.write v) = .ok (w, rest ++ missing) := by
      rw [← hmissing]
      exact h.read_append hread missing
    have hback : c.read (c.write v) = .ok (v, []) := by
      have hrest := h.readsBack v size []
      rwa [List.append_nil] at hrest
    rw [hback] at hwhole
    have hnil : rest ++ missing = [] := congrArg Prod.snd (Except.ok.inj hwhole).symm
    have hcut : part = c.write v := by
      rw [← hmissing, (List.append_eq_nil_iff.1 hnil).2, List.append_nil]
    exact absurd hcut hne

theorem lawful_none : Codec.none.Lawful where
  readsBack := fun v _ => readsBack_none v
  read_append := by
    intro data rest v h more
    cases h
    rfl
  length_write := by
    intro data rest v h
    cases h
    exact Nat.le_of_eq (Nat.zero_add _)

theorem lawful_word : word.Lawful where
  readsBack := fun n _ => readsBack_word n
  read_append := by
    intro data rest n h more
    obtain ⟨m, hm, rfl⟩ := read_convert.1 h
    exact read_convert.2 ⟨m, read_count_append hm more, rfl⟩
  length_write := by
    intro data rest n h
    obtain ⟨m, hm, rfl⟩ := read_convert.1 h
    -- what is read fits a word, so nothing is cut off
    have hlt : m < UInt64.size := (read_count.1 hm).2
    have hword : (UInt64.ofNat m).toNat = m := UInt64.toNat_ofNat_of_lt' hlt
    change (count.write (UInt64.ofNat m).toNat).length + rest.length ≤ data.length
    rw [hword]
    exact length_count_of_read hm

theorem lawful_text : text.Lawful where
  readsBack := by
    intro s h
    have hlen : (count.write (Text.bytes s).length ++ Text.bytes s).length < UInt64.size := h
    rw [List.length_append] at hlen
    exact readsBack_text (Nat.lt_of_le_of_lt (Nat.le_add_left _ _) hlen)
  read_append := by
    intro data rest s h more
    have hcount := read_count_append (read_text.1 h) more
    rw [List.append_assoc] at hcount
    exact read_text.2 hcount
  length_write := by
    intro data rest s h
    have hcount := length_count_of_read (read_text.1 h)
    change (count.write (Text.bytes s).length ++ Text.bytes s).length + rest.length ≤ data.length
    rw [List.length_append] at hcount ⊢
    omega

theorem lawful_real : real.Lawful where
  readsBack := fun x _ => readsBack_real x
  read_append := by
    intro data rest x h more
    obtain ⟨taken, rfl, hlen, rfl⟩ := read_real.1 h
    exact read_real.2 ⟨taken, List.append_assoc .., hlen, rfl⟩
  length_write := by
    intro data rest x h
    obtain ⟨taken, rfl, hlen, -⟩ := read_real.1 h
    have height : (lowBytes 8 x.bits.toNat).length = taken.length :=
      (length_lowBytes ..).trans hlen.symm
    change (lowBytes 8 x.bits.toNat).length + rest.length ≤ (taken ++ rest).length
    exact Nat.le_of_eq (by rw [height, List.length_append])

variable {c : Codec α} {d : Codec β}

theorem Lawful.convert (hc : c.Lawful) {ofRead : α → β} {toWrite : β → α}
    (inverse : ∀ v, ofRead (toWrite v) = v)
    (shorter : ∀ w, (c.write (toWrite (ofRead w))).length ≤ (c.write w).length) :
    (c.convert ofRead toWrite).Lawful where
  readsBack := fun v h => (hc.readsBack (toWrite v) h).convert (inverse v)
  read_append := by
    intro data rest v h more
    obtain ⟨w, hw, hv⟩ := read_convert.1 h
    exact read_convert.2 ⟨w, hc.read_append hw more, hv⟩
  length_write := by
    intro data rest v h
    obtain ⟨w, hw, rfl⟩ := read_convert.1 h
    have hlen := hc.length_write hw
    have hshorter := shorter w
    change (c.write (toWrite (ofRead w))).length + rest.length ≤ data.length
    omega

theorem Lawful.pair (hc : c.Lawful) (hd : d.Lawful) : (c.pair d).Lawful where
  readsBack := by
    intro v h
    have hlen : (c.write v.1 ++ d.write v.2).length < UInt64.size := h
    rw [List.length_append] at hlen
    exact (hc.readsBack v.1 (by omega)).pair (hd.readsBack v.2 (by omega))
  read_append := by
    intro data rest v h more
    obtain ⟨middle, ha, hb⟩ := read_pair.1 h
    exact read_pair.2 ⟨middle ++ more, hc.read_append ha more, hd.read_append hb more⟩
  length_write := by
    intro data rest v h
    obtain ⟨middle, ha, hb⟩ := read_pair.1 h
    have hfirst := hc.length_write ha
    have hsecond := hd.length_write hb
    change (c.write v.1 ++ d.write v.2).length + rest.length ≤ data.length
    rw [List.length_append]
    omega

theorem Lawful.readMany_append (hc : c.Lawful) {n : Nat} {data rest : List UInt8} {l : List α}
    (h : c.readMany n data = .ok (l, rest)) (more : List UInt8) :
    c.readMany n (data ++ more) = .ok (l, rest ++ more) := by
  induction n generalizing data l with
  | zero =>
    cases h
    rfl
  | succ n ih =>
    obtain ⟨v, vs, middle, rfl, hv, hvs⟩ := readMany_succ.1 h
    exact readMany_succ.2 ⟨v, vs, middle ++ more, rfl, hc.read_append hv more, ih hvs⟩

theorem Lawful.length_readMany (hc : c.Lawful) {n : Nat} {data rest : List UInt8} {l : List α}
    (h : c.readMany n data = .ok (l, rest)) :
    (l.flatMap c.write).length + rest.length ≤ data.length := by
  induction n generalizing data l with
  | zero =>
    cases h
    exact Nat.le_of_eq (Nat.zero_add _)
  | succ n ih =>
    obtain ⟨v, vs, middle, rfl, hv, hvs⟩ := readMany_succ.1 h
    have hfirst := hc.length_write hv
    have hothers := ih hvs
    rw [List.flatMap_cons, List.length_append]
    omega

/-- As many values as take a byte each take as many bytes. -/
theorem length_le_flatMap (pos : ∀ v, 0 < (c.write v).length) (l : List α) :
    l.length ≤ (l.flatMap c.write).length := by
  induction l with
  | nil => exact Nat.le_refl _
  | cons v l ih =>
    have hv := pos v
    rw [List.flatMap_cons, List.length_append, List.length_cons]
    omega

/-- Each of some values takes part of the bytes of all. -/
theorem length_write_le_flatMap {v : α} {l : List α} (hv : v ∈ l) :
    (c.write v).length ≤ (l.flatMap c.write).length := by
  obtain ⟨before, after, rfl⟩ := List.append_of_mem hv
  rw [List.flatMap_append, List.flatMap_cons]
  simp only [List.length_append]
  omega

theorem length_list (l : List α) :
    ((list c).write l).length = (count.write l.length).length + (l.flatMap c.write).length :=
  List.length_append

theorem Lawful.list (hc : c.Lawful) (pos : ∀ v, 0 < (c.write v).length) : (list c).Lawful where
  readsBack := by
    intro l h
    rw [length_list] at h
    -- the number of values and the bytes of each are less than the bytes of all
    have hcount := length_le_flatMap pos l
    refine ReadsBack.list (by omega) fun v hv => hc.readsBack v ?_
    have hpart := length_write_le_flatMap (c := c) hv
    omega
  read_append := by
    intro data rest l h more
    obtain ⟨middle, hn, hl⟩ := read_list.1 h
    exact read_list.2 ⟨middle ++ more, read_count_append hn more, hc.readMany_append hl more⟩
  length_write := by
    intro data rest l h
    obtain ⟨middle, hn, hl⟩ := read_list.1 h
    have hcount := length_count_of_read hn
    have hvalues := hc.length_readMany hl
    rw [length_list]
    omega

/-! ### The values of a graph -/

theorem length_text_pos (s : String) : 0 < (text.write s).length := by
  have hcount := length_count_pos (Text.bytes s).length
  change 0 < (count.write (Text.bytes s).length ++ Text.bytes s).length
  rw [List.length_append]
  omega

theorem length_entry_pos (entry : String × α) : 0 < ((text.pair c).write entry).length := by
  have hname := length_text_pos entry.1
  change 0 < (text.write entry.1 ++ c.write entry.2).length
  rw [List.length_append]
  omega

/-- A table is written in no more bytes than a list that it is the table of. -/
theorem length_list_ofList (l : List (String × α)) :
    ((list (text.pair c)).write (Table.ofList l).entries).length ≤
      ((list (text.pair c)).write l).length := by
  -- there are no more entries than in the list, and they take no more bytes
  have hsize : (Table.ofList l).entries.length ≤ l.length := Table.size_ofList_le l
  have hentries : ((Table.ofList l).entries.flatMap (text.pair c).write).length ≤
      (l.flatMap (text.pair c).write).length := by
    rw [List.length_flatMap, List.length_flatMap]
    exact Table.sum_ofList_le _ l
  have hcount : (count.write (Table.ofList l).entries.length).length ≤
      (count.write l.length).length := length_writeDigits_mono hsize maxPlaces
  rw [length_list, length_list]
  omega

theorem Lawful.table (hc : c.Lawful) : (table c).Lawful :=
  ((lawful_text.pair hc).list length_entry_pos).convert Table.ofList_entries length_list_ofList

theorem lawful_names : names.Lawful := lawful_none.table

theorem lawful_attributes : attributes.Lawful := lawful_text.table

theorem lawful_identity : identity.Lawful := by
  have patterns : (list text).Lawful := lawful_text.list length_text_pos
  exact (lawful_text.pair (lawful_word.pair (patterns.pair lawful_real))).convert (fun _ => rfl)
    fun _ => Nat.le_refl _

theorem lawful_node : node.Lawful :=
  (lawful_text.pair (lawful_text.pair (lawful_attributes.pair
    (lawful_identity.pair lawful_real)))).convert (fun _ => rfl) fun _ => Nat.le_refl _

theorem lawful_edge : edge.Lawful :=
  (lawful_text.pair (lawful_text.pair (lawful_names.pair
    (lawful_attributes.pair lawful_real)))).convert (fun _ => rfl) fun _ => Nat.le_refl _

/-- **Graphs** are written and read by the laws. -/
theorem lawful_graph : graph.Lawful :=
  (lawful_node.table.pair (lawful_edge.table.pair lawful_word)).convert (fun _ => rfl)
    fun _ => Nat.le_refl _

end Codec

end ResonantGraph
