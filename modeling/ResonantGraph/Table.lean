/-!
# Ordered tables

A `Table α` maps names to values and keeps its entries in ascending name order. Names are texts;
their order is the order of code points, which is also the order of their UTF-8 bytes. The order is
part of the type, so a table is determined by what it answers: two tables with the same lookups are
equal (`Table.ext_find?`).

Every operation is described by one equation on `Table.find?`:

* `find?_insert`, `find?_erase`, `find?_filter`, `find?_mapValues`, `find?_modify` and
  `find?_mergeWith` say what each operation does to a lookup;
* `mem_entries_iff` says that the entries are exactly the successful lookups, and `ascending` that
  they come out in order.

A set of names is a table of units, `NameSet`, with membership for a view.
-/

namespace ResonantGraph

/-- A finite map from names to values whose entries ascend strictly in the order of names. -/
structure Table (α : Type) where
  /-- The entries, in ascending order of their names. -/
  entries : List (String × α)
  /-- Each name is below every later one, so no name occurs twice. -/
  ascending : entries.Pairwise fun a b => a.1 < b.1

namespace Table

variable {α β : Type}

instance [DecidableEq α] : DecidableEq (Table α) := fun s t =>
  decidable_of_iff (s.entries = t.entries) <| by
    cases s; cases t; simp

instance [Repr α] : Repr (Table α) := ⟨fun t n => reprPrec t.entries n⟩

@[ext] theorem ext_entries {s t : Table α} (h : s.entries = t.entries) : s = t := by
  cases s; cases t; simpa using h

/-- The table without entries. -/
def empty : Table α := ⟨[], .nil⟩

instance : EmptyCollection (Table α) := ⟨empty⟩

instance : Inhabited (Table α) := ⟨empty⟩

@[simp] theorem entries_empty : (∅ : Table α).entries = [] := rfl

/-! ### Entry lists

The operations are first defined on plain lists of entries, where a law that needs no order is
proved without one. -/

/-- Looks a name up in a list of entries. -/
def lookup (name : String) : List (String × α) → Option α
  | [] => none
  | (key, value) :: rest => if key = name then some value else lookup name rest

/-- Puts an entry at its place, over an entry of the same name if there is one. -/
def place (name : String) (value : α) : List (String × α) → List (String × α)
  | [] => [(name, value)]
  | (key, old) :: rest =>
    if name < key then (name, value) :: (key, old) :: rest
    else if name = key then (name, value) :: rest
    else (key, old) :: place name value rest

theorem lookup_place (name key : String) (value : α) (l : List (String × α)) :
    lookup key (place name value l) = if name = key then some value else lookup key l := by
  induction l with
  | nil => simp [place, lookup]
  | cons e rest ih =>
    obtain ⟨k, old⟩ := e
    simp only [place]
    split
    · simp [lookup]
    · split
      · next h => subst h; by_cases h' : name = key <;> simp [lookup, h']
      · next h =>
        simp only [lookup, ih]
        by_cases h' : k = key
        · subst h'; simp [h]
        · simp [h']

theorem mem_place {name : String} {value : α} {e : String × α} {l : List (String × α)}
    (h : e ∈ place name value l) : e = (name, value) ∨ e ∈ l := by
  induction l with
  | nil => simpa [place] using h
  | cons d rest ih =>
    obtain ⟨k, old⟩ := d
    simp only [place] at h
    split at h
    · simpa using h
    · split at h
      · simp only [List.mem_cons] at h ⊢
        exact h.imp_right .inr
      · simp only [List.mem_cons] at h ⊢
        rcases h with h | h
        · exact .inr (.inl h)
        · exact (ih h).imp_right .inr

theorem pairwise_place (name : String) (value : α) {l : List (String × α)}
    (h : l.Pairwise fun a b => a.1 < b.1) :
    (place name value l).Pairwise fun a b => a.1 < b.1 := by
  induction l with
  | nil => simp [place]
  | cons d rest ih =>
    obtain ⟨k, old⟩ := d
    rw [List.pairwise_cons] at h
    obtain ⟨hk, hrest⟩ := h
    simp only [place]
    split
    · next hlt =>
      refine List.pairwise_cons.2 ⟨fun e he => ?_, List.pairwise_cons.2 ⟨hk, hrest⟩⟩
      rcases List.mem_cons.1 he with rfl | he
      · exact hlt
      · exact String.lt_trans hlt (hk e he)
    · split
      · next heq => subst heq; exact List.pairwise_cons.2 ⟨hk, hrest⟩
      · next hnlt hne =>
        refine List.pairwise_cons.2 ⟨fun e he => ?_, ih hrest⟩
        rcases mem_place he with rfl | he
        · refine Decidable.byContradiction fun hkn => hne ?_
          exact String.le_antisymm (String.not_lt.1 hkn) (String.not_lt.1 hnlt)
        · exact hk e he

/-- Goes along a list of entries until it is the turn of a given entry, and leaves the rest to a
function. -/
def mergeFrom (merged : List (String × α) → List (String × α)) (name : String) (value : α) :
    List (String × α) → List (String × α)
  | [] => (name, value) :: merged []
  | (key, other) :: rest =>
    if key < name then (key, other) :: mergeFrom merged name value rest
    else if key = name then (key, other) :: merged rest
    else (name, value) :: merged ((key, other) :: rest)

/-- Merges two ascending lists of entries; of two entries with one name the second list's counts. -/
def merge : List (String × α) → List (String × α) → List (String × α)
  | [], m => m
  | (name, value) :: l, m => mergeFrom (merge l) name value m

theorem lookup_eq_none {name : String} {l : List (String × α)}
    (h : ∀ e ∈ l, e.1 ≠ name) : lookup name l = none := by
  induction l with
  | nil => rfl
  | cons e rest ih =>
    simp only [List.mem_cons, forall_eq_or_imp] at h
    simp [lookup, h.1, ih h.2]

theorem mem_of_lookup {name : String} {value : α} {l : List (String × α)}
    (h : lookup name l = some value) : (name, value) ∈ l := by
  induction l with
  | nil => simp [lookup] at h
  | cons e rest ih =>
    obtain ⟨k, v⟩ := e
    simp only [lookup] at h
    split at h
    · next hk => cases h; subst hk; simp
    · exact List.mem_cons_of_mem _ (ih h)

theorem lookup_of_mem {name : String} {value : α} {l : List (String × α)}
    (hl : l.Pairwise fun a b => a.1 < b.1) (h : (name, value) ∈ l) :
    lookup name l = some value := by
  induction l with
  | nil => simp at h
  | cons e rest ih =>
    obtain ⟨k, v⟩ := e
    rw [List.pairwise_cons] at hl
    rcases List.mem_cons.1 h with h | h
    · cases h; simp [lookup]
    · have hlt : k < name := hl.1 _ h
      have hne : k ≠ name := fun heq => String.lt_irrefl name (heq ▸ hlt)
      simp [lookup, hne, ih hl.2 h]

theorem lookup_filter (p : String → α → Bool) (name : String) {l : List (String × α)}
    (hl : l.Pairwise fun a b => a.1 < b.1) :
    lookup name (l.filter fun e => p e.1 e.2) = (lookup name l).filter (p name) := by
  induction l with
  | nil => rfl
  | cons e rest ih =>
    obtain ⟨k, v⟩ := e
    rw [List.pairwise_cons] at hl
    by_cases hk : k = name
    · subst hk
      cases hp : p k v with
      | true => simp [lookup, hp, Option.filter]
      | false =>
        have hnone : lookup k rest = none :=
          lookup_eq_none fun e he heq => String.lt_irrefl k (heq ▸ hl.1 e he)
        simp [lookup, hp, ih hl.2, hnone, Option.filter]
    · cases hp : p k v <;> simp [lookup, hp, hk, ih hl.2]

theorem lookup_map (f : String → α → β) (name : String) (l : List (String × α)) :
    lookup name (l.map fun e => (e.1, f e.1 e.2)) = (lookup name l).map (f name) := by
  induction l with
  | nil => rfl
  | cons e rest ih =>
    obtain ⟨k, v⟩ := e
    by_cases hk : k = name
    · subst hk; simp [lookup]
    · simp [lookup, hk, ih]

theorem mem_mergeFrom {merged : List (String × α) → List (String × α)} {l : List (String × α)}
    (h : ∀ e m, e ∈ merged m → e ∈ l ∨ e ∈ m) {name : String} {value : α} {e : String × α}
    {m : List (String × α)} (he : e ∈ mergeFrom merged name value m) :
    e = (name, value) ∨ e ∈ l ∨ e ∈ m := by
  induction m with
  | nil => exact (List.mem_cons.1 he).imp_right (h e [])
  | cons d m ih =>
    obtain ⟨k, v⟩ := d
    simp only [mergeFrom] at he
    split at he
    · rcases List.mem_cons.1 he with rfl | he
      · simp
      · exact (ih he).imp_right fun h => h.imp_right (List.mem_cons_of_mem _)
    · split at he
      · rcases List.mem_cons.1 he with rfl | he
        · simp
        · exact .inr ((h e m he).imp_right (List.mem_cons_of_mem _))
      · exact (List.mem_cons.1 he).imp_right (h e _)

theorem mem_merge {e : String × α} {l m : List (String × α)} (he : e ∈ merge l m) :
    e ∈ l ∨ e ∈ m := by
  induction l generalizing e m with
  | nil => exact .inr he
  | cons d l ih =>
    rw [List.mem_cons, or_assoc]
    exact mem_mergeFrom (fun _ _ => ih) he

theorem pairwise_merge {l m : List (String × α)} (hl : l.Pairwise fun a b => a.1 < b.1)
    (hm : m.Pairwise fun a b => a.1 < b.1) :
    (merge l m).Pairwise fun a b => a.1 < b.1 := by
  induction l generalizing m with
  | nil => exact hm
  | cons d l ih =>
    obtain ⟨name, value⟩ := d
    obtain ⟨hname, hl'⟩ := List.pairwise_cons.1 hl
    simp only [merge]
    induction m with
    | nil =>
      refine List.pairwise_cons.2 ⟨fun e he => ?_, ih hl' .nil⟩
      exact hname e ((mem_merge he).resolve_right (by simp))
    | cons c m ihm =>
      obtain ⟨k, v⟩ := c
      obtain ⟨hk, hm'⟩ := List.pairwise_cons.1 hm
      simp only [mergeFrom]
      split
      · next hlt =>
        refine List.pairwise_cons.2 ⟨fun e he => ?_, ihm hm'⟩
        rcases mem_mergeFrom (fun _ _ => mem_merge) he with rfl | he | he
        · exact hlt
        · exact String.lt_trans hlt (hname e he)
        · exact hk e he
      · split
        · next heq =>
          subst heq
          exact List.pairwise_cons.2
            ⟨fun e he => (mem_merge he).elim (hname e) (hk e), ih hl' hm'⟩
        · next hnlt hne =>
          have hlt : name < k := Decidable.byContradiction fun hn =>
            hne (String.le_antisymm (String.not_lt.1 hn) (String.not_lt.1 hnlt))
          refine List.pairwise_cons.2 ⟨fun e he => ?_, ih hl' hm⟩
          rcases mem_merge he with he | he
          · exact hname e he
          · rcases List.mem_cons.1 he with rfl | he
            · exact hlt
            · exact String.lt_trans hlt (hk e he)

theorem lookup_merge (key : String) {l m : List (String × α)}
    (hl : l.Pairwise fun a b => a.1 < b.1) (hm : m.Pairwise fun a b => a.1 < b.1) :
    lookup key (merge l m) = (lookup key m).or (lookup key l) := by
  induction l generalizing m with
  | nil => simp [merge, lookup]
  | cons d l ih =>
    obtain ⟨name, value⟩ := d
    obtain ⟨hname, hl'⟩ := List.pairwise_cons.1 hl
    simp only [merge]
    induction m with
    | nil => simp [mergeFrom, lookup, ih hl' .nil]
    | cons c m ihm =>
      obtain ⟨k, v⟩ := c
      obtain ⟨hk, hm'⟩ := List.pairwise_cons.1 hm
      simp only [mergeFrom]
      split
      · simp only [lookup, ihm hm']
        by_cases h : k = key <;> simp [h]
      · split
        · next heq =>
          subst heq
          simp only [lookup, ih hl' hm']
          by_cases h : k = key <;> simp [h]
        · next hnlt hne =>
          have hlt : name < k := Decidable.byContradiction fun hn =>
            hne (String.le_antisymm (String.not_lt.1 hn) (String.not_lt.1 hnlt))
          simp only [lookup, ih hl' hm]
          by_cases h : name = key
          · subst h
            have hnone : lookup name m = none :=
              lookup_eq_none fun e he heq => String.lt_asymm hlt (heq ▸ hk e he)
            simp [hne, hnone]
          · simp [h]

/-! ### Operations -/

/-- The value stored under a name. -/
def find? (t : Table α) (name : String) : Option α := lookup name t.entries

/-- Whether a name has an entry. -/
def contains (t : Table α) (name : String) : Bool := (t.find? name).isSome

/-- Stores a value under a name, replacing what was there. -/
def insert (t : Table α) (name : String) (value : α) : Table α :=
  ⟨place name value t.entries, pairwise_place name value t.ascending⟩

/-- Keeps the entries that satisfy a test. -/
def filter (t : Table α) (p : String → α → Bool) : Table α :=
  ⟨t.entries.filter fun e => p e.1 e.2, t.ascending.filter _⟩

/-- Drops the entry of a name, if there is one. -/
def erase (t : Table α) (name : String) : Table α :=
  t.filter fun key _ => key ≠ name

/-- Applies a function to every value, names kept. -/
def mapValues (t : Table α) (f : String → α → β) : Table β :=
  ⟨t.entries.map fun e => (e.1, f e.1 e.2), List.pairwise_map.2 t.ascending⟩

/-- Applies a function to the value of one name, if it has one. -/
def modify (t : Table α) (name : String) (f : α → α) : Table α :=
  t.mapValues fun key value => if key = name then f value else value

/-- The names, ascending. -/
def keys (t : Table α) : List String := t.entries.map (·.1)

/-- The values, in the order of their names. -/
def values (t : Table α) : List α := t.entries.map (·.2)

/-- The number of entries. -/
def size (t : Table α) : Nat := t.entries.length

/-- Adds entries one after the other; of two with one name the later wins. -/
def insertAll (t : Table α) (l : List (String × α)) : Table α :=
  l.foldl (fun t e => t.insert e.1 e.2) t

/-- The table of a list of entries; of two with one name the later wins. -/
def ofList (l : List (String × α)) : Table α := (∅ : Table α).insertAll l

/-- The entries of two tables; of two with one name the second table's counts. -/
def mergeWith (s t : Table α) : Table α :=
  ⟨merge s.entries t.entries, pairwise_merge s.ascending t.ascending⟩

/-! ### Lookup laws -/

@[simp] theorem find?_empty (name : String) : (∅ : Table α).find? name = none := rfl

theorem find?_insert (t : Table α) (name key : String) (value : α) :
    (t.insert name value).find? key = if name = key then some value else t.find? key :=
  lookup_place name key value t.entries

@[simp] theorem find?_insert_self (t : Table α) (name : String) (value : α) :
    (t.insert name value).find? name = some value := by simp [find?_insert]

theorem find?_filter (t : Table α) (p : String → α → Bool) (name : String) :
    (t.filter p).find? name = (t.find? name).filter (p name) :=
  lookup_filter p name t.ascending

theorem find?_erase (t : Table α) (name key : String) :
    (t.erase name).find? key = if name = key then none else t.find? key := by
  rw [erase, find?_filter]
  by_cases h : name = key
  · subst h; cases t.find? name <;> simp
  · cases t.find? key <;> simp [h, Ne.symm h]

theorem find?_mapValues (t : Table α) (f : String → α → β) (name : String) :
    (t.mapValues f).find? name = (t.find? name).map (f name) :=
  lookup_map f name t.entries

theorem find?_modify (t : Table α) (name key : String) (f : α → α) :
    (t.modify name f).find? key = if name = key then (t.find? key).map f else t.find? key := by
  rw [modify, find?_mapValues]
  by_cases h : name = key
  · subst h; simp
  · cases t.find? key <;> simp [h, Ne.symm h]

theorem find?_mergeWith (s t : Table α) (name : String) :
    (s.mergeWith t).find? name = (t.find? name).or (s.find? name) :=
  lookup_merge name s.ascending t.ascending

theorem contains_iff {t : Table α} {name : String} :
    t.contains name = true ↔ ∃ value, t.find? name = some value := by
  simp [contains, Option.isSome_iff_exists]

theorem contains_eq_false_iff {t : Table α} {name : String} :
    t.contains name = false ↔ t.find? name = none := by
  simp [contains]

theorem contains_insert {t : Table α} {name key : String} {value : α} :
    (t.insert name value).contains key = true ↔ name = key ∨ t.contains key = true := by
  unfold contains
  rw [find?_insert]
  by_cases h : name = key <;> simp [h]

/-- The entries are exactly the successful lookups. -/
theorem mem_entries_iff {t : Table α} {name : String} {value : α} :
    (name, value) ∈ t.entries ↔ t.find? name = some value :=
  ⟨lookup_of_mem t.ascending, mem_of_lookup⟩

theorem mem_keys_iff {t : Table α} {name : String} : name ∈ t.keys ↔ t.contains name = true := by
  simp [keys, contains_iff, ← mem_entries_iff]

theorem mem_values_iff {t : Table α} {value : α} :
    value ∈ t.values ↔ ∃ name, t.find? name = some value := by
  simp [values, ← mem_entries_iff]

/-- **Extensionality.** A table is determined by its lookups. -/
theorem ext_find? {s t : Table α} (h : ∀ name, s.find? name = t.find? name) : s = t := by
  refine ext_entries ?_
  obtain ⟨l, hl⟩ := s
  obtain ⟨m, hm⟩ := t
  simp only [find?] at h ⊢
  induction l generalizing m with
  | nil =>
    cases m with
    | nil => rfl
    | cons e rest => simpa [lookup] using h e.1
  | cons d l ih =>
    cases m with
    | nil => simpa [lookup] using h d.1
    | cons e m =>
      obtain ⟨k, v⟩ := d
      obtain ⟨k', v'⟩ := e
      rw [List.pairwise_cons] at hl hm
      have below : ∀ {k : String} {l : List (String × α)}, (∀ e ∈ l, k < e.1) → ∀ name,
          ¬ k < name → lookup name l = none := fun hl name hn =>
        lookup_eq_none fun e he heq => hn (heq ▸ hl e he)
      have hkk : k = k' := by
        refine Decidable.byContradiction fun hne => ?_
        have h1 := h k
        have h2 := h k'
        simp only [lookup, if_true, hne, Ne.symm hne, if_false] at h1 h2
        have m1 := mem_of_lookup h1.symm
        have m2 := mem_of_lookup h2
        exact String.lt_asymm (hm.1 _ m1) (hl.1 _ m2)
      subst hkk
      have hv : v = v' := by simpa [lookup] using h k
      subst hv
      refine congrArg _ (ih hl.2 m hm.2 fun name => ?_)
      have hn := h name
      simp only [lookup] at hn
      split at hn
      · next heq =>
        subst heq
        rw [below hl.1 k (String.lt_irrefl k), below hm.1 k (String.lt_irrefl k)]
      · exact hn

theorem insert_eq_self {t : Table α} {name : String} {value : α}
    (h : t.find? name = some value) : t.insert name value = t := by
  refine ext_find? fun key => ?_
  rw [find?_insert]
  split
  · next heq => rw [← heq, h]
  · rfl

/-- The last entry of a name in a list is the one the list's table answers. -/
theorem find?_insertAll (t : Table α) (l : List (String × α)) (name : String) :
    (t.insertAll l).find? name = (lookup name l.reverse).or (t.find? name) := by
  have lookup_append : ∀ a b : List (String × α),
      lookup name (a ++ b) = (lookup name a).or (lookup name b) := by
    intro a b
    induction a with
    | nil => simp [lookup]
    | cons e rest ih => simp only [List.cons_append, lookup, ih]; split <;> simp
  induction l generalizing t with
  | nil => simp [insertAll, lookup]
  | cons e rest ih =>
    rw [insertAll, List.foldl_cons, ← insertAll, ih, find?_insert, List.reverse_cons,
      lookup_append]
    cases lookup name rest.reverse <;> simp [lookup]
    split <;> simp

/-- A table is the table of its own entries. -/
theorem ofList_entries (t : Table α) : ofList t.entries = t := by
  refine ext_find? fun name => ?_
  rw [ofList, find?_insertAll]
  cases h : t.find? name with
  | some value =>
    have mem := mem_entries_iff.2 h
    have some_of_mem : ∀ {l : List (String × α)}, (name, value) ∈ l →
        ∃ w, lookup name l = some w := by
      intro l hm
      induction l with
      | nil => simp at hm
      | cons e rest ih =>
        simp only [lookup]
        split
        · exact ⟨_, rfl⟩
        · next hne =>
          rcases List.mem_cons.1 hm with rfl | hm
          · exact absurd rfl hne
          · exact ih hm
    obtain ⟨w, hw⟩ := some_of_mem (List.mem_reverse.2 mem)
    have := mem_of_lookup hw
    rw [List.mem_reverse, mem_entries_iff, h] at this
    simpa [hw] using this.symm
  | none =>
    have : lookup name t.entries.reverse = none :=
      lookup_eq_none fun e he heq => by
        have := mem_entries_iff.1 (List.mem_reverse.1 he)
        rw [heq, h] at this
        exact absurd this (by simp)
    simp [this]

/-- The names ascend strictly. -/
theorem keys_ascending (t : Table α) : t.keys.Pairwise (· < ·) :=
  List.pairwise_map.2 t.ascending

theorem nodup_keys (t : Table α) : t.keys.Nodup := t.keys_ascending.imp String.ne_of_lt

end Table

/-! ### Sets of names -/

/-- A finite set of names, kept in ascending order. -/
abbrev NameSet := Table Unit

namespace NameSet

/-- The set of the names in a list. -/
def ofNames (names : List String) : NameSet := Table.ofList (names.map (·, ()))

/-- The union of two sets. -/
def union (s t : NameSet) : NameSet := s.mergeWith t

/-- The union of several sets. -/
def unions (sets : List NameSet) : NameSet := sets.foldl union ∅

/-- The names, ascending. -/
def names (s : NameSet) : List String := Table.keys s

/-- Goes along an ascending list of names until it is the turn of a given name, keeps that name if
the list has it, and leaves the rest to a function. -/
def commonFrom (common : List String → List String) (name : String) : List String → List String
  | [] => []
  | key :: rest =>
    if key < name then commonFrom common name rest
    else if key = name then name :: common rest
    else common (key :: rest)

/-- The names that two ascending lists have in common. -/
def common : List String → List String → List String
  | [], _ => []
  | name :: l, m => commonFrom (common l) name m

theorem common_eq_filter {l m : List String} (hl : l.Pairwise (· < ·)) (hm : m.Pairwise (· < ·)) :
    common l m = l.filter fun name => m.contains name := by
  induction l generalizing m with
  | nil => rfl
  | cons name l ih =>
    obtain ⟨hname, hl'⟩ := List.pairwise_cons.1 hl
    have later {key : String} {rest : List String} (hle : key < name ∨ key = name) :
        (l.filter fun n => (key :: rest).contains n) = l.filter fun n => rest.contains n := by
      refine List.filter_congr fun n hn => ?_
      have hne : n ≠ key := by
        rintro rfl
        rcases hle with hlt | rfl
        · exact String.lt_asymm hlt (hname n hn)
        · exact String.lt_irrefl n (hname n hn)
      simp [hne]
    simp only [common]
    induction m with
    | nil => simp [commonFrom]
    | cons key rest ihm =>
      obtain ⟨hkey, hm'⟩ := List.pairwise_cons.1 hm
      simp only [commonFrom]
      split
      · next hlt =>
        have hne : name ≠ key := fun h => String.lt_irrefl key (h ▸ hlt)
        rw [ihm hm', List.filter_cons, List.filter_cons, later (.inl hlt)]
        simp [hne]
      · split
        · next heq =>
          rw [List.filter_cons, later (.inr heq), ih hl' hm']
          simp [heq]
        · next hnlt hne =>
          have hlt : name < key := Decidable.byContradiction fun hn =>
            hne (String.le_antisymm (String.not_lt.1 hn) (String.not_lt.1 hnlt))
          have hout : ¬ name ∈ rest := fun h => String.lt_asymm hlt (hkey name h)
          rw [List.filter_cons, ih hl' hm]
          simp [Ne.symm hne, hout]

instance : Membership String NameSet := ⟨fun s name => Table.contains s name = true⟩

instance (name : String) (s : NameSet) : Decidable (name ∈ s) :=
  inferInstanceAs (Decidable (Table.contains s name = true))

theorem mem_iff {name : String} {s : NameSet} : name ∈ s ↔ s.find? name = some () := by
  change Table.contains s name = true ↔ _
  rw [Table.contains_iff]
  exact ⟨fun ⟨_, h⟩ => h, fun h => ⟨_, h⟩⟩

@[simp] theorem not_mem_empty (name : String) : ¬ name ∈ (∅ : NameSet) := by
  simp [mem_iff]

@[simp] theorem mem_names {name : String} {s : NameSet} : name ∈ s.names ↔ name ∈ s :=
  Table.mem_keys_iff

/-- The names ascend strictly. -/
theorem names_ascending (s : NameSet) : s.names.Pairwise (· < ·) := Table.keys_ascending s

theorem nodup_names (s : NameSet) : s.names.Nodup := Table.nodup_keys s

/-- **Extensionality.** A set of names is determined by its members. -/
theorem ext_mem {s t : NameSet} (h : ∀ name, name ∈ s ↔ name ∈ t) : s = t := by
  refine Table.ext_find? fun name => ?_
  have := h name
  simp only [mem_iff] at this
  cases hs : s.find? name <;> cases ht : t.find? name <;> simp_all

@[simp] theorem mem_insert {name key : String} {u : Unit} {s : NameSet} :
    key ∈ s.insert name u ↔ key = name ∨ key ∈ s := by
  simp only [mem_iff, Table.find?_insert]
  by_cases h : name = key
  · simp [h]
  · simp [h, Ne.symm h]

theorem mem_insertAll {name : String} {s : NameSet} {l : List (String × Unit)} :
    name ∈ s.insertAll l ↔ name ∈ s ∨ ∃ e ∈ l, e.1 = name := by
  induction l generalizing s with
  | nil => simp [Table.insertAll]
  | cons e rest ih =>
    rw [Table.insertAll, List.foldl_cons, ← Table.insertAll, ih]
    simp only [mem_insert, List.mem_cons, exists_eq_or_imp]
    constructor
    · rintro ((h | h) | h)
      · exact .inr (.inl h.symm)
      · exact .inl h
      · exact .inr (.inr h)
    · rintro (h | h | h)
      · exact .inl (.inr h)
      · exact .inl (.inl h.symm)
      · exact .inr h

@[simp] theorem mem_ofNames {name : String} {l : List String} : name ∈ ofNames l ↔ name ∈ l := by
  rw [ofNames, Table.ofList, mem_insertAll]
  simp

@[simp] theorem mem_union {name : String} {s t : NameSet} :
    name ∈ s.union t ↔ name ∈ s ∨ name ∈ t := by
  simp only [mem_iff, union, Table.find?_mergeWith]
  cases s.find? name <;> cases t.find? name <;> simp

@[simp] theorem mem_unions {name : String} {sets : List NameSet} :
    name ∈ unions sets ↔ ∃ s ∈ sets, name ∈ s := by
  have mem_foldl : ∀ s : NameSet, name ∈ sets.foldl union s ↔ name ∈ s ∨ ∃ t ∈ sets, name ∈ t := by
    induction sets with
    | nil => simp
    | cons t rest ih => simp [ih, or_assoc]
  simp [unions, mem_foldl]

theorem mem_filter {name : String} {s : NameSet} {p : String → Bool} :
    name ∈ s.filter (fun key _ => p key) ↔ name ∈ s ∧ p name = true := by
  simp only [mem_iff, Table.find?_filter]
  cases s.find? name <;> simp

theorem mem_erase {name key : String} {s : NameSet} :
    key ∈ s.erase name ↔ key ∈ s ∧ key ≠ name := by
  simp only [mem_iff, Table.find?_erase]
  by_cases h : name = key
  · simp [h]
  · simp [h, Ne.symm h]

end NameSet

end ResonantGraph
