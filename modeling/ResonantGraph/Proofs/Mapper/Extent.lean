import ResonantGraph.Proofs.Codec.Laws
import ResonantGraph.Proofs.Mapper.Script
import ResonantGraph.Proofs.Store.Encoded
import ResonantGraph.Proofs.Text.Length

/-!
# What a mapper adds can be written

Bytes hold an element if a word can count them (`Node.Fits`, `Edge.Fits`). Every text in the elements of a
record is joined from a few texts that were there before, so it is enough that these are short of the
limit by a factor. They are measured in *shares* (`Text.Takes`), of which there are thirty-one.

The numbers of words and attributes are no concern either. What grows with the graph is the edge among
similar contents, which has no more members than there are nodes, and an operation adds one node at most
(`Mapper.size_nodes_nextAll`). So whatever a record of modest size asks for can be written, as long as
there is room for as many nodes as it may ask for operations (`Mapper.within_script`).
-/

namespace ResonantGraph

open Operation (nextAll)

/-! ### Shares -/

/-- The bytes in a share. -/
def Text.share : Nat := 2 ^ 59

/-- A text takes a number of shares at most. -/
structure Text.Takes (shares : Nat) (text : String) : Prop where
  /-- There are no more bytes than in the shares. -/
  length_le : (Text.bytes text).length ≤ shares * Text.share

namespace Text.Takes

variable {m n : Nat} {text more : String}

theorem append (h : Text.Takes m text) (h' : Text.Takes n more) : Text.Takes (m + n) (text ++ more) := by
  constructor
  rw [Text.length_bytes_append, Nat.add_mul]
  exact Nat.add_le_add h.length_le h'.length_le

theorem fits (h : Text.Takes n text) (hn : n < 32) : Text.Fits text := by
  have hlength := h.length_le
  unfold Text.share at hlength
  unfold Text.Fits UInt64.size
  omega

/-- A text with few characters takes a share. -/
theorem of_length (h : text.length ≤ 2 ^ 57) : Text.Takes 1 text := by
  have hbytes := Text.length_bytes_le text
  constructor
  unfold Text.share
  omega

/-- So does a word in digits. -/
theorem of_digits (hn : n < 2 ^ 64) : Text.Takes 1 (toString n) := by
  have hlength : n.repr.length ≤ 20 := (Nat.length_repr_le_iff (by decide)).2 (by omega)
  exact of_length (Nat.le_trans hlength (by decide))

end Text.Takes

/-! ### The size of tables -/

namespace Table

variable {α : Type}

/-- The entries of the table of a list come from the list. -/
theorem mem_of_mem_ofList {l : List (String × α)} {e : String × α} (h : e ∈ (ofList l).entries) :
    e ∈ l := by
  have hfind := mem_entries_iff.1 h
  unfold ofList at hfind
  rw [find?_insertAll] at hfind
  cases hlookup : lookup e.1 l.reverse with
  | none =>
    rw [hlookup] at hfind
    cases hfind
  | some value =>
    rw [hlookup] at hfind
    cases hfind
    exact List.mem_reverse.1 (mem_of_lookup hlookup)

theorem fits_ofList {valueFits : α → Prop} {l : List (String × α)} (hsize : l.length < UInt64.size)
    (h : ∀ e ∈ l, Text.Fits e.1 ∧ valueFits e.2) : (ofList l).Fits valueFits where
  size := Nat.lt_of_le_of_lt (size_ofList_le l) hsize
  entries e he := h e (mem_of_mem_ofList he)

end Table

theorem NameSet.fits_ofNames {l : List String} (hsize : l.length < UInt64.size)
    (h : ∀ name ∈ l, Text.Fits name) : Table.Fits (fun _ => True) (NameSet.ofNames l) := by
  refine Table.fits_ofList ?_ fun e he => ?_
  · rwa [List.length_map]
  · obtain ⟨name, hname, rfl⟩ := List.mem_map.1 he
    exact ⟨h name hname, trivial⟩

/-! ### Records of modest size -/

/-- A record with a content, attributes and their texts that are far from any limit. -/
structure Record.Modest (record : Record) : Prop where
  /-- The characters of the content are few. -/
  content : record.content.length ≤ 2 ^ 27
  /-- So are the attributes. -/
  count : record.attributes.size ≤ 2 ^ 30
  /-- Each name of an attribute takes a share, and so does its value. -/
  attributes : ∀ e ∈ record.attributes.entries, Text.Takes 1 e.1 ∧ Text.Takes 1 e.2

namespace Mapper

section Names

variable {record : Record} {flow : String}

theorem length_hexOfText (text : String) : (Fingerprint.hexOfText text).length = 16 := by
  unfold Fingerprint.hexOfText Text.hexWord
  rw [String.length_ofList, Text.length_hexPlaces]

theorem takes_flowOf (h : record.Modest) : Text.Takes 1 (flowOf record) := by
  unfold flowOf
  cases huuid : record.uuid? with
  | some uuid =>
    -- it is the value of an attribute
    obtain ⟨hfind, -⟩ := Option.filter_eq_some_iff.1 huuid
    exact (h.attributes _ (Table.mem_entries_iff.2 hfind)).2
  | none =>
    refine Text.Takes.of_length ?_
    change ("flow_" ++ Fingerprint.hexOfText record.content).length ≤ _
    rw [String.length_append, length_hexOfText]
    decide

theorem takes_of_mem_wordsOf {m : Mapper} (h : record.Modest) {word : String}
    (hword : word ∈ m.wordsOf record) : Text.Takes 1 word := by
  obtain ⟨chars, hchars, rfl⟩ := List.mem_map.1 (NameSet.mem_ofNames.1 (NameSet.mem_names.1 hword))
  have hlength := Words.length_le_of_mem_listWith hchars
  have hcontent := h.content
  refine Text.Takes.of_length ?_
  rw [String.length_ofList]
  rw [String.length_toList] at hlength
  omega

theorem length_wordsOf_le (m : Mapper) (record : Record) :
    (m.wordsOf record).length ≤ record.content.length + 1 := by
  have hlist : (Words.listWith Text.lowercase m.minWordLength record.content.toList).length ≤ _ :=
    Words.length_listWith_le ..
  rw [String.length_toList] at hlist
  have hnames := Table.size_ofList_le
    (((Words.listWith Text.lowercase m.minWordLength record.content.toList).map String.ofList).map
      (·, ()))
  rw [List.length_map, List.length_map] at hnames
  have hsize : (m.wordsOf record).length =
      Table.size (Words.ofText m.minWordLength record.content) := List.length_map ..
  rw [hsize]
  exact Nat.le_trans hnames hlist

theorem takes_contentId (h : Text.Takes 1 flow) : Text.Takes 2 (contentId flow) := 
  h.append (.of_length (by decide))

theorem takes_wordId {word : String} (h : Text.Takes 1 word) : Text.Takes 2 (wordId word) :=
  (Text.Takes.of_length (by decide)).append h

theorem takes_attributeId (h : Text.Takes 1 flow) {name : String} (hname : Text.Takes 1 name) :
    Text.Takes 3 (attributeId flow name) :=
  (h.append (.of_length (by decide))).append hname

theorem takes_numberedId (h : Text.Takes 1 flow) {kind : String} (hkind : Text.Takes 1 kind)
    (n : UInt64) : Text.Takes 5 (numberedId flow kind n) := by
  have hunderscore : Text.Takes 1 "_" := .of_length (by decide)
  exact (((h.append hunderscore).append hkind).append hunderscore).append (.of_digits n.toNat_lt)

end Names

/-! ### Elements that fit -/

theorem fits_identity : Identity.Fits {} := by decide

section Elements

variable {flow : String} (hflow : Text.Takes 1 flow)

include hflow

theorem fits_contentNode {content : String} (hcontent : content.length ≤ 2 ^ 27) {identity : Identity}
    (hidentity : identity.Fits) : (contentNode flow content identity).Fits where
  id := (takes_contentId hflow).fits (by decide)
  label := (by decide : Text.Fits "Content")
  attributes := by
    have hbytes := Text.length_bytes_le content
    have hlength : Text.Takes 1 (toString (Text.bytes content).length) := .of_digits (by omega)
    have hhash : Text.Takes 1 (Fingerprint.hexOfText content) :=
      .of_length (by rw [length_hexOfText]; decide)
    refine Table.fits_ofList (by decide : 4 < UInt64.size) ?_
    simp only [List.forall_mem_cons, List.not_mem_nil, false_implies, implies_true, and_true]
    exact ⟨⟨by decide, by decide⟩, ⟨by decide, hflow.fits (by decide)⟩,
      ⟨by decide, hlength.fits (by decide)⟩, by decide, hhash.fits (by decide)⟩
  identity := hidentity

theorem fits_attributeNode {name value : String} (hname : Text.Takes 1 name)
    (hvalue : Text.Takes 1 value) : (attributeNode flow name value).Fits where
  id := (takes_attributeId hflow hname).fits (by decide)
  label := ((Text.Takes.of_length (by decide)).append hname).fits (by decide)
  attributes := by
    refine Table.fits_ofList (by decide : 3 < UInt64.size) ?_
    simp only [List.forall_mem_cons, List.not_mem_nil, false_implies, implies_true, and_true]
    exact ⟨⟨by decide, by decide⟩, ⟨by decide, hname.fits (by decide)⟩,
      by decide, hvalue.fits (by decide)⟩
  identity := fits_identity

/-- An edge of a number joins as many members as a word can count. -/
theorem fits_wordsEdge (n : UInt64) {words : List String} (hcount : words.length ≤ 2 ^ 30)
    (hwords : ∀ word ∈ words, Text.Takes 1 word) : (wordsEdge flow n words).Fits where
  id := (takes_numberedId hflow (.of_length (by decide)) n).fits (by decide)
  label := (by decide : Text.Fits "Content-Word Relationship")
  members := by
    refine NameSet.fits_ofNames ?_ (List.forall_mem_cons.2 ⟨(takes_contentId hflow).fits (by decide), ?_⟩)
    · rw [List.length_cons, List.length_map]
      unfold UInt64.size
      omega
    · intro id hid
      obtain ⟨word, hword, rfl⟩ := List.mem_map.1 hid
      exact (takes_wordId (hwords word hword)).fits (by decide)
  attributes :=
    (by decide : Table.Fits Text.Fits (Table.ofList [("type", "contains_words")]))

theorem fits_attributeEdge {name : String} (hname : Text.Takes 1 name) :
    (attributeEdge flow name).Fits where
  id := ((hflow.append (.of_length (by decide))).append hname).fits (by decide)
  label := (by decide : Text.Fits "Content-Attribute Relationship")
  members := NameSet.fits_ofNames (by decide : 2 < UInt64.size) (List.forall_mem_cons.2
    ⟨(takes_contentId hflow).fits (by decide), List.forall_mem_singleton.2
      ((takes_attributeId hflow hname).fits (by decide))⟩)
  attributes := by
    refine Table.fits_ofList (by decide : 2 < UInt64.size) ?_
    simp only [List.forall_mem_cons, List.not_mem_nil, false_implies, implies_true, and_true]
    exact ⟨⟨by decide, by decide⟩, by decide, hname.fits (by decide)⟩

theorem fits_clusterEdge (n : UInt64) {attributes : List (String × String)}
    (hcount : attributes.length ≤ 2 ^ 30) (hnames : ∀ a ∈ attributes, Text.Takes 1 a.1) :
    (clusterEdge flow n (attributeIds flow attributes)).Fits where
  id := (takes_numberedId hflow (.of_length (by decide)) n).fits (by decide)
  label := (by decide : Text.Fits "Attribute Cluster")
  members := by
    refine NameSet.fits_ofNames ?_ (List.forall_mem_append.2 ⟨?_, ?_⟩)
    · unfold attributeIds
      rw [List.length_append, List.length_map, List.length_singleton]
      unfold UInt64.size
      omega
    · intro id hid
      obtain ⟨a, ha, rfl⟩ := List.mem_map.1 hid
      exact (takes_attributeId hflow (hnames a ha)).fits (by decide)
    · exact List.forall_mem_singleton.2 ((takes_contentId hflow).fits (by decide))
  attributes :=
    (by decide : Table.Fits Text.Fits (Table.ofList [("type", "attribute_cluster")]))

theorem fits_similarityEdge (n : UInt64) {others : List NodeId} (hcount : others.length ≤ 2 ^ 63)
    (hothers : ∀ id ∈ others, Text.Fits id) : (similarityEdge flow n others).Fits where
  id := (takes_numberedId hflow (.of_length (by decide)) n).fits (by decide)
  label := (by decide : Text.Fits "Content Similarity")
  members := by
    refine NameSet.fits_ofNames ?_
      (List.forall_mem_cons.2 ⟨(takes_contentId hflow).fits (by decide), hothers⟩)
    rw [List.length_cons]
    unfold UInt64.size
    omega
  attributes :=
    (by decide : Table.Fits Text.Fits (Table.ofList [("type", "similarity"), ("similarity_type", "content_overlap")]))

end Elements

theorem fits_wordNode {word : String} (h : Text.Takes 1 word) : (wordNode word).Fits where
  id := (takes_wordId h).fits (by decide)
  label := ((Text.Takes.of_length (by decide)).append h).fits (by decide)
  attributes := by
    refine Table.fits_ofList (by decide : 2 < UInt64.size) ?_
    simp only [List.forall_mem_cons, List.not_mem_nil, false_implies, implies_true, and_true]
    exact ⟨⟨by decide, by decide⟩, by decide, h.fits (by decide)⟩
  identity := fits_identity

/-! ### Room for nodes -/

section Room

variable {m : Mapper} {g : Hypergraph} {op : Operation} {ops : List Operation}

/-- An operation adds one node at most. -/
theorem size_nodes_next (h : op.adds = true) : (op.next g).nodes.size ≤ g.nodes.size + 1 := by
  cases op with
  | addNode node =>
    change (g.addNode node).2.nodes.size ≤ _
    unfold Hypergraph.addNode
    cases g.hasNode node.id with
    | true => exact Nat.le_succ _
    | false => exact Table.size_insert_le ..
  | addEdge edge =>
    rw [Operation.nodes_next_addEdge]
    exact Nat.le_succ _
  | propagate source initial =>
    change (g.propagate source initial).2.nodes.size ≤ _
    unfold Hypergraph.propagate
    split
    · unfold Table.size Table.mapValues
      rw [List.length_map]
      exact Nat.le_succ _
    · exact Nat.le_succ _
  | nextSequence => exact Nat.le_succ _
  | _ => cases h

theorem size_nodes_nextAll (h : ∀ op ∈ ops, op.adds = true) :
    (nextAll g ops).nodes.size ≤ g.nodes.size + ops.length := by
  induction ops generalizing g with
  | nil => exact Nat.le_refl _
  | cons op ops ih =>
    rw [List.forall_mem_cons] at h
    have hfirst := size_nodes_next (g := g) h.1
    have hrest := ih (g := op.next g) h.2
    rw [Operation.nextAll_cons, List.length_cons]
    omega

variable {record : Record} {identity : Identity}

theorem length_mappedAttributes_le (h : record.Modest) : (mappedAttributes record).length ≤ 2 ^ 30 :=
  Nat.le_trans (List.length_filter_le ..) h.count

theorem length_newAttributes_le (g : Hypergraph) (h : record.Modest) :
    (newAttributes g (flowOf record) (mappedAttributes record)).length ≤ 2 ^ 30 :=
  Nat.le_trans (List.length_filter_le ..) (length_mappedAttributes_le h)

/-- The most operations that a record asks for. -/
def mostOperations : Nat := 2 ^ 32

theorem length_wordsScript_le (flow : String) (words : List String) (n : UInt64) :
    (wordsScript flow words n).length ≤ words.length + 2 := by
  unfold wordsScript
  rw [List.length_append, List.length_map]
  split
  · exact Nat.le_add_right _ _
  · exact Nat.le_refl _

theorem length_similarityScript_le (flow : String) (others : List NodeId) (n : UInt64) :
    (similarityScript flow others n).length ≤ 2 := by
  unfold similarityScript
  split
  · exact Nat.zero_le _
  · exact Nat.le_refl _

theorem length_attributesScript_le (flow : String) (attributes : List (String × String)) (n : UInt64) :
    (attributesScript flow attributes n).length ≤ 2 * attributes.length + 2 := by
  have heach : (attributes.flatMap (attributeScript flow)).length = 2 * attributes.length := by
    induction attributes with
    | nil => rfl
    | cons a rest ih =>
      rw [List.flatMap_cons, List.length_append, ih, List.length_cons]
      change 2 + 2 * rest.length = _
      omega
  unfold attributesScript
  rw [List.length_append, heach]
  split
  · exact Nat.le_add_right _ _
  · exact Nat.le_refl _

theorem length_elementsScript_le (h : record.Modest) :
    (m.elementsScript g record identity).length ≤ mostOperations - 2 := by
  have hwords := length_wordsOf_le m record
  have hcontent := h.content
  have hnew := length_newAttributes_le (nextAll g (m.contentScript g record identity)) h
  have hattributes := length_attributesScript_le (flowOf record)
    (newAttributes (nextAll g (m.contentScript g record identity)) (flowOf record)
      (mappedAttributes record)) (nextAll g (m.contentScript g record identity)).sequence
  have hadds := length_wordsScript_le (flowOf record) (m.wordsOf record) g.sequence
  unfold elementsScript spreadScript mostOperations
  rw [List.length_append, List.length_append, List.length_singleton]
  have hfirst : (m.contentScript g record identity).length =
      (wordsScript (flowOf record) (m.wordsOf record) g.sequence).length + 1 := rfl
  omega

/-- A record asks for a bounded number of operations. -/
theorem length_script_le (h : record.Modest) :
    (m.script g record identity).length ≤ mostOperations := by
  cases known : g.hasNode (contentId (flowOf record)) with
  | true =>
    rw [script_known known]
    exact (by decide : 1 ≤ mostOperations)
  | false =>
    have helements : (m.elementsScript g record identity).length ≤ mostOperations - 2 :=
      length_elementsScript_le h
    have hlast := length_similarityScript_le (flowOf record) (m.similarOf g record identity)
      (nextAll g (m.elementsScript g record identity)).sequence
    rw [script_new known, List.length_append]
    unfold mostOperations at helements ⊢
    omega

end Room

/-! ### Scripts that fit -/

section Scripts

variable {m : Mapper} {g : Hypergraph} {record : Record} {identity : Identity}

/-- A number, and the edge that it completes. -/
theorem within_numbered {edge : Edge} (h : edge.Fits) :
    ∀ op ∈ [Operation.nextSequence, .addEdge edge], op.Within Node.Fits Edge.Fits :=
  List.forall_mem_cons.2 ⟨trivial, List.forall_mem_singleton.2 h⟩

theorem within_contentScript (h : record.Modest) (hidentity : identity.Fits) :
    ∀ op ∈ m.contentScript g record identity, op.Within Node.Fits Edge.Fits := by
  have hflow := takes_flowOf h
  have hcount := length_wordsOf_le m record
  have hcontent := h.content
  refine List.forall_mem_cons.2 ⟨fits_contentNode hflow h.content hidentity,
    List.forall_mem_append.2 ⟨fun op hop => ?_, ?_⟩⟩
  · obtain ⟨word, hword, rfl⟩ := List.mem_map.1 hop
    exact fits_wordNode (takes_of_mem_wordsOf h hword)
  · split
    · exact nofun
    · exact within_numbered (fits_wordsEdge hflow _ (by omega) fun word => takes_of_mem_wordsOf h)

theorem within_spreadScript (h : record.Modest) :
    ∀ op ∈ spreadScript g record, op.Within Node.Fits Edge.Fits := by
  have hflow := takes_flowOf h
  have hnew (a : String × String)
      (ha : a ∈ newAttributes g (flowOf record) (mappedAttributes record)) :
      Text.Takes 1 a.1 ∧ Text.Takes 1 a.2 :=
    h.attributes a (List.mem_of_mem_filter (List.mem_of_mem_filter ha))
  refine List.forall_mem_append.2 ⟨List.forall_mem_append.2 ⟨fun op hop => ?_, ?_⟩,
    List.forall_mem_singleton.2 trivial⟩
  · obtain ⟨a, ha, hop⟩ := List.mem_flatMap.1 hop
    obtain ⟨hname, hvalue⟩ := hnew a ha
    rcases List.mem_pair.1 hop with rfl | rfl
    · exact fits_attributeNode hflow hname hvalue
    · exact fits_attributeEdge hflow hname
  · split
    · exact nofun
    · exact within_numbered
        (fits_clusterEdge hflow _ (length_newAttributes_le g h) fun a ha => (hnew a ha).1)

/-- There are no more similar contents than nodes, and their identifiers fit. -/
theorem within_similarityScript (h : record.Modest) (every : g.Every (fun _ => Node.Fits) fun _ => Edge.Fits)
    (size : g.nodes.size ≤ 2 ^ 63) (n : UInt64) :
    ∀ op ∈ similarityScript (flowOf record) (m.similarTo g (flowOf record)) n,
      op.Within Node.Fits Edge.Fits := by
  have hcount : (m.similarTo g (flowOf record)).length ≤ g.nodes.size := calc
    _ ≤ (g.nodesWithAttribute "type" "content").length := List.length_filter_le ..
    _ ≤ g.nodes.values.length := by
      unfold Hypergraph.nodesWithAttribute
      rw [List.length_map]
      exact List.length_filter_le ..
    _ = g.nodes.size := List.length_map ..
  have hothers (id : NodeId) (hid : id ∈ m.similarTo g (flowOf record)) : Text.Fits id := by
    obtain ⟨node, hnode, rfl⟩ := List.mem_map.1 (List.mem_of_mem_filter hid)
    obtain ⟨key, hkey⟩ := Table.mem_values_iff.1 (List.mem_of_mem_filter hnode)
    exact (every.nodes key node hkey).id
  unfold similarityScript
  split
  · exact nofun
  · exact within_numbered
      (fits_similarityEdge (takes_flowOf h) n (Nat.le_trans hcount size) hothers)

/-- What operations within given properties add has them. -/
theorem every_nextAll {ops : List Operation} (every : g.Every (fun _ => Node.Fits) fun _ => Edge.Fits)
    (adds : ∀ op ∈ ops, op.adds = true) (within : ∀ op ∈ ops, op.Within Node.Fits Edge.Fits) :
    (nextAll g ops).Every (fun _ => Node.Fits) fun _ => Edge.Fits := by
  induction ops generalizing g with
  | nil => exact every
  | cons op ops ih =>
    rw [List.forall_mem_cons] at adds within
    rw [Operation.nextAll_cons, Operation.next_of_mirroring g (Operation.mirroring_of_adds adds.1)]
    exact ih (Store.Blobs.simulation.every_after every within.1) adds.2 within.2

/-- **A script brings nothing but elements that fit**, as long as there is room for its nodes. -/
theorem within_script (h : record.Modest) (hidentity : identity.Fits)
    (every : g.Every (fun _ => Node.Fits) fun _ => Edge.Fits)
    (room : g.nodes.size + mostOperations ≤ 2 ^ 63) :
    ∀ op ∈ m.script g record identity, op.Within Node.Fits Edge.Fits := by
  cases known : g.hasNode (contentId (flowOf record)) with
  | true =>
    rw [script_known known]
    exact List.forall_mem_singleton.2 trivial
  | false =>
    have helements : ∀ op ∈ m.elementsScript g record identity, op.Within Node.Fits Edge.Fits :=
      List.forall_mem_append.2 ⟨within_contentScript h hidentity, within_spreadScript h⟩
    have hlength : (m.elementsScript g record identity).length ≤ mostOperations - 2 :=
      length_elementsScript_le h
    have hsize : (nextAll g (m.elementsScript g record identity)).nodes.size ≤ 2 ^ 63 := by
      have hadded : _ ≤ g.nodes.size + (m.elementsScript g record identity).length :=
        size_nodes_nextAll adds_elementsScript
      omega
    rw [script_new known, similarOf_new known]
    exact List.forall_mem_append.2 ⟨helements,
      within_similarityScript h (every_nextAll every adds_elementsScript helements) hsize _⟩

end Scripts

end Mapper

end ResonantGraph
