import AtlasMemory.L2Semantic.KuzuGraph
import AtlasMemory.Cognitive.Lexicon

/-!
# A restart of the graph store

After a restart the multigraph is read from the tables.  The confidence that hydration gives to an
edge has a closed form, `KuzuTables.hydratedConfidence`, and a store whose edges in memory carry
these confidences, without a mark of supersession, is `Mirrored`.  What an operation has to fulfil to
keep it so is `Keeps`; `restart_transparent` is the result for runs of calls.
-/

namespace AtlasMemory

/-! ## The names of the graph -/

namespace Lexicon

/-- `_GRAPH_NOISE_ENTITIES`. -/
def graphNoiseEntities : List String :=
  ["w", "z", "na", "do", "i", "o", "to", "nie", "się", "sie", "jest", "być", "byc",
    "dla", "oraz", "ale", "jak", "jaki", "jaka", "jakie", "gdzie", "kiedy", "czy",
    "że", "ze", "co", "po", "za", "od", "przez", "przy", "nad", "pod", "przed",
    "przecież", "przeciez", "ale_jak", "ma", "mam", "masz", "mają", "ten", "ta", "te",
    "tym", "tego", "tej", "tych", "tylko", "już", "juz", "jeszcze", "bardzo",
    "fact", "working", "working_fact", "stated_memory", "episodic_event", "canonical_spec",
    "set", "is_set", "implemented", "is_implemented", "true", "false", "none", "null",
    "user", "assistant", "conversation", "default", "unknown", "test", "ok"]

/-- The characters that are stripped from a name. -/
def isNamePadding (c : Char) : Bool := decide (c ∈ "._-:;,()[]\x7b\x7d\"' ".toList)

/-- `is_valid_graph_entity`. -/
def isValidGraphEntity (lex : Lexicon) (name : String) : Bool :=
  let s := PyString.strip name
  let low := PyString.stripWith isNamePadding (lex.lower s)
  if s = "" ∨ 80 < s.length then false
  else if PyString.hasChar '\n' s || PyString.hasChar '\r' s || PyString.hasInfix "<!--" s ||
      PyString.hasInfix "[user]" (lex.lower s) ||
      PyString.hasInfix "[conversation]" (lex.lower s) then false
  else if low = "" ∨ low ∈ graphNoiseEntities then false
  else if lex.isDigits (String.ofList (low.toList.filter fun c => decide (c ≠ '.'))) then false
  else if 7 < ((low.toList.splitOnP PyText.isPySpace).filter fun w => !w.isEmpty).length then false
  else !(decide (2 ≤ low.length) && decide (low ∈ lex.combinedStopwords))

end Lexicon

/-! ## What hydration reads -/

namespace KuzuTables

open KuzuGraphStore

variable (isValid : String → Bool)

/-- The confidence of an edge that is read from `CONTAINS` or from `SYNONYM`. -/
def linkConfidence (d : KuzuTables) (e : Edge) : Option ℚ :=
  if e.predicate = containsKey ∧ isValid e.object then d.contains.get? (e.subject, e.object)
  else if e.predicate = synonymKey ∧ validEnds isValid e.subject e.object then
    d.synonyms.get? (e.subject, e.object)
  else none

/-- The confidence of an edge that is read from `RELATION`. -/
def relationConfidence (d : KuzuTables) (e : Edge) : Option ℚ :=
  if validEnds isValid e.subject e.object then (d.relations.get? e).map RelationRow.confidence
  else none

/-- The confidence of an edge after a restart. -/
def hydratedConfidence (d : KuzuTables) (e : Edge) : Option ℚ :=
  (d.linkConfidence isValid e).or (d.relationConfidence isValid e)

/-- Every relation has a predicate. -/
def Named (d : KuzuTables) : Prop := ∀ e row, d.relations.get? e = some row → e.predicate ≠ ""

end KuzuTables

namespace KuzuGraphStore

variable {isValid : String → Bool}

lemma containsKey_ne_synonymKey : containsKey ≠ synonymKey := by decide

def linkEdge (predicate : String) (ends : String × String) : Edge := ⟨ends.1, predicate, ends.2⟩

lemma linkEdge_injective (predicate : String) : Function.Injective (linkEdge predicate) := by
  rintro ⟨a, b⟩ ⟨a', b'⟩ h
  simp only [linkEdge, Edge.mk.injEq] at h
  rw [h.1, h.2.2]

/-- The attributes of an edge after the row of a relation. -/
def mergedAttrs (row : RelationRow) : Option EdgeAttrs → EdgeAttrs
  | none => ⟨row.confidence, row.timestamp, none⟩
  | some prev =>
    ⟨max prev.confidence row.confidence, max prev.timestamp row.timestamp, prev.sessionId⟩

/-- What the row of a relation makes of the edge; a row without a predicate is not for it. -/
def relationUpdate (isValid : String → Bool) (old : Option EdgeAttrs) (row : Edge × RelationRow) :
    Option EdgeAttrs :=
  if row.1.predicate ≠ "" ∧ validEnds isValid row.1.subject row.1.object then
    some (mergedAttrs row.2 old)
  else old

/-- What the row of a link makes of the edge. -/
def linkUpdate (isRead : String × String → Bool) (old : Option EdgeAttrs)
    (row : (String × String) × ℚ) : Option EdgeAttrs :=
  if isRead row.1 then some ⟨row.2, 0, none⟩ else old

/-- A relation with a predicate touches its own edge only. -/
lemma get?_hydrateRelation (edges : PyDict Edge EdgeAttrs) (row : Edge × RelationRow)
    (hpredicate : row.1.predicate ≠ "") (e : Edge) :
    (hydrateRelation isValid edges row).get? e =
      if row.1 = e then relationUpdate isValid (edges.get? e) row else edges.get? e := by
  unfold hydrateRelation relationUpdate hydratedPredicate
  rw [if_neg hpredicate]
  by_cases hvalid : validEnds isValid row.1.subject row.1.object
  · rw [if_pos hvalid]
    by_cases he : row.1 = e
    · subst he
      rw [if_pos rfl, if_pos ⟨hpredicate, hvalid⟩]
      dsimp only
      rw [PyDict.get?_set_self]
      cases edges.get? row.1 <;> rfl
    · rw [if_neg he]
      exact PyDict.get?_set_of_ne _ _ he
  · simp [hvalid]

/-- The edges of the relations, where every relation has a predicate. -/
lemma get?_hydrateRelations {d : KuzuTables} (hnamed : d.Named) (e : Edge) :
    ((d.relations.entries.foldl (hydrateRelation isValid) ∅).get? e).map EdgeAttrs.confidence =
      d.relationConfidence isValid e := by
  have hplain : d.relations.entries.foldl (hydrateRelation isValid) ∅ =
      d.relations.entries.foldl (fun edges row =>
        if row.1.predicate = "" then edges else hydrateRelation isValid edges row) ∅ := by
    refine List.foldl_ext _ _ _ fun edges row hrow => ?_
    rw [if_neg (hnamed row.1 row.2 (PyDict.mem_entries_iff.mp hrow))]
  have hstep : ∀ (edges : PyDict Edge EdgeAttrs) (row : Edge × RelationRow) (k : Edge),
      (if row.1.predicate = "" then edges else hydrateRelation isValid edges row).get? k =
        if id row.1 = k then relationUpdate isValid (edges.get? k) row else edges.get? k := by
    intro edges row k
    by_cases h : row.1.predicate = ""
    · simp [h, relationUpdate]
    · simp only [if_neg h, id, get?_hydrateRelation edges row h]
  have hfold := PyDict.get?_foldl_keyed Function.injective_id hstep d.relations ∅ e
  rw [hplain, show e = id e from rfl, hfold]
  unfold KuzuTables.relationConfidence relationUpdate
  cases hrow : d.relations.get? e with
  | none => simp [hrow]
  | some row =>
      by_cases h : validEnds isValid e.subject e.object
      · simp [h, hrow, hnamed e row hrow, mergedAttrs]
      · simp [h]

lemma get?_hydrateContains (edges : PyDict Edge EdgeAttrs) (row : (String × String) × ℚ) (e : Edge) :
    (hydrateContains isValid edges row).get? e =
      if linkEdge containsKey row.1 = e then
        linkUpdate (fun ends => isValid ends.2) (edges.get? e) row
      else edges.get? e := by
  unfold hydrateContains linkEdge linkUpdate
  by_cases hvalid : isValid row.1.2
  · simp only [hvalid, if_true, PyDict.get?_set]
  · simp [hvalid]

lemma get?_hydrateSynonym (edges : PyDict Edge EdgeAttrs) (row : (String × String) × ℚ) (e : Edge) :
    (hydrateSynonym isValid edges row).get? e =
      if linkEdge synonymKey row.1 = e then
        linkUpdate (fun ends => validEnds isValid ends.1 ends.2) (edges.get? e) row
      else edges.get? e := by
  unfold hydrateSynonym linkEdge linkUpdate
  by_cases hvalid : validEnds isValid row.1.1 row.1.2
  · simp only [hvalid, if_true, PyDict.get?_set]
  · simp [hvalid]

lemma linkEdge_ne {predicate : String} {e : Edge} (h : e.predicate ≠ predicate) :
    ∀ ends, linkEdge predicate ends ≠ e := by
  rintro ends rfl
  exact h rfl

lemma linkEdge_ends {predicate : String} {e : Edge} (h : e.predicate = predicate) :
    linkEdge predicate (e.subject, e.object) = e := by
  subst h
  rfl

/-- **The confidence of an edge after a restart.** -/
lemma get?_hydratedEdges {d : KuzuTables} (hnamed : d.Named) (e : Edge) :
    ((hydratedEdges isValid d).get? e).map EdgeAttrs.confidence = d.hydratedConfidence isValid e := by
  unfold hydratedEdges KuzuTables.hydratedConfidence KuzuTables.linkConfidence
  set related := d.relations.entries.foldl (hydrateRelation isValid) ∅ with hrelated
  have hrelation : (related.get? e).map EdgeAttrs.confidence = d.relationConfidence isValid e :=
    get?_hydrateRelations hnamed e
  set contained := d.contains.entries.foldl (hydrateContains isValid) related with hcontained
  by_cases hs : e.predicate = synonymKey
  · have hc : e.predicate ≠ containsKey := fun h => containsKey_ne_synonymKey (h.symm.trans hs)
    have hsame : contained.get? e = related.get? e :=
      PyDict.get?_foldl_keyed_of_ne get?_hydrateContains _ _ (linkEdge_ne hc)
    have hfold := PyDict.get?_foldl_keyed (linkEdge_injective synonymKey) (@get?_hydrateSynonym isValid)
      d.synonyms contained (e.subject, e.object)
    rw [linkEdge_ends hs] at hfold
    rw [hfold, hsame, if_neg (fun h => hc h.1), ← hrelation]
    cases d.synonyms.get? (e.subject, e.object) with
    | none => simp
    | some w => by_cases hvalid : validEnds isValid e.subject e.object <;> simp [hs, hvalid, linkUpdate]
  · have hsynonyms : (d.synonyms.entries.foldl (hydrateSynonym isValid) contained).get? e =
        contained.get? e :=
      PyDict.get?_foldl_keyed_of_ne get?_hydrateSynonym _ _ (linkEdge_ne hs)
    rw [hsynonyms]
    by_cases hc : e.predicate = containsKey
    · have hfold := PyDict.get?_foldl_keyed (linkEdge_injective containsKey) (@get?_hydrateContains isValid)
        d.contains related (e.subject, e.object)
      rw [linkEdge_ends hc, ← hcontained] at hfold
      rw [hfold, if_neg (fun h : e.predicate = synonymKey ∧ _ => hs h.1), ← hrelation]
      cases d.contains.get? (e.subject, e.object) with
      | none => simp
      | some w => by_cases hvalid : isValid e.object <;> simp [hc, hvalid, linkUpdate]
    · have hsame : contained.get? e = related.get? e :=
        PyDict.get?_foldl_keyed_of_ne get?_hydrateContains _ _ (linkEdge_ne hc)
      rw [hsame, if_neg (fun h => hc h.1), if_neg (fun h => hs h.1), ← hrelation, Option.none_or]

/-! ## Nodes and marks -/

/-- No node carries a mark of supersession. -/
def Unmarked (nodes : PyDict String NodeAttrs) : Prop :=
  ∀ name attrs, nodes.get? name = some attrs → attrs.isSuperseded = false

/-- Every node of `nodes` is a node of `nodes'`, and no node of it carries a mark if none did. -/
structure Grows (nodes nodes' : PyDict String NodeAttrs) : Prop where
  contains : ∀ n, nodes.contains n = true → nodes'.contains n = true
  unmarked : Unmarked nodes → Unmarked nodes'

lemma grows_refl (nodes : PyDict String NodeAttrs) : Grows nodes nodes := ⟨fun _ h => h, id⟩

lemma Grows.trans {a b c : PyDict String NodeAttrs} (h : Grows a b) (h' : Grows b c) : Grows a c :=
  ⟨fun n hn => h'.contains n (h.contains n hn), fun ha => h'.unmarked (h.unmarked ha)⟩

lemma grows_foldl {ρ : Type} {f : PyDict String NodeAttrs → ρ → PyDict String NodeAttrs}
    (hstep : ∀ nodes row, Grows nodes (f nodes row)) (rows : List ρ)
    (nodes : PyDict String NodeAttrs) : Grows nodes (rows.foldl f nodes) := by
  induction rows generalizing nodes with
  | nil => exact grows_refl nodes
  | cons row rows ih => exact (hstep nodes row).trans (ih _)

lemma contains_set_self (nodes : PyDict String NodeAttrs) (name : String) (attrs : NodeAttrs) :
    (nodes.set name attrs).contains name = true := by
  simp [PyDict.contains]

lemma grows_set {nodes : PyDict String NodeAttrs} {name : String} {attrs : NodeAttrs}
    (h : Unmarked nodes → attrs.isSuperseded = false) : Grows nodes (nodes.set name attrs) where
  contains n hn := by
    unfold PyDict.contains at *
    rw [PyDict.get?_set]
    split <;> simp [hn]
  unmarked hnodes n attrs' hget := by
    rw [PyDict.get?_set] at hget
    split at hget
    · obtain rfl : attrs = attrs' := by simpa using hget
      exact h hnodes
    · exact hnodes n attrs' hget

lemma grows_addNode (nodes : PyDict String NodeAttrs) (name type : String) :
    Grows nodes (addNode nodes name type) := by
  refine grows_set fun h => ?_
  cases hget : nodes.get? name with
  | none => rfl
  | some attrs => exact h name attrs hget

lemma grows_addPassageNode (nodes : PyDict String NodeAttrs) (pid : String) (row : PassageRow) :
    Grows nodes (addPassageNode nodes pid row) := by
  refine grows_set fun h => ?_
  cases hget : nodes.get? pid with
  | none => rfl
  | some attrs => exact h pid attrs hget

lemma grows_ensureNode (nodes : PyDict String NodeAttrs) (name type : String) :
    Grows nodes (ensureNode nodes name type) := by
  unfold ensureNode
  split
  · exact grows_refl nodes
  · exact grows_set fun _ => rfl

lemma contains_addNode (nodes : PyDict String NodeAttrs) (name type : String) :
    (addNode nodes name type).contains name = true :=
  contains_set_self ..

lemma contains_addPassageNode (nodes : PyDict String NodeAttrs) (pid : String) (row : PassageRow) :
    (addPassageNode nodes pid row).contains pid = true :=
  contains_set_self ..

lemma contains_ensureNode (nodes : PyDict String NodeAttrs) (name type : String) :
    (ensureNode nodes name type).contains name = true := by
  unfold ensureNode
  split
  · assumption
  · exact contains_set_self ..

lemma unmarked_empty : Unmarked ∅ := fun name attrs h => absurd h (by simp)

lemma grows_hydrateEntity (nodes : PyDict String NodeAttrs) (row : String × EntityRow) :
    Grows nodes (if row.1 = "" ∨ isValid row.1 = false then nodes
      else ensureNode nodes row.1 row.2.entityType) := by
  split
  · exact grows_refl nodes
  · exact grows_ensureNode ..

lemma grows_hydratedNodes (d : KuzuTables) :
    Grows (hydrateEntities isValid ∅ d.entities.entries) (hydratedNodes isValid d) := by
  unfold hydratedNodes
  refine .trans (grows_foldl (fun nodes row => ?_) d.relations.entries _) <|
    .trans (grows_foldl (fun nodes row => ?_) d.passages.entries _) <|
    .trans (grows_foldl (fun nodes row => ?_) d.contains.entries _) <|
    grows_foldl (fun nodes row => ?_) d.synonyms.entries _
  · split
    · exact (grows_ensureNode ..).trans (grows_ensureNode ..)
    · exact grows_refl nodes
  · split
    · exact grows_refl nodes
    · exact grows_addPassageNode ..
  · split
    · split
      · exact grows_ensureNode ..
      · exact (grows_addPassageNode ..).trans (grows_ensureNode ..)
    · exact grows_refl nodes
  · split
    · exact (grows_ensureNode ..).trans (grows_ensureNode ..)
    · exact grows_refl nodes

lemma unmarked_hydratedNodes (d : KuzuTables) : Unmarked (hydratedNodes isValid d) :=
  (grows_hydratedNodes d).unmarked
    ((grows_foldl grows_hydrateEntity d.entities.entries ∅).unmarked unmarked_empty)

/-- An entity of the table whose name is valid is a node after a restart. -/
lemma contains_hydratedNodes {d : KuzuTables} {name : String} {row : EntityRow}
    (hrow : d.entities.get? name = some row) (hname : name ≠ "") (hvalid : isValid name = true) :
    (hydratedNodes isValid d).contains name = true := by
  refine (grows_hydratedNodes d).contains name ?_
  obtain ⟨before, later, hsplit⟩ := List.append_of_mem (PyDict.mem_entries_iff.mpr hrow)
  unfold hydrateEntities
  rw [hsplit, List.foldl_append, List.foldl_cons]
  refine (grows_foldl grows_hydrateEntity later _).contains name ?_
  rw [if_neg (by simp [hname, hvalid])]
  exact contains_ensureNode ..

end KuzuGraphStore

/-! ## Deletions of many rows -/

namespace KuzuTables

variable (d : KuzuTables) (names : List String)

lemma entities_detachEntities (name : String) :
    (names.foldl detachEntity d).entities.get? name =
      if name ∈ names then none else d.entities.get? name := by
  induction names generalizing d with
  | nil => simp
  | cons n names ih =>
      rw [List.foldl_cons, ih, detachEntity, PyDict.get?_erase]
      by_cases h : name ∈ names
      · simp [h]
      · by_cases hn : n = name
        · simp [hn]
        · simp [h, hn, Ne.symm hn]

lemma relations_detachEntities (e : Edge) :
    (names.foldl detachEntity d).relations.get? e =
      if e.subject ∈ names ∨ e.object ∈ names then none else d.relations.get? e := by
  induction names generalizing d with
  | nil => simp
  | cons n names ih =>
      rw [List.foldl_cons, ih, detachEntity, PyDict.get?_filter_keys]
      simp only [List.mem_cons]
      by_cases hs : e.subject = n <;> by_cases ho : e.object = n <;>
        by_cases h : e.subject ∈ names ∨ e.object ∈ names <;> simp_all

lemma contains_detachEntities (l : String × String) :
    (names.foldl detachEntity d).contains.get? l =
      if l.2 ∈ names then none else d.contains.get? l := by
  induction names generalizing d with
  | nil => simp
  | cons n names ih =>
      rw [List.foldl_cons, ih, detachEntity, PyDict.get?_filter_keys]
      simp only [List.mem_cons]
      by_cases hn : l.2 = n <;> by_cases h : l.2 ∈ names <;> simp_all

lemma synonyms_detachEntities (l : String × String) :
    (names.foldl detachEntity d).synonyms.get? l =
      if l.1 ∈ names ∨ l.2 ∈ names then none else d.synonyms.get? l := by
  induction names generalizing d with
  | nil => simp
  | cons n names ih =>
      rw [List.foldl_cons, ih, detachEntity, PyDict.get?_filter_keys]
      simp only [List.mem_cons]
      by_cases h1 : l.1 = n <;> by_cases h2 : l.2 = n <;>
        by_cases h : l.1 ∈ names ∨ l.2 ∈ names <;> simp_all

lemma contains_detachPassages (l : String × String) :
    (names.foldl detachPassage d).contains.get? l =
      if l.1 ∈ names then none else d.contains.get? l := by
  induction names generalizing d with
  | nil => simp
  | cons n names ih =>
      rw [List.foldl_cons, ih, detachPassage, PyDict.get?_filter_keys]
      simp only [List.mem_cons]
      by_cases hn : l.1 = n <;> by_cases h : l.1 ∈ names <;> simp_all

lemma detachPassages_others :
    (names.foldl detachPassage d).entities = d.entities ∧
      (names.foldl detachPassage d).relations = d.relations ∧
        (names.foldl detachPassage d).synonyms = d.synonyms := by
  induction names generalizing d with
  | nil => exact ⟨rfl, rfl, rfl⟩
  | cons n names ih => exact ih _

end KuzuTables

namespace KuzuGraphStore

variable {isValid : String → Bool}

/-- **After a restart no name is superseded.** -/
lemma isEntitySuperseded_hydrateFromDisk (d : KuzuTables) (name : String) :
    (hydrateFromDisk isValid d).isEntitySuperseded name = false := by
  unfold isEntitySuperseded hydrateFromDisk
  dsimp only
  split_ifs with hname
  · rfl
  cases hnode : (hydratedNodes isValid d).get? (PyString.strip name) with
  | some attrs => exact unmarked_hydratedNodes d _ _ hnode
  | none =>
      dsimp only
      rw [KuzuTables.entities_detachEntities]
      split_ifs with hpurged
      · rfl
      cases hrow : d.entities.get? (PyString.strip name) with
      | none => rfl
      | some row =>
          exfalso
          by_cases hvalid : isValid (PyString.strip name) = true
          · have hcontains := contains_hydratedNodes hrow hname hvalid
            rw [PyDict.contains, hnode] at hcontains
            exact Bool.noConfusion hcontains
          · refine hpurged ?_
            have hkey : PyString.strip name ∈ d.entities.keys := by
              rw [PyDict.mem_keys_iff, hrow]
              rfl
            simp [invalidEntities, hkey, hname, hvalid]

/-! ## The invariant -/

def edgeConfidence (g : KuzuGraphStore) (e : Edge) : Option ℚ :=
  (g.edges.get? e).map EdgeAttrs.confidence

/-- The ends of every edge are nodes. -/
def Closed (g : KuzuGraphStore) : Prop :=
  ∀ e attrs, g.edges.get? e = some attrs →
    g.nodes.contains e.subject = true ∧ g.nodes.contains e.object = true

/-- No entity of the table carries a mark of supersession. -/
def UnmarkedRows (d : KuzuTables) : Prop :=
  ∀ name row, d.entities.get? name = some row → row.isSuperseded = false

/-- The multigraph is what hydration would read, and nothing is marked. -/
structure Mirrored (isValid : String → Bool) (g : KuzuGraphStore) : Prop where
  closed : g.Closed
  named : g.disk.Named
  confidence_eq : ∀ e, g.edgeConfidence e = g.disk.hydratedConfidence isValid e
  unmarked : Unmarked g.nodes
  unmarkedRows : UnmarkedRows g.disk

/-- **Restart transparency**: the edges with their confidences, and the answers about supersession,
are those of the store after a restart. -/
def Transparent (isValid : String → Bool) (g : KuzuGraphStore) : Prop :=
  (∀ e, g.edgeConfidence e = (hydrateFromDisk isValid g.disk).edgeConfidence e) ∧
    ∀ name, g.isEntitySuperseded name = (hydrateFromDisk isValid g.disk).isEntitySuperseded name

lemma isEntitySuperseded_of_unmarked {g : KuzuGraphStore} (h : Unmarked g.nodes)
    (hrows : UnmarkedRows g.disk) (name : String) : g.isEntitySuperseded name = false := by
  unfold isEntitySuperseded
  dsimp only
  split_ifs
  · rfl
  · cases hnode : g.nodes.get? (PyString.strip name) with
    | some attrs => exact h _ _ hnode
    | none =>
        cases hrow : g.disk.entities.get? (PyString.strip name) with
        | none => rfl
        | some row => exact hrows _ _ hrow

lemma Mirrored.transparent {g : KuzuGraphStore} (h : Mirrored isValid g) :
    Transparent isValid g := by
  constructor
  · intro e
    rw [h.confidence_eq e]
    exact (get?_hydratedEdges h.named e).symm
  · intro name
    rw [isEntitySuperseded_hydrateFromDisk]
    exact isEntitySuperseded_of_unmarked h.unmarked h.unmarkedRows name

lemma mirrored_empty : Mirrored isValid empty where
  closed e attrs h := absurd h (by simp [empty])
  named e row h := absurd h (by simp [empty, KuzuTables.empty])
  confidence_eq e := by
    simp [edgeConfidence, empty, KuzuTables.empty, KuzuTables.hydratedConfidence,
      KuzuTables.linkConfidence, KuzuTables.relationConfidence]
  unmarked := unmarked_empty
  unmarkedRows name row h := absurd h (by simp [empty, KuzuTables.empty])

/-! ## What keeps the invariant -/

/-- The passages and the entities that a deletion takes from the disk leave no row that hydration
reads at a node that it takes from memory. -/
def DetachesAll (isValid : String → Bool) (d : KuzuTables) (passages entities : List String) :
    Prop :=
  (∀ l ∈ d.contains.keys, isValid l.2 → l.1 ∈ entities ∨ l.2 ∈ passages →
      l.1 ∈ passages ∨ l.2 ∈ entities) ∧
    (∀ l ∈ d.synonyms.keys, validEnds isValid l.1 l.2 → l.1 ∈ passages ∨ l.2 ∈ passages →
      l.1 ∈ entities ∨ l.2 ∈ entities) ∧
    ∀ e ∈ d.relations.keys, validEnds isValid e.subject e.object →
      e.subject ∈ passages ∨ e.object ∈ passages → e.subject ∈ entities ∨ e.object ∈ entities

/-- The condition under which an operation keeps the restart transparent: its names are valid, a
number that it overwrites in memory is not lower than the one on disk, and what it deletes in memory
it deletes on disk. -/
def Keeps (isValid : String → Bool) (g : KuzuGraphStore) : GraphOp → Prop
  | .addEntity _ _ | .addPassage _ _ _ => True
  | .addRelation e confidence _ _ =>
    e.predicate ≠ "" ∧ (∀ w ∈ g.disk.linkConfidence isValid e, confidence ≤ w) ∧
      (g.disk.linkConfidence isValid e = none → validEnds isValid e.subject e.object)
  | .addContains passageId entityName weight _ persistToKuzu =>
    let pid := PyString.strip passageId
    let ename := PyString.strip entityName
    pid = "" ∨ ename = "" ∨
      if persistToKuzu ∧ g.disk.passages.contains pid then
        isValid ename ∧ ∀ old ∈ g.disk.contains.get? (pid, ename), old ≤ weight
      else g.edgeConfidence ⟨pid, containsKey, ename⟩ = some weight
  | .addSynonym entityA entityB sim _ =>
    let ea := PyString.strip entityA
    let eb := PyString.strip entityB
    ea = "" ∨ eb = "" ∨ ea = eb ∨
      (validEnds isValid ea eb ∧ (∀ old ∈ g.disk.synonyms.get? (ea, eb), old ≤ sim) ∧
        ∀ old ∈ g.disk.synonyms.get? (eb, ea), old ≤ sim)
  | .removeEdge e => g.disk.linkConfidence isValid e = none
  | .markEntitySuperseded name =>
    let ent := PyString.strip name
    ent = "" ∨ (g.nodes.contains ent = false ∧ g.disk.entities.contains ent = false)
  | .rollbackDualNodeRecord passageId createdEntities =>
    DetachesAll isValid g.disk (passageCandidates passageId) createdEntities
  | .garbageCollectOrphans => DetachesAll isValid g.disk [] g.disk.orphans

instance (d : KuzuTables) (passages entities : List String) :
    Decidable (DetachesAll isValid d passages entities) := by
  unfold DetachesAll
  infer_instance

instance (g : KuzuGraphStore) (op : GraphOp) : Decidable (Keeps isValid g op) :=
  match op with
  | .addEntity _ _ | .addPassage _ _ _ => .isTrue trivial
  | .addRelation _ _ _ _ => inferInstanceAs (Decidable (_ ∧ _ ∧ (_ → _)))
  | .addContains _ _ _ _ _ => inferInstanceAs (Decidable (_ ∨ _ ∨ ite _ _ _))
  | .addSynonym _ _ _ _ => inferInstanceAs (Decidable (_ ∨ _ ∨ _ ∨ _))
  | .removeEdge _ => inferInstanceAs (Decidable (_ = none))
  | .markEntitySuperseded _ => inferInstanceAs (Decidable (_ ∨ _))
  | .rollbackDualNodeRecord _ _ => inferInstanceAs (Decidable (DetachesAll ..))
  | .garbageCollectOrphans => inferInstanceAs (Decidable (DetachesAll ..))

section Steps

variable {g : KuzuGraphStore}

@[simp] lemma relations_mergeEntity (d : KuzuTables) (name type : String) :
    (d.mergeEntity name type).relations = d.relations := by
  unfold KuzuTables.mergeEntity
  split <;> rfl

@[simp] lemma contains_mergeEntity (d : KuzuTables) (name type : String) :
    (d.mergeEntity name type).contains = d.contains := by
  unfold KuzuTables.mergeEntity
  split <;> rfl

@[simp] lemma synonyms_mergeEntity (d : KuzuTables) (name type : String) :
    (d.mergeEntity name type).synonyms = d.synonyms := by
  unfold KuzuTables.mergeEntity
  split <;> rfl

@[simp] lemma passages_mergeEntity (d : KuzuTables) (name type : String) :
    (d.mergeEntity name type).passages = d.passages := by
  unfold KuzuTables.mergeEntity
  split <;> rfl

lemma unmarkedRows_mergeEntity {d : KuzuTables} (h : UnmarkedRows d) (name type : String) :
    UnmarkedRows (d.mergeEntity name type) := by
  unfold KuzuTables.mergeEntity
  split
  · exact h
  · intro n row hrow
    dsimp only at hrow
    rw [PyDict.get?_set] at hrow
    split at hrow
    · obtain rfl : _ = row := by simpa using hrow
      rfl
    · exact h n row hrow

/-- The confidences depend on the rows of the edges only. -/
lemma hydratedConfidence_congr {d d' : KuzuTables} (hrelations : d'.relations = d.relations)
    (hcontains : d'.contains = d.contains) (hsynonyms : d'.synonyms = d.synonyms) (e : Edge) :
    d'.hydratedConfidence isValid e = d.hydratedConfidence isValid e := by
  simp only [KuzuTables.hydratedConfidence, KuzuTables.linkConfidence,
    KuzuTables.relationConfidence, hrelations, hcontains, hsynonyms]

lemma Closed.grow {nodes : PyDict String NodeAttrs} (h : g.Closed) (hgrows : Grows g.nodes nodes)
    {e : Edge} {attrs : EdgeAttrs} (he : g.edges.get? e = some attrs) :
    nodes.contains e.subject = true ∧ nodes.contains e.object = true :=
  ⟨hgrows.contains _ (h e attrs he).1, hgrows.contains _ (h e attrs he).2⟩

lemma mirrored_addEntity (h : Mirrored isValid g) (name type : String) :
    Mirrored isValid (g.addEntity name type) where
  closed e attrs he := h.closed.grow (grows_addNode g.nodes name type) he
  named := by
    simpa [KuzuTables.Named, addEntity] using h.named
  confidence_eq e := by
    rw [hydratedConfidence_congr (d := g.disk) (by simp [addEntity]) (by simp [addEntity])
      (by simp [addEntity])]
    exact h.confidence_eq e
  unmarked := (grows_addNode g.nodes name type).unmarked h.unmarked
  unmarkedRows := unmarkedRows_mergeEntity h.unmarkedRows name type

lemma mirrored_addPassage (h : Mirrored isValid g) (passageId sourceKey text : String) :
    Mirrored isValid (g.addPassage passageId sourceKey text) := by
  unfold addPassage
  dsimp only
  split_ifs
  · exact h
  · exact
      { closed := fun e attrs he => h.closed.grow (grows_addPassageNode g.nodes _ _) he
        named := h.named
        confidence_eq := h.confidence_eq
        unmarked := (grows_addPassageNode g.nodes _ _).unmarked h.unmarked
        unmarkedRows := h.unmarkedRows }

/-- The two ways to keep the higher number agree. -/
lemma raised_eq_higher (new old : ℚ) : KuzuTables.raised new old = higher new (some old) := by
  unfold KuzuTables.raised higher
  dsimp only
  split_ifs with h h' h'
  · exact absurd h (not_lt.mpr h'.le)
  · rfl
  · rfl
  · exact le_antisymm (not_lt.mp h') (not_lt.mp h)

lemma higher_of_le {new p : ℚ} (h : new ≤ p) : higher new (some p) = p := by
  unfold higher
  dsimp only
  split_ifs with hlt
  · rfl
  · exact le_antisymm h (not_lt.mp hlt)

lemma edgeConfidence_set (edges : PyDict Edge EdgeAttrs) (e e' : Edge) (attrs : EdgeAttrs) :
    ((edges.set e attrs).get? e').map EdgeAttrs.confidence =
      if e = e' then some attrs.confidence else (edges.get? e').map EdgeAttrs.confidence := by
  rw [PyDict.get?_set]
  split <;> rfl

lemma relationConfidence_mergeRelation (d : KuzuTables) (e e' : Edge) (confidence timestamp : ℚ) :
    (d.mergeRelation e confidence timestamp).relationConfidence isValid e' =
      if e = e' then
        if validEnds isValid e.subject e.object then
          some (higher confidence ((d.relations.get? e).map RelationRow.confidence))
        else none
      else d.relationConfidence isValid e' := by
  unfold KuzuTables.relationConfidence KuzuTables.mergeRelation
  dsimp only
  rw [PyDict.get?_set]
  by_cases he : e = e'
  · subst he
    rw [if_pos rfl, if_pos rfl]
    split_ifs
    · cases d.relations.get? e with
      | none => rfl
      | some row => exact congrArg some (raised_eq_higher confidence row.confidence)
    · rfl
  · rw [if_neg he, if_neg he]

lemma linkConfidence_mergeRelation (d : KuzuTables) (e e' : Edge) (confidence timestamp : ℚ) :
    (d.mergeRelation e confidence timestamp).linkConfidence isValid e' =
      d.linkConfidence isValid e' := rfl

lemma linkConfidence_congr {d d' : KuzuTables} (hcontains : d'.contains = d.contains)
    (hsynonyms : d'.synonyms = d.synonyms) (e : Edge) :
    d'.linkConfidence isValid e = d.linkConfidence isValid e := by
  simp only [KuzuTables.linkConfidence, hcontains, hsynonyms]

lemma relationConfidence_congr {d d' : KuzuTables} (hrelations : d'.relations = d.relations)
    (e : Edge) : d'.relationConfidence isValid e = d.relationConfidence isValid e := by
  simp only [KuzuTables.relationConfidence, hrelations]

lemma mirrored_addRelation (h : Mirrored isValid g) {e : Edge} {confidence : ℚ} (timestamp : ℚ)
    (sessionId : Option Json)
    (hkeeps : Keeps isValid g (.addRelation e confidence timestamp sessionId)) :
    Mirrored isValid (g.addRelation e confidence timestamp sessionId) := by
  obtain ⟨hpredicate, hlink, hvalid⟩ := hkeeps
  have hgrows : Grows g.nodes (addNode (addNode g.nodes e.subject "entity") e.object
      "entity_or_value") := (grows_addNode ..).trans (grows_addNode ..)
  refine ⟨fun e' attrs he => ?_, fun e' row hrow => ?_, fun e' => ?_, hgrows.unmarked h.unmarked,
    unmarkedRows_mergeEntity (unmarkedRows_mergeEntity h.unmarkedRows _ _) _ _⟩
  · dsimp only [addRelation] at he
    rw [PyDict.get?_set] at he
    split at he
    · rename_i heq
      subst heq
      exact ⟨(grows_addNode ..).contains _ (contains_addNode ..), contains_addNode ..⟩
    · exact h.closed.grow hgrows he
  · dsimp only [addRelation, KuzuTables.mergeRelation] at hrow
    rw [PyDict.get?_set, relations_mergeEntity, relations_mergeEntity] at hrow
    split at hrow
    · rename_i heq
      exact heq ▸ hpredicate
    · exact h.named e' row hrow
  · have hmem := h.confidence_eq e'
    unfold edgeConfidence addRelation KuzuTables.hydratedConfidence
    dsimp only
    rw [edgeConfidence_set, linkConfidence_mergeRelation, relationConfidence_mergeRelation,
      linkConfidence_congr (d := g.disk) (by simp) (by simp), relations_mergeEntity,
      relations_mergeEntity, relationConfidence_congr (d := g.disk) (by simp)]
    by_cases he : e = e'
    · subst he
      rw [if_pos rfl, if_pos rfl]
      dsimp only
      unfold edgeConfidence KuzuTables.hydratedConfidence at hmem
      rw [hmem]
      cases hw : g.disk.linkConfidence isValid e with
      | some w => exact congrArg some (higher_of_le (hlink w hw))
      | none =>
          have hends := hvalid hw
          unfold KuzuTables.relationConfidence
          rw [if_pos hends, if_pos hends, Option.none_or, Option.none_or]
    · rw [if_neg he, if_neg he]
      exact hmem

lemma mirrored_removeEdge (h : Mirrored isValid g) {e : Edge}
    (hkeeps : g.disk.linkConfidence isValid e = none) : Mirrored isValid (g.removeEdge e) := by
  refine ⟨fun e' attrs he => ?_, fun e' row hrow => ?_, fun e' => ?_, h.unmarked, h.unmarkedRows⟩
  · dsimp only [removeEdge] at he
    rw [PyDict.get?_erase] at he
    split at he
    · exact absurd he (by simp)
    · exact h.closed e' attrs he
  · dsimp only [removeEdge] at hrow
    rw [PyDict.get?_erase] at hrow
    split at hrow
    · exact absurd hrow (by simp)
    · exact h.named e' row hrow
  · have hmem := h.confidence_eq e'
    have hlink : (g.removeEdge e).disk.linkConfidence isValid e' =
        g.disk.linkConfidence isValid e' := rfl
    unfold edgeConfidence KuzuTables.hydratedConfidence KuzuTables.relationConfidence at *
    rw [hlink]
    unfold removeEdge
    dsimp only
    rw [PyDict.get?_erase, PyDict.get?_erase]
    by_cases he : e = e'
    · subst he
      simp [hkeeps]
    · rw [if_neg he, if_neg he]
      exact hmem

lemma mirrored_markEntitySuperseded (h : Mirrored isValid g) {name : String}
    (hkeeps : Keeps isValid g (.markEntitySuperseded name)) :
    Mirrored isValid (g.markEntitySuperseded name) := by
  have hsame : g.markEntitySuperseded name = g := by
    unfold markEntitySuperseded
    dsimp only
    split_ifs with hname
    · rfl
    · obtain hempty | ⟨hnode, hrow⟩ := hkeeps
      · exact absurd hempty hname
      · unfold PyDict.contains at hnode hrow
        rw [Option.isSome_eq_false_iff, Option.isNone_iff_eq_none] at hnode hrow
        rw [hnode, hrow]
  rw [hsame]
  exact h

lemma get?_mergeLink (links : PyDict (String × String) ℚ) (ends ends' : String × String) {w : ℚ}
    (hle : ∀ old ∈ links.get? ends, old ≤ w) :
    (KuzuTables.mergeLink links ends w).get? ends' =
      if ends = ends' then some w else links.get? ends' := by
  unfold KuzuTables.mergeLink
  rw [PyDict.get?_set]
  by_cases h : ends = ends'
  · rw [if_pos h, if_pos h]
    cases hold : links.get? ends with
    | none => rfl
    | some old =>
        have hold_le : old ≤ w := hle old hold
        show some (KuzuTables.raised w old) = some w
        unfold KuzuTables.raised
        split_ifs with hlt
        · rfl
        · exact congrArg some (le_antisymm hold_le (not_lt.mp hlt))
  · rw [if_neg h, if_neg h]

lemma edge_eq_iff {e : Edge} {predicate : String} (hpredicate : e.predicate = predicate)
    (ends : String × String) : linkEdge predicate ends = e ↔ ends = (e.subject, e.object) := by
  constructor
  · rintro rfl
    rfl
  · rintro rfl
    exact linkEdge_ends hpredicate

/-- One more row of `CONTAINS`, whose entity is valid. -/
lemma hydratedConfidence_contains {d : KuzuTables} {ends : String × String} {w : ℚ}
    (hvalid : isValid ends.2 = true) (hle : ∀ old ∈ d.contains.get? ends, old ≤ w) (e : Edge) :
    KuzuTables.hydratedConfidence isValid
        { d with contains := KuzuTables.mergeLink d.contains ends w } e =
      if linkEdge containsKey ends = e then some w else d.hydratedConfidence isValid e := by
  have hrelation : KuzuTables.relationConfidence isValid
      { d with contains := KuzuTables.mergeLink d.contains ends w } e =
      d.relationConfidence isValid e := rfl
  unfold KuzuTables.hydratedConfidence
  rw [hrelation]
  unfold KuzuTables.linkConfidence
  dsimp only
  rw [get?_mergeLink _ _ _ hle]
  by_cases hc : e.predicate = containsKey
  · simp only [edge_eq_iff hc]
    by_cases hends : ends = (e.subject, e.object)
    · subst hends
      simp [hc, hvalid]
    · rw [if_neg hends, if_neg hends]
  · simp [linkEdge_ne hc ends, hc]

/-- One more row of `SYNONYM`, whose entities are valid. -/
lemma hydratedConfidence_synonym {d : KuzuTables} {ends : String × String} {w : ℚ}
    (hvalid : validEnds isValid ends.1 ends.2 = true)
    (hle : ∀ old ∈ d.synonyms.get? ends, old ≤ w) (e : Edge) :
    KuzuTables.hydratedConfidence isValid
        { d with synonyms := KuzuTables.mergeLink d.synonyms ends w } e =
      if linkEdge synonymKey ends = e then some w else d.hydratedConfidence isValid e := by
  have hrelation : KuzuTables.relationConfidence isValid
      { d with synonyms := KuzuTables.mergeLink d.synonyms ends w } e =
      d.relationConfidence isValid e := rfl
  unfold KuzuTables.hydratedConfidence
  rw [hrelation]
  unfold KuzuTables.linkConfidence
  dsimp only
  rw [get?_mergeLink _ _ _ hle]
  by_cases hs : e.predicate = synonymKey
  · have hc : e.predicate ≠ containsKey := fun h => containsKey_ne_synonymKey (h.symm.trans hs)
    simp only [edge_eq_iff hs]
    by_cases hends : ends = (e.subject, e.object)
    · subst hends
      have hends : validEnds isValid e.subject e.object = true := hvalid
      simp [hs, containsKey_ne_synonymKey.symm, hends]
    · rw [if_neg hends, if_neg hends]
  · simp [linkEdge_ne hs ends, hs]

lemma closed_set {edges : PyDict Edge EdgeAttrs} {nodes : PyDict String NodeAttrs} {e : Edge}
    {attrs : EdgeAttrs}
    (hends : nodes.contains e.subject = true ∧ nodes.contains e.object = true)
    (h : ∀ e attrs, edges.get? e = some attrs →
      nodes.contains e.subject = true ∧ nodes.contains e.object = true) :
    ∀ e' attrs', (edges.set e attrs).get? e' = some attrs' →
      nodes.contains e'.subject = true ∧ nodes.contains e'.object = true := by
  intro e' attrs' he
  rw [PyDict.get?_set] at he
  split at he
  · rename_i heq
    exact heq ▸ hends
  · exact h e' attrs' he

lemma mirrored_addContains (h : Mirrored isValid g) {passageId entityName : String}
    {weight now : ℚ} {persistToKuzu : Bool}
    (hkeeps : Keeps isValid g (.addContains passageId entityName weight now persistToKuzu)) :
    Mirrored isValid (g.addContains passageId entityName weight now persistToKuzu) := by
  unfold Keeps at hkeeps
  unfold addContains
  dsimp only at hkeeps ⊢
  set pid := PyString.strip passageId
  set ename := PyString.strip entityName
  by_cases hempty : pid = "" ∨ ename = ""
  · rw [if_pos hempty]
    exact h
  have hcondition := (or_assoc.mpr hkeeps).resolve_left hempty
  rw [if_neg hempty]
  set passages := (if g.nodes.contains pid then g.nodes else addPassageNode g.nodes pid ⟨pid, ""⟩)
    with hpassages
  have hpassage : Grows g.nodes passages ∧ passages.contains pid = true := by
    rw [hpassages]
    split
    · exact ⟨grows_refl _, by assumption⟩
    · exact ⟨grows_addPassageNode .., contains_addPassageNode ..⟩
  have hgrows : Grows g.nodes (ensureNode passages ename "entity") :=
    hpassage.1.trans (grows_ensureNode ..)
  have hclosed : ∀ e attrs, (g.edges.set ⟨pid, containsKey, ename⟩ ⟨weight, now, none⟩).get? e =
      some attrs → (ensureNode passages ename "entity").contains e.subject = true ∧
        (ensureNode passages ename "entity").contains e.object = true :=
    closed_set ⟨(grows_ensureNode ..).contains _ hpassage.2, contains_ensureNode ..⟩
      fun e attrs he => h.closed.grow hgrows he
  by_cases hpersist : persistToKuzu = true ∧ g.disk.passages.contains pid = true
  · rw [if_pos hpersist] at hcondition
    have hmerged : (g.disk.mergeEntity ename "entity").passages.contains pid = true := by
      rw [passages_mergeEntity]
      exact hpersist.2
    rw [if_pos hpersist.1, if_pos hmerged]
    refine ⟨hclosed, ?_, fun e => ?_, hgrows.unmarked h.unmarked, ?_⟩
    · simpa [KuzuTables.Named] using h.named
    · refine (edgeConfidence_set _ _ e _).trans ?_
      refine .trans ?_ (hydratedConfidence_contains hcondition.1
        (by simpa using hcondition.2) e).symm
      rw [hydratedConfidence_congr (d := g.disk) (by simp) (by simp) (by simp)]
      exact if_congr Iff.rfl rfl (h.confidence_eq e)
    · exact unmarkedRows_mergeEntity h.unmarkedRows ename "entity"
  · rw [if_neg hpersist] at hcondition
    have hconfidence : ∀ e, ((g.edges.set ⟨pid, containsKey, ename⟩ ⟨weight, now, none⟩).get? e).map
        EdgeAttrs.confidence = g.disk.hydratedConfidence isValid e := by
      intro e
      rw [edgeConfidence_set]
      split
      · rename_i heq
        rw [← heq, ← h.confidence_eq]
        exact hcondition.symm
      · exact h.confidence_eq e
    by_cases hflag : persistToKuzu = true
    · rw [if_pos hflag, passages_mergeEntity, if_neg (fun hp => hpersist ⟨hflag, hp⟩)]
      refine ⟨hclosed, ?_, fun e => ?_, hgrows.unmarked h.unmarked, ?_⟩
      · simpa [KuzuTables.Named] using h.named
      · rw [hydratedConfidence_congr (d := g.disk) (by simp) (by simp) (by simp)]
        exact hconfidence e
      · exact unmarkedRows_mergeEntity h.unmarkedRows ename "entity"
    · rw [if_neg hflag]
      exact ⟨hclosed, h.named, hconfidence, hgrows.unmarked h.unmarked, h.unmarkedRows⟩

lemma mirrored_addSynonym (h : Mirrored isValid g) {entityA entityB : String} {sim now : ℚ}
    (hkeeps : Keeps isValid g (.addSynonym entityA entityB sim now)) :
    Mirrored isValid (g.addSynonym entityA entityB sim now) := by
  unfold Keeps at hkeeps
  unfold addSynonym
  dsimp only at hkeeps ⊢
  set ea := PyString.strip entityA
  set eb := PyString.strip entityB
  by_cases hempty : ea = "" ∨ eb = "" ∨ ea = eb
  · rw [if_pos hempty]
    exact h
  obtain ⟨hvalid, hforth, hback⟩ : validEnds isValid ea eb = true ∧
      (∀ old ∈ g.disk.synonyms.get? (ea, eb), old ≤ sim) ∧
        ∀ old ∈ g.disk.synonyms.get? (eb, ea), old ≤ sim := by
    push Not at hempty
    exact ((hkeeps.resolve_left hempty.1).resolve_left hempty.2.1).resolve_left hempty.2.2
  have hne : ea ≠ eb := fun heq => hempty (.inr (.inr heq))
  have hvalid' : validEnds isValid eb ea = true := by
    unfold validEnds at *
    rw [Bool.and_comm]
    exact hvalid
  rw [if_neg hempty]
  have hgrows : Grows g.nodes (addNode (addNode g.nodes ea "entity") eb "entity") :=
    (grows_addNode ..).trans (grows_addNode ..)
  have ha : (addNode (addNode g.nodes ea "entity") eb "entity").contains ea = true :=
    (grows_addNode ..).contains _ (contains_addNode ..)
  have hb : (addNode (addNode g.nodes ea "entity") eb "entity").contains eb = true :=
    contains_addNode ..
  set merged := (g.disk.mergeEntity ea "entity").mergeEntity eb "entity" with hmerged
  have hsynonyms : merged.synonyms = g.disk.synonyms := by simp [hmerged]
  have hback' : ∀ old ∈ (KuzuTables.mergeLink merged.synonyms (ea, eb) sim).get? (eb, ea),
      old ≤ sim := by
    intro old hold
    rw [hsynonyms, get?_mergeLink _ _ _ hforth, if_neg (by simp [hne])] at hold
    exact hback old hold
  refine ⟨closed_set ⟨hb, ha⟩ (closed_set ⟨ha, hb⟩ fun e attrs he => h.closed.grow hgrows he),
    ?_, fun e => ?_, hgrows.unmarked h.unmarked, ?_⟩
  · simpa [KuzuTables.Named, hmerged] using h.named
  · refine (edgeConfidence_set _ _ e _).trans ?_
    rw [edgeConfidence_set]
    refine .trans ?_ (@hydratedConfidence_synonym _
      { merged with synonyms := KuzuTables.mergeLink merged.synonyms (ea, eb) sim } (eb, ea) sim
      hvalid' hback' e).symm
    refine if_congr Iff.rfl rfl ?_
    rw [@hydratedConfidence_synonym _ merged (ea, eb) sim hvalid (by rwa [hsynonyms]) e,
      hydratedConfidence_congr (d := g.disk) (by simp [hmerged]) (by simp [hmerged])
        (by simp [hmerged])]
    exact if_congr Iff.rfl rfl (h.confidence_eq e)
  · exact unmarkedRows_mergeEntity (unmarkedRows_mergeEntity h.unmarkedRows _ _) _ _

/-! ### Deletions -/

lemma closed_removeNode (h : g.Closed) (name : String) : (g.removeNode name).Closed := by
  unfold removeNode
  split
  · intro e attrs he
    dsimp only at he ⊢
    rw [PyDict.get?_filter_keys] at he
    split at he
    · rename_i hends
      obtain ⟨hsubject, hobject⟩ := of_decide_eq_true hends
      unfold PyDict.contains
      rw [PyDict.get?_erase, PyDict.get?_erase, if_neg (Ne.symm hsubject),
        if_neg (Ne.symm hobject)]
      exact h e attrs he
    · exact absurd he (by simp)
  · exact h

lemma edges_removeNode (h : g.Closed) (name : String) (e : Edge) :
    (g.removeNode name).edges.get? e =
      if e.subject = name ∨ e.object = name then none else g.edges.get? e := by
  unfold removeNode
  split_ifs with hnode hends hends
  · dsimp only
    rw [PyDict.get?_filter_keys, if_neg (by simp; tauto)]
  · dsimp only
    rw [PyDict.get?_filter_keys, if_pos (by simp; tauto)]
  · cases he : g.edges.get? e with
    | none => rfl
    | some attrs =>
        obtain ⟨hsubject, hobject⟩ := h e attrs he
        obtain rfl | rfl := hends
        · exact absurd hsubject hnode
        · exact absurd hobject hnode
  · rfl

lemma disk_removeNodes (names : List String) : (names.foldl removeNode g).disk = g.disk := by
  induction names generalizing g with
  | nil => rfl
  | cons n names ih =>
      rw [List.foldl_cons, ih]
      unfold removeNode
      split <;> rfl

lemma unmarked_removeNodes (h : Unmarked g.nodes) (names : List String) :
    Unmarked (names.foldl removeNode g).nodes := by
  induction names generalizing g with
  | nil => exact h
  | cons n names ih =>
      refine ih ?_
      unfold removeNode
      split
      · intro name attrs hget
        dsimp only at hget
        rw [PyDict.get?_erase] at hget
        split at hget
        · exact absurd hget (by simp)
        · exact h name attrs hget
      · exact h

lemma removeNodes (h : g.Closed) (names : List String) :
    (names.foldl removeNode g).Closed ∧ ∀ e, (names.foldl removeNode g).edges.get? e =
      if e.subject ∈ names ∨ e.object ∈ names then none else g.edges.get? e := by
  induction names generalizing g with
  | nil => exact ⟨h, fun e => by simp⟩
  | cons n names ih =>
      obtain ⟨hclosed, hedges⟩ := ih (closed_removeNode h n)
      refine ⟨hclosed, fun e => ?_⟩
      rw [List.foldl_cons, hedges, edges_removeNode h]
      simp only [List.mem_cons]
      by_cases hn : e.subject = n ∨ e.object = n
      · rw [if_pos hn, ite_self, if_pos (by tauto)]
      · rw [if_neg hn]
        exact if_congr (by tauto) rfl rfl

/-- The store without the nodes of passages and entities. -/
def purge (g : KuzuGraphStore) (passages entities : List String) : KuzuGraphStore :=
  let g' := (passages ++ entities).foldl removeNode g
  { g' with
    disk := entities.foldl KuzuTables.detachEntity
      (passages.foldl KuzuTables.detachPassage g'.disk) }

lemma rollbackDualNodeRecord_eq_purge (passageId : String) (createdEntities : List String) :
    g.rollbackDualNodeRecord passageId createdEntities =
      g.purge (passageCandidates passageId) createdEntities := rfl

lemma garbageCollectOrphans_eq_purge : g.garbageCollectOrphans = g.purge [] g.disk.orphans := rfl

lemma rows_purge (g : KuzuGraphStore) (passages entities : List String) :
    (∀ l, (g.purge passages entities).disk.contains.get? l =
        if l.1 ∈ passages ∨ l.2 ∈ entities then none else g.disk.contains.get? l) ∧
      (∀ l, (g.purge passages entities).disk.synonyms.get? l =
        if l.1 ∈ entities ∨ l.2 ∈ entities then none else g.disk.synonyms.get? l) ∧
      ∀ e, (g.purge passages entities).disk.relations.get? e =
        if e.subject ∈ entities ∨ e.object ∈ entities then none
        else g.disk.relations.get? e := by
  obtain ⟨-, hrelations, hsynonyms⟩ := KuzuTables.detachPassages_others g.disk passages
  unfold purge
  dsimp only
  rw [disk_removeNodes]
  refine ⟨fun l => ?_, fun l => ?_, fun e => ?_⟩
  · rw [KuzuTables.contains_detachEntities, KuzuTables.contains_detachPassages]
    by_cases h1 : l.1 ∈ passages <;> by_cases h2 : l.2 ∈ entities <;> simp [h1, h2]
  · rw [KuzuTables.synonyms_detachEntities, hsynonyms]
  · rw [KuzuTables.relations_detachEntities, hrelations]

/-- A confidence is read from a row, which tells where it is. -/
lemma hydratedConfidence_eq_none {d : KuzuTables} {e : Edge}
    (hcontains : isValid e.object = true → d.contains.get? (e.subject, e.object) = none)
    (hsynonyms : validEnds isValid e.subject e.object = true →
      d.synonyms.get? (e.subject, e.object) = none)
    (hrelations : validEnds isValid e.subject e.object = true → d.relations.get? e = none) :
    d.hydratedConfidence isValid e = none := by
  unfold KuzuTables.hydratedConfidence KuzuTables.linkConfidence KuzuTables.relationConfidence
  rw [Option.or_eq_none_iff]
  constructor
  · split_ifs with hc hs
    · exact hcontains hc.2
    · exact hsynonyms hs.2
    · rfl
  · split_ifs with hvalid
    · rw [hrelations hvalid]
      rfl
    · rfl

lemma mirrored_purge (h : Mirrored isValid g) {passages entities : List String}
    (hdetaches : DetachesAll isValid g.disk passages entities) :
    Mirrored isValid (g.purge passages entities) := by
  obtain ⟨hcontains, hsynonyms, hrelations⟩ := rows_purge g passages entities
  obtain ⟨hclosed, hedges⟩ := removeNodes h.closed (passages ++ entities)
  obtain ⟨hdetachContains, hdetachSynonyms, hdetachRelations⟩ := hdetaches
  refine ⟨hclosed, fun e row hrow => ?_, fun e => ?_, unmarked_removeNodes h.unmarked _, ?_⟩
  · rw [hrelations] at hrow
    split at hrow
    · exact absurd hrow (by simp)
    · exact h.named e row hrow
  · have hedge : (g.purge passages entities).edgeConfidence e =
        if e.subject ∈ passages ++ entities ∨ e.object ∈ passages ++ entities then none
        else g.edgeConfidence e := by
      refine (congrArg (Option.map _) (hedges e)).trans ?_
      split <;> rfl
    rw [hedge]
    simp only [List.mem_append]
    split_ifs with hends
    · symm
      refine hydratedConfidence_eq_none (fun hvalid => ?_) (fun hvalid => ?_) fun hvalid => ?_
      · rw [hcontains]
        split_ifs with hgone
        · rfl
        · refine PyDict.get?_eq_none_iff.mpr fun hkey => hgone ?_
          have hkept := hdetachContains _ hkey hvalid
          tauto
      · rw [hsynonyms]
        split_ifs with hgone
        · rfl
        · refine PyDict.get?_eq_none_iff.mpr fun hkey => hgone ?_
          have hkept := hdetachSynonyms _ hkey hvalid
          tauto
      · rw [hrelations]
        split_ifs with hgone
        · rfl
        · refine PyDict.get?_eq_none_iff.mpr fun hkey => hgone ?_
          have hkept := hdetachRelations _ hkey hvalid
          tauto
    · rw [h.confidence_eq e]
      unfold KuzuTables.hydratedConfidence KuzuTables.linkConfidence
        KuzuTables.relationConfidence
      have hlink : ¬(e.subject ∈ passages ∨ e.object ∈ entities) := by tauto
      have hentity : ¬(e.subject ∈ entities ∨ e.object ∈ entities) := by tauto
      rw [hcontains, hsynonyms, hrelations, if_neg hlink, if_neg hentity, if_neg hentity]
  · intro name row hrow
    unfold purge at hrow
    dsimp only at hrow
    rw [disk_removeNodes, KuzuTables.entities_detachEntities,
      (KuzuTables.detachPassages_others g.disk passages).1] at hrow
    split at hrow
    · exact absurd hrow (by simp)
    · exact h.unmarkedRows name row hrow

/-! ### Steps and runs -/

/-- **What one operation keeps.** -/
lemma mirrored_step (h : Mirrored isValid g) {op : GraphOp} (hkeeps : Keeps isValid g op) :
    Mirrored isValid (g.step op) := by
  cases op with
  | addEntity name type => exact mirrored_addEntity h name type
  | addRelation e confidence timestamp sessionId =>
      exact mirrored_addRelation h timestamp sessionId hkeeps
  | addPassage passageId sourceKey text => exact mirrored_addPassage h passageId sourceKey text
  | addContains passageId entityName weight now persistToKuzu =>
      exact mirrored_addContains h hkeeps
  | addSynonym entityA entityB sim now => exact mirrored_addSynonym h hkeeps
  | removeEdge e => exact mirrored_removeEdge h hkeeps
  | markEntitySuperseded name => exact mirrored_markEntitySuperseded h hkeeps
  | rollbackDualNodeRecord passageId createdEntities => exact mirrored_purge h hkeeps
  | garbageCollectOrphans => exact mirrored_purge h hkeeps

/-- Every operation of a run keeps the restart transparent. -/
def RunKeeps (isValid : String → Bool) : KuzuGraphStore → List GraphOp → Prop
  | _, [] => True
  | g, op :: ops => Keeps isValid g op ∧ RunKeeps isValid (g.step op) ops

/-- The conditions of a run are checked one by one. -/
def decidableRunKeeps (isValid : String → Bool) (g : KuzuGraphStore) (ops : List GraphOp) :
    Decidable (RunKeeps isValid g ops) :=
  match ops with
  | [] => .isTrue trivial
  | op :: ops => @instDecidableAnd _ _ _ (decidableRunKeeps isValid (g.step op) ops)

instance (ops : List GraphOp) : Decidable (RunKeeps isValid g ops) :=
  decidableRunKeeps isValid g ops

lemma mirrored_run (h : Mirrored isValid g) {ops : List GraphOp}
    (hkeeps : RunKeeps isValid g ops) : Mirrored isValid (g.run ops) := by
  induction ops generalizing g with
  | nil => exact h
  | cons op ops ih => exact ih (mirrored_step h hkeeps.1) hkeeps.2

end Steps

/-! ## Runs of calls -/

/-- A call of the graph store. -/
inductive GraphCall
  | operation (op : GraphOp)
  | indexDualNodePassage (a : IndexArgs) (now : ℚ)

def GraphCall.operations (ie : OpenIE) (g : KuzuGraphStore) : GraphCall → List GraphOp
  | .operation op => [op]
  | .indexDualNodePassage a now => indexOps ie g a now

def call (ie : OpenIE) (g : KuzuGraphStore) : GraphCall → KuzuGraphStore
  | .operation op => g.step op
  | .indexDualNodePassage a now => g.indexDualNodePassage ie a now

/-- Every operation of every call keeps the restart transparent. -/
def CallsKeep (isValid : String → Bool) (ie : OpenIE) : KuzuGraphStore → List GraphCall → Prop
  | _, [] => True
  | g, c :: cs => RunKeeps isValid g (c.operations ie g) ∧ CallsKeep isValid ie (g.call ie c) cs

/-- The conditions of calls are checked one by one. -/
def decidableCallsKeep (isValid : String → Bool) (ie : OpenIE) (g : KuzuGraphStore)
    (calls : List GraphCall) : Decidable (CallsKeep isValid ie g calls) :=
  match calls with
  | [] => .isTrue trivial
  | c :: cs => @instDecidableAnd _ _ _ (decidableCallsKeep isValid ie (g.call ie c) cs)

instance (ie : OpenIE) (g : KuzuGraphStore) (calls : List GraphCall) :
    Decidable (CallsKeep isValid ie g calls) :=
  decidableCallsKeep isValid ie g calls

lemma call_eq_run (ie : OpenIE) (g : KuzuGraphStore) (c : GraphCall) :
    g.call ie c = g.run (c.operations ie g) := by
  cases c <;> rfl

lemma mirrored_calls {ie : OpenIE} {g : KuzuGraphStore} (h : Mirrored isValid g)
    {calls : List GraphCall} (hkeep : CallsKeep isValid ie g calls) (n : ℕ) :
    Mirrored isValid ((calls.take n).foldl (call ie) g) := by
  induction calls generalizing g n with
  | nil => simpa using h
  | cons c cs ih =>
      cases n with
      | zero => exact h
      | succ n =>
          refine ih ?_ hkeep.2 n
          rw [call_eq_run]
          exact mirrored_run h hkeep.1

/-- **The restart of the graph store is transparent** in every state that is reached from the empty
store by calls whose operations meet their conditions. -/
theorem restart_transparent (lex : Lexicon) (ie : OpenIE) (calls : List GraphCall)
    (hkeep : CallsKeep lex.isValidGraphEntity ie empty calls) (n : ℕ) :
    Transparent lex.isValidGraphEntity ((calls.take n).foldl (call ie) empty) :=
  (mirrored_calls mirrored_empty hkeep n).transparent

/-- An extraction that finds the words of one sentence. -/
def sampleOpenIE : OpenIE where
  extractEntities _ _ _ := ["alice", "berlin"]
  buildSynonymEdges _ := [("alice", "alicia", 9 / 10)]

def sampleCalls : List GraphCall :=
  [.operation (.addRelation ⟨"alice", "lives_in", "berlin"⟩ (1 / 2) 1 none),
    .indexDualNodePassage { sourceKey := "city:alice", text := "alice lives in berlin" } 2,
    .operation (.addRelation ⟨"alice", "lives_in", "berlin"⟩ (9 / 10) 3 none),
    .operation (.rollbackDualNodeRecord "city:alice" []),
    .operation .garbageCollectOrphans,
    .operation (.removeEdge ⟨"alice", "lives_in", "berlin"⟩)]

theorem restart_transparent_sample :
    CallsKeep sampleLexicon.isValidGraphEntity sampleOpenIE empty sampleCalls ∧
      Transparent sampleLexicon.isValidGraphEntity
        ((sampleCalls.take 6).foldl (call sampleOpenIE) empty) :=
  have hkeep : CallsKeep sampleLexicon.isValidGraphEntity sampleOpenIE empty sampleCalls := by
    decide
  ⟨hkeep, restart_transparent sampleLexicon sampleOpenIE sampleCalls hkeep 6⟩

/-- An edge that is to stay in memory is gone after a restart. -/
theorem restart_drops :
    ¬ ∀ calls : List GraphCall, Transparent sampleLexicon.isValidGraphEntity
      (calls.foldl (call sampleOpenIE) empty) := by
  intro h
  have hedge := (h [.operation (.addContains "passage:p" "alice" 1 1 false)]).1
    ⟨"passage:p", containsKey, "alice"⟩
  revert hedge
  decide

/-- Hydration does not read the mark of an entity. -/
example : ((empty.addRelation ⟨"alice", "knows", "bob"⟩ 1 1 none).markEntitySuperseded
    "alice").isEntitySuperseded "alice" = true := by
  decide

end KuzuGraphStore

end AtlasMemory
