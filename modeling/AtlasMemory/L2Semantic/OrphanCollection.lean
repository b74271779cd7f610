import AtlasMemory.L2Semantic.GraphRestart

/-!
# The collection of orphans

`KuzuGraphStore.garbageCollectOrphans` is the collection when every statement succeeds.  Here each
statement may fail: the one that reads the orphans, the one that deletes them all, which may also
delete some of them only, and the two that the fallback makes for each name.

The disk decides which entities are orphans, and there a passage and an entity of one name are two
rows.  In memory they are one node, so that the links of the passage are lost with the orphan.
`garbageCollectOrphans_exact_iff` says when no edge is lost and the answer counts the deleted rows.
-/

namespace AtlasMemory

open KuzuGraphStore

namespace OrphanCollection

/-! ## The statements -/

/-- What becomes of the statement that deletes all orphans. -/
inductive BatchOutcome
  | raises
  | answers (isDeleted : String → Bool)

/-- The connection to the disk, with the statements that fail on it. -/
structure Connection where
  selectFails : Bool
  batch : BatchOutcome
  recheckFails : String → Bool
  deleteFails : String → Bool

/-- `WHERE NOT (e)-[:RELATION]-() AND NOT ()-[:CONTAINS]->(e) AND NOT (e)-[:SYNONYM]-()`. -/
def isDetached (d : KuzuTables) (name : String) : Bool :=
  d.relations.keys.all (fun e => decide (e.subject ≠ name ∧ e.object ≠ name)) &&
    d.contains.keys.all (fun l => decide (l.2 ≠ name)) &&
    d.synonyms.keys.all (fun l => decide (l.1 ≠ name ∧ l.2 ≠ name))

/-- `MATCH (e:Entity {name: $name})-[r]-() RETURN count(r)`. -/
def edgeCount (d : KuzuTables) (name : String) : ℕ :=
  if d.entities.contains name then
    (d.relations.keys.filter fun e => decide (e.subject = name ∨ e.object = name)).length +
      (d.contains.keys.filter fun l => decide (l.2 = name)).length +
      (d.synonyms.keys.filter fun l => decide (l.1 = name ∨ l.2 = name)).length
  else 0

/-- The guarded `DETACH DELETE` of one name. -/
def deleteDetached (d : KuzuTables) (name : String) : KuzuTables :=
  if d.entities.contains name && isDetached d name then d.detachEntity name else d

/-- The loop over the names, each with a count of its edges before it is deleted. -/
def deleteEach (conn : Connection) : List String → KuzuTables → List String × KuzuTables
  | [], d => ([], d)
  | name :: names, d =>
    if conn.recheckFails name then deleteEach conn names d
    else if 0 < edgeCount d name then deleteEach conn names d
    else if conn.deleteFails name then deleteEach conn names d
    else
      let (deleted, d') := deleteEach conn names (deleteDetached d name)
      (name :: deleted, d')

/-- `_collect_and_delete_orphans_on_disk`. -/
def collectAndDeleteOrphansOnDisk (conn : Connection) (d : KuzuTables) :
    List String × KuzuTables :=
  if conn.selectFails then ([], d)
  else
    let orphans := d.orphans
    if orphans = [] then ([], d)
    else
      match conn.batch with
      | .raises => deleteEach conn orphans d
      | .answers isDeleted =>
        let batchDeleted := orphans.filter fun name =>
          isDeleted name && d.entities.contains name && isDetached d name
        let d' := batchDeleted.foldl KuzuTables.detachEntity d
        if batchDeleted.length = orphans.length then (batchDeleted, d')
        else deleteEach conn orphans d'

def isolatedNodes (g : KuzuGraphStore) : List String :=
  g.nodes.keys.filter fun name =>
    g.edges.keys.all fun e => decide (e.subject ≠ name ∧ e.object ≠ name)

/-- `garbage_collect_orphans`: the number of the deleted names, and the store. -/
def garbageCollectOrphans (conn : Option Connection) (hydrationPartial : Bool)
    (g : KuzuGraphStore) : ℕ × KuzuGraphStore :=
  match conn with
  | none => ((isolatedNodes g).length, (isolatedNodes g).foldl removeNode g)
  | some conn =>
    if hydrationPartial then (0, g)
    else
      let (deleted, disk) := collectAndDeleteOrphansOnDisk conn g.disk
      (deleted.length, deleted.foldl removeNode { g with disk := disk })

/-! ## What is deleted on the disk -/

def Connection.batchDeletes (conn : Connection) (name : String) : Bool :=
  match conn.batch with
  | .raises => false
  | .answers isDeleted => isDeleted name

/-- Neither statement of the fallback fails for this name. -/
def Connection.fallbackDeletes (conn : Connection) (name : String) : Bool :=
  !conn.recheckFails name && !conn.deleteFails name

/-- The tables without the entities that satisfy `isGone`. -/
def withoutEntities (d : KuzuTables) (isGone : String → Bool) : KuzuTables :=
  { d with entities := d.entities.filter fun name _ => !isGone name }

variable {conn : Connection} {d : KuzuTables}

lemma orphans_eq (d : KuzuTables) : d.orphans = d.entities.keys.filter (isDetached d) := rfl

lemma mem_orphans {name : String} :
    name ∈ d.orphans ↔ name ∈ d.entities.keys ∧ isDetached d name = true := by
  rw [orphans_eq, List.mem_filter]

lemma isDetached_iff {name : String} : isDetached d name = true ↔
    (∀ e ∈ d.relations.keys, e.subject ≠ name ∧ e.object ≠ name) ∧
      (∀ l ∈ d.contains.keys, l.2 ≠ name) ∧
        ∀ l ∈ d.synonyms.keys, l.1 ≠ name ∧ l.2 ≠ name := by
  simp only [isDetached, Bool.and_eq_true, List.all_eq_true, decide_eq_true_eq, and_assoc]

lemma filter_keys_eq_self {κ ν : Type} (rows : PyDict κ ν) {p : κ → Bool}
    (h : ∀ k ∈ rows.keys, p k = true) : (rows.filter fun k _ => p k) = rows := by
  refine PyDict.ext ?_
  show rows.entries.filter (fun e => p e.1) = rows.entries
  rw [List.filter_eq_self]
  exact fun e he => h e.1 (List.mem_map_of_mem he)

/-- The edge tables are not touched when a detached entity is deleted. -/
lemma detachEntity_of_isDetached {name : String} (h : isDetached d name = true) :
    d.detachEntity name = withoutEntities d fun n => decide (n = name) := by
  obtain ⟨hrelations, hcontains, hsynonyms⟩ := isDetached_iff.mp h
  unfold KuzuTables.detachEntity withoutEntities
  rw [filter_keys_eq_self d.relations (fun e he => decide_eq_true (hrelations e he)),
    filter_keys_eq_self d.contains (fun l hl => decide_eq_true (hcontains l hl)),
    filter_keys_eq_self d.synonyms (fun l hl => decide_eq_true (hsynonyms l hl))]
  simp [PyDict.erase]

lemma withoutEntities_congr {isGone isGone' : String → Bool}
    (h : ∀ name ∈ d.entities.keys, isGone name = isGone' name) :
    withoutEntities d isGone = withoutEntities d isGone' := by
  unfold withoutEntities PyDict.filter
  congr 2
  exact List.filter_congr fun e he => congrArg not (h e.1 (List.mem_map_of_mem he))

lemma withoutEntities_none : withoutEntities d (fun _ => false) = d := by
  unfold withoutEntities
  rw [filter_keys_eq_self d.entities (p := fun _ => !false) fun _ _ => rfl]

lemma withoutEntities_withoutEntities (isGone isGone' : String → Bool) :
    withoutEntities (withoutEntities d isGone) isGone' =
      withoutEntities d fun name => isGone name || isGone' name := by
  unfold withoutEntities PyDict.filter
  simp only [List.filter_filter, Bool.not_or, Bool.and_comm]

/-- The batch takes the names from the table of the entities only. -/
lemma foldl_detachEntity {names : List String} (h : ∀ name ∈ names, isDetached d name = true) :
    names.foldl KuzuTables.detachEntity d = withoutEntities d fun n => decide (n ∈ names) := by
  induction names generalizing d with
  | nil =>
      rw [List.foldl_nil, @withoutEntities_congr _ _ (fun _ => false) (by simp),
        withoutEntities_none]
  | cons name names ih =>
      have hnames : ∀ n ∈ names,
          isDetached (withoutEntities d fun n => decide (n = name)) n = true := fun n hn =>
        h n (List.mem_cons_of_mem name hn)
      rw [List.foldl_cons, detachEntity_of_isDetached (h name List.mem_cons_self), ih hnames,
        withoutEntities_withoutEntities]
      refine withoutEntities_congr fun n _ => ?_
      simp

lemma edgeCount_of_isDetached {name : String} (h : isDetached d name = true) :
    edgeCount d name = 0 := by
  obtain ⟨hrelations, hcontains, hsynonyms⟩ := isDetached_iff.mp h
  unfold edgeCount
  split_ifs
  · rw [List.filter_eq_nil_iff.mpr fun e he => by simpa using hrelations e he,
      List.filter_eq_nil_iff.mpr fun l hl => by simpa using hcontains l hl,
      List.filter_eq_nil_iff.mpr fun l hl => by simpa using hsynonyms l hl]
    rfl
  · rfl

/-- A name that is no longer in the table is not matched, which leaves the table as well. -/
lemma deleteDetached_of_isDetached {name : String} (h : isDetached d name = true) :
    deleteDetached d name = withoutEntities d fun n => decide (n = name) := by
  unfold deleteDetached
  by_cases hname : d.entities.contains name = true
  · rw [if_pos (by simp [hname, h]), detachEntity_of_isDetached h]
  · rw [if_neg (by simp [hname])]
    have habsent : name ∉ d.entities.keys := by
      rw [PyDict.mem_keys_iff]
      exact hname
    rw [@withoutEntities_congr _ _ fun _ => false, withoutEntities_none]
    intro n hn
    exact decide_eq_false fun heq => habsent (heq ▸ hn)

lemma deleteEach_cons {name : String} {names : List String} (h : isDetached d name = true) :
    deleteEach conn (name :: names) d =
      if conn.fallbackDeletes name then
        let (deleted, d') := deleteEach conn names (withoutEntities d fun n => decide (n = name))
        (name :: deleted, d')
      else deleteEach conn names d := by
  rw [deleteEach, edgeCount_of_isDetached h, if_neg (lt_irrefl 0), deleteDetached_of_isDetached h]
  unfold Connection.fallbackDeletes
  cases conn.recheckFails name <;> cases conn.deleteFails name <;> rfl

lemma deleteEach_eq {names : List String} (h : ∀ name ∈ names, isDetached d name = true) :
    deleteEach conn names d = (names.filter conn.fallbackDeletes,
      withoutEntities d fun n => decide (n ∈ names) && conn.fallbackDeletes n) := by
  induction names generalizing d with
  | nil =>
      rw [@withoutEntities_congr _ _ (fun _ => false) (by simp), withoutEntities_none]
      rfl
  | cons name names ih =>
      have hnames : ∀ n ∈ names, isDetached d n = true := fun n hn =>
        h n (List.mem_cons_of_mem name hn)
      rw [deleteEach_cons (h name List.mem_cons_self), ih hnames]
      by_cases hfallback : conn.fallbackDeletes name = true
      · have hrest := @ih (withoutEntities d fun n => decide (n = name)) hnames
        rw [if_pos hfallback, hrest, List.filter_cons_of_pos hfallback,
          withoutEntities_withoutEntities]
        refine Prod.ext rfl (withoutEntities_congr fun n _ => ?_)
        by_cases hn : n = name
        · simp [hn, hfallback]
        · simp [hn]
      · rw [if_neg hfallback, List.filter_cons_of_neg hfallback]
        refine Prod.ext rfl (withoutEntities_congr fun n _ => ?_)
        by_cases hn : n = name
        · simp [hn, hfallback]
        · simp [hn]

/-- The batch deletes every orphan. -/
def Connection.IsComplete (conn : Connection) (d : KuzuTables) : Prop :=
  ∀ name ∈ d.orphans, conn.batchDeletes name = true

instance (conn : Connection) (d : KuzuTables) : Decidable (conn.IsComplete d) := by
  unfold Connection.IsComplete
  infer_instance

/-- The names that the collection answers with. -/
def reportedNames (conn : Connection) (d : KuzuTables) : List String :=
  if conn.IsComplete d then d.orphans else d.orphans.filter conn.fallbackDeletes

/-- The entity is gone after the collection. -/
def isCollected (conn : Connection) (d : KuzuTables) (name : String) : Bool :=
  isDetached d name && (conn.batchDeletes name || conn.fallbackDeletes name)

lemma decide_mem_orphans {name : String} (h : name ∈ d.entities.keys) :
    decide (name ∈ d.orphans) = isDetached d name := by
  rw [Bool.eq_iff_iff, decide_eq_true_iff, mem_orphans]
  tauto

lemma filter_guard (isDeleted : String → Bool) :
    (d.orphans.filter fun name => isDeleted name && d.entities.contains name && isDetached d name) =
      d.orphans.filter isDeleted := by
  refine List.filter_congr fun name hname => ?_
  obtain ⟨hkey, hdetached⟩ := mem_orphans.mp hname
  have hcontains : d.entities.contains name = true := PyDict.mem_keys_iff.mp hkey
  rw [hcontains, hdetached, Bool.and_true, Bool.and_true]

/-- The names of the answer and the tables after the collection. -/
lemma collectAndDeleteOrphansOnDisk_eq (hselect : conn.selectFails = false) :
    collectAndDeleteOrphansOnDisk conn d =
      (reportedNames conn d, withoutEntities d (isCollected conn d)) := by
  have hdetached : ∀ name ∈ d.orphans, isDetached d name = true := fun name hname =>
    (mem_orphans.mp hname).2
  unfold collectAndDeleteOrphansOnDisk
  rw [hselect, if_neg Bool.false_ne_true]
  dsimp only
  by_cases hempty : d.orphans = []
  · have hnone : ∀ name ∈ d.entities.keys, isCollected conn d name = false := by
      intro name hname
      have hmem := decide_mem_orphans hname
      rw [hempty] at hmem
      simp [isCollected, ← hmem]
    have hreported : reportedNames conn d = [] := by
      unfold reportedNames
      split_ifs <;> simp [hempty]
    rw [if_pos hempty, hreported, withoutEntities_congr hnone, withoutEntities_none]
  · rw [if_neg hempty]
    cases hbatch : conn.batch with
    | raises =>
        have hincomplete : ¬ conn.IsComplete d := by
          intro hcomplete
          obtain ⟨name, hname⟩ := List.exists_mem_of_ne_nil _ hempty
          have hdeletes := hcomplete name hname
          simp [Connection.batchDeletes, hbatch] at hdeletes
        dsimp only
        rw [deleteEach_eq hdetached, reportedNames, if_neg hincomplete]
        refine Prod.ext rfl (withoutEntities_congr fun n hn => ?_)
        simp [isCollected, Connection.batchDeletes, hbatch, decide_mem_orphans hn]
    | answers isDeleted =>
        have hbatchDeletes : conn.batchDeletes = isDeleted := by
          funext name
          simp [Connection.batchDeletes, hbatch]
        have hsub : ∀ name ∈ d.orphans.filter isDeleted, isDetached d name = true :=
          fun name hname => hdetached name (List.mem_filter.mp hname).1
        dsimp only
        rw [filter_guard, foldl_detachEntity hsub]
        by_cases hcomplete : conn.IsComplete d
        · have hall : d.orphans.filter isDeleted = d.orphans := by
            rw [List.filter_eq_self]
            intro name hname
            rw [← hbatchDeletes]
            exact hcomplete name hname
          rw [hall, if_pos rfl, reportedNames, if_pos hcomplete]
          refine Prod.ext rfl (withoutEntities_congr fun n hn => ?_)
          rw [decide_mem_orphans hn, isCollected]
          cases hn' : isDetached d n with
          | false => rfl
          | true => simp [hcomplete n (mem_orphans.mpr ⟨hn, hn'⟩)]
        · have hlength : (d.orphans.filter isDeleted).length ≠ d.orphans.length := by
            intro hlength
            refine hcomplete fun name hname => ?_
            rw [hbatchDeletes]
            exact List.length_filter_eq_length_iff.mp hlength name hname
          have hleft : ∀ name ∈ d.orphans, isDetached (withoutEntities d fun n =>
              decide (n ∈ d.orphans.filter isDeleted)) name = true := hdetached
          rw [if_neg hlength, deleteEach_eq hleft, reportedNames, if_neg hcomplete,
            withoutEntities_withoutEntities]
          refine Prod.ext rfl (withoutEntities_congr fun n hn => ?_)
          have hmem : decide (n ∈ d.orphans.filter isDeleted) =
              (isDetached d n && isDeleted n) := by
            rw [← decide_mem_orphans hn, Bool.eq_iff_iff]
            simp [List.mem_filter]
          rw [hmem, decide_mem_orphans hn, isCollected, hbatchDeletes]
          cases isDetached d n <;> simp

/-! ## How many are deleted -/

/-- Every name that the batch deletes is counted. -/
def Connection.Counts (conn : Connection) (d : KuzuTables) : Prop :=
  conn.IsComplete d ∨
    ∀ name ∈ d.orphans, conn.batchDeletes name = true → conn.fallbackDeletes name = true

lemma size_withoutEntities (d : KuzuTables) (isGone : String → Bool) :
    (withoutEntities d isGone).entities.size + (d.entities.keys.filter isGone).length =
      d.entities.size := by
  have hkeys : (d.entities.keys.filter isGone).length =
      (d.entities.entries.filter fun e => isGone e.1).length := by
    rw [PyDict.keys, List.filter_map, List.length_map]
    rfl
  have hsplit := List.length_eq_length_filter_add (l := d.entities.entries) fun e => isGone e.1
  rw [hkeys]
  show (d.entities.entries.filter fun e => !isGone e.1).length + _ = d.entities.entries.length
  omega

lemma length_filter_or_iff {l : List String} {p q : String → Bool} :
    (l.filter p).length = (l.filter fun n => q n || p n).length ↔
      ∀ n ∈ l, q n = true → p n = true := by
  have htwice : l.filter p = (l.filter fun n => q n || p n).filter p := by
    rw [List.filter_filter]
    refine List.filter_congr fun n _ => ?_
    cases p n <;> simp
  rw [htwice, List.length_filter_eq_length_iff]
  simp only [List.mem_filter, Bool.or_eq_true]
  constructor
  · intro h n hn hq
    exact h n ⟨hn, Or.inl hq⟩
  · rintro h n ⟨hn, hq | hp⟩
    · exact h n hn hq
    · exact hp

/-- The number of the names is the number of the deleted rows, when every one is counted. -/
lemma length_reportedNames_iff (conn : Connection) (d : KuzuTables) :
    (reportedNames conn d).length + (withoutEntities d (isCollected conn d)).entities.size =
      d.entities.size ↔ conn.Counts d := by
  have hsize := size_withoutEntities d (isCollected conn d)
  have hcollected : d.entities.keys.filter (isCollected conn d) =
      d.orphans.filter fun n => conn.batchDeletes n || conn.fallbackDeletes n := by
    rw [orphans_eq, List.filter_filter]
    exact List.filter_congr fun n _ => Bool.and_comm ..
  have hcount : (reportedNames conn d).length +
      (withoutEntities d (isCollected conn d)).entities.size = d.entities.size ↔
        (reportedNames conn d).length =
          (d.orphans.filter fun n => conn.batchDeletes n || conn.fallbackDeletes n).length := by
    rw [hcollected] at hsize
    omega
  rw [hcount, Connection.Counts, reportedNames]
  by_cases hcomplete : conn.IsComplete d
  · have hall : (d.orphans.filter fun n => conn.batchDeletes n || conn.fallbackDeletes n) =
        d.orphans := by
      rw [List.filter_eq_self]
      intro n hn
      simp [hcomplete n hn]
    rw [if_pos hcomplete, hall]
    simp [hcomplete]
  · rw [if_neg hcomplete, length_filter_or_iff]
    simp [hcomplete]

/-! ## The image of the tables -/

section Image

variable {isValid : String → Bool}

/-- The store whose multigraph is what hydration reads from its tables. -/
def hydratedImage (isValid : String → Bool) (d : KuzuTables) : KuzuGraphStore :=
  ⟨hydratedNodes isValid d, hydratedEdges isValid d, d⟩

/-- An edge that is read from the tables, with the row that it is read from. -/
inductive ReadFrom (isValid : String → Bool) (d : KuzuTables) (e : Edge) : Prop
  | relation (r : Edge) (hrow : r ∈ d.relations.keys)
      (hvalid : validEnds isValid r.subject r.object = true) (hsubject : r.subject = e.subject)
      (hobject : r.object = e.object)
  | link (l : String × String) (hrow : l ∈ d.contains.keys) (hvalid : isValid l.2 = true)
      (hedge : linkEdge containsKey l = e)
  | synonym (l : String × String) (hrow : l ∈ d.synonyms.keys)
      (hvalid : validEnds isValid l.1 l.2 = true) (hedge : linkEdge synonymKey l = e)

/-- What is in the edges after a pass over rows was there before or is read from a row. -/
lemma isSome_foldl {ρ : Type} {read : PyDict Edge EdgeAttrs → ρ → PyDict Edge EdgeAttrs}
    {rows : List ρ} {e : Edge} {P : Prop}
    (hread : ∀ edges, ∀ row ∈ rows, ((read edges row).get? e).isSome = true →
      (edges.get? e).isSome = true ∨ P)
    (edges : PyDict Edge EdgeAttrs) (h : ((rows.foldl read edges).get? e).isSome = true) :
    (edges.get? e).isSome = true ∨ P := by
  induction rows generalizing edges with
  | nil => exact Or.inl h
  | cons row rows ih =>
      have hrows := ih (fun edges' row' hrow' => hread edges' row' (List.mem_cons_of_mem row hrow'))
        (read edges row) h
      obtain hthere | hP := hrows
      · exact hread edges row List.mem_cons_self hthere
      · exact Or.inr hP

lemma readFrom_of_isSome {e : Edge} (h : ((hydratedEdges isValid d).get? e).isSome = true) :
    ReadFrom isValid d e := by
  obtain hcontained | hread := isSome_foldl (P := ReadFrom isValid d e)
      (fun edges row hrow hset => by
    rw [get?_hydrateSynonym] at hset
    split_ifs at hset with he
    · unfold linkUpdate at hset
      split_ifs at hset with hvalid
      · exact Or.inr (.synonym row.1 (List.mem_map_of_mem hrow) hvalid he)
      · exact Or.inl hset
    · exact Or.inl hset) _ h
  · obtain hrelated | hread := isSome_foldl (P := ReadFrom isValid d e)
        (fun edges row hrow hset => by
      rw [get?_hydrateContains] at hset
      split_ifs at hset with he
      · unfold linkUpdate at hset
        split_ifs at hset with hvalid
        · exact Or.inr (.link row.1 (List.mem_map_of_mem hrow) hvalid he)
        · exact Or.inl hset
      · exact Or.inl hset) _ hcontained
    · obtain hnone | hread := isSome_foldl (P := ReadFrom isValid d e)
          (fun edges row hrow hset => by
        unfold hydrateRelation at hset
        split_ifs at hset with hvalid
        · dsimp only at hset
          by_cases he : hydratedPredicate row.1 = e
          · refine Or.inr (.relation row.1 (List.mem_map_of_mem hrow) hvalid ?_ ?_)
            · rw [← he, hydratedPredicate]
              split_ifs <;> rfl
            · rw [← he, hydratedPredicate]
              split_ifs <;> rfl
          · rw [PyDict.get?_set_of_ne _ _ he] at hset
            exact Or.inl hset
        · exact Or.inl hset) _ hrelated
      · simp at hnone
      · exact hread
    · exact hread
  · exact hread

lemma isSome_hydratedEdges_link {l : String × String} (hrow : l ∈ d.contains.keys)
    (hvalid : isValid l.2 = true) :
    ((hydratedEdges isValid d).get? (linkEdge containsKey l)).isSome = true := by
  unfold hydratedEdges
  rw [PyDict.get?_foldl_keyed_of_ne get?_hydrateSynonym _ _ (linkEdge_ne containsKey_ne_synonymKey),
    PyDict.get?_foldl_keyed (linkEdge_injective containsKey) (@get?_hydrateContains isValid)]
  obtain ⟨w, hw⟩ := Option.isSome_iff_exists.mp (PyDict.mem_keys_iff.mp hrow)
  rw [hw]
  simp [linkUpdate, hvalid]

/-- A pass over rows adds the node that one of its rows adds. -/
lemma contains_foldl_row {ρ : Type} {read : PyDict String NodeAttrs → ρ → PyDict String NodeAttrs}
    (hgrows : ∀ nodes row, Grows nodes (read nodes row)) {rows : List ρ} {row : ρ}
    (hrow : row ∈ rows) {name : String} (hread : ∀ nodes, (read nodes row).contains name = true)
    (nodes : PyDict String NodeAttrs) : (rows.foldl read nodes).contains name = true := by
  obtain ⟨before, later, rfl⟩ := List.append_of_mem hrow
  rw [List.foldl_append, List.foldl_cons]
  exact (grows_foldl hgrows later _).contains name (hread _)

def relationNodes (isValid : String → Bool) (nodes : PyDict String NodeAttrs)
    (row : Edge × RelationRow) : PyDict String NodeAttrs :=
  if validEnds isValid row.1.subject row.1.object then
    ensureNode (ensureNode nodes row.1.subject "entity") row.1.object "entity_or_value"
  else nodes

def passageNodes (nodes : PyDict String NodeAttrs) (row : String × PassageRow) :
    PyDict String NodeAttrs :=
  if row.1 = "" then nodes
  else addPassageNode nodes row.1
    ⟨if row.2.sourceKey = "" then row.1 else row.2.sourceKey, row.2.text⟩

def linkNodes (isValid : String → Bool) (nodes : PyDict String NodeAttrs)
    (row : (String × String) × ℚ) : PyDict String NodeAttrs :=
  if isValid row.1.2 then
    ensureNode (if nodes.contains row.1.1 then nodes
      else addPassageNode nodes row.1.1 ⟨row.1.1, ""⟩) row.1.2 "entity"
  else nodes

def synonymNodes (isValid : String → Bool) (nodes : PyDict String NodeAttrs)
    (row : (String × String) × ℚ) : PyDict String NodeAttrs :=
  if validEnds isValid row.1.1 row.1.2 then
    ensureNode (ensureNode nodes row.1.1 "entity") row.1.2 "entity"
  else nodes

/-- The passes of hydration, one table after the other. -/
lemma hydratedNodes_eq (isValid : String → Bool) (d : KuzuTables) :
    hydratedNodes isValid d = d.synonyms.entries.foldl (synonymNodes isValid)
      (d.contains.entries.foldl (linkNodes isValid) (d.passages.entries.foldl passageNodes
        (d.relations.entries.foldl (relationNodes isValid)
          (hydrateEntities isValid ∅ d.entities.entries)))) := rfl

lemma grows_ensureNodes (nodes : PyDict String NodeAttrs) (u v type type' : String) :
    Grows nodes (ensureNode (ensureNode nodes u type) v type') :=
  (grows_ensureNode ..).trans (grows_ensureNode ..)

lemma grows_relationNodes (nodes : PyDict String NodeAttrs) (row : Edge × RelationRow) :
    Grows nodes (relationNodes isValid nodes row) := by
  unfold relationNodes
  split
  · exact grows_ensureNodes ..
  · exact grows_refl nodes

lemma grows_passageNodes (nodes : PyDict String NodeAttrs) (row : String × PassageRow) :
    Grows nodes (passageNodes nodes row) := by
  unfold passageNodes
  split
  · exact grows_refl nodes
  · exact grows_addPassageNode ..

lemma grows_linkNodes (nodes : PyDict String NodeAttrs) (row : (String × String) × ℚ) :
    Grows nodes (linkNodes isValid nodes row) := by
  unfold linkNodes
  split
  · split
    · exact grows_ensureNode ..
    · exact (grows_addPassageNode ..).trans (grows_ensureNode ..)
  · exact grows_refl nodes

lemma grows_synonymNodes (nodes : PyDict String NodeAttrs) (row : (String × String) × ℚ) :
    Grows nodes (synonymNodes isValid nodes row) := by
  unfold synonymNodes
  split
  · exact grows_ensureNodes ..
  · exact grows_refl nodes

lemma contains_ensureNodes (nodes : PyDict String NodeAttrs) {u v type type' name : String}
    (h : name = u ∨ name = v) :
    (ensureNode (ensureNode nodes u type) v type').contains name = true := by
  obtain rfl | rfl := h
  · exact (grows_ensureNode ..).contains _ (contains_ensureNode ..)
  · exact contains_ensureNode ..

lemma contains_relationNodes {row : Edge × RelationRow} {name : String}
    (hvalid : validEnds isValid row.1.subject row.1.object = true)
    (hname : name = row.1.subject ∨ name = row.1.object) (nodes : PyDict String NodeAttrs) :
    (relationNodes isValid nodes row).contains name = true := by
  rw [relationNodes, if_pos hvalid]
  exact contains_ensureNodes nodes hname

lemma contains_linkNodes {row : (String × String) × ℚ} {name : String}
    (hvalid : isValid row.1.2 = true) (hname : name = row.1.1 ∨ name = row.1.2)
    (nodes : PyDict String NodeAttrs) : (linkNodes isValid nodes row).contains name = true := by
  rw [linkNodes, if_pos hvalid]
  obtain rfl | rfl := hname
  · refine (grows_ensureNode ..).contains _ ?_
    split_ifs with hthere
    · exact hthere
    · exact contains_addPassageNode ..
  · exact contains_ensureNode ..

lemma contains_synonymNodes {row : (String × String) × ℚ} {name : String}
    (hvalid : validEnds isValid row.1.1 row.1.2 = true) (hname : name = row.1.1 ∨ name = row.1.2)
    (nodes : PyDict String NodeAttrs) : (synonymNodes isValid nodes row).contains name = true := by
  rw [synonymNodes, if_pos hvalid]
  exact contains_ensureNodes nodes hname

lemma exists_entry {κ ν : Type} [DecidableEq κ] {rows : PyDict κ ν} {k : κ} (h : k ∈ rows.keys) :
    ∃ v, (k, v) ∈ rows.entries := by
  obtain ⟨v, hv⟩ := Option.isSome_iff_exists.mp (PyDict.mem_keys_iff.mp h)
  exact ⟨v, PyDict.mem_entries_iff.mpr hv⟩

lemma contains_of_readFrom {e : Edge} (h : ReadFrom isValid d e) {name : String}
    (hname : name = e.subject ∨ name = e.object) :
    (hydratedNodes isValid d).contains name = true := by
  rw [hydratedNodes_eq]
  cases h with
  | relation r hrow hvalid hsubject hobject =>
      obtain ⟨v, hentry⟩ := exists_entry hrow
      rw [← hsubject, ← hobject] at hname
      refine (grows_foldl grows_synonymNodes _ _).contains name ?_
      refine (grows_foldl grows_linkNodes _ _).contains name ?_
      refine (grows_foldl grows_passageNodes _ _).contains name ?_
      exact contains_foldl_row grows_relationNodes hentry (contains_relationNodes hvalid hname) _
  | link l hrow hvalid hedge =>
      obtain ⟨v, hentry⟩ := exists_entry hrow
      subst hedge
      refine (grows_foldl grows_synonymNodes _ _).contains name ?_
      exact contains_foldl_row grows_linkNodes hentry (contains_linkNodes hvalid hname) _
  | synonym l hrow hvalid hedge =>
      obtain ⟨v, hentry⟩ := exists_entry hrow
      subst hedge
      exact contains_foldl_row grows_synonymNodes hentry (contains_synonymNodes hvalid hname) _

lemma closed_hydratedImage (isValid : String → Bool) (d : KuzuTables) :
    (hydratedImage isValid d).Closed := by
  intro e attrs he
  have hread : ReadFrom isValid d e := readFrom_of_isSome (by
    rw [show (hydratedEdges isValid d).get? e = some attrs from he]
    rfl)
  exact ⟨contains_of_readFrom hread (Or.inl rfl), contains_of_readFrom hread (Or.inr rfl)⟩

/-! ### Hydration gives the image of its tables -/

lemma foldl_filter_of_skips {α ρ : Type} {read : α → ρ → α} {p : ρ → Bool} {rows : List ρ}
    (h : ∀ row ∈ rows, p row = false → ∀ acc, read acc row = acc) (acc : α) :
    (rows.filter p).foldl read acc = rows.foldl read acc := by
  induction rows generalizing acc with
  | nil => rfl
  | cons row rows ih =>
      have hrows := ih fun row' hrow' => h row' (List.mem_cons_of_mem row hrow')
      by_cases hp : p row = true
      · rw [List.filter_cons_of_pos hp, List.foldl_cons, List.foldl_cons, hrows]
      · rw [List.filter_cons_of_neg hp, hrows, List.foldl_cons,
          h row List.mem_cons_self (Bool.eq_false_iff.mpr hp)]

lemma validEnds_of_not {u v name : String} (hinvalid : isValid name = false)
    (h : u = name ∨ v = name) : validEnds isValid u v = false := by
  unfold validEnds
  obtain rfl | rfl := h
  · rw [hinvalid, Bool.false_and]
  · rw [hinvalid, Bool.and_false]

/-- An entity with an invalid name is not read, and neither is a row at it. -/
lemma hydrated_detachEntity {name : String} (hinvalid : isValid name = false) :
    hydratedNodes isValid (d.detachEntity name) = hydratedNodes isValid d ∧
      hydratedEdges isValid (d.detachEntity name) = hydratedEdges isValid d := by
  have hends : ∀ {u v : String}, decide (u ≠ name ∧ v ≠ name) = false →
      validEnds isValid u v = false := by
    intro u v h
    have hends := of_decide_eq_false h
    exact validEnds_of_not hinvalid (by tauto)
  have hname : ∀ {u : String}, decide (u ≠ name) = false → isValid u = false := by
    intro u h
    rw [not_not.mp (of_decide_eq_false h), hinvalid]
  constructor
  · rw [hydratedNodes_eq, hydratedNodes_eq]
    unfold KuzuTables.detachEntity PyDict.erase PyDict.filter hydrateEntities
    dsimp only
    rw [foldl_filter_of_skips, foldl_filter_of_skips, foldl_filter_of_skips, foldl_filter_of_skips]
    · intro row _ hrow nodes
      rw [if_pos (Or.inr (hname hrow))]
    · intro row _ hrow nodes
      rw [relationNodes, hends hrow, if_neg Bool.false_ne_true]
    · intro row _ hrow nodes
      rw [linkNodes, hname hrow, if_neg Bool.false_ne_true]
    · intro row _ hrow nodes
      rw [synonymNodes, hends hrow, if_neg Bool.false_ne_true]
  · unfold hydratedEdges KuzuTables.detachEntity PyDict.filter
    dsimp only
    rw [foldl_filter_of_skips, foldl_filter_of_skips, foldl_filter_of_skips]
    · intro row _ hrow edges
      rw [hydrateRelation, hends hrow, if_neg Bool.false_ne_true]
    · intro row _ hrow edges
      rw [hydrateContains, hname hrow, if_neg Bool.false_ne_true]
    · intro row _ hrow edges
      rw [hydrateSynonym, hends hrow, if_neg Bool.false_ne_true]

lemma isValid_of_mem_invalidEntities {name : String} (h : name ∈ invalidEntities isValid d) :
    isValid name = false := by
  unfold invalidEntities at h
  obtain h | h := List.mem_append.mp h
  · obtain h | h := List.mem_append.mp h
    · have hname := (List.mem_filter.mp h).2
      simp only [Bool.and_eq_true, Bool.not_eq_true'] at hname
      exact hname.2
    · obtain ⟨e, -, he⟩ := List.mem_filterMap.mp h
      split_ifs at he with hsubject hobject
      · rw [← Option.some.inj he, hsubject]
      · rw [← Option.some.inj he, hobject]
  · simpa using (List.mem_filter.mp h).2

/-- The edges of the two representations are the same. -/
structure SameEdges (g g' : KuzuGraphStore) : Prop where
  edges : g'.edges.Agree g.edges
  relations : g'.disk.relations = g.disk.relations
  contains : g'.disk.contains = g.disk.contains
  synonyms : g'.disk.synonyms = g.disk.synonyms

/-- No edge is lost, and the answer is the number of the entities that are gone from the disk. -/
def IsExact (g : KuzuGraphStore) (result : ℕ × KuzuGraphStore) : Prop :=
  SameEdges g result.2 ∧ result.1 + result.2.disk.entities.size = g.disk.entities.size

/-- The name is not the identifier of a passage with an entity in memory. -/
def HoldsNothing (isValid : String → Bool) (d : KuzuTables) (name : String) : Prop :=
  ∀ l ∈ d.contains.keys, isValid l.2 = true → l.1 ≠ name

/-- The condition: the collection is skipped, or it counts what it deletes and no orphan that it
reports is the identifier of a passage with an entity in memory. -/
def Spares (isValid : String → Bool) (conn : Connection) (hydrationPartial : Bool)
    (d : KuzuTables) : Prop :=
  hydrationPartial = true ∨ conn.selectFails = true ∨
    ((∀ name ∈ d.orphans, conn.IsComplete d ∨ conn.fallbackDeletes name = true →
      HoldsNothing isValid d name) ∧ conn.Counts d)

lemma mem_reportedNames {name : String} : name ∈ reportedNames conn d ↔
    name ∈ d.orphans ∧ (conn.IsComplete d ∨ conn.fallbackDeletes name = true) := by
  unfold reportedNames
  split_ifs with hcomplete
  · simp [hcomplete]
  · simp [hcomplete, List.mem_filter]

/-- A node is lost together with an edge exactly if it is the passage of a link. -/
lemma edges_agree_iff {names : List String} (hnames : ∀ name ∈ names, isDetached d name = true)
    (disk : KuzuTables) :
    (names.foldl removeNode { hydratedImage isValid d with disk := disk }).edges.Agree
        (hydratedImage isValid d).edges ↔
      ∀ name ∈ names, HoldsNothing isValid d name := by
  have hclosed : Closed { hydratedImage isValid d with disk := disk } :=
    closed_hydratedImage isValid d
  have hedges := (removeNodes hclosed names).2
  constructor
  · intro hagree name hname l hl hvalid hpassage
    have hlookup := hagree (linkEdge containsKey l)
    have hremoved : (linkEdge containsKey l).subject ∈ names := by
      rw [show (linkEdge containsKey l).subject = name from hpassage]
      exact hname
    rw [hedges, if_pos (Or.inl hremoved)] at hlookup
    have hthere := isSome_hydratedEdges_link hl hvalid
    have hnone : (hydratedEdges isValid d).get? (linkEdge containsKey l) = none := hlookup.symm
    rw [hnone] at hthere
    exact Bool.noConfusion hthere
  · intro hnothing e
    rw [hedges]
    split_ifs with hends
    · symm
      show (hydratedEdges isValid d).get? e = none
      rw [← Option.not_isSome_iff_eq_none]
      intro hthere
      have hlost : ∀ {name : String}, name ∈ names →
          e.subject = name ∨ e.object = name → False := by
        intro name hname hend
        obtain ⟨hrelations, hcontains, hsynonyms⟩ := isDetached_iff.mp (hnames name hname)
        cases readFrom_of_isSome hthere with
        | relation r hrow hvalid hsubject hobject =>
            rw [← hsubject, ← hobject] at hend
            obtain hend | hend := hend
            · exact (hrelations r hrow).1 hend
            · exact (hrelations r hrow).2 hend
        | link l hrow hvalid hedge =>
            subst hedge
            obtain hend | hend := hend
            · exact hnothing name hname l hrow hvalid hend
            · exact hcontains l hrow hend
        | synonym l hrow hvalid hedge =>
            subst hedge
            obtain hend | hend := hend
            · exact (hsynonyms l hrow).1 hend
            · exact (hsynonyms l hrow).2 hend
      obtain hsubject | hobject := hends
      · exact hlost hsubject (Or.inl rfl)
      · exact hlost hobject (Or.inr rfl)
    · rfl

lemma isExact_skipped (g : KuzuGraphStore) : IsExact g (0, g) :=
  ⟨⟨fun _ => rfl, rfl, rfl, rfl⟩, Nat.zero_add _⟩

lemma garbageCollectOrphans_eq (hselect : conn.selectFails = false) (g : KuzuGraphStore) :
    garbageCollectOrphans (some conn) false g =
      ((reportedNames conn g.disk).length, (reportedNames conn g.disk).foldl removeNode
        { g with disk := withoutEntities g.disk (isCollected conn g.disk) }) := by
  unfold garbageCollectOrphans
  dsimp only
  rw [if_neg Bool.false_ne_true, collectAndDeleteOrphansOnDisk_eq hselect]

/-- **The collection of orphans loses no edge and counts what it deletes** exactly if it is skipped,
or no orphan that it reports is the identifier of a passage with an entity in memory and every name
that an incomplete batch deletes passes through the two statements of the fallback. -/
theorem garbageCollectOrphans_exact_iff (isValid : String → Bool) (conn : Connection)
    (hydrationPartial : Bool) (d : KuzuTables) :
    IsExact (hydratedImage isValid d)
        (garbageCollectOrphans (some conn) hydrationPartial (hydratedImage isValid d)) ↔
      Spares isValid conn hydrationPartial d := by
  unfold Spares
  by_cases hincomplete : hydrationPartial = true
  · have hskipped : garbageCollectOrphans (some conn) hydrationPartial (hydratedImage isValid d) =
        (0, hydratedImage isValid d) := by
      rw [hincomplete]
      rfl
    rw [hskipped]
    exact iff_of_true (isExact_skipped _) (Or.inl hincomplete)
  by_cases hselect : conn.selectFails = true
  · have hskipped : garbageCollectOrphans (some conn) hydrationPartial (hydratedImage isValid d) =
        (0, hydratedImage isValid d) := by
      rw [Bool.eq_false_iff.mpr hincomplete]
      unfold garbageCollectOrphans collectAndDeleteOrphansOnDisk
      simp [hselect]
    rw [hskipped]
    exact iff_of_true (isExact_skipped _) (Or.inr (Or.inl hselect))
  have hreported : ∀ name ∈ reportedNames conn d, isDetached d name = true := fun name h =>
    (mem_orphans.mp (mem_reportedNames.mp h).1).2
  have hedges := @edges_agree_iff d isValid _ hreported (withoutEntities d (isCollected conn d))
  have hcount := length_reportedNames_iff conn d
  rw [Bool.eq_false_iff.mpr hincomplete, garbageCollectOrphans_eq (Bool.eq_false_iff.mpr hselect)]
  constructor
  · rintro ⟨hsame, hexact⟩
    refine Or.inr (Or.inr ⟨fun name hname hreports => ?_, hcount.mp ?_⟩)
    · exact hedges.mp hsame.edges name (mem_reportedNames.mpr ⟨hname, hreports⟩)
    · rw [disk_removeNodes] at hexact
      exact hexact
  · intro hspares
    obtain ⟨hnothing, hcounts⟩ : _ ∧ conn.Counts d := by
      obtain h | h | h := hspares
      · exact Bool.noConfusion h
      · exact absurd h hselect
      · exact h
    have hagree := hedges.mpr fun name hname =>
      hnothing name (mem_reportedNames.mp hname).1 (mem_reportedNames.mp hname).2
    refine ⟨⟨hagree, ?_, ?_, ?_⟩, ?_⟩
    · rw [disk_removeNodes]
      rfl
    · rw [disk_removeNodes]
      rfl
    · rw [disk_removeNodes]
      rfl
    · rw [disk_removeNodes]
      exact hcount.mpr hcounts

/-- A passage under the name of an entity that nothing refers to. -/
def namesakeTables : KuzuTables :=
  { KuzuTables.empty with
    entities := (∅ : PyDict String EntityRow).set "alice" { entityType := "entity" } |>.set "berlin"
      { entityType := "entity" }
    passages := (∅ : PyDict String PassageRow).set "alice" ⟨"alice", "alice lives in berlin"⟩
    contains := (∅ : PyDict (String × String) ℚ).set ("alice", "berlin") 1 }

/-- A connection on which every statement succeeds. -/
def soundConnection : Connection := ⟨false, .answers fun _ => true, fun _ => false, fun _ => false⟩

/-- The link of the passage is lost in memory, although the disk keeps it. -/
theorem namesake_loses_link :
    ¬ ∀ (conn : Connection) (hydrationPartial : Bool) (d : KuzuTables),
      IsExact (hydratedImage sampleLexicon.isValidGraphEntity d)
        (garbageCollectOrphans (some conn) hydrationPartial
          (hydratedImage sampleLexicon.isValidGraphEntity d)) := by
  intro h
  have hedge := (h soundConnection false namesakeTables).1.edges ⟨"alice", containsKey, "berlin"⟩
  have hthere := congrArg Option.isSome hedge
  revert hthere
  decide

end Image

/-! ## Without faults -/

lemma foldl_removeNode_disk (names : List String) (g : KuzuGraphStore) (disk : KuzuTables) :
    names.foldl removeNode { g with disk := disk } =
      { names.foldl removeNode g with disk := disk } := by
  induction names generalizing g with
  | nil => rfl
  | cons name names ih =>
      have hone : removeNode { g with disk := disk } name =
          { g.removeNode name with disk := disk } := by
        unfold removeNode
        dsimp only
        split_ifs <;> rfl
      rw [List.foldl_cons, List.foldl_cons, hone, ih]

/-- **When every statement succeeds**, the collection is the one of the graph store, and it answers
with the number of the orphans. -/
theorem garbageCollectOrphans_of_complete (hselect : conn.selectFails = false) (g : KuzuGraphStore)
    (hcomplete : conn.IsComplete g.disk) :
    garbageCollectOrphans (some conn) false g =
      (g.disk.orphans.length, g.garbageCollectOrphans) := by
  have hdetached : ∀ name ∈ g.disk.orphans, isDetached g.disk name = true := fun name hname =>
    (mem_orphans.mp hname).2
  have hcollected : withoutEntities g.disk (isCollected conn g.disk) =
      withoutEntities g.disk fun n => decide (n ∈ g.disk.orphans) := by
    refine withoutEntities_congr fun n hn => ?_
    rw [decide_mem_orphans hn, isCollected]
    cases hdetach : isDetached g.disk n with
    | false => rfl
    | true => simp [hcomplete n (mem_orphans.mpr ⟨hn, hdetach⟩)]
  rw [garbageCollectOrphans_eq hselect, reportedNames, if_pos hcomplete, hcollected,
    ← foldl_detachEntity hdetached, foldl_removeNode_disk]
  unfold KuzuGraphStore.garbageCollectOrphans
  dsimp only
  rw [disk_removeNodes]

end OrphanCollection

end AtlasMemory
