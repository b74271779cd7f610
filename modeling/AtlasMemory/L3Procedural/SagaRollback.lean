import AtlasMemory.Cognitive.Compensation
import AtlasMemory.L2Semantic.GraphRestart
import AtlasMemory.L3Procedural.Saga

/-!
# An insertion that fails

The stores after an insertion that raises, store by store: what the applied steps have put into each
and what the compensation takes out again.  `all_or_nothing_iff` says when that is nothing.
-/

namespace AtlasMemory

/-! ## An entry that is set and another that is erased -/

lemma PyDict.erase_set_agree_iff {κ ν : Type*} [DecidableEq κ] (d : PyDict κ ν) (k k' : κ) (v : ν) :
    (∀ i, ((d.set k v).erase k').get? i = d.get? i) ↔
      d.get? k' = none ∧ (k ≠ k' → d.get? k = some v) := by
  constructor
  · intro h
    refine ⟨?_, fun hne => ?_⟩
    · rw [← h k', PyDict.get?_erase_self]
    · rw [← h k, PyDict.get?_erase_of_ne _ (Ne.symm hne), PyDict.get?_set_self]
  · rintro ⟨habsent, hset⟩ i
    rw [PyDict.get?_erase]
    by_cases hi : k' = i
    · rw [if_pos hi, ← hi, habsent]
    · rw [if_neg hi, PyDict.get?_set]
      by_cases hk : k = i
      · subst hk
        rw [if_pos rfl, hset (Ne.symm hi)]
      · rw [if_neg hk]

namespace KuzuGraphStore

/-! ## The graph -/

/-- The nodes of the relation are as its addition leaves them. -/
structure NodesThere (g : KuzuGraphStore) (e : Edge) : Prop where
  subject : e.subject ≠ e.object →
    ∃ attrs, g.nodes.get? e.subject = some attrs ∧ attrs.type = "entity"
  object : ∃ attrs, g.nodes.get? e.object = some attrs ∧ attrs.type = "entity_or_value"
  subjectRow : g.disk.entities.contains e.subject = true
  objectRow : g.disk.entities.contains e.object = true

/-- The relation is there, in memory and on disk, and the record adds nothing to it. -/
structure EdgeAbsorbed (g : KuzuGraphStore) (r : MemoryRecord) : Prop where
  memory : ∃ attrs, g.edges.get? r.graphEdge = some attrs ∧ r.confidence ≤ attrs.confidence ∧
    r.timestamp ≤ attrs.timestamp ∧ attrs.sessionId = r.sessionId
  disk : ∃ row, g.disk.relations.get? r.graphEdge = some row ∧ r.confidence ≤ row.confidence ∧
    r.timestamp ≤ row.timestamp

/-- The graph before an insertion that is undone: its nodes are there, the relation that is removed is
not there, and where that is not the relation that is added, the latter is there. -/
structure GraphReturns (g : KuzuGraphStore) (r : MemoryRecord) : Prop where
  nodes : g.NodesThere r.graphEdge
  memory : g.edges.get? r.removedEdge = none
  disk : g.disk.relations.get? r.removedEdge = none
  cut : r.graphEdge ≠ r.removedEdge → g.EdgeAbsorbed r

/-- The two graphs answer every lookup alike. -/
structure SameGraph (before after : KuzuGraphStore) : Prop where
  nodes : ∀ n, after.nodes.get? n = before.nodes.get? n
  edges : ∀ e, after.edges.get? e = before.edges.get? e
  entities : ∀ n, after.disk.entities.get? n = before.disk.entities.get? n
  relations : ∀ e, after.disk.relations.get? e = before.disk.relations.get? e
  passages : after.disk.passages = before.disk.passages
  contains : after.disk.contains = before.disk.contains
  synonyms : after.disk.synonyms = before.disk.synonyms

lemma SameGraph.refl (g : KuzuGraphStore) : SameGraph g g :=
  ⟨fun _ => rfl, fun _ => rfl, fun _ => rfl, fun _ => rfl, rfl, rfl, rfl⟩

lemma higher_eq_iff (new p : ℚ) : higher new (some p) = p ↔ new ≤ p := by
  constructor
  · intro h
    unfold higher at h
    dsimp only at h
    split_ifs at h with hlt
    · exact hlt.le
    · exact h.le
  · exact higher_of_le

lemma addNode_agree_iff (nodes : PyDict String NodeAttrs) (name type : String) :
    (∀ n, (addNode nodes name type).get? n = nodes.get? n) ↔
      ∃ attrs, nodes.get? name = some attrs ∧ attrs.type = type := by
  unfold addNode
  constructor
  · intro h
    have hname := h name
    rw [PyDict.get?_set_self] at hname
    cases hget : nodes.get? name with
    | none => rw [hget] at hname; exact absurd hname (by simp)
    | some attrs =>
        rw [hget] at hname
        dsimp only at hname
        exact ⟨attrs, rfl, (congrArg NodeAttrs.type (Option.some.inj hname)).symm⟩
  · rintro ⟨attrs, hget, rfl⟩ n
    rw [hget, PyDict.get?_set]
    split
    · rename_i hn
      rw [← hn, hget]
    · rfl

lemma get?_addNode_of_ne (nodes : PyDict String NodeAttrs) {name n : String} (type : String)
    (h : name ≠ n) : (addNode nodes name type).get? n = nodes.get? n :=
  PyDict.get?_set_of_ne _ _ h

lemma addNode_addNode (nodes : PyDict String NodeAttrs) (name type type' n : String) :
    (addNode (addNode nodes name type) name type').get? n = (addNode nodes name type').get? n := by
  by_cases hn : name = n
  · subst hn
    unfold addNode
    rw [PyDict.get?_set_self, PyDict.get?_set_self, PyDict.get?_set_self]
    cases nodes.get? name <;> rfl
  · rw [get?_addNode_of_ne _ _ hn, get?_addNode_of_ne _ _ hn, get?_addNode_of_ne _ _ hn]

/-- The nodes of a relation stay as they are if and only if they are there with their types. -/
lemma addNodes_agree_iff (nodes : PyDict String NodeAttrs) (e : Edge) :
    (∀ n, (addNode (addNode nodes e.subject "entity") e.object "entity_or_value").get? n =
        nodes.get? n) ↔
      (e.subject ≠ e.object →
        ∃ attrs, nodes.get? e.subject = some attrs ∧ attrs.type = "entity") ∧
        ∃ attrs, nodes.get? e.object = some attrs ∧ attrs.type = "entity_or_value" := by
  by_cases hsame : e.subject = e.object
  · rw [hsame]
    simp only [addNode_addNode, ne_eq, not_true_eq_false, false_implies, true_and]
    exact addNode_agree_iff nodes e.object "entity_or_value"
  · constructor
    · intro h
      have hsubject : ∀ n, (addNode nodes e.subject "entity").get? n = nodes.get? n := by
        intro n
        by_cases hn : e.subject = n
        · subst hn
          rw [← h e.subject, get?_addNode_of_ne _ _ (Ne.symm hsame)]
        · exact get?_addNode_of_ne _ _ hn
      have hobject : ∀ n, (addNode nodes e.object "entity_or_value").get? n = nodes.get? n := by
        intro n
        by_cases hn : e.object = n
        · rw [← h n, ← hn]
          unfold addNode
          rw [PyDict.get?_set_self, PyDict.get?_set_self, PyDict.get?_set_of_ne _ _ hsame]
        · exact get?_addNode_of_ne _ _ hn
      exact ⟨fun _ => (addNode_agree_iff _ _ _).mp hsubject, (addNode_agree_iff _ _ _).mp hobject⟩
    · rintro ⟨hsubject, hobject⟩ n
      have hkept := (addNode_agree_iff _ _ _).mpr (hsubject hsame)
      by_cases hn : e.object = n
      · obtain ⟨attrs, hget, htype⟩ := hobject
        have hget' : (addNode nodes e.subject "entity").get? e.object = some attrs := by
          rw [hkept, hget]
        rw [(addNode_agree_iff _ _ _).mpr ⟨attrs, hget', htype⟩, hkept]
      · rw [get?_addNode_of_ne _ _ hn, hkept]

lemma mergeEntity_agree_iff (d : KuzuTables) (name type : String) :
    (∀ n, (d.mergeEntity name type).entities.get? n = d.entities.get? n) ↔
      d.entities.contains name = true := by
  unfold KuzuTables.mergeEntity
  split
  · rename_i h
    exact ⟨fun _ => h, fun _ _ => rfl⟩
  · rename_i h
    refine ⟨fun hall => absurd (hall name) ?_, fun hname => absurd hname h⟩
    dsimp only
    rw [PyDict.get?_set_self]
    intro heq
    exact h (by rw [PyDict.contains, ← heq]; rfl)

lemma contains_mergeEntity_iff (d : KuzuTables) (name type n : String) :
    (d.mergeEntity name type).entities.contains n = true ↔
      name = n ∨ d.entities.contains n = true := by
  unfold KuzuTables.mergeEntity
  split
  · rename_i h
    exact ⟨.inr, fun h' => h'.elim (fun hn => hn ▸ h) id⟩
  · unfold PyDict.contains
    dsimp only
    rw [PyDict.get?_set]
    split <;> simp_all

/-- The entities of a relation stay as they are if and only if they are there. -/
lemma mergeEntities_agree_iff (d : KuzuTables) (e : Edge) (type type' : String) :
    (∀ n, ((d.mergeEntity e.subject type).mergeEntity e.object type').entities.get? n =
        d.entities.get? n) ↔
      d.entities.contains e.subject = true ∧ d.entities.contains e.object = true := by
  constructor
  · intro h
    have hrow : ∀ n, ((d.mergeEntity e.subject type).mergeEntity e.object type').entities.contains
        n = true → d.entities.contains n = true := by
      intro n hn
      unfold PyDict.contains at *
      rwa [h n] at hn
    refine ⟨hrow _ ?_, hrow _ ?_⟩
    · rw [contains_mergeEntity_iff, contains_mergeEntity_iff]
      exact .inr (.inl rfl)
    · rw [contains_mergeEntity_iff]
      exact .inl rfl
  · rintro ⟨hsubject, hobject⟩ n
    rw [(mergeEntity_agree_iff _ _ _).mpr ((contains_mergeEntity_iff ..).mpr (.inr hobject)),
      (mergeEntity_agree_iff _ _ _).mpr hsubject]

/-- The attributes of the edge that a record adds. -/
def addedAttrs (g : KuzuGraphStore) (r : MemoryRecord) : EdgeAttrs :=
  ⟨higher r.confidence ((g.edges.get? r.graphEdge).map EdgeAttrs.confidence),
    higher r.timestamp ((g.edges.get? r.graphEdge).map EdgeAttrs.timestamp), r.sessionId⟩

/-- The row of the relation that a record adds. -/
def addedRow (g : KuzuGraphStore) (r : MemoryRecord) : RelationRow :=
  match g.disk.relations.get? r.graphEdge with
  | some row => ⟨KuzuTables.raised r.confidence row.confidence,
      KuzuTables.raised r.timestamp row.timestamp⟩
  | none => ⟨r.confidence, r.timestamp⟩

lemma get?_eq_addedAttrs_iff (g : KuzuGraphStore) (r : MemoryRecord) :
    g.edges.get? r.graphEdge = some (g.addedAttrs r) ↔
      ∃ attrs, g.edges.get? r.graphEdge = some attrs ∧ r.confidence ≤ attrs.confidence ∧
        r.timestamp ≤ attrs.timestamp ∧ attrs.sessionId = r.sessionId := by
  unfold addedAttrs
  cases hget : g.edges.get? r.graphEdge with
  | none => simp
  | some attrs =>
      rw [Option.some.injEq, eq_comm]
      simp only [Option.map_some, Option.some.injEq, exists_eq_left']
      rw [← higher_eq_iff, ← higher_eq_iff]
      constructor
      · intro h
        exact ⟨congrArg EdgeAttrs.confidence h, congrArg EdgeAttrs.timestamp h,
          (congrArg EdgeAttrs.sessionId h).symm⟩
      · rintro ⟨hconfidence, htimestamp, hsession⟩
        rw [hconfidence, htimestamp, ← hsession]

lemma get?_eq_addedRow_iff (g : KuzuGraphStore) (r : MemoryRecord) :
    g.disk.relations.get? r.graphEdge = some (g.addedRow r) ↔
      ∃ row, g.disk.relations.get? r.graphEdge = some row ∧ r.confidence ≤ row.confidence ∧
        r.timestamp ≤ row.timestamp := by
  unfold addedRow
  cases hget : g.disk.relations.get? r.graphEdge with
  | none => simp
  | some row =>
      rw [Option.some.injEq, eq_comm]
      simp only [Option.some.injEq, exists_eq_left']
      rw [raised_eq_higher, raised_eq_higher, ← higher_eq_iff, ← higher_eq_iff]
      constructor
      · intro h
        exact ⟨congrArg RelationRow.confidence h, congrArg RelationRow.timestamp h⟩
      · rintro ⟨hconfidence, htimestamp⟩
        rw [hconfidence, htimestamp]

lemma relations_addRecord (g : KuzuGraphStore) (r : MemoryRecord) :
    (g.addRecord r).disk.relations = g.disk.relations.set r.graphEdge (g.addedRow r) := by
  unfold addRecord addRelation KuzuTables.mergeRelation
  dsimp only
  rw [relations_mergeEntity, relations_mergeEntity]
  rfl

/-- **The graph after an insertion that is undone.** -/
lemma sameGraph_removeEdge_addRecord_iff (g : KuzuGraphStore) (r : MemoryRecord) :
    SameGraph g ((g.addRecord r).removeEdge r.removedEdge) ↔ g.GraphReturns r := by
  have hnodes := addNodes_agree_iff g.nodes r.graphEdge
  have hentities := mergeEntities_agree_iff g.disk r.graphEdge "entity" "entity_or_val"
  have hedges := PyDict.erase_set_agree_iff g.edges r.graphEdge r.removedEdge (g.addedAttrs r)
  have hrelations := PyDict.erase_set_agree_iff g.disk.relations r.graphEdge r.removedEdge
    (g.addedRow r)
  rw [get?_eq_addedAttrs_iff] at hedges
  rw [get?_eq_addedRow_iff, ← relations_addRecord] at hrelations
  constructor
  · intro h
    obtain ⟨hsubject, hobject⟩ := hnodes.mp h.nodes
    obtain ⟨hsubjectRow, hobjectRow⟩ := hentities.mp h.entities
    obtain ⟨hno, habsorbed⟩ := hedges.mp h.edges
    obtain ⟨hnoRow, habsorbedRow⟩ := hrelations.mp h.relations
    exact ⟨⟨hsubject, hobject, hsubjectRow, hobjectRow⟩, hno, hnoRow,
      fun hne => ⟨habsorbed hne, habsorbedRow hne⟩⟩
  · intro h
    refine ⟨hnodes.mpr ⟨h.nodes.subject, h.nodes.object⟩,
      hedges.mpr ⟨h.memory, fun hne => (h.cut hne).memory⟩,
      hentities.mpr ⟨h.nodes.subjectRow, h.nodes.objectRow⟩,
      hrelations.mpr ⟨h.disk, fun hne => (h.cut hne).disk⟩, ?_, ?_, ?_⟩
    · simp [removeEdge, addRecord, addRelation, KuzuTables.mergeRelation]
    · simp [removeEdge, addRecord, addRelation, KuzuTables.mergeRelation]
    · simp [removeEdge, addRecord, addRelation, KuzuTables.mergeRelation]

end KuzuGraphStore

/-! ## The vectors -/

namespace VectorStore

variable {ρ : Type}

/-- The points before an insertion that is undone: none belongs to the key, or, for the empty key,
whose points are not deleted, the first that does is the inserted one. -/
def PointsReturn (points : List (VectorPoint ρ)) (key text : String) (record : ρ) : Prop :=
  if key = "" then points.find? (belongsTo key) = some ⟨normalizeUpsertKey key, text, record⟩
  else ∀ p ∈ points, belongsTo key p = false

/-- The points after the insertion under a key is undone are those that do not belong to it. -/
lemma filter_insert (points : List (VectorPoint ρ)) (key text : String) (record : ρ) :
    (insert points key text record).filter (fun p => !belongsTo key p) =
      points.filter fun p => !belongsTo key p := by
  have hnew := belongsTo_inserted key text record
  unfold insert
  dsimp only
  cases hfound : points.findIdx? (belongsTo key) with
  | none => simp [hnew]
  | some i =>
      dsimp only
      refine filter_set_of_not (by simp [hnew]) fun hi => ?_
      have hold := (List.findIdx?_eq_some_iff_getElem.mp hfound).2.1
      simp [hold]

lemma insert_eq_self_iff (points : List (VectorPoint ρ)) (key text : String) (record : ρ) :
    insert points key text record = points ↔
      points.find? (belongsTo key) = some ⟨normalizeUpsertKey key, text, record⟩ := by
  unfold insert
  dsimp only
  cases hfound : points.findIdx? (belongsTo key) with
  | none =>
      have hnone : points.find? (belongsTo key) = none := by
        rw [List.find?_eq_none]
        intro p hp
        have hp' := List.findIdx?_eq_none_iff.mp hfound p hp
        simp [hp']
      rw [hnone]
      simp
  | some i =>
      obtain ⟨hi, hbelongs, hfirst⟩ := List.findIdx?_eq_some_iff_getElem.mp hfound
      have hfind : points.find? (belongsTo key) = some points[i] := by
        rw [List.find?_eq_some_iff_getElem]
        exact ⟨hbelongs, i, hi, rfl, fun j hj => by simpa using hfirst j hj⟩
      dsimp only
      rw [hfind, Option.some.injEq]
      constructor
      · intro h
        have hget := congrArg (fun l : List (VectorPoint ρ) => l[i]?) h
        rw [List.getElem?_set_self hi, List.getElem?_eq_getElem hi] at hget
        exact (Option.some.inj hget).symm
      · intro h
        rw [← h, List.set_getElem_self]

/-- **The points after an insertion that is undone.** -/
lemma deleteByUpsertKey_insert_eq_iff (points : List (VectorPoint ρ)) (key text : String)
    (record : ρ) :
    deleteByUpsertKey (insert points key text record) key = points ↔
      PointsReturn points key text record := by
  unfold deleteByUpsertKey PointsReturn
  split_ifs with hkey
  · exact insert_eq_self_iff points key text record
  · rw [filter_insert, List.filter_eq_self]
    exact forall₂_congr fun p _ => by simp

end VectorStore

/-! ## The three stores -/

namespace TransactionalDeltaTensor

/-- The stores before and after answer every lookup alike: the graph, the live columns of every state
variable, and the points. -/
structure SameStores (before after : SagaStores) : Prop where
  graph : KuzuGraphStore.SameGraph before.graph after.graph
  kv : ∀ key, (after.kv.db.stateVariables.get? key).map StateRow.live =
    (before.kv.db.stateVariables.get? key).map StateRow.live
  vectors : after.vectors = before.vectors

variable {env : SagaEnv} {s : SagaStores} {r : MemoryRecord}

/-- The relation is added to the graph. -/
def GraphApplied (env : SagaEnv) (s : SagaStores) : Prop :=
  intentFault env s = none ∧ env.fault .addRecord = none

/-- The row of the state variable is written. -/
def RowWritten (env : SagaEnv) (s : SagaStores) (r : MemoryRecord) : Prop :=
  GraphApplied env s ∧ r.isStateVariable = true ∧ env.fault .getState = none ∧
    env.fault .setState = none

/-- The state variable is written, row and log. -/
def KvApplied (env : SagaEnv) (s : SagaStores) (r : MemoryRecord) : Prop :=
  RowWritten env s r ∧ env.fault .insertAuditEntry = none ∧
    ∃ h, (s.kv.db.setSync env.rt r.stateArgs env.setAt).2 = .ok h

def VectorApplied (env : SagaEnv) (s : SagaStores) (r : MemoryRecord) : Prop :=
  GraphApplied env s ∧ (r.isStateVariable = true → KvApplied env s r) ∧
    env.fault .insertVector = none

/-- The backup of the state variable, written back, is what was there. -/
def KvReturns (env : SagaEnv) (s : SagaStores) (r : MemoryRecord) : Prop :=
  ∀ key row, backupKv s r = some (key, row) →
    key = r.effectiveSubject ∧ row.value = row.decodedValue.dumps ∧
      row.confidence = PyFloat.clampUnit (some (.finite row.confidence)) ∧
        row.metadata = some (Json.obj (row.toStateDict env.rt key).metadata.entries).dumps

/-- The state variable has the live columns that the insertion writes. -/
def RowSame (env : SagaEnv) (s : SagaStores) (r : MemoryRecord) : Prop :=
  (s.kv.db.stateVariables.get? r.effectiveSubject).map StateRow.live =
    some (WritePath.liveOf env.rt r.stateArgs env.setAt)

/-- What the insertion has changed by the time it raises is undone, or was there before. -/
structure Undone (env : SagaEnv) (s : SagaStores) (r : MemoryRecord) : Prop where
  graph : GraphApplied env s → s.graph.GraphReturns r
  row : RowWritten env s r → ¬KvApplied env s r → RowSame env s r
  kv : KvApplied env s r → KvReturns env s r
  vectors : VectorApplied env s r → ∀ points, s.vectors = some points →
    VectorStore.PointsReturn points r.upsertKey r.vectorText r

/-! ### What a failed insertion leaves -/

/-- The store after the row of the state variable is written. -/
def writtenRow (env : SagaEnv) (s : SagaStores) (r : MemoryRecord) : VerifiedKVStore :=
  ((SagaEffect.upsertState r.stateArgs env.setAt).apply env.rt s).kv

/-- The store after the state variable is written. -/
def writtenKv (env : SagaEnv) (s : SagaStores) (r : MemoryRecord) : VerifiedKVStore :=
  s.kv.call env.rt (.setSync r.stateArgs env.setAt)

/-- The store after the state variable is written and restored. -/
def restoredKv (env : SagaEnv) (s : SagaStores) (r : MemoryRecord) : VerifiedKVStore :=
  (writtenKv env s r).call env.rt (restoreCall env s r)

/-- **What a failed insertion leaves of each store.** -/
structure Leaves (env : SagaEnv) (s : SagaStores) (r : MemoryRecord) (after : SagaStores) : Prop where
  graph : GraphApplied env s →
    after.graph = (s.graph.addRecord r).removeEdge r.removedEdge
  noGraph : ¬GraphApplied env s → after.graph = s.graph
  kv : KvApplied env s r → after.kv = restoredKv env s r
  row : RowWritten env s r → ¬KvApplied env s r →
    after.kv = writtenRow env s r ∨ after.kv = writtenKv env s r
  noRow : ¬RowWritten env s r → after.kv = s.kv
  vectors : VectorApplied env s r → after.vectors = s.vectors.map fun points =>
    VectorStore.deleteByUpsertKey
      (VectorStore.insert points r.upsertKey r.vectorText r) r.upsertKey
  noVectors : ¬VectorApplied env s r → after.vectors = s.vectors

lemma kvStage_cases (env : SagaEnv) (s : SagaStores) (r : MemoryRecord) (h : GraphApplied env s) :
    (r.isStateVariable = false ∧ kvStage env s r = ⟨[], .ok []⟩) ∨
      (r.isStateVariable = true ∧ ¬RowWritten env s r ∧
        ∃ err, kvStage env s r = ⟨[], .error err⟩) ∨
      (r.isStateVariable = true ∧ RowWritten env s r ∧ ¬KvApplied env s r ∧ ∃ err effect,
        kvStage env s r = ⟨[effect], .error err⟩ ∧
          (effect = .upsertState r.stateArgs env.setAt ∨
            effect = .callKv (.setSync r.stateArgs env.setAt))) ∨
      (KvApplied env s r ∧ kvStage env s r = ⟨[.callKv (.setSync r.stateArgs env.setAt)], .ok [.kv]⟩) := by
  unfold kvStage KvApplied RowWritten
  cases hsv : r.isStateVariable with
  | false => exact .inl ⟨rfl, rfl⟩
  | true =>
      right
      cases hget : env.fault .getState with
      | some err => exact .inl ⟨rfl, by simp, err, rfl⟩
      | none =>
          cases hset : env.fault .setState with
          | some err => exact .inl ⟨rfl, by simp, err, rfl⟩
          | none =>
              right
              cases haudit : env.fault .insertAuditEntry with
              | some err =>
                  exact .inl ⟨rfl, ⟨h, rfl, rfl, rfl⟩, by simp, err, _, rfl, .inl rfl⟩
              | none =>
                  cases hresult : (s.kv.db.setSync env.rt r.stateArgs env.setAt).2 with
                  | error err =>
                      exact .inl ⟨rfl, ⟨h, rfl, rfl, rfl⟩, by simp, err, _, rfl, .inr rfl⟩
                  | ok hash => exact .inr ⟨⟨⟨h, rfl, rfl, rfl⟩, rfl, hash, rfl⟩, rfl⟩

lemma vectorStage_cases (env : SagaEnv) (s : SagaStores) (r : MemoryRecord) :
    (s.vectors = none ∧ vectorStage env s r = ⟨[], .ok []⟩) ∨
      ((∃ err, env.fault .insertVector = some err) ∧
        ∃ err, vectorStage env s r = ⟨[], .error err⟩) ∨
      (env.fault .insertVector = none ∧
        vectorStage env s r = ⟨[.insertVector r.upsertKey r], .ok [.vector]⟩) := by
  unfold vectorStage
  cases s.vectors with
  | none => exact .inl ⟨rfl, rfl⟩
  | some points =>
      right
      cases env.fault .insertVector with
      | some err => exact .inl ⟨⟨err, rfl⟩, err, rfl⟩
      | none => exact .inr ⟨rfl, rfl⟩

/-- An insertion that raises leaves the stores that its applied steps and its compensation make. -/
lemma leaves_execute {err : PyError} (hfail : (execute env s r).2 = .error err) :
    Leaves env s r (execute env s r).1 := by
  unfold execute at hfail ⊢
  dsimp only at hfail ⊢
  cases hintent : intentFault env s with
  | some e =>
      have hgraph : ¬GraphApplied env s := fun h => absurd h.1 (by simp [hintent])
      have heffects : (effects env s r).1 = [] := by simp [effects, hintent]
      rw [heffects]
      exact ⟨fun h => absurd h hgraph, fun _ => rfl, fun h => absurd h.1.1 hgraph,
        fun h => absurd h.1 hgraph, fun _ => rfl, fun h => absurd h.1 hgraph, fun _ => rfl⟩
  | none =>
  cases hadd : env.fault .addRecord with
  | some e =>
      have hgraph : ¬GraphApplied env s := fun h => absurd h.2 (by simp [hadd])
      have heffects : (effects env s r).1 =
          [.createIntent env.txId r, .markFailed env.txId e.message] := by
        simp [effects, hintent, forward, graphStage, hadd, Progress.next, rollback]
      rw [heffects]
      exact ⟨fun h => absurd h hgraph, fun _ => rfl, fun h => absurd h.1.1 hgraph,
        fun h => absurd h.1 hgraph, fun _ => rfl, fun h => absurd h.1 hgraph, fun _ => rfl⟩
  | none =>
  have hgraph : GraphApplied env s := ⟨hintent, hadd⟩
  obtain ⟨hsv, hkv⟩ | ⟨hsv, hrow, e, hkv⟩ | ⟨hsv, hrow, hnot, e, effect, hkv, heffect⟩ |
    ⟨happlied, hkv⟩ := kvStage_cases env s r hgraph
  · have hrow : ¬RowWritten env s r := fun h => absurd h.2.1 (by simp [hsv])
    obtain ⟨hnone, hvec⟩ | ⟨⟨e, hfault⟩, e', hvec⟩ | ⟨hfault, hvec⟩ := vectorStage_cases env s r
    · cases hcommit : env.fault .markCommitted with
      | none =>
          exact absurd hfail (by simp [effects, hintent, forward, graphStage, hadd, hkv, hvec,
            commitStage, hcommit, Progress.next])
      | some e =>
          have heffects : (effects env s r).1 = [.createIntent env.txId r, .addRecord r,
              .removeEdge r.removedEdge, .markFailed env.txId e.message] := by
            simp [effects, hintent, forward, graphStage, hadd, hkv, hvec, commitStage, hcommit,
              Progress.next, rollback]
          rw [heffects]
          exact ⟨fun _ => rfl, fun h => absurd hgraph h, fun h => absurd h.1 hrow,
            fun h => absurd h hrow, fun _ => rfl, fun _ => by simp [applyAll, SagaEffect.apply, hnone],
            fun _ => rfl⟩
    · have hvector : ¬VectorApplied env s r := fun h => absurd h.2.2 (by simp [hfault])
      have heffects : (effects env s r).1 = [.createIntent env.txId r, .addRecord r,
          .removeEdge r.removedEdge, .markFailed env.txId e'.message] := by
        simp [effects, hintent, forward, graphStage, hadd, hkv, hvec, Progress.next, rollback]
      rw [heffects]
      exact ⟨fun _ => rfl, fun h => absurd hgraph h, fun h => absurd h.1 hrow,
        fun h => absurd h hrow, fun _ => rfl, fun h => absurd h hvector, fun _ => rfl⟩
    · have hvector : VectorApplied env s r := ⟨hgraph, fun h => absurd h (by simp [hsv]), hfault⟩
      cases hcommit : env.fault .markCommitted with
      | none =>
          exact absurd hfail (by simp [effects, hintent, forward, graphStage, hadd, hkv, hvec,
            commitStage, hcommit, Progress.next])
      | some e =>
          have heffects : (effects env s r).1 = [.createIntent env.txId r, .addRecord r,
              .insertVector r.upsertKey r, .deleteVectors r.upsertKey,
                .removeEdge r.removedEdge, .markFailed env.txId e.message] := by
            simp [effects, hintent, forward, graphStage, hadd, hkv, hvec, commitStage, hcommit,
              Progress.next, rollback]
          rw [heffects]
          exact ⟨fun _ => rfl, fun h => absurd hgraph h, fun h => absurd h.1 hrow,
            fun h => absurd h hrow, fun _ => rfl,
            fun _ => by simp [applyAll, SagaEffect.apply, Function.comp_def],
            fun h => absurd hvector h⟩
  · have hvector : ¬VectorApplied env s r := fun h => hrow (h.2.1 hsv).1
    have heffects : (effects env s r).1 = [.createIntent env.txId r, .addRecord r,
        .removeEdge r.removedEdge, .markFailed env.txId e.message] := by
      simp [effects, hintent, forward, graphStage, hadd, hkv, Progress.next, rollback]
    rw [heffects]
    exact ⟨fun _ => rfl, fun h => absurd hgraph h, fun h => absurd h.1 hrow,
      fun h => absurd h hrow, fun _ => rfl, fun h => absurd h hvector, fun _ => rfl⟩
  · have hvector : ¬VectorApplied env s r := fun h => hnot (h.2.1 hsv)
    have heffects : (effects env s r).1 = [.createIntent env.txId r, .addRecord r, effect,
        .removeEdge r.removedEdge, .markFailed env.txId e.message] := by
      simp [effects, hintent, forward, graphStage, hadd, hkv, Progress.next, rollback]
    rw [heffects]
    refine ⟨fun _ => ?_, fun h => absurd hgraph h, fun h => absurd h hnot, fun _ _ => ?_,
      fun h => absurd hrow h, fun h => absurd h hvector, fun _ => ?_⟩
    · rcases heffect with rfl | rfl <;> rfl
    · rcases heffect with rfl | rfl
      · exact .inl rfl
      · exact .inr rfl
    · rcases heffect with rfl | rfl <;> rfl
  · obtain ⟨hnone, hvec⟩ | ⟨⟨e, hfault⟩, e', hvec⟩ | ⟨hfault, hvec⟩ := vectorStage_cases env s r
    · cases hcommit : env.fault .markCommitted with
      | none =>
          exact absurd hfail (by simp [effects, hintent, forward, graphStage, hadd, hkv, hvec,
            commitStage, hcommit, Progress.next])
      | some e =>
          have heffects : (effects env s r).1 = [.createIntent env.txId r, .addRecord r,
              .callKv (.setSync r.stateArgs env.setAt),
                .callKv (restoreCall env s r),
                .removeEdge r.removedEdge, .markFailed env.txId e.message] := by
            simp [effects, hintent, forward, graphStage, hadd, hkv, hvec, commitStage, hcommit,
              Progress.next, rollback]
          rw [heffects]
          exact ⟨fun _ => rfl, fun h => absurd hgraph h, fun _ => rfl,
            fun _ h => absurd happlied h, fun h => absurd happlied.1 h,
            fun _ => by simp [applyAll, SagaEffect.apply, hnone], fun _ => rfl⟩
    · have hvector : ¬VectorApplied env s r := fun h => absurd h.2.2 (by simp [hfault])
      have heffects : (effects env s r).1 = [.createIntent env.txId r, .addRecord r,
          .callKv (.setSync r.stateArgs env.setAt),
                .callKv (restoreCall env s r),
            .removeEdge r.removedEdge, .markFailed env.txId e'.message] := by
        simp [effects, hintent, forward, graphStage, hadd, hkv, hvec, Progress.next, rollback]
      rw [heffects]
      exact ⟨fun _ => rfl, fun h => absurd hgraph h, fun _ => rfl,
        fun _ h => absurd happlied h, fun h => absurd happlied.1 h, fun h => absurd h hvector,
        fun _ => rfl⟩
    · have hvector : VectorApplied env s r := ⟨hgraph, fun _ => happlied, hfault⟩
      cases hcommit : env.fault .markCommitted with
      | none =>
          exact absurd hfail (by simp [effects, hintent, forward, graphStage, hadd, hkv, hvec,
            commitStage, hcommit, Progress.next])
      | some e =>
          have heffects : (effects env s r).1 = [.createIntent env.txId r, .addRecord r,
              .callKv (.setSync r.stateArgs env.setAt), .insertVector r.upsertKey r,
                .deleteVectors r.upsertKey, .callKv (restoreCall env s r),
                  .removeEdge r.removedEdge, .markFailed env.txId e.message] := by
            simp [effects, hintent, forward, graphStage, hadd, hkv, hvec, commitStage, hcommit,
              Progress.next, rollback]
          rw [heffects]
          exact ⟨fun _ => rfl, fun h => absurd hgraph h, fun _ => rfl,
            fun _ h => absurd happlied h, fun h => absurd happlied.1 h,
            fun _ => by simp [applyAll, SagaEffect.apply, Function.comp_def],
            fun h => absurd hvector h⟩

/-! ### The state variable -/

/-- The live columns of every state variable are the same in two stores. -/
def SameStates (before after : VerifiedKVStore) : Prop :=
  ∀ key, (after.db.stateVariables.get? key).map StateRow.live =
    (before.db.stateVariables.get? key).map StateRow.live

lemma get?_call_setSync (kv : VerifiedKVStore) (a : SetArgs) (now : ℚ) (key : String) :
    ((kv.call env.rt (.setSync a now)).db.stateVariables.get? key).map StateRow.live =
      if a.key = key then some (WritePath.liveOf env.rt a now)
      else (kv.db.stateVariables.get? key).map StateRow.live := by
  rw [VerifiedKVStore.db_call (by nofun)]
  show ((kv.db.setSync env.rt a now).1.stateVariables.get? key).map _ = _
  rw [WritePath.get?_setSync]
  split_ifs <;> rfl

lemma get?_writtenRow (key : String) :
    ((writtenRow env s r).db.stateVariables.get? key).map StateRow.live =
      if r.effectiveSubject = key then some (WritePath.liveOf env.rt r.stateArgs env.setAt)
      else (s.kv.db.stateVariables.get? key).map StateRow.live := by
  show ((s.kv.db.stateVariables.setState _ _ _ _ _ _).get? key).map _ = _
  unfold StateTable.setState
  rw [PyDict.get?_set]
  show Option.map _ (if r.effectiveSubject = key then _ else _) = _
  split_ifs <;> rfl

/-- A state variable that is written over leaves the columns as they were if and only if it was
there with them. -/
lemma sameStates_of_written {kv : VerifiedKVStore}
    (hkv : ∀ key, (kv.db.stateVariables.get? key).map StateRow.live =
      if r.effectiveSubject = key then some (WritePath.liveOf env.rt r.stateArgs env.setAt)
      else (s.kv.db.stateVariables.get? key).map StateRow.live) :
    SameStates s.kv kv ↔ RowSame env s r := by
  constructor
  · intro h
    have hkey := h r.effectiveSubject
    rw [hkv, if_pos rfl] at hkey
    exact hkey.symm
  · intro h key
    rw [hkv]
    split_ifs with hkey
    · rw [← hkey]
      exact h.symm
    · rfl

lemma get?_of_lookup {t : StateTable} {key : String} {row : StateRow}
    (h : t.lookup key = some (key, row)) : t.get? key = some row := by
  unfold StateTable.lookup at h
  cases hget : t.get? key with
  | some row' =>
      rw [hget] at h
      simpa using h
  | none =>
      rw [hget] at h
      have hmem := List.mem_of_find?_eq_some h
      rw [PyDict.mem_entries_iff, hget] at hmem
      exact absurd hmem (by simp)

lemma lookup_of_get? {t : StateTable} {key : String} {row : StateRow}
    (h : t.get? key = some row) : t.lookup key = some (key, row) := by
  unfold StateTable.lookup
  rw [h]

/-- **The state variable after an insertion that is undone.** -/
lemma sameStates_restoredKv_iff : SameStates s.kv (restoredKv env s r) ↔ KvReturns env s r := by
  unfold SameStates KvReturns restoredKv restoreCall
  cases hbackup : backupKv s r with
  | none =>
      refine iff_of_true (fun key => ?_) (fun _ _ h => absurd h (by simp))
      have habsent : s.kv.db.stateVariables.get? r.effectiveSubject = none := by
        unfold backupKv StateTable.lookup at hbackup
        split at hbackup
        · exact absurd hbackup (by simp)
        · assumption
      rw [VerifiedKVStore.db_call (by rintro _ ⟨⟩)]
      show (((writtenKv env s r).db.deleteSync _ _ _).1.stateVariables.get? key).map _ = _
      rw [Db.stateVariables_deleteSync, PyDict.get?_erase]
      split_ifs with hkey
      · rw [← hkey, habsent]
      · exact (get?_call_setSync ..).trans (if_neg hkey)
  | some found =>
      obtain ⟨key, row⟩ := found
      simp only [get?_call_setSync, writtenKv]
      constructor
      · rintro h key' row' hfound
        obtain ⟨rfl, rfl⟩ : key = key' ∧ row = row' := by simpa using hfound
        have hsubject := h r.effectiveSubject
        rw [if_pos rfl] at hsubject
        cases hget : s.kv.db.stateVariables.get? r.effectiveSubject with
        | none => rw [hget] at hsubject; exact absurd hsubject (by simp)
        | some row' =>
            have hlookup := lookup_of_get? hget
            rw [show s.kv.db.stateVariables.lookup r.effectiveSubject = some (key, row) from
              hbackup] at hlookup
            obtain ⟨hkey, rfl⟩ : key = r.effectiveSubject ∧ row = row' := by simpa using hlookup
            rw [hget] at hsubject
            have hlive := Option.some.inj hsubject
            refine ⟨hkey, ?_, ?_, ?_⟩
            · exact (congrArg Prod.fst hlive).symm
            · exact (congrArg (fun c => c.2.1) hlive).symm
            · exact (congrArg (fun c => c.2.2) hlive).symm
      · intro h key'
        obtain ⟨rfl, hvalue, hconfidence, hmetadata⟩ := h key row rfl
        have hget := get?_of_lookup hbackup
        split_ifs with hkey hkey'
        · rw [← hkey, hget]
          refine congrArg some (Prod.ext hvalue.symm (Prod.ext hconfidence.symm hmetadata.symm))
        · exact absurd hkey' hkey
        · rfl

/-- **All or nothing**: the stores after an insertion that raises are those before it if and only if
what it had changed is undone, or was there before. -/
theorem all_or_nothing_iff (env : SagaEnv) (s : SagaStores) (r : MemoryRecord) {err : PyError}
    (hfail : (execute env s r).2 = .error err) :
    SameStores s (execute env s r).1 ↔ Undone env s r := by
  have hleaves := leaves_execute hfail
  have hgraph : KuzuGraphStore.SameGraph s.graph (execute env s r).1.graph ↔
      (GraphApplied env s → s.graph.GraphReturns r) := by
    by_cases happlied : GraphApplied env s
    · rw [hleaves.graph happlied, KuzuGraphStore.sameGraph_removeEdge_addRecord_iff]
      exact ⟨fun h _ => h, fun h => h happlied⟩
    · rw [hleaves.noGraph happlied]
      exact iff_of_true (KuzuGraphStore.SameGraph.refl _) fun h => absurd h happlied
  have hkv : SameStates s.kv (execute env s r).1.kv ↔
      (RowWritten env s r → ¬KvApplied env s r → RowSame env s r) ∧
        (KvApplied env s r → KvReturns env s r) := by
    by_cases hrow : RowWritten env s r
    · by_cases happlied : KvApplied env s r
      · rw [hleaves.kv happlied, sameStates_restoredKv_iff]
        exact ⟨fun h => ⟨fun _ hnot => absurd happlied hnot, fun _ => h⟩, fun h => h.2 happlied⟩
      · have hwritten : SameStates s.kv (execute env s r).1.kv ↔ RowSame env s r := by
          rcases hleaves.row hrow happlied with hafter | hafter
          · rw [hafter]
            exact sameStates_of_written fun key => get?_writtenRow key
          · rw [hafter]
            exact sameStates_of_written fun key => get?_call_setSync ..
        rw [hwritten]
        exact ⟨fun h => ⟨fun _ _ => h, fun h' => absurd h' happlied⟩,
          fun h => h.1 hrow happlied⟩
    · rw [hleaves.noRow hrow]
      exact iff_of_true (fun _ => rfl)
        ⟨fun h => absurd h hrow, fun h => absurd h.1 hrow⟩
  have hvectors : (execute env s r).1.vectors = s.vectors ↔
      (VectorApplied env s r → ∀ points, s.vectors = some points →
        VectorStore.PointsReturn points r.upsertKey r.vectorText r) := by
    by_cases happlied : VectorApplied env s r
    · rw [hleaves.vectors happlied]
      cases s.vectors with
      | none => exact iff_of_true rfl fun _ _ h => absurd h (by simp)
      | some points =>
          rw [Option.map_some, Option.some.injEq, VectorStore.deleteByUpsertKey_insert_eq_iff]
          constructor
          · rintro h _ _ ⟨⟩
            exact h
          · exact fun h => h happlied points rfl
    · rw [hleaves.noVectors happlied]
      exact iff_of_true rfl fun h => absurd h happlied
  constructor
  · intro h
    obtain ⟨hrow, hstate⟩ := hkv.mp h.kv
    exact ⟨hgraph.mp h.graph, hrow, hstate, hvectors.mp h.vectors⟩
  · intro h
    exact ⟨hgraph.mpr h.graph, hkv.mpr ⟨h.row, h.kv⟩, hvectors.mpr h.vectors⟩

/-! ### An insertion whose intent cannot be committed -/

/-- An environment in which the commit raises. -/
def failingCommit : SagaEnv where
  rt := .sample
  fault c := match c with
    | .markCommitted => some ⟨.operationalError, "database is locked"⟩
    | _ => none
  txId := "tx_1"
  setAt := 2
  restoredAt := 3

lemma sampleConfidence_nonneg : (0 : ℚ) ≤ 1 := zero_le_one

lemma sampleConfidence_le_one : (1 : ℚ) ≤ 1 := le_rfl

/-- A record that is not a state variable. -/
def sampleRecord : MemoryRecord where
  subject := "alice"
  predicate := "knows"
  object := "bob"
  timestamp := 1
  confidence_nonneg := sampleConfidence_nonneg
  confidence_le_one := sampleConfidence_le_one

/-- Stores over a graph with the nodes of the record. -/
def nodesOnly : SagaStores where
  graph := (KuzuGraphStore.empty.addRecord sampleRecord).removeEdge sampleRecord.removedEdge
  kv := VerifiedKVStore.init
  vectors := some []
  intents := ∅

/-- Stores over a graph with the relation of the record. -/
def relationThere : SagaStores where
  graph := KuzuGraphStore.empty.addRecord sampleRecord
  kv := VerifiedKVStore.init
  vectors := some []
  intents := ∅

theorem all_or_nothing_nodesOnly :
    SameStores nodesOnly (execute failingCommit nodesOnly sampleRecord).1 ↔
      Undone failingCommit nodesOnly sampleRecord :=
  @all_or_nothing_iff failingCommit nodesOnly sampleRecord
    ⟨.operationalError, "database is locked"⟩ rfl

/-- A relation that was there before is removed by the compensation. -/
theorem relation_lost : ¬ ∀ (env : SagaEnv) (s : SagaStores) (r : MemoryRecord) (err : PyError),
    (execute env s r).2 = .error err → SameStores s (execute env s r).1 := by
  intro h
  have hedge := (h failingCommit relationThere sampleRecord _ rfl).graph.edges
    ⟨"alice", "knows", "bob"⟩
  have hbefore : (relationThere.graph.edges.get? ⟨"alice", "knows", "bob"⟩).isSome = true := by
    decide
  have hafter : ((execute failingCommit relationThere sampleRecord).1.graph.edges.get?
      ⟨"alice", "knows", "bob"⟩).isSome = false := by
    decide
  rw [hedge, hbefore] at hafter
  exact Bool.noConfusion hafter

end TransactionalDeltaTensor

end AtlasMemory
