import AtlasMemory.Cognitive.Compensation

/-!
# A write that raises

A write whose vector or whose relations cannot be inserted compensates what it has done so far and
raises.  The stages before the savepoint have by then marked the superseded record, purged its
points and wired the revision into the graph, and the two compensations undo different parts of
that: `unchanged_iff` says of each store when it is left as it was.
-/

namespace AtlasMemory

namespace WritePath

variable {ρ : Type} (env : WriteEnv ρ)

/-! ## Before the savepoint -/

/-- The relations before the first one whose insertion raises. -/
def upToFault (es : List Edge) : List Edge := es.takeWhile fun e => (env.relationFault e).isNone

def supersededEdges (oldKey : Option String) (key : String) : List Edge :=
  match oldKey with
  | some k => if k ≠ key then [⟨k, "SUPERSEDED_BY", key⟩] else []
  | none => []

/-- The relations that are wired before the savepoint. -/
def wiredEdges (a : Accepted) : List Edge :=
  upToFault env (supersededEdges a.oldKey a.key) ++
    match valueRevised env a.items a.key a.value with
    | some prior => upToFault env (transitionEdges env a.key prior.value a.value)
    | none => []

/-- The keys whose points are purged before the savepoint. -/
def purgedKeys (a : Accepted) : List String :=
  match a.oldKey with
  | some k =>
    if k ≠ a.key then (keysToPurge k).takeWhile fun k => (env.purgeFault k).isNone else []
  | none => []

def revisedStores (s : Stores ρ) (a : Accepted) (now : ℚ) : Stores ρ where
  kv := s.kv.run env.rt (revisionCalls env s a.items a.key now a.oldKey)
  hot := purgedHot s.hot a.oldKey
  vectors := VectorStore.deleteAll s.vectors (purgedKeys env a)
  graph := s.graph.addAll a.confidence (wiredEdges env a)

variable {env} {s : Stores ρ} {req : WriteRequest ρ} {times : WriteTimes} {a : Accepted}

lemma wireRelations_eq (g : KnowledgeGraph) (confidence : ℚ) (es : List Edge) :
    wireRelations env g confidence es = g.addAll confidence (upToFault env es) := by
  induction es generalizing g with
  | nil => rfl
  | cons e es ih =>
      unfold wireRelations upToFault
      cases hfault : env.relationFault e with
      | some err => simp [List.takeWhile, hfault, KnowledgeGraph.addAll]
      | none =>
          rw [List.takeWhile_cons_of_pos (by simp [hfault])]
          exact ih (g.addRelation e confidence)

lemma purgePoints_eq (points : List (VectorPoint ρ)) (keys : List String) :
    (purgePoints env points keys).1 =
      VectorStore.deleteAll points (keys.takeWhile fun k => (env.purgeFault k).isNone) := by
  induction keys generalizing points with
  | nil => rfl
  | cons k ks ih =>
      unfold purgePoints
      cases hfault : env.purgeFault k with
      | some err => simp [List.takeWhile, hfault, VectorStore.deleteAll]
      | none =>
          rw [List.takeWhile_cons_of_pos (by simp [hfault])]
          exact ih (VectorStore.deleteByUpsertKey points k)

lemma reviseBelief_eq (items : PyDict String MemoryItem) (oldKey key : String)
    (confidence now : ℚ) :
    (reviseBelief env s items oldKey key confidence now).1 =
      ⟨s.kv.run env.rt (revisionCalls env s items key now (some oldKey)), s.hot.purge oldKey,
        VectorStore.deleteAll s.vectors (if oldKey ≠ key then
          (keysToPurge oldKey).takeWhile (fun k => (env.purgeFault k).isNone) else []),
        s.graph.addAll confidence (upToFault env (supersededEdges (some oldKey) key))⟩ := by
  have hkv := @kv_reviseBelief _ env s items oldKey key confidence now
  rw [← hkv]
  unfold reviseBelief supersededEdges
  dsimp only
  by_cases hne : oldKey ≠ key
  · rw [if_pos hne, if_pos hne, if_pos hne, if_pos hne, ← purgePoints_eq, wireRelations_eq]
  · rw [if_neg hne, if_neg hne, if_neg hne, if_neg hne]
    rfl

/-- **The stores when the savepoint is set**, by what is to be persisted. -/
lemma revise_eq {key : String} {value : Json} {confidence : ℚ} {metadata : PyDict String Json}
    {reason : String} {items : PyDict String MemoryItem} {r : ArbitrationResult} {now : ℚ}
    (h : (revise env s key value confidence metadata reason items r now).2 = some a) :
    (revise env s key value confidence metadata reason items r now).1 =
      revisedStores env s a now := by
  unfold revise at h ⊢
  dsimp only at h ⊢
  by_cases hrev : r.isBeliefRevision = true
  · rw [if_pos hrev] at h ⊢
    dsimp only at h ⊢
    rw [reviseBelief_eq]
    cases hprior : valueRevised env items key value with
    | none =>
        rw [hprior] at h
        obtain rfl := Option.some.inj h
        unfold revisedStores wiredEdges
        dsimp only
        rw [hprior, List.append_nil]
        rfl
    | some prior =>
        rw [hprior] at h
        dsimp only at h ⊢
        split at h
        · cases h
        · obtain rfl := Option.some.inj h
          unfold revisedStores wiredEdges
          dsimp only
          rw [hprior, KnowledgeGraph.addAll_append, wireRelations_eq]
          rfl
  · rw [if_neg hrev] at h ⊢
    dsimp only at h ⊢
    cases hprior : valueRevised env items key value with
    | none =>
        rw [hprior] at h
        obtain rfl := Option.some.inj h
        unfold revisedStores wiredEdges
        dsimp only
        rw [hprior]
        rfl
    | some prior =>
        rw [hprior] at h
        dsimp only at h ⊢
        split at h
        · cases h
        · obtain rfl := Option.some.inj h
          unfold revisedStores wiredEdges
          dsimp only
          rw [hprior, KnowledgeGraph.addAll_append, wireRelations_eq]
          rfl

/-! ## Where a write raises -/

/-- The write passes the gates and the arbitration, and gets to its savepoint with `a`. -/
def Reaches (env : WriteEnv ρ) (s : Stores ρ) (req : WriteRequest ρ) (times : WriteTimes)
    (a : Accepted) : Prop :=
  ∃ input r, normalizeWriteInput env req = .ok input ∧ ¬StoppedByGate env input ∧
    ¬TakenForReplay env s req input ∧
    env.arbiter.arbitrate env.rt env.lex (incomingOf env req input)
      (arbitrated env s req input times) = .ok r ∧ rejects r = false ∧
    (revisedBy env s req (incomingOf env req input) (existingItems env s input.key input.value
      (incomingOf env req input).metadata req.sessionId times.scanned) r times).2 = some a

/-- What the insertion of the relations does, in the stores when the savepoint is set. -/
def inserted (env : WriteEnv ρ) (s : Stores ρ) (a : Accepted) :
    KnowledgeGraph × List Edge × Except PyError ℕ :=
  autoInsertGraphEdges env (s.graph.addAll a.confidence (wiredEdges env a)) a.key a.value a.metadata
    a.confidence

/-- The insertion that raises. -/
inductive FailurePoint
  | vector
  | graph

/-- The insertion raises. -/
def RaisesAt (env : WriteEnv ρ) (s : Stores ρ) (req : WriteRequest ρ) (a : Accepted)
    (err : PyError) : FailurePoint → Prop
  | .vector => ∃ record, req.vectorRecord = some record ∧
      env.vectorFault (vectorPoint env a record) = some err
  | .graph => (∀ record, req.vectorRecord = some record →
      env.vectorFault (vectorPoint env a record) = none) ∧
      (∃ sourceType, (a.metadata.get? "source_type").getD (.str "user_explicit") =
        .str sourceType) ∧ (inserted env s a).2.2 = .error err

lemma write_of_reaches (h : Reaches env s req times a) :
    write env s req times =
      persist env s (revisedStores env s a times.revised) a req.vectorRecord times := by
  obtain ⟨input, r, hinput, hgate, hreplay, harbitrate, hrejects, hrevised⟩ := h
  have hstores := revise_eq hrevised
  unfold revisedBy at hrevised
  rw [write_eq_arbitrated hinput hgate hreplay]
  unfold writeArbitrated
  dsimp only
  split
  · rename_i err herr
    cases herr.symm.trans harbitrate
  · rename_i r' hr'
    obtain rfl : r' = r := Except.ok.inj (hr'.symm.trans harbitrate)
    rw [if_neg (by rw [hrejects]; decide)]
    split
    · rename_i revised hnone
      cases (congrArg Prod.snd hnone).symm.trans hrevised
    · rename_i revised a' hsome
      obtain rfl : a' = a := Option.some.inj ((congrArg Prod.snd hsome).symm.trans hrevised)
      rw [← hstores]
      exact congrArg (fun s' => persist env s s' a' req.vectorRecord times)
        (congrArg Prod.fst hsome).symm

/-- The store with the savepoint and the record of the write. -/
def savedStores (env : WriteEnv ρ) (s : Stores ρ) (a : Accepted) (times : WriteTimes) : Stores ρ :=
  let revised := revisedStores env s a times.revised
  { revised with kv := savedKv env revised.kv a times }

/-- The points when the relations are inserted. -/
def insertedPoints (env : WriteEnv ρ) (s : Stores ρ) (req : WriteRequest ρ) (a : Accepted)
    (times : WriteTimes) : List (VectorPoint ρ) :=
  let points := (revisedStores env s a times.revised).vectors
  match req.vectorRecord with
  | some record =>
    let point := vectorPoint env a record
    VectorStore.insert points point.upsertKey point.text point.record
  | none => points

lemma write_of_vector {err : PyError} (h : Reaches env s req times a)
    (hraise : RaisesAt env s req a err .vector) :
    write env s req times =
      (compensateVector env s (savedStores env s a times) a times.restored, .error err) := by
  obtain ⟨record, hrecord, hfault⟩ := hraise
  rw [write_of_reaches h, hrecord]
  unfold persist
  dsimp only
  rw [hfault]
  rfl

lemma write_of_graph {err : PyError} (h : Reaches env s req times a)
    (hraise : RaisesAt env s req a err .graph) : ∃ sourceType,
      write env s req times =
        (compensateGraph env s { savedStores env s a times with
          vectors := insertedPoints env s req a times
          hot := (purgedHot s.hot a.oldKey).update env.rt a.key a.value a.confidence a.metadata
            sourceType times.buffered
          graph := (inserted env s a).1 } a (inserted env s a).2.1 times.restored, .error err) := by
  obtain ⟨hvector, ⟨sourceType, hsource⟩, hfault⟩ := hraise
  refine ⟨sourceType, ?_⟩
  have hfinish : ∀ points, finish env s { savedStores env s a times with vectors := points } a times =
      (compensateGraph env s { savedStores env s a times with
        vectors := points
        hot := (purgedHot s.hot a.oldKey).update env.rt a.key a.value a.confidence a.metadata
          sourceType times.buffered
        graph := (inserted env s a).1 } a (inserted env s a).2.1 times.restored, .error err) := by
    intro points
    unfold finish
    rw [hsource]
    have hsame : autoInsertGraphEdges env (savedStores env s a times).graph a.key a.value a.metadata
        a.confidence = inserted env s a := rfl
    dsimp only
    rw [hsame, hfault]
    rfl
  rw [write_of_reaches h]
  unfold persist insertedPoints
  cases hrecord : req.vectorRecord with
  | none => exact hfinish _
  | some record =>
      dsimp only
      rw [hvector record hrecord]
      exact hfinish _

/-! ## The relations that are inserted -/

/-- The relations that pass the filters, as given and as stored, up to the first one whose insertion
raises, and its fault. -/
def passedRelations (env : WriteEnv ρ) : List Edge → List (Edge × Edge) × Option PyError
  | [] => ([], none)
  | e :: es =>
    match committed env e with
    | none => passedRelations env es
    | some e' =>
      match env.relationFault e' with
      | some err => ([], some err)
      | none => ((e, e') :: (passedRelations env es).1, (passedRelations env es).2)

lemma commitRelations_eq (confidence : ℚ) (g : KnowledgeGraph) (es : List Edge) :
    commitRelations env confidence g es =
      (g.addAll confidence ((passedRelations env es).1.map Prod.snd),
        (passedRelations env es).1.map Prod.fst, (passedRelations env es).2) := by
  induction es generalizing g with
  | nil => rfl
  | cons e es ih =>
      unfold commitRelations passedRelations
      cases committed env e with
      | none => exact ih g
      | some e' =>
          dsimp only
          cases env.relationFault e' with
          | some err => rfl
          | none =>
              dsimp only
              rw [ih (g.addRelation e' confidence)]
              rfl

/-- The compensation takes the relation out: it is tracked, or it touches the passage of the key. -/
def Dropped (env : WriteEnv ρ) (s : Stores ρ) (a : Accepted) (e : Edge) : Prop :=
  e ∈ (inserted env s a).2.1 ∨
    ((env.indexPassage.isSome && (inserted env s a).1.hasPassage a.key) = true ∧
      KnowledgeGraph.Touches a.key e)

instance (env : WriteEnv ρ) (s : Stores ρ) (a : Accepted) (e : Edge) :
    Decidable (Dropped env s a e) :=
  inferInstanceAs (Decidable (_ ∨ _))

/-- Up to the fault the relation is left as it was before the write: when a relation raises, it is not
among those that were added, or it is absorbed; when the index of the passages raises, it is after
the extraction and the indexing what it was. -/
def LeftAsItWas (env : WriteEnv ρ) (s : Stores ρ) (a : Accepted) (e : Edge) : Prop :=
  match edgePlan env a.key a.value a.metadata with
  | .relations es =>
    match (passedRelations env es).2 with
    | some _ => e ∈ wiredEdges env a ++ (passedRelations env es).1.map Prod.snd →
        s.graph.Absorbs a.confidence e
    | none => (inserted env s a).1.edges.get? e = s.graph.edges.get? e
  | .prose _ _ => (inserted env s a).1.edges.get? e = s.graph.edges.get? e

lemma leftAsItWas_iff {e : Edge} :
    LeftAsItWas env s a e ↔ (inserted env s a).1.edges.get? e = s.graph.edges.get? e := by
  unfold LeftAsItWas
  split
  · rename_i es hplan
    split
    · rename_i err herr
      have hgraph : (inserted env s a).1 = s.graph.addAll a.confidence
          (wiredEdges env a ++ (passedRelations env es).1.map Prod.snd) := by
        unfold inserted autoInsertGraphEdges
        rw [hplan]
        dsimp only
        rw [commitRelations_eq, herr, KnowledgeGraph.addAll_append]
      rw [hgraph, KnowledgeGraph.get?_addAll_eq_iff]
    · exact Iff.rfl
  · exact Iff.rfl

lemma get?_compensated (e : Edge) :
    (if env.indexPassage.isSome &&
        ((inserted env s a).2.1.foldl KnowledgeGraph.removeEdge (inserted env s a).1).hasPassage a.key
      then ((inserted env s a).2.1.foldl KnowledgeGraph.removeEdge
        (inserted env s a).1).rollbackDualNodeRecord a.key
      else (inserted env s a).2.1.foldl KnowledgeGraph.removeEdge (inserted env s a).1).edges.get? e =
      if Dropped env s a e then none else (inserted env s a).1.edges.get? e := by
  have hpassage : ((inserted env s a).2.1.foldl KnowledgeGraph.removeEdge
      (inserted env s a).1).hasPassage a.key = (inserted env s a).1.hasPassage a.key := by
    unfold KnowledgeGraph.hasPassage
    rw [KnowledgeGraph.passages_foldl_removeEdge]
  rw [hpassage]
  by_cases hindexed : (env.indexPassage.isSome && (inserted env s a).1.hasPassage a.key) = true
  · rw [if_pos hindexed, KnowledgeGraph.get?_rollbackDualNodeRecord,
      KnowledgeGraph.get?_foldl_removeEdge]
    by_cases htouch : KnowledgeGraph.Touches a.key e
    · have hdropped : Dropped env s a e := Or.inr ⟨hindexed, htouch⟩
      rw [if_pos htouch, if_pos hdropped]
    · have hdropped : Dropped env s a e ↔ e ∈ (inserted env s a).2.1 :=
        ⟨fun h => h.resolve_right fun h => htouch h.2, Or.inl⟩
      rw [if_neg htouch]
      simp only [hdropped]
  · have hdropped : Dropped env s a e ↔ e ∈ (inserted env s a).2.1 :=
      ⟨fun h => h.resolve_right fun h => hindexed h.1, Or.inl⟩
    rw [if_neg hindexed, KnowledgeGraph.get?_foldl_removeEdge]
    simp only [hdropped]

/-- The relations are those before the write if and only if none of them is dropped, and every other
one is left as it was. -/
lemma agree_compensated_iff {edges : PyDict Edge ℚ} (hedges : ∀ e, edges.get? e =
    if Dropped env s a e then none else (inserted env s a).1.edges.get? e) :
    edges.Agree s.graph.edges ↔ ∀ e, if Dropped env s a e then s.graph.edges.get? e = none
      else LeftAsItWas env s a e := by
  unfold PyDict.Agree
  refine forall_congr' fun e => ?_
  rw [hedges]
  split_ifs with hdropped
  · exact eq_comm
  · exact leftAsItWas_iff.symm

/-! ## The superseded record -/

/-- The compensation puts the superseded record back. -/
def putsBack (a : Accepted) : FailurePoint → String → Bool
  | .vector, _ => true
  | .graph, k => decide (k ≠ a.key)

/-- The reason of the write that puts it back. -/
def restoreReason : FailurePoint → String
  | .vector => "rollback_vector_failure"
  | .graph => "rollback_restore"

/-- The calls outside the savepoint: the marks of the belief revision, and what the compensation puts
back. -/
def outerCalls (env : WriteEnv ρ) (s : Stores ρ) (a : Accepted) (times : WriteTimes)
    (p : FailurePoint) : List KvCall :=
  revisionCalls env s a.items a.key times.revised a.oldKey ++
    restoreCalls a.backupOldItem (putsBack a p) (restoreReason p) times.restored

/-- What the calls outside the savepoint leave under the superseded key: the record as it was read, put
back; the marked record, when it is the key of the write and a relation has failed; or the note that
points of it are left, when the arbitration did not see it and the purge raised. -/
def leftRewrite (env : WriteEnv ρ) (s : Stores ρ) (a : Accepted) (times : WriteTimes)
    (p : FailurePoint) : Option (SetArgs × ℚ) :=
  a.oldKey.bind fun k =>
    match a.items.get? k with
    | some m =>
      if putsBack a p k then some (restoreArgs k m (restoreReason p), times.restored)
      else some (supersedeArgs env k a.key m times.revised, times.revised)
    | none =>
      if purges env s k a.key then none
      else (s.kv.db.stateVariables.lookup k).map fun stored =>
        (tombstoneArgs k (stored.2.toMemoryItem env.rt stored.1), times.revised)

lemma rewrites_outerCalls {k : String} (hk : a.oldKey = some k) (p : FailurePoint) :
    Rewrites k (outerCalls env s a times p) := by
  unfold outerCalls revisionCalls restoreCalls Accepted.backupOldItem
  rw [hk]
  intro c hc
  rcases List.mem_append.mp hc with hc | hc
  · have hmark : ∀ {items : PyDict String MemoryItem}, c ∈ markCalls env items k a.key times.revised →
        ∃ b now, c = .setSync b now ∧ b.key = k := by
      intro items hmem
      unfold markCalls at hmem
      split at hmem
      · exact ⟨_, _, List.mem_singleton.mp hmem, rfl⟩
      · cases hmem
    dsimp only at hc
    split at hc
    · exact hmark hc
    · rcases List.mem_append.mp hc with hc | hc
      · exact hmark hc
      · unfold tombstoneCalls at hc
        split at hc
        · exact ⟨_, _, List.mem_singleton.mp hc, rfl⟩
        · cases hc
  · dsimp only [Option.bind_some] at hc
    cases hitem : a.items.get? k with
    | none =>
        rw [hitem] at hc
        cases hc
    | some m =>
        rw [hitem] at hc
        dsimp only [Option.map_some] at hc
        split_ifs at hc
        · exact ⟨_, _, List.mem_singleton.mp hc, rfl⟩
        · cases hc

lemma lastSet_outerCalls (p : FailurePoint) :
    lastSet (outerCalls env s a times p) = leftRewrite env s a times p := by
  unfold outerCalls leftRewrite Accepted.backupOldItem
  rw [lastSet_append]
  cases a.oldKey with
  | none => rfl
  | some k =>
      unfold revisionCalls markCalls restoreCalls
      dsimp only [Option.bind_some]
      cases a.items.get? k with
      | some m =>
          dsimp only [Option.map_some]
          by_cases hback : putsBack a p k = true
          · rw [if_pos hback, if_pos hback]
            rfl
          · -- the record of the key itself, which has no points to purge
            have hself : k = a.key := by
              cases p with
              | vector => exact absurd rfl hback
              | graph => exact not_not.mp fun hne => hback (decide_eq_true hne)
            have hpurges : purges env s k a.key = true := by
              unfold purges
              rw [if_neg (not_not.mpr hself)]
            rw [if_neg hback, if_neg hback, if_pos hpurges]
            rfl
      | none =>
          dsimp only [Option.map_none]
          by_cases hpurges : purges env s k a.key = true
          · rw [if_pos hpurges, if_pos hpurges]
            rfl
          · rw [if_neg hpurges, if_neg hpurges]
            unfold tombstoneCalls
            rw [show s.kv.run env.rt [] = s.kv from rfl]
            cases s.kv.db.stateVariables.lookup k with
            | none => rfl
            | some stored => rfl

lemma hasSavepoint_savedKv (kv : VerifiedKVStore) : (savedKv env kv a times).hasSavepoint sagaTx := by
  have hsaved : (savedKv env kv a times).tables.saved = (sagaTx, kv.db) :: kv.tables.saved :=
    @saved_savepoint env.rt kv
  unfold VerifiedKVStore.hasSavepoint
  rw [lower_sagaTx]
  simp [SavepointStack.rollbackTo, SavepointStack.innermost, hsaved]

lemma db_rollback_savedKv (kv : VerifiedKVStore) :
    ((savedKv env kv a times).call env.rt (.rollbackSavepoint sagaTx)).db = kv.db :=
  db_rollback (@saved_savepoint env.rt kv)

/-- The live columns after the rollback and the calls after it are those after the calls outside the
savepoint. -/
lemma live_compensated (p : FailurePoint) (key : String) :
    ((((savedKv env (revisedStores env s a times.revised).kv a times).run env.rt
      (.rollbackSavepoint sagaTx :: restoreCalls a.backupOldItem (putsBack a p) (restoreReason p)
        times.restored)).db.stateVariables.get? key).map StateRow.live) =
      ((s.kv.run env.rt (outerCalls env s a times p)).db.stateVariables.get? key).map
        StateRow.live := by
  have hdb := @db_rollback_savedKv _ env times a (revisedStores env s a times.revised).kv
  unfold outerCalls
  rw [run_append, VerifiedKVStore.run_cons]
  cases hk : a.oldKey with
  | none =>
      have hnone : a.backupOldItem = none := by
        unfold Accepted.backupOldItem
        rw [hk]
        rfl
      have hrest : restoreCalls none (putsBack a p) (restoreReason p) times.restored = [] := rfl
      have hnil : ∀ kv : VerifiedKVStore, kv.run env.rt [] = kv := fun _ => rfl
      rw [hnone, hrest, hnil, hnil, hdb]
      unfold revisedStores
      rw [hk]
  | some k =>
      have hrewrites : Rewrites k (restoreCalls a.backupOldItem (putsBack a p) (restoreReason p)
          times.restored) := fun c hc =>
        @rewrites_outerCalls _ env s times a k hk p c (List.mem_append_right _ hc)
      rw [live_run_rewrites hrewrites, live_run_rewrites hrewrites, hdb]
      unfold revisedStores
      rw [hk]

/-! ## Atomicity -/

/-- The live columns of the records, the entries of the buffer, the points and the relations are those
before the call. -/
structure Unchanged (before after : Stores ρ) : Prop where
  kv : ∀ key, (after.kv.db.stateVariables.get? key).map StateRow.live =
    (before.kv.db.stateVariables.get? key).map StateRow.live
  hot : after.hot.buffer.Perm before.hot.buffer
  vectors : after.vectors = before.vectors
  graph : after.graph.edges.Agree before.graph.edges

/-- The keys whose points are deleted: those of the superseded key, and when a relation fails those of
the written key. -/
def deletedKeys (env : WriteEnv ρ) (a : Accepted) (p : FailurePoint) : List String :=
  purgedKeys env a ++ match p with
    | .vector => []
    | .graph => [VectorStore.normalizeUpsertKey a.key, "kv:" ++ VectorStore.normalizeUpsertKey a.key]

/-- What the call touched before it raised is compensated: the record that is left under the superseded
key is the one that was there; no entry of another key is pushed out of the buffer; no point was
stored under a key whose points are deleted; and each relation that is wired or inserted is taken out
again without having been there before, or was there with at least the confidence of the write. -/
structure Restored (env : WriteEnv ρ) (s : Stores ρ) (a : Accepted) (times : WriteTimes)
    (p : FailurePoint) : Prop where
  kv : ∀ b now, leftRewrite env s a times p = some (b, now) →
    (s.kv.db.stateVariables.get? b.key).map StateRow.live = some (liveOf env.rt b now)
  hot : match p with
    | .vector => True
    | .graph => (otherEntries s.hot a).length < s.hot.maxlen ∨ otherEntries s.hot a = []
  vectors : ∀ q ∈ s.vectors, VectorStore.survives (deletedKeys env a p) q = true
  graph : match p with
    | .vector => ∀ e ∈ wiredEdges env a, s.graph.Absorbs a.confidence e
    | .graph => ∀ e, if Dropped env s a e then s.graph.edges.get? e = none
        else LeftAsItWas env s a e

lemma live_outerCalls_iff (p : FailurePoint) :
    (∀ key, ((s.kv.run env.rt (outerCalls env s a times p)).db.stateVariables.get? key).map
      StateRow.live = (s.kv.db.stateVariables.get? key).map StateRow.live) ↔
      ∀ b now, leftRewrite env s a times p = some (b, now) →
        (s.kv.db.stateVariables.get? b.key).map StateRow.live = some (liveOf env.rt b now) := by
  cases hk : a.oldKey with
  | none =>
      have hleft : leftRewrite env s a times p = none := by
        unfold leftRewrite
        rw [hk]
        rfl
      have hnil : outerCalls env s a times p = [] := by
        unfold outerCalls Accepted.backupOldItem
        rw [hk]
        rfl
      rw [hleft, hnil]
      exact ⟨fun _ _ _ h => (nomatch h), fun _ _ => rfl⟩
  | some k =>
      have hrewrites := @rewrites_outerCalls _ env s times a k hk p
      rw [live_run_rewrites_iff hrewrites, lastSet_outerCalls]
      refine forall_congr' fun b => forall_congr' fun now => ?_
      refine imp_congr_right fun hleft => ?_
      have hkey : b.key = k := by
        unfold leftRewrite at hleft
        rw [hk] at hleft
        dsimp only [Option.bind_some] at hleft
        split at hleft
        · split_ifs at hleft
          · rw [← (Prod.mk.inj (Option.some.inj hleft)).1]
            rfl
          · rw [← (Prod.mk.inj (Option.some.inj hleft)).1]
            rfl
        · split_ifs at hleft
          obtain ⟨stored, -, hstored⟩ := Option.map_eq_some_iff.mp hleft
          rw [← (Prod.mk.inj hstored).1]
          rfl
      rw [hkey]

lemma unchanged_vector_iff (hhot : s.hot.Valid) :
    Unchanged s (compensateVector env s (savedStores env s a times) a times.restored) ↔
      Restored env s a times .vector := by
  have hkv : (compensateVector env s (savedStores env s a times) a times.restored).kv =
      (savedKv env (revisedStores env s a times.revised).kv a times).run env.rt
        (.rollbackSavepoint sagaTx :: restoreCalls a.backupOldItem (putsBack a .vector)
          (restoreReason .vector) times.restored) := by
    have hsaved := @hasSavepoint_savedKv _ env times a (revisedStores env s a times.revised).kv
    rw [kv_compensateVector]
    unfold savedStores
    dsimp only
    rw [hsaved]
    rfl
  have hvectors : (compensateVector env s (savedStores env s a times) a times.restored).vectors =
      VectorStore.deleteAll s.vectors (deletedKeys env a .vector) := by
    unfold deletedKeys
    rw [List.append_nil]
    rfl
  have hgraph : (compensateVector env s (savedStores env s a times) a times.restored).graph =
      s.graph.addAll a.confidence (wiredEdges env a) := rfl
  have hedges : (s.graph.addAll a.confidence (wiredEdges env a)).edges.Agree s.graph.edges ↔
      ∀ e ∈ wiredEdges env a, s.graph.Absorbs a.confidence e :=
    forall_congr' fun e => KnowledgeGraph.get?_addAll_eq_iff
  constructor
  · intro h
    refine ⟨(live_outerCalls_iff .vector).mp fun key => ?_, trivial, ?_, ?_⟩
    · rw [← live_compensated, ← hkv]
      exact h.kv key
    · exact VectorStore.deleteAll_eq_self_iff.mp (hvectors ▸ h.vectors)
    · exact hedges.mp (hgraph ▸ h.graph)
  · intro h
    refine ⟨fun key => ?_, hot_compensateVector hhot, ?_, ?_⟩
    · rw [hkv, live_compensated]
      exact (live_outerCalls_iff .vector).mpr h.kv key
    · rw [hvectors]
      exact VectorStore.deleteAll_eq_self_iff.mpr h.vectors
    · rw [hgraph]
      exact hedges.mpr h.graph

section Components

variable (before : Stores ρ) (tracked : List Edge) (now : ℚ)

lemma vectors_compensateGraph : (compensateGraph env before s a tracked now).vectors =
    VectorStore.deleteAll s.vectors [VectorStore.normalizeUpsertKey a.key,
      "kv:" ++ VectorStore.normalizeUpsertKey a.key] := by
  unfold compensateGraph VectorStore.deleteAll
  dsimp only

lemma graph_compensateGraph : (compensateGraph env before s a tracked now).graph =
    if env.indexPassage.isSome && (tracked.foldl KnowledgeGraph.removeEdge s.graph).hasPassage a.key
    then (tracked.foldl KnowledgeGraph.removeEdge s.graph).rollbackDualNodeRecord a.key
    else tracked.foldl KnowledgeGraph.removeEdge s.graph := by
  unfold compensateGraph
  rfl

lemma hot_compensateGraph : (compensateGraph env before s a tracked now).hot =
    restoreHot (restoreHot (s.hot.purge a.key) (a.backupHotTarget before.hot))
      (a.backupHotSuperseded before.hot) := by
  unfold compensateGraph
  rfl

end Components

lemma upsertKey_vectorPoint (record : ρ) :
    (vectorPoint env a record).upsertKey = VectorStore.normalizeUpsertKey a.key := by
  unfold vectorPoint
  dsimp only

lemma unchanged_graph_iff (hhot : s.hot.Valid) (sourceType : String) :
    Unchanged s (compensateGraph env s { savedStores env s a times with
      vectors := insertedPoints env s req a times
      hot := (purgedHot s.hot a.oldKey).update env.rt a.key a.value a.confidence a.metadata
        sourceType times.buffered
      graph := (inserted env s a).1 } a (inserted env s a).2.1 times.restored) ↔
        Restored env s a times .graph := by
  generalize hafter : compensateGraph env s { savedStores env s a times with
      vectors := insertedPoints env s req a times
      hot := (purgedHot s.hot a.oldKey).update env.rt a.key a.value a.confidence a.metadata
        sourceType times.buffered
      graph := (inserted env s a).1 } a (inserted env s a).2.1 times.restored = after
  have hkv : after.kv = (savedKv env (revisedStores env s a times.revised).kv a times).run env.rt
      (.rollbackSavepoint sagaTx :: restoreCalls a.backupOldItem (putsBack a .graph)
        (restoreReason .graph) times.restored) := by
    rw [← hafter, kv_compensateGraph]
    rfl
  have hvectors : after.vectors = VectorStore.deleteAll s.vectors (deletedKeys env a .graph) := by
    have hrevised : (revisedStores env s a times.revised).vectors =
        VectorStore.deleteAll s.vectors (purgedKeys env a) := rfl
    unfold deletedKeys
    rw [VectorStore.deleteAll_append, ← hafter, vectors_compensateGraph, ← hrevised]
    unfold insertedPoints
    dsimp only
    cases req.vectorRecord with
    | none => dsimp only
    | some record =>
        dsimp only
        rw [upsertKey_vectorPoint, VectorStore.deleteAll_insert]
  have hedges : after.graph.edges.Agree s.graph.edges ↔
      ∀ e, if Dropped env s a e then s.graph.edges.get? e = none else LeftAsItWas env s a e := by
    refine agree_compensated_iff fun e => ?_
    rw [← hafter, graph_compensateGraph]
    exact get?_compensated e
  have hhot : after.hot.buffer.Perm s.hot.buffer ↔
      (otherEntries s.hot a).length < s.hot.maxlen ∨ otherEntries s.hot a = [] := by
    rw [← hafter, hot_compensateGraph]
    exact hot_compensateGraph_iff hhot a.value a.confidence a.metadata sourceType times.buffered
  constructor
  · intro h
    refine ⟨(live_outerCalls_iff .graph).mp fun key => ?_, hhot.mp h.hot, ?_, hedges.mp h.graph⟩
    · rw [← live_compensated, ← hkv]
      exact h.kv key
    · exact VectorStore.deleteAll_eq_self_iff.mp (hvectors ▸ h.vectors)
  · intro h
    refine ⟨fun key => ?_, hhot.mpr h.hot, ?_, hedges.mpr h.graph⟩
    · rw [hkv, live_compensated]
      exact (live_outerCalls_iff .graph).mpr h.kv key
    · rw [hvectors]
      exact VectorStore.deleteAll_eq_self_iff.mpr h.vectors

lemma revise_of_none {key : String} {value : Json} {confidence : ℚ} {metadata : PyDict String Json}
    {reason : String} {items : PyDict String MemoryItem} {r : ArbitrationResult} {now : ℚ}
    (hrevision : r.isBeliefRevision = false) (hvalue : valueRevised env items key value = none) :
    (revise env s key value confidence metadata reason items r now).2 =
      some ⟨key, value, confidence, metadata, reason, items, r, none⟩ := by
  unfold revise
  dsimp only
  rw [if_neg (by rw [hrevision]; decide)]
  dsimp only
  rw [hvalue]

/-- The first write of a key gets to its savepoint with nothing to revise. -/
lemma reaches_failingWrite : ∃ a, Reaches faultyWriteEnv emptyStores failingWrite (timesAt 1) a ∧
    a.oldKey = none ∧ valueRevised faultyWriteEnv a.items a.key a.value = none := by
  have hinput : normalizeWriteInput faultyWriteEnv failingWrite =
      .ok ⟨"user:b", .str "y", .finite 1, ∅, none⟩ := rfl
  generalize hin : (⟨"user:b", .str "y", .finite 1, ∅, none⟩ : NormalizedInput) = input at hinput
  have harbitrate : (match faultyWriteEnv.arbiter.arbitrate faultyWriteEnv.rt faultyWriteEnv.lex
      (incomingOf faultyWriteEnv failingWrite input)
      (arbitrated faultyWriteEnv emptyStores failingWrite input (timesAt 1)) with
      | .ok r => !r.isBeliefRevision && !rejects r
      | .error _ => false) = true := by
    rw [← hin]
    decide
  have hgate : ¬StoppedByGate faultyWriteEnv input := by
    rw [← hin]
    decide
  have hreplay : ¬TakenForReplay faultyWriteEnv emptyStores failingWrite input := by
    rw [← hin]
    decide
  have hitems : valueRevised faultyWriteEnv (existingItems faultyWriteEnv emptyStores input.key
      input.value (incomingOf faultyWriteEnv failingWrite input).metadata failingWrite.sessionId 1)
        input.key input.value = none := by
    rw [← hin]
    rfl
  split at harbitrate
  · rename_i r hr
    obtain ⟨hrevision, hrejects⟩ := Bool.and_eq_true_iff.mp harbitrate
    rw [Bool.not_eq_true'] at hrevision hrejects
    exact ⟨_, ⟨input, r, hinput, hgate, hreplay, hr, hrejects, revise_of_none hrevision hitems⟩, rfl,
      hitems⟩
  · cases harbitrate

/-- The record of a key before its second write. -/
def heldStores : Stores Unit :=
  { emptyStores with
    kv := emptyStores.kv.call Runtime.sample
      (.setSync { key := "user:b", value := .str "x" } 1) }

end WritePath

end AtlasMemory
