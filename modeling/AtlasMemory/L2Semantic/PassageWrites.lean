import AtlasMemory.L2Semantic.KuzuGraph
import AtlasMemory.Foundations.PyText

/-!
# The writes of the index of a passage

`index_dual_node_passage` as the writes that it makes, one after another: changes of the multigraph,
which always succeed, and statements against the disk, each of which may fail.  A failure ends the
call, and its rollback follows; only the statement of `create_entity` is guarded, and its failure
goes unnoticed.  Without a failure the writes make up the operations of `KuzuGraph`.
-/

namespace AtlasMemory

namespace KuzuGraphStore

/-- One write of an index call. -/
inductive IndexWrite
  /-- `created_entities.append(ent)`. -/
  | created (name : String)
  /-- The node of a passage. -/
  | passageNode (pid : String) (row : PassageRow)
  /-- The node of an entity. -/
  | entityNode (name type : String)
  /-- The edge of a content, and the nodes at its ends. -/
  | containsEdge (pid ename : String) (weight now : ℚ)
  /-- The two edges of a synonym, and the nodes at their ends. -/
  | synonymEdges (ea eb : String) (sim now : ℚ)
  /-- `MERGE` of a passage. -/
  | mergePassage (pid : String) (row : PassageRow)
  /-- `MERGE` of an entity; a guarded one fails without notice. -/
  | mergeEntity (name type : String) (guarded : Bool)
  /-- `MERGE` of a content. -/
  | mergeContains (pid ename : String) (weight : ℚ)
  /-- `MERGE` of one direction of a synonym. -/
  | mergeSynonym (u v : String) (sim : ℚ)
  deriving DecidableEq

namespace IndexWrite

/-- The write is a statement against the disk. -/
def isStatement : IndexWrite → Bool
  | mergePassage .. | mergeEntity .. | mergeContains .. | mergeSynonym .. => true
  | _ => false

/-- The failure of the write goes unnoticed. -/
def isGuarded : IndexWrite → Bool
  | mergeEntity _ _ guarded => guarded
  | _ => false

def apply (g : KuzuGraphStore) : IndexWrite → KuzuGraphStore
  | created _ => g
  | passageNode pid row => { g with nodes := addPassageNode g.nodes pid row }
  | entityNode name type => { g with nodes := addNode g.nodes name type }
  | containsEdge pid ename weight now =>
    let nodes := if g.nodes.contains pid then g.nodes else addPassageNode g.nodes pid ⟨pid, ""⟩
    { g with
      nodes := ensureNode nodes ename "entity"
      edges := g.edges.set ⟨pid, containsKey, ename⟩ ⟨weight, now, none⟩ }
  | synonymEdges ea eb sim now =>
    { g with
      nodes := addNode (addNode g.nodes ea "entity") eb "entity"
      edges := (g.edges.set ⟨ea, synonymKey, eb⟩ ⟨sim, now, none⟩).set ⟨eb, synonymKey, ea⟩
        ⟨sim, now, none⟩ }
  | mergePassage pid row =>
    { g with disk := { g.disk with passages := g.disk.passages.set pid row } }
  | mergeEntity name type _ => { g with disk := g.disk.mergeEntity name type }
  | mergeContains pid ename weight =>
    { g with
      disk :=
        if g.disk.passages.contains pid then
          { g.disk with contains := KuzuTables.mergeLink g.disk.contains (pid, ename) weight }
        else g.disk }
  | mergeSynonym u v sim =>
    { g with disk := { g.disk with synonyms := KuzuTables.mergeLink g.disk.synonyms (u, v) sim } }

end IndexWrite

/-- The writes of an operation, with the note that `index_dual_node_passage` takes of an entity that
it creates. -/
def opWrites : GraphOp → List IndexWrite
  | .addEntity name type =>
    [.created name, .entityNode name type, .mergeEntity name type true]
  | .addPassage passageId sourceKey text =>
    let pid := PyString.strip passageId
    let row : PassageRow := ⟨PyString.strip sourceKey, PyString.strip text⟩
    if pid = "" then [] else [.passageNode pid row, .mergePassage pid row]
  | .addContains passageId entityName weight now persistToKuzu =>
    let pid := PyString.strip passageId
    let ename := PyString.strip entityName
    if pid = "" ∨ ename = "" then []
    else .containsEdge pid ename weight now ::
      if persistToKuzu then [.mergeEntity ename "entity" false, .mergeContains pid ename weight]
      else []
  | .addSynonym entityA entityB sim now =>
    let ea := PyString.strip entityA
    let eb := PyString.strip entityB
    if ea = "" ∨ eb = "" ∨ ea = eb then []
    else [.synonymEdges ea eb sim now, .mergeEntity ea "entity" false,
      .mergeEntity eb "entity" false, .mergeSynonym ea eb sim, .mergeSynonym eb ea sim]
  | _ => []

/-- The operations that `index_dual_node_passage` is made of. -/
def IsIndexOp : GraphOp → Prop
  | .addEntity .. | .addPassage .. | .addContains .. | .addSynonym .. => True
  | _ => False

lemma foldl_opWrites (g : KuzuGraphStore) {op : GraphOp} (h : IsIndexOp op) :
    (opWrites op).foldl IndexWrite.apply g = g.step op := by
  cases op with
  | addEntity name type => rfl
  | addPassage passageId sourceKey text =>
      rw [opWrites, step, addPassage]
      split_ifs <;> rfl
  | addContains passageId entityName weight now persistToKuzu =>
      rw [opWrites, step, addContains]
      dsimp only
      by_cases hempty : PyString.strip passageId = "" ∨ PyString.strip entityName = ""
      · rw [if_pos hempty, if_pos hempty]
        rfl
      · rw [if_neg hempty, if_neg hempty]
        cases persistToKuzu <;> rfl
  | addSynonym entityA entityB sim now =>
      rw [opWrites, step, addSynonym]
      dsimp only
      split_ifs <;> rfl
  | addRelation | removeEdge | markEntitySuperseded | rollbackDualNodeRecord
    | garbageCollectOrphans => exact absurd h id

/-! ## The call -/

/-- The writes of `index_dual_node_passage`. -/
def indexWrites (ie : OpenIE) (g : KuzuGraphStore) (a : IndexArgs) (now : ℚ) : List IndexWrite :=
  (indexOps ie g a now).flatMap opWrites

/-- The writes that are made when the statements at the positions `fails` fail, counted from `i`,
and whether the call raises. -/
def executed (fails : ℕ → Bool) : ℕ → List IndexWrite → List IndexWrite × Bool
  | _, [] => ([], false)
  | i, w :: ws =>
    if w.isStatement && fails i then
      if w.isGuarded then executed fails (i + 1) ws else ([], true)
    else
      let (done, raised) := executed fails (i + 1) ws
      (w :: done, raised)

/-- The entities that were noted as created. -/
def createdIn (ws : List IndexWrite) : List String :=
  ws.filterMap fun
    | .created name => some name
    | _ => none

/-- `index_dual_node_passage`, with its rollback, and whether it raises. -/
def indexOrRollback (ie : OpenIE) (g : KuzuGraphStore) (a : IndexArgs) (now : ℚ)
    (fails : ℕ → Bool) : KuzuGraphStore × Bool :=
  let result := executed fails 0 (indexWrites ie g a now)
  let g' := result.1.foldl IndexWrite.apply g
  (if result.2 then
      g'.rollbackDualNodeRecord (PyString.strip a.sourceKey) (createdIn result.1)
    else g', result.2)

lemma executed_of_no_fault (i : ℕ) (ws : List IndexWrite) :
    executed (fun _ => false) i ws = (ws, false) := by
  induction ws generalizing i with
  | nil => rfl
  | cons w ws ih => rw [executed, Bool.and_false, if_neg (by decide), ih]

lemma isIndexOp_of_mem {ie : OpenIE} {g : KuzuGraphStore} {a : IndexArgs} {now : ℚ} {op : GraphOp}
    (h : op ∈ indexOps ie g a now) : IsIndexOp op := by
  unfold indexOps at h
  split_ifs at h
  · exact absurd h List.not_mem_nil
  · rcases List.mem_append.mp h with h | h
    · rcases List.mem_cons.mp h with rfl | h
      · trivial
      · obtain ⟨ent, -, hent⟩ := List.mem_flatMap.mp h
        rcases List.mem_append.mp hent with hent | hent
        · split_ifs at hent
          · exact absurd hent List.not_mem_nil
          · rw [List.mem_singleton.mp hent]
            trivial
        · rw [List.mem_singleton.mp hent]
          trivial
    · unfold synonymOps at h
      dsimp only at h
      split_ifs at h
      · exact absurd h List.not_mem_nil
      · obtain ⟨p, -, rfl⟩ := List.mem_map.mp h
        trivial

/-- Without a failure the call is the index of the passage. -/
lemma indexOrRollback_of_no_fault (ie : OpenIE) (g : KuzuGraphStore) (a : IndexArgs) (now : ℚ) :
    indexOrRollback ie g a now (fun _ => false) = (g.indexDualNodePassage ie a now, false) := by
  have hrun : ∀ (ops : List GraphOp) (g : KuzuGraphStore), (∀ op ∈ ops, IsIndexOp op) →
      (ops.flatMap opWrites).foldl IndexWrite.apply g = g.run ops := by
    intro ops
    induction ops with
    | nil => exact fun _ _ => rfl
    | cons op ops ih =>
        intro g hops
        obtain ⟨hop, hrest⟩ := List.forall_mem_cons.mp hops
        rw [List.flatMap_cons, List.foldl_append, foldl_opWrites g hop, ih _ hrest]
        rfl
  unfold indexOrRollback indexDualNodePassage
  rw [executed_of_no_fault]
  dsimp only
  rw [if_neg Bool.false_ne_true, indexWrites, hrun _ g fun op hop => isIndexOp_of_mem hop]

end KuzuGraphStore

end AtlasMemory
