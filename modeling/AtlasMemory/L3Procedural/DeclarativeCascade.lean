import AtlasMemory.Cognitive.ConflictArbiter
import AtlasMemory.Foundations.BreadthFirst
import AtlasMemory.L3Procedural.SleepCycle

/-!
# The declarative cascade

The model of `DeclarativeConsolidator.consolidate` on a snapshot of the records: what the collection
and the tombstone pass leave is turned into candidates, candidates are paired by the similarity of
their texts and by the conflict arbiter, the pairs are grouped within the fibers of an entity, and in
each group all members but one are marked as superseded by that one.

The embedding of texts and its cosines are a parameter, as is the order in which a set is iterated.
The stores do not fail.
-/

namespace AtlasMemory

/-- What the consolidator calls. -/
structure CascadeEnv where
  rt : Runtime
  lex : Lexicon
  /-- `json.dumps(v, ensure_ascii=False)`. -/
  rawText : Json → String
  /-- `is_discourse_garbage_subject`. -/
  isGarbageSubject : String → Bool
  /-- The cosine of the embeddings of two texts, if there is an encoder. -/
  cosine : Option (String → String → ℚ)
  cosineThreshold : ℚ := 86 / 100
  gcConfFloor : ℚ := 1 / 5
  factBatchCap : ℕ := 500
  /-- The order in which a set with these elements is iterated. -/
  setOrder : List String → List String

/-- `CandidateFact`. -/
structure CandidateFact where
  key : String
  value : Json
  text : String
  confidence : ℚ
  timestamp : PyFloat
  metadata : PyDict String Json

namespace DeclarativeConsolidator

variable (env : CascadeEnv)

/-! ## Candidates -/

/-- `_is_control_key`. -/
def isControlKey (key : String) : Bool := controlPrefixes.any (PyString.startsWith key)

/-- `_is_superseded` of a record. -/
def isSuperseded (metadata : PyDict String Json) : Bool :=
  flag env.rt metadata "is_superseded" || flag env.rt metadata "superseded"

/-- The record is marked by the tombstone pass. -/
def isTombstoned (e : String × StateRow) : Bool :=
  let metadata := (e.2.toStateDict env.rt e.1).metadata
  let blocked := gcProtectedPrefixes.filter (· ≠ "fact:")
  let entity := (EpistemicCoordinate.fromKey env.lex e.1).entityId
  !isSuperseded env metadata && !isControlKey e.1 && !PyString.startsWithAny e.1 blocked &&
    (env.isGarbageSubject (if entity = "" then e.1 else entity) || env.isGarbageSubject e.1)

/-- `_value_text`. -/
def valueText : Json → Option String
  | .str s => some (PyString.strip s)
  | v@(.arr _) | v@(.obj _) => some (env.rawText v)
  | _ => none

/-- The candidate of a record, if it is an active one with a text. -/
def toCandidate (e : String × StateRow) : Option CandidateFact :=
  let metadata := (e.2.toStateDict env.rt e.1).metadata
  let value := e.2.decodedValue
  if e.1 = "" || isControlKey e.1 || isSuperseded env metadata then none
  else
    (valueText env value).bind fun text =>
      if 3 ≤ text.length then some ⟨e.1, value, text, e.2.confidence, e.2.timestamp, metadata⟩
      else none

/-- `collect_candidates` of what the first two passes leave of the snapshot. -/
def collectCandidates (states : StateTable) : List CandidateFact :=
  let remaining := states.entries.filter fun e =>
    !isGcEligible env.rt env.gcConfFloor e && !isTombstoned env e
  (remaining.filterMap (toCandidate env)).insertionSort fun a b => a.key ≤ b.key

/-- All pairs of a list, an earlier element first. -/
def pairsOf {α : Type} : List α → List (α × α)
  | [] => []
  | a :: as => as.map (fun b => (a, b)) ++ pairsOf as

/-! ## Pairs -/

/-- The slots beside `FUNCTIONAL_SLOTS` that `are_orthogonal_slots` knows. -/
def knownFunctional : List String :=
  Lexicon.functionalSlots ++ ["credentials", "auth", "token", "password", "username", "port",
    "timeout", "url", "host", "ip", "path", "config", "database", "db"]

/-- `are_orthogonal_slots`. -/
def areOrthogonalSlots (a b : CandidateFact) : Bool :=
  let coordA := EpistemicCoordinate.fromKey env.lex a.key
  let coordB := EpistemicCoordinate.fromKey env.lex b.key
  let slotA := env.lex.lower coordA.slot
  let slotB := env.lex.lower coordB.slot
  if slotA = slotB then false
  else decide (slotA ∈ knownFunctional ∨ slotB ∈ knownFunctional) ||
    coordA.isFunctional || coordB.isFunctional

/-- The similarity of two candidates, if it reaches the threshold. -/
def similarity (a b : CandidateFact) : Option ℚ :=
  (env.cosine.map fun cosine => cosine a.text b.text).filter (env.cosineThreshold ≤ ·)

/-- `find_pairs`. -/
def findPairs (candidates : List CandidateFact) : List (CandidateFact × CandidateFact × ℚ) :=
  (pairsOf candidates).filterMap fun p =>
    (similarity env p.1 p.2).bind fun sim =>
      if !EpistemicDecisionKernel.canSupersede env.lex p.1.key p.2.key false then none
      else if areOrthogonalSlots env p.1 p.2 then none
      else some (p.1, p.2, sim)

/-- The write that stands for the first candidate of a pair. -/
def incomingOf (a : CandidateFact) : ConflictArbiter.Incoming :=
  ⟨a.key, .str (env.rt.pyStr a.value), a.confidence, ∅⟩

/-- The existing record that stands for the second. -/
def existingOf (b : CandidateFact) : ExistingItem :=
  .dict (some (.str (env.rt.pyStr b.value))) none none (some b.confidence) none none

/-- The result is taken for a conflict of the pair. -/
def isPaired (r : ArbitrationResult) : Bool :=
  r.isConflict || r.isBeliefRevision || decide (r.action = .supersede)

/-- The score of a pair by the arbiter, if it makes it one; an exception makes it none. -/
def arbiterScore (a b : CandidateFact) : Option ℚ :=
  match ConflictArbiter.arbitrate env.rt env.lex {} (incomingOf env a)
      (PyDict.ofEntries [(b.key, existingOf env b)]) with
  | .error _ => none
  | .ok r =>
    if isPaired r then some (max (88 / 100) (if r.bestScore = 0 then 9 / 10 else r.bestScore))
    else none

def root (c : CandidateFact) : String := entityRoot env.lex c.key

/-- The pairs of the arbiter, root by root. -/
def arbiterPairs (candidates : List CandidateFact) : List (CandidateFact × CandidateFact × ℚ) :=
  let roots := ((candidates.map (root env)).filter (· ≠ "")).eraseDups
  roots.flatMap fun r =>
    (pairsOf (candidates.filter fun c => decide (root env c = r))).filterMap fun p =>
      if areOrthogonalSlots env p.1 p.2 then none
      else (arbiterScore env p.1 p.2).map fun score => (p.1, p.2, score)

/-- The pairs of both kinds, those of the arbiter where there is no pair yet. -/
def allPairs (candidates : List CandidateFact) : List (CandidateFact × CandidateFact × ℚ) :=
  let pairs := findPairs env candidates
  let isThere (a b : CandidateFact) : Bool := pairs.any fun p =>
    decide (p.1.key = a.key ∧ p.2.1.key = b.key) || decide (p.1.key = b.key ∧ p.2.1.key = a.key)
  pairs ++ (arbiterPairs env candidates).filter fun p => !isThere p.1 p.2.1

/-! ## Clusters -/

/-- `(min(a, b), max(a, b))`. -/
def ends (a b : String) : String × String := if a ≤ b then (a, b) else (b, a)

/-- `edge_sim`. -/
def edgeSim (pairs : List (CandidateFact × CandidateFact × ℚ)) : PyDict (String × String) ℚ :=
  pairs.foldl (fun d p => d.set (ends p.1.key p.2.1.key) p.2.2) ∅

/-- `adj`, in the order of iteration. -/
def adj (pairs : List (CandidateFact × CandidateFact × ℚ)) (node : String) : List String :=
  env.setOrder ((pairs.filterMap fun p =>
    if p.1.key = node then some p.2.1.key else if p.2.1.key = node then some p.1.key
    else none).eraseDups)

/-- `(entity_root, fiber_slot)` of a key. -/
def fiberKey (key : String) : String × String :=
  let coord := EpistemicCoordinate.fromKey env.lex key
  (coord.entityRoot, if coord.isFunctional then env.lex.lower coord.slot
    else "__default_entity_fiber__")

/-- The fibers of the nodes, in the order of their first nodes. -/
def fibers (nodes : List String) : List (List String) :=
  ((nodes.map (fiberKey env)).eraseDups).map fun k => nodes.filter fun n => fiberKey env n = k

/-- `sorted(items, key=key, reverse=True)` for a pair of numbers. -/
def sortDescending {α : Type} (key : α → ℚ × ℚ) (items : List α) : List α :=
  items.insertionSort fun a b =>
    (key b).1 < (key a).1 ∨ (key b).1 = (key a).1 ∧ (key b).2 ≤ (key a).2

/-- The candidate joins the cluster if it has an edge to every member. -/
def join (sims : PyDict (String × String) ℚ) (cluster : List String) (cand : String) :
    List String :=
  if cluster.all fun m => sims.contains (ends m cand) then cluster ++ [cand] else cluster

def growCluster (sims : PyDict (String × String) ℚ) (seed : String) (cands : List String) :
    List String :=
  (sortDescending (fun v => ((sims.get? (ends seed v)).getD 0, 0)) cands).foldl (join sims) [seed]

/-- `sorted(cluster)`. -/
def sortKeys (keys : List String) : List String := keys.insertionSort (· ≤ ·)

/-- The loop over the seeds of a component: the members that are assigned, and the clusters. -/
def seedClusters (sims : PyDict (String × String) ℚ) (neighbours : String → List String)
    (comp : List String) : List String → List String → List (List String)
  | [], _ => []
  | seed :: seeds, assigned =>
    if seed ∈ assigned then seedClusters sims neighbours comp seeds assigned
    else
      let cluster := growCluster sims seed
        ((neighbours seed).filter fun v => decide (v ∈ comp) && decide (v ∉ assigned))
      if 1 < cluster.length then
        sortKeys cluster :: seedClusters sims neighbours comp seeds (assigned ++ cluster)
      else seedClusters sims neighbours comp seeds assigned

def componentClusters (sims : PyDict (String × String) ℚ) (neighbours : String → List String)
    (comp : List String) : List (List String) :=
  match comp with
  | [] | [_] => []
  | [a, b] => if sims.contains (ends a b) then [sortKeys [a, b]] else []
  | _ =>
    let centrality (u : String) : ℚ × ℚ :=
      (((neighbours u).filter (· ∈ comp)).length,
        ((comp.filter (· ≠ u)).map fun v => (sims.get? (ends u v)).getD 0).sum)
    seedClusters sims neighbours comp (sortDescending centrality comp) []

/-- `connected_components`. -/
def connectedComponents (nodes : List String)
    (pairs : List (CandidateFact × CandidateFact × ℚ)) : List (List String) :=
  let sims := edgeSim pairs
  let neighbours := adj env pairs
  (fibers env nodes).flatMap fun fiber =>
    (BreadthFirst.components (fun n => (neighbours n).filter (· ∈ fiber)) fiber).flatMap
      (componentClusters sims neighbours)

/-! ## Marking -/

/-- `(a.confidence, a.timestamp, a.key) < (b.confidence, b.timestamp, b.key)`. -/
def ranksBelow (a b : CandidateFact) : Bool :=
  if a.confidence ≠ b.confidence then decide (a.confidence < b.confidence)
  else if !a.timestamp.eq b.timestamp then a.timestamp.lt b.timestamp
  else decide (a.key < b.key)

/-- `pick_canonical` of a list that is not empty. -/
def pickCanonical (first : CandidateFact) (rest : List CandidateFact) : CandidateFact :=
  rest.foldl (fun best c => if ranksBelow best c then c else best) first

/-- The markings in a cluster: the members other than the canonical one, each with it. -/
def markings (candidates : List CandidateFact) (cluster : List String) :
    List (CandidateFact × CandidateFact) :=
  match cluster.filterMap fun k => candidates.find? fun c => decide (c.key = k) with
  | first :: second :: rest =>
    let canon := pickCanonical first (second :: rest)
    ((first :: second :: rest).filter fun m => decide (m.key ≠ canon.key)).map fun m => (m, canon)
  | _ => []

/-- `consolidate`: the records that it marks, each with the record that supersedes it. -/
def consolidate (states : StateTable) : List (CandidateFact × CandidateFact) :=
  let candidates := (collectCandidates env states).take (max 2 env.factBatchCap)
  let clusters := connectedComponents env (candidates.map CandidateFact.key)
    (allPairs env candidates)
  clusters.flatMap (markings candidates)

end DeclarativeConsolidator

end AtlasMemory
