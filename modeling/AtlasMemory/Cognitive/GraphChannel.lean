import AtlasMemory.L1Working.HotBuffer
import AtlasMemory.L2Semantic.BatchLookups
import AtlasMemory.L2Semantic.VectorStore

/-!
# The graph channel of the retrieval and its gate

The model of the end of `gather_candidates`: the candidates of the graph are merged into those of the
other channels, and the gate drops the candidates of the graph whose record in the store is
superseded.  The candidates of the other channels are arbitrary.  So are the two batches of the
graph, of which the first is merged up to the first one with a number that cannot be read; the
numbers themselves (scores, confidences, time stamps) are read by neither the filters nor the gate.

The gate asks for the records of all probes at once, and looks them up in the answer under the probes
as they are spelled.  The answer is kept under the keys of the records.
-/

namespace AtlasMemory

namespace Retrieval

variable (rt : Runtime) (lex : Lexicon)

/-! ## Candidates -/

/-- `a or b or …` of items of a dictionary, if one of them is true. -/
def firstTruthy (data : PyDict String Json) (names : List String) : Option Json :=
  names.findSome? fun name => (data.get? name).filter rt.truthy

/-- `str(a or b or … or "")`. -/
def textOfFirst (data : PyDict String Json) (names : List String) : String :=
  ((firstTruthy rt data names).map rt.pyStr).getD ""

/-- `dict(data.get("metadata") or {})`. -/
def metadataOf (data : PyDict String Json) : PyDict String Json :=
  match data.get? "metadata" with
  | some (.obj members) => PyDict.ofEntries members
  | _ => ∅

/-- `source` of a candidate. -/
inductive Channel
  | hotBuffer
  | kv
  | vector
  | graph
  deriving DecidableEq

/-- A candidate, with the items that are read here. -/
structure Candidate where
  key : String
  subject : String
  canonicalEntityId : Option String := none
  predicate : Json
  object : String
  content : String
  source : Channel
  sourceType : String
  metadata : PyDict String Json
  graphHit : Bool := false

/-- `_build_record`. -/
def buildRecord (k v : String) (src : Channel) (data : PyDict String Json) : Candidate :=
  let m := metadataOf data
  { key := k
    subject := k
    predicate := (data.get? "predicate").getD (.str "stated_memory")
    object := v
    content := ((firstTruthy rt data ["content"]).map rt.pyStr).getD v
    source := src
    sourceType := ((firstTruthy rt data ["source_type"]).map rt.pyStr).getD
      (rt.pyStr ((m.get? "source_type").getD (.str "user_explicit")))
    metadata := m }

/-- `PROBE_PREFIXES`. -/
def probePrefixes : List String := ["agi:test:", "test:agi:"]

/-- `m.get("is_superseded") or m.get("superseded") or m.get("vector_tombstone_pending")`. -/
def tombstoned (metadata : PyDict String Json) : Bool :=
  (firstTruthy rt metadata ["is_superseded", "superseded", "vector_tombstone_pending"]).isSome

/-- `_is_filtered`. -/
def isFiltered (key val : String) (metadata : PyDict String Json) (session : Option String) :
    Bool :=
  let kl := lex.lower key
  PyString.startsWithAny kl probePrefixes || HotBuffer.isConversationalChurn lex key val ||
    PyString.startsWithAny kl ["fact:conversation", "conversation:"] || tombstoned rt metadata ||
    !HotBuffer.isSessionAccessible (HotBuffer.extractEffectiveSession rt lex key metadata) session

/-! ## The candidates of the graph -/

/-- One round of the loop of `_merge_ppr_candidates`. -/
def mergePprCandidate (session : Option String) (pool : PyDict String Candidate)
    (p : PyDict String Json) : PyDict String Candidate :=
  let k := textOfFirst rt p ["key", "subject"]
  let val := textOfFirst rt p ["object", "value"]
  if k = "" ∨ val = "" ∨ isFiltered rt lex k val (metadataOf p) session = true then pool
  else
    match pool.get? k with
    | some c => pool.set k { c with graphHit := true }
    | none => pool.set k { buildRecord rt k val .graph p with graphHit := true }

/-- `_merge_ppr_candidates`. -/
def mergePprCandidates (session : Option String) (pool : PyDict String Candidate)
    (batch : List (PyDict String Json)) : PyDict String Candidate :=
  batch.foldl (mergePprCandidate rt lex session) pool

/-- One round of the loop of `_merge_graph_edges`. -/
def mergeGraphEdge (session : Option String) (pool : PyDict String Candidate)
    (edge : PyDict String Json) : PyDict String Candidate :=
  let k := rt.pyStr ((edge.get? "subject").getD (.str ""))
  let val := rt.pyStr ((edge.get? "object").getD (.str ""))
  if isFiltered rt lex k val edge session = false ∧ pool.contains k = false ∧ val ≠ "" then
    pool.set k { buildRecord rt k val .graph edge with graphHit := true }
  else pool

/-- `_merge_graph_edges`. -/
def mergeGraphEdges (session : Option String) (pool : PyDict String Candidate)
    (edges : List (PyDict String Json)) : PyDict String Candidate :=
  edges.foldl (mergeGraphEdge rt lex session) pool

/-! ## Probes -/

/-- `_KV_NAMESPACE_SEGMENTS`. -/
def kvNamespaceSegments : List String := ["fact", "kv", "rule", "pref", "sop"]

/-- The slot without its ending `_value`, if it is longer than that. -/
def slotHead (slot : String) : Option String :=
  if PyString.endsWith slot "_value" ∧ 6 < slot.toList.length then
    some (String.ofList (slot.toList.take (slot.toList.length - 6)))
  else none

/-- The texts that `_derive_kv_probe_keys` adds for a canonical key. -/
def probeTexts (canon : String) : List String :=
  let parts := (PyString.split ':' canon).filter fun p => p ≠ ""
  let join := ":".intercalate
  let rest := join (parts.drop 1)
  let base := parts.dropLast
  let inNamespace := decide (parts.headD "" ∈ kvNamespaceSegments)
  [canon] ++
    (if parts = [] then []
      else if inNamespace then [rest, "fact:" ++ rest] else ["fact:" ++ canon]) ++
    (match slotHead (parts.getLastD "") with
      | some head =>
        if 2 ≤ parts.length then
          let aliased := join (base ++ [head])
          [aliased, join base] ++
            if inNamespace then [] else ["fact:" ++ aliased, "fact:" ++ join base]
        else []
      | none => []) ++
    if 3 ≤ parts.length ∧ PyString.endsWith (parts.getLastD "") "_value" then
      [join (base.drop 1)]
    else []

/-- `_derive_kv_probe_keys`. -/
def deriveKvProbeKeys (rawKey : String) : List String :=
  let canon := VectorStore.normalizeUpsertKey rawKey
  if canon = "" then []
  else (((probeTexts canon).map PyString.strip).filter fun k => k ≠ "").eraseDups

/-! ## The gate -/

/-- `_kv_state_is_superseded`.  The store keeps the flags in the metadata only. -/
def kvStateIsSuperseded (state : StateDict) : Bool := tombstoned rt state.metadata

/-- The candidate comes from the graph, or was found there as well. -/
def Candidate.ofGraph (c : Candidate) : Bool := decide (c.source = .graph) || c.graphHit

def Candidate.probes (c : Candidate) : List String :=
  [c.key, c.subject, c.canonicalEntityId.getD ""].flatMap fun raw =>
    if raw = "" then [] else deriveKvProbeKeys raw

/-- The probes of all candidates of the graph, each once. -/
def allProbes (pool : PyDict String Candidate) : List String :=
  ((pool.values.filter Candidate.ofGraph).flatMap Candidate.probes).dedup

/-- One of the probes is the key of a superseded record in the answer of the store. -/
def inTombstoned (states : StateTable) (c : Candidate) : Bool :=
  c.probes.any fun pk =>
    (states.get? pk).any fun row => kvStateIsSuperseded rt (row.toStateDict rt pk)

/-- `_graph_channel_kv_truth_gate`: nothing is dropped when the store raises. -/
def graphChannelKvTruthGate (lower : String → String) (limit : ℕ) (kv : StateTable)
    (pool : PyDict String Candidate) : PyDict String Candidate :=
  match StateTable.getStates lower limit kv (allProbes pool) with
  | .error _ => pool
  | .ok states => pool.filter fun _ c => !(c.ofGraph && inTombstoned rt states c)

/-- The candidates before the gate: those of the other channels and of the graph. -/
def mergedCandidates (session : Option String) (pool : PyDict String Candidate)
    (ppr edges : List (PyDict String Json)) : PyDict String Candidate :=
  mergeGraphEdges rt lex session (mergePprCandidates rt lex session pool ppr) edges

/-- `gather_candidates`, from the candidates of the other channels. -/
def gatherCandidates (lower : String → String) (limit : ℕ) (kv : StateTable)
    (session : Option String) (pool : PyDict String Candidate)
    (ppr edges : List (PyDict String Json)) : List Candidate :=
  (graphChannelKvTruthGate rt lower limit kv
    (mergedCandidates rt lex session pool ppr edges)).values

/-! ## Retired facts -/

/-- A probe of the candidate resolves to a superseded record, as the store looks up one key. -/
def ResolvesToSuperseded (kv : StateTable) (c : Candidate) : Prop :=
  ∃ pk ∈ c.probes, ∃ state, kv.getState rt pk = some state ∧ kvStateIsSuperseded rt state = true

/-- A probe of the candidate is the key of a superseded record as the store spells it. -/
def SpelledSuperseded (kv : StateTable) (c : Candidate) : Prop :=
  ∃ pk ∈ c.probes, ∃ row, kv.get? pk = some row ∧
    kvStateIsSuperseded rt (row.toStateDict rt pk) = true

variable {rt lex} {lower : String → String} {limit : ℕ} {kv : StateTable}
  {pool : PyDict String Candidate} {c : Candidate}

lemma mem_allProbes (hc : c ∈ pool.values) (hgraph : c.ofGraph = true) {pk : String}
    (hpk : pk ∈ c.probes) : pk ∈ allProbes pool :=
  List.mem_dedup.mpr (List.mem_flatMap.mpr ⟨c, List.mem_filter.mpr ⟨hc, hgraph⟩, hpk⟩)

/-- In the records of all probes, those of a candidate stand under their own spelling only. -/
lemma inTombstoned_iff {keys : List String} (hkeys : ∀ pk ∈ c.probes, pk ∈ keys) :
    inTombstoned rt (StateTable.statesOf lower kv keys) c = true ↔ SpelledSuperseded rt kv c := by
  have hget : ∀ pk ∈ c.probes, ∀ row,
      (StateTable.statesOf lower kv keys).get? pk = some row ↔ kv.get? pk = some row := by
    intro pk hpk row
    rw [StateTable.get?_statesOf]
    constructor
    · exact fun h => h.1
    · exact fun h => ⟨h, PyDict.mem_keys_of_get? h, Or.inl (hkeys pk hpk)⟩
  rw [inTombstoned, List.any_eq_true]
  constructor
  · rintro ⟨pk, hpk, hany⟩
    obtain ⟨row, hrow, hsup⟩ := (Option.any_eq_true _ _).mp hany
    exact ⟨pk, hpk, row, (hget pk hpk row).mp hrow, hsup⟩
  · rintro ⟨pk, hpk, row, hrow, hsup⟩
    exact ⟨pk, hpk, (Option.any_eq_true _ _).mpr ⟨row, (hget pk hpk row).mpr hrow, hsup⟩⟩

/-- A candidate of the graph passes the gate unless the store answers and one of its probes is
spelled like a superseded record. -/
lemma mem_gate_iff (hgraph : c.ofGraph = true) :
    c ∈ (graphChannelKvTruthGate rt lower limit kv pool).values ↔ c ∈ pool.values ∧
      ((allProbes pool).length ≤ limit → ¬ SpelledSuperseded rt kv c) := by
  unfold graphChannelKvTruthGate StateTable.getStates
  by_cases hnil : allProbes pool = []
  · rw [if_pos hnil]
    dsimp only
    rw [PyDict.values_filter, List.mem_filter]
    constructor
    · rintro ⟨hc, -⟩
      refine ⟨hc, ?_⟩
      rintro - ⟨pk, hpk, -⟩
      have hmem := mem_allProbes hc hgraph hpk
      rw [hnil] at hmem
      exact List.not_mem_nil hmem
    · rintro ⟨hc, -⟩
      refine ⟨hc, ?_⟩
      have hempty : inTombstoned rt ∅ c = false := by
        rw [inTombstoned, List.any_eq_false]
        intro pk _
        rw [PyDict.get?_empty]
        simp
      rw [hempty, Bool.and_false, Bool.not_false]
  rw [if_neg hnil]
  by_cases hlimit : limit < (allProbes pool).length
  · rw [if_pos hlimit]
    exact ⟨fun hc => ⟨hc, fun hle => absurd hle (not_le.mpr hlimit)⟩, fun hc => hc.1⟩
  · rw [if_neg hlimit]
    dsimp only
    rw [PyDict.values_filter, List.mem_filter]
    have hle : (allProbes pool).length ≤ limit := not_lt.mp hlimit
    constructor
    · rintro ⟨hc, hkept⟩
      refine ⟨hc, fun _ hspelled => ?_⟩
      rw [hgraph, (inTombstoned_iff fun pk hpk => mem_allProbes hc hgraph hpk).mpr hspelled]
        at hkept
      exact absurd hkept (by simp)
    · rintro ⟨hc, hnot⟩
      refine ⟨hc, ?_⟩
      rw [Bool.not_eq_true', Bool.and_eq_false_iff]
      right
      rw [Bool.eq_false_iff]
      exact fun h => hnot hle
        ((inTombstoned_iff fun pk hpk => mem_allProbes hc hgraph hpk).mp h)

/-- **The gate.** No candidate of the graph is returned whose record is superseded, exactly if every
such candidate has a probe spelled like a superseded record, and the store answers. -/
theorem no_retired_fact_iff (rt : Runtime) (lex : Lexicon) (lower : String → String) (limit : ℕ)
    (kv : StateTable) (session : Option String) (pool : PyDict String Candidate)
    (ppr edges : List (PyDict String Json)) :
    (∀ c ∈ gatherCandidates rt lex lower limit kv session pool ppr edges, c.ofGraph = true →
      ¬ ResolvesToSuperseded rt kv c) ↔
    ∀ c ∈ (mergedCandidates rt lex session pool ppr edges).values, c.ofGraph = true →
      ResolvesToSuperseded rt kv c → SpelledSuperseded rt kv c ∧
        (allProbes (mergedCandidates rt lex session pool ppr edges)).length ≤ limit := by
  unfold gatherCandidates
  constructor
  · intro hclean c hc hgraph hresolves
    have hgone := mt (hclean c · hgraph) (not_not_intro hresolves)
    rw [mem_gate_iff hgraph, not_and, Classical.not_imp, not_not] at hgone
    obtain ⟨hle, hspelled⟩ := hgone hc
    exact ⟨hspelled, hle⟩
  · intro hspelled c hc hgraph hresolves
    obtain ⟨hmem, hnot⟩ := (mem_gate_iff hgraph).mp hc
    obtain ⟨hspelled, hle⟩ := hspelled c hmem hgraph hresolves
    exact hnot hle hspelled

/-- A store whose record was retired under a key in capitals. -/
def retiredTheme : StateTable :=
  PyDict.ofEntries [("Fact:Theme",
    ⟨"dark", 1, .finite 0, some "\x7b\"is_superseded\": true\x7d", none⟩)]

/-- An edge of the graph that states the retired fact. -/
def themeEdge : PyDict String Json :=
  PyDict.ofEntries [("subject", .str "fact:theme"), ("object", .str "dark")]

/-- The retired fact is returned. -/
theorem retired_theme_returned :
    ∃ c ∈ gatherCandidates Runtime.sample sampleLexicon SqlText.lower 999 retiredTheme none ∅ []
        [themeEdge],
      c.ofGraph = true ∧ ResolvesToSuperseded Runtime.sample retiredTheme c := by
  have hreturned : (gatherCandidates Runtime.sample sampleLexicon SqlText.lower 999 retiredTheme
      none ∅ [] [themeEdge]).any (fun c => c.ofGraph && c.probes.any fun pk =>
        (retiredTheme.getState Runtime.sample pk).any (kvStateIsSuperseded Runtime.sample)) =
          true := by
    decide +kernel
  obtain ⟨c, hc, hboth⟩ := List.any_eq_true.mp hreturned
  obtain ⟨hgraph, hprobe⟩ := Bool.and_eq_true_iff.mp hboth
  obtain ⟨pk, hpk, hstate⟩ := List.any_eq_true.mp hprobe
  exact ⟨c, hc, hgraph, pk, hpk, (Option.any_eq_true _ _).mp hstate⟩

end Retrieval

end AtlasMemory
