import AtlasMemory.Cognitive.Lexicon
import AtlasMemory.Foundations.BreadthFirst
import AtlasMemory.Foundations.PyDict
import AtlasMemory.Runtime
import Mathlib.Data.List.Sort

/-!
# Packing records into a token budget

The model of the packer of `render.py`: the estimate of a record's tokens, the removal of variants
of one fact, the compaction of long objects, and the packer, which joins connected records into
components, takes the components by their density, and refills from a component that does not fit
as a whole.

A record is a dictionary or an object with attributes; both are read by name with a default.  What
depends on the clock, on tables of the character standard or on stemming is in a `PackEnv`: the rank
of a record that carries no score, the similarity of two texts, the decay of an old record, the
topic of a subject, and the order in which a set of indices is iterated.  A function that raises has
the value `none`.
-/

namespace AtlasMemory

/-- A record that is packed. -/
structure PackRecord where
  /-- Whether it is a dictionary. -/
  isDict : Bool
  /-- `hasattr(type(r), "model_fields")`. -/
  isModel : Bool
  /-- The items or the attributes. -/
  fields : PyDict String Json

/-- What the packer takes from its environment. -/
structure PackEnv where
  rt : Runtime
  /-- `text.lower()`. -/
  lower : String → String
  /-- `entity_root` of a normalised subject. -/
  entityRoot : String → String
  /-- `_bag_cosine` of the token bags of two records. -/
  bagCosine : PackRecord → PackRecord → PyFloat
  /-- `knapsack_dedup_sim`. -/
  dedupSim : PyFloat
  /-- `math.exp(-SALIENCE_DECAY_PER_DAY * age_days)` for a timestamp. -/
  decay : PyFloat → PyFloat
  /-- `compute_record_rank` for the query and the time of the call. -/
  recordRank : PackRecord → PyFloat
  /-- The order in which a set of indices is iterated. -/
  iterate : List ℕ → List ℕ
  mem_iterate : ∀ l i, i ∈ iterate l ↔ i ∈ l

namespace PackRecord

/-- `r.get(name, default)` or `getattr(r, name, default)`. -/
def field (r : PackRecord) (name : String) (default : Json) : Json := r.fields.getD name default

def subject (r : PackRecord) : Json := r.field "subject" (r.field "key" (.str ""))

def object (r : PackRecord) : Json := r.field "object" (r.field "value" (.str ""))

end PackRecord

namespace Packing

section Text

variable (rt : Runtime)

/-- `str(v or "")`. -/
def strOr (v : Json) : String := if rt.truthy v then rt.pyStr v else ""

/-- `float(v or 0.0)`. -/
def floatOr (v : Json) : Option PyFloat :=
  if rt.truthy v then rt.floatOfJson v else some (.finite 0)

/-- `estimate_tokens`.  The quotient by `3.5` is rounded up. -/
def estimateTokens (r : PackRecord) : ℕ :=
  let sLen := (strOr rt r.subject).length
  let oLen := min (strOr rt r.object).length 1200
  max 1 ((2 * (sLen + oLen + 5) + 6) / 7 + 1)

def compactMark : String := "... [compacted]"

/-- The record with a long object cut down. -/
def compactRecord (r : PackRecord) : PackRecord :=
  let obj := rt.pyStr r.object
  if 150 < obj.length ∧ PyString.endsWith obj compactMark = false then
    let name := if r.fields.contains "object" then "object" else "value"
    { r with
      fields := r.fields.set name (.str (String.ofList (obj.toList.take 80) ++ compactMark)) }
  else r

/-- The records that are packed: compacted when that was asked for and they are too many. -/
def effRecords (budget : ℤ) (compact : Bool) (records : List PackRecord) : List PackRecord :=
  if compact ∧ 3 * budget < 2 * ((records.map (estimateTokens rt)).sum : ℤ) ∧ 3 ≤ records.length
  then records.map (compactRecord rt)
  else records

end Text

/-! ## Variants of one fact -/

variable (env : PackEnv)

/-- `str(v).strip().lower()`. -/
def normText (v : String) : String := env.lower (PyString.strip v)

/-- `_norm_subject`. -/
def normSubject (r : PackRecord) : String := normText env (strOr env.rt r.subject)

/-- `_record_slot`. -/
def recordSlot (r : PackRecord) : String × String :=
  let predicate := normText env (env.rt.pyStr (r.field "predicate" (.str "")))
  let source :=
    if r.isDict then r.field "source_type" (r.field "provenance" (.str ""))
    else r.field "source_type" .null
  (if predicate = "" then "stated" else predicate, normText env (strOr env.rt source))

/-- Equal subjects, or one a prefix of the other. -/
def sameSubject (si sj : String) : Bool :=
  si = sj || (6 ≤ si.length && PyString.startsWith sj si) ||
    (6 ≤ sj.length && PyString.startsWith si sj)

def topic (subject : String) : String :=
  if env.entityRoot subject = "" then subject else env.entityRoot subject

/-- Whether two records are variants of one fact. -/
def sameFact (r s : PackRecord) : Bool :=
  let si := normSubject env r
  let sj := normSubject env s
  (sameSubject si sj && (env.bagCosine r s).ge env.dedupSim) ||
    (si ≠ sj && topic env si ≠ "" && topic env sj ≠ "" && topic env si = topic env sj &&
      recordSlot env r = recordSlot env s)

/-- `_find`, in at most `fuel` steps.  The halving of paths changes no representative. -/
def findRoot (parents : List ℕ) : ℕ → ℕ → ℕ
  | 0, i => i
  | fuel + 1, i =>
    let p := parents.getD i i
    if p = i then i else findRoot parents fuel p

/-- `_find`.  A parent is smaller than its child, so `i` steps reach the representative. -/
def find (parents : List ℕ) (i : ℕ) : ℕ := findRoot parents i i

/-- `_union`. -/
def union (parents : List ℕ) (i j : ℕ) : List ℕ :=
  let ri := find parents i
  let rj := find parents j
  if ri = rj then parents else parents.set (max ri rj) (min ri rj)

/-- The pairs `i < j < n`, in the order of the two loops. -/
def indexPairs (n : ℕ) : List (ℕ × ℕ) :=
  (List.range n).flatMap fun i => ((List.range n).filter fun j => i < j).map fun j => (i, j)

/-- The parents after all variants have been joined. -/
def joinVariants (docs : List PackRecord) : List ℕ :=
  (indexPairs docs.length).foldl (fun parents p =>
    match docs[p.1]?, docs[p.2]? with
    | some r, some s => if sameFact env r s then union parents p.1 p.2 else parents
    | _, _ => parents) (List.range docs.length)

/-- `_freshness_key`. -/
def freshnessKey (r : PackRecord) : Option (PyFloat × PyFloat) := do
  let conf ← floatOr env.rt (r.field "confidence" (.number (env.rt.floatLit 1)))
  let ts ← floatOr env.rt (r.field "timestamp" (.number (env.rt.floatLit 0)))
  return (conf.mul (env.decay ts), ts)

/-- `max(items, key=key)`: the first of the greatest. -/
def firstMax {α : Type*} (key : α → PyFloat × PyFloat) (a : α) (items : List α) : α :=
  items.foldl (fun best b => if PyFloat.pairLt (key best) (key b) then b else best) a

/-- The members of a group other than its canonical one. -/
def droppedOf (docs : List PackRecord) (members : List ℕ) : Option (List ℕ) := do
  let keyed ← members.mapM fun i => do
    let key ← docs[i]?.bind (freshnessKey env)
    return (i, key)
  match keyed with
  | a :: b :: rest =>
    let canonical := firstMax Prod.snd a (b :: rest)
    return members.filter fun i => i ≠ canonical.1
  | _ => return []

/-- The groups of variants, by their representatives. -/
def groups (parents : List ℕ) (n : ℕ) : List (List ℕ) :=
  ((List.range n).filter fun i => find parents i = i).map fun root =>
    (List.range n).filter fun i => find parents i = root

/-- `knapsack_semantic_dedup`. -/
def semanticDedup (docs : List PackRecord) : Option (List PackRecord) :=
  if (PyFloat.finite 0).ge env.dedupSim ∨ env.dedupSim.ge (.finite 1) ∨ docs.length < 2 then
    some docs
  else do
    let dropped ← ((groups (joinVariants env docs) docs.length).filter fun members =>
      2 ≤ members.length).mapM (droppedOf env docs)
    return (docs.zipIdx.filter fun e => e.2 ∉ dropped.flatten).map Prod.fst

/-! ## Candidates -/

/-- A candidate: its position, its record, its rank and its cost. -/
structure Item where
  index : ℕ
  record : PackRecord
  rank : PyFloat
  cost : ℕ

/-- Whether a record is marked superseded, itself or in its metadata. -/
def isSuperseded (rt : Runtime) (r : PackRecord) : Bool :=
  rt.truthy (r.field "is_superseded" (.bool false)) ||
    match r.field "metadata" (.obj []) with
    | .obj members => rt.truthy ((PyDict.find "is_superseded" members).getD .null)
    | _ => false

/-- `_rank`. -/
def rank (r : PackRecord) : Option PyFloat :=
  if isSuperseded env.rt r then some (.finite (-5))
  else
    match r.fields.get? "score" with
    | some score =>
      if r.isDict then env.rt.floatOfJson score
      else
        match score with
        | .null => some (env.recordRank r)
        | score => if r.isModel then some (env.recordRank r) else env.rt.floatOfJson score
    | none => some (env.recordRank r)

/-- `valid_items`: the records whose rank is not negative. -/
def validItems (records : List PackRecord) : Option (List Item) := do
  let ranked ← records.zipIdx.mapM fun e => do
    let x ← rank env e.1
    return (⟨e.2, e.1, x, estimateTokens env.rt e.1⟩ : Item)
  return ranked.filter fun it => it.rank.ge (.finite 0)

/-! ## Components -/

/-- The two ends of a record, and the nodes of its steps. -/
structure Endpoints where
  source : String
  target : String
  steps : List String

def stepEnd (name : String) : Json → String
  | .obj members =>
    normText env (env.rt.pyStr ((PyDict.find name members).getD (.str "")))
  | _ => ""

def stepsOf (r : PackRecord) : Option (List Json) :=
  let own := r.field "steps" .null
  let metadata := r.field "metadata" .null
  let steps : Option Json :=
    if env.rt.truthy own then some own
    else if env.rt.truthy metadata then
      match metadata with
      | .obj members => some ((PyDict.find "steps" members).getD .null)
      | _ => none
    else some .null
  steps.map fun
    | .arr items => items
    | _ => []

/-- `_extract_endpoints`. -/
def endpoints (r : PackRecord) : Option Endpoints := do
  let steps ← stepsOf env r
  return {
    source := normText env (env.rt.pyStr r.subject)
    target := normText env (env.rt.pyStr r.object)
    steps := (steps.flatMap fun st => [stepEnd env "source" st, stepEnd env "target" st]).filter
      fun node => node ≠ "" }

/-- Two texts that are not empty, one within the other. -/
def touches (o s : String) : Bool :=
  o ≠ "" && s ≠ "" && (o = s || PyString.hasInfix s o || PyString.hasInfix o s)

def connected (a b : Endpoints) : Bool :=
  touches a.target b.source || touches b.target a.source ||
    a.steps.any (fun node => b.steps.contains node) ||
    a.steps.contains b.source || a.steps.contains b.target ||
    b.steps.contains a.source || b.steps.contains a.target ||
    (a.source ≠ "" && b.source ≠ "" && a.source = b.source && 3 ≤ a.source.length)

/-- `adj[i]`, in the order of its iteration. -/
def adjacent (ends : List Endpoints) (i : ℕ) : List ℕ :=
  env.iterate ((List.range ends.length).filter fun j =>
    i ≠ j && match ends[min i j]?, ends[max i j]? with
      | some a, some b => connected a b
      | _, _ => false)

/-- `cpof_severity` of the metadata. -/
def cpofSeverity (rt : Runtime) (r : PackRecord) : Option PyFloat :=
  let metadata := r.field "metadata" (.obj [])
  match if r.isDict || rt.truthy metadata then metadata else .obj [] with
  | .obj members => floatOr rt ((PyDict.find "cpof_severity" members).getD .null)
  | _ => none

/-- A component with its value. -/
structure Component where
  items : List Item
  cost : ℕ
  utility : PyFloat
  density : PyFloat

/-- The number of edges within a component. -/
def internalEdges (ends : List Endpoints) (comp : List ℕ) : ℕ :=
  (comp.map fun i => ((adjacent env ends i).filter fun j => comp.contains j).length).sum / 2

def perToken (x : PyFloat) (cost : ℕ) : PyFloat := x.mul (.finite (1 / (max 1 cost : ℕ)))

def evaluate (items : List Item) (ends : List Endpoints) (comp : List ℕ) : Option Component := do
  let members := comp.filterMap fun i => items[i]?
  let severities ← members.mapM fun it => cpofSeverity env.rt it.record
  let baseScore := (members.map Item.rank).foldl PyFloat.add (.finite 0)
  let cost := (members.map Item.cost).sum
  let severity := severities.foldl PyFloat.add (.finite 0)
  let factor := PyFloat.add (.finite (1 + 35 / 100 * internalEdges env ends comp))
    ((PyFloat.finite (1 / 2)).mul severity)
  let utility := baseScore.mul factor
  return ⟨members, cost, utility, perToken utility cost⟩

/-- `sorted(items, key=key, reverse=True)`: the greatest first, equal ones in their order. -/
def sortDesc {α : Type*} (key : α → PyFloat × PyFloat) (items : List α) : List α :=
  items.insertionSort fun a b => PyFloat.pairLt (key a) (key b) = false

/-! ## The packer -/

/-- The density of a candidate, and its rank. -/
def nodeKey (it : Item) : PyFloat × PyFloat := (perToken it.rank it.cost, it.rank)

/-- What has been packed, and its cost. -/
structure Packed where
  items : List Item
  cost : ℕ

def fillNode (budget : ℤ) (p : Packed) (it : Item) : Packed :=
  if (p.cost : ℤ) + it.cost ≤ budget then ⟨p.items ++ [it], p.cost + it.cost⟩ else p

/-- Pack a component: as a whole, or else what fits of it. -/
def fillComponent (budget : ℤ) (p : Packed) (c : Component) : Packed :=
  if (p.cost : ℤ) + c.cost ≤ budget then ⟨p.items ++ c.items, p.cost + c.cost⟩
  else (sortDesc nodeKey c.items).foldl (fillNode budget) p

/-- The components of the candidates, the densest first. -/
def evaluated (items : List Item) : Option (List Component) := do
  let ends ← items.mapM fun it => endpoints env it.record
  let comps ← (BreadthFirst.components (adjacent env ends) (List.range ends.length)).mapM
    (evaluate env items ends)
  return sortDesc (fun c => (c.density, c.utility)) comps

/-- The densest candidate, when there is a budget. -/
def lastResort (budget : ℤ) : List Item → List Item
  | [] => []
  | it :: rest => if 0 < budget then [firstMax nodeKey it rest] else []

/-- The packed candidates: when nothing fits, the densest one. -/
def packItems (budget : ℤ) (items : List Item) (comps : List Component) : List Item :=
  let packed := (comps.foldl (fillComponent budget) ⟨[], 0⟩).items
  if packed.isEmpty then lastResort budget items else packed

/-- The part of `pack_knapsack_01` after the removal of variants. -/
def packSurvivors (budget : ℤ) (compact : Bool) (survivors : List PackRecord) :
    Option (List PackRecord) := do
  let items ← validItems env (effRecords env.rt budget compact survivors)
  let comps ← evaluated env items
  return (sortDesc (fun it => (it.rank, .finite 0)) (packItems budget items comps)).map Item.record

/-- `pack_knapsack_01`. -/
def packKnapsack01 (records : List PackRecord) (budget : ℤ) (compact : Bool) :
    Option (List PackRecord) := do
  let survivors ← semanticDedup env records
  packSurvivors env budget compact survivors

end Packing

end AtlasMemory
