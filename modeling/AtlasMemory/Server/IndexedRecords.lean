import AtlasMemory.Server.PointFrame

/-!
# Records and their points over runs

A store of records beside the vector store that indexes it, under the calls of the store, insertions
under keys and delete requests, in any order.  In a run whose keys are canonical, and whose delete
requests go by a text only where no point has it, there is at most one point for a normal key at
every time, an operation changes the points of its own normal key only, and a deletion leaves none.
-/

namespace AtlasMemory

open VectorStore

/-- What the operations are given. -/
structure IndexConfig where
  rt : Runtime
  ids : PointIds
  /-- `json.dumps(v, ensure_ascii=False, default=str)`. -/
  rawText : Json → String

/-- The records and their points. -/
structure IndexedStore (ρ : Type) where
  kv : VerifiedKVStore
  vectors : QdrantVectorStore ρ

/-- An operation: a call of the store of records, an insertion under a key, or a delete request. -/
inductive IndexOp (ρ : Type)
  | kv (c : KvCall)
  | insert (key text : String) (record : ρ)
  | delete (key : String) (now : ℚ)

namespace IndexOp

/-- The normal form of the key of the operation. -/
def normalKey {ρ : Type} : IndexOp ρ → Option String
  | .kv _ => none
  | .insert key _ _ | .delete key _ => some (normalizeUpsertKey key)

end IndexOp

namespace IndexedStore

variable {ρ : Type} (cfg : IndexConfig)

def handleDelete (s : IndexedStore ρ) (key : String) (now : ℚ) :
    VerifiedKVStore × QdrantVectorStore ρ × Except PyError DeleteReply :=
  MemoryController.handleDelete cfg.rt (QdrantVectorStore.backend cfg.ids) cfg.rawText key now s.kv
    s.vectors

def step (s : IndexedStore ρ) : IndexOp ρ → IndexedStore ρ
  | .kv c => { s with kv := s.kv.call cfg.rt c }
  | .insert key text record =>
    { s with vectors := s.vectors.insertSync cfg.ids key text record }
  | .delete key now => ⟨(s.handleDelete cfg key now).1, (s.handleDelete cfg key now).2.1⟩

def run (s : IndexedStore ρ) (ops : List (IndexOp ρ)) : IndexedStore ρ := ops.foldl (step cfg) s

/-- The text by which the delete request falls back: that of the record, or of what is found in its
place after it has gone. -/
def fallbackText (s : IndexedStore ρ) (key : String) (now : ℚ) : Option String :=
  (MemoryController.kvValueText cfg.rawText s.kv.db.stateVariables key).orElse fun _ =>
    MemoryController.kvValueText cfg.rawText
      (s.kv.call cfg.rt (.deleteSync key now)).db.stateVariables key

/-- The key is canonical, and where a delete request finds no point under it, no point has the text
by which it falls back. -/
def Framed (s : IndexedStore ρ) : IndexOp ρ → Prop
  | .kv _ => True
  | .insert key _ _ => Canonical key
  | .delete key now => Canonical key ∧ (s.vectors.pointsOf (normalizeUpsertKey key) ≠ [] ∨
      ∀ text, s.fallbackText cfg key now = some text → ∀ p ∈ s.vectors.points, p.text ≠ text)

/-- Every operation of a run meets the condition in the state that it finds. -/
def AllFramed : IndexedStore ρ → List (IndexOp ρ) → Prop
  | _, [] => True
  | s, op :: ops => s.Framed cfg op ∧ AllFramed (s.step cfg op) ops

variable {cfg} {s : IndexedStore ρ}

/-! ## One operation -/

lemma deleteByTextSync_eq_self {v : QdrantVectorStore ρ} {text : String}
    (h : ∀ p ∈ v.points, p.text ≠ text) : (v.deleteByTextSync text).1 = v := by
  unfold QdrantVectorStore.deleteByTextSync
  split_ifs
  · rfl
  · cases v with
    | inMemory ps =>
      exact congrArg _ (List.filter_eq_self.mpr fun p hp => by simpa using h p hp)
    | client d =>
      refine congrArg QdrantVectorStore.client (PyDict.ext (List.filter_eq_self.mpr fun e he => ?_))
      have hp : e.2.toVectorPoint ∈ (QdrantVectorStore.client d).points :=
        List.mem_map_of_mem (List.mem_map_of_mem he)
      simpa using h _ hp

lemma deletePoints_eq (hinj : Function.Injective cfg.ids.digest)
    (h : s.vectors.WellPlaced cfg.ids) {key : String} {now : ℚ} (hne : key ≠ "")
    (hframed : s.Framed cfg (.delete key now)) :
    (MemoryController.deletePoints (QdrantVectorStore.backend cfg.ids) cfg.rawText
      (s.kv.call cfg.rt (.deleteSync key now)).db.stateVariables s.vectors key
      (MemoryController.kvValueText cfg.rawText s.kv.db.stateVariables key)).1 =
        s.vectors.withoutKey (normalizeUpsertKey key) := by
  obtain ⟨hkey, htext⟩ := hframed
  obtain ⟨hgone, hnone⟩ := QdrantVectorStore.deletes_deleteKvVector hinj h hkey hne
  rcases hdel : MemoryController.deleteKvVector (QdrantVectorStore.backend cfg.ids) s.vectors key
    with ⟨v, n⟩
  simp only [hdel] at hgone hnone
  unfold MemoryController.deletePoints
  rw [hdel]
  rcases n with _ | n
  · have hnil := hnone rfl
    have hspared := htext.resolve_left fun hsome => hsome hnil
    have hsame : v = s.vectors := hgone.trans (QdrantVectorStore.withoutKey_of_nil hnil)
    rw [← hgone]
    show (MemoryController.deleteKvVectorByText _ cfg.rawText _ v key _).1 = v
    unfold MemoryController.deleteKvVectorByText
    split
    · next text hfallback =>
      have hfree := hspared text hfallback
      rw [← hsame] at hfree
      exact deleteByTextSync_eq_self hfree
    · rfl
  · exact hgone

/-- A delete request takes the points of its normal key if it reports the record deleted; or it
leaves all points. -/
lemma handleDelete_points (hinj : Function.Injective cfg.ids.digest)
    (h : s.vectors.WellPlaced cfg.ids) {key : String} {now : ℚ}
    (hframed : s.Framed cfg (.delete key now)) :
    (s.handleDelete cfg key now).2.1 = s.vectors.withoutKey (normalizeUpsertKey key) ∨
      ((s.handleDelete cfg key now).2.1 = s.vectors ∧
        ∀ reply, (s.handleDelete cfg key now).2.2 = .ok reply → reply.deleted = false) := by
  unfold handleDelete MemoryController.handleDelete
  by_cases hne : key = ""
  · right
    rw [if_pos hne]
    exact ⟨rfl, fun reply hreply => absurd hreply (by simp)⟩
  · rw [if_neg hne]
    split
    · right
      refine ⟨rfl, fun reply hreply => ?_⟩
      rw [← Except.ok.inj hreply]
      rfl
    · dsimp only
      split
      · right
        exact ⟨rfl, fun reply hreply => absurd hreply (by simp)⟩
      · split
        · left
          exact deletePoints_eq hinj h hne hframed
        · right
          refine ⟨rfl, fun reply hreply => ?_⟩
          rw [← Except.ok.inj hreply]
          rfl

lemma wellPlaced_step (hinj : Function.Injective cfg.ids.digest)
    (h : s.vectors.WellPlaced cfg.ids) {op : IndexOp ρ} (hframed : s.Framed cfg op) :
    (s.step cfg op).vectors.WellPlaced cfg.ids := by
  cases op with
  | kv c => exact h
  | insert key text record => exact QdrantVectorStore.wellPlaced_insertSync h hframed text record
  | delete key now =>
    obtain hgone | ⟨hsame, -⟩ := handleDelete_points hinj h hframed
    · show (s.handleDelete cfg key now).2.1.WellPlaced cfg.ids
      rw [hgone]
      exact QdrantVectorStore.wellPlaced_withoutKey h _
    · show (s.handleDelete cfg key now).2.1.WellPlaced cfg.ids
      rw [hsame]
      exact h

/-- An operation leaves the points of the other normal keys as they are. -/
lemma pointsOf_step_of_ne (hinj : Function.Injective cfg.ids.digest)
    (h : s.vectors.WellPlaced cfg.ids) {op : IndexOp ρ} (hframed : s.Framed cfg op) {c : String}
    (hc : op.normalKey ≠ some c) :
    (s.step cfg op).vectors.pointsOf c = s.vectors.pointsOf c := by
  cases op with
  | kv c => rfl
  | insert key text record =>
    exact QdrantVectorStore.pointsOf_insertSync_of_ne hinj h hframed text record
      fun heq => hc (congrArg some heq)
  | delete key now =>
    show (s.handleDelete cfg key now).2.1.pointsOf c = _
    obtain hgone | ⟨hsame, -⟩ := handleDelete_points hinj h hframed
    · rw [hgone]
      exact QdrantVectorStore.pointsOf_withoutKey_of_ne fun heq => hc (congrArg some heq.symm)
    · rw [hsame]

/-! ## Runs -/

lemma allFramed_append {ops ops' : List (IndexOp ρ)} :
    AllFramed cfg s (ops ++ ops') ↔ AllFramed cfg s ops ∧ AllFramed cfg (s.run cfg ops) ops' := by
  induction ops generalizing s with
  | nil => simp [AllFramed, run]
  | cons op ops ih =>
    have hrun : s.run cfg (op :: ops) = (s.step cfg op).run cfg ops := rfl
    simp only [List.cons_append, AllFramed, ih, hrun, and_assoc]

lemma wellPlaced_run (hinj : Function.Injective cfg.ids.digest) {ops : List (IndexOp ρ)}
    (h : s.vectors.WellPlaced cfg.ids) (hframed : AllFramed cfg s ops) :
    (s.run cfg ops).vectors.WellPlaced cfg.ids := by
  induction ops generalizing s with
  | nil => exact h
  | cons op ops ih => exact ih (wellPlaced_step hinj h hframed.1) hframed.2

/-- In a run of framed operations over a well-placed store, at every time there is at most one point
for a normal key, the operation that comes next leaves the points of the other normal keys as they
are, and if it is a deletion that goes through, no point of its own is left. -/
theorem points_framed (cfg : IndexConfig) (hinj : Function.Injective cfg.ids.digest)
    (s : IndexedStore ρ) (hs : s.vectors.WellPlaced cfg.ids) {pre : List (IndexOp ρ)}
    {op : IndexOp ρ} (h : AllFramed cfg s (pre ++ [op])) :
    (∀ c, ((s.run cfg (pre ++ [op])).vectors.pointsOf c).length ≤ 1) ∧
      (∀ c, op.normalKey ≠ some c → (s.run cfg (pre ++ [op])).vectors.pointsOf c =
        (s.run cfg pre).vectors.pointsOf c) ∧
      ∀ key now reply, op = .delete key now →
        ((s.run cfg pre).handleDelete cfg key now).2.2 = .ok reply → reply.deleted = true →
          (s.run cfg (pre ++ [op])).vectors.pointsOf (normalizeUpsertKey key) = [] := by
  have hrun : s.run cfg (pre ++ [op]) = (s.run cfg pre).step cfg op := List.foldl_append
  obtain ⟨hpre, hop, -⟩ := allFramed_append.mp h
  have hplaced := wellPlaced_run hinj hs hpre
  rw [hrun]
  refine ⟨fun c => ?_, fun c hc => pointsOf_step_of_ne hinj hplaced hop hc, ?_⟩
  · exact QdrantVectorStore.length_pointsOf_le_one (wellPlaced_step hinj hplaced hop) c
  · rintro key now reply rfl hreply hdeleted
    show ((s.run cfg pre).handleDelete cfg key now).2.1.pointsOf _ = []
    obtain hgone | ⟨-, hkept⟩ := handleDelete_points hinj hplaced hop
    · rw [hgone]
      exact QdrantVectorStore.pointsOf_withoutKey_self _ _
    · rw [hkept reply hreply] at hdeleted
      exact absurd hdeleted (by simp)

/-- A digest for evaluating the model: the characters as the digits of a number. -/
def codeOf : List Char → ℕ
  | [] => 0
  | c :: cs => codeOf cs * 1114112 + (c.toNat + 1)

lemma codeOf_injective : Function.Injective codeOf := by
  intro cs
  induction cs with
  | nil =>
    intro ds h
    cases ds with
    | nil => rfl
    | cons d ds =>
      simp only [codeOf] at h
      omega
  | cons c cs ih =>
    intro ds h
    cases ds with
    | nil =>
      simp only [codeOf] at h
      omega
    | cons d ds =>
      have hbound (e : Char) : e.toNat < 1114112 := by
        have hvalid : e.toNat.isValidChar := e.valid
        unfold Nat.isValidChar at hvalid
        omega
      have hc := hbound c
      have hd := hbound d
      simp only [codeOf] at h
      have hhead : c.toNat = d.toNat := by omega
      have htail : codeOf cs = codeOf ds := by omega
      rw [ih htail, Char.toNat_inj.mp hhead]

/-- A configuration for evaluating the model. -/
def sampleIndex : IndexConfig where
  rt := Runtime.sample
  ids := ⟨fun s => codeOf s.toList, fun _ => 0⟩
  rawText := Json.dumps

def twoRecords (key key' : String) (vectors : QdrantVectorStore Unit) : IndexedStore Unit where
  kv := VerifiedKVStore.init.run .sample
    [.setSync ⟨key, .str "vim", none, none, "update", none⟩ 1,
      .setSync ⟨key', .str "vim", none, none, "update", none⟩ 2]
  vectors := vectors

theorem points_framed_deletion :
    let s := twoRecords "x" "y" (.client ∅)
    (((s.run sampleIndex ([.insert "x" "vim" ()] ++ [.delete "x" 3])).vectors.pointsOf
      "x").length ≤ 1) := by
  have hinj : Function.Injective sampleIndex.ids.digest :=
    codeOf_injective.comp fun _ _ h => String.toList_inj.mp h
  have hplaced : (twoRecords "x" "y" (.client ∅)).vectors.WellPlaced sampleIndex.ids :=
    fun i p hp => absurd hp (by simp)
  have hframed : AllFramed sampleIndex (twoRecords "x" "y" (.client ∅))
      ([.insert "x" "vim" ()] ++ [.delete "x" 3]) :=
    ⟨(by decide : Canonical "x"), ⟨by decide, Or.inl (by decide +kernel)⟩, trivial⟩
  exact (points_framed sampleIndex hinj (twoRecords "x" "y" (.client ∅)) hplaced hframed).1 "x"

def texts (s : IndexedStore Unit) : List String := s.vectors.points.map VectorPoint.text

/-- The key with the prefix is the same key to both backends; a second prefix is one too many for
the identifier of a client's point; and the deletion of a record without a point takes the point of
another record of the same text. -/
theorem points_not_framed :
    (twoRecords "x" "kv:x" (.client ∅)).kv.db.stateVariables.keys = ["x", "kv:x"] ∧
      texts ((twoRecords "x" "kv:x" (.inMemory [])).run sampleIndex
        [.insert "x" "one" (), .insert "kv:x" "two" ()]) = ["two"] ∧
      texts ((twoRecords "x" "kv:x" (.client ∅)).run sampleIndex
        [.insert "x" "one" (), .insert "kv:x" "two" ()]) = ["two"] ∧
      texts ((twoRecords "x" "kv:kv:x" (.client ∅)).run sampleIndex
        [.insert "x" "one" (), .insert "kv:kv:x" "two" ()]) = ["two"] ∧
      texts ((twoRecords "x" "y" (.client ∅)).run sampleIndex
        [.insert "x" "vim" (), .delete "y" 3]) = [] := by
  decide +kernel

end IndexedStore

end AtlasMemory
