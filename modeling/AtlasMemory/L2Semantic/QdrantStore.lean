import AtlasMemory.L2Semantic.VectorStore
import AtlasMemory.Server.MemoryController

/-!
# The vector store with and without a client

The model of `QdrantVectorStore` over both of its backends: the list of points in memory, and a
collection of a client, which holds its points under identifiers.  The identifier of a key is the
digest of its normal form; before that digest it was a checksum of the key, and an insertion removes
the point that still stands there.  The points are those written under a key.  The collection
answers a filter with the points that match it, and does not fail.
-/

namespace AtlasMemory

/-- A point of a collection: beside its key it may carry the key of the record. -/
structure ClientPoint (ρ : Type) extends VectorPoint ρ where
  kvKey : Option String

/-- The identifiers of points: `blake2b` of a normal key, and the checksum `crc32` of a key, both
masked. -/
structure PointIds where
  digest : String → ℕ
  checksum : String → ℕ

/-- `QdrantVectorStore`. -/
inductive QdrantVectorStore (ρ : Type)
  | inMemory (points : List (VectorPoint ρ))
  | client (points : PyDict ℕ (ClientPoint ρ))

namespace QdrantVectorStore

open VectorStore

variable {ρ : Type} (ids : PointIds)

def points : QdrantVectorStore ρ → List (VectorPoint ρ)
  | .inMemory ps => ps
  | .client d => d.values.map ClientPoint.toVectorPoint

/-- `_point_id_for_key`. -/
def pointIdForKey (key : String) : ℕ := ids.digest (normalizeUpsertKey key)

/-- `_drop_legacy_point_id`: the point under the checksum goes if it has this very key. -/
def dropLegacyPointId (d : PyDict ℕ (ClientPoint ρ)) (key : String) (newId : ℕ) :
    PyDict ℕ (ClientPoint ρ) :=
  if ids.checksum key = newId then d
  else match d.get? (ids.checksum key) with
    | some p => if p.upsertKey = key then d.erase (ids.checksum key) else d
    | none => d

/-- `insert_sync` under a key. -/
def insertSync (v : QdrantVectorStore ρ) (key text : String) (record : ρ) :
    QdrantVectorStore ρ :=
  match v with
  | .inMemory ps => .inMemory (VectorStore.insert ps key text record)
  | .client d =>
    let canon := normalizeUpsertKey key
    let pointId := pointIdForKey ids canon
    let point : ClientPoint ρ :=
      ⟨⟨canon, text, record⟩, if key = "" then none else some canon⟩
    let dropped := dropLegacyPointId ids (dropLegacyPointId ids d key pointId) canon pointId
    .client (dropped.set pointId point)

/-- `_upsert_key_filter`: the point has the normal form of the key, or that with the prefix. -/
def matchesUpsertKey (key : String) (p : ClientPoint ρ) : Bool :=
  let canon := normalizeUpsertKey key
  if canon = "" then decide (p.upsertKey = key)
  else decide (p.upsertKey = canon ∨ p.upsertKey = "kv:" ++ canon ∨ p.kvKey = some canon)

/-- `count_by_upsert_key_sync` of a collection: it stops after a hundred pages of ten points. -/
def countByUpsertKey (d : PyDict ℕ (ClientPoint ρ)) (key : String) : ℕ :=
  min 1000 (d.values.countP (matchesUpsertKey (normalizeUpsertKey key)))

/-- The identifiers under which `delete_by_upsert_key_sync` looks for a point that no filter
finds. -/
def probeIds (key : String) : List ℕ :=
  let canon := normalizeUpsertKey key
  [pointIdForKey ids canon, pointIdForKey ids ("kv:" ++ canon), pointIdForKey ids key].dedup

/-- `delete_by_upsert_key_sync`, with the number of points that it reports. -/
def deleteByUpsertKeySync (v : QdrantVectorStore ρ) (key : String) : QdrantVectorStore ρ × ℕ :=
  if key = "" then (v, 0)
  else
    match v with
    | .inMemory ps => (.inMemory (VectorStore.deleteByUpsertKey ps key), ps.countP (belongsTo key))
    | .client d =>
      let canon := normalizeUpsertKey key
      let before := countByUpsertKey d canon
      if before = 0 then
        let ghosts := (probeIds ids key).filter fun i => d.contains i
        (.client (ghosts.foldl PyDict.erase d), ghosts.length)
      else
        let left := d.filter fun _ p => !matchesUpsertKey canon p
        (.client left, before - countByUpsertKey left canon)

/-- `delete_by_text_sync`. -/
def deleteByTextSync (v : QdrantVectorStore ρ) (text : String) : QdrantVectorStore ρ × ℕ :=
  if text = "" then (v, 0)
  else
    match v with
    | .inMemory ps => (.inMemory (ps.filter fun p => !decide (p.text = text)),
        ps.countP fun p => decide (p.text = text))
    | .client d => (.client (d.filter fun _ p => !decide (p.text = text)),
        d.values.countP fun p => decide (p.text = text))

/-- The store as the delete request uses it. -/
def backend : VectorBackend (QdrantVectorStore ρ) := ⟨deleteByUpsertKeySync ids, deleteByTextSync⟩

end QdrantVectorStore

end AtlasMemory
