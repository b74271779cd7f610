import AtlasMemory.L2Semantic.KvStore
import AtlasMemory.Security.DeleteGuard

/-!
# The delete request

The model of `_handle_delete` over a store of records and a vector store: the guard, the text of
the record, which is read before the record goes and up to the case of its key, the deletion of the
record under exactly the key of the request, and then the points, under the key with and without
its prefix and, where there were none, under the text.
-/

namespace AtlasMemory

/-- What the delete request uses of a vector store: the two deletions, which swallow their own
exceptions, with the number of deleted points. -/
structure VectorBackend (V : Type) where
  /-- `delete_by_upsert_key`. -/
  deleteByUpsertKey : V → String → V × ℕ
  /-- `delete_by_text_sync`. -/
  deleteByText : V → String → V × ℕ

/-- The reply to a delete request. -/
structure DeleteReply where
  status : String
  key : String
  deleted : Bool
  found : Bool
  reason : Option String := none
  message : Option String := none
  vectorPointsDeleted : Option ℕ := none
  deriving DecidableEq

namespace MemoryController

variable {V : Type}

/-- The text of a value: a string as it is, anything else as `json.dumps(value,
ensure_ascii=False, default=str)`; `None` for `None`. -/
def textOf (rawText : Json → String) : Json → Option String
  | .null => none
  | .str s => some s
  | v => some (rawText v)

/-- `_kv_value_text`. -/
def kvValueText (rawText : Json → String) (t : StateTable) (key : String) : Option String :=
  (t.lookup key).bind fun e => textOf rawText e.2.decodedValue

/-- The keys under which the points of a record are deleted. -/
def keysToDelete (key : String) : List String :=
  if PyString.startsWith key "kv:" then [key, String.ofList (key.toList.drop 3)]
  else ["kv:" ++ key, key]

/-- `_delete_kv_vector`. -/
def deleteKvVector (vb : VectorBackend V) (v : V) (key : String) : V × ℕ :=
  (keysToDelete key).foldl (fun acc k =>
    let (v, n) := vb.deleteByUpsertKey acc.1 k
    (v, acc.2 + n)) (v, 0)

/-- `_delete_kv_vector_by_text`; without a text the record is read once more. -/
def deleteKvVectorByText (vb : VectorBackend V) (rawText : Json → String) (t : StateTable) (v : V)
    (key : String) (valueText : Option String) : V × ℕ :=
  match valueText.orElse fun _ => kvValueText rawText t key with
  | some text => vb.deleteByText v text
  | none => (v, 0)

/-- The reply to a request for a protected key. -/
def rejectedReply (key pre : String) : DeleteReply where
  status := "rejected"
  key := key
  deleted := false
  found := false
  reason := some "protected_key"
  message := some s!"Key '{key}' is protected (prefix '{pre}'). Use soft tombstone or explicit ADR override."

/-- The reply to a request that went through. -/
def okReply (key : String) (deleted : Bool) (points : ℕ) : DeleteReply where
  status := "ok"
  key := key
  deleted := deleted
  found := deleted
  vectorPointsDeleted := some points

/-- The points of a record that has been deleted. -/
def deletePoints (vb : VectorBackend V) (rawText : Json → String) (t : StateTable) (v : V)
    (key : String) (valueText : Option String) : V × ℕ :=
  match deleteKvVector vb v key with
  | (v, 0) => deleteKvVectorByText vb rawText t v key valueText
  | (v, n) => (v, n)

/-- `_handle_delete`; an exception of the store leaves the points as they are. -/
def handleDelete (rt : Runtime) (vb : VectorBackend V) (rawText : Json → String) (key : String)
    (now : ℚ) (kv : VerifiedKVStore) (v : V) :
    VerifiedKVStore × V × Except PyError DeleteReply :=
  if key = "" then (kv, v, .error ⟨.valueError, "Key is required for delete"⟩)
  else match DeleteGuard.isDeleteProtected key with
    | some pre => (kv, v, .ok (rejectedReply key pre))
    | none =>
      let valueText := kvValueText rawText kv.db.stateVariables key
      let deleted := kv.db.stateVariables.contains key
      let after := kv.call rt (.deleteSync key now)
      match (kv.db.deleteSync rt key now).2 with
      | .error err => (after, v, .error err)
      | .ok _ =>
        if deleted then
          let (v, n) := deletePoints vb rawText after.db.stateVariables v key valueText
          (after, v, .ok (okReply key true n))
        else (after, v, .ok (okReply key false 0))

/-- To the records, a delete request is a deletion under an unprotected key, or nothing. -/
lemma fst_handleDelete_cases (rt : Runtime) (vb : VectorBackend V) (rawText : Json → String)
    (key : String) (now : ℚ) (kv : VerifiedKVStore) (v : V) :
    (handleDelete rt vb rawText key now kv v).1 = kv ∨
      (¬DeleteGuard.Protects key ∧
        (handleDelete rt vb rawText key now kv v).1 = kv.call rt (.deleteSync key now)) := by
  unfold handleDelete
  split_ifs
  · exact Or.inl rfl
  · split
    · exact Or.inl rfl
    · next hguard =>
      refine Or.inr ⟨by simp [DeleteGuard.Protects, hguard], ?_⟩
      dsimp only
      split
      · rfl
      · split <;> rfl

end MemoryController

end AtlasMemory
