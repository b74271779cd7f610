import AtlasMemory.Cognitive.Candidates
import AtlasMemory.Cognitive.WriteCalls
import AtlasMemory.Foundations.ForwardingCells
import AtlasMemory.Foundations.JsonRoundTrip
import AtlasMemory.L2Semantic.MetadataReadback

/-!
# Supersession chains

A belief revision marks the record of a key as superseded by the key of the write, and the write then
gives that key a live record.  So the records of a store are forwarding cells, every write is one of
their steps, and the chain from each superseded record ends in a live one.

The marks are read back from the stored metadata, whose text is normalised first.  Where this reads
another key than was written, the chain leads astray: the condition on the writes of a run is that
their marks are legible.
-/

namespace AtlasMemory

open PyText

/-! ## Records as cells -/

/-- The metadata of a row that stores the dictionary, as they are read back. -/
def readBack (metadata : PyDict String Json) : PyDict String Json :=
  StateRow.decodedMetadata ⟨"", 0, .finite 0, some (Json.obj metadata.entries).dumps, none⟩

/-- The two marks of the metadata are read back as they are stored. -/
def Legible (metadata : PyDict String Json) : Prop :=
  ∀ name ∈ ["is_superseded", "superseded_by"],
    (readBack metadata).get? name = metadata.get? name

/-- The cell of a record with these metadata. -/
def cellOf (metadata : PyDict String Json) : ForwardingCell String :=
  if isTrue (metadata.get? "is_superseded") then
    .forwarded (match metadata.get? "superseded_by" with
      | some (.str key) => some key
      | _ => none)
  else .live

def StateTable.cell (t : StateTable) (key : String) : ForwardingCell String :=
  match t.get? key with
  | none => .absent
  | some row => cellOf row.decodedMetadata

lemma cellOf_congr {d e : PyDict String Json}
    (h : ∀ name ∈ ["is_superseded", "superseded_by"], d.get? name = e.get? name) :
    cellOf d = cellOf e := by
  unfold cellOf
  rw [h "is_superseded" (by simp), h "superseded_by" (by simp)]

lemma cellOf_readBack {metadata : PyDict String Json} (h : Legible metadata) :
    cellOf (readBack metadata) = cellOf metadata :=
  cellOf_congr h

lemma dumps_obj_ne_empty (members : List (String × Json)) : (Json.obj members).dumps ≠ "" := by
  intro hempty
  obtain ⟨c, cs, hwrite, -⟩ := Json.exists_write_eq_cons (.obj members)
  have hlist := congrArg String.toList hempty
  rw [Json.dumps, String.toList_ofList, hwrite] at hlist
  exact absurd hlist (List.cons_ne_nil _ _)

/-- Metadata are legible where their text has no escape that the normalisation undoes. -/
lemma legible_of_noEscape {metadata : PyDict String Json}
    (hdistinct : Json.Distinct (.obj metadata.entries))
    (h : Textnorm.hasLiteralEscape (ofString (Json.obj metadata.entries).dumps) = false) :
    Legible metadata := by
  intro name _
  have hscalar : ∀ u ∈ ofString (Json.obj metadata.entries).dumps, ∃ c, u = .scalar c := by
    intro u hu
    obtain ⟨c, -, rfl⟩ := scalar_of_mem_ofString hu
    exact ⟨c, rfl⟩
  have hnormal : Textnorm.normalizeStoredText (ofString (Json.obj metadata.entries).dumps) =
      ofString (Json.obj metadata.entries).dumps := by
    unfold Textnorm.normalizeStoredText
    rw [h, if_neg (by decide)]
    exact Textnorm.repairSurrogates_of_scalar hscalar
  unfold readBack StateRow.decodedMetadata
  dsimp only
  rw [if_neg (dumps_obj_ne_empty metadata.entries), hnormal, Json.loads_dumps hdistinct]
  exact PyDict.get?_ofEntries metadata.nodupKeys name

/-- The metadata that are read back, by the text that is written. -/
lemma readBack_eq (metadata : PyDict String Json) :
    readBack metadata =
      match Json.loads (Textnorm.normalizeStoredText
        (Json.writeWith Json.escapedBody (.obj metadata.entries))) with
      | some (.obj members) => PyDict.ofEntries members
      | _ => ∅ := by
  unfold readBack StateRow.decodedMetadata
  dsimp only
  rw [if_neg (dumps_obj_ne_empty metadata.entries)]
  exact Json.ofString_dumps (.obj metadata.entries) ▸ rfl

/-! ## The calls -/

namespace VerifiedKVStore

variable {rt : Runtime} {kv : VerifiedKVStore}

def cells (kv : VerifiedKVStore) : String → ForwardingCell String := kv.db.stateVariables.cell

lemma cells_savepoint (name : String) : (kv.call rt (.savepoint name)).cells = kv.cells := rfl

lemma cells_releaseSavepoint (name : String) :
    (kv.call rt (.releaseSavepoint name)).cells = kv.cells := by
  unfold cells
  rw [db_call (by nofun)]
  rfl

lemma get?_call_setSync (a : SetArgs) (now : ℚ) (k : String) :
    (kv.call rt (.setSync a now)).db.stateVariables.get? k =
      if a.key = k then some ⟨a.value.dumps, PyFloat.clampUnit a.confidence, .finite now,
        some (Json.obj (a.storedMetadata rt now).entries).dumps, some (rt.hexdigest a.value.dumps)⟩
      else kv.db.stateVariables.get? k := by
  rw [db_call (by nofun)]
  exact WritePath.get?_setSync kv.db a now k

lemma cells_setSync_of_ne {a : SetArgs} {now : ℚ} {k : String} (h : k ≠ a.key) :
    (kv.call rt (.setSync a now)).cells k = kv.cells k := by
  unfold cells StateTable.cell
  rw [get?_call_setSync, if_neg (Ne.symm h)]

lemma cells_setSync_self {a : SetArgs} {now : ℚ} (httl : a.ttl = none)
    (h : Legible (a.metadata.getD ∅)) :
    (kv.call rt (.setSync a now)).cells a.key = cellOf (a.metadata.getD ∅) := by
  have hstored : a.storedMetadata rt now = a.metadata.getD ∅ := by
    unfold SetArgs.storedMetadata
    rw [httl]
  unfold cells StateTable.cell
  rw [get?_call_setSync, if_pos rfl, hstored]
  exact cellOf_readBack h

/-- The call sets a record for good, or is about a savepoint that is kept. -/
def keepsCells : KvCall → Bool
  | .setSync a _ => a.ttl.isNone
  | .savepoint _ | .releaseSavepoint _ => true
  | _ => false

/-- The record under a key that the calls set last. -/
def lastSet (key : String) (calls : List KvCall) : Option SetArgs :=
  calls.foldl (fun found c => match c with
    | .setSync a _ => if a.key = key then some a else found
    | _ => found) none

/-- The cell of a key after such calls is that of the record that they set last. -/
lemma cells_run {calls : List KvCall} (h : calls.all keepsCells = true) (key : String) :
    (kv.run rt calls).cells key = match lastSet key calls with
      | some a => cellOf (readBack (a.metadata.getD ∅))
      | none => kv.cells key := by
  induction calls using List.reverseRecOn with
  | nil => rfl
  | append_singleton calls c ih =>
    rw [List.all_append, Bool.and_eq_true] at h
    have hc : keepsCells c = true := by simpa using h.2
    have hrun : kv.run rt (calls ++ [c]) = (kv.run rt calls).call rt c := List.foldl_concat ..
    unfold lastSet
    rw [hrun, List.foldl_concat]
    cases c with
    | setSync a now =>
      dsimp only
      split_ifs with hkey
      · have hstored : a.storedMetadata rt now = a.metadata.getD ∅ := by
          unfold SetArgs.storedMetadata
          rw [Option.isNone_iff_eq_none.mp hc]
        unfold cells StateTable.cell
        rw [get?_call_setSync, if_pos hkey, hstored]
        rfl
      · rw [cells_setSync_of_ne (Ne.symm hkey)]
        exact ih h.1
    | savepoint name => exact ih h.1
    | releaseSavepoint name =>
      rw [cells_releaseSavepoint]
      exact ih h.1
    | _ => cases hc

end VerifiedKVStore

namespace WritePath

variable {ρ : Type} {env : WriteEnv ρ} {s : Stores ρ} {req : WriteRequest ρ} {times : WriteTimes}

/-! ## What is superseded -/

lemma get?_foldl_mixIn {key : String} (es : List HotBufferEntry) {items : PyDict String MemoryItem}
    (h : (items.get? key).isSome = true) : ((es.foldl mixIn items).get? key).isSome = true := by
  induction es generalizing items with
  | nil => exact h
  | cons e es ih =>
      have hset : ∀ k v, ((items.set k v).get? key).isSome = true := by
        intro k v
        rw [PyDict.get?_set]
        split_ifs
        · rfl
        · exact h
      rw [List.foldl_cons]
      apply ih
      unfold mixIn
      split_ifs
      · exact h
      · split
        · split_ifs
          · exact h
          · exact hset _ _
        · exact hset _ _

/-- The arbitration gets the record that the metadata name, if the store has one. -/
lemma lookup_of_named {w : ConflictArbiter.Incoming} {now : ℚ} {v : Json}
    (hv : (w.metadata.get? "supersedes").filter env.rt.truthy = some v)
    (h : (existingItems env s w.key w.val w.metadata req.sessionId now).get? (env.rt.pyStr v) =
      none) : s.kv.db.stateVariables.lookup (env.rt.pyStr v) = none := by
  by_contra hlookup
  obtain ⟨e, he⟩ := Option.ne_none_iff_exists'.mp hlookup
  have hnamed : ((addNamed env s.kv.db.stateVariables w.metadata
      (getArbitrationCandidates env s.kv.db.stateVariables w.key w.val)).get?
        (env.rt.pyStr v)).isSome = true := by
    unfold addNamed
    rw [hv]
    dsimp only
    split_ifs with hcontains
    · exact hcontains
    · rw [he]
      dsimp only
      rw [PyDict.get?_set_self]
      rfl
  have hsome := get?_foldl_mixIn (s.hot.getActive env.rt env.lex req.sessionId now) hnamed
  unfold existingItems at h
  rw [h] at hsome
  cases hsome

/-- The key that a revision supersedes is the key of the write, or has a record that the arbitration
sees, or has none in the store. -/
lemma superseded_source {w : ConflictArbiter.Incoming} {r : ArbitrationResult} {now : ℚ}
    (hr : env.arbiter.arbitrate env.rt env.lex w (arbiterItems
      (existingItems env s w.key w.val w.metadata req.sessionId now)) = .ok r)
    {oldKey : String} (hold : revisedKey env w r = some oldKey)
    (hnone : (existingItems env s w.key w.val w.metadata req.sessionId now).get? oldKey = none) :
    oldKey = w.key ∨ s.kv.db.stateVariables.lookup oldKey = none := by
  set items := existingItems env s w.key w.val w.metadata req.sessionId now with hitems
  unfold revisedKey at hold
  split_ifs at hold with hrev
  have hkey := Option.some.inj hold
  have hwarned : warnedMetadata r w.metadata = w.metadata := by
    unfold warnedMetadata
    rw [hrev]
    simp
  rw [hwarned] at hkey
  unfold supersededKey at hkey
  split at hkey
  · -- the arbiter names a key: the one of its best candidate
    rename_i best hbest
    subst hkey
    obtain ⟨c, hc, hckey⟩ : ∃ c ∈ ConflictArbiter.foundCandidates env.rt env.lex env.arbiter w
        (arbiterItems items), c.key = best := by
      unfold ConflictArbiter.arbitrate at hr
      cases hgen : ConflictArbiter.generateCandidates env.rt env.lex env.arbiter w
          (arbiterItems items) with
      | error err => simp [hgen, Except.map] at hr
      | ok cs =>
          obtain rfl := ConflictArbiter.sorted_of_generateCandidates hgen
          obtain rfl : ConflictArbiter.decideBest env.rt env.lex env.arbiter w _ = r := by
            simpa [hgen, Except.map] using hr
          have hsup := (Option.filter_eq_some_iff.mp hbest).1
          cases hcs : ConflictArbiter.sortByScore (ConflictArbiter.foundCandidates env.rt env.lex
              env.arbiter w (arbiterItems items)) with
          | nil =>
              rw [hcs] at hsup
              cases hsup
          | cons c others =>
              refine ⟨c, ?_, ?_⟩
              · refine (List.mem_insertionSort fun a b : ArbitrationCandidate =>
                  b.score ≤ a.score).mp ?_
                show c ∈ ConflictArbiter.sortByScore _
                rw [hcs]
                exact List.mem_cons_self
              · rw [hcs] at hsup
                unfold ConflictArbiter.decideBest at hsup
                dsimp only at hsup
                split_ifs at hsup
                · exact Option.some.inj hsup
    rcases ConflictArbiter.candidate_source hc with rfl | ⟨e, he, p, -, hcand⟩
    · exact Or.inl hckey.symm
    · -- a candidate of a record, which the arbitration has seen
      have hekey : e.1 = best := (ConflictArbiter.candidateOf_spec hcand).1.symm.trans hckey
      have hget : (arbiterItems items).get? e.1 = some e.2 := PyDict.mem_entries_iff.mp he
      unfold arbiterItems at hget
      rw [PyDict.get?_mapValues, hekey, hnone] at hget
      cases hget
  · cases hv : (w.metadata.get? "supersedes").filter env.rt.truthy with
    | none =>
        rw [hv] at hkey
        exact Or.inl hkey.symm
    | some v =>
        rw [hv] at hkey
        obtain rfl : env.rt.pyStr v = oldKey := hkey
        exact Or.inr (lookup_of_named hv hnone)

/-! ## One write -/

/-- The marks of all metadata that the write stores are legible. -/
def LegibleWrite (env : WriteEnv ρ) (s : Stores ρ) (req : WriteRequest ρ) (times : WriteTimes) :
    Prop :=
  ∀ a now, KvCall.setSync a now ∈ writeCalls env s req times → Legible (a.metadata.getD ∅)

lemma cellOf_supersedeArgs (oldKey key : String) (old : MemoryItem) (now : ℚ) :
    cellOf ((supersedeArgs env oldKey key old now).metadata.getD ∅) = .forwarded (some key) := by
  unfold cellOf supersedeArgs
  rw [Option.getD_some, PyDict.get?_set_of_ne _ _ (by decide),
    PyDict.get?_set_of_ne _ _ (by decide), PyDict.get?_set_self,
    PyDict.get?_set_of_ne _ _ (by decide), PyDict.get?_set_self]
  rfl

/-- The note of the points that are left keeps the pointer. -/
lemma cellOf_tombstoneArgs {oldKey key : String} {old : MemoryItem}
    (h : old.metadata.get? "superseded_by" = some (.str key)) :
    cellOf ((tombstoneArgs oldKey old).metadata.getD ∅) = .forwarded (some key) := by
  unfold cellOf tombstoneArgs
  rw [Option.getD_some, PyDict.get?_set_self, PyDict.get?_set_of_ne _ _ (by decide),
    PyDict.get?_set_of_ne _ _ (by decide), h]
  rfl

lemma get?_toMemoryItem {rt : Runtime} {key : String} {row : StateRow} :
    (row.toMemoryItem rt key).metadata.get? "superseded_by" =
      row.decodedMetadata.get? "superseded_by" := by
  unfold StateRow.toMemoryItem StateRow.toStateDict
  dsimp only
  split_ifs
  · exact PyDict.get?_set_of_ne _ _ (by decide)
  · rfl

def markedRow (rt : Runtime) (mark : SetArgs) (now : ℚ) : StateRow where
  value := mark.value.dumps
  confidence := PyFloat.clampUnit mark.confidence
  timestamp := .finite now
  metadata := some (Json.obj (mark.storedMetadata rt now).entries).dumps
  valueHash := some (rt.hexdigest mark.value.dumps)

/-- After a mark the note is about the row just marked. -/
lemma tombstoneCalls_marked (kv : VerifiedKVStore) (mark : SetArgs) (now : ℚ) :
    tombstoneCalls env (kv.call env.rt (.setSync mark now)) mark.key now =
      [.setSync (tombstoneArgs mark.key ((markedRow env.rt mark now).toMemoryItem env.rt mark.key))
        now] := by
  have hget := @VerifiedKVStore.get?_call_setSync env.rt kv mark now mark.key
  rw [if_pos rfl] at hget
  unfold tombstoneCalls StateTable.lookup
  rw [hget]
  rfl

/-- The mark forwards its key, and so does the note after it. -/
lemma cells_markAndNote {mark : SetArgs} {key oldKey : String} {old : MemoryItem} {now : ℚ}
    (hmark : mark = supersedeArgs env oldKey key old now)
    (hlegible : Legible (mark.metadata.getD ∅)) :
    (s.kv.call env.rt (.setSync mark now)).cells oldKey = .forwarded (some key) ∧
      ∀ note, tombstoneCalls env (s.kv.call env.rt (.setSync mark now)) oldKey now =
        [.setSync note now] → Legible (note.metadata.getD ∅) →
        ((s.kv.call env.rt (.setSync mark now)).call env.rt (.setSync note now)).cells oldKey =
          .forwarded (some key) ∧ note.key = oldKey := by
  have hkey : mark.key = oldKey := by rw [hmark]; rfl
  have hcell : cellOf (mark.metadata.getD ∅) = .forwarded (some key) := by
    rw [hmark]
    exact cellOf_supersedeArgs oldKey key old now
  have httl : mark.ttl = none := by rw [hmark]; rfl
  constructor
  · rw [← hkey]
    exact (VerifiedKVStore.cells_setSync_self httl hlegible).trans hcell
  · intro note hnote hnotelegible
    rw [← hkey, tombstoneCalls_marked] at hnote
    have hdef : tombstoneArgs mark.key ((markedRow env.rt mark now).toMemoryItem env.rt mark.key) =
        note := by
      have hcall := List.cons.inj hnote
      exact (KvCall.setSync.inj hcall.1).1
    have hnotekey : note.key = oldKey := by rw [← hdef, ← hkey]; rfl
    refine ⟨?_, hnotekey⟩
    rw [← hnotekey, VerifiedKVStore.cells_setSync_self (by rw [← hdef]; rfl) hnotelegible, ← hdef]
    -- the pointer that is read back is the one of the mark
    refine cellOf_tombstoneArgs ?_
    rw [get?_toMemoryItem]
    have hstored : mark.storedMetadata env.rt now = mark.metadata.getD ∅ := by
      unfold SetArgs.storedMetadata
      rw [httl]
    have hread : (markedRow env.rt mark now).decodedMetadata = readBack (mark.metadata.getD ∅) := by
      rw [← hstored]
      rfl
    rw [hread, hlegible "superseded_by" (by simp), hmark]
    unfold supersedeArgs
    rw [Option.getD_some, PyDict.get?_set_of_ne _ _ (by decide), PyDict.get?_set_self]

/-- The calls of a belief revision forward the superseded key to the key of the write, and leave the
others. -/
lemma cells_revisionCalls {w : ConflictArbiter.Incoming} {r : ArbitrationResult}
    (hr : env.arbiter.arbitrate env.rt env.lex w (arbiterItems
      (existingItems env s w.key w.val w.metadata req.sessionId times.scanned)) = .ok r)
    {calls : List KvCall} (hcalls : revisionCalls env s
      (existingItems env s w.key w.val w.metadata req.sessionId times.scanned) w.key times.revised
      (revisedKey env w r) = calls)
    (hlegible : ∀ a now, KvCall.setSync a now ∈ calls → Legible (a.metadata.getD ∅)) (k : String) :
    (s.kv.run env.rt calls).cells k = s.kv.cells k ∨
      (s.kv.run env.rt calls).cells k = .forwarded (some w.key) := by
  cases hold : revisedKey env w r with
  | none =>
      rw [hold] at hcalls
      subst hcalls
      exact Or.inl rfl
  | some oldKey =>
      rw [hold] at hcalls
      unfold revisionCalls markCalls at hcalls
      dsimp only at hcalls
      cases hitem : (existingItems env s w.key w.val w.metadata req.sessionId times.scanned).get?
          oldKey with
      | none =>
          -- nothing is marked, and there is no record to note anything at
          rw [hitem] at hcalls
          dsimp only at hcalls
          have hnothing : calls = [] := by
            rw [← hcalls]
            split_ifs with hpurged
            · rfl
            · rcases superseded_source hr hold hitem with hkey | hlookup
              · exact absurd (by unfold purges; rw [if_neg (not_not.mpr hkey)]) hpurged
              · unfold tombstoneCalls
                rw [show s.kv.run env.rt [] = s.kv from rfl, hlookup]
                rfl
          rw [hnothing]
          exact Or.inl rfl
      | some old =>
          rw [hitem] at hcalls
          dsimp only at hcalls
          set mark := supersedeArgs env oldKey w.key old times.revised with hmark
          have hmem : KvCall.setSync mark times.revised ∈ calls := by
            rw [← hcalls]
            split_ifs
            · exact List.mem_singleton.mpr rfl
            · exact List.mem_append_left _ (List.mem_singleton.mpr rfl)
          obtain ⟨hmarked, hnoted⟩ := @cells_markAndNote _ env s mark w.key oldKey old
            times.revised hmark (hlegible _ _ hmem)
          have hother : k ≠ oldKey →
              (s.kv.call env.rt (.setSync mark times.revised)).cells k = s.kv.cells k :=
            fun hne => VerifiedKVStore.cells_setSync_of_ne hne
          split_ifs at hcalls
          · subst hcalls
            show (s.kv.call env.rt (.setSync mark times.revised)).cells k = _ ∨
              (s.kv.call env.rt (.setSync mark times.revised)).cells k = _
            by_cases hkold : k = oldKey
            · rw [hkold]
              exact Or.inr hmarked
            · exact Or.inl (hother hkold)
          · have hnote : tombstoneCalls env (s.kv.run env.rt [.setSync mark times.revised]) oldKey
                times.revised = _ := tombstoneCalls_marked s.kv mark times.revised
            rw [hnote] at hcalls
            subst hcalls
            obtain ⟨hcell, hnotekey⟩ := hnoted _ hnote
              (hlegible _ _ (List.mem_append_right _ (List.mem_singleton.mpr rfl)))
            rw [run_append]
            by_cases hkold : k = oldKey
            · rw [hkold]
              exact Or.inr hcell
            · left
              exact (VerifiedKVStore.cells_setSync_of_ne hkold).trans (hother hkold)

/-- A live record: what is persisted is not marked, unless the caller marks it. -/
lemma cellOf_of_unmarked {metadata : PyDict String Json}
    (h : isTrue (metadata.get? "is_superseded") = false) : cellOf metadata = .live := by
  unfold cellOf
  rw [h, if_neg (by decide)]

/-- The cells after the calls of a write that goes through. -/
lemma cells_persisted (kv : VerifiedKVStore) (a : Accepted) (now : ℚ) (k : String) :
    (kv.run env.rt [.savepoint sagaTx, .setSync (persistArgs a) now,
      .releaseSavepoint sagaTx]).cells k =
        ((kv.call env.rt (.savepoint sagaTx)).call env.rt (.setSync (persistArgs a) now)).cells k :=
  congrFun (@VerifiedKVStore.cells_releaseSavepoint env.rt ((kv.call env.rt
    (.savepoint sagaTx)).call env.rt (.setSync (persistArgs a) now)) sagaTx) k

/-- An arbitrated write that goes through is a step of the cells. -/
lemma step_writeArbitrated {w : ConflictArbiter.Incoming} {resp : WriteResponse}
    (hok : (writeArbitrated env s req w.key w.val w.metadata w.confidence times).2 = .ok resp)
    (hclient : isTrue (w.metadata.get? "is_superseded") = false)
    (hlegible : ∀ a now, KvCall.setSync a now ∈ arbitratedCalls env s req w times →
      Legible (a.metadata.getD ∅)) :
    ForwardingCell.Step s.kv.cells
      (writeArbitrated env s req w.key w.val w.metadata w.confidence times).1.kv.cells := by
  rw [kv_writeArbitrated]
  unfold writeArbitrated at hok
  unfold arbitratedCalls at hlegible ⊢
  dsimp only at hok hlegible ⊢
  cases hr : env.arbiter.arbitrate env.rt env.lex w (arbiterItems
      (existingItems env s w.key w.val w.metadata req.sessionId times.scanned)) with
  | error err =>
      rw [hr] at hok
      cases hok
  | ok r =>
      rw [hr] at hok hlegible
      dsimp only at hok hlegible ⊢
      by_cases hrejects : rejects r = true
      · rw [if_pos hrejects]
        exact Or.inl rfl
      rw [if_neg hrejects] at hok hlegible ⊢
      unfold revisedBy at hlegible ⊢
      cases hrevised : revise env s w.key w.val w.confidence (warnedMetadata r w.metadata)
          req.reason (existingItems env s w.key w.val w.metadata req.sessionId times.scanned) r
          times.revised with
      | mk revised accepted =>
          rw [hrevised] at hok hlegible
          cases accepted with
          | none => cases hok
          | some a =>
              dsimp only at hok hlegible ⊢
              obtain ⟨hkey, -, hmeta⟩ := accepted_of_revise (congrArg Prod.snd hrevised)
              rw [persistCalls_of_ok hok] at hlegible ⊢
              rw [run_append]
              set kv := s.kv.run env.rt (revisionCalls env s (existingItems env s w.key w.val
                w.metadata req.sessionId times.scanned) w.key times.revised (revisedKey env w r))
                with hkv
              have hpersistkey : (persistArgs a).key = w.key := hkey
              refine Or.inr ⟨w.key, ?_, fun k hk => ?_⟩
              · have hpersisted := hlegible (persistArgs a) times.persisted
                  (List.mem_append_right _ (by simp))
                rw [cells_persisted, ← hpersistkey,
                  VerifiedKVStore.cells_setSync_self rfl hpersisted]
                refine cellOf_of_unmarked ?_
                show isTrue (a.metadata.get? "is_superseded") = false
                rw [hmeta _ (by decide), get?_warnedMetadata (by decide)]
                exact hclient
              · rw [cells_persisted, VerifiedKVStore.cells_setSync_of_ne (by rw [hpersistkey]; exact hk),
                  VerifiedKVStore.cells_savepoint]
                rcases cells_revisionCalls hr rfl
                  (fun a now h => hlegible a now (List.mem_append_left _ h)) k with h | h
                · exact Or.inl h
                · exact Or.inr (Or.inr h)

/-- **Write rule.**  A write that goes through is a step of the cells, when its marks are legible and
the caller does not mark the record. -/
lemma step_write {input : NormalizedInput} {resp : WriteResponse}
    (hinput : normalizeWriteInput env req = .ok input)
    (hok : (write env s req times).2 = .ok resp)
    (hclient : isTrue (input.metadata.get? "is_superseded") = false)
    (hlegible : LegibleWrite env s req times) :
    ForwardingCell.Step s.kv.cells (write env s req times).1.kv.cells := by
  unfold LegibleWrite writeCalls at hlegible
  rw [hinput] at hlegible
  dsimp only at hlegible
  by_cases hgate : StoppedByGate env input
  · obtain ⟨_, hwrite, -⟩ := @write_of_stopped _ env s req times input hinput hgate
    rw [hwrite]
    exact Or.inl rfl
  rw [if_neg hgate] at hlegible
  by_cases hreplay : TakenForReplay env s req input
  · rw [if_pos hreplay] at hlegible
    rw [write_of_replay hinput hgate hreplay]
    refine Or.inr ⟨input.key, ?_, fun k hk => Or.inl ?_⟩
    · have hlegible' := hlegible _ _ (List.mem_singleton.mpr rfl)
      have hself := @VerifiedKVStore.cells_setSync_self env.rt s.kv (touchedArgs input)
        times.persisted rfl hlegible'
      refine hself.trans (cellOf_of_unmarked ?_)
      show isTrue ((assertedMetadata input.metadata).get? "is_superseded") = false
      unfold assertedMetadata
      split_ifs
      · exact hclient
      · rw [PyDict.get?_set_of_ne _ _ (by decide)]
        exact hclient
    · exact VerifiedKVStore.cells_setSync_of_ne hk
  · rw [if_neg hreplay] at hlegible
    rw [write_eq_arbitrated hinput hgate hreplay] at hok ⊢
    refine step_writeArbitrated hok ?_ hlegible
    rw [get?_incomingOf (by decide)]
    exact hclient

/-! ## Runs -/

/-- A call of `write` that goes through, with metadata that do not mark the record. -/
def Succeeds (env : WriteEnv ρ) (s s' : Stores ρ) (req : WriteRequest ρ) (times : WriteTimes) :
    Prop :=
  ∃ input resp, normalizeWriteInput env req = .ok input ∧ write env s req times = (s', .ok resp) ∧
    isTrue (input.metadata.get? "is_superseded") = false

/-- One such call, and legible marks. -/
def WriteStep (env : WriteEnv ρ) (s s' : Stores ρ) : Prop :=
  ∃ req times, Succeeds env s s' req times ∧ LegibleWrite env s req times

lemma run_cells {s' : Stores ρ} (hrun : Relation.ReflTransGen (WriteStep env) s s') :
    Relation.ReflTransGen ForwardingCell.Step s.kv.cells s'.kv.cells := by
  induction hrun with
  | refl => exact .refl
  | tail _ hstep ih =>
      obtain ⟨req, times, ⟨input, resp, hinput, hwrite, hclient⟩, hlegible⟩ := hstep
      refine ih.tail ?_
      have hstep := step_write hinput (congrArg Prod.snd hwrite) hclient hlegible
      rw [hwrite] at hstep
      exact hstep

/-- **Chains of supersession end in a live record.**  In every state that a run of writes reaches from
stores without superseded records, the way from each superseded key along `superseded_by` ends, with
no key twice, at a key with a record that is not superseded. -/
theorem chains_end {s' : Stores ρ} (hfresh : ∀ key o, s.kv.cells key ≠ .forwarded o)
    (hrun : Relation.ReflTransGen (WriteStep env) s s') {key : String} {o : Option String}
    (hkey : s'.kv.cells key = .forwarded o) : ForwardingCell.ChainEnds s'.kv.cells key :=
  ForwardingCell.chainEnds_of_run hfresh (run_cells hrun) hkey

/-! ## A key that is read back as another one -/

/-- Metadata of scalars, with a text that the normalisation leaves as it is. -/
def plainMetadata (metadata : PyDict String Json) : Bool :=
  metadata.entries.all (fun e => match e.2 with
    | .arr _ | .obj _ => false
    | _ => true) &&
  !Textnorm.hasLiteralEscape (ofString (Json.obj metadata.entries).dumps)

lemma legible_of_plainMetadata {metadata : PyDict String Json} (h : plainMetadata metadata = true) :
    Legible metadata := by
  obtain ⟨hscalars, hescape⟩ := Bool.and_eq_true_iff.mp h
  refine legible_of_noEscape ⟨metadata.nodupKeys, ?_⟩ (by simpa using hescape)
  have hmembers : ∀ ms : List (String × Json), ms.all (fun e => match e.2 with
      | .arr _ | .obj _ => false
      | _ => true) = true → Json.DistinctMembers ms := by
    intro ms hms
    induction ms with
    | nil => trivial
    | cons m ms ih =>
        rw [List.all_cons, Bool.and_eq_true] at hms
        refine ⟨?_, ih hms.2⟩
        obtain ⟨name, v⟩ := m
        cases v with
        | arr vs => cases hms.1
        | obj ms => cases hms.1
        | _ => trivial
  exact hmembers metadata.entries hscalars

/-- All metadata that the calls store are plain. -/
def plainCalls (calls : List KvCall) : Bool :=
  calls.all fun c => match c with
    | .setSync a _ => plainMetadata (a.metadata.getD ∅)
    | _ => true

lemma legibleWrite_of_plainCalls (h : plainCalls (writeCalls env s req times) = true) :
    LegibleWrite env s req times := fun a now hmem =>
  legible_of_plainMetadata (List.all_eq_true.mp h (.setSync a now) hmem)

def firstWrite : WriteRequest Unit where
  key := .str "user:x"
  value := .str "a"

/-- A write to another key that supersedes it. -/
def supersedingWrite (key : String) : WriteRequest Unit where
  key := .str key
  value := .str "b"
  metadata := some (PyDict.ofEntries [("supersedes", .str "user:x")])

def firstStores : Stores Unit := (write sampleWriteEnv emptyStores firstWrite (timesAt 1)).1

def supersededStores (key : String) : Stores Unit :=
  (write sampleWriteEnv firstStores (supersedingWrite key) (timesAt 2)).1

lemma forall_emptyStores (key : String) (o : Option String) :
    emptyStores.kv.cells key ≠ .forwarded o := by
  show ForwardingCell.absent ≠ .forwarded o
  nofun

lemma exists_of_isOk {ε α : Type} {e : Except ε α} (h : e.isOk = true) : ∃ v, e = .ok v := by
  cases e with
  | error err => cases h
  | ok v => exact ⟨v, rfl⟩

lemma succeeds_firstWrite : Succeeds sampleWriteEnv emptyStores firstStores firstWrite (timesAt 1) := by
  have hok : (write sampleWriteEnv emptyStores firstWrite (timesAt 1)).2.isOk = true := by
    decide
  obtain ⟨resp, hresp⟩ := exists_of_isOk hok
  have hinput : normalizeWriteInput sampleWriteEnv firstWrite =
      .ok ⟨"user:x", .str "a", .finite 1, ∅, none⟩ :=
    normalizeWriteInput_sample rfl (by decide) (by decide) rfl
  unfold firstStores
  exact ⟨_, resp, hinput, by rw [← hresp], rfl⟩

lemma succeeds_supersedingWrite {key : String} (hstrip : PyString.strip key = key) (hne : key ≠ "")
    (hok : (write sampleWriteEnv firstStores (supersedingWrite key) (timesAt 2)).2.isOk = true) :
    Succeeds sampleWriteEnv firstStores (supersededStores key) (supersedingWrite key)
      (timesAt 2) := by
  obtain ⟨resp, hresp⟩ := exists_of_isOk hok
  have hinput : normalizeWriteInput sampleWriteEnv (supersedingWrite key) =
      .ok ⟨key, .str "b", .finite 1, PyDict.ofEntries [("supersedes", .str "user:x")], none⟩ :=
    normalizeWriteInput_sample rfl hstrip hne rfl
  unfold supersededStores
  exact ⟨_, resp, hinput, by rw [← hresp], rfl⟩

/-- The cell of a key after both writes is that of the record that the second one sets last. -/
lemma cells_supersededStores {key k : String}
    (h : (writeCalls sampleWriteEnv firstStores (supersedingWrite key) (timesAt 2)).all
      VerifiedKVStore.keepsCells = true) :
    (supersededStores key).kv.cells k =
      match VerifiedKVStore.lastSet k
        (writeCalls sampleWriteEnv firstStores (supersedingWrite key) (timesAt 2)) with
      | some a => cellOf (readBack (a.metadata.getD ∅))
      | none => firstStores.kv.cells k := by
  unfold supersededStores
  rw [kv_write]
  generalize writeCalls _ _ _ _ = calls at h ⊢
  exact VerifiedKVStore.cells_run h k

lemma plainCalls_supersedingWrite : plainCalls
    (writeCalls sampleWriteEnv firstStores (supersedingWrite "user:y") (timesAt 2)) = true := by
  simp only [plainCalls, plainMetadata, Json.ofString_dumps]
  decide +kernel

lemma forwarded_supersededStores :
    (supersededStores "user:y").kv.cells "user:x" = .forwarded (some "user:y") := by
  rw [cells_supersededStores (by decide +kernel)]
  simp only [readBack_eq]
  decide +kernel

theorem chains_end_supersededStores :
    ForwardingCell.ChainEnds (supersededStores "user:y").kv.cells "user:x" := by
  have hfirst : plainCalls (writeCalls sampleWriteEnv emptyStores firstWrite (timesAt 1)) =
      true := by decide +kernel
  have hok : (write sampleWriteEnv firstStores (supersedingWrite "user:y")
      (timesAt 2)).2.isOk = true := by decide +kernel
  have hlegible : LegibleWrite sampleWriteEnv firstStores (supersedingWrite "user:y") (timesAt 2) :=
    legibleWrite_of_plainCalls plainCalls_supersedingWrite
  have hrun : Relation.ReflTransGen (WriteStep sampleWriteEnv) emptyStores
      (supersededStores "user:y") :=
    (Relation.ReflTransGen.single ⟨_, _, succeeds_firstWrite,
      legibleWrite_of_plainCalls hfirst⟩).tail
        ⟨_, _, succeeds_supersedingWrite (by decide) (by decide) hok, hlegible⟩
  exact chains_end forall_emptyStores hrun forwarded_supersededStores

/-- A key with a backslash before a slash. -/
def escapedKey : String := "user:a\\/b"

example : PyString.strip escapedKey = escapedKey ∧ escapedKey ≠ "user:a/b" := by decide +kernel

/-- The pointer to the escaped key is read back without its backslash. -/
lemma forwarded_escapedKey :
    (supersededStores escapedKey).kv.cells "user:x" = .forwarded (some "user:a/b") := by
  rw [cells_supersededStores (by decide +kernel)]
  simp only [readBack_eq]
  decide +kernel

lemma absent_escapedKey : (supersededStores escapedKey).kv.cells "user:a/b" = .absent := by
  rw [cells_supersededStores (by decide +kernel)]
  simp only [readBack_eq]
  decide +kernel

/-- A chain leads astray: the pointer to the escaped key is read back without its backslash, and
there is no record under that key. -/
theorem chain_leads_astray : ∃ s₁ s₂ req₁ req₂ times₁ times₂,
    Succeeds sampleWriteEnv emptyStores s₁ req₁ times₁ ∧
      Succeeds sampleWriteEnv s₁ s₂ req₂ times₂ ∧
      s₂.kv.cells "user:x" = .forwarded (some "user:a/b") ∧
      ¬ForwardingCell.ChainEnds s₂.kv.cells "user:x" := by
  have hok : (write sampleWriteEnv firstStores (supersedingWrite escapedKey)
      (timesAt 2)).2.isOk = true := by decide +kernel
  have hastray : ¬ForwardingCell.ChainEnds (supersededStores escapedKey).kv.cells "user:x" :=
    ForwardingCell.not_chainEnds_of_absent forwarded_escapedKey absent_escapedKey
  have hsecond := succeeds_supersedingWrite (by decide) (by decide) hok
  exact ⟨firstStores, supersededStores escapedKey, _, _, _, _, succeeds_firstWrite, hsecond,
    forwarded_escapedKey, hastray⟩

end WritePath

end AtlasMemory
