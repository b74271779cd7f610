import AtlasMemory.L2Semantic.PointSweeps
import Mathlib.Data.List.Perm.Subperm
import Mathlib.Data.Set.Insert

/-!
# The migration of point identifiers

The model of `migrate_legacy_point_ids_sync`, which writes the points that do not stand under the
digest of their key again under it and deletes them where they stood: a scan for the stale points,
then batches that are first read and then moved one by one, and again until the scan finds none.

One round is enough, whatever the collection is: a point that was written again is not stale.  What
is lost on the way is lost by the writing.  Of named vectors only the first is written; a point that
stands under the new identifier is overwritten; and a stale point that stands there is deleted after
it was overwritten, or is not read any more.
-/

namespace AtlasMemory

/-- The vector of a point: one, or one for each name. -/
inductive PointVector (β : Type)
  | plain (vec : β)
  | named (branches : List (String × β))
  deriving DecidableEq

/-- A point of a collection with its vector. -/
structure StoredPoint (ρ β : Type) extends ClientPoint ρ where
  vector : PointVector β

/-- What the migration raises. -/
inductive MigrationFailure
  /-- The exception of the scan. -/
  | scan (err : PyError)
  /-- The `RuntimeError` after too many rounds. -/
  | rounds (rounds : ℕ)
  /-- `StopIteration`, from a point without a named vector. -/
  | stopIteration
  /-- The `ValueError` of a range without a step. -/
  | zeroStep

namespace PointMigration

open QdrantVectorStore

variable {ρ β : Type} (ids : PointIds)

/-- The identifier that a point is moved to. -/
def newId (p : StoredPoint ρ β) : ℕ := pointIdForKey ids p.upsertKey

/-- `is_stale`. -/
def isStale (e : ℕ × StoredPoint ρ β) : Bool :=
  decide (e.2.upsertKey ≠ "") && decide (e.1 ≠ newId ids e.2)

/-- The point as it is written: of named vectors the first. -/
def flattened (p : StoredPoint ρ β) : Option (StoredPoint ρ β) :=
  match p.vector with
  | .plain _ => some p
  | .named [] => none
  | .named ((_, vec) :: _) => some { p with vector := .plain vec }

/-- A point is written under its new identifier and deleted where it stood. -/
def movePoint (d : PyDict ℕ (StoredPoint ρ β)) (e : ℕ × StoredPoint ρ β) :
    Option (PyDict ℕ (StoredPoint ρ β)) :=
  (flattened e.2).map fun p =>
    let written := d.set (newId ids e.2) p
    if e.1 ≠ newId ids e.2 then written.erase e.1 else written

def movePoints : List (ℕ × StoredPoint ρ β) → PyDict ℕ (StoredPoint ρ β) → ℕ →
    PyDict ℕ (StoredPoint ρ β) × Except MigrationFailure ℕ
  | [], d, moved => (d, .ok moved)
  | e :: rest, d, moved =>
    if e.2.upsertKey = "" then movePoints rest d moved
    else
      match movePoint ids d e with
      | none => (d, .error .stopIteration)
      | some d => movePoints rest d (moved + 1)

/-- `client.retrieve`. -/
def retrieve (d : PyDict ℕ (StoredPoint ρ β)) (chunk : List ℕ) : List (ℕ × StoredPoint ρ β) :=
  chunk.filterMap fun i => (d.get? i).map (Prod.mk i)

def moveChunks (batch : {n : ℕ // 0 < n}) : List ℕ → PyDict ℕ (StoredPoint ρ β) → ℕ →
    PyDict ℕ (StoredPoint ρ β) × Except MigrationFailure ℕ
  | [], d, moved => (d, .ok moved)
  | i :: staleIds, d, moved =>
    match movePoints ids (retrieve d ((i :: staleIds).take batch)) d moved with
    | (d, .error err) => (d, .error err)
    | (d, .ok moved) => moveChunks batch ((i :: staleIds).drop batch) d moved
  termination_by staleIds => staleIds.length
  decreasing_by
    rw [List.length_drop, List.length_cons]
    exact Nat.sub_lt (Nat.succ_pos _) batch.2

/-- `for i in range(0, len(stale_ids), batch)`. -/
def sweep (batch : ℤ) (staleIds : List ℕ) (d : PyDict ℕ (StoredPoint ρ β)) (moved : ℕ) :
    PyDict ℕ (StoredPoint ρ β) × Except MigrationFailure ℕ :=
  if batch = 0 then (d, .error .zeroStep)
  else if h : 0 < batch then moveChunks ids ⟨batch.toNat, by omega⟩ staleIds d moved
  else (d, .ok moved)

/-- The loop of `migrate_legacy_point_ids_sync` after some rounds; it returns the points moved and
the rounds. -/
def migrateFrom (collectionName : String) (batch : ℤ) (rounds moved : ℕ)
    (d : PyDict ℕ (StoredPoint ρ β)) :
    PyDict ℕ (StoredPoint ρ β) × Except MigrationFailure (ℕ × ℕ) :=
  if 50 < rounds + 1 then (d, .error (.rounds (rounds + 1)))
  else
    match scrollAllMatchingIds collectionName (isStale ids) d with
    | .error err => (d, .error (.scan err))
    | .ok [] => (d, .ok (moved, rounds + 1))
    | .ok staleIds =>
      match sweep ids batch staleIds d moved with
      | (d, .error err) => (d, .error err)
      | (d, .ok moved) => migrateFrom collectionName batch (rounds + 1) moved d
  termination_by 50 - rounds

/-- `migrate_legacy_point_ids_sync` of a store with a client. -/
def migrateLegacyPointIdsSync (collectionName : String) (batch : ℤ)
    (d : PyDict ℕ (StoredPoint ρ β)) :
    PyDict ℕ (StoredPoint ρ β) × Except MigrationFailure (ℕ × ℕ) :=
  migrateFrom ids collectionName batch 0 0 d

/-! ## One move -/

variable {ids} {d D D' : PyDict ℕ (StoredPoint ρ β)} {p r : StoredPoint ρ β} {i j : ℕ} {A M : Set ℕ}

lemma isStale_iff : isStale ids (i, p) = true ↔ p.upsertKey ≠ "" ∧ i ≠ newId ids p := by
  rw [isStale, Bool.and_eq_true, decide_eq_true_iff, decide_eq_true_iff]

/-- What is written has the payload, and is written again as it is. -/
lemma flattened_spec (h : flattened p = some r) :
    r.toClientPoint = p.toClientPoint ∧ flattened r = some r := by
  unfold flattened at h
  split at h
  · next vec hvec =>
    obtain rfl := Option.some.inj h
    refine ⟨rfl, ?_⟩
    rw [flattened, hvec]
  · cases h
  · obtain rfl := Option.some.inj h
    exact ⟨rfl, rfl⟩

lemma newId_of_flattened (h : flattened p = some r) : newId ids r = newId ids p := by
  rw [newId, newId, (flattened_spec h).1]

lemma upsertKey_of_flattened (h : flattened p = some r) : r.upsertKey = p.upsertKey := by
  rw [(flattened_spec h).1]

lemma get?_movePoint {e : ℕ × StoredPoint ρ β} (h : movePoint ids D e = some D') :
    ∃ r, flattened e.2 = some r ∧ ∀ j, D'.get? j =
      if j = newId ids e.2 then some r else if j = e.1 then none else D.get? j := by
  rw [movePoint, Option.map_eq_some_iff] at h
  obtain ⟨r, hr, rfl⟩ := h
  refine ⟨r, hr, fun j => ?_⟩
  dsimp only
  by_cases hmoved : e.1 = newId ids e.2
  · rw [if_neg (not_not.mpr hmoved), PyDict.get?_set]
    by_cases hj : newId ids e.2 = j
    · rw [if_pos hj, if_pos hj.symm]
    · rw [if_neg hj, if_neg (Ne.symm hj), if_neg (fun heq => hj (hmoved ▸ heq.symm))]
  · rw [if_pos hmoved, PyDict.get?_erase, PyDict.get?_set]
    by_cases hj : newId ids e.2 = j
    · rw [if_pos hj, if_pos hj.symm, if_neg (fun heq => hmoved (heq.trans hj.symm))]
    · rw [if_neg hj, if_neg (Ne.symm hj)]
      by_cases hi : e.1 = j
      · rw [if_pos hi, if_pos hi.symm]
      · rw [if_neg hi, if_neg (Ne.symm hi)]

/-! ## Runs of moves -/

/-- Where a point comes from after the points of `A` were moved, and those of `M` of them from where
they stood at first: it stands where it stood, and was not moved; or it was moved there. -/
def Origin (ids : PointIds) (d : PyDict ℕ (StoredPoint ρ β)) (A M : Set ℕ) (j : ℕ)
    (r : StoredPoint ρ β) : Prop :=
  (d.get? j = some r ∧ j ∉ A) ∨
    ∃ i ∈ M, ∃ p, d.get? i = some p ∧ isStale ids (i, p) = true ∧ newId ids p = j ∧
      flattened p = some r

/-- A state after the points of `A` were moved. -/
structure Run (ids : PointIds) (d : PyDict ℕ (StoredPoint ρ β)) (A M : Set ℕ)
    (D : PyDict ℕ (StoredPoint ρ β)) : Prop where
  origin : ∀ j r, D.get? j = some r → Origin ids d A M j r
  present : ∀ i p, d.get? i = some p → i ∉ A → ∃ r, D.get? i = some r

lemma run_start (ids : PointIds) (d : PyDict ℕ (StoredPoint ρ β)) : Run ids d ∅ ∅ d where
  origin j _ h := Or.inl ⟨h, Set.notMem_empty j⟩
  present _ p h _ := ⟨p, h⟩

/-- The point under the identifier is stale. -/
def StaleAt (ids : PointIds) (d : PyDict ℕ (StoredPoint ρ β)) (i : ℕ) : Prop :=
  ∃ p, d.get? i = some p ∧ isStale ids (i, p) = true

namespace Origin

lemma mono {B N : Set ℕ} (h : Origin ids d A M j r) (hMN : M ⊆ N) (hj : j ∉ A → j ∉ B) :
    Origin ids d B N j r := by
  rcases h with ⟨hold, hA⟩ | ⟨i, hi, hmoved⟩
  · exact Or.inl ⟨hold, hj hA⟩
  · exact Or.inr ⟨i, hMN hi, hmoved⟩

/-- What was read under a stale identifier is the stale point, or a point that was moved there. -/
lemma stale_or_moved (h : Origin ids d A M i r) (hstale : StaleAt ids d i) :
    (d.get? i = some r ∧ isStale ids (i, r) = true) ∨
      (newId ids r = i ∧ flattened r = some r ∧ r.upsertKey ≠ "" ∧
        ∃ i' ∈ M, ∃ p, d.get? i' = some p ∧ isStale ids (i', p) = true ∧ newId ids p = i ∧
          flattened p = some r) := by
  rcases h with ⟨hold, -⟩ | ⟨i', hi', p, hp, hstale', hid, hflat⟩
  · obtain ⟨p, hp, hstale⟩ := hstale
    rw [hold] at hp
    obtain rfl := Option.some.inj hp
    exact Or.inl ⟨hold, hstale⟩
  · refine Or.inr ⟨(newId_of_flattened hflat).trans hid, (flattened_spec hflat).2, ?_, i', hi', p,
      hp, hstale', hid, hflat⟩
    rw [upsertKey_of_flattened hflat]
    exact (isStale_iff.mp hstale').1

lemma upsertKey_ne (h : Origin ids d A M i r) (hstale : StaleAt ids d i) : r.upsertKey ≠ "" := by
  rcases h.stale_or_moved hstale with ⟨-, hown⟩ | ⟨-, -, hkey, -⟩
  · exact (isStale_iff.mp hown).1
  · exact hkey

end Origin

/-- The points that were moved from where they stood at first, after one more move. -/
def movedWith (d : PyDict ℕ (StoredPoint ρ β)) (M : Set ℕ) (e : ℕ × StoredPoint ρ β) : Set ℕ :=
  {i | i ∈ M ∨ i = e.1 ∧ d.get? i = some e.2}

/-- **A move continues a run.** -/
lemma Run.movePoint {e : ℕ × StoredPoint ρ β} (h : Run ids d A M D)
    (hstale : StaleAt ids d e.1) (horigin : Origin ids d A M e.1 e.2)
    (hmove : movePoint ids D e = some D') : Run ids d (insert e.1 A) (movedWith d M e) D' := by
  obtain ⟨r, hr, hget⟩ := get?_movePoint hmove
  constructor
  · intro j q hq
    rw [hget] at hq
    split_ifs at hq with hnew hold
    · -- The point that was written.
      obtain rfl := Option.some.inj hq
      rcases horigin.stale_or_moved hstale with
        ⟨hown, hstale'⟩ | ⟨hid, hflat, -, i', hi', p, hp, hmoved⟩
      · exact Or.inr ⟨e.1, Or.inr ⟨rfl, hown⟩, e.2, hown, hstale', hnew.symm, hr⟩
      · rw [hflat] at hr
        obtain rfl := Option.some.inj hr
        rw [hnew, hid]
        exact Or.inr ⟨i', Or.inl hi', p, hp, hmoved⟩
    · refine (h.origin j q hq).mono (fun _ hi => Or.inl hi) fun hA hmem => ?_
      exact (Set.mem_insert_iff.mp hmem).elim hold hA
  · intro i p hp hi
    rw [Set.mem_insert_iff, not_or] at hi
    obtain ⟨q, hq⟩ := h.present i p hp hi.2
    rw [hget, if_neg hi.1]
    split_ifs
    · exact ⟨r, rfl⟩
    · exact ⟨q, hq⟩

/-! ## Rules for the loops -/

/-- The points of a batch that are left to move. -/
structure Pending (ids : PointIds) (d : PyDict ℕ (StoredPoint ρ β)) (A M : Set ℕ)
    (batch : List (ℕ × StoredPoint ρ β)) : Prop where
  nodup : (batch.map Prod.fst).Nodup
  fresh : ∀ e ∈ batch, e.1 ∉ A
  stale : ∀ e ∈ batch, StaleAt ids d e.1
  origin : ∀ e ∈ batch, Origin ids d A M e.1 e.2

lemma Pending.tail {e : ℕ × StoredPoint ρ β} {rest : List (ℕ × StoredPoint ρ β)}
    (h : Pending ids d A M (e :: rest)) : Pending ids d (insert e.1 A) (movedWith d M e) rest := by
  have hnodup := h.nodup
  rw [List.map_cons, List.nodup_cons] at hnodup
  have hfresh : ∀ f ∈ rest, f.1 ∉ insert e.1 A := by
    intro f hf hmem
    rcases Set.mem_insert_iff.mp hmem with heq | hA
    · exact hnodup.1 (heq ▸ List.mem_map_of_mem hf)
    · exact h.fresh f (List.mem_cons_of_mem e hf) hA
  refine ⟨hnodup.2, hfresh, fun f hf => h.stale f (List.mem_cons_of_mem e hf), fun f hf => ?_⟩
  exact (h.origin f (List.mem_cons_of_mem e hf)).mono (fun _ hi => Or.inl hi) fun _ => hfresh f hf

/-- The identifiers of `A` and those of a list. -/
def withIds (A : Set ℕ) (l : List ℕ) : Set ℕ := {i | i ∈ A ∨ i ∈ l}

lemma withIds_nil (A : Set ℕ) : withIds A [] = A := by
  ext i
  exact or_iff_left List.not_mem_nil

lemma withIds_append (A : Set ℕ) (l l' : List ℕ) :
    withIds A (l ++ l') = withIds (withIds A l) l' := by
  ext i
  show i ∈ A ∨ i ∈ l ++ l' ↔ (i ∈ A ∨ i ∈ l) ∨ i ∈ l'
  rw [List.mem_append, or_assoc]

lemma withIds_cons (A : Set ℕ) (i : ℕ) (l : List ℕ) :
    withIds A (i :: l) = withIds (insert i A) l := by
  ext j
  show j ∈ A ∨ j ∈ i :: l ↔ (j = i ∨ j ∈ A) ∨ j ∈ l
  rw [List.mem_cons, or_left_comm, or_assoc]

/-- What a move keeps, a batch keeps; the points before a point of the batch are moved before it. -/
lemma movePoints_rule {Φ : Set ℕ → Set ℕ → PyDict ℕ (StoredPoint ρ β) → Prop}
    {batch : List (ℕ × StoredPoint ρ β)} {moved moved' : ℕ}
    (hstep : ∀ before e after M D D', batch = before ++ e :: after →
      let A₁ := withIds A (before.map Prod.fst)
      Run ids d A₁ M D → Origin ids d A₁ M e.1 e.2 → movePoint ids D e = some D' → Φ A₁ M D →
        Φ (insert e.1 A₁) (movedWith d M e) D')
    (hrun : Run ids d A M D) (hpending : Pending ids d A M batch) (hΦ : Φ A M D)
    (h : movePoints ids batch D moved = (D', .ok moved')) :
    ∃ M', Run ids d (withIds A (batch.map Prod.fst)) M' D' ∧
      Φ (withIds A (batch.map Prod.fst)) M' D' := by
  induction batch generalizing A M D moved with
  | nil =>
    obtain rfl : D = D' := congrArg Prod.fst h
    rw [List.map_nil, withIds_nil]
    exact ⟨M, hrun, hΦ⟩
  | cons e rest ih =>
    have hmem : e ∈ e :: rest := List.mem_cons_self
    have hkey : e.2.upsertKey ≠ "" := (hpending.origin e hmem).upsertKey_ne (hpending.stale e hmem)
    rw [movePoints, if_neg hkey] at h
    cases hmove : movePoint ids D e with
    | none =>
      rw [hmove] at h
      cases congrArg Prod.snd h
    | some D₁ =>
      rw [hmove] at h
      have hfirst := hstep [] e rest M D D₁ rfl
      rw [List.map_nil, withIds_nil] at hfirst
      rw [List.map_cons, withIds_cons]
      refine ih (fun before f after M D D' hsplit => ?_)
        (hrun.movePoint (hpending.stale e hmem) (hpending.origin e hmem) hmove) hpending.tail
        (hfirst hrun (hpending.origin e hmem) hmove hΦ) h
      have hlater := hstep (e :: before) f after M D D' (congrArg (List.cons e) hsplit)
      rw [List.map_cons, withIds_cons] at hlater
      exact hlater

lemma mem_retrieve {chunk : List ℕ} {e : ℕ × StoredPoint ρ β} :
    e ∈ retrieve D chunk ↔ e.1 ∈ chunk ∧ D.get? e.1 = some e.2 := by
  rw [retrieve, List.mem_filterMap]
  constructor
  · rintro ⟨i, hi, he⟩
    obtain ⟨r, hr, rfl⟩ := Option.map_eq_some_iff.mp he
    exact ⟨hi, hr⟩
  · rintro ⟨hi, hr⟩
    exact ⟨e.1, hi, Option.map_eq_some_iff.mpr ⟨e.2, hr, rfl⟩⟩

lemma map_fst_retrieve {chunk : List ℕ} (h : ∀ i ∈ chunk, ∃ r, D.get? i = some r) :
    (retrieve D chunk).map Prod.fst = chunk := by
  induction chunk with
  | nil => rfl
  | cons i chunk ih =>
    obtain ⟨r, hr⟩ := h i List.mem_cons_self
    have htail := ih fun j hj => h j (List.mem_cons_of_mem i hj)
    rw [retrieve, List.filterMap_cons, hr]
    exact congrArg (List.cons i) htail

/-- The stale identifiers that are left. -/
structure Waiting (ids : PointIds) (d : PyDict ℕ (StoredPoint ρ β)) (A : Set ℕ)
    (staleIds : List ℕ) : Prop where
  nodup : staleIds.Nodup
  fresh : ∀ i ∈ staleIds, i ∉ A
  stale : ∀ i ∈ staleIds, StaleAt ids d i

lemma Waiting.retrieve {chunk rest : List ℕ} (h : Waiting ids d A (chunk ++ rest))
    (hrun : Run ids d A M D) :
    (retrieve D chunk).map Prod.fst = chunk ∧ Pending ids d A M (retrieve D chunk) ∧
      Waiting ids d (withIds A chunk) rest := by
  have hnodup := List.nodup_append.mp h.nodup
  have hleft : ∀ i ∈ chunk, i ∈ chunk ++ rest := fun i hi => List.mem_append_left rest hi
  have hmap : (PointMigration.retrieve D chunk).map Prod.fst = chunk := by
    refine map_fst_retrieve fun i hi => ?_
    obtain ⟨p, hp, -⟩ := h.stale i (hleft i hi)
    exact hrun.present i p hp (h.fresh i (hleft i hi))
  refine ⟨hmap, ⟨hmap.symm ▸ hnodup.1, ?_, ?_, ?_⟩, hnodup.2.1, ?_, ?_⟩
  · exact fun e he => h.fresh e.1 (hleft e.1 (mem_retrieve.mp he).1)
  · exact fun e he => h.stale e.1 (hleft e.1 (mem_retrieve.mp he).1)
  · exact fun e he => hrun.origin e.1 e.2 (mem_retrieve.mp he).2
  · rintro i hi (hA | hchunk)
    · exact h.fresh i (List.mem_append_right chunk hi) hA
    · exact hnodup.2.2 i hchunk i hi rfl
  · exact fun i hi => h.stale i (List.mem_append_right chunk hi)

/-- What a move keeps of a point that was read from a kept state, the batches keep. -/
lemma moveChunks_rule {Φ : Set ℕ → Set ℕ → PyDict ℕ (StoredPoint ρ β) → Prop}
    {batch : {n : ℕ // 0 < n}} {staleIds : List ℕ} {moved moved' : ℕ}
    (hstep : ∀ A₀ M₀ D₀ before e after M D D', staleIds = before ++ e.1 :: after →
      let A₁ := withIds A before
      Run ids d A₀ M₀ D₀ → Φ A₀ M₀ D₀ → e.1 ∉ A₀ → D₀.get? e.1 = some e.2 →
      Run ids d A₁ M D → Origin ids d A₁ M e.1 e.2 → movePoint ids D e = some D' → Φ A₁ M D →
        Φ (insert e.1 A₁) (movedWith d M e) D')
    (hrun : Run ids d A M D) (hwaiting : Waiting ids d A staleIds) (hΦ : Φ A M D)
    (h : moveChunks ids batch staleIds D moved = (D', .ok moved')) :
    ∃ M', Run ids d (withIds A staleIds) M' D' ∧ Φ (withIds A staleIds) M' D' := by
  induction hn : staleIds.length using Nat.strong_induction_on
    generalizing staleIds A M D moved with
  | _ n ih =>
    cases staleIds with
    | nil =>
      rw [moveChunks] at h
      obtain rfl : D = D' := congrArg Prod.fst h
      rw [withIds_nil]
      exact ⟨M, hrun, hΦ⟩
    | cons i rest =>
      rw [moveChunks] at h
      generalize hchunk : (i :: rest).take batch = chunk at h
      generalize hlater : (i :: rest).drop batch = later at h
      have hsplit : i :: rest = chunk ++ later := by
        rw [← hchunk, ← hlater, List.take_append_drop]
      have hlength : later.length < n := by
        rw [← hlater, List.length_drop, hn]
        exact Nat.sub_lt (hn ▸ Nat.succ_pos _) batch.2
      rw [hsplit] at hwaiting hstep ⊢
      obtain ⟨hmap, hpending, hrest⟩ := hwaiting.retrieve hrun
      cases hmoved : movePoints ids (retrieve D chunk) D moved with
      | mk D₁ result =>
        cases result with
        | error err =>
          rw [hmoved] at h
          cases congrArg Prod.snd h
        | ok moved₁ =>
          rw [hmoved] at h
          have hbatch : ∃ M₁, Run ids d (withIds A chunk) M₁ D₁ ∧ Φ (withIds A chunk) M₁ D₁ := by
            rw [← hmap]
            refine movePoints_rule (fun before e after M₁ D₂ D₃ hat hrun₁ horigin hmove hΦ₁ => ?_)
              hrun hpending hΦ hmoved
            have he : e ∈ PointMigration.retrieve D chunk := by
              rw [hat]
              exact List.mem_append_right before List.mem_cons_self
            refine hstep A M D (before.map Prod.fst) e (after.map Prod.fst ++ later) M₁ D₂ D₃ ?_
              hrun hΦ (hpending.fresh e he) (mem_retrieve.mp he).2 hrun₁ horigin hmove hΦ₁
            rw [← hmap, hat, List.map_append, List.map_cons, List.append_assoc, List.cons_append]
          obtain ⟨M₁, hrun₁, hΦ₁⟩ := hbatch
          rw [withIds_append]
          refine ih later.length hlength
            (fun A₀ M₀ D₀ before e after M₂ D₂ D₃ hat => ?_) hrun₁ hrest hΦ₁ h rfl
          have hnext := hstep A₀ M₀ D₀ (chunk ++ before) e after M₂ D₂ D₃
            (by rw [hat, List.append_assoc])
          rw [withIds_append] at hnext
          exact hnext

/-! ## Stale points -/

/-- The stale points in the order of the scan. -/
def staleEntries (ids : PointIds) (d : PyDict ℕ (StoredPoint ρ β)) : List (ℕ × StoredPoint ρ β) :=
  d.entries.filter (isStale ids)

def staleIds (ids : PointIds) (d : PyDict ℕ (StoredPoint ρ β)) : List ℕ :=
  (staleEntries ids d).map Prod.fst

/-- Where a point belongs: one with a key under its new identifier, one without where it is. -/
def target (ids : PointIds) (e : ℕ × StoredPoint ρ β) : ℕ :=
  if e.2.upsertKey = "" then e.1 else newId ids e.2

lemma target_of_stale (h : isStale ids (i, p) = true) : target ids (i, p) = newId ids p := by
  rw [target, if_neg (isStale_iff.mp h).1]

lemma target_of_not_stale (h : ¬ isStale ids (i, p) = true) : target ids (i, p) = i := by
  rw [isStale_iff, not_and, not_not] at h
  rw [target]
  split_ifs with hkey
  · rfl
  · exact (h hkey).symm

lemma mem_staleIds : i ∈ staleIds ids d ↔ StaleAt ids d i := by
  rw [staleIds, List.mem_map]
  constructor
  · rintro ⟨e, he, rfl⟩
    obtain ⟨hmem, hstale⟩ := List.mem_filter.mp he
    exact ⟨e.2, PyDict.mem_entries_iff.mp hmem, hstale⟩
  · rintro ⟨p, hp, hstale⟩
    exact ⟨(i, p), List.mem_filter.mpr ⟨PyDict.mem_entries_iff.mpr hp, hstale⟩, rfl⟩

lemma waiting_start (ids : PointIds) (d : PyDict ℕ (StoredPoint ρ β)) :
    Waiting ids d ∅ (staleIds ids d) where
  nodup := d.nodupKeys.sublist (List.filter_sublist.map Prod.fst)
  fresh i _ := Set.notMem_empty i
  stale _ hi := mem_staleIds.mp hi

lemma mem_withIds_staleIds : i ∈ withIds ∅ (staleIds ids d) ↔ StaleAt ids d i := by
  rw [← mem_staleIds]
  exact or_iff_right (Set.notMem_empty i)

/-- **One round is enough**: after it no point is stale. -/
lemma Run.staleEntries_eq_nil (h : Run ids d (withIds ∅ (staleIds ids d)) M D) :
    staleEntries ids D = [] := by
  refine List.filter_eq_nil_iff.mpr fun e he hstale => ?_
  have hget := PyDict.mem_entries_iff.mp he
  rcases h.origin e.1 e.2 hget with ⟨hold, hnot⟩ | ⟨i, hi, p, hp, -, hid, hflat⟩
  · exact hnot (mem_withIds_staleIds.mpr ⟨e.2, hold, hstale⟩)
  · rw [← newId_of_flattened hflat] at hid
    exact (isStale_iff.mp hstale).2 hid.symm

/-- After a round every identifier is that of a point that belongs there. -/
lemma Run.exists_target (h : Run ids d (withIds ∅ (staleIds ids d)) M D) (hr : D.get? j = some r) :
    ∃ i p, d.get? i = some p ∧ target ids (i, p) = j := by
  rcases h.origin j r hr with ⟨hold, hnot⟩ | ⟨i, -, p, hp, hstale, hid, -⟩
  · refine ⟨j, r, hold, target_of_not_stale fun hstale => ?_⟩
    exact hnot (mem_withIds_staleIds.mpr ⟨r, hold, hstale⟩)
  · exact ⟨i, p, hp, (target_of_stale hstale).trans hid⟩

/-! ## When nothing is lost -/

/-- The points of a collection can be moved without a loss: the scan reads all of them, the stale
ones have one vector, no two points belong under one identifier, and no stale point belongs where a
stale point stands that the scan finds later. -/
structure Migratable (ids : PointIds) (d : PyDict ℕ (StoredPoint ρ β)) : Prop where
  short : d.size ≤ scanLimit
  plain : ∀ i p, d.get? i = some p → isStale ids (i, p) = true → ∃ vec, p.vector = .plain vec
  apart : ∀ i p j q, d.get? i = some p → d.get? j = some q →
    target ids (i, p) = target ids (j, q) → i = j
  ordered : (staleIds ids d).Pairwise fun i j => ∀ p, d.get? i = some p → newId ids p ≠ j

lemma flattened_of_plain {vec : β} (h : p.vector = .plain vec) : flattened p = some p := by
  rw [flattened, h]

lemma exists_movePoints_ok {batch : List (ℕ × StoredPoint ρ β)}
    (h : ∀ e ∈ batch, ∃ r, flattened e.2 = some r) (D : PyDict ℕ (StoredPoint ρ β)) (moved : ℕ) :
    ∃ D' moved', movePoints ids batch D moved = (D', .ok moved') := by
  induction batch generalizing D moved with
  | nil => exact ⟨D, moved, rfl⟩
  | cons e rest ih =>
    have hrest := ih fun f hf => h f (List.mem_cons_of_mem e hf)
    obtain ⟨r, hr⟩ := h e List.mem_cons_self
    obtain ⟨D₁, hmove⟩ : ∃ D₁, movePoint ids D e = some D₁ := by
      rw [movePoint, hr]
      exact ⟨_, rfl⟩
    rw [movePoints, hmove]
    split_ifs
    · exact hrest D moved
    · exact hrest D₁ (moved + 1)

lemma exists_moveChunks_ok (batch : {n : ℕ // 0 < n}) {left : List ℕ} (moved : ℕ)
    (hplain : ∀ i p, d.get? i = some p → isStale ids (i, p) = true → ∃ vec, p.vector = .plain vec)
    (hrun : Run ids d A M D) (hwaiting : Waiting ids d A left) :
    ∃ D' moved', moveChunks ids batch left D moved = (D', .ok moved') := by
  induction hn : left.length using Nat.strong_induction_on generalizing left A M D moved with
  | _ n ih =>
    cases left with
    | nil => exact ⟨D, moved, by rw [moveChunks]⟩
    | cons i rest =>
      rw [moveChunks]
      generalize hchunk : (i :: rest).take batch = chunk
      generalize hlater : (i :: rest).drop batch = later
      have hsplit : i :: rest = chunk ++ later := by
        rw [← hchunk, ← hlater, List.take_append_drop]
      have hlength : later.length < n := by
        rw [← hlater, List.length_drop, hn]
        exact Nat.sub_lt (hn ▸ Nat.succ_pos _) batch.2
      rw [hsplit] at hwaiting
      obtain ⟨hmap, hpending, hrest⟩ := hwaiting.retrieve hrun
      have hflat : ∀ e ∈ retrieve D chunk, ∃ r, flattened e.2 = some r := by
        intro e he
        rcases (hpending.origin e he).stale_or_moved (hpending.stale e he) with
          ⟨hold, hstale⟩ | ⟨-, hflat, -⟩
        · obtain ⟨vec, hvec⟩ := hplain e.1 e.2 hold hstale
          exact ⟨e.2, flattened_of_plain hvec⟩
        · exact ⟨e.2, hflat⟩
      have hok : ∃ D₁ moved₁, movePoints ids (retrieve D chunk) D moved = (D₁, .ok moved₁) :=
        exists_movePoints_ok hflat D moved
      obtain ⟨D₁, moved₁, hmoved⟩ := hok
      obtain ⟨M₁, hrun₁, -⟩ := movePoints_rule (Φ := fun _ _ _ => True)
        (fun _ _ _ _ _ _ _ _ _ _ _ => trivial) hrun hpending trivial hmoved
      rw [hmap] at hrun₁
      rw [hmoved]
      exact ih later.length hlength moved₁ hrun₁ hrest rfl

/-- Every point is where it belongs if it was moved, and where it stood if it was not. -/
def Complete (ids : PointIds) (d : PyDict ℕ (StoredPoint ρ β)) (A : Set ℕ)
    (D : PyDict ℕ (StoredPoint ρ β)) : Prop :=
  ∀ i p, d.get? i = some p →
    (i ∈ A → D.get? (newId ids p) = some p) ∧ (i ∉ A → D.get? i = some p)

/-- A move of a stale point as it stood at first keeps the others. -/
lemma Complete.movePoint (h : Migratable ids d) {before after : List ℕ}
    {e : ℕ × StoredPoint ρ β} (hat : staleIds ids d = before ++ e.1 :: after)
    (he : d.get? e.1 = some e.2) (hmove : movePoint ids D e = some D')
    (hcomplete : Complete ids d (withIds ∅ before) D) :
    Complete ids d (insert e.1 (withIds ∅ before)) D' := by
  have hstaleAt : ∀ i ∈ before ++ e.1 :: after, ∀ p, d.get? i = some p →
      isStale ids (i, p) = true := by
    intro i hi p hp
    rw [← hat, mem_staleIds] at hi
    obtain ⟨p', hp', hstale⟩ := hi
    rw [hp] at hp'
    obtain rfl := Option.some.inj hp'
    exact hstale
  have hmid : e.1 ∈ before ++ e.1 :: after := List.mem_append_right before List.mem_cons_self
  have hstale := hstaleAt e.1 hmid e.2 he
  have hordered := h.ordered
  rw [hat, List.pairwise_append, List.pairwise_cons] at hordered
  obtain ⟨vec, hvec⟩ := h.plain e.1 e.2 he hstale
  obtain ⟨r, hr, hget⟩ := get?_movePoint hmove
  rw [flattened_of_plain hvec] at hr
  obtain rfl := Option.some.inj hr
  intro i p hp
  obtain ⟨hin, hout⟩ := hcomplete i p hp
  constructor
  · intro hi
    rw [hget]
    by_cases hself : i = e.1
    · subst hself
      rw [he] at hp
      obtain rfl := Option.some.inj hp
      rw [if_pos rfl]
    · have hbefore : i ∈ before :=
        (((Set.mem_insert_iff.mp hi).resolve_left hself)).resolve_left (Set.notMem_empty i)
      have hstale' := hstaleAt i (List.mem_append_left _ hbefore) p hp
      have hnew : newId ids p ≠ newId ids e.2 := by
        intro heq
        refine hself (h.apart i p e.1 e.2 hp he ?_)
        rw [target_of_stale hstale', target_of_stale hstale, heq]
      have hold : newId ids p ≠ e.1 := hordered.2.2 i hbefore e.1 List.mem_cons_self p hp
      rw [if_neg hnew, if_neg hold]
      exact hin (Or.inr hbefore)
  · intro hi
    rw [Set.mem_insert_iff, not_or] at hi
    have hnew : i ≠ newId ids e.2 := by
      intro heq
      by_cases hstale' : isStale ids (i, p) = true
      · have hmem : i ∈ staleIds ids d := mem_staleIds.mpr ⟨p, hp, hstale'⟩
        rw [hat] at hmem
        rcases List.mem_append.mp hmem with hbefore | hrest
        · exact hi.2 (Or.inr hbefore)
        · rcases List.mem_cons.mp hrest with hself | hafter
          · exact hi.1 hself
          · exact hordered.2.1.1 i hafter e.2 he heq.symm
      · refine hi.1 (h.apart i p e.1 e.2 hp he ?_)
        rw [target_of_not_stale hstale', target_of_stale hstale, heq]
    rw [hget, if_neg hnew, if_neg hi.1]
    exact hout hi.2

/-- A round over a collection without a loss puts every point where it belongs. -/
lemma exists_round (h : Migratable ids d) (batch : {n : ℕ // 0 < n}) :
    ∃ D' M' moved', moveChunks ids batch (staleIds ids d) d 0 = (D', .ok moved') ∧
      Run ids d (withIds ∅ (staleIds ids d)) M' D' ∧
      Complete ids d (withIds ∅ (staleIds ids d)) D' := by
  obtain ⟨D', moved', hmoved⟩ :=
    exists_moveChunks_ok batch 0 h.plain (run_start ids d) (waiting_start ids d)
  obtain ⟨M', hrun, hcomplete⟩ := moveChunks_rule (Φ := fun A _ D => Complete ids d A D)
    (fun _ _ _ before e after _ _ _ hat _ hread hfresh hget _ _ hmove hkept => by
      -- A point that is read has not been overwritten.
      obtain ⟨p, hp, -⟩ : StaleAt ids d e.1 :=
        mem_staleIds.mp (hat ▸ List.mem_append_right before List.mem_cons_self)
      have hsame := (hread e.1 p hp).2 hfresh
      rw [hget] at hsame
      obtain rfl := Option.some.inj hsame
      exact Complete.movePoint h hat hp hmove hkept)
    (run_start ids d) (waiting_start ids d)
    (fun i p hp => ⟨fun hi => absurd hi (Set.notMem_empty i), fun _ => hp⟩) hmoved
  exact ⟨D', M', moved', hmoved, hrun, hcomplete⟩

/-! ## What is lost -/

/-- A stale point that belongs where a later stale point `b` stands is gone after the round, or the
point that stood there is: if that was moved as it stood at first, its old place is cleared. -/
lemma cleared_or_lost {b : ℕ} {q : StoredPoint ρ β} (hb : d.get? b = some q)
    (hplain : ∀ i p, d.get? i = some p → isStale ids (i, p) = true → ∃ vec, p.vector = .plain vec)
    (hapart : ∀ i p j q, d.get? i = some p → d.get? j = some q →
      target ids (i, p) = target ids (j, q) → i = j)
    (hstale : isStale ids (b, q) = true)
    (hlater : ∀ before after, staleIds ids d = before ++ b :: after →
      ∀ i ∈ after, ∀ p, d.get? i = some p → newId ids p ≠ b)
    {batch : {n : ℕ // 0 < n}} {moved : ℕ}
    (h : moveChunks ids batch (staleIds ids d) d 0 = (D', .ok moved)) :
    D'.get? b = none ∨ ∀ j, D'.get? j ≠ some q := by
  have hnodup := (waiting_start ids d).nodup
  have hkey : q.upsertKey ≠ "" := (isStale_iff.mp hstale).1
  obtain ⟨M', hrun, -, hcleared⟩ := moveChunks_rule
    (Φ := fun A M D => M ⊆ A ∧ (b ∈ M → D.get? b = none))
    (fun _ _ _ before e after M D D' hat _ _ _ _ _ horigin hmove hkept => by
      obtain ⟨r, -, hget⟩ := get?_movePoint hmove
      refine ⟨fun i hi => ?_, fun hmem => ?_⟩
      · rcases hi with hM | ⟨hself, -⟩
        · exact Set.mem_insert_of_mem _ (hkept.1 hM)
        · exact Set.mem_insert_iff.mpr (Or.inl hself)
      rw [hget]
      by_cases hself : b = e.1
      · -- The point itself is moved, from where it stood at first.
        have hfresh : b ∉ before := by
          rw [hat, List.nodup_append] at hnodup
          exact fun hbefore => hnodup.2.2 b hbefore e.1 List.mem_cons_self hself
        have hown : d.get? b = some e.2 := by
          rcases hmem with hM | ⟨-, hown⟩
          · exact absurd ((hkept.1 hM).resolve_left (Set.notMem_empty b)) hfresh
          · exact hown
        rw [hb] at hown
        have hnew : b ≠ newId ids e.2 := Option.some.inj hown ▸ (isStale_iff.mp hstale).2
        rw [if_neg hnew, if_pos hself]
      · -- No later point belongs in its old place.
        have hM : b ∈ M := hmem.resolve_right fun hown => hself hown.1
        have hbefore : b ∈ before := (hkept.1 hM).resolve_left (Set.notMem_empty b)
        have hstaleAt : StaleAt ids d e.1 :=
          mem_staleIds.mp (hat ▸ List.mem_append_right before List.mem_cons_self)
        have hnew : b ≠ newId ids e.2 := by
          rcases horigin.stale_or_moved hstaleAt with ⟨hown, -⟩ | ⟨hid, -⟩
          · obtain ⟨first, second, hsplit⟩ := List.append_of_mem hbefore
            rw [hsplit, List.append_assoc, List.cons_append] at hat
            exact (hlater first _ hat e.1 (List.mem_append_right second List.mem_cons_self) e.2
              hown).symm
          · rw [hid]
            exact hself
        rw [if_neg hnew, if_neg hself]
        exact hkept.2 hM)
    (run_start ids d) (waiting_start ids d)
    ⟨Set.empty_subset _, fun hmem => absurd hmem (Set.notMem_empty b)⟩ h
  by_cases hM : b ∈ M'
  · exact Or.inl (hcleared hM)
  · right
    intro j hj
    have htarget : ∀ i, target ids (i, q) = newId ids q := fun i => if_neg hkey
    rcases hrun.origin j q hj with ⟨hold, hnot⟩ | ⟨i, hi, p, hp, hstale', -, hflat⟩
    · have hself : j = b := hapart j q b q hold hb ((htarget j).trans (htarget b).symm)
      exact hnot (mem_withIds_staleIds.mpr (hself ▸ ⟨q, hb, hstale⟩))
    · obtain ⟨vec, hvec⟩ := hplain i p hp hstale'
      rw [flattened_of_plain hvec] at hflat
      obtain rfl := Option.some.inj hflat
      have hself : i = b := hapart i p b p hp hb ((htarget i).trans (htarget b).symm)
      exact hM (hself ▸ hi)

/-! ## The rounds -/

section Rounds

variable (ids) (collectionName : String) (batch : ℤ)

lemma migrateFrom_of_long {rounds moved : ℕ} (hrounds : rounds < 50) (h : ¬ d.size ≤ scanLimit) :
    migrateFrom ids collectionName batch rounds moved d =
      (d, .error (.scan (scanTooLong collectionName))) := by
  rw [migrateFrom, if_neg (by omega), scrollAllMatchingIds_eq, if_neg h]

lemma migrateFrom_of_none {rounds moved : ℕ} (hrounds : rounds < 50) (h : d.size ≤ scanLimit)
    (hnone : staleEntries ids d = []) :
    migrateFrom ids collectionName batch rounds moved d = (d, .ok (moved, rounds + 1)) := by
  rw [migrateFrom, if_neg (by omega), scrollAllMatchingIds_eq, if_pos h]
  show (match (Except.ok (staleIds ids d) : Except PyError (List ℕ)) with
    | .error err => _ | .ok [] => _ | .ok _ => _) = _
  rw [staleIds, hnone]
  rfl

lemma migrateFrom_of_some {rounds moved : ℕ} (hrounds : rounds < 50) (h : d.size ≤ scanLimit)
    (hsome : staleEntries ids d ≠ []) :
    migrateFrom ids collectionName batch rounds moved d =
      match sweep ids batch (staleIds ids d) d moved with
      | (d, .error err) => (d, .error err)
      | (d, .ok moved) => migrateFrom ids collectionName batch (rounds + 1) moved d := by
  have hstale : staleIds ids d ≠ [] := mt List.map_eq_nil_iff.mp hsome
  rw [migrateFrom, if_neg (by omega), scrollAllMatchingIds_eq, if_pos h]
  show (match (Except.ok (staleIds ids d) : Except PyError (List ℕ)) with
    | .error err => _ | .ok [] => _ | .ok _ => _) = _
  cases hids : staleIds ids d with
  | nil => exact absurd hids hstale
  | cons i rest => rfl

/-- With a step that is not positive the stale points stay, and the rounds run out. -/
lemma migrateFrom_ne_ok (hbatch : batch ≤ 0) (h : d.size ≤ scanLimit)
    (hsome : staleEntries ids d ≠ []) (rounds moved : ℕ) (counts : ℕ × ℕ) :
    (migrateFrom ids collectionName batch rounds moved d).2 ≠ .ok counts := by
  induction hn : 50 - rounds generalizing rounds moved with
  | zero =>
    rw [migrateFrom, if_pos (by omega)]
    intro heq
    cases heq
  | succ n ih =>
    rw [migrateFrom_of_some ids collectionName batch (by omega) h hsome, sweep]
    by_cases hzero : batch = 0
    · rw [if_pos hzero]
      intro heq
      cases heq
    · rw [if_neg hzero, dif_neg (by omega)]
      exact ih (rounds + 1) moved (by omega)

end Rounds

/-! ## The migration -/

/-- Nothing is lost: the migration returns, every point is afterwards where it belongs, with its
payload and all of its vectors, no two points have become one, and a second run moves nothing. -/
structure Lossless (ids : PointIds) (collectionName : String) (batch : ℤ)
    (d : PyDict ℕ (StoredPoint ρ β)) : Prop where
  returns : ∃ counts, (migrateLegacyPointIdsSync ids collectionName batch d).2 = .ok counts
  stored : ∀ i p, d.get? i = some p →
    (migrateLegacyPointIdsSync ids collectionName batch d).1.get? (target ids (i, p)) = some p
  size : (migrateLegacyPointIdsSync ids collectionName batch d).1.size = d.size
  again : migrateLegacyPointIdsSync ids collectionName batch
      (migrateLegacyPointIdsSync ids collectionName batch d).1 =
    ((migrateLegacyPointIdsSync ids collectionName batch d).1, .ok (0, 1))

variable {collectionName : String} {batch : ℤ}

/-- The identifiers after a round are among those where points belong. -/
lemma Run.keys_subset (h : Run ids d (withIds ∅ (staleIds ids d)) M D) :
    D.keys ⊆ d.entries.map (target ids) := by
  intro j hj
  obtain ⟨r, hr⟩ := Option.isSome_iff_exists.mp (PyDict.mem_keys_iff.mp hj)
  obtain ⟨i, p, hp, htarget⟩ := h.exists_target hr
  exact List.mem_map.mpr ⟨(i, p), PyDict.mem_entries_iff.mpr hp, htarget⟩

/-- Two runs of the loop: one round that moves the stale points, and one that finds none. -/
lemma migrateLegacyPointIdsSync_of_round {moved : ℕ} (hshort : d.size ≤ scanLimit)
    (hsome : staleEntries ids d ≠ []) (hbatch : 0 < batch)
    (hround : moveChunks ids ⟨batch.toNat, by omega⟩ (staleIds ids d) d 0 = (D', .ok moved))
    (hnone : staleEntries ids D' = []) (hshort' : D'.size ≤ scanLimit) :
    migrateLegacyPointIdsSync ids collectionName batch d = (D', .ok (moved, 2)) := by
  rw [migrateLegacyPointIdsSync, migrateFrom_of_some ids collectionName batch (by omega) hshort
    hsome, sweep, if_neg (by omega), dif_pos hbatch, hround]
  exact migrateFrom_of_none ids collectionName batch (by omega) hshort' hnone

lemma lossless_of_none (hshort : d.size ≤ scanLimit) (hnone : staleEntries ids d = []) :
    Lossless ids collectionName batch d := by
  have hrun : migrateLegacyPointIdsSync ids collectionName batch d = (d, .ok (0, 1)) :=
    migrateFrom_of_none ids collectionName batch (by omega) hshort hnone
  have hstale : ∀ i p, d.get? i = some p → ¬ isStale ids (i, p) = true := fun i p hp =>
    List.filter_eq_nil_iff.mp hnone (i, p) (PyDict.mem_entries_iff.mpr hp)
  refine ⟨⟨(0, 1), by rw [hrun]⟩, fun i p hp => ?_, by rw [hrun], by rw [hrun, hrun]⟩
  rw [hrun, target_of_not_stale (hstale i p hp)]
  exact hp

lemma lossless_of_migratable (h : Migratable ids d) (hbatch : 0 < batch)
    (hsome : staleEntries ids d ≠ []) : Lossless ids collectionName batch d := by
  obtain ⟨D', M', moved, hround, hrun, hcomplete⟩ := exists_round h ⟨batch.toNat, by omega⟩
  have hstored : ∀ i p, d.get? i = some p → D'.get? (target ids (i, p)) = some p := by
    intro i p hp
    obtain ⟨hin, hout⟩ := hcomplete i p hp
    by_cases hstale : isStale ids (i, p) = true
    · rw [target_of_stale hstale]
      exact hin (mem_withIds_staleIds.mpr ⟨p, hp, hstale⟩)
    · rw [target_of_not_stale hstale]
      refine hout fun hi => hstale ?_
      obtain ⟨p', hp', hstale'⟩ := mem_withIds_staleIds.mp hi
      rw [hp] at hp'
      exact Option.some.inj hp' ▸ hstale'
  have hnodup : (d.entries.map (target ids)).Nodup := by
    refine List.Nodup.map_on (fun e he f hf heq => ?_) (List.Nodup.of_map _ d.nodupKeys)
    have he := PyDict.mem_entries_iff.mp he
    have hf := PyDict.mem_entries_iff.mp hf
    have hid : e.1 = f.1 := h.apart e.1 e.2 f.1 f.2 he hf heq
    rw [hid, hf] at he
    exact Prod.ext hid (Option.some.inj he).symm
  have hkeys : D'.keys.Perm (d.entries.map (target ids)) := by
    refine (List.perm_ext_iff_of_nodup D'.nodupKeys hnodup).mpr fun j => ⟨fun hj =>
      hrun.keys_subset hj, fun hj => ?_⟩
    obtain ⟨e, he, rfl⟩ := List.mem_map.mp hj
    show target ids e ∈ D'.keys
    rw [PyDict.mem_keys_iff, hstored e.1 e.2 (PyDict.mem_entries_iff.mp he)]
    rfl
  have hsize : D'.size = d.size := by
    have hlength := hkeys.length_eq
    rw [PyDict.keys, List.length_map, List.length_map] at hlength
    exact hlength
  have hshort : D'.size ≤ scanLimit := hsize ▸ h.short
  have hall : migrateLegacyPointIdsSync ids collectionName batch d = (D', .ok (moved, 2)) :=
    migrateLegacyPointIdsSync_of_round h.short hsome hbatch hround hrun.staleEntries_eq_nil hshort
  have hagain : migrateLegacyPointIdsSync ids collectionName batch D' = (D', .ok (0, 1)) :=
    migrateFrom_of_none ids collectionName batch (by omega) hshort hrun.staleEntries_eq_nil
  refine ⟨⟨(moved, 2), by rw [hall]⟩, ?_, ?_, ?_⟩
  · rw [hall]
    exact hstored
  · rw [hall]
    exact hsize
  · rw [hall]
    exact hagain

lemma Lossless.short (h : Lossless ids collectionName batch d) : d.size ≤ scanLimit := by
  obtain ⟨counts, hok⟩ := h.returns
  by_contra hlong
  rw [migrateLegacyPointIdsSync, migrateFrom_of_long ids collectionName batch (by omega) hlong]
    at hok
  cases hok

/-- A migration that returns with stale points to move is one round with a positive step. -/
lemma Lossless.exists_round (h : Lossless ids collectionName batch d)
    (hsome : staleEntries ids d ≠ []) :
    ∃ hbatch : 0 < batch, ∃ D' M' moved,
      moveChunks ids ⟨batch.toNat, by omega⟩ (staleIds ids d) d 0 = (D', .ok moved) ∧
      Run ids d (withIds ∅ (staleIds ids d)) M' D' ∧
      (migrateLegacyPointIdsSync ids collectionName batch d).1 = D' := by
  obtain ⟨counts, hok⟩ := h.returns
  have hshort := h.short
  have hbatch : 0 < batch := by
    by_contra hnot
    exact migrateFrom_ne_ok ids collectionName batch (by omega) hshort hsome 0 0 counts hok
  refine ⟨hbatch, ?_⟩
  cases hround : moveChunks ids ⟨batch.toNat, by omega⟩ (staleIds ids d) d 0 with
  | mk D' result =>
    cases result with
    | error err =>
      rw [migrateLegacyPointIdsSync, migrateFrom_of_some ids collectionName batch (by omega) hshort
        hsome, sweep, if_neg (by omega), dif_pos hbatch, hround] at hok
      cases hok
    | ok moved =>
      obtain ⟨M', hrun, -⟩ := moveChunks_rule (Φ := fun _ _ _ => True)
        (fun _ _ _ _ _ _ _ _ _ _ _ _ _ _ _ _ _ _ => trivial) (run_start ids d)
        (waiting_start ids d) trivial hround
      refine ⟨D', M', moved, rfl, hrun, ?_⟩
      have hstep : migrateLegacyPointIdsSync ids collectionName batch d =
          migrateFrom ids collectionName batch 1 moved D' := by
        rw [migrateLegacyPointIdsSync, migrateFrom_of_some ids collectionName batch (by omega)
          hshort hsome, sweep, if_neg (by omega), dif_pos hbatch, hround]
      by_cases hshort' : D'.size ≤ scanLimit
      · rw [hstep, migrateFrom_of_none ids collectionName batch (by omega) hshort'
          hrun.staleEntries_eq_nil]
      · rw [hstep, migrateFrom_of_long ids collectionName batch (by omega) hshort'] at hok
        cases hok

/-- Without a loss no two points belong under one identifier. -/
lemma Lossless.apart (h : Lossless ids collectionName batch d) :
    ∀ i p j q, d.get? i = some p → d.get? j = some q →
      target ids (i, p) = target ids (j, q) → i = j := by
  have hkeys : (migrateLegacyPointIdsSync ids collectionName batch d).1.keys ⊆
      d.entries.map (target ids) := by
    by_cases hnone : staleEntries ids d = []
    · intro i hi
      have hrun : migrateLegacyPointIdsSync ids collectionName batch d = (d, .ok (0, 1)) :=
        migrateFrom_of_none ids collectionName batch (by omega) h.short hnone
      rw [hrun] at hi
      obtain ⟨p, hp⟩ := Option.isSome_iff_exists.mp (PyDict.mem_keys_iff.mp hi)
      have hmem := PyDict.mem_entries_iff.mpr hp
      exact List.mem_map.mpr ⟨(i, p), hmem,
        target_of_not_stale (List.filter_eq_nil_iff.mp hnone (i, p) hmem)⟩
    · obtain ⟨-, D', M', moved, -, hrun, heq⟩ := h.exists_round hnone
      rw [heq]
      exact hrun.keys_subset
  have hnodup : (d.entries.map (target ids)).Nodup := by
    have hsub := (migrateLegacyPointIdsSync ids collectionName batch d).1.nodupKeys.subperm hkeys
    refine (hsub.perm_of_length_le ?_).nodup
      (migrateLegacyPointIdsSync ids collectionName batch d).1.nodupKeys
    rw [List.length_map, List.length_map]
    exact h.size.ge
  intro i p j q hp hq heq
  have hsame : (i, p) = (j, q) := List.inj_on_of_nodup_map hnodup
    (PyDict.mem_entries_iff.mpr hp) (PyDict.mem_entries_iff.mpr hq) heq
  exact congrArg Prod.fst hsame

/-- Without a loss every stale point has one vector: only such points are written. -/
lemma Lossless.plain (h : Lossless ids collectionName batch d) :
    ∀ i p, d.get? i = some p → isStale ids (i, p) = true → ∃ vec, p.vector = .plain vec := by
  intro i p hp hstale
  have hmem : (i, p) ∈ staleEntries ids d :=
    List.mem_filter.mpr ⟨PyDict.mem_entries_iff.mpr hp, hstale⟩
  obtain ⟨-, D', M', moved, -, hrun, heq⟩ := h.exists_round (List.ne_nil_of_mem hmem)
  have hstored := h.stored i p hp
  rw [heq, target_of_stale hstale] at hstored
  rcases hrun.origin _ p hstored with ⟨hold, -⟩ | ⟨i', -, p', -, -, -, hflat⟩
  · -- Another point of this kind stands there already.
    have hthere : target ids (newId ids p, p) = target ids (i, p) := by
      rw [target_of_stale hstale, target, if_neg (isStale_iff.mp hstale).1]
    exact absurd (h.apart _ p i p hold hp hthere).symm (isStale_iff.mp hstale).2
  · unfold flattened at hflat
    split at hflat
    · next vec hvec =>
      obtain rfl := Option.some.inj hflat
      exact ⟨vec, hvec⟩
    · cases hflat
    · next name vec rest hvec =>
      obtain rfl := Option.some.inj hflat
      exact ⟨vec, rfl⟩

lemma pairwise_of_splits {α : Type} {R : α → α → Prop} {l : List α}
    (h : ∀ before b after, l = before ++ b :: after → ∀ a ∈ before, R a b) : l.Pairwise R := by
  induction l using List.reverseRecOn with
  | nil => exact List.Pairwise.nil
  | append_singleton l b ih =>
    rw [List.pairwise_append]
    refine ⟨ih fun before c after hsplit => h before c (after ++ [b]) ?_,
      List.pairwise_singleton _ _, fun a ha c hc => ?_⟩
    · rw [hsplit, List.append_assoc, List.cons_append]
    · rw [List.mem_singleton.mp hc]
      exact h l b [] rfl a ha

/-- Without a loss no stale point belongs where a later stale point stands. -/
lemma Lossless.ordered (h : Lossless ids collectionName batch d) :
    (staleIds ids d).Pairwise fun i j => ∀ p, d.get? i = some p → newId ids p ≠ j := by
  have hnodup := (waiting_start ids d).nodup
  refine pairwise_of_splits fun earlier b later hsplit a ha p hp hnew => ?_
  obtain ⟨p', hp', hstaleA⟩ :=
    mem_staleIds.mp (hsplit ▸ List.mem_append_left _ ha : a ∈ staleIds ids d)
  rw [hp] at hp'
  obtain rfl := Option.some.inj hp'
  obtain ⟨q, hq, hstaleB⟩ := mem_staleIds.mp
    (hsplit ▸ List.mem_append_right earlier List.mem_cons_self : b ∈ staleIds ids d)
  have hmem : (a, p) ∈ staleEntries ids d :=
    List.mem_filter.mpr ⟨PyDict.mem_entries_iff.mpr hp, hstaleA⟩
  obtain ⟨hbatch, D', M', moved, hround, -, heq⟩ := h.exists_round (List.ne_nil_of_mem hmem)
  have hstoredA := h.stored a p hp
  have hstoredB := h.stored b q hq
  rw [heq, target_of_stale hstaleA, hnew] at hstoredA
  rw [heq] at hstoredB
  -- `a` is the only point that belongs there, and it comes before `b`.
  have hlater : ∀ before after, staleIds ids d = before ++ b :: after →
      ∀ i ∈ after, ∀ r, d.get? i = some r → newId ids r ≠ b := by
    intro before after hat i hi r hr hid
    obtain ⟨r', hr', hstaleI⟩ := mem_staleIds.mp
      (hat ▸ List.mem_append_right before (List.mem_cons_of_mem b hi) : i ∈ staleIds ids d)
    rw [hr] at hr'
    obtain rfl := Option.some.inj hr'
    have hself : i = a := h.apart i r a p hr hp (by
      rw [target_of_stale hstaleI, target_of_stale hstaleA, hid, hnew])
    have hbefore : earlier = before := by
      rw [hsplit, List.nodup_append, List.nodup_cons] at hnodup
      exact ((List.append_cons_inj_of_notMem
        (fun hmem => hnodup.2.2 b hmem b List.mem_cons_self rfl) hnodup.2.1.1).mp
          (hsplit.symm.trans hat)).1
    rw [hat, List.nodup_append] at hnodup
    exact hnodup.2.2 a (hbefore ▸ ha) i (List.mem_cons_of_mem b hi) hself.symm
  rcases cleared_or_lost hq h.plain h.apart hstaleB hlater hround with hnone | hlost
  · rw [hnone] at hstoredA
    cases hstoredA
  · exact hlost _ hstoredB

/-- **The migration** is without a loss exactly if the scan reads the collection, the stale points
have one vector, no two points belong under one identifier, no stale point belongs where a later one
stands, and, where there is a stale point, the batches have a positive size. -/
theorem migrateLegacyPointIdsSync_lossless_iff (ids : PointIds) (collectionName : String)
    (batch : ℤ) (d : PyDict ℕ (StoredPoint ρ β)) :
    Lossless ids collectionName batch d ↔
      Migratable ids d ∧ (0 < batch ∨ staleEntries ids d = []) := by
  constructor
  · intro h
    refine ⟨⟨h.short, h.plain, h.apart, h.ordered⟩, ?_⟩
    by_cases hnone : staleEntries ids d = []
    · exact Or.inr hnone
    · obtain ⟨hbatch, -⟩ := h.exists_round hnone
      exact Or.inl hbatch
  · rintro ⟨h, hbatch⟩
    by_cases hnone : staleEntries ids d = []
    · exact lossless_of_none h.short hnone
    · exact lossless_of_migratable h (hbatch.resolve_right hnone) hnone

/-- The digest and the checksum of one key. -/
def nasIds : PointIds where
  digest key := if key = "hermes:nas" then 1021886556531624104 else 0
  checksum key := if key = "hermes:nas" then 1025823656 else 0

def nasPoint (text : String) (vector : PointVector ℕ) : StoredPoint Unit ℕ :=
  { upsertKey := "hermes:nas", text := text, record := (), kvKey := none, vector := vector }

/-- A point with a dense and a sparse vector under its checksum. -/
def hybridCollection : PyDict ℕ (StoredPoint Unit ℕ) :=
  PyDict.empty.set 1025823656 (nasPoint "nas" (.named [("", 1), ("sparse", 2)]))

/-- An older point under the checksum, and a newer one under the digest. -/
def twiceStored : PyDict ℕ (StoredPoint Unit ℕ) :=
  (PyDict.empty.set 1025823656 (nasPoint "old" (.plain 1))).set 1021886556531624104
    (nasPoint "new" (.plain 2))

/-- The sparse vector is not moved, and the newer point is overwritten by the older. -/
theorem migration_loses :
    (migrateLegacyPointIdsSync nasIds "atlas" 64 hybridCollection).1.get? 1021886556531624104 =
        some (nasPoint "nas" (.plain 1)) ∧
      ¬ Lossless nasIds "atlas" 64 hybridCollection ∧
      (migrateLegacyPointIdsSync nasIds "atlas" 64 twiceStored).1.get? 1021886556531624104 =
        some (nasPoint "old" (.plain 1)) := by
  have hrun : ∀ d d' : PyDict ℕ (StoredPoint Unit ℕ), d.size ≤ scanLimit →
      staleIds nasIds d = [1025823656] → d'.size ≤ scanLimit → staleEntries nasIds d' = [] →
      movePoints nasIds (retrieve d [1025823656]) d 0 = (d', .ok 1) →
      migrateLegacyPointIdsSync nasIds "atlas" 64 d = (d', .ok (1, 2)) := by
    intro d d' hshort hids hshort' hnone hmoved
    have hsome : staleEntries nasIds d ≠ [] := by
      intro hnil
      rw [staleIds, hnil] at hids
      cases hids
    refine migrateLegacyPointIdsSync_of_round hshort hsome (by decide) ?_ hnone hshort'
    have hone : ([1025823656] : List ℕ).length ≤ Int.toNat 64 := by decide
    rw [hids, moveChunks, List.take_of_length_le hone, hmoved, List.drop_eq_nil_of_le hone]
    exact moveChunks.eq_1 _ _ _ _
  have hhybrid : migrateLegacyPointIdsSync nasIds "atlas" 64 hybridCollection =
      (PyDict.empty.set 1021886556531624104 (nasPoint "nas" (.plain 1)), .ok (1, 2)) :=
    hrun _ _ (by decide) (by rfl) (by decide) (by rfl) (by rfl)
  have htwice : migrateLegacyPointIdsSync nasIds "atlas" 64 twiceStored =
      (PyDict.empty.set 1021886556531624104 (nasPoint "old" (.plain 1)), .ok (1, 2)) :=
    hrun _ _ (by decide) (by rfl) (by decide) (by rfl) (by rfl)
  refine ⟨by rw [hhybrid]; rfl, fun h => ?_, by rw [htwice]; rfl⟩
  have hstored := h.stored 1025823656 (nasPoint "nas" (.named [("", 1), ("sparse", 2)])) (by rfl)
  have hthere : target nasIds (1025823656, nasPoint "nas" (.named [("", 1), ("sparse", 2)])) =
      1021886556531624104 := by
    rfl
  rw [hthere, hhybrid] at hstored
  have hvector := congrArg StoredPoint.vector (Option.some.inj hstored)
  cases hvector

end PointMigration

end AtlasMemory
