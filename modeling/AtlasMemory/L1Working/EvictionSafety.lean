import AtlasMemory.L1Working.SessionTracker

/-!
# What a reconciliation evicts

The history of superseded keys only grows, and a reconciliation adds to it every key that it has
evicted; it never changes a record.  So a key that was superseded once is evicted again by every
later reconciliation, whatever its record is by then.  Where no record of such a key is made live or
deleted, nothing but superseded data is evicted.
-/

namespace AtlasMemory

namespace SessionTracker

open VectorStore WorkingMemory

variable (rt : Runtime) (lex : Lexicon) {ρ : Type}

/-! ## The property and the condition -/

def supersededKey (kv : StateTable) (key : String) : Bool :=
  (kv.get? key).any (StateRow.isSuperseded rt)

/-- The key has a marked record before and after, with the same value and confidence. -/
def Retired (kv kv' : StateTable) (key : String) : Prop :=
  ∃ row row', kv.get? key = some row ∧ kv'.get? key = some row' ∧
    row.isSuperseded rt = true ∧ row'.isSuperseded rt = true ∧
    row'.value = row.value ∧ row'.confidence = row.confidence

/-- Between the two states only data of retired keys was evicted.  A point is evicted for every key
with a record to which it belongs. -/
structure EvictsOnlyRetired (s s' : Stores ρ) : Prop where
  entries : ∀ e ∈ s.memory.hot.buffer, (∀ e' ∈ s'.memory.hot.buffer, e'.key ≠ e.key) →
    Retired rt s.kv s'.kv e.key
  points : ∀ p ∈ s.points, p ∉ s'.points →
    (∃ k, belongsTo k p = true ∧ Retired rt s.kv s'.kv k) ∧
    ∀ k, s.kv.contains k = true → belongsTo k p = true → Retired rt s.kv s'.kv k
  nodes : ∀ k, s.nodes.get? k = some false → s'.nodes.get? k = some true →
    Retired rt s.kv s'.kv k

/-- The key is taken for superseded without a look at its record. -/
def claimed (m : WorkingMemory) (key : String) : Bool :=
  decide (key ∈ m.supersededHistory) ||
    m.hot.buffer.any fun e => marked rt e && decide (e.key = key)

/-- The condition on the steps.  No record of a claimed key is made live or deleted, no record is
written beside that of another key with the same points, and a mark enters working memory for a
key with a marked record only. -/
def orderly (s : Stores ρ) : Event ρ → Bool
  | .setState key row =>
    (row.isSuperseded rt || !claimed rt s.memory key) &&
      s.kv.keys.all fun k => decide (k = key) || !sharePoints k key
  | .deleteState key => !claimed rt s.memory key
  | .append e => !marked rt e || supersededKey rt s.kv e.key
  | .update key _ _ metadata _ _ =>
    !rt.truthy ((metadata.get? "is_superseded").getD .null) || supersededKey rt s.kv key
  | .markSuperseded key => supersededKey rt s.kv key
  | _ => true

def run (s : Stores ρ) (es : List (Event ρ)) : Option (Stores ρ) :=
  GuardedRun.run (fun s e => some (step rt lex s e)) (orderly rt) s es

/-- The invariant of an orderly run: the claimed keys have marked records, and no two records share
points. -/
structure Tidy (s : Stores ρ) : Prop where
  history : ∀ k ∈ s.memory.supersededHistory, supersededKey rt s.kv k = true
  entries : ∀ e ∈ s.memory.hot.buffer, marked rt e = true → supersededKey rt s.kv e.key = true
  alone : ∀ k k', s.kv.contains k = true → s.kv.contains k' = true → sharePoints k k' = true →
    k = k'

variable {rt lex}

/-! ## What a reconciliation leaves alone -/

/-- No record is marked: the call has a keyword that `set_state` does not take. -/
lemma markRecord_eq (now : ℚ) (kv : StateTable) (key : String) :
    markRecord rt now kv key = kv := by
  have hkeywords : markKeywords.all (· ∈ setStateParameters) = false := by decide
  unfold markRecord
  rw [hkeywords]
  cases kv.lookup key with
  | none => rfl
  | some e =>
      show (if e.2.isSuperseded rt then kv else kv) = kv
      rw [ite_self]

lemma kv_reconcile (now : ℚ) (session : String) (touched : List String) (s : Stores ρ) :
    (reconcile rt lex now session touched s).kv = s.kv := by
  show (supersededKeys rt lex s touched).foldl (markRecord rt now) s.kv = s.kv
  generalize supersededKeys rt lex s touched = keys
  induction keys with
  | nil => rfl
  | cons k ks ih =>
      rw [List.foldl_cons, markRecord_eq]
      exact ih

lemma supersededKey_iff {kv : StateTable} {key : String} :
    supersededKey rt kv key = true ↔
      ∃ row, kv.get? key = some row ∧ row.isSuperseded rt = true := by
  unfold supersededKey
  cases kv.get? key <;> simp

lemma retired_of_supersededKey {kv : StateTable} {key : String}
    (h : supersededKey rt kv key = true) : Retired rt kv kv key := by
  obtain ⟨row, hrow, hsup⟩ := supersededKey_iff.mp h
  exact ⟨row, row, hrow, hrow, hsup, hsup, rfl, rfl⟩

lemma supersededKey_of_mem_supersededInKv {kv : StateTable} {touched : List String} {k : String}
    (h : k ∈ supersededInKv rt lex kv touched) : supersededKey rt kv k = true := by
  obtain ⟨e, he, hek⟩ := List.mem_map.mp h
  obtain ⟨hmem, hcond⟩ := List.mem_filter.mp he
  have hentry : e ∈ kv.entries := by
    by_cases htouched : touched.isEmpty
    · rw [if_pos htouched] at hmem
      exact absurd hmem List.not_mem_nil
    · rw [if_neg htouched] at hmem
      exact StateTable.mem_of_mem_getAll hmem
  rw [← hek]
  exact supersededKey_iff.mpr
    ⟨e.2, PyDict.mem_entries_iff.mp hentry, (Bool.and_eq_true_iff.mp hcond).1⟩

/-! ### The hot buffer -/

lemma marked_consolidate (session : String) (e : HotBufferEntry) :
    marked rt (consolidate session e) = marked rt e := by
  unfold marked consolidate
  rw [PyDict.get?_set_of_ne _ _ (by decide), PyDict.get?_set_of_ne _ _ (by decide)]

lemma promoteEntry_spec (session : String) (superseded : List String) (e : HotBufferEntry) :
    (promoteEntry rt lex session superseded e).key = e.key ∧
      marked rt (promoteEntry rt lex session superseded e) = marked rt e := by
  unfold promoteEntry
  split_ifs
  · exact ⟨rfl, marked_consolidate session e⟩
  · exact ⟨rfl, rfl⟩

/-- The entries of the keys are gone, and the keys are in the history. -/
lemma reconcileSuperseded_spec (m : WorkingMemory) (keys : List String) :
    (∀ e, e ∈ (m.reconcileSuperseded keys).hot.buffer ↔
      e ∈ m.hot.buffer ∧ (e.key = "" ∨ e.key ∉ keys)) ∧
    ∀ k ∈ (m.reconcileSuperseded keys).supersededHistory, k ∈ m.supersededHistory ∨ k ∈ keys := by
  induction keys generalizing m with
  | nil => exact ⟨fun e => by simp [reconcileSuperseded], fun k hk => Or.inl hk⟩
  | cons k ks ih =>
      obtain ⟨hbuffer, hhistory⟩ := ih (if k = "" then m else m.markSuperseded k)
      by_cases hk : k = ""
      · rw [if_pos hk] at hbuffer hhistory
        have hcons : m.reconcileSuperseded (k :: ks) = m.reconcileSuperseded ks := by
          unfold reconcileSuperseded
          rw [List.foldl_cons, if_pos hk]
        rw [hcons]
        refine ⟨fun e => (hbuffer e).trans (and_congr_right fun _ => ?_), fun j hj =>
          (hhistory j hj).imp_right (List.mem_cons_of_mem k)⟩
        rw [List.mem_cons, not_or, hk]
        by_cases he : e.key = ""
        · exact ⟨fun _ => Or.inl he, fun _ => Or.inl he⟩
        · exact ⟨fun h => h.imp_right fun hks => ⟨he, hks⟩, fun h => h.imp_right And.right⟩
      · rw [if_neg hk] at hbuffer hhistory
        have hcons : m.reconcileSuperseded (k :: ks) =
            (m.markSuperseded k).reconcileSuperseded ks := by
          unfold reconcileSuperseded
          rw [List.foldl_cons, if_neg hk]
        rw [hcons]
        refine ⟨fun e => (hbuffer e).trans ?_, fun j hj => ?_⟩
        · have hpurged : e ∈ (m.markSuperseded k).hot.buffer ↔ e ∈ m.hot.buffer ∧ e.key ≠ k := by
            show e ∈ m.hot.buffer.filter _ ↔ _
            rw [List.mem_filter, decide_eq_true_iff]
          rw [hpurged, List.mem_cons, not_or]
          constructor
          · rintro ⟨⟨he, hne⟩, h⟩
            exact ⟨he, h.imp_right fun hks => ⟨hne, hks⟩⟩
          · rintro ⟨he, h | ⟨hne, hks⟩⟩
            · exact ⟨⟨he, fun heq => hk (heq.symm.trans h)⟩, Or.inl h⟩
            · exact ⟨⟨he, hne⟩, Or.inr hks⟩
        · rcases hhistory j hj with hj | hj
          · rcases List.mem_cons.mp hj with hj | hj
            · exact Or.inr (List.mem_cons.mpr (Or.inl hj))
            · exact Or.inl hj
          · exact Or.inr (List.mem_cons_of_mem k hj)

lemma mem_of_markNode {nodes : PyDict String Bool} {keys : List String} {k : String}
    (hbefore : nodes.get? k = some false)
    (hafter : (keys.foldl markNode nodes).get? k = some true) : k ∈ keys := by
  induction keys generalizing nodes with
  | nil =>
      rw [List.foldl_nil, hbefore] at hafter
      exact absurd hafter (by simp)
  | cons j js ih =>
      by_cases hjk : j = k
      · exact List.mem_cons.mpr (Or.inl hjk.symm)
      · rw [List.foldl_cons] at hafter
        refine List.mem_cons_of_mem j (ih ?_ hafter)
        unfold markNode
        split_ifs
        · rw [PyDict.get?_set_of_ne _ _ hjk]
          exact hbefore
        · exact hbefore

/-! ## The invariant -/

lemma tidy_initial (maxlen : ℕ) (ttlSeconds : ℚ) :
    Tidy rt (initial maxlen ttlSeconds : Stores ρ) where
  history := nofun
  entries := nofun
  alone := nofun

variable {s : Stores ρ}

/-- All superseded keys of a tidy state have marked records. -/
lemma supersededKey_of_mem_supersededKeys (hs : Tidy rt s) {touched : List String} {k : String}
    (h : k ∈ supersededKeys rt lex s touched) : supersededKey rt s.kv k = true := by
  rcases List.mem_append.mp h with h | h
  · rcases List.mem_append.mp h with h | h
    · exact supersededKey_of_mem_supersededInKv h
    · exact hs.history k h
  · obtain ⟨e, he, hek⟩ := List.mem_map.mp h
    obtain ⟨hmem, hmarked⟩ := List.mem_filter.mp he
    rw [← hek]
    exact hs.entries e hmem hmarked

/-- One reconciliation of a tidy state evicts data of retired keys only. -/
lemma evictsOnlyRetired_reconcile (hs : Tidy rt s) (now : ℚ) (session : String)
    (touched : List String) :
    EvictsOnlyRetired rt s (reconcile rt lex now session touched s) := by
  have hkv := @kv_reconcile rt lex _ now session touched s
  have hretired : ∀ k ∈ supersededKeys rt lex s touched,
      Retired rt s.kv (reconcile rt lex now session touched s).kv k := by
    intro k hk
    rw [hkv]
    exact retired_of_supersededKey (supersededKey_of_mem_supersededKeys hs hk)
  constructor
  · intro e he hgone
    apply hretired
    by_contra hkey
    have hkept := (reconcileSuperseded_spec s.memory (supersededKeys rt lex s touched)).1 e
    have hpromoted := List.mem_map_of_mem
      (f := promoteEntry rt lex session (supersededKeys rt lex s touched))
      (hkept.mpr ⟨he, Or.inr hkey⟩)
    exact hgone _ hpromoted (promoteEntry_spec session _ e).1
  · intro p hp hgone
    obtain ⟨k, hk, hbelongs⟩ := exists_of_not_mem_deleteAll hp hgone
    refine ⟨⟨k, hbelongs, hretired k hk⟩, fun k' hk' hbelongs' => ?_⟩
    have hrecord : s.kv.contains k = true := by
      obtain ⟨row, hrow, -⟩ :=
        supersededKey_iff.mp (supersededKey_of_mem_supersededKeys hs hk)
      rw [PyDict.contains, hrow, Option.isSome_some]
    rw [← hs.alone k k' hrecord hk' (sharePoints_of_belongsTo hbelongs hbelongs')]
    exact hretired k hk
  · intro k hbefore hafter
    exact hretired k (mem_of_markNode hbefore hafter)

/-- What the steps other than writes of records do: the marks and the history stay covered. -/
lemma tidy_memory (hs : Tidy rt s) {m : WorkingMemory}
    (hhistory : ∀ k ∈ m.supersededHistory, supersededKey rt s.kv k = true)
    (hentries : ∀ e ∈ m.hot.buffer, marked rt e = true → supersededKey rt s.kv e.key = true) :
    Tidy rt { s with memory := m } :=
  ⟨hhistory, hentries, hs.alone⟩

lemma mem_of_mem_push {b : HotBuffer} {key : String} {e e' : HotBufferEntry}
    (h : e' ∈ ((b.purge key).push e).buffer) : e' ∈ b.buffer ∨ e' = e := by
  rcases List.mem_append.mp (List.mem_of_mem_drop h) with h | h
  · exact Or.inl (List.mem_of_mem_filter h)
  · exact Or.inr (List.mem_singleton.mp h)

/-- A new entry that carries a mark only for a key with a marked record. -/
lemma tidy_push (hs : Tidy rt s) {e : HotBufferEntry} {isSup : Bool}
    (hsup : isSup = true → marked rt e = true)
    (he : marked rt e = true → supersededKey rt s.kv e.key = true) :
    let m := if isSup then s.memory.remember e.key else s.memory
    Tidy rt { s with memory := { m with hot := (m.hot.purge e.key).push e } } := by
  have hpush : ∀ e' ∈ ((s.memory.hot.purge e.key).push e).buffer, marked rt e' = true →
      supersededKey rt s.kv e'.key = true := by
    intro e' he' hmarked
    rcases mem_of_mem_push he' with he' | he'
    · exact hs.entries e' he' hmarked
    · rw [he'] at hmarked ⊢
      exact he hmarked
  cases isSup with
  | false => exact tidy_memory hs hs.history hpush
  | true =>
      refine tidy_memory hs (fun k hk => ?_) hpush
      rcases List.mem_cons.mp hk with hk | hk
      · rw [hk]
        exact he (hsup rfl)
      · exact hs.history k hk

/-- A row is written or deleted under a key that is not claimed, or stays marked. -/
lemma tidy_kv (hs : Tidy rt s) {kv : StateTable} (key : String)
    (hother : ∀ k, k ≠ key → kv.get? k = s.kv.get? k)
    (hkey : supersededKey rt kv key = true ∨ claimed rt s.memory key = false)
    (halone : ∀ k k', kv.contains k = true → kv.contains k' = true → sharePoints k k' = true →
      k = k') :
    Tidy rt { s with kv := kv } := by
  have hcover : ∀ k, supersededKey rt s.kv k = true → claimed rt s.memory k = true →
      supersededKey rt kv k = true := by
    intro k hk hclaimed
    by_cases heq : k = key
    · rw [heq] at hclaimed ⊢
      rcases hkey with h | h
      · exact h
      · rw [h] at hclaimed
        exact absurd hclaimed (by simp)
    · rw [supersededKey, hother k heq]
      exact hk
  refine ⟨fun k hk => hcover k (hs.history k hk) ?_, fun e he hmarked =>
    hcover e.key (hs.entries e he hmarked) ?_, halone⟩
  · rw [claimed, decide_eq_true hk, Bool.true_or]
  · rw [claimed, Bool.or_eq_true, List.any_eq_true]
    exact Or.inr ⟨e, he, by rw [hmarked, decide_eq_true rfl, Bool.and_self]⟩

lemma sharePoints_comm (k k' : String) : sharePoints k k' = sharePoints k' k := by
  have hnormal : (decide (normalizeUpsertKey k = normalizeUpsertKey k') &&
      decide (normalizeUpsertKey k ≠ "")) =
      (decide (normalizeUpsertKey k' = normalizeUpsertKey k) &&
        decide (normalizeUpsertKey k' ≠ "")) := by
    by_cases h : normalizeUpsertKey k = normalizeUpsertKey k'
    · rw [h]
    · have h' : normalizeUpsertKey k' ≠ normalizeUpsertKey k := fun heq => h heq.symm
      rw [decide_eq_false h, decide_eq_false h', Bool.false_and, Bool.false_and]
  unfold sharePoints
  rw [hnormal, Bool.or_right_comm]

lemma tidy_step (lex : Lexicon) (hs : Tidy rt s) (e : Event ρ)
    (hguard : orderly rt s e = true) : Tidy rt (step rt lex s e) := by
  cases e with
  | setState key row =>
      obtain ⟨hrow, hshare⟩ := Bool.and_eq_true_iff.mp hguard
      have halone : ∀ k, s.kv.contains k = true → sharePoints k key = true → k = key := by
        intro k hk hkey
        have hmem : k ∈ s.kv.keys := PyDict.mem_keys_iff.mpr hk
        rcases Bool.or_eq_true_iff.mp (List.all_eq_true.mp hshare k hmem) with h | h
        · exact of_decide_eq_true h
        · rw [hkey] at h
          exact absurd h (by simp)
      have hother : ∀ k, k ≠ key → (s.kv.set key row).get? k = s.kv.get? k :=
        fun k hk => PyDict.get?_set_of_ne _ _ fun h => hk h.symm
      refine tidy_kv hs key hother ?_ fun k k' hk hk' hshared => ?_
      · rcases Bool.or_eq_true_iff.mp hrow with h | h
        · exact Or.inl (supersededKey_iff.mpr ⟨row, PyDict.get?_set_self _ _ _, h⟩)
        · exact Or.inr (by simpa using h)
      · by_cases hkey : k = key
        · by_cases hkey' : k' = key
          · rw [hkey, hkey']
          · rw [PyDict.contains, hother k' hkey'] at hk'
            rw [hkey, sharePoints_comm] at hshared
            rw [hkey, halone k' hk' hshared]
        · rw [PyDict.contains, hother k hkey] at hk
          by_cases hkey' : k' = key
          · rw [hkey'] at hshared ⊢
            exact halone k hk hshared
          · rw [PyDict.contains, hother k' hkey'] at hk'
            exact hs.alone k k' hk hk' hshared
  | deleteState key =>
      have hother : ∀ k, k ≠ key → (s.kv.erase key).get? k = s.kv.get? k :=
        fun k hk => PyDict.get?_erase_of_ne _ fun h => hk h.symm
      have hcontains : ∀ k, (s.kv.erase key).contains k = true → s.kv.contains k = true := by
        intro k hk
        rw [PyDict.contains, PyDict.get?_erase] at hk
        by_cases hkey : key = k
        · rw [if_pos hkey] at hk
          exact absurd hk (by simp)
        · rw [if_neg hkey] at hk
          exact hk
      exact tidy_kv hs key hother (Or.inr (by simpa [orderly] using hguard)) fun k k' hk hk' =>
        hs.alone k k' (hcontains k hk) (hcontains k' hk')
  | append e =>
      refine tidy_push hs (fun h => ?_) fun hmarked => ?_
      · rw [marked, h, Bool.true_or]
      · simpa [orderly, hmarked] using hguard
  | update key value confidence metadata sourceType now =>
      refine tidy_push (e := ⟨key, value, confidence, sourceType, now, _, metadata⟩) hs
        (fun h => ?_) fun hmarked => ?_
      · rw [marked, h, Bool.or_self]
      · rw [marked, Bool.or_self] at hmarked
        have hsup : rt.truthy ((metadata.get? "is_superseded").getD .null) = true := hmarked
        rcases Bool.or_eq_true_iff.mp hguard with h | h
        · rw [hsup] at h
          exact absurd h (by simp)
        · exact h
  | purge key =>
      exact tidy_memory hs hs.history fun e he => hs.entries e (List.mem_of_mem_filter he)
  | markSuperseded key =>
      refine tidy_memory hs (fun k hk => ?_) fun e he => hs.entries e (List.mem_of_mem_filter he)
      rcases List.mem_cons.mp hk with hk | hk
      · rw [hk]
        exact hguard
      · exact hs.history k hk
  | clear => exact tidy_memory hs (by rintro _ ⟨⟩) (by rintro _ ⟨⟩)
  | insertPoint key text record => exact ⟨hs.history, hs.entries, hs.alone⟩
  | deletePoints key => exact ⟨hs.history, hs.entries, hs.alone⟩
  | addNode key isSuperseded => exact ⟨hs.history, hs.entries, hs.alone⟩
  | removeNode key => exact ⟨hs.history, hs.entries, hs.alone⟩
  | reconcile now session touched =>
      have hkv := @kv_reconcile rt lex _ now session touched s
      have hspec := reconcileSuperseded_spec s.memory (supersededKeys rt lex s touched)
      refine ⟨fun k hk => ?_, fun e he hmarked => ?_, fun k k' hk hk' => ?_⟩
      · show supersededKey rt (reconcile rt lex now session touched s).kv k = true
        rw [hkv]
        rcases hspec.2 k hk with hk | hk
        · exact hs.history k hk
        · exact supersededKey_of_mem_supersededKeys hs hk
      · show supersededKey rt (reconcile rt lex now session touched s).kv e.key = true
        rw [hkv]
        obtain ⟨e', he', heq⟩ := List.mem_map.mp he
        obtain ⟨hkey, hmark⟩ := @promoteEntry_spec rt lex session _ e'
        rw [← heq] at hmarked ⊢
        rw [hmark] at hmarked
        rw [hkey]
        exact hs.entries e' ((hspec.1 e').mp he').1 hmarked
      · rw [show (step rt lex s (.reconcile now session touched)).kv = s.kv from hkv] at hk hk'
        exact hs.alone k k' hk hk'

/-- **Evictions.** In a run in which no record of a claimed key is made live or deleted, no record
is written beside that of another key with the same points, and a mark enters working memory for
a key with a marked record only, every reconciliation evicts data of retired keys only. -/
theorem evictsOnlyRetired_of_orderly (rt : Runtime) (lex : Lexicon) (maxlen : ℕ) (ttlSeconds : ℚ)
    (es : List (Event ρ)) (hrun : run rt lex (initial maxlen ttlSeconds) es = some s) (now : ℚ)
    (session : String) (touched : List String) :
    EvictsOnlyRetired rt s (step rt lex s (.reconcile now session touched)) := by
  have htidy : Tidy rt s :=
    GuardedRun.run_invariant (fun s e s' hs hguard hstep => by
      rw [← Option.some.inj hstep]
      exact tidy_step lex hs e hguard) hrun (tidy_initial maxlen ttlSeconds)
  exact evictsOnlyRetired_reconcile htidy now session touched

/-- A row of a plain text, with the mark or without. -/
def sampleRow (value metadata : String) : StateRow :=
  ⟨value, 1, .finite 0, some metadata, none⟩

/-- A theme that was superseded, and one that is live. -/
def sampleRecords : List (Event Unit) :=
  [.setState "editor:theme" (sampleRow "dark" "\x7b\"is_superseded\": true\x7d"),
    .append ⟨"editor:theme", .str "dark", 1, "user_explicit", 0, false, ∅⟩,
    .setState "editor:font" (sampleRow "mono" "\x7b\x7d"),
    .append ⟨"editor:font", .str "mono", 1, "user_explicit", 0, false, ∅⟩]

/-- The run of the sample records, and a reconciliation after it. -/
theorem evictsOnlyRetired_sampleRecords :
    ∃ s, run Runtime.sample sampleLexicon (initial 25 900) sampleRecords = some s ∧
      EvictsOnlyRetired Runtime.sample s
        (step Runtime.sample sampleLexicon s (.reconcile 1 "s" ["editor:theme"])) := by
  have hrun : (run Runtime.sample sampleLexicon (initial 25 900) sampleRecords).isSome = true := by
    decide +kernel
  obtain ⟨s, hs⟩ := Option.isSome_iff_exists.mp hrun
  exact ⟨s, hs, evictsOnlyRetired_of_orderly _ _ _ _ _ hs 1 "s" ["editor:theme"]⟩

/-- The theme is superseded and reconciled, and then set again. -/
def rewrittenTheme : List (Event Unit) :=
  [.setState "editor:theme" (sampleRow "dark" "\x7b\"is_superseded\": true\x7d"),
    .reconcile 1 "s" ["editor:theme"],
    .setState "editor:theme" (sampleRow "light" "\x7b\x7d"),
    .update "editor:theme" (.str "light") 1 ∅ "user_explicit" 2]

/-- The history keeps a key that was set again, and the next reconciliation evicts its live
entry. -/
theorem live_entry_evicted :
    let s := rewrittenTheme.foldl (step Runtime.sample sampleLexicon) (initial 25 900)
    ¬ EvictsOnlyRetired Runtime.sample s
      (step Runtime.sample sampleLexicon s (.reconcile 3 "s" ["editor:font"])) := by
  intro s hevicts
  have hentry : s.memory.hot.buffer.any (fun e => decide (e.key = "editor:theme")) = true := by
    decide +kernel
  have hgone : (step Runtime.sample sampleLexicon s
      (.reconcile 3 "s" ["editor:font"])).memory.hot.buffer.all
        (fun e => decide (e.key ≠ "editor:theme")) = true := by
    decide +kernel
  have hlive : supersededKey Runtime.sample s.kv "editor:theme" = false := by decide +kernel
  obtain ⟨e, he, hkey⟩ := List.any_eq_true.mp hentry
  obtain ⟨row, -, hrow, -, hsup, -⟩ := hevicts.entries e he fun e' he' heq =>
    of_decide_eq_true (List.all_eq_true.mp hgone e' he') (heq.trans (of_decide_eq_true hkey))
  rw [of_decide_eq_true hkey] at hrow
  rw [supersededKey_iff.mpr ⟨row, hrow, hsup⟩] at hlive
  exact absurd hlive (by simp)

end SessionTracker

end AtlasMemory
