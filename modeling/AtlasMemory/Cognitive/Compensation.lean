import AtlasMemory.Cognitive.WriteCalls

/-!
# What a compensation undoes

The stores of a write path one by one: what the stages before a fault have put into each of them, and
what the compensation takes out again.  A relation that is there with the same confidence or a higher
one is absorbed; a point is taken out with every other point of its key; an entry of the buffer comes
back unless another one was pushed out in between.
-/

namespace AtlasMemory

/-! ## The knowledge graph -/

namespace KnowledgeGraph

variable {g : KnowledgeGraph} {confidence : ℚ}

/-- The relation is there with this confidence or a higher one, so that to add it changes nothing. -/
def Absorbs (g : KnowledgeGraph) (confidence : ℚ) (e : Edge) : Prop :=
  ∃ prev, g.edges.get? e = some prev ∧ confidence ≤ prev

def addAll (g : KnowledgeGraph) (confidence : ℚ) (es : List Edge) : KnowledgeGraph :=
  es.foldl (fun g e => g.addRelation e confidence) g

lemma addAll_append (g : KnowledgeGraph) (es es' : List Edge) :
    g.addAll confidence (es ++ es') = (g.addAll confidence es).addAll confidence es' :=
  List.foldl_append

/-- The confidence of a relation after it is added to one that may be there. -/
def merged (confidence : ℚ) (o : Option ℚ) : ℚ :=
  match o with
  | some prev => if confidence < prev then prev else confidence
  | none => confidence

lemma get?_addRelation (g : KnowledgeGraph) (e e' : Edge) :
    (g.addRelation e confidence).edges.get? e' =
      if e = e' then some (merged confidence (g.edges.get? e)) else g.edges.get? e' :=
  PyDict.get?_set _ _ _ _

lemma merged_merged (confidence : ℚ) (o : Option ℚ) :
    merged confidence (some (merged confidence o)) = merged confidence o := by
  cases o with
  | none => simp [merged]
  | some prev =>
      simp only [merged]
      split_ifs <;> simp_all

lemma get?_addAll (g : KnowledgeGraph) (es : List Edge) (e : Edge) :
    (g.addAll confidence es).edges.get? e =
      if e ∈ es then some (merged confidence (g.edges.get? e)) else g.edges.get? e := by
  induction es generalizing g with
  | nil => simp [addAll]
  | cons e' es ih =>
      show ((g.addRelation e' confidence).addAll confidence es).edges.get? e = _
      rw [ih, get?_addRelation]
      by_cases he : e' = e
      · subst he
        simp [merged_merged]
      · simp [he, Ne.symm he]

lemma merged_eq_iff {o : Option ℚ} :
    some (merged confidence o) = o ↔ ∃ prev, o = some prev ∧ confidence ≤ prev := by
  cases o with
  | none => simp
  | some prev =>
      simp only [merged, Option.some.injEq, exists_eq_left']
      split_ifs with hlt
      · simp [hlt.le]
      · constructor
        · exact fun h => h.le
        · exact fun h => le_antisymm h (not_lt.mp hlt)

/-- The relations that are added leave a relation as it was if and only if it is absorbed. -/
lemma get?_addAll_eq_iff {es : List Edge} {e : Edge} :
    (g.addAll confidence es).edges.get? e = g.edges.get? e ↔ (e ∈ es → g.Absorbs confidence e) := by
  rw [get?_addAll]
  by_cases he : e ∈ es
  · rw [if_pos he, merged_eq_iff]
    exact ⟨fun h _ => h, fun h => h he⟩
  · rw [if_neg he]
    exact ⟨fun _ h => absurd h he, fun _ => rfl⟩

lemma get?_foldl_removeEdge (g : KnowledgeGraph) (es : List Edge) (e : Edge) :
    (es.foldl removeEdge g).edges.get? e = if e ∈ es then none else g.edges.get? e := by
  induction es generalizing g with
  | nil => simp
  | cons e' es ih =>
      rw [List.foldl_cons, ih]
      by_cases hmem : e ∈ es
      · simp [hmem]
      · by_cases he : e' = e
        · subst he
          simp [removeEdge]
        · rw [if_neg hmem, if_neg (by simp [Ne.symm he, hmem])]
          exact PyDict.get?_erase_of_ne _ he

lemma passages_foldl_removeEdge (g : KnowledgeGraph) (es : List Edge) :
    (es.foldl removeEdge g).passages = g.passages := by
  induction es generalizing g with
  | nil => rfl
  | cons e es ih => exact ih (g.removeEdge e)

/-- The relation has an end at the passage. -/
def Touches (passageId : String) (e : Edge) : Prop :=
  e.subject ∈ passageIds passageId ∨ e.object ∈ passageIds passageId

instance (passageId : String) (e : Edge) : Decidable (Touches passageId e) :=
  inferInstanceAs (Decidable (_ ∨ _))

lemma get?_rollbackDualNodeRecord (g : KnowledgeGraph) (passageId : String) (e : Edge) :
    (g.rollbackDualNodeRecord passageId).edges.get? e =
      if Touches passageId e then none else g.edges.get? e := by
  rw [rollbackDualNodeRecord, PyDict.get?_filter]
  by_cases h : Touches passageId e
  · have hnot : ¬(e.subject ∉ passageIds passageId ∧ e.object ∉ passageIds passageId) := by
      rw [not_and_or, not_not, not_not]
      exact h
    rw [if_pos h, decide_eq_false hnot]
    cases g.edges.get? e <;> rfl
  · have hboth := not_or.mp h
    rw [if_neg h, decide_eq_true hboth]
    cases g.edges.get? e <;> rfl

end KnowledgeGraph

/-! ## The hot buffer -/

namespace HotBuffer

/-- The entries have different keys, and there are no more than the buffer holds. -/
structure Valid (b : HotBuffer) : Prop where
  nodup : (b.buffer.map HotBufferEntry.key).Nodup
  length_le : b.buffer.length ≤ b.maxlen

variable {b : HotBuffer}

lemma valid_purge (h : b.Valid) (key : String) : (b.purge key).Valid where
  nodup := h.nodup.sublist (List.filter_sublist.map _)
  length_le := (List.length_filter_le _ _).trans h.length_le

lemma valid_push {e : HotBufferEntry} (h : b.Valid) (he : ∀ e' ∈ b.buffer, e'.key ≠ e.key) :
    (b.push e).Valid := by
  have hgrown : ((b.buffer ++ [e]).map HotBufferEntry.key).Nodup := by
    rw [List.map_append, List.map_singleton]
    refine List.Nodup.append h.nodup (List.nodup_singleton _) ?_
    intro k hk hk'
    obtain ⟨e', he', rfl⟩ := List.mem_map.mp hk
    exact he e' he' (List.mem_singleton.mp hk')
  refine ⟨hgrown.sublist ((List.drop_sublist _ _).map _), ?_⟩
  show ((b.buffer ++ [e]).drop _).length ≤ b.maxlen
  rw [List.length_drop]
  omega

/-- **The buffer stays valid.** -/
theorem valid_append (h : b.Valid) (e : HotBufferEntry) : (b.append e).Valid := by
  refine valid_push (valid_purge h e.key) fun e' he' => ?_
  have hkey := (List.mem_filter.mp he').2
  simpa using hkey

theorem valid_update (h : b.Valid) (rt : Runtime) (key : String) (value : Json) (confidence : ℚ)
    (metadata : PyDict String Json) (sourceType : String) (now : ℚ) :
    (b.update rt key value confidence metadata sourceType now).Valid := by
  refine valid_push (valid_purge h key) fun e' he' => ?_
  have hkey := (List.mem_filter.mp he').2
  simpa using hkey

lemma valid_restoreHot (h : b.Valid) (o : Option HotBufferEntry) :
    (WritePath.restoreHot b o).Valid := by
  cases o with
  | none => exact h
  | some e => exact valid_append h e

lemma maxlen_restoreHot (b : HotBuffer) (o : Option HotBufferEntry) :
    (WritePath.restoreHot b o).maxlen = b.maxlen := by
  cases o <;> rfl

/-- An entry of a valid buffer is the one under its key. -/
lemma eq_of_key_eq (h : b.Valid) {e e' : HotBufferEntry} (he : e ∈ b.buffer) (he' : e' ∈ b.buffer)
    (hkey : e.key = e'.key) : e = e' :=
  List.inj_on_of_nodup_map h.nodup he he' hkey

/-- Two valid buffers hold the same entries if and only if each is in both. -/
lemma perm_iff {b' : HotBuffer} (h : b.Valid) (h' : b'.Valid) :
    b.buffer.Perm b'.buffer ↔ ∀ e, e ∈ b.buffer ↔ e ∈ b'.buffer :=
  List.perm_ext_iff_of_nodup h.nodup.of_map h'.nodup.of_map

/-- An entry of a valid buffer is put back into what is left of that buffer. -/
lemma mem_append_iff {part : HotBuffer} (h : b.Valid) (hpart : part.Valid)
    (hmaxlen : part.maxlen = b.maxlen) (hsub : part.buffer ⊆ b.buffer) {e : HotBufferEntry}
    (he : e ∈ b.buffer) (e' : HotBufferEntry) :
    e' ∈ (part.append e).buffer ↔ e' = e ∨ e' ∈ part.buffer := by
  have hfresh : ∀ e' ∈ (part.purge e.key).buffer, e'.key ≠ e.key := by
    intro e' he'
    have hkey := (List.mem_filter.mp he').2
    simpa using hkey
  have hnodup : (e :: (part.purge e.key).buffer).Nodup := by
    refine List.nodup_cons.mpr ⟨fun hmem => hfresh e hmem rfl, ?_⟩
    exact (valid_purge hpart e.key).nodup.of_map
  have hlength : (e :: (part.purge e.key).buffer).length ≤ b.buffer.length := by
    refine (List.subperm_of_subset hnodup fun e' he' => ?_).length_le
    rcases List.mem_cons.mp he' with rfl | he'
    · exact he
    · exact hsub (List.mem_filter.mp he').1
  have hroom : (part.purge e.key).buffer.length < part.maxlen := by
    have hle := h.length_le
    rw [List.length_cons] at hlength
    omega
  have hbuffer : (part.append e).buffer = (part.purge e.key).buffer ++ [e] := by
    have hzero : ((part.purge e.key).buffer ++ [e]).length - part.maxlen = 0 := by
      rw [List.length_append, List.length_singleton]
      omega
    show ((part.purge e.key).buffer ++ [e]).drop _ = _
    rw [show (part.purge e.key).maxlen = part.maxlen from rfl, hzero, List.drop_zero]
  rw [hbuffer, List.mem_append, List.mem_singleton, or_comm]
  constructor
  · rintro (rfl | hmem)
    · exact Or.inl rfl
    · exact Or.inr (List.mem_filter.mp hmem).1
  · rintro (rfl | hmem)
    · exact Or.inl rfl
    · by_cases hkey : e'.key = e.key
      · exact Or.inl (eq_of_key_eq h (hsub hmem) he hkey)
      · exact Or.inr (List.mem_filter.mpr ⟨hmem, decide_eq_true hkey⟩)

lemma mem_restoreHot_iff {part : HotBuffer} (h : b.Valid) (hpart : part.Valid)
    (hmaxlen : part.maxlen = b.maxlen) (hsub : part.buffer ⊆ b.buffer) {o : Option HotBufferEntry}
    (ho : ∀ e, o = some e → e ∈ b.buffer) (e' : HotBufferEntry) :
    e' ∈ (WritePath.restoreHot part o).buffer ↔ o = some e' ∨ e' ∈ part.buffer := by
  cases o with
  | none => simp [WritePath.restoreHot]
  | some e =>
      have hmem := mem_append_iff h hpart hmaxlen hsub (ho e rfl) e'
      rw [Option.some.injEq, eq_comm (a := e)]
      exact hmem

end HotBuffer

namespace WritePath

open HotBuffer

section Hot

variable {rt : Runtime} {hot : HotBuffer} {a : Accepted}

/-- The buffer without the superseded key. -/
def purgedHot (hot : HotBuffer) : Option String → HotBuffer
  | some oldKey => hot.purge oldKey
  | none => hot

lemma valid_purgedHot (h : hot.Valid) (o : Option String) : (purgedHot hot o).Valid := by
  cases o with
  | none => exact h
  | some k => exact valid_purge h k

lemma mem_purgedHot {o : Option String} {e : HotBufferEntry} :
    e ∈ (purgedHot hot o).buffer ↔ e ∈ hot.buffer ∧ o ≠ some e.key := by
  cases o with
  | none => simp [purgedHot]
  | some k =>
      show e ∈ hot.buffer.filter _ ↔ _
      rw [List.mem_filter, decide_eq_true_iff, Ne, Ne, Option.some.injEq, eq_comm (a := k)]

/-- The last of the entries that meet a condition which one entry at most meets. -/
lemma getLast?_filter_eq_some_iff {l : List HotBufferEntry} {p : HotBufferEntry → Bool}
    (hunique : ∀ e ∈ l, ∀ e' ∈ l, p e → p e' → e = e') (e : HotBufferEntry) :
    (l.filter p).getLast? = some e ↔ e ∈ l ∧ p e := by
  constructor
  · intro h
    exact List.mem_filter.mp (List.mem_of_getLast? h)
  · intro h
    have hmem : e ∈ l.filter p := List.mem_filter.mpr h
    obtain ⟨e', he'⟩ := Option.isSome_iff_exists.mp
      (List.getLast?_isSome.mpr (List.ne_nil_of_mem hmem))
    have hlast := List.mem_filter.mp (List.mem_of_getLast? he')
    rw [he', hunique e' hlast.1 e h.1 hlast.2 h.2]

lemma backupHotTarget_eq_some_iff (h : hot.Valid) (e : HotBufferEntry) :
    a.backupHotTarget hot = some e ↔ e ∈ hot.buffer ∧ e.key = a.key := by
  unfold Accepted.backupHotTarget
  rw [getLast?_filter_eq_some_iff, decide_eq_true_iff]
  intro e he e' he' hkey hkey'
  exact eq_of_key_eq h he he' ((of_decide_eq_true hkey).trans (of_decide_eq_true hkey').symm)

lemma backupHotSuperseded_eq_some_iff (h : hot.Valid) (e : HotBufferEntry) :
    a.backupHotSuperseded hot = some e ↔
      e ∈ hot.buffer ∧ e.key ≠ a.key ∧ a.oldKey = some e.key := by
  unfold Accepted.backupHotSuperseded
  rw [getLast?_filter_eq_some_iff, decide_eq_true_iff]
  intro e he e' he' hkey hkey'
  have hold := (of_decide_eq_true hkey).2
  have hold' := (of_decide_eq_true hkey').2
  exact eq_of_key_eq h he he' (Option.some.inj (hold.symm.trans hold'))

/-- Both backups are put back into what is left of the buffer. -/
lemma mem_restored_iff {part : HotBuffer} (h : hot.Valid) (hpart : part.Valid)
    (hmaxlen : part.maxlen = hot.maxlen) (hsub : part.buffer ⊆ hot.buffer)
    {o o' : Option HotBufferEntry} (ho : ∀ e, o = some e → e ∈ hot.buffer)
    (ho' : ∀ e, o' = some e → e ∈ hot.buffer) (e : HotBufferEntry) :
    e ∈ (restoreHot (restoreHot part o) o').buffer ↔
      o' = some e ∨ o = some e ∨ e ∈ part.buffer := by
  have hfirst := mem_restoreHot_iff h hpart hmaxlen hsub ho
  rw [mem_restoreHot_iff h (valid_restoreHot hpart o) ((maxlen_restoreHot part o).trans hmaxlen) ?_
    ho', hfirst]
  intro e' he'
  rcases (hfirst e').mp he' with he' | he'
  · exact ho e' he'
  · exact hsub he'

/-- **The buffer after a vector has failed** is the one before the write. -/
lemma hot_compensateVector (h : hot.Valid) :
    (restoreHot (restoreHot (purgedHot hot a.oldKey) (a.backupHotSuperseded hot))
      (a.backupHotTarget hot)).buffer.Perm hot.buffer := by
  have hpurged := valid_purgedHot h a.oldKey
  have hmaxlen : (purgedHot hot a.oldKey).maxlen = hot.maxlen := by
    cases a.oldKey <;> rfl
  have hsub : (purgedHot hot a.oldKey).buffer ⊆ hot.buffer := fun e he => (mem_purgedHot.mp he).1
  refine (perm_iff (valid_restoreHot (valid_restoreHot hpurged _) _) h).mpr fun e => ?_
  rw [mem_restored_iff h hpurged hmaxlen hsub
    (fun e he => ((backupHotSuperseded_eq_some_iff h e).mp he).1)
    (fun e he => ((backupHotTarget_eq_some_iff h e).mp he).1),
    backupHotTarget_eq_some_iff h, backupHotSuperseded_eq_some_iff h, mem_purgedHot]
  tauto

/-- The entries of other keys than the written one and the superseded one. -/
def otherEntries (hot : HotBuffer) (a : Accepted) : List HotBufferEntry :=
  ((purgedHot hot a.oldKey).purge a.key).buffer

lemma mem_otherEntries {e : HotBufferEntry} :
    e ∈ otherEntries hot a ↔ e ∈ hot.buffer ∧ a.oldKey ≠ some e.key ∧ e.key ≠ a.key := by
  show e ∈ (purgedHot hot a.oldKey).buffer.filter _ ↔ _
  rw [List.mem_filter, mem_purgedHot, decide_eq_true_iff, and_assoc]

/-- The buffer with the entry of the write, and without it again. -/
lemma buffer_purge_update (value : Json) (confidence : ℚ) (metadata : PyDict String Json)
    (sourceType : String) (now : ℚ) :
    (((purgedHot hot a.oldKey).update rt a.key value confidence metadata sourceType now).purge
      a.key).buffer =
        (otherEntries hot a).drop ((otherEntries hot a).length + 1 - hot.maxlen) := by
  have hmaxlen : (purgedHot hot a.oldKey).maxlen = hot.maxlen := by
    cases a.oldKey <;> rfl
  generalize hnew : ({
      key := a.key
      value := value
      confidence := confidence
      sourceType := sourceType
      timestamp := now
      isSuperseded := rt.truthy ((metadata.get? "is_superseded").getD .null)
      metadata := metadata } : HotBufferEntry) = entry
  have hkey : entry.key = a.key := by rw [← hnew]
  have hkept : ∀ e ∈ (otherEntries hot a).drop ((otherEntries hot a).length + 1 - hot.maxlen),
      decide (e.key ≠ a.key) = true := fun e he =>
    decide_eq_true (mem_otherEntries.mp (List.mem_of_mem_drop he)).2.2
  have hgone : ∀ n, (([entry].drop n).filter fun e => decide (e.key ≠ a.key)) = [] := by
    intro n
    refine List.filter_eq_nil_iff.mpr fun e he => ?_
    rw [List.mem_singleton.mp (List.mem_of_mem_drop he), hkey]
    simp
  unfold update push
  rw [hnew]
  show ((otherEntries hot a ++ [entry]).drop _).filter _ = _
  rw [List.drop_append, List.filter_append, hgone, List.append_nil, List.length_append,
    List.length_singleton]
  show List.filter _ (List.drop (_ - (purgedHot hot a.oldKey).maxlen) _) = _
  rw [hmaxlen]
  exact List.filter_eq_self.mpr hkept

/-- **The buffer after a relation has failed** is the one before the write if and only if the entry of
the write pushed out none of another key. -/
lemma hot_compensateGraph_iff (h : hot.Valid) (value : Json) (confidence : ℚ)
    (metadata : PyDict String Json) (sourceType : String) (now : ℚ) :
    (restoreHot (restoreHot (((purgedHot hot a.oldKey).update rt a.key value confidence metadata
      sourceType now).purge a.key) (a.backupHotTarget hot))
        (a.backupHotSuperseded hot)).buffer.Perm hot.buffer ↔
      (otherEntries hot a).length < hot.maxlen ∨ otherEntries hot a = [] := by
  have hpart := valid_purge (valid_update (valid_purgedHot h a.oldKey) rt a.key value confidence
    metadata sourceType now) a.key
  have hbuffer := @buffer_purge_update rt hot a value confidence metadata sourceType now
  have hmaxlen : (((purgedHot hot a.oldKey).update rt a.key value confidence metadata sourceType
      now).purge a.key).maxlen = hot.maxlen := by
    show (purgedHot hot a.oldKey).maxlen = hot.maxlen
    cases a.oldKey <;> rfl
  generalize (((purgedHot hot a.oldKey).update rt a.key value confidence metadata sourceType
    now).purge a.key) = part at *
  have hsub : part.buffer ⊆ hot.buffer := by
    intro e he
    rw [hbuffer] at he
    exact (mem_otherEntries.mp (List.mem_of_mem_drop he)).1
  rw [perm_iff (valid_restoreHot (valid_restoreHot hpart _) _) h]
  have hmem : ∀ e, e ∈ (restoreHot (restoreHot part (a.backupHotTarget hot))
      (a.backupHotSuperseded hot)).buffer ↔ (e ∈ hot.buffer ∧ e.key ≠ a.key ∧ a.oldKey = some e.key) ∨
        (e ∈ hot.buffer ∧ e.key = a.key) ∨
          e ∈ (otherEntries hot a).drop ((otherEntries hot a).length + 1 - hot.maxlen) := by
    intro e
    rw [mem_restored_iff h hpart hmaxlen hsub
      (fun e he => ((backupHotTarget_eq_some_iff h e).mp he).1)
      (fun e he => ((backupHotSuperseded_eq_some_iff h e).mp he).1),
      backupHotTarget_eq_some_iff h, backupHotSuperseded_eq_some_iff h, hbuffer]
  simp only [hmem]
  constructor
  · intro hall
    by_contra hnot
    rw [not_or, not_lt] at hnot
    obtain ⟨hfull, hne⟩ := hnot
    obtain ⟨e, es, hes⟩ := List.exists_cons_of_ne_nil hne
    -- the oldest entry is pushed out, and nothing puts it back
    obtain ⟨he, hold, hkey⟩ := mem_otherEntries.mp (hes ▸ List.mem_cons_self)
    have hnodup : (otherEntries hot a).Nodup :=
      (valid_purge (valid_purgedHot h a.oldKey) a.key).nodup.of_map
    rcases (hall e).mpr he with h' | h' | h'
    · exact hold h'.2.2
    · exact hkey h'.2
    · rw [hes] at h' hnodup hfull
      have hpos : (e :: es).length + 1 - hot.maxlen = (e :: es).length - hot.maxlen + 1 := by omega
      rw [hpos, List.drop_succ_cons] at h'
      exact (List.nodup_cons.mp hnodup).1 (List.mem_of_mem_drop h')
  · intro hroom e
    have hdrop : (otherEntries hot a).drop ((otherEntries hot a).length + 1 - hot.maxlen) =
        otherEntries hot a := by
      rcases hroom with hlt | hnil
      · have hzero : (otherEntries hot a).length + 1 - hot.maxlen = 0 := by omega
        rw [hzero, List.drop_zero]
      · rw [hnil, List.drop_nil]
    rw [hdrop, mem_otherEntries]
    tauto

end Hot

end WritePath

/-! ## The store -/

def StateRow.live (row : StateRow) : String × ℚ × Option String :=
  (row.value, row.confidence, row.metadata)

namespace WritePath

section Rewrites

variable {rt : Runtime}

/-- The live columns that a call of `set_sync` writes. -/
def liveOf (rt : Runtime) (b : SetArgs) (now : ℚ) : String × ℚ × Option String :=
  (b.value.dumps, PyFloat.clampUnit b.confidence,
    some (Json.obj (b.storedMetadata rt now).entries).dumps)

def lastSet : List KvCall → Option (SetArgs × ℚ)
  | [] => none
  | c :: cs => (lastSet cs).or (match c with
    | .setSync b now => some (b, now)
    | _ => none)

def Rewrites (key : String) (calls : List KvCall) : Prop :=
  ∀ c ∈ calls, ∃ b now, c = .setSync b now ∧ b.key = key

lemma lastSet_append (cs ds : List KvCall) : lastSet (cs ++ ds) = (lastSet ds).or (lastSet cs) := by
  induction cs with
  | nil => exact (Option.or_none).symm
  | cons c cs ih =>
      show (lastSet (cs ++ ds)).or _ = _
      rw [ih, Option.or_assoc]
      rfl

/-- Rewrites of one key leave under it what the last of them writes. -/
lemma live_run_rewrites {key : String} {calls : List KvCall} (h : Rewrites key calls)
    (kv : VerifiedKVStore) (key' : String) :
    ((kv.run rt calls).db.stateVariables.get? key').map StateRow.live =
      if key = key' then ((lastSet calls).map fun e => liveOf rt e.1 e.2).or
        ((kv.db.stateVariables.get? key').map StateRow.live)
      else (kv.db.stateVariables.get? key').map StateRow.live := by
  induction calls generalizing kv with
  | nil => simp [VerifiedKVStore.run, lastSet]
  | cons c cs ih =>
      obtain ⟨b, now, rfl, hkey⟩ := h c List.mem_cons_self
      rw [VerifiedKVStore.run_cons, ih fun c hc => h c (List.mem_cons_of_mem _ hc)]
      have hrow : ((kv.call rt (.setSync b now)).db.stateVariables.get? key').map StateRow.live =
          if key = key' then some (liveOf rt b now)
          else (kv.db.stateVariables.get? key').map StateRow.live := by
        rw [VerifiedKVStore.db_call (by rintro _ ⟨⟩)]
        show ((kv.db.setSync rt b now).1.stateVariables.get? key').map _ = _
        rw [get?_setSync, hkey]
        split_ifs <;> rfl
      rw [hrow]
      by_cases hkey' : key = key'
      · rw [if_pos hkey', if_pos hkey', if_pos hkey']
        cases hlast : lastSet cs with
        | none => simp [lastSet, hlast]
        | some e => simp [lastSet, hlast]
      · rw [if_neg hkey', if_neg hkey', if_neg hkey']

/-- The rewrites leave the live columns as they were if and only if the last of them writes what is
there. -/
lemma live_run_rewrites_iff {key : String} {calls : List KvCall} (h : Rewrites key calls)
    (kv : VerifiedKVStore) :
    (∀ key', ((kv.run rt calls).db.stateVariables.get? key').map StateRow.live =
      (kv.db.stateVariables.get? key').map StateRow.live) ↔
      ∀ b now, lastSet calls = some (b, now) →
        (kv.db.stateVariables.get? key).map StateRow.live = some (liveOf rt b now) := by
  constructor
  · intro hall b now hlast
    have hkey := hall key
    rw [live_run_rewrites h, if_pos rfl, hlast] at hkey
    exact hkey.symm
  · intro hlast key'
    rw [live_run_rewrites h]
    split_ifs with hkey
    · subst hkey
      cases hset : lastSet calls with
      | none => rfl
      | some e => exact (hlast e.1 e.2 hset).symm
    · rfl

end Rewrites

end WritePath

end AtlasMemory
