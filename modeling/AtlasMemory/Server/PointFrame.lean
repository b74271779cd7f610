import AtlasMemory.L2Semantic.QdrantStore

/-!
# Points and keys

Every point belongs to the normal form of a key.  In a store whose points stand where their normal
keys put them, there is at most one point for a normal key; an insertion under a canonical key and
the deletion of a record under such a key leave the points of the other normal keys as they are, and
after the deletion there is none of its own.  The fallback of the deletion goes by the text of the
record, whoever's point has it, so it is kept out where there is no point under the key.
-/

namespace AtlasMemory

namespace QdrantVectorStore

open VectorStore

variable {ρ : Type}

def pointsOf (v : QdrantVectorStore ρ) (c : String) : List (VectorPoint ρ) :=
  v.points.filter fun p => decide (p.upsertKey = c)

/-- Every point stands where its normal key puts it. -/
def WellPlaced (ids : PointIds) : QdrantVectorStore ρ → Prop
  | .inMemory ps => (∀ p ∈ ps, Normal p.upsertKey) ∧ (ps.map VectorPoint.upsertKey).Nodup
  | .client d => ∀ i p, d.get? i = some p → i = ids.digest p.upsertKey ∧ Normal p.upsertKey ∧
    ∀ k, p.kvKey = some k → k = p.upsertKey

/-- The store without the points of a normal key. -/
def withoutKey (v : QdrantVectorStore ρ) (c : String) : QdrantVectorStore ρ :=
  match v with
  | .inMemory ps => .inMemory (ps.filter fun p => !decide (p.upsertKey = c))
  | .client d => .client (d.filter fun _ p => !decide (p.upsertKey = c))

variable {ids : PointIds} {v : QdrantVectorStore ρ} {c : String}

/-! ## One point for a key -/

lemma nodup_upsertKeys (h : WellPlaced ids v) : (v.points.map VectorPoint.upsertKey).Nodup := by
  cases v with
  | inMemory ps => exact h.2
  | client d =>
    have hids : d.keys = (d.values.map fun p => p.upsertKey).map ids.digest := by
      simp only [PyDict.keys, PyDict.values, List.map_map]
      refine List.map_congr_left fun e he => ?_
      exact (h e.1 e.2 (PyDict.mem_entries_iff.mp he)).1
    have hnodup := d.nodupKeys
    rw [show d.entries.map Prod.fst = d.keys from rfl, hids] at hnodup
    simpa [points, Function.comp_def] using hnodup.of_map

lemma length_pointsOf_le_one (h : WellPlaced ids v) (c : String) :
    (v.pointsOf c).length ≤ 1 := by
  have hcount := List.nodup_iff_count_le_one.mp (nodup_upsertKeys h) c
  rw [List.count_eq_countP, List.countP_map, List.countP_eq_length_filter] at hcount
  have hfilter : v.pointsOf c = v.points.filter ((fun k => k == c) ∘ VectorPoint.upsertKey) := by
    unfold pointsOf
    refine List.filter_congr fun p _ => ?_
    exact (beq_eq_decide _ _).symm
  rwa [hfilter]

/-! ## Without a key -/

lemma points_withoutKey (v : QdrantVectorStore ρ) (c : String) :
    (v.withoutKey c).points = v.points.filter fun p => !decide (p.upsertKey = c) := by
  cases v with
  | inMemory ps => rfl
  | client d =>
    show ((d.filter _).values.map _) = _
    rw [PyDict.values_filter d fun p => !decide (p.upsertKey = c)]
    simp [points, List.filter_map, Function.comp_def]

lemma pointsOf_withoutKey_self (v : QdrantVectorStore ρ) (c : String) :
    (v.withoutKey c).pointsOf c = [] := by
  rw [pointsOf, points_withoutKey, List.filter_filter]
  simp

lemma pointsOf_withoutKey_of_ne {c' : String} (h : c' ≠ c) :
    (v.withoutKey c).pointsOf c' = v.pointsOf c' := by
  rw [pointsOf, points_withoutKey, List.filter_filter, pointsOf]
  refine List.filter_congr fun p _ => ?_
  by_cases hp : p.upsertKey = c'
  · simp [hp, h]
  · simp [hp]

lemma wellPlaced_withoutKey (h : WellPlaced ids v) (c : String) :
    WellPlaced ids (v.withoutKey c) := by
  cases v with
  | inMemory ps =>
    refine ⟨fun p hp => h.1 p (List.mem_of_mem_filter hp), ?_⟩
    exact h.2.sublist (List.filter_sublist.map _)
  | client d =>
    intro i p hp
    rw [PyDict.get?_filter, Option.filter_eq_some_iff] at hp
    exact h i p hp.1

lemma pointsOf_eq_nil_iff : v.pointsOf c = [] ↔ ∀ p ∈ v.points, p.upsertKey ≠ c := by
  simp [pointsOf, List.filter_eq_nil_iff]

lemma withoutKey_of_nil (h : v.pointsOf c = []) : v.withoutKey c = v := by
  rw [pointsOf_eq_nil_iff] at h
  cases v with
  | inMemory ps =>
    have hall : ps.filter (fun p => !decide (p.upsertKey = c)) = ps :=
      List.filter_eq_self.mpr fun p hp => by simpa using h p hp
    simp [withoutKey, hall]
  | client d =>
    have hall : (d.filter fun _ p => !decide (p.upsertKey = c)) = d := by
      refine PyDict.ext (List.filter_eq_self.mpr fun e he => ?_)
      have hp : e.2.toVectorPoint ∈ (QdrantVectorStore.client d).points :=
        List.mem_map_of_mem (List.mem_map_of_mem he)
      simpa using h _ hp
    simp [withoutKey, hall]

lemma withoutKey_withoutKey (v : QdrantVectorStore ρ) (c : String) :
    (v.withoutKey c).withoutKey c = v.withoutKey c :=
  withoutKey_of_nil (pointsOf_withoutKey_self v c)

/-! ## Insertion -/

lemma belongsTo_iff {key : String} {p : VectorPoint ρ} (hp : Normal p.upsertKey) :
    belongsTo key p = true ↔ p.upsertKey = normalizeUpsertKey key := by
  have hprefixed : p.upsertKey ≠ "kv:" ++ normalizeUpsertKey key :=
    ne_prefixed_of_normal hp (strip_normalizeUpsertKey key)
  unfold belongsTo
  rw [hp]
  simp only [Bool.or_eq_true, decide_eq_true_eq, Bool.and_eq_true]
  constructor
  · rintro ((h | h | h) | ⟨-, h⟩)
    · exact h
    · exact absurd h hprefixed
    · rw [← h]
      exact hp.symm
    · exact h
  · exact fun h => Or.inl (Or.inl h)

/-- In a well-placed collection no point is left under the checksum of a key. -/
lemma dropLegacyPointId_eq {d : PyDict ℕ (ClientPoint ρ)} (h : WellPlaced ids (.client d))
    {key : String} (hkey : normalizeUpsertKey key = c) :
    dropLegacyPointId ids d key (ids.digest c) = d := by
  unfold dropLegacyPointId
  split_ifs with hid
  · rfl
  · split
    · next p hp =>
      split_ifs with hown
      · obtain ⟨hplace, hnormal, -⟩ := h _ p hp
        have hc : p.upsertKey = c := by
          rw [← hkey, ← hown]
          exact hnormal.symm
        exact absurd (hc ▸ hplace) hid
      · rfl
    · rfl

lemma insertSync_client {d : PyDict ℕ (ClientPoint ρ)} (h : WellPlaced ids (.client d))
    {key : String} (hkey : Canonical key) (text : String) (record : ρ) :
    insertSync ids (.client d) key text record =
      .client (d.set (ids.digest (normalizeUpsertKey key))
        ⟨⟨normalizeUpsertKey key, text, record⟩,
          if key = "" then none else some (normalizeUpsertKey key)⟩) := by
  have hid : pointIdForKey ids (normalizeUpsertKey key) = ids.digest (normalizeUpsertKey key) :=
    congrArg ids.digest hkey
  simp only [insertSync, hid, dropLegacyPointId_eq h rfl, dropLegacyPointId_eq h hkey]

lemma map_upsertKey_set {ps : List (VectorPoint ρ)} {i : ℕ} {k : String}
    (h : ∀ hi : i < ps.length, ps[i].upsertKey = k) {q : VectorPoint ρ} (hq : q.upsertKey = k) :
    (ps.set i q).map VectorPoint.upsertKey = ps.map VectorPoint.upsertKey := by
  refine List.ext_getElem (by simp) fun j hj hj' => ?_
  rw [List.getElem_map, List.getElem_map, List.getElem_set]
  split_ifs with hij
  · subst hij
    rw [hq, h]
  · rfl

/-- An insertion in memory takes the place of the point of the key, or stands at the end. -/
lemma insert_cases {ps : List (VectorPoint ρ)} (hps : ∀ p ∈ ps, Normal p.upsertKey)
    (key text : String) (record : ρ) :
    (∃ i, (∀ hi : i < ps.length, ps[i].upsertKey = normalizeUpsertKey key) ∧
      VectorStore.insert ps key text record =
        ps.set i ⟨normalizeUpsertKey key, text, record⟩) ∨
    ((∀ p ∈ ps, p.upsertKey ≠ normalizeUpsertKey key) ∧
      VectorStore.insert ps key text record = ps ++ [⟨normalizeUpsertKey key, text, record⟩]) := by
  unfold VectorStore.insert
  dsimp only
  cases hfound : ps.findIdx? (belongsTo key) with
  | none =>
    right
    refine ⟨fun p hp hown => ?_, rfl⟩
    have hnone := List.findIdx?_eq_none_iff.mp hfound p hp
    rw [(belongsTo_iff (hps p hp)).mpr hown] at hnone
    exact absurd hnone (by simp)
  | some i =>
    left
    obtain ⟨hi, hbelongs, -⟩ := List.findIdx?_eq_some_iff_getElem.mp hfound
    exact ⟨i, fun _ => (belongsTo_iff (hps _ (List.getElem_mem hi))).mp hbelongs, rfl⟩

lemma wellPlaced_insertSync (h : WellPlaced ids v) {key : String} (hkey : Canonical key)
    (text : String) (record : ρ) : WellPlaced ids (v.insertSync ids key text record) := by
  have hnormal : Normal (normalizeUpsertKey key) := hkey
  cases v with
  | inMemory ps =>
    have hnew (p : VectorPoint ρ) (hp : p = ⟨normalizeUpsertKey key, text, record⟩) :
        Normal p.upsertKey := by
      have hown : p.upsertKey = normalizeUpsertKey key := by rw [hp]
      rw [hown]
      exact hnormal
    obtain ⟨i, hown, hset⟩ | ⟨hnone, happend⟩ := insert_cases h.1 key text record
    · refine ⟨fun p hp => ?_, ?_⟩
      · rw [hset] at hp
        exact (List.mem_or_eq_of_mem_set hp).elim (h.1 p) (hnew p)
      · rw [hset, map_upsertKey_set hown (by simp only)]
        exact h.2
    · refine ⟨fun p hp => ?_, ?_⟩
      · rw [happend] at hp
        exact (List.mem_append.mp hp).elim (h.1 p) fun hp => hnew p (List.mem_singleton.mp hp)
      · rw [happend, List.map_append, List.nodup_append]
        refine ⟨h.2, List.nodup_singleton _, fun a ha b hb => ?_⟩
        obtain ⟨p, hp, rfl⟩ := List.mem_map.mp ha
        rw [List.mem_singleton.mp hb]
        dsimp only
        exact hnone p hp
  | client d =>
    rw [insertSync_client h hkey]
    generalize normalizeUpsertKey key = c at hnormal ⊢
    intro i p hp
    rw [PyDict.get?_set] at hp
    by_cases hid : ids.digest c = i
    · rw [if_pos hid] at hp
      rw [← Option.some.inj hp]
      refine ⟨hid.symm, hnormal, fun k hk => ?_⟩
      dsimp only at hk
      split at hk
      · exact absurd hk (by simp)
      · exact (Option.some.inj hk).symm
    · rw [if_neg hid] at hp
      exact h i p hp

/-- An insertion leaves the points of the other normal keys as they are. -/
lemma pointsOf_insertSync_of_ne (hinj : Function.Injective ids.digest) (h : WellPlaced ids v)
    {key : String} (hkey : Canonical key) (text : String) (record : ρ)
    (hc : normalizeUpsertKey key ≠ c) :
    (v.insertSync ids key text record).pointsOf c = v.pointsOf c := by
  cases v with
  | inMemory ps =>
    obtain ⟨i, hown, hset⟩ | ⟨-, happend⟩ := insert_cases h.1 key text record
    · show (VectorStore.insert ps key text record).filter _ = ps.filter _
      rw [hset]
      exact VectorStore.filter_set_of_not (by simpa using hc) fun hi => by simpa [hown hi] using hc
    · show (VectorStore.insert ps key text record).filter _ = ps.filter _
      rw [happend, List.filter_append]
      simp [hc]
  | client d =>
    rw [insertSync_client h hkey]
    generalize normalizeUpsertKey key = k at hc ⊢
    have hvalues := @PyDict.filter_values_set _ _ _ d (ids.digest k)
      ⟨⟨k, text, record⟩, if key = "" then none else some k⟩
      (fun p => decide (p.upsertKey = c)) (by simpa using hc) fun w hw => by
        have hplace := (h _ w hw).1
        rw [← hinj hplace]
        simpa using hc
    simp only [pointsOf, points, List.filter_map, Function.comp_def]
    rw [hvalues]

/-! ## Deletion under a key -/

/-- The points of the key are gone; where no point is reported, there was none. -/
def Deletes (v : QdrantVectorStore ρ) (c : String) (r : QdrantVectorStore ρ × ℕ) : Prop :=
  r.1 = v.withoutKey c ∧ (r.2 = 0 → v.pointsOf c = [])

def Spares (v : QdrantVectorStore ρ) (r : QdrantVectorStore ρ × ℕ) : Prop := r.1 = v ∧ r.2 = 0

lemma matchesUpsertKey_iff {p : ClientPoint ρ} (hp : Normal p.upsertKey)
    (hkv : ∀ k, p.kvKey = some k → k = p.upsertKey) {u : String}
    (hu : normalizeUpsertKey u = c) (hc : c = "" → u = "") (hnormal : Normal c) :
    matchesUpsertKey u p = decide (p.upsertKey = c) := by
  have hprefixed : p.upsertKey ≠ "kv:" ++ c := by
    have hstrip : PyString.strip c = c := by
      rw [← hnormal]
      exact strip_normalizeUpsertKey c
    exact ne_prefixed_of_normal hp hstrip
  have hiff : (p.upsertKey = c ∨ p.upsertKey = "kv:" ++ c ∨ p.kvKey = some c) ↔
      p.upsertKey = c := by
    constructor
    · rintro (h | h | h)
      · exact h
      · exact absurd h hprefixed
      · exact (hkv c h).symm
    · exact Or.inl
  unfold matchesUpsertKey
  dsimp only
  rw [hu]
  by_cases hempty : c = ""
  · rw [if_pos hempty, hc hempty, hempty]
  · rw [if_neg hempty]
    exact decide_eq_decide.mpr hiff

lemma countP_values {d : PyDict ℕ (ClientPoint ρ)} (h : WellPlaced ids (.client d)) {u : String}
    (hu : normalizeUpsertKey u = c) (hc : c = "" → u = "") (hnormal : Normal c) :
    d.values.countP (matchesUpsertKey u) = ((QdrantVectorStore.client d).pointsOf c).length := by
  have hvalues : d.values.countP (matchesUpsertKey u) =
      d.values.countP fun p => decide (p.upsertKey = c) := by
    refine List.countP_congr fun p hp => ?_
    obtain ⟨i, hi⟩ := PyDict.mem_values_iff.mp hp
    rw [matchesUpsertKey_iff (h i p hi).2.1 (h i p hi).2.2 hu hc hnormal]
  rw [hvalues]
  simp [pointsOf, points, List.countP_eq_length_filter, List.filter_map, Function.comp_def]

/-- Where no filter finds a point, none is under the identifiers of the key. -/
lemma probeIds_of_nil {d : PyDict ℕ (ClientPoint ρ)} (hinj : Function.Injective ids.digest)
    (h : WellPlaced ids (.client d)) {key : String}
    (hkey : normalizeUpsertKey (normalizeUpsertKey key) = c)
    (hnone : (QdrantVectorStore.client d).pointsOf c = []) :
    (probeIds ids key).filter (fun i => d.contains i) = [] := by
  rw [List.filter_eq_nil_iff]
  intro i hi hcontains
  obtain ⟨p, hp⟩ := Option.isSome_iff_exists.mp hcontains
  obtain ⟨hplace, hnormal, -⟩ := h i p hp
  have hids : i = ids.digest c ∨ i = ids.digest (normalizeUpsertKey key) := by
    simp only [probeIds, List.mem_dedup, List.mem_cons, List.not_mem_nil, or_false, pointIdForKey,
      normalizeUpsertKey_prefixed, strip_normalizeUpsertKey, hkey] at hi
    obtain hi | hi | hi := hi
    · exact Or.inl hi
    · exact Or.inr hi
    · exact Or.inr hi
  have hown : p.upsertKey = c := by
    obtain hi | hi := hids
    · exact hinj (hplace.symm.trans hi)
    · have hcanon : p.upsertKey = normalizeUpsertKey key := hinj (hplace.symm.trans hi)
      rw [← hkey, ← hcanon]
      exact hnormal.symm
  have hmem : p.toVectorPoint ∈ (QdrantVectorStore.client d).points :=
    List.mem_map_of_mem (PyDict.mem_values_iff.mpr ⟨i, hp⟩)
  exact pointsOf_eq_nil_iff.mp hnone _ hmem hown

lemma countByUpsertKey_eq {d : PyDict ℕ (ClientPoint ρ)} (h : WellPlaced ids (.client d))
    {key : String} (hkey : normalizeUpsertKey key = c) (hnormal : Normal c) :
    countByUpsertKey d key = min 1000 ((QdrantVectorStore.client d).pointsOf c).length := by
  unfold countByUpsertKey
  rw [hkey, countP_values h hnormal id hnormal]

lemma deletes_or_spares_inMemory {ps : List (VectorPoint ρ)} (h : WellPlaced ids (.inMemory ps))
    {key : String} (hkey : normalizeUpsertKey (normalizeUpsertKey key) = c) (hne : key ≠ "") :
    Deletes (.inMemory ps) c ((QdrantVectorStore.inMemory ps).deleteByUpsertKeySync ids key) ∨
      (normalizeUpsertKey key ≠ c ∧ Spares (.inMemory ps)
        ((QdrantVectorStore.inMemory ps).deleteByUpsertKeySync ids key)) := by
  have hbelongs (p : VectorPoint ρ) (hp : p ∈ ps) :
      belongsTo key p = decide (p.upsertKey = normalizeUpsertKey key) := by
    rw [Bool.eq_iff_iff, belongsTo_iff (h.1 p hp), decide_eq_true_eq]
  have hleft : VectorStore.deleteByUpsertKey ps key =
      ps.filter fun p => !decide (p.upsertKey = normalizeUpsertKey key) := by
    unfold VectorStore.deleteByUpsertKey
    rw [if_neg hne]
    exact List.filter_congr fun p hp => by rw [hbelongs p hp]
  have hcount : ps.countP (belongsTo key) =
      ps.countP fun p => decide (p.upsertKey = normalizeUpsertKey key) :=
    List.countP_congr fun p hp => by rw [hbelongs p hp]
  unfold deleteByUpsertKeySync
  rw [if_neg hne]
  dsimp only
  rw [hleft, hcount]
  by_cases hown : normalizeUpsertKey key = c
  · left
    rw [hown]
    refine ⟨rfl, fun hzero => ?_⟩
    rw [List.countP_eq_length_filter, List.length_eq_zero_iff] at hzero
    exact hzero
  · right
    have hnone (p : VectorPoint ρ) (hp : p ∈ ps) : p.upsertKey ≠ normalizeUpsertKey key := by
      intro heq
      apply hown
      rw [← hkey, ← heq]
      exact (h.1 p hp).symm
    refine ⟨hown, congrArg _ (List.filter_eq_self.mpr fun p hp => by simpa using hnone p hp), ?_⟩
    exact List.countP_eq_zero.mpr fun p hp => by simpa using hnone p hp

/-- The filter of a key finds the points of its normal form. -/
lemma filter_matchesUpsertKey {d : PyDict ℕ (ClientPoint ρ)} (h : WellPlaced ids (.client d))
    {u : String} (hu : normalizeUpsertKey u = c) (hc : c = "" → u = "") (hnormal : Normal c) :
    QdrantVectorStore.client (d.filter fun _ p => !matchesUpsertKey u p) =
      (QdrantVectorStore.client d).withoutKey c := by
  refine congrArg QdrantVectorStore.client (PyDict.ext (List.filter_congr fun e he => ?_))
  obtain ⟨-, hp, hkv⟩ := h e.1 e.2 (PyDict.mem_entries_iff.mp he)
  exact congrArg not (matchesUpsertKey_iff hp hkv hu hc hnormal)

/-- A filter without a normal form asks for the very key, which no normal key is. -/
lemma filter_matchesUpsertKey_of_empty {d : PyDict ℕ (ClientPoint ρ)}
    (h : WellPlaced ids (.client d)) {u : String} (hu : normalizeUpsertKey u = "") (hne : u ≠ "") :
    (d.filter fun _ p => !matchesUpsertKey u p) = d := by
  refine PyDict.ext (List.filter_eq_self.mpr fun e he => ?_)
  obtain ⟨-, hp, -⟩ := h e.1 e.2 (PyDict.mem_entries_iff.mp he)
  have hother : e.2.upsertKey ≠ u := by
    intro heq
    rw [VectorStore.Normal, heq, hu] at hp
    exact hne hp.symm
  simp [matchesUpsertKey, hu, hother]

lemma deletes_or_spares_client (hinj : Function.Injective ids.digest) {d : PyDict ℕ (ClientPoint ρ)}
    (h : WellPlaced ids (.client d)) {key : String}
    (hkey : normalizeUpsertKey (normalizeUpsertKey key) = c) (hnormal : Normal c) (hne : key ≠ "") :
    Deletes (.client d) c ((QdrantVectorStore.client d).deleteByUpsertKeySync ids key) ∨
      (normalizeUpsertKey key ≠ c ∧ Spares (.client d)
        ((QdrantVectorStore.client d).deleteByUpsertKeySync ids key)) := by
  have hbefore := countByUpsertKey_eq h hkey hnormal
  unfold deleteByUpsertKeySync
  rw [if_neg hne]
  dsimp only
  by_cases hzero : countByUpsertKey d (normalizeUpsertKey key) = 0
  · rw [if_pos hzero]
    have hnone : (QdrantVectorStore.client d).pointsOf c = [] := by
      rw [hbefore] at hzero
      exact List.length_eq_zero_iff.mp (by omega)
    rw [probeIds_of_nil hinj h hkey hnone]
    exact Or.inl ⟨(withoutKey_of_nil hnone).symm, fun _ => hnone⟩
  · rw [if_neg hzero]
    by_cases hcase : c = "" → normalizeUpsertKey key = ""
    · left
      have hleft := filter_matchesUpsertKey h hkey hcase hnormal
      refine ⟨hleft, fun hcount => ?_⟩
      have hplaced : WellPlaced ids (.client (d.filter fun _ p =>
          !matchesUpsertKey (normalizeUpsertKey key) p)) := by
        rw [hleft]
        exact wellPlaced_withoutKey h c
      have hafter := countByUpsertKey_eq hplaced hkey hnormal
      rw [hleft, pointsOf_withoutKey_self] at hafter
      dsimp only at hcount
      rw [hafter] at hcount
      simp only [List.length_nil] at hcount
      omega
    · right
      push Not at hcase
      obtain ⟨rfl, hother⟩ := hcase
      rw [filter_matchesUpsertKey_of_empty h hkey hother]
      exact ⟨hother, rfl, Nat.sub_self _⟩

/-- The deletion under a key whose normal form leads to `c`. -/
lemma deletes_or_spares (hinj : Function.Injective ids.digest) (h : WellPlaced ids v)
    {key : String} (hkey : normalizeUpsertKey (normalizeUpsertKey key) = c) (hnormal : Normal c)
    (hne : key ≠ "") : Deletes v c (v.deleteByUpsertKeySync ids key) ∨
      (normalizeUpsertKey key ≠ c ∧ Spares v (v.deleteByUpsertKeySync ids key)) := by
  cases v with
  | inMemory ps => exact deletes_or_spares_inMemory h hkey hne
  | client d => exact deletes_or_spares_client hinj h hkey hnormal hne

/-! ## The deletion of a record -/

/-- The keys under which the points of a record are deleted lead to its normal key. -/
lemma normalizeUpsertKey_of_mem_keysToDelete {key key' : String} (hkey : Canonical key)
    (h : key' ∈ MemoryController.keysToDelete key) :
    normalizeUpsertKey (normalizeUpsertKey key') = normalizeUpsertKey key := by
  unfold MemoryController.keysToDelete at h
  split_ifs at h with hprefix
  · obtain rfl | h := List.mem_cons.mp h
    · exact hkey
    · obtain ⟨tail, htail⟩ := List.isPrefixOf_iff_prefix.mp hprefix
      have hkv : key = "kv:" ++ String.ofList tail := by
        apply String.toList_inj.mp
        simpa using htail.symm
      have htail' : key' = String.ofList tail := by
        rw [List.mem_singleton.mp h, ← htail]
        rfl
      have hnormal : normalizeUpsertKey key = PyString.strip key' := by
        rw [hkv, normalizeUpsertKey_prefixed, htail']
      have hsame : normalizeUpsertKey key' = normalizeUpsertKey (normalizeUpsertKey key) := by
        rw [hnormal, normalizeUpsertKey_strip]
      rw [hsame, hkey, hkey]
  · obtain rfl | h := List.mem_cons.mp h
    · rw [normalizeUpsertKey_prefixed, normalizeUpsertKey_strip]
    · rw [List.mem_singleton.mp h]
      exact hkey

/-- The deletions under keys that lead to `c`, with the number of points so far. -/
lemma foldl_deletes (hinj : Function.Injective ids.digest) (hnormal : Normal c) {keys : List String}
    (hkeys : ∀ k ∈ keys, normalizeUpsertKey (normalizeUpsertKey k) = c) (h : WellPlaced ids v)
    (n : ℕ) :
    let r := keys.foldl (fun acc k =>
      let (v, m) := (backend ids).deleteByUpsertKey acc.1 k
      (v, acc.2 + m)) (v, n)
    n ≤ r.2 ∧ ((r.1 = v.withoutKey c ∧ (r.2 = n → v.pointsOf c = [])) ∨
      (r.1 = v ∧ ∀ k ∈ keys, k ≠ "" → normalizeUpsertKey k ≠ c)) := by
  induction keys generalizing v n with
  | nil => exact ⟨le_rfl, Or.inr ⟨rfl, fun k hk => absurd hk List.not_mem_nil⟩⟩
  | cons k ks ih =>
    have hks := fun k' hk' => hkeys k' (List.mem_cons_of_mem _ hk')
    have hcases : Deletes v c (v.deleteByUpsertKeySync ids k) ∨
        ((k ≠ "" → normalizeUpsertKey k ≠ c) ∧ Spares v (v.deleteByUpsertKeySync ids k)) := by
      by_cases hne : k = ""
      · right
        refine ⟨fun h => absurd hne h, ?_⟩
        unfold deleteByUpsertKeySync
        rw [if_pos hne]
        exact ⟨rfl, rfl⟩
      · obtain hdeletes | ⟨hother, hspares⟩ :=
          deletes_or_spares hinj h (hkeys k List.mem_cons_self) hnormal hne
        · exact Or.inl hdeletes
        · exact Or.inr ⟨fun _ => hother, hspares⟩
    rcases hdel : v.deleteByUpsertKeySync ids k with ⟨v₁, m⟩
    simp only [List.foldl_cons, backend, hdel] at hcases ⊢
    obtain ⟨hgone, hnone⟩ | ⟨hother, hsame, hzero⟩ := hcases
    · dsimp only at hgone hnone
      subst hgone
      obtain ⟨hle, hcase⟩ := ih hks (wellPlaced_withoutKey h c) (n + m)
      refine ⟨le_trans (Nat.le_add_right _ _) hle, Or.inl ⟨?_, fun hcount => hnone ?_⟩⟩
      · obtain ⟨hr, -⟩ | ⟨hr, -⟩ := hcase
        · exact hr.trans (withoutKey_withoutKey v c)
        · exact hr
      · have hsum : n + m ≤ n := le_of_le_of_eq hle hcount
        omega
    · dsimp only at hsame hzero
      subst hsame hzero
      obtain ⟨hle, hcase⟩ := ih hks h (n + 0)
      refine ⟨hle, ?_⟩
      obtain hcase | ⟨hr, hothers⟩ := hcase
      · exact Or.inl hcase
      · refine Or.inr ⟨hr, fun k' hk' hne => ?_⟩
        obtain rfl | hk' := List.mem_cons.mp hk'
        · exact hother hne
        · exact hothers k' hk' hne

/-- The deletion under the keys of a record takes the points of its normal key. -/
lemma deletes_deleteKvVector (hinj : Function.Injective ids.digest) (h : WellPlaced ids v)
    {key : String} (hkey : Canonical key) (hne : key ≠ "") :
    Deletes v (normalizeUpsertKey key) (MemoryController.deleteKvVector (backend ids) v key) := by
  obtain ⟨-, hgone | ⟨-, hother⟩⟩ := foldl_deletes hinj hkey
    (fun k hk => normalizeUpsertKey_of_mem_keysToDelete hkey hk) h 0
  · exact hgone
  · have hmem : key ∈ MemoryController.keysToDelete key := by
      unfold MemoryController.keysToDelete
      split_ifs <;> simp
    exact absurd rfl (hother key hmem hne)

end QdrantVectorStore

end AtlasMemory
