import AtlasMemory.L2Semantic.QdrantStore
import Mathlib.Data.List.Infix

/-!
# Sweeps over a collection

The model of the paged scan of `QdrantVectorStore`, which gives up after ten thousand pages, and of
the deletion of all points whose key starts with a prefix.

The deletion refuses the prefixes that reach into the namespaces of the canonical keys.  It looks
at the prefix alone, so a prefix that stops short of such a namespace is not refused, although the
keys of the namespace start with it.
-/

namespace AtlasMemory

/-! ## The scan -/

section Scan

variable {π : Type}

/-- `_PREFIX_SCAN_PAGE_SIZE`. -/
def prefixScanPageSize : ℕ := 256

/-- `_POINT_ID_SAFETY_PAGES`. -/
def pointIdSafetyPages : ℕ := 10000

/-- The exception of a scan that is too long. -/
def scanTooLong (collectionName : String) : PyError :=
  ⟨.runtimeError, "Skan kolekcji " ++ collectionName ++
    " przekroczył bezpiecznik 10000 stron x 256 punktów. " ++
    "Podnieś bezpiecznik albo filtruj po indeksowanym polu — ciche " ++
    "obcięcie skanu jest defektem, nie optymalizacją (V90/BUG-Q3)."⟩

/-- The loop of `_scroll_all_matching_ids` after some pages, over the points that are left. -/
def scrollFrom (collectionName : String) (predicate : ℕ × π → Bool) (pages : ℕ)
    (rest : List (ℕ × π)) (ids : List ℕ) : Except PyError (List ℕ) :=
  let points := rest.take prefixScanPageSize
  let offset := rest.drop prefixScanPageSize
  let ids := ids ++ (points.filter predicate).map Prod.fst
  if points.isEmpty || offset.isEmpty then .ok ids
  else if pointIdSafetyPages ≤ pages + 1 then .error (scanTooLong collectionName)
  else scrollFrom collectionName predicate (pages + 1) offset ids
  termination_by rest.length
  decreasing_by
    rename_i hempty _
    have hrest : 0 < rest.length := by
      refine List.length_pos_iff.mpr fun hnil => hempty ?_
      show ((rest.take prefixScanPageSize).isEmpty || _) = true
      rw [hnil]
      rfl
    show (rest.drop prefixScanPageSize).length < rest.length
    rw [List.length_drop, prefixScanPageSize]
    omega

/-- `_scroll_all_matching_ids`. -/
def scrollAllMatchingIds (collectionName : String) (predicate : ℕ × π → Bool) (d : PyDict ℕ π) :
    Except PyError (List ℕ) :=
  scrollFrom collectionName predicate 0 d.entries []

def scanLimit : ℕ := prefixScanPageSize * pointIdSafetyPages

lemma scrollFrom_eq (collectionName : String) (predicate : ℕ × π → Bool) {pages : ℕ}
    (hpages : pages < pointIdSafetyPages) (rest : List (ℕ × π)) (ids : List ℕ) :
    scrollFrom collectionName predicate pages rest ids =
      if rest.length ≤ prefixScanPageSize * (pointIdSafetyPages - pages) then
        .ok (ids ++ (rest.filter predicate).map Prod.fst)
      else .error (scanTooLong collectionName) := by
  induction hn : rest.length using Nat.strong_induction_on generalizing pages rest ids with
  | _ n ih =>
    rw [scrollFrom]
    by_cases hlast : rest.length ≤ prefixScanPageSize
    · -- The last page.
      have hdone : ((rest.take prefixScanPageSize).isEmpty ||
          (rest.drop prefixScanPageSize).isEmpty) = true := by
        rw [List.drop_eq_nil_of_le hlast]
        exact Bool.or_true _
      have hfits : n ≤ prefixScanPageSize * (pointIdSafetyPages - pages) := by
        rw [← hn]
        refine hlast.trans (Nat.le_mul_of_pos_right _ ?_)
        omega
      rw [if_pos hdone, if_pos hfits, List.take_of_length_le hlast]
    · have hmore : ¬ ((rest.take prefixScanPageSize).isEmpty ||
          (rest.drop prefixScanPageSize).isEmpty) = true := by
        rw [Bool.or_eq_true, List.isEmpty_iff, List.isEmpty_iff, List.take_eq_nil_iff,
          List.drop_eq_nil_iff]
        rintro ((hzero | hnil) | hle)
        · exact absurd hzero (by decide)
        · rw [hnil] at hlast
          exact hlast (Nat.zero_le _)
        · exact hlast hle
      have hlength : (rest.drop prefixScanPageSize).length = n - prefixScanPageSize := by
        rw [List.length_drop, hn]
      rw [hn] at hlast
      have hpage : 0 < prefixScanPageSize := by decide
      rw [if_neg hmore]
      by_cases hguard : pointIdSafetyPages ≤ pages + 1
      · have hone : pointIdSafetyPages - pages = 1 := by omega
        rw [if_pos hguard, hone, Nat.mul_one, if_neg hlast]
      · have hnext : pages + 1 < pointIdSafetyPages := by omega
        have hsplit : pointIdSafetyPages - pages = pointIdSafetyPages - (pages + 1) + 1 := by
          omega
        have hsame : n - prefixScanPageSize ≤
              prefixScanPageSize * (pointIdSafetyPages - (pages + 1)) ↔
            n ≤ prefixScanPageSize * (pointIdSafetyPages - pages) := by
          rw [hsplit, Nat.mul_add, Nat.mul_one]
          omega
        rw [if_neg hguard, ih _ (by omega) hnext _ _ hlength]
        simp only [hsame]
        rw [List.append_assoc, ← List.map_append, ← List.filter_append,
          List.take_append_drop]

/-- **The scan**: all matching points, or an exception where there are too many points. -/
lemma scrollAllMatchingIds_eq (collectionName : String) (predicate : ℕ × π → Bool)
    (d : PyDict ℕ π) :
    scrollAllMatchingIds collectionName predicate d =
      if d.size ≤ scanLimit then .ok ((d.entries.filter predicate).map Prod.fst)
      else .error (scanTooLong collectionName) := by
  have hpages : 0 < pointIdSafetyPages := by decide
  exact scrollFrom_eq collectionName predicate hpages d.entries []

end Scan

/-! ## The deletion by a prefix -/

namespace QdrantVectorStore

variable {ρ : Type}

/-- The prefixes that reach into the namespaces of the canonical keys. -/
def reachesProtected (pref : String) : Bool :=
  PyString.startsWith pref "hermes:" || PyString.startsWith pref "kv:hermes:"

/-- The key of the point starts with the prefix. -/
def keyStartsWith (pref : String) (p : VectorPoint ρ) : Bool :=
  PyString.startsWith p.upsertKey pref

/-- `delete_by_upsert_key_prefix_sync`. -/
def deleteByUpsertKeyPrefixSync (collectionName : String) (v : QdrantVectorStore ρ)
    (pref : String) : QdrantVectorStore ρ × Except PyError ℕ :=
  if pref = "" then (v, .ok 0)
  else if reachesProtected pref then
    (v, .error ⟨.valueError, "Prefix matching hermes:* is protected from deletion: " ++ pref⟩)
  else if (PyString.strip pref).length < 5 then
    (v, .error ⟨.valueError, "Prefix too short for deletion: " ++ pref⟩)
  else
    match v with
    | .inMemory ps =>
      let kept := ps.filter fun p => !keyStartsWith pref p
      let removed := ps.countP (keyStartsWith pref)
      (if removed = 0 then .inMemory ps else .inMemory kept, .ok removed)
    | .client d =>
      match scrollAllMatchingIds collectionName (fun e => keyStartsWith pref e.2.toVectorPoint)
          d with
      | .error err => (.client d, .error err)
      | .ok [] => (.client d, .ok 0)
      | .ok matchingIds =>
        (.client (d.filter fun i _ => decide (i ∉ matchingIds)), .ok matchingIds.length)

/-- The store without the points whose keys start with a prefix. -/
def withoutPrefix (v : QdrantVectorStore ρ) (pref : String) : QdrantVectorStore ρ :=
  match v with
  | .inMemory ps => .inMemory (ps.filter fun p => !keyStartsWith pref p)
  | .client d => .client (d.filter fun _ p => !keyStartsWith pref p.toVectorPoint)

/-- A canonical key: one of the protected namespaces. -/
def IsCanonicalKey (key : String) : Prop :=
  PyString.startsWith key "hermes:" = true ∨ PyString.startsWith key "kv:hermes:" = true

instance (key : String) : Decidable (IsCanonicalKey key) := inferInstanceAs (Decidable (_ ∨ _))

/-- The deletion raises and leaves the store as it is, or it removes exactly the points whose keys
start with the prefix, and none of them has a canonical key. -/
def SparesCanonicalKeys (v : QdrantVectorStore ρ) (pref : String)
    (outcome : QdrantVectorStore ρ × Except PyError ℕ) : Prop :=
  (outcome.1 = v ∧ ∃ err, outcome.2 = .error err) ∨
    (outcome.1 = v.withoutPrefix pref ∧
      outcome.2 = .ok (v.points.countP (keyStartsWith pref)) ∧
      ∀ p ∈ v.points, keyStartsWith pref p = true → ¬ IsCanonicalKey p.upsertKey)

/-- The prefixes that stop short of a protected namespace and are not refused. -/
def cutShortPrefixes : List String :=
  ["herme", "hermes", "kv:he", "kv:her", "kv:herm", "kv:herme", "kv:hermes"]

def IsRefused (pref : String) : Prop :=
  reachesProtected pref = true ∨ (PyString.strip pref).length < 5

instance (pref : String) : Decidable (IsRefused pref) := inferInstanceAs (Decidable (_ ∨ _))

/-- The scan reads the whole store. -/
def IsScannable : QdrantVectorStore ρ → Prop
  | .inMemory _ => True
  | .client d => d.size ≤ scanLimit

/-! ### Prefixes of canonical keys -/

lemma startsWith_iff {s pre : String} :
    PyString.startsWith s pre = true ↔ pre.toList <+: s.toList :=
  List.isPrefixOf_iff_prefix

/-- A prefix of a canonical key that is accepted stops short of the namespace. -/
lemma mem_cutShortPrefixes {key pref : String} (hkey : IsCanonicalKey key)
    (hpref : PyString.startsWith key pref = true) (haccepted : ¬ IsRefused pref) :
    pref ∈ cutShortPrefixes := by
  have hshort : ∀ space ∈ ["hermes:", "kv:hermes:"], ∀ cs ∈ space.toList.inits,
      ¬ IsRefused (String.ofList cs) → String.ofList cs ∈ cutShortPrefixes := by
    decide +kernel
  have hcut : ∀ space ∈ ["hermes:", "kv:hermes:"], PyString.startsWith key space = true →
      pref ∈ cutShortPrefixes := by
    intro space hspace hstarts
    rw [startsWith_iff] at hpref hstarts
    rcases List.prefix_or_prefix_of_prefix hpref hstarts with hle | hge
    · have hmem := hshort space hspace pref.toList ((List.mem_inits _ _).mpr hle)
      rw [String.ofList_toList] at hmem
      exact hmem haccepted
    · refine absurd (Or.inl ?_) haccepted
      rw [reachesProtected, Bool.or_eq_true, startsWith_iff, startsWith_iff]
      rcases List.mem_pair.mp hspace with rfl | rfl
      · exact Or.inl hge
      · exact Or.inr hge
  rcases hkey with hkey | hkey
  · exact hcut "hermes:" List.mem_cons_self hkey
  · exact hcut "kv:hermes:" (List.mem_cons_of_mem _ List.mem_cons_self) hkey

/-! ### What is removed -/

variable {v : QdrantVectorStore ρ} {pref : String}

lemma deleteByUpsertKeyPrefixSync_of_refused (collectionName : String) (hpref : pref ≠ "")
    (h : IsRefused pref) :
    ∃ err, deleteByUpsertKeyPrefixSync collectionName v pref = (v, .error err) := by
  unfold deleteByUpsertKeyPrefixSync
  rw [if_neg hpref]
  by_cases hreach : reachesProtected pref = true
  · rw [if_pos hreach]
    exact ⟨_, rfl⟩
  · rw [if_neg hreach, if_pos (h.resolve_left hreach)]
    exact ⟨_, rfl⟩

lemma deleteByUpsertKeyPrefixSync_of_long (collectionName : String) (hpref : pref ≠ "")
    (haccepted : ¬ IsRefused pref) (h : ¬ v.IsScannable) :
    ∃ err, deleteByUpsertKeyPrefixSync collectionName v pref = (v, .error err) := by
  rw [IsRefused, not_or] at haccepted
  unfold deleteByUpsertKeyPrefixSync
  rw [if_neg hpref, if_neg haccepted.1, if_neg haccepted.2]
  cases v with
  | inMemory ps => exact absurd trivial h
  | client d =>
    have hlong : ¬ d.size ≤ scanLimit := h
    dsimp only
    rw [scrollAllMatchingIds_eq, if_neg hlong]
    exact ⟨_, rfl⟩

/-- An accepted prefix removes exactly the points whose keys start with it. -/
lemma deleteByUpsertKeyPrefixSync_of_accepted (collectionName : String) (hpref : pref ≠ "")
    (haccepted : ¬ IsRefused pref) (h : v.IsScannable) :
    deleteByUpsertKeyPrefixSync collectionName v pref =
      (v.withoutPrefix pref, .ok (v.points.countP (keyStartsWith pref))) := by
  rw [IsRefused, not_or] at haccepted
  unfold deleteByUpsertKeyPrefixSync
  rw [if_neg hpref, if_neg haccepted.1, if_neg haccepted.2]
  cases v with
  | inMemory ps =>
    by_cases hnone : ps.countP (keyStartsWith pref) = 0
    · have hkept : ps.filter (fun p => !keyStartsWith pref p) = ps := by
        refine List.filter_eq_self.mpr fun p hp => ?_
        have hnot := List.countP_eq_zero.mp hnone p hp
        rw [Bool.not_eq_true] at hnot
        rw [hnot]
        rfl
      dsimp only [withoutPrefix, points]
      rw [if_pos hnone, hkept]
    · dsimp only [withoutPrefix, points]
      rw [if_neg hnone]
  | client d =>
    have hcount : ((d.entries.filter fun e => keyStartsWith pref e.2.toVectorPoint).map
        Prod.fst).length = (points (.client d)).countP (keyStartsWith pref) := by
      rw [List.length_map, ← List.countP_eq_length_filter, points, PyDict.values, List.map_map,
        List.countP_map]
      rfl
    have hmem : ∀ e ∈ d.entries,
        e.1 ∈ (d.entries.filter fun e => keyStartsWith pref e.2.toVectorPoint).map Prod.fst ↔
          keyStartsWith pref e.2.toVectorPoint = true := by
      intro e he
      rw [List.mem_map]
      constructor
      · rintro ⟨e', he', heq⟩
        obtain ⟨he', hstarts⟩ := List.mem_filter.mp he'
        have hsame : e' = e := List.inj_on_of_nodup_map d.nodupKeys he' he heq
        exact hsame ▸ hstarts
      · intro hstarts
        exact ⟨e, List.mem_filter.mpr ⟨he, hstarts⟩, rfl⟩
    have hleft : ∀ matching, matching =
          (d.entries.filter fun e => keyStartsWith pref e.2.toVectorPoint).map Prod.fst →
        d.filter (fun i _ => decide (i ∉ matching)) =
          d.filter fun _ p => !keyStartsWith pref p.toVectorPoint := by
      rintro _ rfl
      refine PyDict.ext (List.filter_congr fun e he => ?_)
      dsimp only
      by_cases hstarts : keyStartsWith pref e.2.toVectorPoint = true
      · rw [hstarts, decide_eq_false (not_not.mpr ((hmem e he).mpr hstarts))]
        rfl
      · rw [decide_eq_true (mt (hmem e he).mp hstarts), Bool.eq_false_iff.mpr hstarts]
        rfl
    have hshort : d.size ≤ scanLimit := h
    dsimp only
    rw [scrollAllMatchingIds_eq, if_pos hshort, ← hcount]
    cases hfound : (d.entries.filter fun e => keyStartsWith pref e.2.toVectorPoint).map
        Prod.fst with
    | nil =>
      have hall := hleft [] hfound.symm
      have hself : d.filter (fun i _ => decide (i ∉ ([] : List ℕ))) = d := by
        refine PyDict.ext (List.filter_eq_self.mpr fun e _ => ?_)
        exact decide_eq_true List.not_mem_nil
      rw [hself] at hall
      dsimp only [withoutPrefix]
      rw [← hall]
      rfl
    | cons i rest =>
      dsimp only [withoutPrefix]
      rw [hleft _ hfound.symm]

lemma withoutPrefix_empty_iff : v.withoutPrefix "" = v ↔ v.points = [] := by
  have hall : ∀ p : VectorPoint ρ, keyStartsWith "" p = true := fun p => by rfl
  cases v with
  | inMemory ps =>
    rw [withoutPrefix, QdrantVectorStore.inMemory.injEq, points, List.filter_eq_self]
    simp only [hall, Bool.not_true, Bool.false_eq_true]
    exact List.eq_nil_iff_forall_not_mem.symm
  | client d =>
    rw [withoutPrefix, QdrantVectorStore.client.injEq, PyDict.ext_iff, points, PyDict.values,
      List.map_map, List.map_eq_nil_iff, PyDict.filter, List.filter_eq_self]
    simp only [hall, Bool.not_true, Bool.false_eq_true]
    exact List.eq_nil_iff_forall_not_mem.symm

/-- When the deletion by a prefix does what it says: the empty prefix removes nothing, so there must
be nothing; another one is refused, or meets a collection that is too large to scan, or does not
stop short of a protected namespace of which there is a key. -/
def SparesWhen (v : QdrantVectorStore ρ) (pref : String) : Prop :=
  if pref = "" then v.points = []
  else IsRefused pref ∨ ¬ v.IsScannable ∨ (pref ∈ cutShortPrefixes →
    ∀ p ∈ v.points, keyStartsWith pref p = true → ¬ IsCanonicalKey p.upsertKey)

/-- **The deletion by a prefix** spares the canonical keys exactly in these cases. -/
theorem deleteByUpsertKeyPrefixSync_spares_iff (collectionName : String) (v : QdrantVectorStore ρ)
    (pref : String) :
    SparesCanonicalKeys v pref (deleteByUpsertKeyPrefixSync collectionName v pref) ↔
      SparesWhen v pref := by
  by_cases hpref : pref = ""
  · subst hpref
    have hnothing : deleteByUpsertKeyPrefixSync collectionName v "" = (v, .ok 0) := by
      unfold deleteByUpsertKeyPrefixSync
      rw [if_pos rfl]
    rw [SparesWhen, if_pos rfl, hnothing, SparesCanonicalKeys]
    constructor
    · rintro (⟨-, err, herr⟩ | ⟨hsame, -, -⟩)
      · cases herr
      · exact withoutPrefix_empty_iff.mp hsame.symm
    · intro hnone
      refine Or.inr ⟨(withoutPrefix_empty_iff.mpr hnone).symm, ?_, ?_⟩
      · rw [hnone]
        rfl
      · rw [hnone]
        exact fun p hp => absurd hp List.not_mem_nil
  · rw [SparesWhen, if_neg hpref]
    by_cases hrefused : IsRefused pref
    · obtain ⟨err, herr⟩ :=
        deleteByUpsertKeyPrefixSync_of_refused (v := v) collectionName hpref hrefused
      rw [herr]
      exact iff_of_true (Or.inl ⟨rfl, err, rfl⟩) (Or.inl hrefused)
    by_cases hscan : v.IsScannable
    · rw [deleteByUpsertKeyPrefixSync_of_accepted collectionName hpref hrefused hscan]
      constructor
      · rintro (⟨-, err, herr⟩ | ⟨-, -, hspared⟩)
        · cases herr
        · exact Or.inr (Or.inr fun _ => hspared)
      · intro hcases
        have hspared := (hcases.resolve_left hrefused).resolve_left (not_not.mpr hscan)
        refine Or.inr ⟨rfl, rfl, fun p hp hstarts hkey => ?_⟩
        exact hspared (mem_cutShortPrefixes hkey hstarts hrefused) p hp hstarts hkey
    · obtain ⟨err, herr⟩ := deleteByUpsertKeyPrefixSync_of_long collectionName hpref hrefused hscan
      rw [herr]
      exact iff_of_true (Or.inl ⟨rfl, err, rfl⟩) (Or.inr (Or.inl hscan))

/-- The prefix `hermes` is not refused, and takes a canonical key with it. -/
theorem prefix_hermes_removes_canonical :
    let v : QdrantVectorStore Unit := .inMemory [⟨"hermes:user_md:name", "Ada", ()⟩]
    deleteByUpsertKeyPrefixSync "atlas" v "hermes" = (.inMemory [], .ok 1) ∧
      ¬ SparesCanonicalKeys v "hermes" (deleteByUpsertKeyPrefixSync "atlas" v "hermes") := by
  intro v
  have hdelete : deleteByUpsertKeyPrefixSync "atlas" v "hermes" = (.inMemory [], .ok 1) := by
    rfl
  refine ⟨hdelete, ?_⟩
  rw [hdelete]
  rintro (⟨hsame, -⟩ | ⟨-, -, hspared⟩)
  · have hpoints : ([] : List (VectorPoint Unit)) = [⟨"hermes:user_md:name", "Ada", ()⟩] :=
      congrArg points hsame
    cases hpoints
  · exact hspared _ List.mem_cons_self (by decide +kernel) (by decide +kernel)

end QdrantVectorStore

end AtlasMemory
