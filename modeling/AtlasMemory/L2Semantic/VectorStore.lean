import AtlasMemory.Foundations.PyDict
import AtlasMemory.Foundations.PyText
import Mathlib.Data.Bool.AllAny

/-!
# The vector store

The model of `QdrantVectorStore` without a client: the points with their keys in a list, in which an
insertion under a key takes the place of the point of that key.
-/

namespace AtlasMemory

/-- A point of the vector store that was written under a key. -/
structure VectorPoint (ρ : Type) where
  upsertKey : String
  text : String
  record : ρ
  deriving DecidableEq

namespace VectorStore

/-- `normalize_upsert_key`. -/
def normalizeUpsertKey (key : String) : String :=
  let s := PyString.strip key
  if PyString.startsWith s "kv:" then PyString.strip (String.ofList (s.toList.drop 3)) else s

def belongsTo {ρ : Type} (key : String) (p : VectorPoint ρ) : Bool :=
  let canon := normalizeUpsertKey key
  let own := normalizeUpsertKey p.upsertKey
  decide (p.upsertKey = canon ∨ p.upsertKey = "kv:" ++ canon ∨ p.upsertKey = key) ||
    (decide (own ≠ "") && decide (own = canon))

/-- `insert_sync` under a key: in the place of the point of the key, or at the end. -/
def insert {ρ : Type} (points : List (VectorPoint ρ)) (key text : String) (record : ρ) :
    List (VectorPoint ρ) :=
  let point : VectorPoint ρ := ⟨normalizeUpsertKey key, text, record⟩
  match points.findIdx? (belongsTo key) with
  | some i => points.set i point
  | none => points ++ [point]

/-- `delete_by_upsert_key_sync`. -/
def deleteByUpsertKey {ρ : Type} (points : List (VectorPoint ρ)) (key : String) :
    List (VectorPoint ρ) :=
  if key = "" then points else points.filter fun p => !belongsTo key p

/-! ## Deletion and insertion -/

variable {ρ : Type} {points : List (VectorPoint ρ)}

/-- The points of the keys are deleted in order. -/
def deleteAll (points : List (VectorPoint ρ)) (keys : List String) : List (VectorPoint ρ) :=
  keys.foldl deleteByUpsertKey points

/-- The deletion of the points of these keys leaves the point alone. -/
def survives (keys : List String) (p : VectorPoint ρ) : Bool :=
  keys.all fun k => decide (k = "") || !belongsTo k p

lemma deleteAll_append (points : List (VectorPoint ρ)) (ks ks' : List String) :
    deleteAll points (ks ++ ks') = deleteAll (deleteAll points ks) ks' :=
  List.foldl_append

lemma deleteAll_eq_filter (points : List (VectorPoint ρ)) (keys : List String) :
    deleteAll points keys = points.filter (survives keys) := by
  induction keys generalizing points with
  | nil => exact (List.filter_eq_self.mpr fun _ _ => rfl).symm
  | cons k ks ih =>
      show deleteAll (deleteByUpsertKey points k) ks = _
      rw [ih]
      unfold deleteByUpsertKey
      by_cases hk : k = ""
      · rw [if_pos hk]
        refine List.filter_congr fun p _ => ?_
        simp [survives, hk]
      · rw [if_neg hk, List.filter_filter]
        refine List.filter_congr fun p _ => ?_
        simp [survives, hk, Bool.and_comm]

/-- A deletion leaves the store as it is if and only if there is nothing to delete. -/
lemma deleteAll_eq_self_iff {keys : List String} :
    deleteAll points keys = points ↔ ∀ p ∈ points, survives keys p = true := by
  rw [deleteAll_eq_filter, List.filter_eq_self]

lemma filter_set_of_not {l : List (VectorPoint ρ)} {f : VectorPoint ρ → Bool} {i : ℕ}
    {q : VectorPoint ρ} (hq : f q = false) (hi : ∀ h : i < l.length, f l[i] = false) :
    (l.set i q).filter f = l.filter f := by
  induction l generalizing i with
  | nil => rfl
  | cons p ps ih =>
      cases i with
      | zero =>
          have hp : f p = false := hi (by simp)
          rw [List.set_cons_zero, List.filter_cons_of_neg (by simp [hq]),
            List.filter_cons_of_neg (by simp [hp])]
      | succ i =>
          have hrest := ih fun h => hi (Nat.succ_lt_succ h)
          rw [List.set_cons_succ, List.filter_cons, List.filter_cons, hrest]

/-- A point of the key is deleted under the key and its prefixed form. -/
lemma not_survives_of_belongsTo {key : String} {p : VectorPoint ρ} (h : belongsTo key p = true) :
    survives [key, "kv:" ++ key] p = false := by
  by_cases hkey : key = ""
  · subst hkey
    have hown : belongsTo ("kv:" ++ "") p = true := by
      have hempty : normalizeUpsertKey "" = "" := by decide
      have hprefixed : normalizeUpsertKey ("kv:" ++ "") = "" := by decide
      unfold belongsTo at h ⊢
      rw [hempty] at h
      rw [hprefixed]
      dsimp only at h ⊢
      rcases Bool.or_eq_true_iff.mp h with h | h
      · refine Bool.or_eq_true_iff.mpr (Or.inl (decide_eq_true ?_))
        rcases of_decide_eq_true h with h | h | h
        · exact Or.inl h
        · exact Or.inr (Or.inl h)
        · exact Or.inl h
      · obtain ⟨hne, heq⟩ := Bool.and_eq_true_iff.mp h
        exact absurd (of_decide_eq_true heq) (of_decide_eq_true hne)
    unfold survives
    have hprefixed : decide ("kv:" ++ "" = "") = false := by decide
    rw [List.all_cons, List.all_cons, hown, hprefixed]
    exact Bool.and_false _
  · simp [survives, hkey, h]

lemma belongsTo_inserted (key text : String) (record : ρ) :
    belongsTo key (⟨normalizeUpsertKey key, text, record⟩ : VectorPoint ρ) = true := by
  simp [belongsTo]

/-- **The points after an insertion that is undone** are those of the other keys. -/
lemma deleteAll_insert (points : List (VectorPoint ρ)) (key text : String) (record : ρ) :
    deleteAll (insert points key text record) [key, "kv:" ++ key] =
      deleteAll points [key, "kv:" ++ key] := by
  have hnew := not_survives_of_belongsTo (belongsTo_inserted key text record)
  rw [deleteAll_eq_filter, deleteAll_eq_filter]
  unfold insert
  dsimp only
  cases hfound : points.findIdx? (belongsTo key) with
  | none =>
      dsimp only
      rw [List.filter_append, List.filter_cons_of_neg (by simp [hnew]), List.filter_nil,
        List.append_nil]
  | some i =>
      dsimp only
      refine filter_set_of_not hnew fun hi => not_survives_of_belongsTo ?_
      exact (List.findIdx?_eq_some_iff_getElem.mp hfound).2.1

end VectorStore

end AtlasMemory

/-!
## Upsert keys

What `normalize_upsert_key` does to a key, and to a key that it has normalised.  It takes one
prefix `kv:` away, so a key whose normal form has the prefix again is not normal, and the store,
which normalises once for the payload and twice for the identifier, takes it for two keys.
-/

namespace AtlasMemory

namespace VectorStore

/-- A key whose normal form is its own normal form. -/
def Canonical (key : String) : Prop :=
  normalizeUpsertKey (normalizeUpsertKey key) = normalizeUpsertKey key

/-- A normal key: what a canonical key is normalised to. -/
def Normal (c : String) : Prop := normalizeUpsertKey c = c

instance (key : String) : Decidable (Canonical key) := inferInstanceAs (Decidable (_ = _))

lemma strip_normalizeUpsertKey (key : String) :
    PyString.strip (normalizeUpsertKey key) = normalizeUpsertKey key := by
  unfold normalizeUpsertKey
  dsimp only
  split_ifs <;> simp

lemma normalizeUpsertKey_strip (key : String) :
    normalizeUpsertKey (PyString.strip key) = normalizeUpsertKey key := by
  simp [normalizeUpsertKey]

lemma normalizeUpsertKey_prefixed (key : String) :
    normalizeUpsertKey ("kv:" ++ key) = PyString.strip key := by
  have hstrip : (PyString.strip ("kv:" ++ key)).toList =
      ['k', 'v', ':'] ++ key.toList.rdropWhile PyText.isPySpace := by
    have hlist := PyText.stripList_append_of_not PyText.isPySpace (l := ['k', 'v', ':'])
      (List.all_iff_forall_prop.mp (by decide)) (by simp) key.toList
    simpa [PyString.strip, PyString.stripWith] using hlist
  have hstarts : PyString.startsWith (PyString.strip ("kv:" ++ key)) "kv:" = true := by
    simp [PyString.startsWith, hstrip]
  unfold normalizeUpsertKey
  simp only [hstarts, if_true, hstrip]
  simp [PyString.strip, PyString.stripWith, PyText.stripList_rdropWhile]

lemma ne_prefixed_of_normal {c u : String} (hc : Normal c) (hu : PyString.strip u = u) :
    c ≠ "kv:" ++ u := by
  rintro rfl
  rw [Normal, normalizeUpsertKey_prefixed, hu] at hc
  have hlength := congrArg (fun s => s.toList.length) hc
  simp only [String.toList_append, List.length_append] at hlength
  have hthree : ("kv:" : String).toList.length = 3 := by decide
  omega

end VectorStore

end AtlasMemory
