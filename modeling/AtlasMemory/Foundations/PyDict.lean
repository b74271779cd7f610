import Mathlib.Data.List.Basic
import Mathlib.Data.List.Induction
import Mathlib.Data.List.Nodup
import Mathlib.Tactic.Common

/-!
# Insertion-ordered dictionaries

A dictionary in the sense of a scripting language: finitely many distinct keys, each with one
value, iterated in the order in which the keys were first inserted.  Assigning to a present key
keeps its position, assigning to an absent key appends it, and deleting a key forgets its
position.  An SQL table with a text or integer primary key and upsert semantics behaves the same
way when it is scanned in row order, so the type serves for both.

The distinctness of the keys is a field of the structure, so no lemma about a dictionary carries
it as a hypothesis.  Lookups are total through `get?`; two dictionaries with the same lookups may
still differ in iteration order, and `Agree` is the comparison that ignores it.
-/

/-- A finite map with distinct keys, iterated in insertion order. -/
@[ext]
structure PyDict (κ ν : Type*) where
  entries : List (κ × ν)
  nodupKeys : (entries.map Prod.fst).Nodup

namespace PyDict

variable {κ ν μ : Type*}

/-! ## Construction and lookup -/

def empty : PyDict κ ν := ⟨[], List.nodup_nil⟩

instance : EmptyCollection (PyDict κ ν) := ⟨empty⟩

instance : Inhabited (PyDict κ ν) := ⟨∅⟩

instance [DecidableEq κ] [DecidableEq ν] : DecidableEq (PyDict κ ν) := fun d e =>
  decidable_of_iff (d.entries = e.entries) PyDict.ext_iff.symm

/-- The keys, in insertion order. -/
def keys (d : PyDict κ ν) : List κ := d.entries.map Prod.fst

/-- The values, in the insertion order of their keys. -/
def values (d : PyDict κ ν) : List ν := d.entries.map Prod.snd

def size (d : PyDict κ ν) : ℕ := d.entries.length

variable [DecidableEq κ]

/-- Lookup in an association list: the value of the first entry under `k`. -/
def find (k : κ) : List (κ × ν) → Option ν
  | [] => none
  | e :: es => if e.1 = k then some e.2 else find k es

/-- The value stored under `k`, if any. -/
def get? (d : PyDict κ ν) (k : κ) : Option ν := find k d.entries

/-- `d.get(k, default)`. -/
def getD (d : PyDict κ ν) (k : κ) (default : ν) : ν := (d.get? k).getD default

/-- `k in d`. -/
def contains (d : PyDict κ ν) (k : κ) : Bool := (d.get? k).isSome

lemma find_eq_none_iff {k : κ} {l : List (κ × ν)} : find k l = none ↔ k ∉ l.map Prod.fst := by
  induction l with
  | nil => simp [find]
  | cons e es ih =>
      by_cases h : e.1 = k
      · simp [find, h]
      · simp [find, h, ih, Ne.symm h]

lemma mem_of_find {k : κ} {v : ν} {l : List (κ × ν)} (h : find k l = some v) : (k, v) ∈ l := by
  induction l with
  | nil => simp [find] at h
  | cons e es ih =>
      by_cases hk : e.1 = k
      · simp only [find, hk, if_true, Option.some.injEq] at h
        exact List.mem_cons.mpr (Or.inl (by rw [← hk, ← h]))
      · simp only [find, hk, if_false] at h
        exact List.mem_cons_of_mem _ (ih h)

lemma find_of_mem {k : κ} {v : ν} {l : List (κ × ν)} (hl : (l.map Prod.fst).Nodup)
    (h : (k, v) ∈ l) : find k l = some v := by
  induction l with
  | nil => simp at h
  | cons e es ih =>
      simp only [List.map_cons, List.nodup_cons] at hl
      rcases List.mem_cons.mp h with rfl | h
      · simp [find]
      · have hne : e.1 ≠ k := fun heq => hl.1 (heq ▸ List.mem_map_of_mem h)
        simp only [find, if_neg hne]
        exact ih hl.2 h

lemma mem_entries_iff {d : PyDict κ ν} {k : κ} {v : ν} :
    (k, v) ∈ d.entries ↔ d.get? k = some v :=
  ⟨find_of_mem d.nodupKeys, mem_of_find⟩

lemma get?_eq_none_iff {d : PyDict κ ν} {k : κ} : d.get? k = none ↔ k ∉ d.keys :=
  find_eq_none_iff

lemma mem_keys_iff {d : PyDict κ ν} {k : κ} : k ∈ d.keys ↔ (d.get? k).isSome := by
  rw [← not_iff_not, ← get?_eq_none_iff, Option.not_isSome_iff_eq_none]

@[simp] lemma get?_empty (k : κ) : (∅ : PyDict κ ν).get? k = none := rfl

/-- Two dictionaries agree when every lookup gives the same answer (`d == e`, which ignores the
order of the keys). -/
def Agree (d e : PyDict κ ν) : Prop := ∀ k, d.get? k = e.get? k

/-! ## Assignment -/

/-- Assignment in an association list: in place if the key is present, at the end otherwise. -/
def assign (k : κ) (v : ν) : List (κ × ν) → List (κ × ν)
  | [] => [(k, v)]
  | e :: es => if e.1 = k then (k, v) :: es else e :: assign k v es

lemma map_fst_assign (k : κ) (v : ν) (l : List (κ × ν)) :
    (assign k v l).map Prod.fst =
      if k ∈ l.map Prod.fst then l.map Prod.fst else l.map Prod.fst ++ [k] := by
  induction l with
  | nil => simp [assign]
  | cons e es ih =>
      by_cases h : e.1 = k
      · simp [assign, h]
      · by_cases hk : k ∈ es.map Prod.fst
        · simp [assign, h, ih, hk]
        · simp [assign, h, Ne.symm h, ih, hk]

lemma nodup_map_fst_assign (k : κ) (v : ν) {l : List (κ × ν)} (hl : (l.map Prod.fst).Nodup) :
    ((assign k v l).map Prod.fst).Nodup := by
  rw [map_fst_assign]
  split_ifs with h
  · exact hl
  · exact List.nodup_append.mpr ⟨hl, List.nodup_singleton k, by
      intro a ha b hb
      rw [List.mem_singleton.mp hb]
      exact fun hab => h (hab ▸ ha)⟩

lemma find_assign (k k' : κ) (v : ν) (l : List (κ × ν)) :
    find k' (assign k v l) = if k = k' then some v else find k' l := by
  induction l with
  | nil => simp [assign, find]
  | cons e es ih =>
      by_cases h : e.1 = k
      · by_cases hk : k = k'
        · simp [assign, find, h, hk]
        · simp [assign, find, h, hk]
      · by_cases hk : k = k'
        · subst hk
          simp [assign, find, h, ih]
        · simp only [assign, if_neg h, find, ih, if_neg hk]

/-- `d[k] = v`. -/
def set (d : PyDict κ ν) (k : κ) (v : ν) : PyDict κ ν :=
  ⟨assign k v d.entries, nodup_map_fst_assign k v d.nodupKeys⟩

lemma get?_set (d : PyDict κ ν) (k k' : κ) (v : ν) :
    (d.set k v).get? k' = if k = k' then some v else d.get? k' :=
  find_assign k k' v d.entries

@[simp] lemma get?_set_self (d : PyDict κ ν) (k : κ) (v : ν) : (d.set k v).get? k = some v := by
  simp [get?_set]

lemma get?_set_of_ne (d : PyDict κ ν) {k k' : κ} (v : ν) (h : k ≠ k') :
    (d.set k v).get? k' = d.get? k' := by
  simp [get?_set, h]

/-- Assigning the value that is there changes nothing, order included. -/
lemma set_eq_self_iff {d : PyDict κ ν} {k : κ} {v : ν} : d.set k v = d ↔ d.get? k = some v := by
  have hassign : ∀ l : List (κ × ν), find k l = some v → assign k v l = l := by
    intro l hl
    induction l with
    | nil => simp [find] at hl
    | cons e es ih =>
        by_cases h : e.1 = k
        · simp only [find, h, if_true, Option.some.injEq] at hl
          rw [assign, if_pos h, ← h, ← hl]
        · simp only [find, h, if_false] at hl
          rw [assign, if_neg h, ih hl]
  constructor
  · intro h
    rw [← h, get?_set_self]
  · intro h
    exact PyDict.ext (hassign d.entries h)

/-- `d.setdefault(k, v)`. -/
def setDefault (d : PyDict κ ν) (k : κ) (v : ν) : PyDict κ ν :=
  if d.contains k then d else d.set k v

lemma get?_setDefault_of_ne (d : PyDict κ ν) {k k' : κ} (v : ν) (h : k ≠ k') :
    (d.setDefault k v).get? k' = d.get? k' := by
  unfold setDefault
  split_ifs
  · rfl
  · exact get?_set_of_ne d v h

lemma get?_setDefault_of_none {d : PyDict κ ν} {k : κ} (v : ν) (h : d.get? k = none) :
    (d.setDefault k v).get? k = some v := by
  simp [setDefault, contains, h]

/-! ## Deletion and selection -/

/-- The entries that satisfy `p`, in their order. -/
def filter (d : PyDict κ ν) (p : κ → ν → Bool) : PyDict κ ν :=
  ⟨d.entries.filter fun e => p e.1 e.2,
    List.Nodup.sublist (List.filter_sublist.map Prod.fst) d.nodupKeys⟩

lemma get?_filter (d : PyDict κ ν) (p : κ → ν → Bool) (k : κ) :
    (d.filter p).get? k = (d.get? k).filter (p k) := by
  rw [Option.ext_iff]
  intro v
  rw [← mem_entries_iff, Option.filter_eq_some_iff, ← mem_entries_iff]
  simp [filter]

/-- `del d[k]`, or nothing when the key is absent. -/
def erase (d : PyDict κ ν) (k : κ) : PyDict κ ν := d.filter fun k' _ => decide (k' ≠ k)

@[simp] lemma get?_erase_self (d : PyDict κ ν) (k : κ) : (d.erase k).get? k = none := by
  rw [erase, get?_filter]
  cases d.get? k <;> simp

lemma get?_erase_of_ne (d : PyDict κ ν) {k k' : κ} (h : k ≠ k') :
    (d.erase k).get? k' = d.get? k' := by
  rw [erase, get?_filter]
  cases d.get? k' <;> simp [Ne.symm h]

lemma get?_erase (d : PyDict κ ν) (k k' : κ) :
    (d.erase k).get? k' = if k = k' then none else d.get? k' := by
  by_cases h : k = k'
  · subst h
    simp
  · rw [if_neg h, get?_erase_of_ne d h]

/-- The entry under a key after the entries whose keys do not satisfy `p` are gone. -/
lemma get?_filter_keys (d : PyDict κ ν) (p : κ → Bool) (k : κ) :
    (d.filter fun k _ => p k).get? k = if p k then d.get? k else none := by
  rw [get?_filter]
  cases d.get? k <;> cases p k <;> rfl

lemma mem_keys_of_get? {d : PyDict κ ν} {k : κ} {v : ν} (h : d.get? k = some v) : k ∈ d.keys := by
  rw [mem_keys_iff, h]
  rfl

/-! ## Values -/

lemma mem_values_iff {d : PyDict κ ν} {v : ν} : v ∈ d.values ↔ ∃ k, d.get? k = some v := by
  simp only [values, List.mem_map, Prod.exists, exists_eq_right, ← mem_entries_iff]

omit [DecidableEq κ] in
lemma values_filter (d : PyDict κ ν) (p : ν → Bool) :
    (d.filter fun _ v => p v).values = d.values.filter p := by
  simp [values, filter, List.filter_map, Function.comp_def]

/-- An assignment under a key changes nothing for a condition that neither the old nor the new value
of the key meets. -/
lemma filter_values_set {d : PyDict κ ν} {k : κ} {v : ν} {p : ν → Bool} (hv : p v = false)
    (hold : ∀ w, d.get? k = some w → p w = false) :
    (d.set k v).values.filter p = d.values.filter p := by
  have hassign : ∀ l : List (κ × ν), (∀ w, find k l = some w → p w = false) →
      ((assign k v l).map Prod.snd).filter p = (l.map Prod.snd).filter p := by
    intro l hl
    induction l with
    | nil => simp [assign, hv]
    | cons e es ih =>
        by_cases h : e.1 = k
        · have he : p e.2 = false := hl e.2 (by simp [find, h])
          simp [assign, h, hv, he]
        · have hrest := ih fun w hw => hl w (by simpa [find, h] using hw)
          simp only [assign, if_neg h, List.map_cons, List.filter_cons, hrest]
  exact hassign d.entries hold

/-! ## Comprehensions -/

/-- `{k: f(v) for k, v in d.items() if f(v) is not None}`. -/
def filterMapValues (d : PyDict κ ν) (f : ν → Option μ) : PyDict κ μ :=
  ⟨d.entries.filterMap fun e => (f e.2).map fun v => (e.1, v), by
    refine List.Nodup.sublist ?_ d.nodupKeys
    induction d.entries with
    | nil => simp
    | cons e es ih =>
        cases hf : f e.2 with
        | none => simpa [List.filterMap_cons, hf] using ih.cons _
        | some v => simpa [List.filterMap_cons, hf] using ih⟩

lemma get?_filterMapValues (d : PyDict κ ν) (f : ν → Option μ) (k : κ) :
    (d.filterMapValues f).get? k = (d.get? k).bind f := by
  rw [Option.ext_iff]
  intro v
  rw [← mem_entries_iff, Option.bind_eq_some_iff]
  simp only [filterMapValues, List.mem_filterMap, Option.map_eq_some_iff, Prod.mk.injEq]
  constructor
  · rintro ⟨⟨k', w⟩, hmem, v', hv, rfl, rfl⟩
    exact ⟨w, mem_entries_iff.mp hmem, hv⟩
  · rintro ⟨w, hw, hv⟩
    exact ⟨(k, w), mem_entries_iff.mpr hw, v, hv, rfl, rfl⟩

/-- `{k: f(v) for k, v in d.items()}`. -/
def mapValues (d : PyDict κ ν) (f : ν → μ) : PyDict κ μ := d.filterMapValues fun v => some (f v)

lemma get?_mapValues (d : PyDict κ ν) (f : ν → μ) (k : κ) :
    (d.mapValues f).get? k = (d.get? k).map f := by
  rw [mapValues, get?_filterMapValues]
  cases d.get? k <;> rfl

omit [DecidableEq κ] in
lemma entries_mapValues (d : PyDict κ ν) (f : ν → μ) :
    (d.mapValues f).entries = d.entries.map fun e => (e.1, f e.2) := by
  show d.entries.filterMap (fun e => some (e.1, f e.2)) = _
  rw [List.filterMap_eq_map']

lemma mapValues_set (d : PyDict κ ν) (f : ν → μ) (k : κ) (v : ν) :
    (d.set k v).mapValues f = (d.mapValues f).set k (f v) := by
  have hassign : ∀ l : List (κ × ν), (assign k v l).map (fun e => (e.1, f e.2)) =
      assign k (f v) (l.map fun e => (e.1, f e.2)) := by
    intro l
    induction l with
    | nil => rfl
    | cons e es ih =>
        by_cases h : e.1 = k
        · simp [assign, h]
        · simp [assign, h, ih]
  refine PyDict.ext ?_
  rw [entries_mapValues]
  exact (hassign d.entries).trans (congrArg (assign k (f v)) (entries_mapValues d f).symm)

lemma mapValues_erase (d : PyDict κ ν) (f : ν → μ) (k : κ) :
    (d.erase k).mapValues f = (d.mapValues f).erase k := by
  refine PyDict.ext ?_
  have hfilter : (d.entries.map fun e => (e.1, f e.2)).filter (fun e => decide (e.1 ≠ k)) =
      (d.entries.filter fun e => decide (e.1 ≠ k)).map fun e => (e.1, f e.2) :=
    List.filter_map ..
  rw [entries_mapValues]
  exact hfilter.symm.trans (congrArg (List.filter _) (entries_mapValues d f).symm)

/-- `{k: f(k) for k in ks}`; a repeated key keeps its first position. -/
def ofKeys (ks : List κ) (f : κ → ν) : PyDict κ ν :=
  ks.foldl (fun d k => d.set k (f k)) ∅

lemma get?_foldl_set (ks : List κ) (f : κ → ν) (d : PyDict κ ν) (k : κ) :
    (ks.foldl (fun d k => d.set k (f k)) d).get? k = if k ∈ ks then some (f k) else d.get? k := by
  induction ks generalizing d with
  | nil => simp
  | cons a ks ih =>
      rw [List.foldl_cons, ih, get?_set]
      by_cases hk : k ∈ ks
      · simp [hk]
      · by_cases ha : a = k
        · simp [ha]
        · simp [hk, ha, Ne.symm ha]

lemma get?_ofKeys (ks : List κ) (f : κ → ν) (k : κ) :
    (ofKeys ks f).get? k = if k ∈ ks then some (f k) else none := by
  rw [ofKeys, get?_foldl_set, get?_empty]

/-- `dict(pairs)`: a repeated key keeps its first position and takes its last value. -/
def ofEntries (l : List (κ × ν)) : PyDict κ ν := l.foldl (fun d e => d.set e.1 e.2) ∅

/-! ## Loops over the items

A loop `for k, v in d.items()` that touches only the entry under `k` in its `k`-th round acts on
every key separately, because the keys of `d` are distinct. -/

lemma get?_foldl_of_pointwise {step : PyDict κ ν → κ × μ → PyDict κ ν}
    {update : Option ν → μ → Option ν}
    (hstep : ∀ acc e k, (step acc e).get? k =
      if e.1 = k then update (acc.get? k) e.2 else acc.get? k)
    {l : List (κ × μ)} (hl : (l.map Prod.fst).Nodup) (acc : PyDict κ ν) (k : κ) :
    (l.foldl step acc).get? k = (find k l).elim (acc.get? k) (update (acc.get? k)) := by
  induction l generalizing acc with
  | nil => rfl
  | cons e es ih =>
      simp only [List.map_cons, List.nodup_cons] at hl
      rw [List.foldl_cons, ih hl.2, hstep]
      by_cases h : e.1 = k
      · have habsent : find k es = none := find_eq_none_iff.mpr (h ▸ hl.1)
        simp [find, h, habsent]
      · simp [find, h]

/-- The loop over the items of `d`, key by key. -/
lemma get?_foldl_entries {step : PyDict κ ν → κ × μ → PyDict κ ν}
    {update : Option ν → μ → Option ν}
    (hstep : ∀ acc e k, (step acc e).get? k =
      if e.1 = k then update (acc.get? k) e.2 else acc.get? k)
    (d : PyDict κ μ) (acc : PyDict κ ν) (k : κ) :
    (d.entries.foldl step acc).get? k = (d.get? k).elim (acc.get? k) (update (acc.get? k)) :=
  get?_foldl_of_pointwise hstep d.nodupKeys acc k

section Keyed

variable {ι : Type*} {key : ι → κ} {step : PyDict κ ν → ι × μ → PyDict κ ν}
  {update : Option ν → ι × μ → Option ν}

lemma find_foldl_keyed [DecidableEq ι] (hkey : Function.Injective key)
    (hstep : ∀ acc e k, (step acc e).get? k =
      if key e.1 = k then update (acc.get? k) e else acc.get? k)
    {l : List (ι × μ)} (hl : (l.map Prod.fst).Nodup) (acc : PyDict κ ν) (i : ι) :
    (l.foldl step acc).get? (key i) =
      (find i l).elim (acc.get? (key i)) fun m => update (acc.get? (key i)) (i, m) := by
  induction l generalizing acc with
  | nil => rfl
  | cons e es ih =>
      simp only [List.map_cons, List.nodup_cons] at hl
      rw [List.foldl_cons, ih hl.2, hstep]
      by_cases h : e.1 = i
      · have habsent : find i es = none := find_eq_none_iff.mpr (h ▸ hl.1)
        subst h
        simp [find, habsent]
      · simp [find, h, hkey.ne h]

/-- The loop over the items of `d`, whose round at `i` touches only the entry under `key i`. -/
lemma get?_foldl_keyed [DecidableEq ι] (hkey : Function.Injective key)
    (hstep : ∀ acc e k, (step acc e).get? k =
      if key e.1 = k then update (acc.get? k) e else acc.get? k)
    (d : PyDict ι μ) (acc : PyDict κ ν) (i : ι) :
    (d.entries.foldl step acc).get? (key i) =
      (d.get? i).elim (acc.get? (key i)) fun m => update (acc.get? (key i)) (i, m) :=
  find_foldl_keyed hkey hstep d.nodupKeys acc i

lemma get?_foldl_keyed_of_ne (hstep : ∀ acc e k, (step acc e).get? k =
      if key e.1 = k then update (acc.get? k) e else acc.get? k)
    (l : List (ι × μ)) (acc : PyDict κ ν) {k : κ} (hk : ∀ i, key i ≠ k) :
    (l.foldl step acc).get? k = acc.get? k := by
  induction l generalizing acc with
  | nil => rfl
  | cons e es ih => rw [List.foldl_cons, ih, hstep, if_neg (hk e.1)]

end Keyed

lemma get?_ofEntries {l : List (κ × ν)} (hl : (l.map Prod.fst).Nodup) (k : κ) :
    (ofEntries l).get? k = find k l := by
  have hstep : ∀ (acc : PyDict κ ν) (e : κ × ν) (k : κ), (acc.set e.1 e.2).get? k =
      if e.1 = k then some e.2 else acc.get? k := fun acc e k => get?_set acc e.1 k e.2
  rw [ofEntries, @get?_foldl_of_pointwise _ _ _ _ _ (fun _ v => some v) hstep l hl]
  cases find k l <;> rfl

end PyDict

/-!
## Grouping

A loop that puts every item into the group of its key.  The group of a key is made from the items of
this key in their order, and there are the groups of the keys of the items and no others.
-/

namespace PyDict

variable {κ ν ι : Type*} [DecidableEq κ] (key : ι → κ) (add : Option ν → ι → ν)

/-- `for i in items: d[key(i)] = add(d.get(key(i)), i)`. -/
def groupBy (items : List ι) : PyDict κ ν :=
  items.foldl (fun d i => d.set (key i) (add (d.get? (key i)) i)) ∅

lemma groupBy_concat (items : List ι) (i : ι) : groupBy key add (items ++ [i]) =
    (groupBy key add items).set (key i) (add ((groupBy key add items).get? (key i)) i) := by
  rw [groupBy, List.foldl_append]
  rfl

theorem get?_groupBy (items : List ι) (k : κ) : (groupBy key add items).get? k =
    (items.filter fun i => key i = k).foldl (fun g i => some (add g i)) none := by
  induction items using List.reverseRecOn with
  | nil => rfl
  | append_singleton items i ih =>
      rw [groupBy_concat, get?_set, List.filter_append, List.foldl_append]
      by_cases h : key i = k
      · subst h
        simp [ih]
      · simp [h, ih]

lemma mem_keys_groupBy (items : List ι) (k : κ) :
    k ∈ (groupBy key add items).keys ↔ ∃ i ∈ items, key i = k := by
  rw [mem_keys_iff, get?_groupBy]
  have hsome : ∀ (l : List ι) (g : Option ν),
      (l.foldl (fun g i => some (add g i)) g).isSome ↔ g.isSome ∨ l ≠ [] := by
    intro l
    induction l with
    | nil => simp
    | cons i l ih => intro g; simp [ih]
  rw [hsome]
  simp [List.filter_eq_nil_iff]

end PyDict
