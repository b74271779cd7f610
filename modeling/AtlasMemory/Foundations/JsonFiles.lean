import AtlasMemory.Foundations.JsonRemainder

/-!
# JSON files

A file of JSON is written with `indent=2` and `sort_keys=True` and a final line break.  It is read
back up to the order of the members, which no dictionary depends on: looking a name up in the sorted
members gives the sorted value (`find_sortKeys`).  Whatever the reader returns has distinct names in
every object (`distinct_of_loads`).
-/

namespace Json

open PyText

/-! ## Sorted names -/

lemma sortKeysMembers_eq_map (ms : List (String × Json)) :
    sortKeysMembers ms = ms.map fun m => (m.1, sortKeys m.2) := by
  induction ms with
  | nil => rfl
  | cons m ms ih => rw [sortKeysMembers, ih, List.map_cons]

lemma sortKeysItems_eq_map (vs : List Json) : sortKeysItems vs = vs.map sortKeys := by
  induction vs with
  | nil => rfl
  | cons v vs ih => rw [sortKeysItems, ih, List.map_cons]

lemma distinctItems_iff {vs : List Json} : DistinctItems vs ↔ ∀ v ∈ vs, v.Distinct := by
  induction vs with
  | nil => exact iff_of_true trivial fun v hv => absurd hv List.not_mem_nil
  | cons v vs ih => rw [DistinctItems, ih, List.forall_mem_cons]

lemma distinctMembers_iff {ms : List (String × Json)} :
    DistinctMembers ms ↔ ∀ m ∈ ms, m.2.Distinct := by
  induction ms with
  | nil => exact iff_of_true trivial fun v hv => absurd hv List.not_mem_nil
  | cons m ms ih => rw [DistinctMembers, ih, List.forall_mem_cons]

/-- The members in the order of their names. -/
def sortedMembers (ms : List (String × Json)) : List (String × Json) :=
  (sortKeysMembers ms).insertionSort fun m m' => m.1 ≤ m'.1

lemma sortKeys_obj (ms : List (String × Json)) : sortKeys (.obj ms) = .obj (sortedMembers ms) := rfl

lemma perm_sortedMembers (ms : List (String × Json)) :
    (sortedMembers ms).Perm (ms.map fun m => (m.1, sortKeys m.2)) := by
  rw [← sortKeysMembers_eq_map]
  exact List.perm_insertionSort _ _

lemma perm_names_sortedMembers (ms : List (String × Json)) :
    ((sortedMembers ms).map Prod.fst).Perm (ms.map Prod.fst) := by
  have h := (perm_sortedMembers ms).map Prod.fst
  rwa [List.map_map] at h

mutual

/-- Sorting keeps the names distinct. -/
theorem distinct_sortKeys : ∀ v : Json, v.Distinct → (sortKeys v).Distinct
  | .null, h | .bool _, h | .number _, h | .notANumber, h | .infinity, h | .negInfinity, h
  | .str _, h => h
  | .arr items, h => distinctItems_sortKeys items h
  | .obj members, h => by
      have hvalues := distinctMembers_sortKeys members h.2
      refine ⟨(perm_names_sortedMembers members).nodup_iff.mpr h.1, ?_⟩
      refine distinctMembers_iff.mpr fun m hm => distinctMembers_iff.mp hvalues m ?_
      exact (List.perm_insertionSort _ _).mem_iff.mp hm

theorem distinctItems_sortKeys : ∀ vs : List Json, DistinctItems vs →
    DistinctItems (sortKeysItems vs)
  | [], h => h
  | v :: vs, h => ⟨distinct_sortKeys v h.1, distinctItems_sortKeys vs h.2⟩

theorem distinctMembers_sortKeys : ∀ ms : List (String × Json), DistinctMembers ms →
    DistinctMembers (sortKeysMembers ms)
  | [], h => h
  | m :: ms, h => ⟨distinct_sortKeys m.2 h.1, distinctMembers_sortKeys ms h.2⟩

end

mutual

/-- Sorting twice sorts once. -/
theorem sortKeys_sortKeys : ∀ v : Json, sortKeys (sortKeys v) = sortKeys v
  | .null | .bool _ | .number _ | .notANumber | .infinity | .negInfinity | .str _ => rfl
  | .arr items => congrArg Json.arr (sortKeysItems_sortKeysItems items)
  | .obj members => by
      have hfixed : ∀ m ∈ sortedMembers members, (m.1, sortKeys m.2) = m := by
        intro m hm
        have hmem := (List.perm_insertionSort _ _).mem_iff.mp hm
        rw [sortKeysMembers_sortKeysMembers members m hmem]
      have hsorted : (sortedMembers members).Pairwise fun m m' => m.1 ≤ m'.1 :=
        List.pairwise_insertionSort _ _
      rw [sortKeys_obj, sortKeys_obj, sortedMembers, sortKeysMembers_eq_map,
        List.map_congr_left hfixed, List.map_id', hsorted.insertionSort_eq]

theorem sortKeysItems_sortKeysItems : ∀ vs : List Json,
    sortKeysItems (sortKeysItems vs) = sortKeysItems vs
  | [] => rfl
  | v :: vs => congrArg₂ List.cons (sortKeys_sortKeys v) (sortKeysItems_sortKeysItems vs)

theorem sortKeysMembers_sortKeysMembers : ∀ ms : List (String × Json),
    ∀ m ∈ sortKeysMembers ms, sortKeys m.2 = m.2
  | [], m, hm => absurd hm List.not_mem_nil
  | m' :: ms, m, hm => by
      rcases List.mem_cons.mp hm with rfl | hm
      · exact sortKeys_sortKeys m'.2
      · exact sortKeysMembers_sortKeysMembers ms m hm

end

lemma mem_or_eq_of_mem_assign {k : String} {v : Json} {d : List (String × Json)} {m : String × Json}
    (h : m ∈ PyDict.assign k v d) : m = (k, v) ∨ m ∈ d := by
  induction d with
  | nil => exact .inl (List.mem_singleton.mp h)
  | cons e d ih =>
      rw [PyDict.assign] at h
      split_ifs at h
      · exact (List.mem_cons.mp h).imp_right (List.mem_cons_of_mem e)
      · rcases List.mem_cons.mp h with rfl | h
        · exact .inr List.mem_cons_self
        · exact (ih h).imp_right (List.mem_cons_of_mem e)

lemma sortKeys_obj_map_sortKeys (ms : List (String × Json)) :
    sortKeys (.obj (ms.map fun m => (m.1, sortKeys m.2))) = sortKeys (.obj ms) := by
  have hmembers : sortKeysMembers (ms.map fun m => (m.1, sortKeys m.2)) = sortKeysMembers ms := by
    rw [sortKeysMembers_eq_map, sortKeysMembers_eq_map, List.map_map]
    exact List.map_congr_left fun m _ => Prod.ext rfl (sortKeys_sortKeys m.2)
  rw [sortKeys_obj, sortKeys_obj, sortedMembers, sortedMembers, hmembers]

lemma distinct_assign {k : String} {v : Json} {ms : List (String × Json)}
    (hms : Distinct (.obj ms)) (hv : v.Distinct) : Distinct (.obj (PyDict.assign k v ms)) := by
  refine ⟨PyDict.nodup_map_fst_assign k v hms.1, distinctMembers_iff.mpr fun m hm => ?_⟩
  rcases mem_or_eq_of_mem_assign hm with rfl | hm
  · exact hv
  · exact distinctMembers_iff.mp hms.2 m hm

lemma find_map_snd {f : Json → Json} (k : String) (ms : List (String × Json)) :
    PyDict.find k (ms.map fun m => (m.1, f m.2)) = (PyDict.find k ms).map f := by
  induction ms with
  | nil => rfl
  | cons m ms ih =>
      simp only [List.map_cons, PyDict.find, ih]
      split <;> rfl

lemma find_sortedMembers {ms : List (String × Json)} (h : (ms.map Prod.fst).Nodup) (k : String) :
    PyDict.find k (sortedMembers ms) = (PyDict.find k ms).map sortKeys := by
  have hperm := perm_sortedMembers ms
  have hnodup := (perm_names_sortedMembers ms).nodup_iff.mpr h
  rw [← find_map_snd]
  cases hfind : PyDict.find k (ms.map fun m => (m.1, sortKeys m.2)) with
  | none =>
    refine PyDict.find_eq_none_iff.mpr fun hk => ?_
    exact PyDict.find_eq_none_iff.mp hfind ((hperm.map Prod.fst).mem_iff.mp hk)
  | some v => exact PyDict.find_of_mem hnodup (hperm.mem_iff.mpr (PyDict.mem_of_find hfind))

/-! ## What the reader returns -/

lemma distinct_dictOf {ms : List (String × Json)} (h : DistinctMembers ms) :
    Distinct (.obj (dictOf ms)) := by
  have hfold : ∀ (l d : List (String × Json)), (∀ m ∈ l, m.2.Distinct) → Distinct (.obj d) →
      Distinct (.obj (l.foldl (fun d m => PyDict.assign m.1 m.2 d) d)) := by
    intro l
    induction l with
    | nil => exact fun d _ hd => hd
    | cons m l ih =>
        exact fun d hl hd => ih _ (fun m' hm' => hl m' (List.mem_cons_of_mem _ hm'))
          (distinct_assign hd (hl m List.mem_cons_self))
  exact hfold ms [] (distinctMembers_iff.mp h) ⟨List.nodup_nil, trivial⟩

lemma distinct_of_scanScalar {cs rest : PyText} {v : Json} (h : scanScalar cs = some (v, rest)) :
    v.Distinct := by
  rcases eq_of_scanScalar h with ⟨word, hword, -⟩ | ⟨lit, rfl, -⟩
  · simp only [keywords, List.mem_cons, Prod.mk.injEq, List.not_mem_nil, or_false] at hword
    rcases hword with h | h | h | h | h | h <;> rw [h.2] <;> trivial
  · trivial

/-- What the three functions of the reader return has distinct names. -/
lemma distinct_of_parse (n : ℕ) :
    (∀ cs v rest, parseValue n cs = some (v, rest) → v.Distinct) ∧
    (∀ cs vs rest, parseItems n cs = some (vs, rest) → DistinctItems vs) ∧
    (∀ cs ms rest, parseMembers n cs = some (ms, rest) → DistinctMembers ms) := by
  induction n with
  | zero => exact ⟨nofun, nofun, nofun⟩
  | succ n ih =>
      obtain ⟨ihValue, ihItems, ihMembers⟩ := ih
      refine ⟨fun cs v rest h => ?_, fun cs vs rest h => ?_, fun cs ms rest h => ?_⟩
      · unfold parseValue at h
        split at h
        · obtain ⟨r, -, hpair⟩ := Option.map_eq_some_iff.mp h
          rw [← (Prod.mk.inj hpair).1]
          trivial
        · split at h
          · rw [← (Prod.mk.inj (Option.some.inj h)).1]
            trivial
          · obtain ⟨r, hitems, hpair⟩ := Option.map_eq_some_iff.mp h
            rw [← (Prod.mk.inj hpair).1]
            exact ihItems _ r.1 r.2 hitems
        · split at h
          · rw [← (Prod.mk.inj (Option.some.inj h)).1]
            exact ⟨List.nodup_nil, trivial⟩
          · obtain ⟨r, hmembers, hpair⟩ := Option.map_eq_some_iff.mp h
            rw [← (Prod.mk.inj hpair).1]
            exact distinct_dictOf (ihMembers _ r.1 r.2 hmembers)
        · exact distinct_of_scanScalar h
      · obtain ⟨m, v, r, hm, hv, hloop⟩ := parseItems_inv h
        obtain rfl := Nat.succ.inj hm
        rcases hloop with ⟨-, rfl⟩ | ⟨r', vs', -, hitems, rfl⟩
        · exact ⟨ihValue _ _ _ hv, trivial⟩
        · exact ⟨ihValue _ _ _ hv, ihItems _ _ _ hitems⟩
      · obtain ⟨m, cs', k, r, r', v, r'', hm, -, -, -, hv, hloop⟩ := parseMembers_inv h
        obtain rfl := Nat.succ.inj hm
        rcases hloop with ⟨-, rfl⟩ | ⟨t, ms', -, hmembers, rfl⟩
        · exact ⟨ihValue _ _ _ hv, trivial⟩
        · exact ⟨ihValue _ _ _ hv, ihMembers _ _ _ hmembers⟩

/-- **Whatever is read** has distinct names in every object. -/
theorem distinct_of_loads {t : PyText} {v : Json} (h : loads t = some v) : v.Distinct := by
  unfold loads at h
  split at h
  · rename_i w rest hparse
    split_ifs at h
    rw [← Option.some.inj h]
    exact (distinct_of_parse _).1 _ _ _ hparse
  · cases h

/-! ## The text of a file -/

/-- `indent=2`. -/
def Layout.indented : Layout where
  opening d := .scalar '\n' :: List.replicate (2 * d) (.scalar ' ')
  separating d := .scalar '\n' :: List.replicate (2 * d) (.scalar ' ')
  closing d := .scalar '\n' :: List.replicate (2 * d) (.scalar ' ')
  isSpace_of_mem d u h := by
    have hu : u = .scalar '\n' ∨ u = .scalar ' ' := by
      rw [or_self, or_self, List.mem_cons] at h
      exact h.imp_right List.eq_of_mem_replicate
    rcases hu with rfl | rfl <;> rfl

/-- `json.dumps(v, indent=2, sort_keys=True) + "\n"`. -/
def fileText (v : Json) : PyText :=
  writeLaid .indented escapedBody (sortKeys v) 0 ++ [.scalar '\n']

/-- **A file is read back** up to the order of the names. -/
theorem loads_fileText {v : Json} (h : v.Distinct) : loads (fileText v) = some (sortKeys v) := by
  have hbody : ForallStrings (ReadBack escapedBody) (sortKeys v) :=
    @ForallStrings.of_infix _ escapedBody _ fun s _ => scanString_quote s
  rw [fileText, loads_writeLaid hbody (by simp [isSpace]),
    canonical_of_distinct _ (distinct_sortKeys v h)]

end Json
