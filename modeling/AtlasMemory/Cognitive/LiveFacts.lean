import AtlasMemory.Cognitive.SemanticDedup

/-!
# Live facts among the candidates

The removal of variants keeps the freshest record of a fact, superseded or not, though the rank by
which it is said to choose puts a superseded record below every other one.  The filter of the
candidates then drops the superseded records, and with one of them the whole fact may go.  A fact
that has a live record remains exactly if its freshest record is a candidate.
-/

namespace AtlasMemory

namespace Packing

variable {env : PackEnv} {docs out : List PackRecord} {items : List Item} {i j : ℕ}

/-! ## The canonical record -/

section Canonical

variable (env docs)

open Classical in
/-- The positions of the component of `i`, in their order. -/
noncomputable def component (i : ℕ) : List ℕ :=
  (List.range docs.length).filter fun j => SameComponent env docs i j

/-- The freshness of the record at a position, where it can be read. -/
def keyAt (i : ℕ) : PyFloat × PyFloat :=
  (freshnessAt env docs i).getD (.finite 0, .finite 0)

/-- The first of the freshest among some positions. -/
def freshestOf (i : ℕ) : List ℕ → ℕ
  | [] => i
  | a :: rest => firstMax (keyAt env docs) a rest

/-- The first of the freshest records of the component of `i`. -/
noncomputable def canonicalOf (i : ℕ) : ℕ := freshestOf env docs i (component env docs i)

/-- The records that stand for their components, with their positions. -/
noncomputable def canonicalRecords : List (PackRecord × ℕ) :=
  docs.zipIdx.filter fun e => canonicalOf env docs e.2 = e.2

end Canonical

lemma mem_component : j ∈ component env docs i ↔ j < docs.length ∧ SameComponent env docs i j := by
  classical
  unfold component
  rw [List.mem_filter, List.mem_range, decide_eq_true_eq]

/-- The positions of one component have one list of positions. -/
lemma component_congr (h : SameComponent env docs i j) :
    component env docs i = component env docs j := by
  classical
  unfold component
  refine List.filter_congr fun k _ => ?_
  rw [decide_eq_decide]
  exact ⟨fun hik => .trans _ _ _ (.symm _ _ h) hik, fun hjk => .trans _ _ _ h hjk⟩

lemma freshestOf_mem {l : List ℕ} (h : l ≠ []) : freshestOf env docs i l ∈ l := by
  obtain ⟨a, rest, rfl⟩ := List.exists_cons_of_ne_nil h
  exact firstMax_mem _ a rest

lemma canonicalOf_mem (hi : i < docs.length) :
    canonicalOf env docs i < docs.length ∧ SameComponent env docs i (canonicalOf env docs i) := by
  have hself : i ∈ component env docs i := mem_component.mpr ⟨hi, .refl i⟩
  exact mem_component.mp (freshestOf_mem (List.ne_nil_of_mem hself))

/-- The records of one component have one canonical record. -/
lemma canonicalOf_congr (hi : i < docs.length) (h : SameComponent env docs i j) :
    canonicalOf env docs i = canonicalOf env docs j := by
  have hself : i ∈ component env docs i := mem_component.mpr ⟨hi, .refl i⟩
  obtain ⟨a, rest, heq⟩ := List.exists_cons_of_ne_nil (List.ne_nil_of_mem hself)
  unfold canonicalOf
  rw [← component_congr h, heq]
  rfl

lemma canonicalOf_canonicalOf (hi : i < docs.length) :
    canonicalOf env docs (canonicalOf env docs i) = canonicalOf env docs i :=
  (canonicalOf_congr hi (canonicalOf_mem hi).2).symm

lemma mem_canonicalRecords {e : PackRecord × ℕ} :
    e ∈ canonicalRecords env docs ↔ docs[e.2]? = some e.1 ∧ canonicalOf env docs e.2 = e.2 := by
  unfold canonicalRecords
  rw [List.mem_filter, decide_eq_true_eq, List.mem_zipIdx_iff_getElem?]

/-! ## What the removal keeps -/

lemma firstMax_map {α β : Type*} (key : α → PyFloat × PyFloat) (f : β → α) (b : β) (l : List β) :
    firstMax key (f b) (l.map f) = f (firstMax (fun b => key (f b)) b l) := by
  unfold firstMax
  induction l generalizing b with
  | nil => rfl
  | cons c l ih =>
    rw [List.map_cons, List.foldl_cons, List.foldl_cons, ← ih]
    split_ifs with hlt
    · rfl
    · rfl

/-- A group of several members loses all but the first of its freshest ones. -/
lemma droppedOf_eq {members d : List ℕ} (hlen : 2 ≤ members.length)
    (h : droppedOf env docs members = some d) :
    d = members.filter fun k => k ≠ freshestOf env docs i members := by
  obtain ⟨keyed, hkeyed, hd⟩ := Option.bind_eq_some_iff.mp h
  have hmap : keyed = members.map fun k => (k, keyAt env docs k) := by
    refine List.ext_getElem? fun n => ?_
    rw [getElem?_of_mapM hkeyed, List.getElem?_map]
    cases hk : members[n]? with
    | none => rfl
    | some k =>
      have hsome := isSome_mapM.mp (by rw [hkeyed]; rfl) k (List.mem_of_getElem? hk)
      obtain ⟨p, hp⟩ := Option.isSome_iff_exists.mp hsome
      obtain ⟨key, hkey, hpair⟩ := Option.bind_eq_some_iff.mp hp
      have hat : keyAt env docs k = key := by
        show (freshnessAt env docs k).getD _ = key
        rw [show freshnessAt env docs k = some key from hkey, Option.getD_some]
      rw [Option.bind_some, Option.map_some, hp, ← Option.some.inj hpair, hat]
  obtain ⟨a, b, rest, rfl⟩ : ∃ a b rest, members = a :: b :: rest := by
    match members, hlen with
    | a :: b :: rest, _ => exact ⟨a, b, rest, rfl⟩
  rw [hmap, List.map_cons, List.map_cons] at hd
  have hbest := firstMax_map (fun p : ℕ × PyFloat × PyFloat => p.2)
    (fun k => (k, keyAt env docs k)) a (b :: rest)
  have hfilter := (Option.some.inj hd).symm
  dsimp only at hfilter hbest
  rw [List.map_cons] at hbest
  rw [hbest] at hfilter
  exact hfilter

/-- The canonical record of a component is not dropped. -/
lemma canonicalOf_notMem_dropped (hon : Deduplicates env) {dropped : List (List ℕ)}
    (h : (variantGroups env docs).mapM (droppedOf env docs) = some dropped) (hi : i < docs.length) :
    canonicalOf env docs i ∉ dropped.flatten := by
  intro hmem
  obtain ⟨d, hd, hcd⟩ := List.mem_flatten.mp hmem
  obtain ⟨k, hk⟩ := List.mem_iff_getElem?.mp hd
  rw [getElem?_of_mapM h] at hk
  obtain ⟨members, hmembers, hdropped⟩ := Option.bind_eq_some_iff.mp hk
  obtain ⟨hgroup, htwo⟩ := List.mem_filter.mp (List.mem_of_getElem? hmembers)
  have heq := @droppedOf_eq env docs i members d (of_decide_eq_true htwo) hdropped
  rw [heq] at hcd
  obtain ⟨hc, hne⟩ := List.mem_filter.mp hcd
  -- the group is the component
  have hcomponent : members = component env docs i := by
    classical
    obtain ⟨root, -, rfl⟩ := List.mem_map.mp hgroup
    unfold component
    refine List.filter_congr fun j _ => ?_
    have hroot := of_decide_eq_true (List.mem_filter.mp hc).2
    have hsame := (@canonicalOf_mem env docs i hi).2
    rw [decide_eq_decide, ← hroot, find_eq_iff_component hon]
    exact ⟨fun hj => .trans _ _ _ hsame (.symm _ _ hj), fun hj => .trans _ _ _ (.symm _ _ hj) hsame⟩
  rw [hcomponent] at hne
  exact of_decide_eq_true hne rfl

lemma semanticDedup_eq_canonicalRecords (h : semanticDedup env docs = some out) :
    out = (canonicalRecords env docs).map Prod.fst := by
  by_cases hshort : ¬Deduplicates env ∨ docs.length < 2
  · have hnone : ∀ i j, ¬Linked env docs i j := unlinked_of_short hshort
    have hall : canonicalRecords env docs = docs.zipIdx := by
      refine List.filter_eq_self.mpr fun e he => decide_eq_true ?_
      have hlt := (List.getElem?_eq_some_iff.mp (List.mem_zipIdx_iff_getElem?.mp he)).1
      exact (eq_of_sameComponent hnone (canonicalOf_mem hlt).2).symm
    rw [semanticDedup_of_unlinked hnone] at h
    rw [hall, List.zipIdx_map_fst, Option.some.inj h]
  · obtain ⟨hon, hlen⟩ := not_or.mp hshort
    rw [not_not] at hon
    rw [semanticDedup_eq hon (by omega)] at h
    obtain ⟨dropped, hdropped, rfl⟩ := Option.map_eq_some_iff.mp h
    unfold canonicalRecords
    congr 1
    refine List.filter_congr fun e he => ?_
    rw [decide_eq_decide]
    have hlt := (List.getElem?_eq_some_iff.mp (List.mem_zipIdx_iff_getElem?.mp he)).1
    obtain ⟨c, hc, hsurvives, -⟩ := exists_survivor hon hdropped hlt
    have hcanonical : canonicalOf env docs e.2 = c := by
      by_contra hne
      exact canonicalOf_notMem_dropped hon hdropped hlt
        ((hsurvives _ (canonicalOf_mem hlt).2).mpr hne)
    rw [hcanonical, hsurvives e.2 (.refl _), not_not, eq_comm]

/-! ## What the filter keeps -/

lemma mem_validItems {records : List PackRecord} (h : validItems env records = some items)
    {it : Item} :
    it ∈ items ↔ records[it.index]? = some it.record ∧ rank env it.record = some it.rank ∧
      it.cost = estimateTokens env.rt it.record ∧ it.rank.ge (.finite 0) = true := by
  obtain ⟨ranked, hranked, h⟩ := Option.bind_eq_some_iff.mp h
  rw [Option.pure_def, Option.some.injEq] at h
  have hget := getElem?_of_mapM hranked
  rw [← h, List.mem_filter]
  constructor
  · rintro ⟨hmem, hge⟩
    obtain ⟨k, hk⟩ := List.mem_iff_getElem?.mp hmem
    rw [hget, List.getElem?_zipIdx, Nat.zero_add] at hk
    obtain ⟨e, he, hit⟩ := Option.bind_eq_some_iff.mp hk
    obtain ⟨r, hr, rfl⟩ := Option.map_eq_some_iff.mp he
    obtain ⟨x, hx, hpure⟩ := Option.bind_eq_some_iff.mp hit
    obtain rfl := Option.some.inj hpure
    exact ⟨hr, hx, rfl, hge⟩
  · rintro ⟨hr, hx, hcost, hge⟩
    refine ⟨List.mem_of_getElem? (i := it.index) ?_, hge⟩
    rw [hget, List.getElem?_zipIdx, Nat.zero_add, hr, Option.map_some, Option.bind_some, hx, ← hcost]
    rfl

/-- There is a record at the position, and it is not superseded. -/
def IsLive (env : PackEnv) (docs : List PackRecord) (i : ℕ) : Prop :=
  ∃ r, docs[i]? = some r ∧ isSuperseded env.rt r = false

/-- The record at the position is not superseded, and its rank is not negative. -/
def IsLiveCandidate (env : PackEnv) (docs : List PackRecord) (i : ℕ) : Prop :=
  ∃ r x, docs[i]? = some r ∧ isSuperseded env.rt r = false ∧ rank env r = some x ∧
    x.ge (.finite 0) = true

/-- Of each component with a live record a live record is among the candidates. -/
def LiveFactsRemain (env : PackEnv) (docs : List PackRecord) (items : List Item) : Prop :=
  ∀ i, IsLive env docs i → ∃ it ∈ items, isSuperseded env.rt it.record = false ∧
    ∃ e, (canonicalRecords env docs)[it.index]? = some e ∧ SameComponent env docs i e.2

/-- **Live facts.**  What the removal returns are the first of the freshest records of the
components.  After the filter each fact with a live record has one among the candidates exactly if
the first of its freshest records is live and its rank is not negative. -/
theorem liveFactsRemain_iff (hout : semanticDedup env docs = some out)
    (hitems : validItems env out = some items) :
    out = (canonicalRecords env docs).map Prod.fst ∧
      (LiveFactsRemain env docs items ↔
        ∀ i, IsLive env docs i → IsLiveCandidate env docs (canonicalOf env docs i)) := by
  have hcanonical := semanticDedup_eq_canonicalRecords hout
  refine ⟨hcanonical, forall_congr' fun i => imp_congr_right fun hlive => ?_⟩
  obtain ⟨r, hr, -⟩ := hlive
  have hi : i < docs.length := (List.getElem?_eq_some_iff.mp hr).1
  have hrecord : ∀ (k : ℕ) (e : PackRecord × ℕ), (canonicalRecords env docs)[k]? = some e →
      out[k]? = some e.1 := by
    intro k e he
    rw [hcanonical, List.getElem?_map, he, Option.map_some]
  constructor
  · rintro ⟨it, hit, hsup, e, he, hie⟩
    obtain ⟨hget, hrank, -, hge⟩ := (mem_validItems hitems).mp hit
    obtain ⟨hdoc, hself⟩ := mem_canonicalRecords.mp (List.mem_of_getElem? he)
    have hit' : it.record = e.1 := Option.some.inj (hget.symm.trans (hrecord _ e he))
    rw [canonicalOf_congr hi hie, hself]
    exact ⟨it.record, it.rank, hit' ▸ hdoc, hsup, hrank, hge⟩
  · rintro ⟨s, x, hs, hsup, hx, hge⟩
    have hmem : (s, canonicalOf env docs i) ∈ canonicalRecords env docs :=
      mem_canonicalRecords.mpr ⟨hs, canonicalOf_canonicalOf hi⟩
    obtain ⟨k, hk⟩ := List.mem_iff_getElem?.mp hmem
    refine ⟨⟨k, s, x, estimateTokens env.rt s⟩, ?_, hsup, _, hk, (canonicalOf_mem hi).2⟩
    exact (mem_validItems hitems).mpr ⟨hrecord k _ hk, hx, rfl, hge⟩

/-! ## A superseded variant -/

/-- A record of the gateway with a timestamp, superseded or not. -/
def statedRecord (superseded : Bool) (timestamp : ℚ) : PackRecord where
  isDict := true
  isModel := false
  fields := .ofEntries [("subject", .str "gateway"), ("predicate", .str "colour"),
    ("object", .str "blue"), ("timestamp", .number (Runtime.sample.floatLit timestamp)),
    ("is_superseded", .bool superseded)]

/-- Of a live record and a superseded one that is newer no candidate is left. -/
theorem live_fact_lost :
    ∃ out items, semanticDedup slotEnv [statedRecord false 1, statedRecord true 2] = some out ∧
      validItems slotEnv out = some items ∧ items = [] ∧
        ¬LiveFactsRemain slotEnv [statedRecord false 1, statedRecord true 2] items := by
  have hrun : ((semanticDedup slotEnv [statedRecord false 1, statedRecord true 2]).bind
      (validItems slotEnv)).map List.isEmpty = some true := by decide +kernel
  obtain ⟨items, hitems, hempty⟩ := Option.map_eq_some_iff.mp hrun
  obtain ⟨out, hout, hvalid⟩ := Option.bind_eq_some_iff.mp hitems
  have hnil : items = [] := List.isEmpty_iff.mp hempty
  refine ⟨out, items, hout, hvalid, hnil, fun hremain => ?_⟩
  obtain ⟨it, hit, -⟩ := hremain 0 ⟨statedRecord false 1, rfl, by decide +kernel⟩
  rw [hnil] at hit
  exact List.not_mem_nil hit

/-- Of two live records one is a candidate. -/
theorem liveFactsRemain_two :
    ∃ out items, semanticDedup slotEnv [statedRecord false 1, statedRecord false 1] = some out ∧
      validItems slotEnv out = some items ∧
        LiveFactsRemain slotEnv [statedRecord false 1, statedRecord false 1] items := by
  have hrun : ((semanticDedup slotEnv [statedRecord false 1, statedRecord false 1]).bind
      (validItems slotEnv)).isSome = true := by decide +kernel
  obtain ⟨items, hitems⟩ := Option.isSome_iff_exists.mp hrun
  obtain ⟨out, hout, hvalid⟩ := Option.bind_eq_some_iff.mp hitems
  refine ⟨out, items, hout, hvalid, (liveFactsRemain_iff hout hvalid).2.mpr ?_⟩
  rintro i ⟨r, hr, -⟩
  have hlt := (@canonicalOf_mem slotEnv _ i (List.getElem?_eq_some_iff.mp hr).1).1
  refine ⟨statedRecord false 1, .finite 1, ?_, by decide +kernel, by decide +kernel,
    by decide +kernel⟩
  generalize canonicalOf slotEnv [statedRecord false 1, statedRecord false 1] i = c at hlt ⊢
  have hlt' : c < 2 := hlt
  interval_cases c
  · rfl
  · rfl

end Packing

end AtlasMemory
