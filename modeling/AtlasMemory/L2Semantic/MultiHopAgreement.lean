import AtlasMemory.L2Semantic.MultiHopPaths

/-!
# The two searches for paths agree

A path on disk shows its relations, so no two walks give the same one; a path in memory shows its
nodes only.  So where the answers are the same, parallel edges on a path in memory would make two
paths that are the same, and the walks of the two searches are the same walks.
-/

namespace AtlasMemory

open Walks

/-! ## Walks over edges -/

section Walking

variable {es : List Edge} {s t : String} {p q : List Edge}

lemma mem_edgesFrom {e : Edge} {n : String} : e ∈ edgesFrom es n ↔ e ∈ es ∧ e.subject = n := by
  simp [edgesFrom]

lemma mem_of_isWalk (h : IsWalk (edgesFrom es) Edge.object s p t) {e : Edge} (he : e ∈ p) :
    e ∈ es := by
  induction p generalizing s with
  | nil => exact absurd he List.not_mem_nil
  | cons a p ih =>
      rcases List.mem_cons.mp he with rfl | he
      · exact (mem_edgesFrom.mp h.1).1
      · exact ih h.2 he

lemma IsWalk.of_subset {es' : List Edge} (h : IsWalk (edgesFrom es) Edge.object s p t)
    (hsub : ∀ e ∈ p, e ∈ es') : IsWalk (edgesFrom es') Edge.object s p t := by
  induction p generalizing s with
  | nil => exact h
  | cons a p ih =>
      obtain ⟨ha, hp⟩ := List.forall_mem_cons.mp hsub
      exact ⟨mem_edgesFrom.mpr ⟨ha, (mem_edgesFrom.mp h.1).2⟩, ih h.2 hp⟩

/-- The pairs of nodes of a walk are the ends of its edges. -/
lemma consecutive_nodesOf (h : IsWalk (edgesFrom es) Edge.object s p t) :
    consecutive (nodesOf Edge.object s p) = p.map fun e => (e.subject, e.object) := by
  induction p generalizing s with
  | nil => rfl
  | cons a p ih =>
      have hfirst := (mem_edgesFrom.mp h.1).2
      have hrest := ih h.2
      simp only [consecutive, nodesOf, List.map_cons, List.tail_cons, List.zip_cons_cons] at hrest ⊢
      rw [hrest, hfirst]

/-- A walk is determined by its nodes and its predicates. -/
lemma walk_ext {es' : List Edge} {t' : String} (hp : IsWalk (edgesFrom es) Edge.object s p t)
    (hq : IsWalk (edgesFrom es') Edge.object s q t')
    (hnodes : nodesOf Edge.object s p = nodesOf Edge.object s q)
    (hpredicates : p.map Edge.predicate = q.map Edge.predicate) : p = q := by
  induction p generalizing s q with
  | nil =>
      rw [List.map_nil] at hpredicates
      exact (List.map_eq_nil_iff.mp hpredicates.symm).symm
  | cons a p ih =>
      cases q with
      | nil => exact absurd hpredicates (by simp)
      | cons b q =>
          obtain ⟨hpredicate, hrest⟩ := List.cons.inj hpredicates
          obtain ⟨hobject, hobjects⟩ := List.cons.inj (List.cons.inj hnodes).2
          have hsubject : a.subject = b.subject :=
            (mem_edgesFrom.mp hp.1).2.trans (mem_edgesFrom.mp hq.1).2.symm
          have hsame : a = b := by
            cases a
            cases b
            simp_all
          subst hsame
          rw [ih hp.2 hq.2 (by rw [nodesOf, nodesOf, hobjects]) hrest]

/-- An edge of a simple walk can be replaced by a parallel one. -/
lemma IsSimpleWalk.replace {before after : List Edge} {e e' : Edge}
    (h : IsSimpleWalk (edgesFrom es) Edge.object s (before ++ e :: after) t) (he' : e' ∈ es)
    (hsubject : e'.subject = e.subject) (hobject : e'.object = e.object) :
    IsSimpleWalk (edgesFrom es) Edge.object s (before ++ e' :: after) t ∧
      nodesOf Edge.object s (before ++ e' :: after) =
        nodesOf Edge.object s (before ++ e :: after) := by
  have hnodes : nodesOf Edge.object s (before ++ e' :: after) =
      nodesOf Edge.object s (before ++ e :: after) := by
    simp only [nodesOf, List.map_append, List.map_cons, hobject]
  refine ⟨⟨?_, by rw [hnodes]; exact h.2⟩, hnodes⟩
  obtain ⟨c, hbefore, he, hafter⟩ := isWalk_append.mp h.1
  refine isWalk_append.mpr ⟨c, hbefore, ?_, ?_⟩
  · exact mem_edgesFrom.mpr ⟨he', hsubject.trans (mem_edgesFrom.mp he).2⟩
  · rw [hobject]
    exact hafter

end Walking

namespace KuzuGraphStore

variable {g : KuzuGraphStore} {source target : String} {p : List Edge}

/-! ## The records of walks -/

def diskPath (g : KuzuGraphStore) (source target : String) (rels : List Edge) : MultiHopPath :=
  ⟨source, target, nodesOf Edge.object source rels,
    rels.map fun e => g.diskEdge (e.subject, e.object) e⟩

lemma diskPath?_eq {es : List Edge} (h : IsWalk (edgesFrom es) Edge.object source p target)
    (hne : p ≠ []) : g.diskPath? source target p =
      if (nodesOf Edge.object source p).Nodup then some (g.diskPath source target p) else none := by
  have hlength : ¬ (nodesOf Edge.object source p).length < 2 := by
    have hpos := List.length_pos_iff.mpr hne
    simp only [nodesOf, List.length_cons, List.length_map]
    omega
  have hedges : (((consecutive (nodesOf Edge.object source p)).zip p).map fun x =>
      g.diskEdge x.1 x.2) = p.map fun e => g.diskEdge (e.subject, e.object) e := by
    have hzip : (p.map fun e => (e.subject, e.object)).zip p =
        p.map fun e => ((e.subject, e.object), e) := by
      simpa using @List.zip_map' _ _ _ (fun e : Edge => (e.subject, e.object)) id p
    rw [consecutive_nodesOf h, hzip, List.map_map]
    rfl
  simp only [diskPath?, hedges, hlength, false_or, ite_not]
  split_ifs with hnodup hcount
  · rfl
  · simp [nodesOf] at hcount
  · rfl

lemma ramPath_eq {es : List Edge} (h : IsWalk (edgesFrom es) Edge.object source p target) :
    g.ramPath source target (nodesOf Edge.object source p) =
      ⟨source, target, nodesOf Edge.object source p,
        p.map fun e => g.ramEdge (e.subject, e.object)⟩ := by
  rw [ramPath, consecutive_nodesOf h, List.map_map]
  rfl

lemma edgesBetween_of_alone {e : Edge} {attrs : EdgeAttrs} (he : g.edges.get? e = some attrs)
    (halone : g.Alone e) : g.edgesBetween e.subject e.object = [(e, attrs)] := by
  have hentries : g.edges.entries.Nodup := List.Nodup.of_map Prod.fst g.edges.nodupKeys
  have hmem : ∀ x, x ∈ g.edgesBetween e.subject e.object ↔ x ∈ [(e, attrs)] := by
    rintro ⟨e', attrs'⟩
    rw [edgesBetween, List.mem_filter, PyDict.mem_entries_iff, List.mem_singleton]
    simp only [decide_eq_true_eq]
    constructor
    · rintro ⟨hget, hsubject, hobject⟩
      have hsame := halone e' (PyDict.mem_keys_of_get? hget) hsubject hobject
      subst hsame
      rw [Option.some.inj (hget.symm.trans he)]
    · intro hsame
      obtain ⟨rfl, rfl⟩ := Prod.mk.inj hsame
      exact ⟨he, rfl, rfl⟩
  have hperm := (List.perm_ext_iff_of_nodup (hentries.filter _) (List.nodup_singleton _)).mpr hmem
  exact List.perm_singleton.mp hperm

lemma ramEdge_of_alone {e : Edge} {attrs : EdgeAttrs} (he : g.edges.get? e = some attrs)
    (halone : g.Alone e) : g.ramEdge (e.subject, e.object) =
      ⟨e.subject, if e.predicate = "predicate" then .attributes e else .text e.predicate, e.object,
        if e.predicate = "confidence" then .attributes e else .number attrs.confidence⟩ := by
  have hbetween := edgesBetween_of_alone he halone
  simp only [ramEdge, edgeDatum, hbetween, List.find?_cons, List.find?_nil, bestEdge,
    List.foldl_cons, List.foldl_nil, Option.map_some, Option.getD_some]
  by_cases hpredicate : e.predicate = "predicate"
  · simp [hpredicate]
  · by_cases hconfidence : e.predicate = "confidence"
    · simp [hconfidence]
    · simp [hpredicate, hconfidence]

/-- An edge that is read alike gives the same edge of a path. -/
lemma ramEdge_eq_diskEdge {e : Edge} (hcopied : g.Copied) (h : g.ReadsAlike e) :
    g.ramEdge (e.subject, e.object) = g.diskEdge (e.subject, e.object) e := by
  obtain ⟨row, hrow⟩ := Option.isSome_iff_exists.mp (PyDict.mem_keys_iff.mp h.relation)
  obtain ⟨attrs, hattrs, hconfidence⟩ := hcopied.held e row hrow
  rw [ramEdge_of_alone hattrs h.alone, if_neg h.not_predicate, if_neg h.not_confidence,
    hconfidence, diskEdge, hrow]
  rfl

/-- An edge without a parallel one that gives the same edge of a path as a relation on disk has its
predicate, and no name of an attribute. -/
lemma predicate_of_ramEdge_eq {e e' : Edge} (he : e ∈ g.edges.keys) (halone : g.Alone e)
    (h : g.ramEdge (e.subject, e.object) = g.diskEdge (e'.subject, e'.object) e') :
    e.predicate = e'.predicate ∧ e.predicate ≠ "predicate" ∧ e.predicate ≠ "confidence" := by
  obtain ⟨attrs, hattrs⟩ := Option.isSome_iff_exists.mp (PyDict.mem_keys_iff.mp he)
  rw [ramEdge_of_alone hattrs halone] at h
  obtain ⟨-, hpredicate, -, hconfidence⟩ := PathEdge.mk.inj h
  split_ifs at hpredicate with hp
  split_ifs at hconfidence with hc
  exact ⟨EdgeDatum.text.inj hpredicate, hp, hc⟩

/-! ## The walks of the two searches -/

variable {db : PathSearches} {maxHops : ℤ}

/-- The walks on disk whose paths are kept. -/
def diskWalks (g : KuzuGraphStore) (db : PathSearches) (source target : String) (maxHops : ℤ) :
    List (List Edge) :=
  (db.matchWalks g.disk.relations.keys source target (cappedHops maxHops)).filter fun p =>
    decide (nodesOf Edge.object source p).Nodup

lemma mem_diskWalks : p ∈ g.diskWalks db source target maxHops ↔
    p ≠ [] ∧ p.length ≤ cappedHops maxHops ∧
      IsSimpleWalk (edgesFrom g.disk.relations.keys) Edge.object source p target := by
  rw [diskWalks, List.mem_filter, db.mem_matchWalks, decide_eq_true_eq, IsSimpleWalk,
    ← List.length_pos_iff]
  tauto

lemma nodup_diskWalks : (g.diskWalks db source target maxHops).Nodup :=
  (db.nodup_matchWalks _ _ _ _ g.disk.relations.nodupKeys).filter _

lemma kuzuMultiHopPaths_eq : g.kuzuMultiHopPaths db source target maxHops =
    (g.diskWalks db source target maxHops).map (g.diskPath source target) := by
  rw [kuzuMultiHopPaths, diskWalks, ← List.filterMap_eq_filter, List.map_filterMap]
  refine List.filterMap_congr fun p hp => ?_
  obtain ⟨hpos, -, hwalk⟩ := db.mem_matchWalks.mp hp
  rw [diskPath?_eq hwalk (List.length_pos_iff.mp hpos)]
  by_cases hnodup : (nodesOf Edge.object source p).Nodup
  · simp [Option.guard, hnodup]
  · simp [Option.guard, hnodup]

lemma diskPath_inj {q : List Edge} (hp : p ∈ g.diskWalks db source target maxHops)
    (hq : q ∈ g.diskWalks db source target maxHops)
    (h : g.diskPath source target p = g.diskPath source target q) : p = q := by
  obtain ⟨-, -, hnodes, hedges⟩ := MultiHopPath.mk.inj h
  refine walk_ext (mem_diskWalks.mp hp).2.2.1 (mem_diskWalks.mp hq).2.2.1 hnodes ?_
  have hread := congrArg (List.map PathEdge.predicate) hedges
  rw [List.map_map, List.map_map] at hread
  have htexts : (p.map Edge.predicate).map EdgeDatum.text =
      (q.map Edge.predicate).map EdgeDatum.text := by
    rw [List.map_map, List.map_map]
    exact hread
  exact List.map_injective_iff.mpr (fun _ _ => EdgeDatum.text.inj) htexts

/-- The walks in memory whose paths are given. -/
def ramWalks (g : KuzuGraphStore) (db : PathSearches) (source target : String) (maxHops : ℤ) :
    List (List Edge) :=
  db.allSimplePaths g.edges.keys source target maxHops

lemma mem_ramWalks : p ∈ g.ramWalks db source target maxHops ↔ (p.length : ℤ) ≤ maxHops ∧
    IsSimpleWalk (edgesFrom g.edges.keys) Edge.object source p target :=
  db.mem_allSimplePaths

lemma nodup_ramWalks : (g.ramWalks db source target maxHops).Nodup :=
  db.nodup_allSimplePaths _ _ _ _ g.edges.nodupKeys

def pathInMemory (g : KuzuGraphStore) (source target : String) (p : List Edge) : MultiHopPath :=
  g.ramPath source target (nodesOf Edge.object source p)

/-- A walk in memory whose edges are read alike has the path that it has on disk. -/
lemma pathInMemory_eq_diskPath {es : List Edge} (hcopied : g.Copied)
    (h : IsWalk (edgesFrom es) Edge.object source p target) (halike : ∀ e ∈ p, g.ReadsAlike e) :
    g.pathInMemory source target p = g.diskPath source target p := by
  rw [pathInMemory, ramPath_eq h, diskPath]
  have hedges : (p.map fun e => g.ramEdge (e.subject, e.object)) =
      p.map fun e => g.diskEdge (e.subject, e.object) e :=
    List.map_congr_left fun e he => ramEdge_eq_diskEdge hcopied (halike e he)
  rw [hedges]

/-! ## From agreeing searches to the same paths -/

lemma perm_of_searchesAgree (hcopied : g.Copied)
    (h : g.SearchesAgree source target maxHops) :
    (g.kuzuMultiHopPaths db source target maxHops).Perm
      ((g.ramWalks db source target maxHops).map (g.pathInMemory source target)) := by
  have hsame : ∀ p, p ∈ g.ramWalks db source target maxHops ↔
      p ∈ g.diskWalks db source target maxHops := by
    intro p
    rw [mem_ramWalks, mem_diskWalks]
    constructor
    · rintro ⟨hlength, hwalk⟩
      have hne : p ≠ [] := by
        rintro rfl
        have hself : source = target := hwalk.1
        have hneg := h.apart hself
        simp only [List.length_nil, Nat.cast_zero] at hlength
        omega
      obtain ⟨hcapped, halike⟩ := h.inMemory p hwalk hlength
      exact ⟨hne, hcapped,
        IsWalk.of_subset hwalk.1 (fun e he => (halike e he).relation), hwalk.2⟩
    · rintro ⟨hne, hcapped, hwalk⟩
      refine ⟨h.onDisk p hwalk hne hcapped, IsWalk.of_subset hwalk.1 (fun e he => ?_), hwalk.2⟩
      obtain ⟨row, hrow⟩ := Option.isSome_iff_exists.mp
        (PyDict.mem_keys_iff.mp (mem_of_isWalk hwalk.1 he))
      obtain ⟨attrs, hattrs, -⟩ := hcopied.held e row hrow
      exact PyDict.mem_keys_of_get? hattrs
  have hread : (g.ramWalks db source target maxHops).map (g.pathInMemory source target) =
      (g.ramWalks db source target maxHops).map (g.diskPath source target) := by
    refine List.map_congr_left fun p hp => ?_
    obtain ⟨hlength, hwalk⟩ := mem_ramWalks.mp hp
    exact pathInMemory_eq_diskPath hcopied hwalk.1 (h.inMemory p hwalk hlength).2
  rw [kuzuMultiHopPaths_eq, hread]
  exact ((List.perm_ext_iff_of_nodup nodup_diskWalks nodup_ramWalks).mpr
    fun p => (hsame p).symm).map _

/-! ## From the same paths to agreeing searches -/

section SamePaths

variable (hperm : (g.kuzuMultiHopPaths db source target maxHops).Perm
  ((g.ramWalks db source target maxHops).map (g.pathInMemory source target)))

include hperm

lemma pathInMemory_inj_of_perm {q : List Edge} (hp : p ∈ g.ramWalks db source target maxHops)
    (hq : q ∈ g.ramWalks db source target maxHops)
    (h : g.pathInMemory source target p = g.pathInMemory source target q) : p = q := by
  have hnodup : (g.kuzuMultiHopPaths db source target maxHops).Nodup := by
    rw [kuzuMultiHopPaths_eq]
    exact List.Nodup.map_on (fun p hp q hq => diskPath_inj hp hq) nodup_diskWalks
  exact List.inj_on_of_nodup_map (hperm.nodup_iff.mp hnodup) hp hq h

lemma alone_of_perm (hp : p ∈ g.ramWalks db source target maxHops) {e : Edge} (he : e ∈ p) :
    g.Alone e := by
  intro e' he' hsubject hobject
  obtain ⟨hlength, hwalk⟩ := mem_ramWalks.mp hp
  obtain ⟨before, after, rfl⟩ := List.append_of_mem he
  obtain ⟨hwalk', hnodes⟩ := IsSimpleWalk.replace hwalk he' hsubject hobject
  have hp' : before ++ e' :: after ∈ g.ramWalks db source target maxHops :=
    mem_ramWalks.mpr ⟨by simpa using hlength, hwalk'⟩
  have hpath : g.pathInMemory source target (before ++ e' :: after) =
      g.pathInMemory source target (before ++ e :: after) := by
    rw [pathInMemory, hnodes, pathInMemory]
  have hsame := pathInMemory_inj_of_perm hperm hp' hp hpath
  exact (List.cons.inj (List.append_cancel_left hsame)).1

/-- A walk in memory is the walk on disk with the same path, and its edges have no names of
attributes. -/
lemma mem_diskWalks_of_perm (hp : p ∈ g.ramWalks db source target maxHops) :
    p ∈ g.diskWalks db source target maxHops ∧
      g.diskPath source target p = g.pathInMemory source target p ∧
      ∀ e ∈ p, e.predicate ≠ "predicate" ∧ e.predicate ≠ "confidence" := by
  obtain ⟨-, hwalk⟩ := mem_ramWalks.mp hp
  have hmem : g.pathInMemory source target p ∈ g.kuzuMultiHopPaths db source target maxHops :=
    hperm.mem_iff.mpr (List.mem_map_of_mem hp)
  rw [kuzuMultiHopPaths_eq] at hmem
  obtain ⟨q, hq, hpath⟩ := List.mem_map.mp hmem
  have hwalkq := (mem_diskWalks.mp hq).2.2
  have hfields := hpath
  rw [pathInMemory, ramPath_eq hwalk.1, diskPath] at hfields
  obtain ⟨-, -, hnodes, hedges⟩ := MultiHopPath.mk.inj hfields
  have hread : ∀ (p' q' : List Edge), (∀ e ∈ p', e ∈ g.edges.keys ∧ g.Alone e) →
      (q'.map fun e => g.diskEdge (e.subject, e.object) e) =
        (p'.map fun e => g.ramEdge (e.subject, e.object)) →
      p'.map Edge.predicate = q'.map Edge.predicate ∧
        ∀ e ∈ p', e.predicate ≠ "predicate" ∧ e.predicate ≠ "confidence" := by
    intro p'
    induction p' with
    | nil =>
        intro q' _ hq'
        rw [List.map_eq_nil_iff.mp hq']
        simp
    | cons a p' ih =>
        intro q' hall hq'
        cases q' with
        | nil => exact absurd hq' (by simp)
        | cons b q' =>
            obtain ⟨hfirst, hrest⟩ := List.cons.inj hq'
            obtain ⟨⟨ha, halone⟩, hall⟩ := List.forall_mem_cons.mp hall
            obtain ⟨hpredicate, hplain⟩ := predicate_of_ramEdge_eq ha halone hfirst.symm
            obtain ⟨hpredicates, hplains⟩ := ih q' hall hrest
            exact ⟨by rw [List.map_cons, List.map_cons, hpredicate, hpredicates],
              List.forall_mem_cons.mpr ⟨hplain, hplains⟩⟩
  obtain ⟨hpredicates, hplain⟩ := hread p q
    (fun e he => ⟨mem_of_isWalk hwalk.1 he, alone_of_perm hperm hp he⟩) hedges
  have hsame := walk_ext hwalk.1 hwalkq.1 hnodes.symm hpredicates
  subst hsame
  exact ⟨hq, hpath, hplain⟩

lemma searchesAgree_of_perm : g.SearchesAgree source target maxHops where
  apart := by
    rintro rfl
    by_contra hnonneg
    have hp : [] ∈ g.ramWalks db source source maxHops :=
      mem_ramWalks.mpr ⟨by simpa using hnonneg, rfl, List.nodup_singleton source⟩
    exact (mem_diskWalks.mp (mem_diskWalks_of_perm hperm hp).1).1 rfl
  inMemory p hwalk hlength := by
    have hp : p ∈ g.ramWalks db source target maxHops := mem_ramWalks.mpr ⟨hlength, hwalk⟩
    obtain ⟨hdisk, -, hplain⟩ := mem_diskWalks_of_perm hperm hp
    obtain ⟨-, hcapped, hwalkDisk⟩ := mem_diskWalks.mp hdisk
    exact ⟨hcapped, fun e he => ⟨mem_of_isWalk hwalkDisk.1 he, alone_of_perm hperm hp he,
      (hplain e he).1, (hplain e he).2⟩⟩
  onDisk p hwalk hne hcapped := by
    have hp : p ∈ g.diskWalks db source target maxHops := mem_diskWalks.mpr ⟨hne, hcapped, hwalk⟩
    have hmem : g.diskPath source target p ∈
        (g.ramWalks db source target maxHops).map (g.pathInMemory source target) := by
      refine hperm.mem_iff.mp ?_
      rw [kuzuMultiHopPaths_eq]
      exact List.mem_map_of_mem hp
    obtain ⟨q, hq, hpath⟩ := List.mem_map.mp hmem
    obtain ⟨hdisk, hread, -⟩ := mem_diskWalks_of_perm hperm hq
    have hsame : q = p := diskPath_inj hdisk hp (hread.trans hpath)
    rw [← hsame]
    exact (mem_ramWalks.mp hq).1

end SamePaths

/-- Where disk and memory have the same relations, the query and the search give the same paths,
each as often, if and only if one of the nodes is not there or the searches agree. -/
theorem executeMultiHopCypher_perm_iff (db : PathSearches) (hcopied : g.Copied)
    (source target : String) (maxHops : ℤ) :
    (g.executeMultiHopCypher db true source target maxHops).Perm
        (g.executeMultiHopCypher db false source target maxHops) ↔
      (source ∈ g.nodes.keys → target ∈ g.nodes.keys →
        g.SearchesAgree source target maxHops) := by
  by_cases hnodes : source ∈ g.nodes.keys ∧ target ∈ g.nodes.keys
  · have hboth : (g.nodes.contains source && g.nodes.contains target) = true := by
      rw [Bool.and_eq_true]
      exact ⟨PyDict.mem_keys_iff.mp hnodes.1, PyDict.mem_keys_iff.mp hnodes.2⟩
    simp only [executeMultiHopCypher, hboth, if_true]
    constructor
    · intro hperm _ _
      exact searchesAgree_of_perm hperm
    · intro hagree
      exact perm_of_searchesAgree hcopied (hagree hnodes.1 hnodes.2)
  · have hnot : ¬ (g.nodes.contains source && g.nodes.contains target) = true := by
      rw [Bool.and_eq_true]
      rintro ⟨hsource, htarget⟩
      exact hnodes ⟨PyDict.mem_keys_iff.mpr hsource, PyDict.mem_keys_iff.mpr htarget⟩
    simp only [executeMultiHopCypher, if_neg hnot]
    refine iff_of_true (List.Perm.refl _) fun hsource htarget => ?_
    exact absurd ⟨hsource, htarget⟩ hnodes

end KuzuGraphStore

/-! ## Two relations between two services -/

def endOf (s : String) (p : List Edge) : String := (p.map Edge.object).getLastD s

lemma isWalk_iff_endOf {es : List Edge} {s t : String} {p : List Edge} :
    IsWalk (edgesFrom es) Edge.object s p t ↔
      (∃ b, IsWalk (edgesFrom es) Edge.object s p b) ∧ endOf s p = t := by
  constructor
  · intro h
    exact ⟨⟨t, h⟩, h.end_eq.symm⟩
  · rintro ⟨⟨b, h⟩, rfl⟩
    rw [endOf, ← h.end_eq]
    exact h

lemma nodup_edgesFrom {es : List Edge} (h : es.Nodup) (n : String) : (edgesFrom es n).Nodup :=
  h.filter _

/-- Searches that list the walks one after the other. -/
def listedSearches : PathSearches where
  matchWalks es s t hops :=
    (walksUpTo (edgesFrom es) Edge.object hops s).filter fun p => decide (endOf s p = t)
  nodup_matchWalks es s t hops hes :=
    (nodup_walksUpTo (nodup_edgesFrom hes) hops s).filter _
  mem_matchWalks {es s t hops p} := by
    rw [List.mem_filter, mem_walksUpTo, decide_eq_true_eq, isWalk_iff_endOf]
    tauto
  allSimplePaths es s t cutoff :=
    if cutoff < 0 then []
    else ([] :: extensions (edgesFrom es) Edge.object cutoff.toNat s [s]).filter fun p =>
      decide (endOf s p = t)
  nodup_allSimplePaths es s t cutoff hes := by
    split_ifs
    · exact List.nodup_nil
    · refine List.Nodup.filter _ (List.nodup_cons.mpr ⟨fun hmem => ?_, ?_⟩)
      · exact (mem_extensions.mp hmem).1 rfl
      · exact nodup_extensions (nodup_edgesFrom hes) _ _ _
  mem_allSimplePaths {es s t cutoff p} := by
    split_ifs with hneg
    · refine iff_of_false List.not_mem_nil fun h => ?_
      exact absurd (lt_of_le_of_lt h.1 hneg) (not_lt.mpr (Int.natCast_nonneg _))
    · have hlength : (p.length : ℤ) ≤ cutoff ↔ p.length ≤ cutoff.toNat :=
        (Int.le_toNat (not_lt.mp hneg)).symm
      rw [List.mem_filter, List.mem_cons, mem_extensions_self, decide_eq_true_eq, hlength]
      constructor
      · rintro ⟨rfl | ⟨-, hle, b, hb⟩, hend⟩
        · exact ⟨Nat.zero_le _, hend, List.nodup_singleton s⟩
        · exact ⟨hle, isWalk_iff_endOf.mpr ⟨⟨b, hb.1⟩, hend⟩, hb.2⟩
      · rintro ⟨hle, hwalk, hnodup⟩
        refine ⟨?_, (isWalk_iff_endOf.mp hwalk).2⟩
        by_cases hp : p = []
        · exact Or.inl hp
        · exact Or.inr ⟨hp, hle, t, hwalk, hnodup⟩

namespace KuzuGraphStore

/-- A graph with relations of the api on the database, in memory and on disk. -/
def dependencies (predicates : List String) : KuzuGraphStore where
  nodes := PyDict.ofKeys ["api", "db"] fun _ => ⟨"entity", false, none⟩
  edges := PyDict.ofKeys (predicates.map fun p => ⟨"api", p, "db"⟩) fun _ => ⟨1, 0, none⟩
  disk := { KuzuTables.empty with
    relations := PyDict.ofKeys (predicates.map fun p => ⟨"api", p, "db"⟩) fun _ => ⟨1, 0⟩ }

lemma copied_dependencies (predicates : List String) : (dependencies predicates).Copied where
  held e row h := by
    simp only [dependencies, PyDict.get?_ofKeys] at h ⊢
    split_ifs at h with hmem
    rw [if_pos hmem, ← Option.some.inj h]
    exact ⟨_, rfl, rfl⟩
  others e he hdisk := by
    refine absurd ?_ hdisk
    rw [PyDict.mem_keys_iff] at he ⊢
    simp only [dependencies, PyDict.get?_ofKeys] at he ⊢
    split_ifs at he ⊢ with hmem
    · rfl
    · exact he

/-- With one relation between the nodes the searches agree. -/
theorem searchesAgree_one_relation : (dependencies ["uses"]).SearchesAgree "api" "db" 5 :=
  (executeMultiHopCypher_perm_iff listedSearches (copied_dependencies ["uses"]) "api" "db" 5).mp
    (by decide +kernel) (by decide) (by decide)

/-- With two relations both paths in memory have the data of the first one. -/
theorem parallel_relations_differ : (dependencies ["uses", "needs"]).Copied ∧
    ¬ ((dependencies ["uses", "needs"]).executeMultiHopCypher listedSearches true "api" "db" 5).Perm
      ((dependencies ["uses", "needs"]).executeMultiHopCypher listedSearches false "api" "db" 5) :=
  ⟨copied_dependencies _, by decide +kernel⟩

end KuzuGraphStore

end AtlasMemory
