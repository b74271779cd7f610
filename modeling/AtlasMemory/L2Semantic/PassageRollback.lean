import AtlasMemory.L2Semantic.GraphRestart
import AtlasMemory.L2Semantic.PassageWrites
import Mathlib.Data.List.Induction

/-!
# The rollback of the index of a passage

The rollback deletes by name: the passage, under both of its identifiers, and the entities that the
call noted as created, each with all that hangs on it.  So it restores what there was exactly if
nothing under these names was there before, and everything that the call wrote elsewhere was there
as it was written (`rollback_restores_iff`).
-/

namespace AtlasMemory

namespace KuzuGraphStore

variable {g g' g'' : KuzuGraphStore} {passages entities : List String} {pid : String}
  {w : IndexWrite}

/-! ## What is compared, and the condition -/

/-- The same rows in the multigraph and on disk. -/
structure SameRows (g g' : KuzuGraphStore) : Prop where
  nodes : g.nodes.Agree g'.nodes
  edges : ∀ e, g.edges.get? e = g'.edges.get? e
  entities : g.disk.entities.Agree g'.disk.entities
  relations : ∀ e, g.disk.relations.get? e = g'.disk.relations.get? e
  passages : g.disk.passages.Agree g'.disk.passages
  contains : ∀ l, g.disk.contains.get? l = g'.disk.contains.get? l
  synonyms : ∀ l, g.disk.synonyms.get? l = g'.disk.synonyms.get? l

/-- Every edge and every link joins what there is. -/
structure Integrity (g : KuzuGraphStore) : Prop where
  closed : g.Closed
  relations : ∀ e row, g.disk.relations.get? e = some row →
    g.disk.entities.contains e.subject = true ∧ g.disk.entities.contains e.object = true
  contains : ∀ l weight, g.disk.contains.get? l = some weight →
    g.disk.passages.contains l.1 = true ∧ g.disk.entities.contains l.2 = true
  synonyms : ∀ l sim, g.disk.synonyms.get? l = some sim →
    g.disk.entities.contains l.1 = true ∧ g.disk.entities.contains l.2 = true

def IsEntityNode (nodes : PyDict String NodeAttrs) (n : String) : Prop :=
  ∃ attrs, nodes.get? n = some attrs ∧ attrs.type = "entity"

/-- What a write puts elsewhere than under the names of passages and entities is there already. -/
def IndexWrite.Found (passages entities : List String) (g : KuzuGraphStore) : IndexWrite → Prop
  | .entityNode n _ => n ∈ passages ++ entities ∨ IsEntityNode g.nodes n
  | .containsEdge _ ename _ _ => ename ∈ passages ++ entities ∨ g.nodes.contains ename = true
  | .synonymEdges ea eb _ _ =>
      (ea ∈ passages ++ entities ∨ IsEntityNode g.nodes ea) ∧
        (eb ∈ passages ++ entities ∨ IsEntityNode g.nodes eb)
  | .mergeEntity n _ _ => n ∈ entities ∨ g.disk.entities.contains n = true
  | .mergeSynonym u v sim =>
      u ∈ entities ∨ v ∈ entities ∨ ∃ old, g.disk.synonyms.get? (u, v) = some old ∧ sim ≤ old
  | _ => True

def IndexWrite.edgeAt (e : Edge) : IndexWrite → Option EdgeAttrs
  | .containsEdge pid ename weight now =>
      if ⟨pid, containsKey, ename⟩ = e then some ⟨weight, now, none⟩ else none
  | .synonymEdges ea eb sim now =>
      if ⟨eb, synonymKey, ea⟩ = e ∨ ⟨ea, synonymKey, eb⟩ = e then some ⟨sim, now, none⟩ else none
  | _ => none

/-- What the last write to an edge made of it. -/
def lastEdge (ws : List IndexWrite) (e : Edge) : Option EdgeAttrs :=
  ws.reverse.findSome? (IndexWrite.edgeAt e)

/-- The deletion of the passages and of the entities undoes the writes: nothing was there under
their names, and what was written elsewhere was there. -/
structure Undone (g : KuzuGraphStore) (passages entities : List String) (ws : List IndexWrite) :
    Prop where
  fresh : ∀ n ∈ passages ++ entities, g.nodes.contains n = false
  freshPassages : ∀ p ∈ passages, g.disk.passages.contains p = false
  freshEntities : ∀ n ∈ entities, g.disk.entities.contains n = false
  found : ∀ w ∈ ws, w.Found passages entities g
  edges : ∀ e attrs, lastEdge ws e = some attrs → e.subject ∉ passages ++ entities →
    e.object ∉ passages ++ entities → g.edges.get? e = some attrs

/-! ## The writes of one passage -/

/-- The write is one for the passage, or for entities. -/
def IndexWrite.OnPassage (pid : String) : IndexWrite → Prop
  | .passageNode p _ | .mergePassage p _ | .containsEdge p _ _ _ | .mergeContains p _ _ => p = pid
  | .entityNode _ type => type = "entity"
  | _ => True

/-- The operation is one for the passage, or for entities. -/
def GraphOp.OnPassage (pid : String) : GraphOp → Prop
  | .addPassage p _ _ | .addContains p _ _ _ _ => PyString.strip p = pid
  | .addEntity _ type => type = "entity"
  | .addSynonym .. => True
  | _ => False

lemma onPassage_opWrites {op : GraphOp} (h : op.OnPassage pid) :
    ∀ w ∈ opWrites op, w.OnPassage pid := by
  cases op with
  | addEntity name type =>
      have htype : type = "entity" := h
      simp [opWrites, IndexWrite.OnPassage, htype]
  | addPassage p sourceKey text =>
      have hp : PyString.strip p = pid := h
      rw [opWrites]
      split_ifs
      · rintro _ ⟨⟩
      · simp [IndexWrite.OnPassage, hp]
  | addContains p entityName weight now persistToKuzu =>
      have hp : PyString.strip p = pid := h
      rw [opWrites]
      split_ifs
      · rintro _ ⟨⟩
      · simp [IndexWrite.OnPassage, hp]
      · simp [IndexWrite.OnPassage, hp]
  | addSynonym ea eb sim now =>
      rw [opWrites]
      split_ifs
      · rintro _ ⟨⟩
      · simp [IndexWrite.OnPassage]
  | addRelation | removeEdge | markEntitySuperseded | rollbackDualNodeRecord
    | garbageCollectOrphans => exact absurd h id

lemma onPassage_indexOps {ie : OpenIE} {a : IndexArgs} {now : ℚ} {op : GraphOp}
    (h : op ∈ indexOps ie g a now) : op.OnPassage (PyString.strip a.sourceKey) := by
  have hstrip := PyString.strip_strip a.sourceKey
  unfold indexOps at h
  split_ifs at h
  · exact absurd h List.not_mem_nil
  · rcases List.mem_append.mp h with h | h
    · rcases List.mem_cons.mp h with rfl | h
      · exact hstrip
      · obtain ⟨ent, -, hent⟩ := List.mem_flatMap.mp h
        rcases List.mem_append.mp hent with hent | hent
        · split_ifs at hent
          · exact absurd hent List.not_mem_nil
          · rw [List.mem_singleton.mp hent]
            rfl
        · rw [List.mem_singleton.mp hent]
          exact hstrip
    · unfold synonymOps at h
      dsimp only at h
      split_ifs at h
      · exact absurd h List.not_mem_nil
      · obtain ⟨p, -, rfl⟩ := List.mem_map.mp h
        trivial

lemma onPassage_indexWrites {ie : OpenIE} {a : IndexArgs} {now : ℚ}
    (h : w ∈ indexWrites ie g a now) : w.OnPassage (PyString.strip a.sourceKey) := by
  obtain ⟨op, hop, hw⟩ := List.mem_flatMap.mp h
  exact onPassage_opWrites (onPassage_indexOps hop) w hw

lemma mem_of_mem_executed {fails : ℕ → Bool} {i : ℕ} {ws : List IndexWrite}
    (h : w ∈ (executed fails i ws).1) : w ∈ ws := by
  induction ws generalizing i with
  | nil => exact h
  | cons a as ih =>
      rw [executed] at h
      split_ifs at h
      · exact List.mem_cons_of_mem a (ih h)
      · exact absurd h List.not_mem_nil
      · rcases List.mem_cons.mp h with rfl | h
        · exact List.mem_cons_self
        · exact List.mem_cons_of_mem a (ih h)

/-! ## Nodes under one write -/

lemma addNode_of_isEntityNode {nodes : PyDict String NodeAttrs} {n : String}
    (h : IsEntityNode nodes n) : addNode nodes n "entity" = nodes := by
  obtain ⟨attrs, hget, htype⟩ := h
  refine PyDict.set_eq_self_iff.mpr ?_
  rw [hget]
  show some attrs = some { attrs with type := "entity" }
  rw [← htype]

lemma isEntityNode_addNode_self (nodes : PyDict String NodeAttrs) (n : String) :
    IsEntityNode (addNode nodes n "entity") n := by
  unfold addNode
  cases hget : nodes.get? n with
  | none => exact ⟨_, PyDict.get?_set_self .., rfl⟩
  | some attrs => exact ⟨_, PyDict.get?_set_self .., rfl⟩

lemma isEntityNode_addNode {nodes : PyDict String NodeAttrs} {n : String}
    (h : IsEntityNode nodes n) (m : String) : IsEntityNode (addNode nodes m "entity") n := by
  by_cases heq : m = n
  · rw [heq]
    exact isEntityNode_addNode_self nodes n
  · obtain ⟨attrs, hget, htype⟩ := h
    exact ⟨attrs, (PyDict.get?_set_of_ne _ _ heq).trans hget, htype⟩

lemma get?_ensureNode_of_contains {nodes : PyDict String NodeAttrs} {n : String} {attrs : NodeAttrs}
    (h : nodes.get? n = some attrs) (m type : String) :
    (ensureNode nodes m type).get? n = some attrs := by
  unfold ensureNode
  split_ifs with hm
  · exact h
  · have hne : m ≠ n := by
      rintro rfl
      rw [PyDict.contains, h] at hm
      exact hm rfl
    rw [PyDict.get?_set_of_ne _ _ hne, h]

/-- The nodes elsewhere, where a node is added that is there. -/
lemma get?_addNode_outside {nodes : PyDict String NodeAttrs} {names : List String} {m n : String}
    (hm : m ∈ names ∨ IsEntityNode nodes m) (hn : n ∉ names) :
    (addNode nodes m "entity").get? n = nodes.get? n := by
  rcases hm with hm | hm
  · exact PyDict.get?_set_of_ne _ _ fun heq => hn (heq ▸ hm)
  · rw [addNode_of_isEntityNode hm]

lemma get?_ensureNode_outside {nodes : PyDict String NodeAttrs} {names : List String}
    {m n type : String} (hm : m ∈ names ∨ nodes.contains m = true) (hn : n ∉ names) :
    (ensureNode nodes m type).get? n = nodes.get? n := by
  unfold ensureNode
  split_ifs with hcontains
  · rfl
  · exact PyDict.get?_set_of_ne _ _ fun heq => hn (heq ▸ hm.resolve_right hcontains)

/-- The nodes of a content, before its entity. -/
def withPassage (nodes : PyDict String NodeAttrs) (pid : String) : PyDict String NodeAttrs :=
  if nodes.contains pid then nodes else addPassageNode nodes pid ⟨pid, ""⟩

lemma get?_withPassage_of_ne (nodes : PyDict String NodeAttrs) {pid n : String} (h : pid ≠ n) :
    (withPassage nodes pid).get? n = nodes.get? n := by
  unfold withPassage
  split_ifs
  · rfl
  · exact PyDict.get?_set_of_ne _ _ h

/-! ## Rows elsewhere -/

/-- What a write finds depends on the rows elsewhere only. -/
lemma found_congr (hnodes : ∀ n, n ∉ passages ++ entities → g.nodes.get? n = g'.nodes.get? n)
    (hentities : ∀ n, n ∉ entities → g.disk.entities.get? n = g'.disk.entities.get? n)
    (hsynonyms : ∀ l : String × String, l.1 ∉ entities → l.2 ∉ entities →
      g.disk.synonyms.get? l = g'.disk.synonyms.get? l)
    (hw : w.Found passages entities g) : w.Found passages entities g' := by
  have hnode : ∀ n, n ∈ passages ++ entities ∨ IsEntityNode g.nodes n →
      n ∈ passages ++ entities ∨ IsEntityNode g'.nodes n := by
    intro n hn
    by_cases hmem : n ∈ passages ++ entities
    · exact Or.inl hmem
    · obtain ⟨attrs, hget, htype⟩ := hn.resolve_left hmem
      exact Or.inr ⟨attrs, (hnodes n hmem).symm.trans hget, htype⟩
  cases w with
  | entityNode n type => exact hnode n hw
  | containsEdge p ename weight now =>
      by_cases hmem : ename ∈ passages ++ entities
      · exact Or.inl hmem
      · refine Or.inr ?_
        rw [PyDict.contains, ← hnodes ename hmem]
        exact Or.resolve_left hw hmem
  | synonymEdges ea eb sim now => exact ⟨hnode ea hw.1, hnode eb hw.2⟩
  | mergeEntity n type guarded =>
      by_cases hmem : n ∈ entities
      · exact Or.inl hmem
      · refine Or.inr ?_
        rw [PyDict.contains, ← hentities n hmem]
        exact Or.resolve_left hw hmem
  | mergeSynonym u v sim =>
      by_cases hu : u ∈ entities
      · exact Or.inl hu
      · by_cases hv : v ∈ entities
        · exact Or.inr (Or.inl hv)
        · obtain ⟨old, hget, hle⟩ := Or.resolve_left (Or.resolve_left hw hu) hv
          exact Or.inr (Or.inr ⟨old, (hsynonyms (u, v) hu hv).symm.trans hget, hle⟩)
  | created n => trivial
  | passageNode p row => trivial
  | mergePassage p row => trivial
  | mergeContains p ename weight => trivial

/-- The same rows elsewhere than under the names of passages and entities, edges apart. -/
structure SameOutside (passages entities : List String) (g g' : KuzuGraphStore) : Prop where
  nodes : ∀ n, n ∉ passages ++ entities → g'.nodes.get? n = g.nodes.get? n
  entityRows : ∀ n, n ∉ entities → g'.disk.entities.get? n = g.disk.entities.get? n
  relations : g'.disk.relations = g.disk.relations
  passageRows : ∀ p, p ∉ passages → g'.disk.passages.get? p = g.disk.passages.get? p
  contains : ∀ l, l.1 ∉ passages → l.2 ∉ entities →
    g'.disk.contains.get? l = g.disk.contains.get? l
  synonyms : ∀ l, l.1 ∉ entities → l.2 ∉ entities →
    g'.disk.synonyms.get? l = g.disk.synonyms.get? l

namespace SameOutside

lemma refl (g : KuzuGraphStore) : SameOutside passages entities g g :=
  ⟨fun _ _ => rfl, fun _ _ => rfl, rfl, fun _ _ => rfl, fun _ _ _ => rfl, fun _ _ _ => rfl⟩

lemma trans (h : SameOutside passages entities g g') (h' : SameOutside passages entities g' g'') :
    SameOutside passages entities g g'' where
  nodes n hn := (h'.nodes n hn).trans (h.nodes n hn)
  entityRows n hn := (h'.entityRows n hn).trans (h.entityRows n hn)
  relations := h'.relations.trans h.relations
  passageRows p hp := (h'.passageRows p hp).trans (h.passageRows p hp)
  contains l hl hl' := (h'.contains l hl hl').trans (h.contains l hl hl')
  synonyms l hl hl' := (h'.synonyms l hl hl').trans (h.synonyms l hl hl')

lemma found (h : SameOutside passages entities g g') (hw : w.Found passages entities g) :
    w.Found passages entities g' :=
  found_congr (fun n hn => (h.nodes n hn).symm) (fun n hn => (h.entityRows n hn).symm)
    (fun l hl hl' => (h.synonyms l hl hl').symm) hw

end SameOutside

/-! ## Rows under one write -/

lemma get?_mergeEntity_of_contains {d : KuzuTables} {n : String} (h : d.entities.contains n = true)
    (type : String) : d.mergeEntity n type = d := if_pos h

lemma entities_mergeEntity_of_ne (d : KuzuTables) {m n : String} (h : m ≠ n) (type : String) :
    (d.mergeEntity m type).entities.get? n = d.entities.get? n := by
  unfold KuzuTables.mergeEntity
  split_ifs
  · rfl
  · exact PyDict.get?_set_of_ne _ _ h

lemma contains_mergeEntity_self (d : KuzuTables) (n type : String) :
    (d.mergeEntity n type).entities.contains n = true := by
  unfold KuzuTables.mergeEntity
  split_ifs with h
  · exact h
  · simp [PyDict.contains]

lemma mergeLink_of_le {links : PyDict (String × String) ℚ} {ends : String × String} {w old : ℚ}
    (h : links.get? ends = some old) (hle : w ≤ old) : KuzuTables.mergeLink links ends w = links := by
  refine PyDict.set_eq_self_iff.mpr ?_
  rw [h]
  show some old = some (KuzuTables.raised w old)
  rw [KuzuTables.raised, if_neg (not_lt.mpr hle)]

lemma le_raised_right (w old : ℚ) : old ≤ KuzuTables.raised w old := by
  unfold KuzuTables.raised
  split_ifs with h
  · exact h.le
  · exact le_rfl

lemma le_raised_left (w old : ℚ) : w ≤ KuzuTables.raised w old := by
  unfold KuzuTables.raised
  split_ifs with h
  · exact le_rfl
  · exact not_lt.mp h

lemma exists_mergeLink_self (links : PyDict (String × String) ℚ) (ends : String × String) (w : ℚ) :
    ∃ new, (KuzuTables.mergeLink links ends w).get? ends = some new ∧ w ≤ new := by
  refine ⟨_, PyDict.get?_set_self .., ?_⟩
  cases links.get? ends with
  | none => exact le_rfl
  | some old => exact le_raised_left w old

lemma exists_mergeLink {links : PyDict (String × String) ℚ} {ends : String × String} {sim old : ℚ}
    (h : links.get? ends = some old) (hle : sim ≤ old) (ends' : String × String) (w : ℚ) :
    ∃ new, (KuzuTables.mergeLink links ends' w).get? ends = some new ∧ sim ≤ new := by
  by_cases heq : ends' = ends
  · subst heq
    refine ⟨_, PyDict.get?_set_self .., ?_⟩
    rw [h]
    exact hle.trans (le_raised_right w old)
  · exact ⟨old, (PyDict.get?_set_of_ne _ _ heq).trans h, hle⟩

/-- **A write that finds what it writes** changes nothing elsewhere. -/
lemma sameOutside_apply (hpid : pid ∈ passages) (hw : w.OnPassage pid)
    (hfound : w.Found passages entities g) : SameOutside passages entities g (w.apply g) := by
  have hscope : pid ∈ passages ++ entities := List.mem_append_left _ hpid
  have hne : ∀ n, n ∉ passages ++ entities → pid ≠ n := fun n hn heq => hn (heq ▸ hscope)
  cases w with
  | created n => exact SameOutside.refl g
  | passageNode p row =>
      obtain rfl : p = pid := hw
      exact { SameOutside.refl g with
        nodes := fun n hn => PyDict.get?_set_of_ne _ _ (hne n hn) }
  | entityNode m type =>
      obtain rfl : type = "entity" := hw
      exact { SameOutside.refl g with
        nodes := fun n hn => get?_addNode_outside hfound hn }
  | containsEdge p ename weight now =>
      obtain rfl : p = pid := hw
      refine { SameOutside.refl g with nodes := fun n hn => ?_ }
      have hpassage : (withPassage g.nodes p).get? n = g.nodes.get? n :=
        get?_withPassage_of_ne g.nodes (hne n hn)
      refine Eq.trans (@get?_ensureNode_outside (withPassage g.nodes p) _ ename n "entity" ?_ hn)
        hpassage
      by_cases hmem : ename ∈ passages ++ entities
      · exact Or.inl hmem
      · refine Or.inr ?_
        rw [PyDict.contains, get?_withPassage_of_ne g.nodes (hne ename hmem)]
        exact Or.resolve_left hfound hmem
  | synonymEdges ea eb sim now =>
      refine { SameOutside.refl g with nodes := fun n hn => ?_ }
      have hb : eb ∈ passages ++ entities ∨ IsEntityNode (addNode g.nodes ea "entity") eb :=
        hfound.2.imp_right fun h => isEntityNode_addNode h ea
      exact (get?_addNode_outside hb hn).trans (get?_addNode_outside hfound.1 hn)
  | mergePassage p row =>
      obtain rfl : p = pid := hw
      exact { SameOutside.refl g with
        passageRows := fun n hn => PyDict.get?_set_of_ne _ _ fun heq => hn (heq ▸ hpid) }
  | mergeEntity m type guarded =>
      rcases hfound with hm | hm
      · refine { SameOutside.refl g with
          entityRows := fun n hn =>
            entities_mergeEntity_of_ne _ (show m ≠ n from fun heq => hn (heq ▸ hm)) type
          relations := relations_mergeEntity g.disk m type
          passageRows := fun n _ => congrArg (·.get? n) (passages_mergeEntity g.disk m type)
          contains := fun l _ _ => congrArg (·.get? l) (contains_mergeEntity g.disk m type)
          synonyms := fun l _ _ => congrArg (·.get? l) (synonyms_mergeEntity g.disk m type) }
      · have hsame : IndexWrite.apply g (.mergeEntity m type guarded) = g := by
          show { g with disk := g.disk.mergeEntity m type } = g
          rw [get?_mergeEntity_of_contains hm]
        rw [hsame]
        exact SameOutside.refl g
  | mergeContains p ename weight =>
      obtain rfl : p = pid := hw
      rw [IndexWrite.apply]
      split_ifs
      · exact { SameOutside.refl g with
          contains := fun l hl _ => PyDict.get?_set_of_ne _ _ fun heq =>
            hl (by rw [← heq]; exact hpid) }
      · exact SameOutside.refl g
  | mergeSynonym u v sim =>
      refine { SameOutside.refl g with synonyms := fun l hl hl' => ?_ }
      show (KuzuTables.mergeLink g.disk.synonyms (u, v) sim).get? l = _
      by_cases heq : (u, v) = l
      · subst heq
        obtain ⟨old, hget, hle⟩ := Or.resolve_left (Or.resolve_left hfound hl) hl'
        rw [mergeLink_of_le hget hle]
      · exact PyDict.get?_set_of_ne _ _ heq

/-! ## What was written stays -/

lemma grows_apply (g : KuzuGraphStore) (w : IndexWrite) : Grows g.nodes (w.apply g).nodes := by
  cases w with
  | passageNode p row => exact grows_addPassageNode g.nodes p row
  | entityNode m type => exact grows_addNode g.nodes m type
  | containsEdge p ename weight now =>
      refine Grows.trans (b := withPassage g.nodes p) ?_ (grows_ensureNode _ ename "entity")
      unfold withPassage
      split_ifs
      · exact grows_refl g.nodes
      · exact grows_addPassageNode g.nodes p _
  | synonymEdges ea eb sim now =>
      exact (grows_addNode g.nodes ea "entity").trans (grows_addNode _ eb "entity")
  | created n => exact grows_refl g.nodes
  | mergePassage p row => exact grows_refl g.nodes
  | mergeEntity m type guarded => exact grows_refl g.nodes
  | mergeContains p ename weight => exact grows_refl g.nodes
  | mergeSynonym u v sim => exact grows_refl g.nodes

lemma closed_apply (h : g.Closed) (w : IndexWrite) : (w.apply g).Closed := by
  have hgrow : ∀ e attrs, g.edges.get? e = some attrs →
      (w.apply g).nodes.contains e.subject = true ∧ (w.apply g).nodes.contains e.object = true :=
    fun _ _ he => h.grow (grows_apply g w) he
  cases w with
  | containsEdge p ename weight now =>
      refine closed_set ⟨?_, contains_ensureNode _ ename "entity"⟩ hgrow
      refine (grows_ensureNode (withPassage g.nodes p) ename "entity").contains p ?_
      unfold withPassage
      split_ifs with hp
      · exact hp
      · exact contains_addPassageNode g.nodes p _
  | synonymEdges ea eb sim now =>
      have ha := (grows_addNode (addNode g.nodes ea "entity") eb "entity").contains ea
        (contains_addNode g.nodes ea "entity")
      have hb := contains_addNode (addNode g.nodes ea "entity") eb "entity"
      exact closed_set ⟨hb, ha⟩ (closed_set ⟨ha, hb⟩ hgrow)
  | passageNode p row => exact hgrow
  | entityNode m type => exact hgrow
  | created n => exact hgrow
  | mergePassage p row => exact hgrow
  | mergeEntity m type guarded => exact hgrow
  | mergeContains p ename weight => exact hgrow
  | mergeSynonym u v sim => exact hgrow

lemma isEntityNode_apply {n : String} (hpid : pid ∈ passages) (hw : w.OnPassage pid)
    (hn : n ∉ passages ++ entities) (h : IsEntityNode g.nodes n) :
    IsEntityNode (w.apply g).nodes n := by
  have hne : pid ≠ n := fun heq => hn (heq ▸ List.mem_append_left _ hpid)
  cases w with
  | passageNode p row =>
      obtain rfl : p = pid := hw
      obtain ⟨attrs, hget, htype⟩ := h
      exact ⟨attrs, (PyDict.get?_set_of_ne _ _ hne).trans hget, htype⟩
  | entityNode m type =>
      obtain rfl : type = "entity" := hw
      exact isEntityNode_addNode h m
  | containsEdge p ename weight now =>
      obtain rfl : p = pid := hw
      obtain ⟨attrs, hget, htype⟩ := h
      exact ⟨attrs, get?_ensureNode_of_contains
        ((get?_withPassage_of_ne g.nodes hne).trans hget) ename "entity", htype⟩
  | synonymEdges ea eb sim now => exact isEntityNode_addNode (isEntityNode_addNode h ea) eb
  | created n => exact h
  | mergePassage p row => exact h
  | mergeEntity m type guarded => exact h
  | mergeContains p ename weight => exact h
  | mergeSynonym u v sim => exact h

lemma entities_apply_contains {n : String} (h : g.disk.entities.contains n = true)
    (w : IndexWrite) : (w.apply g).disk.entities.contains n = true := by
  cases w with
  | mergeEntity m type guarded =>
      show (g.disk.mergeEntity m type).entities.contains n = true
      by_cases heq : m = n
      · rw [heq]
        exact contains_mergeEntity_self g.disk n type
      · rw [PyDict.contains, entities_mergeEntity_of_ne g.disk heq]
        exact h
  | mergeContains p ename weight =>
      rw [IndexWrite.apply]
      split_ifs <;> exact h
  | passageNode p row => exact h
  | entityNode m type => exact h
  | containsEdge p ename weight now => exact h
  | synonymEdges ea eb sim now => exact h
  | created n => exact h
  | mergePassage p row => exact h
  | mergeSynonym u v sim => exact h

lemma exists_synonym_apply {l : String × String} {sim old : ℚ}
    (h : g.disk.synonyms.get? l = some old) (hle : sim ≤ old) (w : IndexWrite) :
    ∃ new, (w.apply g).disk.synonyms.get? l = some new ∧ sim ≤ new := by
  cases w with
  | mergeSynonym u v sim' => exact exists_mergeLink h hle (u, v) sim'
  | mergeEntity m type guarded =>
      exact ⟨old, (congrArg (·.get? l) (synonyms_mergeEntity g.disk m type)).trans h, hle⟩
  | mergeContains p ename weight =>
      rw [IndexWrite.apply]
      split_ifs <;> exact ⟨old, h, hle⟩
  | passageNode p row => exact ⟨old, h, hle⟩
  | entityNode m type => exact ⟨old, h, hle⟩
  | containsEdge p ename weight now => exact ⟨old, h, hle⟩
  | synonymEdges ea eb sim now => exact ⟨old, h, hle⟩
  | created n => exact ⟨old, h, hle⟩
  | mergePassage p row => exact ⟨old, h, hle⟩

lemma found_apply_self (hw : w.OnPassage pid) : w.Found passages entities (w.apply g) := by
  cases w with
  | entityNode m type =>
      obtain rfl : type = "entity" := hw
      exact Or.inr (isEntityNode_addNode_self g.nodes m)
  | containsEdge p ename weight now => exact Or.inr (contains_ensureNode _ ename "entity")
  | synonymEdges ea eb sim now =>
      exact ⟨Or.inr (isEntityNode_addNode (isEntityNode_addNode_self g.nodes ea) eb),
        Or.inr (isEntityNode_addNode_self _ eb)⟩
  | mergeEntity m type guarded => exact Or.inr (contains_mergeEntity_self g.disk m type)
  | mergeSynonym u v sim => exact Or.inr (Or.inr (exists_mergeLink_self _ (u, v) sim))
  | created n => trivial
  | passageNode p row => trivial
  | mergePassage p row => trivial
  | mergeContains p ename weight => trivial

lemma found_apply {w' : IndexWrite} (hpid : pid ∈ passages) (hw' : w'.OnPassage pid)
    (h : w.Found passages entities g) : w.Found passages entities (w'.apply g) := by
  have hnode : ∀ n, n ∈ passages ++ entities ∨ IsEntityNode g.nodes n →
      n ∈ passages ++ entities ∨ IsEntityNode (w'.apply g).nodes n := by
    intro n hn
    by_cases hmem : n ∈ passages ++ entities
    · exact Or.inl hmem
    · exact Or.inr (isEntityNode_apply hpid hw' hmem (hn.resolve_left hmem))
  cases w with
  | entityNode m type => exact hnode m h
  | containsEdge p ename weight now => exact Or.imp_right ((grows_apply g w').contains ename) h
  | synonymEdges ea eb sim now => exact ⟨hnode ea h.1, hnode eb h.2⟩
  | mergeEntity m type guarded => exact Or.imp_right (fun hm => entities_apply_contains hm w') h
  | mergeSynonym u v sim =>
      refine Or.imp_right (Or.imp_right ?_) h
      rintro ⟨old, hget, hle⟩
      exact exists_synonym_apply hget hle w'
  | created n => trivial
  | passageNode p row => trivial
  | mergePassage p row => trivial
  | mergeContains p ename weight => trivial

/-! ## All writes of a call -/

/-- The edge after the writes is what the last write to it made of it. -/
lemma edges_foldl_apply (ws : List IndexWrite) (g : KuzuGraphStore) (e : Edge) :
    (ws.foldl IndexWrite.apply g).edges.get? e = (lastEdge ws e).or (g.edges.get? e) := by
  have hstep : ∀ (w : IndexWrite) (g : KuzuGraphStore),
      (w.apply g).edges.get? e = (w.edgeAt e).or (g.edges.get? e) := by
    intro w g
    cases w with
    | containsEdge p ename weight now =>
        show (g.edges.set _ _).get? e = _
        rw [PyDict.get?_set, IndexWrite.edgeAt]
        split_ifs <;> rfl
    | synonymEdges ea eb sim now =>
        show ((g.edges.set _ _).set _ _).get? e = _
        rw [PyDict.get?_set, PyDict.get?_set, IndexWrite.edgeAt]
        by_cases hb : ⟨eb, synonymKey, ea⟩ = e
        · rw [if_pos hb, if_pos (Or.inl hb)]
          rfl
        · by_cases ha : ⟨ea, synonymKey, eb⟩ = e
          · rw [if_neg hb, if_pos ha, if_pos (Or.inr ha)]
            rfl
          · rw [if_neg hb, if_neg ha, if_neg (by tauto)]
            rfl
    | passageNode p row => rfl
    | entityNode m type => rfl
    | created n => rfl
    | mergePassage p row => rfl
    | mergeEntity m type guarded => rfl
    | mergeContains p ename weight => rfl
    | mergeSynonym u v sim => rfl
  induction ws using List.reverseRecOn with
  | nil => rfl
  | append_singleton ws w ih =>
      have hlast : lastEdge (ws ++ [w]) e = (w.edgeAt e).or (lastEdge ws e) := by
        rw [lastEdge, List.reverse_append, List.reverse_singleton, List.singleton_append,
          List.findSome?_cons]
        cases w.edgeAt e <;> rfl
      rw [List.foldl_append, List.foldl_cons, List.foldl_nil, hstep, ih, hlast, Option.or_assoc]

lemma closed_foldl_apply (h : g.Closed) (ws : List IndexWrite) :
    (ws.foldl IndexWrite.apply g).Closed := by
  induction ws generalizing g with
  | nil => exact h
  | cons w ws ih => exact ih (closed_apply h w)

/-- Writes that find what they write change nothing elsewhere. -/
lemma sameOutside_foldl_apply (hpid : pid ∈ passages) {ws : List IndexWrite}
    (hws : ∀ w ∈ ws, w.OnPassage pid) (hfound : ∀ w ∈ ws, w.Found passages entities g) :
    SameOutside passages entities g (ws.foldl IndexWrite.apply g) := by
  induction ws generalizing g with
  | nil => exact SameOutside.refl g
  | cons w ws ih =>
      obtain ⟨hw, hrest⟩ := List.forall_mem_cons.mp hws
      obtain ⟨hfirst, hlater⟩ := List.forall_mem_cons.mp hfound
      have hsame := sameOutside_apply hpid hw hfirst
      exact hsame.trans (ih hrest fun w' hw' => hsame.found (hlater w' hw'))

lemma found_foldl_apply (hpid : pid ∈ passages) {ws : List IndexWrite}
    (hws : ∀ w ∈ ws, w.OnPassage pid) (g : KuzuGraphStore) :
    ∀ w ∈ ws, w.Found passages entities (ws.foldl IndexWrite.apply g) := by
  induction ws using List.reverseRecOn with
  | nil => nofun
  | append_singleton ws w ih =>
      intro w' hw'
      have hlast : w.OnPassage pid := hws w (List.mem_append_right _ (List.mem_singleton_self w))
      rw [List.foldl_append, List.foldl_cons, List.foldl_nil]
      rcases List.mem_append.mp hw' with hold | hnew
      · exact found_apply hpid hlast
          (ih (fun v hv => hws v (List.mem_append_left _ hv)) w' hold)
      · rw [List.mem_singleton.mp hnew]
        exact found_apply_self hlast

/-! ## The rollback -/

lemma nodes_removeNodes (names : List String) (g : KuzuGraphStore) (n : String) :
    (names.foldl removeNode g).nodes.get? n = if n ∈ names then none else g.nodes.get? n := by
  induction names generalizing g with
  | nil => simp
  | cons m names ih =>
      have hone : (g.removeNode m).nodes.get? n = if m = n then none else g.nodes.get? n := by
        unfold removeNode
        split_ifs with hm heq heq
        · rw [heq]
          exact PyDict.get?_erase_self g.nodes n
        · exact PyDict.get?_erase_of_ne _ heq
        · rw [← heq]
          simpa [PyDict.contains] using hm
        · rfl
      rw [List.foldl_cons, ih, hone]
      by_cases hmem : n ∈ names
      · simp [hmem]
      · by_cases heq : m = n
        · simp [heq]
        · simp [hmem, heq, Ne.symm heq]

lemma passages_purge (g : KuzuGraphStore) (passages entities : List String) (p : String) :
    (g.purge passages entities).disk.passages.get? p =
      if p ∈ passages then none else g.disk.passages.get? p := by
  have hentities : ∀ (names : List String) (d : KuzuTables),
      (names.foldl KuzuTables.detachEntity d).passages = d.passages := by
    intro names
    induction names with
    | nil => exact fun _ => rfl
    | cons n names ih => exact fun d => ih _
  have hpassages : ∀ (names : List String) (d : KuzuTables),
      (names.foldl KuzuTables.detachPassage d).passages.get? p =
        if p ∈ names then none else d.passages.get? p := by
    intro names
    induction names with
    | nil => simp
    | cons n names ih =>
        intro d
        rw [List.foldl_cons, ih, KuzuTables.detachPassage, PyDict.get?_erase]
        by_cases hmem : p ∈ names
        · simp [hmem]
        · by_cases heq : n = p
          · simp [heq]
          · simp [hmem, heq, Ne.symm heq]
  unfold purge
  dsimp only
  rw [disk_removeNodes, hentities, hpassages]

lemma entities_purge (g : KuzuGraphStore) (passages entities : List String) (n : String) :
    (g.purge passages entities).disk.entities.get? n =
      if n ∈ entities then none else g.disk.entities.get? n := by
  unfold purge
  dsimp only
  rw [disk_removeNodes, KuzuTables.entities_detachEntities,
    (KuzuTables.detachPassages_others g.disk passages).1]

lemma get?_eq_none_of_contains {κ ν : Type} [DecidableEq κ] {d : PyDict κ ν} {k : κ}
    (h : d.contains k = false) : d.get? k = none := by
  rwa [PyDict.contains, Option.isSome_eq_false_iff, Option.isNone_iff_eq_none] at h

lemma contains_of_get?_eq_none {κ ν : Type} [DecidableEq κ] {d : PyDict κ ν} {k : κ}
    (h : d.get? k = none) : d.contains k = false := by
  rw [PyDict.contains, h]
  rfl

lemma get?_eq_none_of_ends {κ ν μ : Type} [DecidableEq κ] {d : PyDict κ ν}
    {nodes : PyDict String μ} {k : κ} {n : String} (hn : nodes.contains n = false)
    (h : ∀ v, d.get? k = some v → nodes.contains n = true) : d.get? k = none := by
  cases hget : d.get? k with
  | none => rfl
  | some v =>
      rw [h v hget] at hn
      cases hn

lemma sameRows_purge (hg : Integrity g) (hpid : pid ∈ passages) {ws : List IndexWrite}
    (hws : ∀ w ∈ ws, w.OnPassage pid) (h : Undone g passages entities ws) :
    SameRows ((ws.foldl IndexWrite.apply g).purge passages entities) g := by
  have hout := sameOutside_foldl_apply hpid hws h.found
  have hedges := (removeNodes (closed_foldl_apply hg.closed ws) (passages ++ entities)).2
  obtain ⟨hcontains, hsynonyms, hrelations⟩ :=
    rows_purge (ws.foldl IndexWrite.apply g) passages entities
  refine ⟨fun n => ?_, fun e => ?_, fun n => ?_, fun e => ?_, fun p => ?_, fun l => ?_, fun l => ?_⟩
  · refine (nodes_removeNodes (passages ++ entities) _ n).trans ?_
    split_ifs with hn
    · exact (get?_eq_none_of_contains (h.fresh n hn)).symm
    · exact hout.nodes n hn
  · refine (hedges e).trans ?_
    split_ifs with he
    · rcases he with he | he
      · exact (get?_eq_none_of_ends (h.fresh _ he) fun v hv => (hg.closed e v hv).1).symm
      · exact (get?_eq_none_of_ends (h.fresh _ he) fun v hv => (hg.closed e v hv).2).symm
    · rw [not_or] at he
      rw [edges_foldl_apply]
      cases hlast : lastEdge ws e with
      | none => rfl
      | some attrs => exact (h.edges e attrs hlast he.1 he.2).symm
  · rw [entities_purge]
    split_ifs with hn
    · exact (get?_eq_none_of_contains (h.freshEntities n hn)).symm
    · exact hout.entityRows n hn
  · rw [hrelations, hout.relations]
    split_ifs with he
    · rcases he with he | he
      · exact (get?_eq_none_of_ends (h.freshEntities _ he) fun v hv => (hg.relations e v hv).1).symm
      · exact (get?_eq_none_of_ends (h.freshEntities _ he) fun v hv => (hg.relations e v hv).2).symm
    · rfl
  · rw [passages_purge]
    split_ifs with hp
    · exact (get?_eq_none_of_contains (h.freshPassages p hp)).symm
    · exact hout.passageRows p hp
  · rw [hcontains]
    split_ifs with hl
    · rcases hl with hl | hl
      · exact (get?_eq_none_of_ends (h.freshPassages _ hl) fun v hv => (hg.contains l v hv).1).symm
      · exact (get?_eq_none_of_ends (h.freshEntities _ hl) fun v hv => (hg.contains l v hv).2).symm
    · rw [not_or] at hl
      exact hout.contains l hl.1 hl.2
  · rw [hsynonyms]
    split_ifs with hl
    · rcases hl with hl | hl
      · exact (get?_eq_none_of_ends (h.freshEntities _ hl) fun v hv => (hg.synonyms l v hv).1).symm
      · exact (get?_eq_none_of_ends (h.freshEntities _ hl) fun v hv => (hg.synonyms l v hv).2).symm
    · rw [not_or] at hl
      exact hout.synonyms l hl.1 hl.2

/-- Where every row is as it was, the writes are undone. -/
lemma undone_of_sameRows (hg : Integrity g) (hpid : pid ∈ passages) {ws : List IndexWrite}
    (hws : ∀ w ∈ ws, w.OnPassage pid)
    (h : SameRows ((ws.foldl IndexWrite.apply g).purge passages entities) g) :
    Undone g passages entities ws := by
  have hedges := (removeNodes (closed_foldl_apply hg.closed ws) (passages ++ entities)).2
  have hnodes := nodes_removeNodes (passages ++ entities) (ws.foldl IndexWrite.apply g)
  have hentities := entities_purge (ws.foldl IndexWrite.apply g) passages entities
  obtain ⟨-, hsynonyms, -⟩ := rows_purge (ws.foldl IndexWrite.apply g) passages entities
  refine ⟨fun n hn => ?_, fun p hp => ?_, fun n hn => ?_, fun w hw => ?_,
    fun e attrs hlast hs ho => ?_⟩
  · have hsame := (hnodes n).symm.trans (h.nodes n)
    rw [if_pos hn] at hsame
    exact contains_of_get?_eq_none hsame.symm
  · have hsame := (passages_purge _ passages entities p).symm.trans (h.passages p)
    rw [if_pos hp] at hsame
    exact contains_of_get?_eq_none hsame.symm
  · have hsame := (hentities n).symm.trans (h.entities n)
    rw [if_pos hn] at hsame
    exact contains_of_get?_eq_none hsame.symm
  · -- what a write finds at the end is elsewhere, so it was there before
    have hfound : w.Found passages entities (ws.foldl IndexWrite.apply g) :=
      found_foldl_apply hpid hws g w hw
    have hnode : ∀ n, n ∉ passages ++ entities →
        (ws.foldl IndexWrite.apply g).nodes.get? n = g.nodes.get? n := by
      intro n hn
      have hsame := (hnodes n).symm.trans (h.nodes n)
      rwa [if_neg hn] at hsame
    have hentity : ∀ n, n ∉ entities →
        (ws.foldl IndexWrite.apply g).disk.entities.get? n = g.disk.entities.get? n := by
      intro n hn
      have hsame := (hentities n).symm.trans (h.entities n)
      rwa [if_neg hn] at hsame
    have hsynonym : ∀ l : String × String, l.1 ∉ entities → l.2 ∉ entities →
        (ws.foldl IndexWrite.apply g).disk.synonyms.get? l = g.disk.synonyms.get? l := by
      intro l hl hl'
      have hsame := (hsynonyms l).symm.trans (h.synonyms l)
      rwa [if_neg (not_or.mpr ⟨hl, hl'⟩)] at hsame
    exact found_congr hnode hentity hsynonym hfound
  · have hsame := (hedges e).symm.trans (h.edges e)
    rw [if_neg (not_or.mpr ⟨hs, ho⟩), edges_foldl_apply, hlast] at hsame
    exact hsame.symm

/-- The writes that a call has made when it ends. -/
def writesMade (ie : OpenIE) (g : KuzuGraphStore) (a : IndexArgs) (now : ℚ) (fails : ℕ → Bool) :
    List IndexWrite :=
  (executed fails 0 (indexWrites ie g a now)).1

lemma indexOrRollback_of_raised {ie : OpenIE} {a : IndexArgs} {now : ℚ} {fails : ℕ → Bool}
    (h : (indexOrRollback ie g a now fails).2 = true) :
    (indexOrRollback ie g a now fails).1 =
      ((writesMade ie g a now fails).foldl IndexWrite.apply g).purge
        (passageCandidates (PyString.strip a.sourceKey))
        (createdIn (writesMade ie g a now fails)) := by
  unfold indexOrRollback at h ⊢
  unfold writesMade
  dsimp only at h ⊢
  rw [if_pos h, rollbackDualNodeRecord_eq_purge]

/-- **The rollback restores the store** exactly if, whenever the call raises, nothing was there
under the names that the rollback deletes, and what the call has written elsewhere was there. -/
theorem rollback_restores_iff (ie : OpenIE) {g : KuzuGraphStore} (hg : Integrity g) (a : IndexArgs)
    (now : ℚ) (fails : ℕ → Bool) :
    ((indexOrRollback ie g a now fails).2 = true →
        SameRows (indexOrRollback ie g a now fails).1 g) ↔
      ((indexOrRollback ie g a now fails).2 = true →
        Undone g (passageCandidates a.sourceKey) (createdIn (writesMade ie g a now fails))
          (writesMade ie g a now fails)) := by
  have hcands : passageCandidates (PyString.strip a.sourceKey) = passageCandidates a.sourceKey := by
    rw [passageCandidates, passageCandidates, PyString.strip_strip]
  have hpid : PyString.strip a.sourceKey ∈ passageCandidates a.sourceKey := List.mem_cons_self
  have hws : ∀ w ∈ writesMade ie g a now fails, w.OnPassage (PyString.strip a.sourceKey) :=
    fun w hw => onPassage_indexWrites (mem_of_mem_executed hw)
  refine imp_congr_right fun hraised => ?_
  rw [indexOrRollback_of_raised hraised, ← hcands]
  rw [← hcands] at hpid
  exact ⟨undone_of_sameRows hg hpid hws, sameRows_purge hg hpid hws⟩

def OpenIE.silent : OpenIE := ⟨fun _ _ _ => [], fun _ => []⟩

def oneEntity : IndexArgs := { sourceKey := "k", text := "new", explicitEntities := ["a"] }

lemma integrity_empty : Integrity empty := ⟨nofun, nofun, nofun, nofun⟩

lemma integrity_addPassage (h : Integrity g) (passageId sourceKey text : String) :
    Integrity (g.addPassage passageId sourceKey text) := by
  rw [addPassage]
  split_ifs
  · exact h
  · refine ⟨fun e attrs he => h.closed.grow (grows_addPassageNode g.nodes _ _) he, h.relations,
      fun l weight hl => ⟨?_, (h.contains l weight hl).2⟩, h.synonyms⟩
    have hold := (h.contains l weight hl).1
    show (g.disk.passages.set _ _).contains l.1 = true
    rw [PyDict.contains, PyDict.get?_set]
    split_ifs
    · rfl
    · exact hold

/-- The link of a new passage to a new entity fails. -/
theorem rollback_restores_iff_oneEntity :
    let result := indexOrRollback OpenIE.silent empty oneEntity 1 (fun i => decide (i = 7))
    result.2 = true ∧ SameRows result.1 empty := by
  intro result
  have hraised : result.2 = true := by decide
  have hmade : writesMade OpenIE.silent empty oneEntity 1 (fun i => decide (i = 7)) =
      [.passageNode "k" ⟨"k", "new"⟩, .mergePassage "k" ⟨"k", "new"⟩, .created "a",
        .entityNode "a" "entity", .mergeEntity "a" "entity" true, .containsEdge "k" "a" 1 1,
        .mergeEntity "a" "entity" false] := by decide
  refine ⟨hraised, (rollback_restores_iff OpenIE.silent integrity_empty oneEntity 1 _).mpr
    (fun _ => ?_) hraised⟩
  rw [hmade]
  refine ⟨fun _ _ => rfl, fun _ _ => rfl, fun _ _ => rfl, ?_, fun e attrs hlast hs _ => ?_⟩
  · simp [IndexWrite.Found, createdIn]
  · simp only [lastEdge, IndexWrite.edgeAt, List.reverse_cons, List.reverse_nil, List.nil_append,
      List.cons_append, List.findSome?_cons, List.findSome?_nil] at hlast
    by_cases he : (⟨"k", containsKey, "a"⟩ : Edge) = e
    · subst he
      exact absurd (List.mem_append_left _ (show "k" ∈ passageCandidates oneEntity.sourceKey by
        decide)) hs
    · rw [if_neg he] at hlast
      cases hlast

/-- **A passage that was there is lost.** It is indexed again, and the first statement fails. -/
theorem not_rollback_restores :
    ¬ ∀ (ie : OpenIE) (g : KuzuGraphStore) (a : IndexArgs) (now : ℚ) (fails : ℕ → Bool),
      Integrity g → (indexOrRollback ie g a now fails).2 = true →
        SameRows (indexOrRollback ie g a now fails).1 g := by
  intro h
  have hsame := (h OpenIE.silent (empty.addPassage "k" "k" "old") oneEntity 1
    (fun i => decide (i = 1)) (integrity_addPassage integrity_empty "k" "k" "old")
    (by decide)).nodes "k"
  exact absurd hsame (by decide)

end KuzuGraphStore

end AtlasMemory
