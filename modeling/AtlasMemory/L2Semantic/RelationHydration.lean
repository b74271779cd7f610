import AtlasMemory.L2Semantic.KuzuGraph
import Mathlib.Data.List.Perm.Basic
import Mathlib.Data.List.Sort
import Mathlib.Data.Prod.Lex
import Mathlib.Data.String.Basic
import Mathlib.Order.Bounds.Basic

/-!
# Hydration from scanned rows

`hydrate_from_disk_sync` as far as the entities and the relations go, over the rows that a scan of
the tables gives: in any order, with rows that repeat a triple, and with columns that are `NULL`.
The rows of the relations are sorted, those with an invalid entity are dropped, and the others are
merged one by one into the edge of their triple.  At each edge the merge takes maxima, so neither
the order of the rows nor a second scan makes a difference.

The rows come from `_hydrate_paged`, which reads a statement page by page and halves the page when
a read fails.  The engine answers all pages from one order of the rows, which is what `ORDER BY` is
there for; a read may fail for any reason.

Confidences and timestamps are exact.
-/

namespace AtlasMemory

/-! ## The paged scan -/

section PagedScan

variable {α : Type}

/-- A page size of the scan, which never falls below 64. -/
abbrev PageLimit : Type := {n : ℕ // 64 ≤ n}

/-- `max(64, int(page))`. -/
def PageLimit.ofInt (page : ℤ) : PageLimit := ⟨max 64 page.toNat, le_max_left _ _⟩

/-- `max(64, limit // 2)`. -/
def PageLimit.halve (limit : PageLimit) : PageLimit := ⟨max 64 (limit / 2), le_max_left _ _⟩

/-- A statement that the engine answers, with the reads of it that fail: by how many were made
before, the offset and the limit. -/
structure PagedStatement (α : Type) where
  rows : List α
  fails : ℕ → ℕ → ℕ → Bool

/-- `SKIP offset LIMIT limit`. -/
def PagedStatement.page (stmt : PagedStatement α) (offset limit : ℕ) : List α :=
  (stmt.rows.drop offset).take limit

/-- A read of a page. -/
structure PageRead where
  number : ℕ
  offset : ℕ
  limit : PageLimit

/-- The loop of `_hydrate_paged` from a read on; an error is the read whose exception it raises. -/
def PagedStatement.hydrateFrom (stmt : PagedStatement α) (read : PageRead) (rows : List α) :
    Except PageRead (List α) :=
  if stmt.fails read.number read.offset read.limit then
    if (read.limit : ℕ) ≤ 64 then .error read
    else stmt.hydrateFrom ⟨read.number + 1, read.offset, read.limit.halve⟩ rows
  else
    let got := stmt.page read.offset read.limit
    if got.length < read.limit then .ok (rows ++ got)
    else stmt.hydrateFrom ⟨read.number + 1, read.offset + got.length, read.limit⟩ (rows ++ got)
  termination_by (stmt.rows.length - read.offset, (read.limit : ℕ))
  decreasing_by
  · -- A smaller page at the same offset.
    apply Prod.Lex.right
    show max 64 ((read.limit : ℕ) / 2) < read.limit
    omega
  · -- A full page, which is not empty.
    apply Prod.Lex.left
    have hlimit := read.limit.2
    have hgot : got.length ≤ stmt.rows.length - read.offset := by
      show (stmt.page read.offset read.limit).length ≤ _
      rw [PagedStatement.page, List.length_take, List.length_drop]
      exact min_le_right _ _
    show stmt.rows.length - (read.offset + got.length) < stmt.rows.length - read.offset
    omega

/-- `_hydrate_paged`; the statement is `none` where there is no connection. -/
def hydratePaged (stmt : Option (PagedStatement α)) (page : ℤ) : Except PageRead (List α) :=
  match stmt with
  | none => .ok []
  | some stmt => stmt.hydrateFrom ⟨0, 0, PageLimit.ofInt page⟩ []

def readableRows (stmt : Option (PagedStatement α)) : List α :=
  stmt.elim [] PagedStatement.rows

variable {stmt : PagedStatement α}

lemma PagedStatement.take_append_page (offset limit : ℕ) :
    stmt.rows.take offset ++ stmt.page offset limit = stmt.rows.take (offset + limit) :=
  List.take_add.symm

/-- The loop keeps that the rows read so far are those before its offset. -/
lemma PagedStatement.hydrateFrom_spec (read : PageRead) :
    stmt.hydrateFrom read (stmt.rows.take read.offset) = .ok stmt.rows ∨
      ∃ failed : PageRead, stmt.hydrateFrom read (stmt.rows.take read.offset) = .error failed ∧
        (failed.limit : ℕ) = 64 ∧ stmt.fails failed.number failed.offset 64 = true := by
  generalize hrows : stmt.rows.take read.offset = rows
  induction read, rows using PagedStatement.hydrateFrom.induct stmt with
  | case1 read rows hfails hsmall =>
    have hlimit : (read.limit : ℕ) = 64 := le_antisymm hsmall read.limit.2
    rw [hydrateFrom, if_pos hfails, if_pos hsmall]
    exact Or.inr ⟨read, rfl, hlimit, hlimit ▸ hfails⟩
  | case2 read rows hfails hlarge ih =>
    rw [hydrateFrom, if_pos hfails, if_neg hlarge]
    exact ih hrows
  | case3 read rows hfails got hlast =>
    rw [hydrateFrom, if_neg hfails]
    dsimp only
    rw [if_pos hlast, ← hrows, take_append_page]
    -- A page that is not full ends the table.
    have hlen : got.length = min (read.limit : ℕ) (stmt.rows.length - read.offset) := by
      show (stmt.page read.offset read.limit).length = _
      rw [PagedStatement.page, List.length_take, List.length_drop]
    have hend : stmt.rows.length ≤ read.offset + read.limit := by
      omega
    rw [List.take_of_length_le hend]
    exact Or.inl rfl
  | case4 read rows hfails got hfull ih =>
    have hlen : got.length = read.limit := by
      refine le_antisymm ?_ (not_lt.mp hfull)
      exact List.length_take_le _ _
    have hnext : stmt.rows.take (read.offset + got.length) = rows ++ got := by
      rw [← hrows, hlen]
      exact (take_append_page _ _).symm
    rw [hydrateFrom, if_neg hfails]
    dsimp only
    rw [if_neg hfull]
    exact ih hnext

/-- **The paged scan is complete**: it ends, with every readable row once and in order, unless the
read that fails is one of the smallest page; and as long as no read of the smallest page fails, it
gives all rows. -/
theorem hydratePaged_complete (stmt : Option (PagedStatement α)) (page : ℤ) :
    (hydratePaged stmt page = .ok (readableRows stmt) ∨
      ∃ t failed, stmt = some t ∧ hydratePaged stmt page = .error failed ∧
        (failed.limit : ℕ) = 64 ∧ t.fails failed.number failed.offset 64 = true) ∧
    ((∀ t, stmt = some t → ∀ number offset, t.fails number offset 64 = false) →
      hydratePaged stmt page = .ok (readableRows stmt)) := by
  have hcases : hydratePaged stmt page = .ok (readableRows stmt) ∨
      ∃ t failed, stmt = some t ∧ hydratePaged stmt page = .error failed ∧
        (failed.limit : ℕ) = 64 ∧ t.fails failed.number failed.offset 64 = true := by
    cases stmt with
    | none => exact Or.inl rfl
    | some t =>
      rcases t.hydrateFrom_spec ⟨0, 0, PageLimit.ofInt page⟩ with hok | ⟨failed, herr, hfailed⟩
      · exact Or.inl hok
      · exact Or.inr ⟨t, failed, rfl, herr, hfailed⟩
  refine ⟨hcases, fun hsmall => ?_⟩
  rcases hcases with hok | ⟨t, failed, ht, -, -, hfails⟩
  · exact hok
  · rw [hsmall t ht] at hfails
    cases hfails

end PagedScan

/-- A row of the scan of `RELATION`; a column that is `NULL` is `none`. -/
structure RelationScan where
  subject : Option String
  object : Option String
  predicate : Option String
  confidence : Option ℚ
  timestamp : Option ℚ
  deriving DecidableEq

/-- The multigraph in memory. -/
structure RamGraph where
  nodes : PyDict String NodeAttrs
  edges : PyDict Edge EdgeAttrs

namespace RelationScan

/-- `str` of a name that may be `None`. -/
def nameText : Option String → String
  | some name => name
  | none => "None"

def sortKey (r : RelationScan) : String ×ₗ String ×ₗ String :=
  toLex (nameText r.subject, toLex (nameText r.object, r.predicate.getD ""))

/-- `rel_rows.sort(key=…)`, which is stable. -/
def sortRows (rows : List RelationScan) : List RelationScan :=
  rows.insertionSort fun r r' => r.sortKey ≤ r'.sortKey

def edge (r : RelationScan) : Edge where
  subject := nameText r.subject
  predicate := if r.predicate.getD "" = "" then "related_to" else r.predicate.getD ""
  object := nameText r.object

def confidenceOf (r : RelationScan) : ℚ := r.confidence.getD 1

def timestampOf (r : RelationScan) : ℚ := r.timestamp.getD 0

variable (isValid : String → Bool)

/-- Both entities of the row are there and valid. -/
def isValidRow (r : RelationScan) : Bool :=
  match r.subject, r.object with
  | some s, some o => KuzuGraphStore.validEnds isValid s o
  | _, _ => false

/-- The entity of the row that is noted as invalid: the first of the two that is. -/
def invalidEnd (r : RelationScan) : Option String :=
  match r.subject, r.object with
  | some s, some o => if isValid s = false then some s else if isValid o = false then some o else none
  | _, _ => none

end RelationScan

open RelationScan

/-- `prev` merged with a row: the maxima of the confidences and of the timestamps. -/
def mergeRow (prev : Option EdgeAttrs) (r : RelationScan) : EdgeAttrs :=
  match prev with
  | none => ⟨r.confidenceOf, r.timestampOf, none⟩
  | some prev =>
    ⟨max prev.confidence r.confidenceOf, max prev.timestamp r.timestampOf, prev.sessionId⟩

/-- A round of the loop over the valid rows. -/
def RamGraph.hydrateRow (g : RamGraph) (r : RelationScan) : RamGraph where
  nodes := KuzuGraphStore.ensureNode (KuzuGraphStore.ensureNode g.nodes r.edge.subject "entity")
    r.edge.object "entity_or_value"
  edges := g.edges.set r.edge (mergeRow (g.edges.get? r.edge) r)

section Hydration

variable (isValid : String → Bool)

/-- `hydrate_from_disk_sync`, over the rows of the entities and of the relations. -/
def RamGraph.hydrate (g : RamGraph) (entities : List (String × EntityRow))
    (rows : List RelationScan) : RamGraph :=
  ((sortRows rows).filter (isValidRow isValid)).foldl RamGraph.hydrateRow
    { g with nodes := KuzuGraphStore.hydrateEntities isValid g.nodes entities }

/-- The names that are purged from the disk. -/
def invalidNames (entities : List (String × EntityRow)) (rows : List RelationScan) :
    List String :=
  ((entities.map Prod.fst).filter fun name => decide (name ≠ "") && !isValid name) ++
    rows.filterMap (invalidEnd isValid)

end Hydration

/-- The rows that are left when entities are deleted with their relations. -/
def withoutEntities (names : List String) (rows : List RelationScan) : List RelationScan :=
  rows.filter fun r => names.all fun name => decide (r.subject ≠ some name ∧ r.object ≠ some name)

def RamGraph.empty : RamGraph := ⟨∅, ∅⟩

/-- The row is read, and into this edge. -/
def ReadsInto (isValid : String → Bool) (r : RelationScan) (e : Edge) : Prop :=
  isValidRow isValid r = true ∧ r.edge = e

instance (isValid : String → Bool) (r : RelationScan) (e : Edge) :
    Decidable (ReadsInto isValid r e) := inferInstanceAs (Decidable (_ ∧ _))

/-! ## One edge -/

variable {isValid : String → Bool} {g : RamGraph} {rows rows' : List RelationScan} {e : Edge}

lemma get?_hydrateRow (g : RamGraph) (r : RelationScan) (e : Edge) :
    (g.hydrateRow r).edges.get? e =
      if r.edge = e then some (mergeRow (g.edges.get? e) r) else g.edges.get? e := by
  unfold RamGraph.hydrateRow
  by_cases h : r.edge = e
  · subst h
    rw [if_pos rfl, PyDict.get?_set_self]
  · rw [if_neg h, PyDict.get?_set_of_ne _ _ h]

/-- A row with all its columns is merged as the row of a table is. -/
lemma edges_hydrateRow_of_row (g : RamGraph) {e : Edge} {row : RelationRow}
    (hvalid : KuzuGraphStore.validEnds isValid e.subject e.object = true) :
    (g.hydrateRow ⟨some e.subject, some e.object, some e.predicate, some row.confidence,
      some row.timestamp⟩).edges = KuzuGraphStore.hydrateRelation isValid g.edges (e, row) := by
  have hedge : RelationScan.edge ⟨some e.subject, some e.object, some e.predicate,
      some row.confidence, some row.timestamp⟩ = KuzuGraphStore.hydratedPredicate e := by
    unfold RelationScan.edge KuzuGraphStore.hydratedPredicate
    by_cases h : e.predicate = "" <;> simp [h, nameText]
  unfold RamGraph.hydrateRow KuzuGraphStore.hydrateRelation
  rw [if_pos hvalid, hedge]
  dsimp only
  cases g.edges.get? (KuzuGraphStore.hydratedPredicate e) <;> rfl

/-- The loop acts on each edge by the rows of that edge only. -/
lemma get?_foldl_hydrateRow (g : RamGraph) (rows : List RelationScan) (e : Edge) :
    (rows.foldl RamGraph.hydrateRow g).edges.get? e =
      (rows.filter fun r => decide (r.edge = e)).foldl (fun prev r => some (mergeRow prev r))
        (g.edges.get? e) := by
  induction rows generalizing g with
  | nil => rfl
  | cons r rows ih =>
    rw [List.foldl_cons, ih, get?_hydrateRow]
    by_cases h : r.edge = e <;> simp [h]

/-- Rows may be merged in any order. -/
lemma mergeRow_comm (prev : Option EdgeAttrs) (r r' : RelationScan) :
    mergeRow (some (mergeRow prev r)) r' = mergeRow (some (mergeRow prev r')) r := by
  cases prev with
  | none => simp only [mergeRow, max_comm]
  | some prev => simp only [mergeRow, max_right_comm]

lemma foldl_mergeRow_perm (h : rows.Perm rows') (prev : Option EdgeAttrs) :
    rows.foldl (fun prev r => some (mergeRow prev r)) prev =
      rows'.foldl (fun prev r => some (mergeRow prev r)) prev :=
  h.foldl_eq' (fun r _ r' _ prev => congrArg some (mergeRow_comm prev r r')) prev

def rowsOf (isValid : String → Bool) (rows : List RelationScan) (e : Edge) : List RelationScan :=
  rows.filter fun r => decide (ReadsInto isValid r e)

lemma mem_rowsOf {r : RelationScan} :
    r ∈ rowsOf isValid rows e ↔ r ∈ rows ∧ ReadsInto isValid r e := by
  rw [rowsOf, List.mem_filter, decide_eq_true_eq]

/-- **The hydration, edge by edge**: the rows of the edge, merged in the order of the scan. -/
lemma get?_hydrate (g : RamGraph) (entities : List (String × EntityRow))
    (rows : List RelationScan) (e : Edge) :
    (g.hydrate isValid entities rows).edges.get? e =
      (rowsOf isValid rows e).foldl (fun prev r => some (mergeRow prev r)) (g.edges.get? e) := by
  rw [RamGraph.hydrate, get?_foldl_hydrateRow, List.filter_filter]
  apply foldl_mergeRow_perm
  have hsorted : (sortRows rows).Perm rows := List.perm_insertionSort _ rows
  refine (hsorted.filter _).trans (List.Perm.of_eq (List.filter_congr fun r _ => ?_))
  rw [Bool.eq_iff_iff, Bool.and_eq_true, decide_eq_true_eq, decide_eq_true_eq]
  exact and_comm

/-! ## The maxima -/

/-- Merged rows have the maxima of what was there and of the rows. -/
lemma foldl_mergeRow_some (rows : List RelationScan) (prev : EdgeAttrs) :
    rows.foldl (fun prev r => some (mergeRow prev r)) (some prev) =
      some ⟨rows.foldl (fun m r => max m r.confidenceOf) prev.confidence,
        rows.foldl (fun m r => max m r.timestampOf) prev.timestamp, prev.sessionId⟩ := by
  induction rows generalizing prev with
  | nil => rfl
  | cons r rows ih =>
    rw [List.foldl_cons, ih]
    rfl

/-- A running maximum is the greatest of the start and of the values. -/
lemma isGreatest_foldl_max (f : RelationScan → ℚ) (rows : List RelationScan) (x : ℚ) :
    IsGreatest ({x} ∪ {y | ∃ r ∈ rows, f r = y}) (rows.foldl (fun m r => max m (f r)) x) := by
  induction rows generalizing x with
  | nil => simp
  | cons r rows ih =>
    obtain ⟨hmem, hle⟩ := ih (max x (f r))
    refine ⟨?_, ?_⟩
    · rcases hmem with hmax | ⟨r', hr', heq⟩
      · rw [List.foldl_cons, Set.mem_singleton_iff.mp hmax]
        rcases max_choice x (f r) with hx | hr
        · exact Or.inl hx
        · exact Or.inr ⟨r, List.mem_cons_self, hr.symm⟩
      · exact Or.inr ⟨r', List.mem_cons_of_mem _ hr', heq⟩
    · have hstart : max x (f r) ≤ rows.foldl (fun m r => max m (f r)) (max x (f r)) :=
        hle (Or.inl rfl)
      rintro y (rfl | ⟨r', hr', rfl⟩)
      · exact (le_max_left _ _).trans hstart
      · rcases List.mem_cons.mp hr' with rfl | hr'
        · exact (le_max_right _ _).trans hstart
        · exact hle (Or.inr ⟨r', hr', rfl⟩)

/-- The attributes of an edge that is read from an empty multigraph. -/
lemma get?_hydrate_empty (entities : List (String × EntityRow)) (rows : List RelationScan)
    (e : Edge) :
    (RamGraph.empty.hydrate isValid entities rows).edges.get? e =
      match rowsOf isValid rows e with
      | [] => none
      | r :: rest => some ⟨rest.foldl (fun m r => max m r.confidenceOf) r.confidenceOf,
          rest.foldl (fun m r => max m r.timestampOf) r.timestampOf, none⟩ := by
  rw [get?_hydrate]
  cases rowsOf isValid rows e with
  | nil => rfl
  | cons r rest => exact foldl_mergeRow_some rest _

/-- Rows that have been merged change nothing when they are merged again. -/
lemma foldl_mergeRow_again (rows : List RelationScan) :
    rows.foldl (fun prev r => some (mergeRow prev r))
        (rows.foldl (fun prev r => some (mergeRow prev r)) none) =
      rows.foldl (fun prev r => some (mergeRow prev r)) none := by
  have habsorb : ∀ (f : RelationScan → ℚ) (l : List RelationScan) (m : ℚ),
      (∀ r ∈ l, f r ≤ m) → l.foldl (fun m r => max m (f r)) m = m := by
    intro f l m hl
    obtain ⟨hmem, hle⟩ := isGreatest_foldl_max f l m
    refine le_antisymm ?_ (hle (Or.inl rfl))
    rcases hmem with heq | ⟨r, hr, heq⟩
    · exact heq.le
    · rw [← heq]
      exact hl r hr
  cases rows with
  | nil => rfl
  | cons r rest =>
    have honce : (r :: rest).foldl (fun prev r => some (mergeRow prev r)) none =
        some ⟨(r :: rest).foldl (fun m r => max m r.confidenceOf) r.confidenceOf,
          (r :: rest).foldl (fun m r => max m r.timestampOf) r.timestampOf, none⟩ := by
      rw [List.foldl_cons, mergeRow, foldl_mergeRow_some, List.foldl_cons, List.foldl_cons,
        max_self, max_self]
    rw [honce, foldl_mergeRow_some]
    congr 2
    · exact habsorb _ _ _ fun r' hr' =>
        (isGreatest_foldl_max confidenceOf (r :: rest) _).2 (Or.inr ⟨r', hr', rfl⟩)
    · exact habsorb _ _ _ fun r' hr' =>
        (isGreatest_foldl_max timestampOf (r :: rest) _).2 (Or.inr ⟨r', hr', rfl⟩)

/-! ## The purge -/

lemma rowsOf_withoutEntities {names : List String} (hnames : ∀ name ∈ names, isValid name = false)
    (rows : List RelationScan) (e : Edge) :
    rowsOf isValid (withoutEntities names rows) e = rowsOf isValid rows e := by
  rw [rowsOf, withoutEntities, List.filter_filter, rowsOf]
  refine List.filter_congr fun r _ => ?_
  by_cases hread : ReadsInto isValid r e
  · have hkept : (names.all fun name =>
        decide (r.subject ≠ some name ∧ r.object ≠ some name)) = true := by
      rw [List.all_eq_true]
      intro name hname
      have hinvalid := hnames name hname
      have hvalid := hread.1
      rw [decide_eq_true_eq]
      unfold isValidRow at hvalid
      split at hvalid
      · rename_i s o hs ho
        rw [KuzuGraphStore.validEnds, Bool.and_eq_true] at hvalid
        constructor
        · rw [hs]
          rintro ⟨⟩
          rw [hinvalid] at hvalid
          exact Bool.false_ne_true hvalid.1
        · rw [ho]
          rintro ⟨⟩
          rw [hinvalid] at hvalid
          exact Bool.false_ne_true hvalid.2
      · exact absurd hvalid Bool.false_ne_true
    rw [hkept, Bool.and_true]
  · simp [hread]

lemma isValid_of_mem_invalidNames {entities : List (String × EntityRow)} {name : String}
    (h : name ∈ invalidNames isValid entities rows) : isValid name = false := by
  rcases List.mem_append.mp h with h | h
  · have hfound := (List.mem_filter.mp h).2
    simp only [Bool.and_eq_true, Bool.not_eq_true'] at hfound
    exact hfound.2
  · obtain ⟨r, -, hr⟩ := List.mem_filterMap.mp h
    unfold invalidEnd at hr
    split at hr
    · split_ifs at hr with hs ho
      · exact Option.some.inj hr ▸ hs
      · exact Option.some.inj hr ▸ ho
    · cases hr

/-! ## The hydrated edges -/

/-- **Hydration** of an empty multigraph gives one edge for each triple of a row with two valid
entities, with the greatest confidence and the greatest timestamp of its rows; any order of the
rows, with any entities, gives the same edges; and so does a second hydration, after the invalid
entities that could be deleted are gone from the disk. -/
theorem hydrated_edges (isValid : String → Bool) (entities : List (String × EntityRow))
    (rows : List RelationScan) :
    (∀ e, ((RamGraph.empty.hydrate isValid entities rows).edges.get? e).isSome = true ↔
      ∃ r ∈ rows, ReadsInto isValid r e) ∧
    (∀ e attrs, (RamGraph.empty.hydrate isValid entities rows).edges.get? e = some attrs →
      IsGreatest {x | ∃ r ∈ rows, ReadsInto isValid r e ∧ r.confidenceOf = x} attrs.confidence ∧
      IsGreatest {x | ∃ r ∈ rows, ReadsInto isValid r e ∧ r.timestampOf = x} attrs.timestamp) ∧
    (∀ entities' rows', rows'.Perm rows → ∀ e,
      (RamGraph.empty.hydrate isValid entities' rows').edges.get? e =
        (RamGraph.empty.hydrate isValid entities rows).edges.get? e) ∧
    ∀ names entities' rows', (∀ name ∈ names, name ∈ invalidNames isValid entities rows) →
      rows'.Perm (withoutEntities names rows) → ∀ e,
        ((RamGraph.empty.hydrate isValid entities rows).hydrate isValid entities' rows').edges.get?
            e = (RamGraph.empty.hydrate isValid entities rows).edges.get? e := by
  have hrows : ∀ e, (∃ r ∈ rows, ReadsInto isValid r e) ↔ rowsOf isValid rows e ≠ [] := by
    intro e
    rw [← List.isEmpty_eq_false_iff, List.isEmpty_eq_false_iff_exists_mem]
    exact exists_congr fun r => mem_rowsOf.symm
  have hvalues : ∀ (f : RelationScan → ℚ) (e : Edge) (r : RelationScan) (rest : List RelationScan),
      rowsOf isValid rows e = r :: rest →
      IsGreatest {x | ∃ r ∈ rows, ReadsInto isValid r e ∧ f r = x}
        (rest.foldl (fun m r => max m (f r)) (f r)) := by
    intro f e r rest hrest
    have hset : {x | ∃ r ∈ rows, ReadsInto isValid r e ∧ f r = x} =
        {f r} ∪ {y | ∃ r' ∈ rest, f r' = y} := by
      ext x
      constructor
      · rintro ⟨r', hmem, hread, rfl⟩
        have hr' : r' ∈ r :: rest := hrest ▸ mem_rowsOf.mpr ⟨hmem, hread⟩
        rcases List.mem_cons.mp hr' with rfl | hr'
        · exact Or.inl rfl
        · exact Or.inr ⟨r', hr', rfl⟩
      · have hof : ∀ r' ∈ r :: rest, r' ∈ rows ∧ ReadsInto isValid r' e := fun r' hr' =>
          mem_rowsOf.mp (hrest ▸ hr')
        rintro (rfl | ⟨r', hr', rfl⟩)
        · obtain ⟨hmem, hread⟩ := hof r List.mem_cons_self
          exact ⟨r, hmem, hread, rfl⟩
        · obtain ⟨hmem, hread⟩ := hof r' (List.mem_cons_of_mem _ hr')
          exact ⟨r', hmem, hread, rfl⟩
    rw [hset]
    exact isGreatest_foldl_max f rest (f r)
  refine ⟨fun e => ?_, fun e attrs h => ?_, fun entities' rows' hperm e => ?_, ?_⟩
  · rw [get?_hydrate_empty, hrows]
    cases rowsOf isValid rows e <;> simp
  · rw [get?_hydrate_empty] at h
    cases hrest : rowsOf isValid rows e with
    | nil =>
      rw [hrest] at h
      cases h
    | cons r rest =>
      rw [hrest] at h
      obtain rfl := Option.some.inj h
      exact ⟨hvalues confidenceOf e r rest hrest, hvalues timestampOf e r rest hrest⟩
  · rw [get?_hydrate, get?_hydrate]
    exact foldl_mergeRow_perm (hperm.filter _) _
  · intro names entities' rows' hnames hperm e
    have hsame : (rowsOf isValid rows' e).Perm (rowsOf isValid rows e) := by
      rw [← rowsOf_withoutEntities (fun name hname => isValid_of_mem_invalidNames
        (hnames name hname)) rows e]
      exact hperm.filter _
    rw [get?_hydrate, get?_hydrate, foldl_mergeRow_perm hsame]
    exact foldl_mergeRow_again _

end AtlasMemory
