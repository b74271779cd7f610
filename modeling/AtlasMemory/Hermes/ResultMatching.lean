import AtlasMemory.Hermes.Trajectory

/-!
# Which result belongs to which call

A result is attributed to a call with an id by the key under which it is stored, and to a call
without one by its position among all results.  The two mechanisms do not know of each other: a
result that carries an id may stand at the position of a call without one.  The results are
attributed to their own calls if and only if no two calls share an id for which there is a result,
the results at the positions of the calls without an id carry none, and the key of a result is the
stripped id of its call.
-/

namespace PyDict

variable {κ ν : Type*} [DecidableEq κ]

/-- A dictionary that is built from items finds one of them. -/
lemma mem_of_get?_ofEntries {l : List (κ × ν)} {k : κ} {v : ν}
    (h : (ofEntries l).get? k = some v) : (k, v) ∈ l := by
  have hfold : ∀ (l : List (κ × ν)) (d : PyDict κ ν),
      (l.foldl (fun d e => d.set e.1 e.2) d).get? k = some v → (k, v) ∈ l ∨ d.get? k = some v := by
    intro l
    induction l with
    | nil => exact fun d h => Or.inr h
    | cons e l ih =>
      intro d h
      rcases ih _ h with hmem | hset
      · exact Or.inl (List.mem_cons_of_mem e hmem)
      · rw [get?_set] at hset
        split_ifs at hset with heq
        · obtain rfl := heq
          obtain rfl := Option.some.inj hset
          exact Or.inl List.mem_cons_self
        · exact Or.inr hset
  rcases hfold l ∅ h with hmem | hempty
  · exact hmem
  · cases hempty

/-- It finds an item for every key that one of them has. -/
lemma isSome_get?_ofEntries {l : List (κ × ν)} {k : κ} {v : ν} (h : (k, v) ∈ l) :
    ∃ v', (ofEntries l).get? k = some v' := by
  have hkeep : ∀ (l : List (κ × ν)) (d : PyDict κ ν), (∃ v', d.get? k = some v') →
      ∃ v', (l.foldl (fun d e => d.set e.1 e.2) d).get? k = some v' := by
    intro l
    induction l with
    | nil => exact fun d h => h
    | cons e l ih =>
      rintro d ⟨v', hv'⟩
      refine ih _ ?_
      rw [get?_set]
      split_ifs
      · exact ⟨_, rfl⟩
      · exact ⟨v', hv'⟩
  have hfold : ∀ (l : List (κ × ν)) (d : PyDict κ ν), (k, v) ∈ l →
      ∃ v', (l.foldl (fun d e => d.set e.1 e.2) d).get? k = some v' := by
    intro l
    induction l with
    | nil => exact fun d h => absurd h List.not_mem_nil
    | cons e l ih =>
      intro d h
      rcases List.mem_cons.mp h with rfl | h
      · refine hkeep l _ ⟨v, ?_⟩
        rw [get?_set, if_pos rfl]
      · exact ih _ h
  exact hfold l ∅ h

end PyDict

namespace AtlasMemory

namespace Trajectory

variable (env : ExtractorEnv)

/-- The id that a result carries, without the white space around it. -/
def ToolResult.id (result : ToolResult) : Option String := (result.key env).map PyString.strip

def callIds (messages : List Json) : List String :=
  ((namedCalls env messages).map NamedCall.id).filter (· ≠ "")

/-- No result is attributed to two calls, a result that carries an id only to a call with that id,
and with distinct ids every call whose result is in the transcript gets it. -/
structure AttributedToOwnCall (messages : List Json) : Prop where
  once : (matchResults env messages).Pairwise fun p q =>
    ∀ r r', p.2 = some r → q.2 = some r' → r.place ≠ r'.place
  own : ∀ p ∈ matchResults env messages, ∀ r, p.2 = some r → r.key env ≠ none →
    p.1.id ≠ "" ∧ r.id env = some p.1.id
  all : (callIds env messages).Nodup → ∀ call ∈ namedCalls env messages, call.id ≠ "" →
    (∃ r ∈ orderedResults env messages, r.id env = some call.id) →
      ∃ r, (call, some r) ∈ matchResults env messages ∧ r.id env = some call.id

/-- The two mechanisms do not meet. -/
structure Separated (messages : List Json) : Prop where
  /-- Two calls share an id only if no result is stored under it. -/
  distinct : (namedCalls env messages).Pairwise fun c c' => c.id ≠ "" → c.id = c'.id →
    ∀ r ∈ orderedResults env messages, r.key env ≠ some c.id
  /-- The first results, as many as there are calls without an id, carry none. -/
  positional : ∀ r ∈ (orderedResults env messages).take
    ((namedCalls env messages).countP NamedCall.withoutId), r.key env = none
  /-- With distinct ids, a result whose id is that of a call is stored under it. -/
  exact : (callIds env messages).Nodup → ∀ call ∈ namedCalls env messages, call.id ≠ "" →
    (∃ r ∈ orderedResults env messages, r.id env = some call.id) →
      ∃ r ∈ orderedResults env messages, r.key env = some call.id

variable {env} {messages : List Json}

/-! ## The results of the transcript -/

lemma pairwise_place : (orderedResults env messages).Pairwise fun r r' => r.place < r'.place := by
  have hplace : ∀ {m : Json × ℕ} {r : ToolResult}, toolResult? env m = some r → r.place = m.2 := by
    rintro ⟨m, place⟩ r h
    rcases m with _ | _ | _ | _ | _ | _ | _ | _ | message
    case obj =>
      unfold toolResult? at h
      dsimp only at h
      split_ifs at h
      rw [← Option.some.inj h]
    all_goals exact nomatch h
  refine List.pairwise_filterMap.mpr (List.pairwise_iff_getElem.mpr ?_)
  intro i j hi hj hij r hr r' hr'
  rw [hplace hr, hplace hr', List.getElem_zipIdx, List.getElem_zipIdx]
  omega

lemma resultsById_of_get? {id : String} {r : ToolResult}
    (h : (resultsById env messages).get? id = some r) :
    r ∈ orderedResults env messages ∧ r.key env = some id := by
  obtain ⟨r', hr', heq⟩ := List.mem_filterMap.mp (PyDict.mem_of_get?_ofEntries h)
  obtain ⟨key, hkey, hpair⟩ := Option.map_eq_some_iff.mp heq
  obtain ⟨rfl, rfl⟩ := Prod.mk.inj hpair
  exact ⟨hr', hkey⟩

lemma exists_get?_of_key {id : String} {r : ToolResult} (hr : r ∈ orderedResults env messages)
    (hkey : r.key env = some id) : ∃ r', (resultsById env messages).get? id = some r' := by
  refine PyDict.isSome_get?_ofEntries (v := r) (List.mem_filterMap.mpr ⟨r, hr, ?_⟩)
  rw [hkey]
  rfl

/-! ## The loop over the calls -/

lemma withoutId_iff {call : NamedCall} : call.withoutId = true ↔ call.id = "" := decide_eq_true_iff

/-- Every call gets a result by its id or by a position. -/
lemma of_mem_matchCalls {n : ℕ} {calls : List NamedCall} {p : NamedCall × Option ToolResult}
    (h : p ∈ matchCalls env messages n calls) : p.1 ∈ calls ∧
      ((p.1.id ≠ "" ∧ p.2 = (resultsById env messages).get? p.1.id) ∨
        (p.1.id = "" ∧ ∃ j, n ≤ j ∧ j < n + calls.countP NamedCall.withoutId ∧
          p.2 = (orderedResults env messages)[j]?)) := by
  induction calls generalizing n with
  | nil => exact absurd h List.not_mem_nil
  | cons call calls ih =>
    unfold matchCalls at h
    by_cases hid : call.withoutId = true
    · rw [if_pos hid] at h
      rw [List.countP_cons_of_pos hid]
      rcases List.mem_cons.mp h with rfl | h
      · exact ⟨List.mem_cons_self, Or.inr ⟨withoutId_iff.mp hid, n, le_rfl, by omega, rfl⟩⟩
      · obtain ⟨hmem, hresult⟩ := ih h
        refine ⟨List.mem_cons_of_mem call hmem, hresult.imp id ?_⟩
        rintro ⟨hblank, j, hlow, hhigh, hj⟩
        exact ⟨hblank, j, by omega, by omega, hj⟩
    · rw [if_neg hid] at h
      rw [List.countP_cons_of_neg hid]
      rcases List.mem_cons.mp h with rfl | h
      · exact ⟨List.mem_cons_self, Or.inl ⟨fun hblank => hid (withoutId_iff.mpr hblank), rfl⟩⟩
      · obtain ⟨hmem, hresult⟩ := ih h
        exact ⟨List.mem_cons_of_mem call hmem, hresult⟩

lemma map_fst_matchCalls (n : ℕ) (calls : List NamedCall) :
    (matchCalls env messages n calls).map Prod.fst = calls := by
  induction calls generalizing n with
  | nil => rfl
  | cons call calls ih =>
    unfold matchCalls
    split_ifs
    · rw [List.map_cons, ih]
    · rw [List.map_cons, ih]

/-- Every position below the number of calls without an id is used. -/
lemma exists_mem_matchCalls {n : ℕ} {calls : List NamedCall} {j : ℕ} (hlow : n ≤ j)
    (hhigh : j < n + calls.countP NamedCall.withoutId) :
    ∃ call, call.id = "" ∧
      (call, (orderedResults env messages)[j]?) ∈ matchCalls env messages n calls := by
  induction calls generalizing n with
  | nil =>
    rw [List.countP_nil] at hhigh
    omega
  | cons call calls ih =>
    unfold matchCalls
    by_cases hid : call.withoutId = true
    · rw [if_pos hid]
      rw [List.countP_cons_of_pos hid] at hhigh
      rcases hlow.eq_or_lt with rfl | hlt
      · exact ⟨call, withoutId_iff.mp hid, List.mem_cons_self⟩
      · obtain ⟨call', hblank, hmem⟩ := ih (n := n + 1) hlt (by omega)
        exact ⟨call', hblank, List.mem_cons_of_mem _ hmem⟩
    · rw [if_neg hid]
      rw [List.countP_cons_of_neg hid] at hhigh
      obtain ⟨call', hblank, hmem⟩ := ih hlow hhigh
      exact ⟨call', hblank, List.mem_cons_of_mem _ hmem⟩

/-! ## Attribution -/

lemma eq_of_place {r r' : ToolResult} (hr : r ∈ orderedResults env messages)
    (hr' : r' ∈ orderedResults env messages) (h : r.place = r'.place) : r = r' := by
  obtain ⟨i, hi, rfl⟩ := List.mem_iff_getElem.mp hr
  obtain ⟨j, hj, rfl⟩ := List.mem_iff_getElem.mp hr'
  have hpairs := List.pairwise_iff_getElem.mp (@pairwise_place env messages)
  rcases lt_trichotomy i j with hij | rfl | hij
  · have hlt := hpairs i j hi hj hij
    omega
  · rfl
  · have hlt := hpairs j i hj hi hij
    omega

/-- A result that a call without an id gets is among the first ones. -/
lemma Separated.key_eq_none (h : Separated env messages) {j : ℕ}
    (hj : j < (namedCalls env messages).countP NamedCall.withoutId) {r : ToolResult}
    (hr : (orderedResults env messages)[j]? = some r) : r.key env = none := by
  refine h.positional r (List.mem_of_getElem? (i := j) ?_)
  rw [List.getElem?_take_of_lt hj, hr]

/-- The calls from some position on get different results. -/
lemma Separated.pairwise (h : Separated env messages) {n : ℕ} {calls : List NamedCall}
    (hcalls : calls.Pairwise fun c c' => c.id ≠ "" → c.id = c'.id →
      ∀ r ∈ orderedResults env messages, r.key env ≠ some c.id)
    (hn : n + calls.countP NamedCall.withoutId =
      (namedCalls env messages).countP NamedCall.withoutId) :
    (matchCalls env messages n calls).Pairwise fun p q =>
      ∀ r r', p.2 = some r → q.2 = some r' → r.place ≠ r'.place := by
  induction calls generalizing n with
  | nil => exact List.Pairwise.nil
  | cons call calls ih =>
    obtain ⟨hfirst, hrest⟩ := List.pairwise_cons.mp hcalls
    unfold matchCalls
    by_cases hid : call.withoutId = true
    · rw [if_pos hid]
      rw [List.countP_cons_of_pos hid] at hn
      refine List.pairwise_cons.mpr ⟨fun q hq r r' hr hr' heq => ?_, ih hrest (by omega)⟩
      have hnone := h.key_eq_none (j := n) (by omega) hr
      rcases (of_mem_matchCalls hq).2 with ⟨-, hkey⟩ | ⟨-, j, hlow, hhigh, hj⟩
      · obtain ⟨hmem, hkey⟩ := resultsById_of_get? (hkey.symm.trans hr')
        rw [eq_of_place (List.mem_of_getElem? hr) hmem heq, hkey] at hnone
        exact nomatch hnone
      · obtain ⟨hi, rfl⟩ := List.getElem?_eq_some_iff.mp hr
        obtain ⟨hi', rfl⟩ := List.getElem?_eq_some_iff.mp (hj.symm.trans hr')
        have hlt := List.pairwise_iff_getElem.mp (@pairwise_place env messages) n j hi hi' (by omega)
        omega
    · rw [if_neg hid]
      rw [List.countP_cons_of_neg hid] at hn
      refine List.pairwise_cons.mpr ⟨fun q hq r r' hr hr' heq => ?_, ih hrest hn⟩
      obtain ⟨hmem, hkey⟩ := resultsById_of_get? hr
      obtain ⟨hcall, hresult⟩ := of_mem_matchCalls hq
      rcases hresult with ⟨-, hget⟩ | ⟨-, j, hlow, hhigh, hj⟩
      · obtain ⟨hmem', hkey'⟩ := resultsById_of_get? (hget.symm.trans hr')
        have hsame : call.id = q.1.id := by
          rw [eq_of_place hmem hmem' heq, hkey'] at hkey
          exact (Option.some.inj hkey).symm
        exact hfirst q.1 hcall (fun hblank => hid (withoutId_iff.mpr hblank)) hsame r hmem hkey
      · have hnone := h.key_eq_none (j := j) (by omega) (hj.symm.trans hr')
        rw [← eq_of_place hmem (List.mem_of_getElem? (hj.symm.trans hr')) heq, hkey] at hnone
        exact nomatch hnone

lemma exists_mem_matchResults {call : NamedCall} (h : call ∈ namedCalls env messages) :
    ∃ result, (call, result) ∈ matchResults env messages := by
  rw [← @map_fst_matchCalls env messages 0 (namedCalls env messages)] at h
  obtain ⟨p, hp, rfl⟩ := List.mem_map.mp h
  exact ⟨p.2, hp⟩

/-- The result of a call with an id is the one that is stored under the id. -/
lemma result_of_id {call : NamedCall} {result : Option ToolResult}
    (h : (call, result) ∈ matchResults env messages) (hid : call.id ≠ "") :
    result = (resultsById env messages).get? call.id := by
  rcases (of_mem_matchCalls h).2 with ⟨-, hget⟩ | ⟨hblank, -⟩
  · exact hget
  · exact absurd hblank hid

lemma Separated.attributed (h : Separated env messages) : AttributedToOwnCall env messages where
  once := h.pairwise h.distinct (Nat.zero_add _)
  own p hp r hr hkey := by
    rcases (of_mem_matchCalls hp).2 with ⟨hid, hget⟩ | ⟨-, j, -, hj, hresult⟩
    · obtain ⟨-, hstored⟩ := resultsById_of_get? (hget.symm.trans hr)
      refine ⟨hid, ?_⟩
      rw [ToolResult.id, hstored, Option.map_some, p.1.strip_id]
    · rw [Nat.zero_add] at hj
      exact absurd (h.key_eq_none hj (hresult.symm.trans hr)) hkey
  all hnodup call hcall hid hpresent := by
    obtain ⟨r, hr, hkey⟩ := h.exact hnodup call hcall hid hpresent
    obtain ⟨r', hr'⟩ := exists_get?_of_key hr hkey
    obtain ⟨result, hmem⟩ := exists_mem_matchResults hcall
    rw [result_of_id hmem hid, hr'] at hmem
    refine ⟨r', hmem, ?_⟩
    rw [ToolResult.id, (resultsById_of_get? hr').2, Option.map_some, call.strip_id]

lemma AttributedToOwnCall.separated (h : AttributedToOwnCall env messages) :
    Separated env messages where
  distinct := by
    rw [← @map_fst_matchCalls env messages 0 (namedCalls env messages)]
    refine List.pairwise_map.mpr (h.once.imp_of_mem ?_)
    intro p q hp hq honce hid heq r hr hkey
    obtain ⟨r', hr'⟩ := exists_get?_of_key hr hkey
    refine honce r' r' ?_ ?_ rfl
    · rw [@result_of_id env messages p.1 p.2 hp hid, hr']
    · rw [@result_of_id env messages q.1 q.2 hq (heq ▸ hid), ← heq, hr']
  positional r hr := by
    obtain ⟨j, hj, rfl⟩ := List.mem_iff_getElem.mp hr
    rw [List.length_take] at hj
    obtain ⟨call, hblank, hmem⟩ := @exists_mem_matchCalls env messages 0
      (namedCalls env messages) j (Nat.zero_le j) (by omega)
    rw [List.getElem_take]
    by_contra hkey
    have hget := List.getElem?_eq_getElem (l := orderedResults env messages) (i := j) (by omega)
    exact (h.own _ hmem _ hget hkey).1 hblank
  exact hnodup call hcall hid hpresent := by
    obtain ⟨r, hmem, -⟩ := h.all hnodup call hcall hid hpresent
    exact ⟨r, resultsById_of_get? (result_of_id hmem hid).symm⟩

/-- **Results and calls.**  The results of a transcript are attributed to their own calls if and only
if the matching by ids and the matching by positions are separated. -/
theorem attributed_iff_separated (env : ExtractorEnv) (messages : List Json) :
    AttributedToOwnCall env messages ↔ Separated env messages :=
  ⟨AttributedToOwnCall.separated, Separated.attributed⟩

/-- Two calls, of which the second one has an id, and the result of the second one. -/
def stolenResult : List Json :=
  [.obj [("role", .str "assistant"), ("tool_calls", .arr
      [.obj [("function", .obj [("name", .str "ls")])],
        .obj [("id", .str "x"), ("function", .obj [("name", .str "cat")])]])],
    .obj [("role", .str "tool"), ("tool_call_id", .str "x"), ("content", .str "ok")]]

/-- The call without an id gets the result of the other one as well. -/
theorem result_stolen :
    ((matchResults .sample stolenResult).map fun p => (p.1.name, p.2.map ToolResult.place)) =
        [("ls", some 1), ("cat", some 1)] ∧
      ¬ AttributedToOwnCall .sample stolenResult := by
  have hrun : ((matchResults .sample stolenResult).map fun p =>
      (p.1.name, p.2.map ToolResult.place)) = [("ls", some 1), ("cat", some 1)] := by
    decide +kernel
  refine ⟨hrun, fun h => ?_⟩
  obtain ⟨p, l, hl, hp, hrest⟩ := List.map_eq_cons_iff.mp hrun
  obtain ⟨q, l', rfl, hq, -⟩ := List.map_eq_cons_iff.mp hrest
  obtain ⟨r, hr, hplace⟩ := Option.map_eq_some_iff.mp (congrArg Prod.snd hp)
  obtain ⟨r', hr', hplace'⟩ := Option.map_eq_some_iff.mp (congrArg Prod.snd hq)
  have honce := h.once
  rw [hl] at honce
  exact (List.pairwise_cons.mp honce).1 q List.mem_cons_self r r' hr hr'
    (hplace.trans hplace'.symm)

end Trajectory

end AtlasMemory
