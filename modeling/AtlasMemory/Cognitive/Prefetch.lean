import AtlasMemory.Cognitive.GraphChannel
import AtlasMemory.Foundations.SeparatedText

/-!
# The prefetch engine and its deduplication

The model of `PrefetchEngine.execute` around its sliding buffer of results.  A request is answered
from the buffer when an entry under its key is fresh; otherwise it goes through the pipeline, and
what the pipeline gives is stored under the key.  The pipeline awaits its stores, so other requests
are checked and stored in the meantime: a request arrives, and completes or fails at a later step.

What the pipeline gives is arbitrary here.  An entry remembers the request that stored it, which the
code does not, so that an answer can be compared with the request it was computed for.
-/

namespace AtlasMemory

/-- What a `PrefetchEngine` takes a request's missing parameters from. -/
structure PrefetchEngine where
  defaultLimit : ℤ := 50
  defaultTokenBudget : ℤ := 1500
  fusionStrategy : String := ""
  enableCalibratedThresholds : Bool := true

/-- What `_resolve_context` and `_score_pool` read from the parameters of a request. -/
structure PrefetchContext where
  query : String
  sessionId : Json
  limit : ℤ
  budget : ℤ
  force : Bool
  fusionStrategy : Option String
  enableCalibratedThresholds : Bool

/-- An entry of the buffer, with the request that stored it. -/
structure DedupEntry where
  time : ℚ
  result : PyDict String Json
  hippoEnabled : Bool
  storedBy : PrefetchContext

namespace PrefetchEngine

open SeparatedText Retrieval

variable (rt : Runtime) (intOf : Json → Except PyError ℤ) (engine : PrefetchEngine)

/-! ## Requests -/

/-- `int(params.get(a) or params.get(b) or … or default)`, where `intOf` is `int`. -/
def intParam (params : PyDict String Json) (names : List String) (default : ℤ) :
    Except PyError ℤ :=
  match firstTruthy rt params names with
  | some v => intOf v
  | none => .ok default

/-- `_resolve_context`, with the fusion strategy of `_score_pool`. -/
def resolveContext (params : PyDict String Json) : Except PyError PrefetchContext := do
  let limit ← intParam rt intOf params ["limit"] engine.defaultLimit
  let budget ← intParam rt intOf params ["token_budget", "budget", "max_tokens"]
    engine.defaultTokenBudget
  let fusion := PyString.strip
    (((firstTruthy rt params ["fusion_strategy"]).map rt.pyStr).getD engine.fusionStrategy)
  return {
    query := PyString.strip (textOfFirst rt params ["query"])
    sessionId := (params.get? "session_id").getD .null
    limit := limit
    budget := budget
    force := rt.truthy ((params.get? "force").getD (.bool false))
    fusionStrategy := if fusion = "" then none else some fusion
    enableCalibratedThresholds :=
      ((params.get? "enable_calibrated_thresholds").map rt.truthy).getD
        engine.enableCalibratedThresholds }

/-- `f"{session_id or ''}"`. -/
def sessionText (ctx : PrefetchContext) : String :=
  if rt.truthy ctx.sessionId then rt.pyStr ctx.sessionId else ""

/-! ## The buffer -/

/-- `f"{query.strip()}||{session_id or ''}||{limit}||{budget}"`. -/
def dedupKey (ctx : PrefetchContext) : String :=
  PyString.strip ctx.query ++ "||" ++ sessionText rt ctx ++ "||" ++ toString ctx.limit ++ "||" ++
    toString ctx.budget

/-- `_DEDUP_TTL_SECONDS`. -/
def dedupTtlSeconds : ℚ := 3 / 2

/-- `_check_dedup`: the entry that the request is answered from. -/
def checkDedup (cache : PyDict String DedupEntry) (now : ℚ) (hippoEnabled : Bool)
    (ctx : PrefetchContext) : Option DedupEntry :=
  if ctx.force = true ∨ ctx.query = "" then none
  else (cache.get? (dedupKey rt ctx)).filter fun e =>
    e.hippoEnabled == hippoEnabled && decide (now - e.time < dedupTtlSeconds)

/-- `_store_dedup`. -/
def storeDedup (cache : PyDict String DedupEntry) (now : ℚ) (hippoEnabled : Bool)
    (ctx : PrefetchContext) (result : PyDict String Json) : PyDict String DedupEntry :=
  if ctx.force = true ∨ ctx.query = "" then cache
  else
    let stored := cache.set (dedupKey rt ctx) ⟨now, result, hippoEnabled, ctx⟩
    if 200 < stored.size then stored.filter fun _ e => decide (now - 10 ≤ e.time) else stored

/-! ## Runs -/

/-- What happens to an engine.  The clock and the setting that is compared are read at each step. -/
inductive Event where
  | arrive (params : PyDict String Json) (now : ℚ) (hippoEnabled : Bool)
  | complete (i : ℕ) (now : ℚ) (hippoEnabled : Bool) (result : PyDict String Json)
  | fail (i : ℕ)

/-- The buffer, the requests in the pipeline, and the requests that were answered from the buffer,
each with its entry. -/
structure State where
  cache : PyDict String DedupEntry := ∅
  pending : List PrefetchContext := []
  answers : List (PrefetchContext × DedupEntry) := []

/-- One event.  A request whose numbers cannot be read raises before the buffer is looked at. -/
def step (s : State) : Event → State
  | .arrive params now hippoEnabled =>
    match resolveContext rt intOf engine params with
    | .error _ => s
    | .ok ctx =>
      match checkDedup rt s.cache now hippoEnabled ctx with
      | some e => { s with answers := s.answers ++ [(ctx, e)] }
      | none => { s with pending := s.pending ++ [ctx] }
  | .complete i now hippoEnabled result =>
    match s.pending[i]? with
    | none => s
    | some ctx =>
      { s with
        cache := storeDedup rt s.cache now hippoEnabled ctx result
        pending := s.pending.eraseIdx i }
  | .fail i => { s with pending := s.pending.eraseIdx i }

def run (events : List Event) : State := events.foldl (step rt intOf engine) {}

/-! ## Requests that look alike -/

/-- The requests agree in all that the result depends on. -/
structure SameRequest (r r' : PrefetchContext) : Prop where
  query : r.query = r'.query
  session : r.sessionId = r'.sessionId
  limit : r.limit = r'.limit
  budget : r.budget = r'.budget
  fusion : r.fusionStrategy = r'.fusionStrategy
  calibrated : r.enableCalibratedThresholds = r'.enableCalibratedThresholds

/-- Two requests for the buffer, the limit and the budget the same, are told apart by nothing that
stands in the key: a separator inside the query of one is that between query and session of the
other, or what differs is not in the key or has the same text there. -/
structure Aliased (r r' : PrefetchContext) : Prop where
  buffered : (r.force = false ∧ r.query ≠ "") ∧ r'.force = false ∧ r'.query ≠ ""
  limit : r.limit = r'.limit
  budget : r.budget = r'.budget
  differ :
    Shifted '|' r.query.toList (sessionText rt r).toList r'.query.toList
        (sessionText rt r').toList ∨
      Shifted '|' r'.query.toList (sessionText rt r').toList r.query.toList
        (sessionText rt r).toList ∨
      r.query = r'.query ∧ sessionText rt r = sessionText rt r' ∧
        (r.sessionId ≠ r'.sessionId ∨ r.fusionStrategy ≠ r'.fusionStrategy ∨
          r.enableCalibratedThresholds ≠ r'.enableCalibratedThresholds)

variable {rt intOf engine} {r r' : PrefetchContext} {s : State}

/-! ## Keys -/

lemma query_of_resolveContext {params : PyDict String Json}
    (h : resolveContext rt intOf engine params = .ok r) : PyString.strip r.query = r.query := by
  unfold resolveContext at h
  obtain ⟨limit, -, h⟩ := exists_of_bind_eq_ok h
  obtain ⟨budget, -, h⟩ := exists_of_bind_eq_ok h
  rw [← Except.ok.inj h]
  exact PyString.strip_strip _

/-- Keys are equal if the numbers are and the queries and sessions join to the same text. -/
lemma dedupKey_eq_iff (hr : PyString.strip r.query = r.query)
    (hr' : PyString.strip r'.query = r'.query) :
    dedupKey rt r = dedupKey rt r' ↔ r.limit = r'.limit ∧ r.budget = r'.budget ∧
      r.query.toList ++ '|' :: '|' :: (sessionText rt r).toList =
        r'.query.toList ++ '|' :: '|' :: (sessionText rt r').toList := by
  have hsplit : ∀ c : PrefetchContext, PyString.strip c.query = c.query →
      (dedupKey rt c).toList =
        (((c.query.toList ++ '|' :: '|' :: (sessionText rt c).toList) ++ ['|']) ++
          '|' :: (toString c.limit).toList ++ ['|']) ++ '|' :: (toString c.budget).toList := by
    intro c hc
    rw [dedupKey, hc]
    simp [String.toList_append]
  have hcount : ∀ n : ℤ, (toString n).toList.count '|' = 0 := fun n =>
    List.count_eq_zero.mpr (notMem_toString (by decide) (by decide) n)
  constructor
  · intro h
    have hlist := congrArg String.toList h
    rw [hsplit r hr, hsplit r' hr'] at hlist
    obtain ⟨hfront, hbudget⟩ := append_cons_inj_of_count hlist (by rw [hcount, hcount])
    obtain ⟨hfront, hlimit⟩ := append_cons_inj_of_count (List.append_cancel_right hfront)
      (by rw [hcount, hcount])
    exact ⟨toString_injective (String.toList_inj.mp hlimit),
      toString_injective (String.toList_inj.mp hbudget), List.append_cancel_right hfront⟩
  · rintro ⟨hlimit, hbudget, hjoined⟩
    rw [← String.toList_inj, hsplit r hr, hsplit r' hr', hlimit, hbudget, hjoined]

/-- Buffered requests under one key are the same or aliased. -/
lemma same_or_aliased (hr : PyString.strip r.query = r.query)
    (hr' : PyString.strip r'.query = r'.query) (hkey : dedupKey rt r = dedupKey rt r')
    (hbuffered : (r.force = false ∧ r.query ≠ "") ∧ r'.force = false ∧ r'.query ≠ "") :
    SameRequest r r' ∨ Aliased rt r r' := by
  obtain ⟨hlimit, hbudget, hjoined⟩ := (dedupKey_eq_iff hr hr').mp hkey
  rcases append_cons_cons_inj.mp hjoined with ⟨hquery, hsession⟩ | hshifted
  · have hquery := String.toList_inj.mp hquery
    have hsession := String.toList_inj.mp hsession
    by_cases hsame : r.sessionId = r'.sessionId ∧ r.fusionStrategy = r'.fusionStrategy ∧
        r.enableCalibratedThresholds = r'.enableCalibratedThresholds
    · exact Or.inl ⟨hquery, hsame.1, hlimit, hbudget, hsame.2.1, hsame.2.2⟩
    · refine Or.inr ⟨hbuffered, hlimit, hbudget, Or.inr (Or.inr ⟨hquery, hsession, ?_⟩)⟩
      rw [not_and_or, not_and_or] at hsame
      exact hsame
  · refine Or.inr ⟨hbuffered, hlimit, hbudget, ?_⟩
    rcases hshifted with hshifted | hshifted
    · exact Or.inl hshifted
    · exact Or.inr (Or.inl hshifted)

lemma dedupKey_of_aliased (hr : PyString.strip r.query = r.query)
    (hr' : PyString.strip r'.query = r'.query) (h : Aliased rt r r') :
    dedupKey rt r = dedupKey rt r' := by
  refine (dedupKey_eq_iff hr hr').mpr ⟨h.limit, h.budget, append_cons_cons_inj.mpr ?_⟩
  rcases h.differ with hshifted | hshifted | ⟨hquery, hsession, -⟩
  · exact Or.inr (Or.inl hshifted)
  · exact Or.inr (Or.inr hshifted)
  · exact Or.inl ⟨by rw [hquery], by rw [hsession]⟩

lemma not_sameRequest_of_aliased (h : Aliased rt r r') : ¬ SameRequest r r' := by
  intro hsame
  have hlist : r.query.toList = r'.query.toList := by rw [hsame.query]
  rcases h.differ with hshifted | hshifted | ⟨-, -, hdiffer⟩
  · exact ne_of_shifted hshifted hlist
  · exact ne_of_shifted hshifted hlist.symm
  · rcases hdiffer with hdiffer | hdiffer | hdiffer
    · exact hdiffer hsame.session
    · exact hdiffer hsame.fusion
    · exact hdiffer hsame.calibrated

/-! ## What a run keeps -/

/-- The request is looked up and stored in the buffer. -/
def Buffered (r : PrefetchContext) : Prop :=
  (r.force = false ∧ r.query ≠ "") ∧ PyString.strip r.query = r.query

/-- The entries stand under the keys of the requests that stored them, and every answer was taken
from the entry under the key of the request. -/
structure Keyed (rt : Runtime) (s : State) : Prop where
  cache : ∀ k e, s.cache.get? k = some e → Buffered e.storedBy ∧ dedupKey rt e.storedBy = k
  pending : ∀ r ∈ s.pending, PyString.strip r.query = r.query
  answers : ∀ r e, (r, e) ∈ s.answers →
    Buffered r ∧ Buffered e.storedBy ∧ dedupKey rt e.storedBy = dedupKey rt r

lemma not_or_iff_buffered : ¬ (r.force = true ∨ r.query = "") ↔ r.force = false ∧ r.query ≠ "" := by
  rw [not_or, Bool.not_eq_true]

lemma get?_of_checkDedup {cache : PyDict String DedupEntry} {now : ℚ} {hippoEnabled : Bool}
    {e : DedupEntry} (h : checkDedup rt cache now hippoEnabled r = some e) :
    (r.force = false ∧ r.query ≠ "") ∧ cache.get? (dedupKey rt r) = some e := by
  unfold checkDedup at h
  split_ifs at h with hskip
  exact ⟨not_or_iff_buffered.mp hskip, (Option.filter_eq_some_iff.mp h).1⟩

/-- An entry after a result was stored was there before, or is the one of the request. -/
lemma get?_storeDedup {cache : PyDict String DedupEntry} {now : ℚ} {hippoEnabled : Bool}
    {result : PyDict String Json} {k : String} {e : DedupEntry}
    (h : (storeDedup rt cache now hippoEnabled r result).get? k = some e) :
    cache.get? k = some e ∨
      (r.force = false ∧ r.query ≠ "") ∧ dedupKey rt r = k ∧ e.storedBy = r := by
  have hset : ∀ {stored : PyDict String DedupEntry},
      cache.set (dedupKey rt r) ⟨now, result, hippoEnabled, r⟩ = stored →
        ¬ (r.force = true ∨ r.query = "") → stored.get? k = some e → cache.get? k = some e ∨
          (r.force = false ∧ r.query ≠ "") ∧ dedupKey rt r = k ∧ e.storedBy = r := by
    rintro stored rfl hskip hget
    by_cases hkey : dedupKey rt r = k
    · rw [hkey, PyDict.get?_set_self] at hget
      exact Or.inr ⟨not_or_iff_buffered.mp hskip, hkey, by rw [← Option.some.inj hget]⟩
    · rw [PyDict.get?_set_of_ne _ _ hkey] at hget
      exact Or.inl hget
  unfold storeDedup at h
  dsimp only at h
  split_ifs at h with hskip hfull
  · exact Or.inl h
  · rw [PyDict.get?_filter] at h
    exact hset rfl hskip (Option.filter_eq_some_iff.mp h).1
  · exact hset rfl hskip h

lemma keyed_step (hs : Keyed rt s) (event : Event) : Keyed rt (step rt intOf engine s event) := by
  cases event with
  | arrive params now hippoEnabled =>
      unfold step
      dsimp only
      split
      · exact hs
      · rename_i ctx hctx
        have hstrip := query_of_resolveContext hctx
        split
        · rename_i e hhit
          obtain ⟨hbuffered, hget⟩ := get?_of_checkDedup hhit
          obtain ⟨hstored, hkey⟩ := hs.cache _ e hget
          refine ⟨hs.cache, hs.pending, fun r' e' hmem => ?_⟩
          rcases List.mem_append.mp hmem with hmem | hmem
          · exact hs.answers r' e' hmem
          · obtain ⟨rfl, rfl⟩ := Prod.mk.inj (List.mem_singleton.mp hmem)
            exact ⟨⟨hbuffered, hstrip⟩, hstored, hkey⟩
        · refine ⟨hs.cache, fun r' hmem => ?_, hs.answers⟩
          rcases List.mem_append.mp hmem with hmem | hmem
          · exact hs.pending r' hmem
          · rw [List.mem_singleton.mp hmem]
            exact hstrip
  | complete i now hippoEnabled result =>
      unfold step
      dsimp only
      split
      · exact hs
      · rename_i ctx hctx
        have hstrip := hs.pending ctx (List.mem_of_getElem? hctx)
        refine ⟨fun k e hget => ?_, fun r' hmem => hs.pending r' (List.mem_of_mem_eraseIdx hmem),
          hs.answers⟩
        rcases get?_storeDedup hget with hget | ⟨hbuffered, hkey, hstored⟩
        · exact hs.cache k e hget
        · rw [hstored]
          exact ⟨⟨hbuffered, hstrip⟩, hkey⟩
  | fail i =>
      exact ⟨hs.cache, fun r' hmem => hs.pending r' (List.mem_of_mem_eraseIdx hmem), hs.answers⟩

lemma keyed_run (events : List Event) : Keyed rt (run rt intOf engine events) := by
  have hfold : ∀ (events : List Event) (s : State), Keyed rt s →
      Keyed rt (events.foldl (step rt intOf engine) s) := by
    intro events
    induction events with
    | nil => exact fun s hs => hs
    | cons event events ih => exact fun s hs => ih _ (keyed_step hs event)
  refine hfold events {} ⟨fun k e hget => ?_, fun r' hmem => ?_, fun r' e hmem => ?_⟩
  · exact absurd hget (by simp)
  · exact absurd hmem List.not_mem_nil
  · exact absurd hmem List.not_mem_nil

/-- One request after another under its key, and the second is answered by the first. -/
lemma answered_of_key {params params' : PyDict String Json}
    (h : resolveContext rt intOf engine params = .ok r)
    (h' : resolveContext rt intOf engine params' = .ok r')
    (hbuffered : r.force = false ∧ r.query ≠ "") (hbuffered' : r'.force = false ∧ r'.query ≠ "")
    (hkey : dedupKey rt r = dedupKey rt r') :
    (r', ⟨0, ∅, true, r⟩) ∈ (run rt intOf engine
      [.arrive params 0 true, .complete 0 0 true ∅, .arrive params' 0 true]).answers := by
  have hmiss : checkDedup rt ∅ 0 true r = none := by
    rw [checkDedup, if_neg (not_or_iff_buffered.mpr hbuffered), PyDict.get?_empty]
    rfl
  have hstore : storeDedup rt ∅ 0 true r ∅ =
      PyDict.set ∅ (dedupKey rt r) ⟨0, ∅, true, r⟩ := by
    unfold storeDedup
    rw [if_neg (not_or_iff_buffered.mpr hbuffered)]
    exact if_neg (show ¬ 200 < 1 by decide)
  have hhit : checkDedup rt (storeDedup rt ∅ 0 true r ∅) 0 true r' = some ⟨0, ∅, true, r⟩ := by
    rw [hstore, checkDedup, if_neg (not_or_iff_buffered.mpr hbuffered'), ← hkey,
      PyDict.get?_set_self]
    have hfresh : (0 : ℚ) - 0 < dedupTtlSeconds := by
      unfold dedupTtlSeconds
      norm_num
    exact Option.filter_eq_some_iff.mpr ⟨rfl, by simpa using hfresh⟩
  have harrive : step rt intOf engine {} (.arrive params 0 true) = { pending := [r] } := by
    unfold step
    simp only [h, hmiss, List.nil_append]
  have hcomplete : step rt intOf engine { pending := [r] } (.complete 0 0 true ∅) =
      { cache := storeDedup rt ∅ 0 true r ∅ } := rfl
  unfold run
  rw [List.foldl_cons, harrive, List.foldl_cons, hcomplete, List.foldl_cons]
  unfold step
  simp only [h', hhit, List.nil_append]
  exact List.mem_singleton_self _

/-- **Deduplication.** A request is only ever answered with the result of a request that agrees
with it in all that the result depends on, exactly if the two are not aliased. -/
theorem sameRequest_iff (rt : Runtime) (intOf : Json → Except PyError ℤ)
    (engine : PrefetchEngine) (params params' : PyDict String Json) (r r' : PrefetchContext)
    (h : resolveContext rt intOf engine params = .ok r)
    (h' : resolveContext rt intOf engine params' = .ok r') :
    (∀ events e, (r', e) ∈ (run rt intOf engine events).answers → e.storedBy = r →
      SameRequest r r') ↔ ¬ Aliased rt r r' := by
  have hstrip := query_of_resolveContext h
  have hstrip' := query_of_resolveContext h'
  constructor
  · intro hall haliased
    have hanswer := answered_of_key h h' haliased.buffered.1 haliased.buffered.2
      (dedupKey_of_aliased hstrip hstrip' haliased)
    exact not_sameRequest_of_aliased haliased (hall _ _ hanswer rfl)
  · intro haliased events e hanswer hstored
    obtain ⟨hbuffered', hbuffered, hkey⟩ := (keyed_run events).answers r' e hanswer
    rw [hstored] at hbuffered hkey
    rcases same_or_aliased hstrip hstrip' hkey ⟨hbuffered.1, hbuffered'.1⟩ with hsame | halias
    · exact hsame
    · exact absurd halias haliased

/-- The parameters of a request with a query and a session. -/
def sampleParams (query session : String) : PyDict String Json :=
  PyDict.ofEntries [("query", .str query), ("session_id", .str session)]

/-- What the sample parameters resolve to. -/
def sampleContext (query session : String) : PrefetchContext where
  query := query
  sessionId := .str session
  limit := 50
  budget := 1500
  force := false
  fusionStrategy := none
  enableCalibratedThresholds := true

/-- Two requests without separators. -/
theorem sameRequest_sample :
    ¬ Aliased Runtime.sample (sampleContext "editor" "work") (sampleContext "editor" "play") ∧
      ∀ events e,
        (sampleContext "editor" "play", e) ∈
            (run Runtime.sample (fun _ => .ok 0) {} events).answers →
          e.storedBy = sampleContext "editor" "work" →
            SameRequest (sampleContext "editor" "work") (sampleContext "editor" "play") := by
  have hne : ¬ Aliased Runtime.sample (sampleContext "editor" "work")
      (sampleContext "editor" "play") := by
    intro haliased
    have hstrip : ∀ session, PyString.strip (sampleContext "editor" session).query =
        (sampleContext "editor" session).query := fun session => by
      show PyString.strip "editor" = "editor"
      decide
    have hkey := dedupKey_of_aliased (hstrip "work") (hstrip "play") haliased
    exact absurd hkey (by decide)
  exact ⟨hne, (sameRequest_iff Runtime.sample (fun _ => .ok 0) {} (sampleParams "editor" "work")
    (sampleParams "editor" "play") _ _ rfl rfl).mpr hne⟩

/-- A separator in the query is read as the one before the session. -/
theorem separator_in_query_answered :
    ∃ events e, (sampleContext "a" "b||c", e) ∈
        (run Runtime.sample (fun _ => .ok 0) {} events).answers ∧
      e.storedBy = sampleContext "a||b" "c" ∧
        ¬ SameRequest (sampleContext "a||b" "c") (sampleContext "a" "b||c") := by
  have hfirst : resolveContext Runtime.sample (fun _ => .ok 0) {} (sampleParams "a||b" "c") =
      .ok (sampleContext "a||b" "c") := rfl
  have hsecond : resolveContext Runtime.sample (fun _ => .ok 0) {} (sampleParams "a" "b||c") =
      .ok (sampleContext "a" "b||c") := rfl
  have hanswer := answered_of_key hfirst hsecond ⟨rfl, by decide⟩ ⟨rfl, by decide⟩
    (by decide)
  refine ⟨_, _, hanswer, rfl, fun hsame => ?_⟩
  exact absurd hsame.query (by decide)

end PrefetchEngine

end AtlasMemory
