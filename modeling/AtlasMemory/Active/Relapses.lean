import AtlasMemory.Active.EntityAliases

/-!
# Relapses

Successes and coolings lower the temperature of an entity for good: neither the count of the
successes nor the cooling factor is reset by an error.  After a run of errors of the greatest score
the entity is critical if and only if the state before them had counted fewer than three successes
and was not cooled too far for so many errors.
-/

namespace AtlasMemory

namespace ActiveSensing

/-- What is recorded on the engine. -/
inductive Event
  | success (entity : String)
  | cool (entity : String) (factor : ℚ)
  | error (err : PredictionError)

def Event.errors : Event → List PredictionError
  | .error err => [err]
  | .success _ | .cool _ _ => []

section Model

variable (env : SensingEnv)

def Engine.record (engine : Engine) : Event → Engine
  | .success entity => engine.recordSuccess env entity
  | .cool entity factor => engine.coolEntity env entity factor
  | .error err => engine.addErrors [err]

def Engine.runEvents (engine : Engine) (events : List Event) : Engine :=
  events.foldl (Engine.record env) engine

/-- The successes that were recorded for the entity. -/
def successCount (e : String) (events : List Event) : ℕ :=
  events.countP fun
    | .success entity => decide (env.fold entity = env.fold e)
    | _ => false

/-- The names under which the successes and the coolings of the entity are looked up. -/
def namesOf (e : String) : List String := [env.fold e, lastPart (env.fold e), entityId env e]

/-- The event is an error of the greatest score on the entity, or a success or a cooling that is not
written under one of its names. -/
def InRelapse (e : String) : Event → Prop
  | .success entity | .cool entity _ =>
    env.fold entity ∉ namesOf env e ∧ lastPart (env.fold entity) ∉ namesOf env e
  | .error err => env.fold err.targetEntity = env.fold e ∧ err.discrepancyScore = 1

/-- The temperature that `n` errors of the greatest score would give to a name: those of the
present errors count that still fit into the history. -/
def Engine.relapseHeat (engine : Engine) (name : String) (n : ℕ) : ℚ :=
  let kept := (engine.errorHistory.items.rtake (1000 - n)).filter fun err =>
    concerns name (env.fold err.targetEntity)
  ((kept.map fun err => err.discrepancyScore ^ 2).sum + min 1000 n) / (kept.length + min 1000 n) *
    engine.coolingMult name

/-- The entity has a name and an id, fewer than three successes are counted for it, and `n` errors
heat both up to the threshold. -/
structure StaysWarm (engine : Engine) (e : String) (n : ℕ) : Prop where
  named : env.fold e ≠ ""
  id_named : entityId env e ≠ ""
  few : engine.successes (env.fold e) < 3
  warm : 15 / 100 ≤ engine.relapseHeat env (env.fold e) n
  id_warm : 15 / 100 ≤ engine.relapseHeat env (entityId env e) n

end Model

variable {env : SensingEnv} {e : String}

/-! ## What a relapse leaves alone -/

/-- The engines agree on the successes and the coolings of the names. -/
def SameCooling (engine engine' : Engine) (names : List String) : Prop :=
  ∀ name ∈ names, engine'.entitySuccesses.getD name 0 = engine.entitySuccesses.getD name 0 ∧
    engine'.entityCoolings.getD name 1 = engine.entityCoolings.getD name 1

lemma SameCooling.trans {engine engine' engine'' : Engine} {names : List String}
    (h : SameCooling engine engine' names) (h' : SameCooling engine' engine'' names) :
    SameCooling engine engine'' names :=
  fun name hname => ⟨(h' name hname).1.trans (h name hname).1,
    (h' name hname).2.trans (h name hname).2⟩

lemma getD_set_of_ne {ν : Type*} (d : PyDict String ν) {k k' : String} (v default : ν)
    (h : k ≠ k') : (d.set k v).getD k' default = d.getD k' default := by
  rw [PyDict.getD, PyDict.getD, PyDict.get?_set_of_ne d v h]

lemma sameCooling_coolBySuccess (engine : Engine) {entity : String} {names : List String}
    (h : entity ∉ names) : SameCooling engine (engine.coolBySuccess entity) names := by
  intro name hname
  have hne : entity ≠ name := fun heq => h (heq ▸ hname)
  exact ⟨getD_set_of_ne _ _ _ hne, getD_set_of_ne _ _ _ hne⟩

lemma sameCooling_record (engine : Engine) {ev : Event} (h : InRelapse env e ev) :
    SameCooling engine (engine.record env ev) (namesOf env e) := by
  have hrefl : SameCooling engine engine (namesOf env e) := fun _ _ => ⟨rfl, rfl⟩
  rcases ev with entity | ⟨entity, factor⟩ | err
  · show SameCooling engine (engine.recordSuccess env entity) _
    unfold Engine.recordSuccess
    dsimp only
    split_ifs
    · exact hrefl
    · exact sameCooling_coolBySuccess engine h.1
    · exact (sameCooling_coolBySuccess engine h.1).trans (sameCooling_coolBySuccess _ h.2)
  · show SameCooling engine (engine.coolEntity env entity factor) _
    unfold Engine.coolEntity
    dsimp only
    split_ifs with hempty hlast
    · exact hrefl
    · intro name hname
      have hne : env.fold entity ≠ name := fun heq => h.1 (heq ▸ hname)
      exact ⟨rfl, getD_set_of_ne _ _ _ hne⟩
    · intro name hname
      have hne : env.fold entity ≠ name := fun heq => h.1 (heq ▸ hname)
      have hlast' : lastPart (env.fold entity) ≠ name := fun heq => h.2 (heq ▸ hname)
      exact ⟨rfl, Eq.trans (getD_set_of_ne _ _ _ hlast') (getD_set_of_ne _ _ _ hne)⟩
  · intro name _
    unfold Engine.record Engine.addErrors
    dsimp only
    exact ⟨rfl, rfl⟩

lemma errorHistory_record (engine : Engine) (ev : Event) :
    (engine.record env ev).errorHistory = engine.errorHistory.extend ev.errors := by
  rcases ev with entity | ⟨entity, factor⟩ | err
  · show (engine.recordSuccess env entity).errorHistory = _
    unfold Engine.recordSuccess
    dsimp only
    split_ifs <;> rfl
  · show (engine.coolEntity env entity factor).errorHistory = _
    unfold Engine.coolEntity
    dsimp only
    split_ifs <;> rfl
  · rfl

/-- A relapse changes nothing of the entity but its errors. -/
lemma runEvents_relapse (engine : Engine) {tail : List Event}
    (h : ∀ ev ∈ tail, InRelapse env e ev) :
    SameCooling engine (engine.runEvents env tail) (namesOf env e) ∧
      (engine.runEvents env tail).errorHistory =
        engine.errorHistory.extend (tail.flatMap Event.errors) := by
  induction tail generalizing engine with
  | nil => exact ⟨fun _ _ => ⟨rfl, rfl⟩, rfl⟩
  | cons ev tail ih =>
    obtain ⟨hev, htail⟩ := List.forall_mem_cons.mp h
    obtain ⟨hsame, hhistory⟩ := ih (engine.record env ev) htail
    refine ⟨(sameCooling_record engine hev).trans hsame, ?_⟩
    show ((engine.record env ev).runEvents env tail).errorHistory = _
    rw [hhistory, errorHistory_record, ← BoundedDeque.extend_append, List.flatMap_cons]

/-! ## The temperature after a relapse -/

/-- The errors of a relapse are on the entity and of the greatest score. -/
lemma errors_of_relapse {tail : List Event} (h : ∀ ev ∈ tail, InRelapse env e ev) :
    ∀ err ∈ tail.flatMap Event.errors,
      env.fold err.targetEntity = env.fold e ∧ err.discrepancyScore = 1 := by
  intro err herr
  obtain ⟨ev, hev, herr⟩ := List.mem_flatMap.mp herr
  rcases ev with entity | ⟨entity, factor⟩ | err'
  · exact absurd herr List.not_mem_nil
  · exact absurd herr List.not_mem_nil
  · rw [List.mem_singleton.mp herr]
    exact h _ hev

lemma sum_map_of_forall_one {errs : List PredictionError}
    (h : ∀ err ∈ errs, err.discrepancyScore = 1) :
    (errs.map fun err => err.discrepancyScore ^ 2).sum = (errs.length : ℚ) := by
  have hone : (errs.map fun err => err.discrepancyScore ^ 2) = errs.map fun _ => (1 : ℚ) :=
    List.map_congr_left fun err herr => by rw [h err herr, one_pow]
  rw [hone, List.map_const', List.sum_replicate, nsmul_eq_mul, mul_one]

/-- What a relapse does to the errors that concern one of the names. -/
structure Relapsed (engine later : Engine) (errs : List PredictionError) : Prop where
  history : later.errorHistory = engine.errorHistory.extend errs
  one : ∀ err ∈ errs, err.discrepancyScore = 1
  ne_nil : errs ≠ []

lemma Relapsed.length_rtake {engine later : Engine} {errs : List PredictionError}
    (h : Relapsed engine later errs) : 0 < (errs.rtake 1000).length ∧
      (errs.rtake 1000).length = min 1000 errs.length := by
  have hlength : (errs.rtake 1000).length = min 1000 errs.length := BoundedDeque.length_rtake _ _
  have hpos := List.length_pos_of_ne_nil h.ne_nil
  exact ⟨by omega, hlength⟩

/-- The errors that are in the history after a relapse. -/
lemma Relapsed.items {engine later : Engine} {errs : List PredictionError}
    (h : Relapsed engine later errs) : later.errorHistory.items =
      engine.errorHistory.items.rtake (1000 - errs.length) ++ errs.rtake 1000 := by
  rw [h.history, BoundedDeque.items_extend, BoundedDeque.rtake_append]

/-- The temperature of a name after errors of the greatest score that concern it. -/
lemma Relapsed.temperature {engine later : Engine} {errs : List PredictionError}
    (h : Relapsed engine later errs) {name folded : String} (hfold : env.fold name = folded)
    (hname : folded ≠ "") (hcooling : later.coolingMult folded = engine.coolingMult folded)
    (hconcerns : ∀ err ∈ errs, concerns folded (env.fold err.targetEntity) = true) :
    later.getEntityTemperature env name =
      max 0 (engine.relapseHeat env folded errs.length) := by
  have hlast : ((errs.rtake 1000).filter fun err =>
      concerns folded (env.fold err.targetEntity)) = errs.rtake 1000 :=
    List.filter_eq_self.mpr fun err herr =>
      hconcerns err (BoundedDeque.mem_of_mem_rtake herr)
  obtain ⟨hpos, hlength⟩ := h.length_rtake
  have hsum := @sum_map_of_forall_one (errs.rtake 1000) fun err herr =>
    h.one err (BoundedDeque.mem_of_mem_rtake herr)
  unfold Engine.getEntityTemperature Engine.relapseHeat
  rw [h.items, hfold]
  simp only [if_neg hname, List.filter_append, hlast, List.map_append, List.sum_append, hsum,
    hlength, List.length_append, List.length_map, hcooling]
  rw [if_neg]
  · push_cast
    rfl
  · intro hempty
    have hzero := congrArg List.length (List.append_eq_nil_iff.mp hempty).2
    rw [List.length_map, hlength, List.length_nil] at hzero
    omega

lemma Relapsed.any_critical {engine later : Engine} {errs : List PredictionError}
    (h : Relapsed engine later errs) {folded : String}
    (hconcerns : ∀ err ∈ errs, concerns folded (env.fold err.targetEntity) = true) :
    (later.errorHistory.items.reverse.any fun err =>
      concerns folded (env.fold err.targetEntity) &&
        (decide (env.upper err.severity = "CRITICAL") ||
          decide (7 / 10 ≤ err.discrepancyScore))) = true := by
  obtain ⟨err, herr⟩ := List.exists_mem_of_length_pos h.length_rtake.1
  have herr' := BoundedDeque.mem_of_mem_rtake herr
  rw [List.any_reverse, h.items, List.any_append, Bool.or_eq_true]
  refine Or.inr (List.any_eq_true.mpr ⟨err, herr, ?_⟩)
  rw [hconcerns err herr', h.one err herr']
  norm_num

/-- The names are among those that a relapse leaves alone. -/
lemma cooling_of_same {engine later : Engine}
    (h : SameCooling engine later (namesOf env e)) :
    later.successes (env.fold e) = engine.successes (env.fold e) ∧
      later.coolingMult (env.fold e) = engine.coolingMult (env.fold e) ∧
        later.coolingMult (entityId env e) = engine.coolingMult (entityId env e) := by
  obtain ⟨hname, hlast, hid⟩ : _ ∧ _ ∧ _ := ⟨h (env.fold e) (by simp [namesOf]),
    h (lastPart (env.fold e)) (by simp [namesOf]), h (entityId env e) (by simp [namesOf])⟩
  have hcount : later.successes (env.fold e) = engine.successes (env.fold e) := by
    unfold Engine.successes
    rw [hname.1, hlast.1]
  have hcountId : later.successes (entityId env e) = engine.successes (entityId env e) := by
    unfold Engine.successes
    rw [lastPart_entityId, hid.1]
  refine ⟨hcount, ?_, ?_⟩
  · unfold Engine.coolingMult
    rw [hname.2, hlast.2, hcount]
  · unfold Engine.coolingMult
    rw [lastPart_entityId, hid.2, hcountId]

lemma le_max_zero_iff {x : ℚ} : ¬ max 0 x < 15 / 100 ↔ 15 / 100 ≤ x := by
  rw [not_lt, le_max_iff]
  constructor
  · rintro (h | h)
    · norm_num at h
    · exact h
  · exact Or.inr

/-- The tests of `is_entity_critical` after one critical error. -/
lemma isEntityCritical_iff {later : Engine}
    (hany : (later.errorHistory.items.reverse.any fun err =>
      concerns (env.fold e) (env.fold err.targetEntity) &&
        (decide (env.upper err.severity = "CRITICAL") ||
          decide (7 / 10 ≤ err.discrepancyScore))) = true) :
    later.isEntityCritical env e = true ↔ env.fold e ≠ "" ∧ later.successes (env.fold e) < 3 ∧
      ¬ later.getEntityTemperature env (env.fold e) < 15 / 100 ∧
        ¬ later.getEntityTemperature env (lastPart (env.fold e)) < 15 / 100 := by
  unfold Engine.isEntityCritical
  simp only [hany]
  by_cases hnamed : env.fold e = ""
  · simp [hnamed]
  · by_cases hmany : 3 ≤ later.successes (env.fold e)
    · simp [hnamed, hmany]
    · rw [if_neg hnamed, if_neg hmany]
      have hfew : later.successes (env.fold e) < 3 := not_le.mp hmany
      simp [hnamed, hfew]

/-- An entity that a relapse of at least one error has reached is critical if and only if it stays
warm. -/
lemma critical_of_relapse {engine : Engine} {tail : List Event}
    (h : ∀ ev ∈ tail, InRelapse env e ev) (hne : tail.flatMap Event.errors ≠ []) :
    (engine.runEvents env tail).isEntityCritical env e = true ↔
      StaysWarm env engine e (tail.flatMap Event.errors).length := by
  obtain ⟨hsame, hhistory⟩ := runEvents_relapse engine h
  obtain ⟨hcount, hcooling, hcoolingId⟩ := cooling_of_same hsame
  have herrors := errors_of_relapse h
  have hrelapsed : Relapsed engine (engine.runEvents env tail) (tail.flatMap Event.errors) :=
    ⟨hhistory, fun err herr => (herrors err herr).2, hne⟩
  have hon : ∀ err ∈ tail.flatMap Event.errors,
      concerns (env.fold e) (env.fold err.targetEntity) = true := by
    intro err herr
    rw [(herrors err herr).1]
    exact concerns_iff.mpr (Or.inl List.infix_rfl)
  have honId : ∀ err ∈ tail.flatMap Event.errors,
      concerns (entityId env e) (env.fold err.targetEntity) = true := by
    intro err herr
    rw [(herrors err herr).1]
    exact concerns_iff.mpr (Or.inl (entityId_isInfix env e))
  rw [isEntityCritical_iff (hrelapsed.any_critical hon), hcount]
  by_cases hid : entityId env e = ""
  · -- a name without a temperature is cold
    have hcold : (engine.runEvents env tail).getEntityTemperature env (lastPart (env.fold e)) =
        0 := by
      unfold Engine.getEntityTemperature
      rw [fold_lastPart, hid]
      rfl
    rw [hcold]
    exact iff_of_false (fun hall => hall.2.2.2 (by norm_num)) fun hwarm => hwarm.id_named hid
  · have hheatId := hrelapsed.temperature (fold_lastPart env e) hid hcoolingId honId
    constructor
    · rintro ⟨hnamed, hfew, hheat, hlast⟩
      rw [hrelapsed.temperature (fold_fold env e) hnamed hcooling hon] at hheat
      rw [hheatId] at hlast
      exact ⟨hnamed, hid, hfew, le_max_zero_iff.mp hheat, le_max_zero_iff.mp hlast⟩
    · rintro ⟨hnamed, -, hfew, hwarm, hwarmId⟩
      rw [hheatId, hrelapsed.temperature (fold_fold env e) hnamed hcooling hon]
      exact ⟨hnamed, hfew, le_max_zero_iff.mpr hwarm, le_max_zero_iff.mpr hwarmId⟩

end ActiveSensing

end AtlasMemory
