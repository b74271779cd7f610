import AtlasMemory.Active.ActiveSensing
import AtlasMemory.Cognitive.ConflictArbiter
import AtlasMemory.Foundations.SeparatedText
import AtlasMemory.Foundations.PyText

/-!
# The entities that an error concerns

An error concerns an entity when the name of one occurs in the name of the other, so that an error
on an entity with a short name, or with a name that contains the id of the entity, changes its
temperature.  An error whose target neither occurs in the name of the entity nor contains its id
changes nothing, unless it pushes an older error out of the full history: neither the temperature,
nor whether the entity is critical, nor whether the arbiter takes a rule for a melted one.
-/

namespace PyString

lemma hasInfix_iff {s t : String} : hasInfix s t = true ↔ s.toList <:+: t.toList := by
  unfold hasInfix
  rw [List.any_eq_true, List.infix_iff_prefix_suffix]
  constructor
  · rintro ⟨cs, hcs, hprefix⟩
    exact ⟨cs, List.isPrefixOf_iff_prefix.mp hprefix, (List.mem_tails cs t.toList).mp hcs⟩
  · rintro ⟨cs, hprefix, hsuffix⟩
    exact ⟨cs, (List.mem_tails cs t.toList).mpr hsuffix, List.isPrefixOf_iff_prefix.mpr hprefix⟩

lemma strip_infix (s : String) : (strip s).toList <:+: s.toList := by
  unfold strip stripWith
  rw [String.toList_ofList, PyText.stripList_eq]
  exact (List.rdropWhile_prefix _ _).isInfix.trans (List.dropWhile_suffix _).isInfix

end PyString

namespace AtlasMemory

namespace ActiveSensing

/-! ## Names -/

lemma lastPart_mem (s : String) : lastPart s ∈ PyString.split ':' s := by
  have hne : PyString.split ':' s ≠ [] := by
    unfold PyString.split
    rw [ne_eq, List.map_eq_nil_iff]
    exact List.splitOnP_ne_nil _ _
  unfold lastPart
  rw [List.getLastD_eq_getLast?, List.getLast?_eq_getLast_of_ne_nil hne, Option.getD_some]
  exact List.getLast_mem hne

/-- The last part stands in the name and has no separator. -/
lemma lastPart_isInfix (s : String) : (lastPart s).toList <:+: s.toList ∧ ':' ∉ (lastPart s).toList := by
  obtain ⟨w, hw, heq⟩ := List.mem_map.mp (lastPart_mem s)
  rw [← heq, String.toList_ofList]
  refine ⟨SeparatedText.infix_of_mem_splitOnP hw, fun hmem => ?_⟩
  have hcolon := SeparatedText.eq_false_of_mem_splitOnP hw hmem
  simp at hcolon

lemma lastPart_eq_self {s : String} (h : ':' ∉ s.toList) : lastPart s = s := by
  have hsplit : PyString.split ':' s = [s] := by
    unfold PyString.split
    rw [List.splitOnP_eq_singleton, List.map_singleton, String.ofList_toList]
    rintro c hc
    rw [decide_eq_false_iff_not]
    rintro rfl
    exact h hc
  rw [lastPart, hsplit]
  rfl

section Names

variable (env : SensingEnv) (e : String)

/-- The id of an entity: what `get_entity_temperature` makes of the last part of its name. -/
def entityId : String := PyString.strip (lastPart (env.fold e))

@[simp] lemma fold_fold : env.fold (env.fold e) = env.fold e := by
  unfold SensingEnv.fold
  rw [env.strip_lower, PyString.strip_strip, env.lower_lower]

@[simp] lemma fold_lastPart : env.fold (lastPart (env.fold e)) = entityId env e := by
  have hlower : env.lower (lastPart (env.fold e)) = lastPart (env.fold e) :=
    env.lower_part (PyString.strip e) _ (lastPart_mem _)
  show env.lower (PyString.strip (lastPart (env.fold e))) = PyString.strip (lastPart (env.fold e))
  rw [← env.strip_lower, hlower]

lemma entityId_isInfix : (entityId env e).toList <:+: (env.fold e).toList :=
  (PyString.strip_infix _).trans (lastPart_isInfix _).1

@[simp] lemma lastPart_entityId : lastPart (entityId env e) = entityId env e :=
  lastPart_eq_self fun h =>
    (lastPart_isInfix (env.fold e)).2 ((PyString.strip_infix _).subset h)

end Names

/-! ## Unrelated errors -/

/-- The target neither occurs in the name of the entity nor contains its id. -/
def Unrelated (env : SensingEnv) (e : String) (err : PredictionError) : Prop :=
  PyString.hasInfix (env.fold err.targetEntity) (env.fold e) = false ∧
    PyString.hasInfix (entityId env e) (env.fold err.targetEntity) = false

variable {env : SensingEnv} {e : String} {err : PredictionError}

lemma concerns_iff {entity target : String} : concerns entity target = true ↔
    entity.toList <:+: target.toList ∨ target.toList <:+: entity.toList := by
  unfold concerns
  rw [Bool.or_eq_true, Bool.or_eq_true, Bool.or_eq_true, decide_eq_true_eq, decide_eq_true_eq,
    PyString.hasInfix_iff, PyString.hasInfix_iff]
  constructor
  · rintro (((rfl | h) | h) | rfl)
    · exact Or.inl List.infix_rfl
    · exact Or.inl h
    · exact Or.inr h
    · exact Or.inr (lastPart_isInfix entity).1
  · rintro (h | h)
    · exact Or.inl (Or.inl (Or.inr h))
    · exact Or.inl (Or.inr h)

lemma Unrelated.not_infix (h : Unrelated env e err) :
    ¬ (env.fold err.targetEntity).toList <:+: (env.fold e).toList ∧
      ¬ (entityId env e).toList <:+: (env.fold err.targetEntity).toList :=
  ⟨fun hin => Bool.false_ne_true (h.1.symm.trans (PyString.hasInfix_iff.mpr hin)),
    fun hin => Bool.false_ne_true (h.2.symm.trans (PyString.hasInfix_iff.mpr hin))⟩

/-- An unrelated error concerns neither the entity nor its id. -/
lemma Unrelated.concerns_eq_false (h : Unrelated env e err) :
    concerns (env.fold e) (env.fold err.targetEntity) = false ∧
      concerns (entityId env e) (env.fold err.targetEntity) = false := by
  obtain ⟨htarget, hid⟩ := h.not_infix
  rw [← Bool.not_eq_true, ← Bool.not_eq_true, concerns_iff, concerns_iff]
  refine ⟨?_, ?_⟩
  · rintro (hin | hin)
    · exact hid ((entityId_isInfix env e).trans hin)
    · exact htarget hin
  · rintro (hin | hin)
    · exact hid hin
    · exact htarget (hin.trans (entityId_isInfix env e))

/-! ## What unrelated errors leave alone -/

/-- The engine after the errors have been put into its history. -/
def Engine.addErrors (engine : Engine) (errs : List PredictionError) : Engine :=
  { engine with errorHistory := engine.errorHistory.extend errs }

variable {engine : Engine} {errs : List PredictionError}

lemma filter_append_of_forall_false {α : Type*} {p : α → Bool} {xs ys : List α}
    (h : ∀ y ∈ ys, p y = false) : (xs ++ ys).filter p = xs.filter p := by
  have hnone : ys.filter p = [] := List.filter_eq_nil_iff.mpr fun y hy hp => by
    rw [h y hy] at hp
    exact Bool.false_ne_true hp
  rw [List.filter_append, hnone, List.append_nil]

/-- The temperature is computed from the errors that concern the name. -/
lemma temperature_addErrors (hfit : engine.errorHistory.items.length + errs.length ≤ 1000)
    {name : String}
    (h : ∀ err ∈ errs, concerns (env.fold name) (env.fold err.targetEntity) = false) :
    (engine.addErrors errs).getEntityTemperature env name =
      engine.getEntityTemperature env name := by
  have hfilter : ((engine.addErrors errs).errorHistory.items.filter fun err =>
      concerns (env.fold name) (env.fold err.targetEntity)) =
        engine.errorHistory.items.filter fun err =>
          concerns (env.fold name) (env.fold err.targetEntity) := by
    rw [Engine.addErrors, BoundedDeque.items_extend_of_le hfit]
    exact filter_append_of_forall_false h
  unfold Engine.getEntityTemperature
  simp only [hfilter]
  rfl

/-- Unrelated errors change neither the temperature of the entity nor whether it is critical. -/
lemma addErrors_of_unrelated (hfit : engine.errorHistory.items.length + errs.length ≤ 1000)
    (h : ∀ err ∈ errs, Unrelated env e err) :
    (engine.addErrors errs).getEntityTemperature env e = engine.getEntityTemperature env e ∧
      (engine.addErrors errs).isEntityCritical env e = engine.isEntityCritical env e := by
  have hname := fun err herr => (h err herr).concerns_eq_false.1
  have hid := fun err herr => (h err herr).concerns_eq_false.2
  have htemp : (engine.addErrors errs).getEntityTemperature env (env.fold e) =
      engine.getEntityTemperature env (env.fold e) := by
    refine temperature_addErrors hfit fun err herr => ?_
    rw [fold_fold]
    exact hname err herr
  have htempId : (engine.addErrors errs).getEntityTemperature env (lastPart (env.fold e)) =
      engine.getEntityTemperature env (lastPart (env.fold e)) := by
    refine temperature_addErrors hfit fun err herr => ?_
    rw [fold_lastPart]
    exact hid err herr
  have hany : ((engine.addErrors errs).errorHistory.items.reverse.any fun err =>
      concerns (env.fold e) (env.fold err.targetEntity) &&
        (decide (env.upper err.severity = "CRITICAL") ||
          decide (7 / 10 ≤ err.discrepancyScore))) =
      engine.errorHistory.items.reverse.any fun err =>
        concerns (env.fold e) (env.fold err.targetEntity) &&
          (decide (env.upper err.severity = "CRITICAL") ||
            decide (7 / 10 ≤ err.discrepancyScore)) := by
    rw [Engine.addErrors, BoundedDeque.items_extend_of_le hfit, List.any_reverse, List.any_reverse,
      List.any_append]
    rw [Bool.or_eq_left_iff_imp, List.any_eq_true]
    rintro ⟨err, herr, hcrit⟩
    rw [hname err herr, Bool.false_and] at hcrit
    exact absurd hcrit Bool.false_ne_true
  refine ⟨temperature_addErrors hfit hname, ?_⟩
  unfold Engine.isEntityCritical
  simp only [htemp, htempId, hany]
  rfl

/-- **Temperatures are local up to the names.**  As long as the history is not full, errors whose
targets neither occur in the name of an entity nor contain its id change neither its temperature nor
whether it is critical; and the arbiter melts a rule after them if and only if it does before. -/
theorem temperature_local (env : SensingEnv) (lex : Lexicon) {engine : Engine}
    {errs : List PredictionError}
    (hfit : engine.errorHistory.items.length + errs.length ≤ 1000) :
    (∀ e, (∀ err ∈ errs, Unrelated env e err) →
      (engine.addErrors errs).getEntityTemperature env e = engine.getEntityTemperature env e ∧
        (engine.addErrors errs).isEntityCritical env e = engine.isEntityCritical env e) ∧
    ∀ (arbiter : ConflictArbiter) (rule : String),
      (∀ err ∈ errs, Unrelated env rule err ∧
        Unrelated env (EpistemicCoordinate.fromKey lex rule).entityId err) →
      ConflictArbiter.ruleMelted lex { arbiter with
          isEntityCritical := some ((engine.addErrors errs).isEntityCritical env) } rule =
        ConflictArbiter.ruleMelted lex { arbiter with
          isEntityCritical := some (engine.isEntityCritical env) } rule := by
  refine ⟨fun e h => addErrors_of_unrelated hfit h, fun arbiter rule h => ?_⟩
  have hrule := (addErrors_of_unrelated hfit fun err herr => (h err herr).1).2
  have hid := (addErrors_of_unrelated hfit fun err herr => (h err herr).2).2
  unfold ConflictArbiter.ruleMelted
  simp only [hrule, hid]

lemma one_mem_unit : (0 : ℚ) ≤ 1 ∧ (1 : ℚ) ≤ 1 := ⟨zero_le_one, le_rfl⟩

def criticalError (target : String) : PredictionError where
  checkId := "check"
  targetEntity := target
  predicate := "status"
  expectedValue := "SUCCESS"
  observedValue := "FAIL"
  discrepancyScore := 1
  severity := "CRITICAL"
  score_mem := one_mem_unit

/-- An error on a disk leaves a rule for deployments alone. -/
theorem temperature_local_disk :
    Engine.isEntityCritical .sample (Engine.addErrors {} [criticalError "disk:sda"])
        "rule:deploy" = Engine.isEntityCritical .sample {} "rule:deploy" ∧
      ConflictArbiter.ruleMelted sampleLexicon
          { isEntityCritical := some (Engine.isEntityCritical .sample
              (Engine.addErrors {} [criticalError "disk:sda"])) } "rule:deploy" =
        ConflictArbiter.ruleMelted sampleLexicon
          { isEntityCritical := some (Engine.isEntityCritical .sample {}) } "rule:deploy" := by
  have hlocal := @temperature_local .sample sampleLexicon {} [criticalError "disk:sda"] (by decide)
  refine ⟨(hlocal.1 "rule:deploy" ?_).2, hlocal.2 {} "rule:deploy" ?_⟩
  · exact List.forall_mem_singleton.mpr ⟨by decide +kernel, by decide +kernel⟩
  · exact List.forall_mem_singleton.mpr
      ⟨⟨by decide +kernel, by decide +kernel⟩, by decide +kernel, by decide +kernel⟩

/-- An error on `deploy` makes the rule for another entity critical. -/
theorem alias_critical :
    "deploy" ≠ "rule:deploy_pipeline" ∧ "deploy" ≠ lastPart "rule:deploy_pipeline" ∧
      Engine.getEntityTemperature .sample {} "rule:deploy_pipeline" = 0 ∧
      Engine.isEntityCritical .sample {} "rule:deploy_pipeline" = false ∧
      Engine.getEntityTemperature .sample (Engine.addErrors {} [criticalError "deploy"])
        "rule:deploy_pipeline" = 1 ∧
      Engine.isEntityCritical .sample (Engine.addErrors {} [criticalError "deploy"])
        "rule:deploy_pipeline" = true := by
  decide +kernel

end ActiveSensing

end AtlasMemory
