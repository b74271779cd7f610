import AtlasMemory.L3Procedural.SagaRollback

/-!
# A process that stops

The process may stop after any number of the effects of an insertion, those of its compensation
included.  What a store holds of the record then depends on its phase: untouched, applied, or
compensated.  The recovery removes the relations of the pending intents from the graph and nothing from
the other stores; `recovered_iff` says when the three stores agree after it.
-/

namespace AtlasMemory

def Stage.steps (stage : Stage) : List SagaStep :=
  match stage.outcome with
  | .ok steps => steps
  | .error _ => []

namespace TransactionalDeltaTensor

variable {env : SagaEnv} {s : SagaStores} {r : MemoryRecord}

/-! ## The effects on one store -/

def isGraphEffect : SagaEffect → Bool
  | .addRecord _ | .removeEdge _ => true
  | _ => false

def isKvEffect : SagaEffect → Bool
  | .upsertState _ _ | .callKv _ => true
  | _ => false

def isVectorEffect : SagaEffect → Bool
  | .insertVector _ _ | .deleteVectors _ => true
  | _ => false

/-- Whether the effect is on the log of intents. -/
def isIntentEffect : SagaEffect → Bool
  | .createIntent _ _ | .markCommitted _ | .markFailed _ _ => true
  | _ => false

lemma filter_next {p : Progress} {stage : Stage} {q : SagaEffect → Bool}
    (h : stage.effects.filter q = []) : (p.next stage).effects.filter q = p.effects.filter q := by
  unfold Progress.next
  split
  · rfl
  · split <;> simp [List.filter_append, h]

lemma mem_appliedSteps_next {p : Progress} {stage : Stage} {x : SagaStep} (h : x ∉ stage.steps) :
    x ∈ (p.next stage).appliedSteps ↔ x ∈ p.appliedSteps := by
  unfold Stage.steps at h
  unfold Progress.next
  split
  · rfl
  · split
    · rename_i hsteps
      rw [hsteps] at h
      simp [h]
    · rfl

/-- The write of the state variable, whole or its row only. -/
def IsWrite (env : SagaEnv) (r : MemoryRecord) (effect : SagaEffect) : Prop :=
  effect = .upsertState r.stateArgs env.setAt ∨ effect = .callKv (.setSync r.stateArgs env.setAt)

/-- Every stage has one effect at most, on its own store, and records its own step with it. -/
lemma kvStage_shapes (env : SagaEnv) (s : SagaStores) (r : MemoryRecord) :
    (kvStage env s r).steps ⊆ [.kv] ∧
      (((kvStage env s r).effects = [] ∧ (kvStage env s r).steps = []) ∨
        ∃ effect, IsWrite env r effect ∧ (kvStage env s r).effects = [effect]) := by
  unfold kvStage
  split
  · split
    · exact ⟨by simp [Stage.steps], .inl ⟨rfl, rfl⟩⟩
    · split
      · exact ⟨by simp [Stage.steps], .inr ⟨_, .inl rfl, rfl⟩⟩
      · split
        · exact ⟨by simp [Stage.steps], .inr ⟨_, .inr rfl, rfl⟩⟩
        · exact ⟨by simp [Stage.steps], .inr ⟨_, .inr rfl, rfl⟩⟩
  · exact ⟨by simp [Stage.steps], .inl ⟨rfl, rfl⟩⟩

lemma vectorStage_shapes (env : SagaEnv) (s : SagaStores) (r : MemoryRecord) :
    ((vectorStage env s r).effects = [] ∧ (vectorStage env s r).steps = []) ∨
      ((vectorStage env s r).effects = [.insertVector r.upsertKey r] ∧
        (vectorStage env s r).outcome = .ok [.vector]) := by
  obtain ⟨-, h⟩ | ⟨-, err, h⟩ | ⟨-, h⟩ := vectorStage_cases env s r
  · exact .inl (by simp [h, Stage.steps])
  · exact .inl (by simp [h, Stage.steps])
  · exact .inr (by simp [h])

lemma commitStage_shapes (env : SagaEnv) :
    (∃ err, commitStage env = ⟨[], .error err⟩) ∨
      commitStage env = ⟨[.markCommitted env.txId], .ok []⟩ := by
  unfold commitStage
  cases env.fault .markCommitted with
  | some err => exact .inl ⟨err, rfl⟩
  | none => exact .inr rfl

lemma graphStage_shapes (env : SagaEnv) (r : MemoryRecord) :
    (∃ err, graphStage env r = ⟨[], .error err⟩) ∨
      graphStage env r = ⟨[.addRecord r], .ok [.graph]⟩ := by
  unfold graphStage
  cases env.fault .addRecord with
  | some err => exact .inl ⟨err, rfl⟩
  | none => exact .inr rfl

lemma filter_kvStage (env : SagaEnv) (s : SagaStores) (r : MemoryRecord) {q : SagaEffect → Bool}
    (hrow : ∀ a now, q (.upsertState a now) = false) (hcall : ∀ c, q (.callKv c) = false) :
    (kvStage env s r).effects.filter q = [] := by
  obtain ⟨-, ⟨h, -⟩ | ⟨effect, heffect, h⟩⟩ := kvStage_shapes env s r
  · rw [h]
    rfl
  · rw [h]
    obtain rfl | rfl := heffect
    · simp [hrow]
    · simp [hcall]

lemma filter_vectorStage (env : SagaEnv) (s : SagaStores) (r : MemoryRecord)
    {q : SagaEffect → Bool} (hinsert : ∀ key r, q (.insertVector key r) = false) :
    (vectorStage env s r).effects.filter q = [] := by
  obtain ⟨h, -⟩ | ⟨h, -⟩ := vectorStage_shapes env s r
  · rw [h]
    rfl
  · rw [h]
    simp [hinsert]

lemma filter_commitStage (env : SagaEnv) {q : SagaEffect → Bool}
    (hcommit : ∀ txId, q (.markCommitted txId) = false) :
    (commitStage env).effects.filter q = [] := by
  obtain ⟨err, h⟩ | h := commitStage_shapes env
  · rw [h]
    rfl
  · rw [h]
    simp [hcommit]

lemma steps_commitStage (env : SagaEnv) : (commitStage env).steps = [] := by
  obtain ⟨err, h⟩ | h := commitStage_shapes env
  · simp [h, Stage.steps]
  · simp [h, Stage.steps]

lemma steps_vectorStage (env : SagaEnv) (s : SagaStores) (r : MemoryRecord) :
    (vectorStage env s r).steps ⊆ [.vector] := by
  obtain ⟨-, h⟩ | ⟨-, h⟩ := vectorStage_shapes env s r
  · simp [h]
  · simp [Stage.steps, h]

lemma forward_graph (env : SagaEnv) (s : SagaStores) (r : MemoryRecord) :
    ((forward env s r).effects.filter isGraphEffect = [] ∧
        .graph ∉ (forward env s r).appliedSteps) ∨
      (forward env s r).effects.filter isGraphEffect = [.addRecord r] := by
  have hkv := filter_kvStage env s r (q := isGraphEffect) (fun _ _ => rfl) fun _ => rfl
  have hvector := filter_vectorStage env s r (q := isGraphEffect) fun _ _ => rfl
  have hcommit := filter_commitStage env (q := isGraphEffect) fun _ => rfl
  have hkvSteps : .graph ∉ (kvStage env s r).steps := fun h =>
    absurd ((kvStage_shapes env s r).1 h) (by decide)
  have hvectorSteps : .graph ∉ (vectorStage env s r).steps := fun h =>
    absurd (steps_vectorStage env s r h) (by decide)
  have hcommitSteps : .graph ∉ (commitStage env).steps := by simp [steps_commitStage]
  unfold forward
  rw [filter_next hcommit, filter_next hvector, filter_next hkv,
    mem_appliedSteps_next hcommitSteps, mem_appliedSteps_next hvectorSteps,
    mem_appliedSteps_next hkvSteps]
  obtain ⟨err, h⟩ | h := graphStage_shapes env r
  · exact .inl (by simp [h, Progress.next, isGraphEffect])
  · exact .inr (by simp [h, Progress.next, isGraphEffect])

lemma forward_kv (env : SagaEnv) (s : SagaStores) (r : MemoryRecord) :
    ((forward env s r).effects.filter isKvEffect = [] ∧
        .kv ∉ (forward env s r).appliedSteps) ∨
      ∃ effect, IsWrite env r effect ∧
        (forward env s r).effects.filter isKvEffect = [effect] := by
  have hvector := filter_vectorStage env s r (q := isKvEffect) fun _ _ => rfl
  have hcommit := filter_commitStage env (q := isKvEffect) fun _ => rfl
  have hvectorSteps : .kv ∉ (vectorStage env s r).steps := fun h =>
    absurd (steps_vectorStage env s r h) (by decide)
  have hcommitSteps : .kv ∉ (commitStage env).steps := by simp [steps_commitStage]
  unfold forward
  rw [filter_next hcommit, filter_next hvector, mem_appliedSteps_next hcommitSteps,
    mem_appliedSteps_next hvectorSteps]
  obtain ⟨err, h⟩ | h := graphStage_shapes env r
  · exact .inl (by simp [h, Progress.next, isKvEffect])
  · obtain ⟨-, ⟨heffects, hsteps⟩ | ⟨effect, heffect, heffects⟩⟩ := kvStage_shapes env s r
    · refine .inl ⟨?_, ?_⟩
      · rw [filter_next (by rw [heffects]; rfl)]
        simp [h, Progress.next, isKvEffect]
      · rw [mem_appliedSteps_next (by simp [hsteps])]
        simp [h, Progress.next]
    · refine .inr ⟨effect, heffect, ?_⟩
      unfold Progress.next
      simp only [h]
      rcases heffect with rfl | rfl
      · split <;> simp [heffects, isKvEffect]
      · split <;> simp [heffects, isKvEffect]

lemma forward_vector (env : SagaEnv) (s : SagaStores) (r : MemoryRecord) :
    ((forward env s r).effects.filter isVectorEffect = [] ∧
        .vector ∉ (forward env s r).appliedSteps) ∨
      (forward env s r).effects.filter isVectorEffect = [.insertVector r.upsertKey r] := by
  have hkv := filter_kvStage env s r (q := isVectorEffect) (fun _ _ => rfl) fun _ => rfl
  have hcommit := filter_commitStage env (q := isVectorEffect) fun _ => rfl
  have hkvSteps : .vector ∉ (kvStage env s r).steps := fun h =>
    absurd ((kvStage_shapes env s r).1 h) (by decide)
  have hcommitSteps : .vector ∉ (commitStage env).steps := by simp [steps_commitStage]
  have hgraph : (graphStage env r).effects.filter isVectorEffect = [] ∧
      .vector ∉ (graphStage env r).steps := by
    obtain ⟨err, h⟩ | h := graphStage_shapes env r
    · simp [h, Stage.steps]
    · simp [h, Stage.steps, isVectorEffect]
  unfold forward
  rw [filter_next hcommit, mem_appliedSteps_next hcommitSteps]
  obtain ⟨heffects, hsteps⟩ | ⟨heffects, houtcome⟩ := vectorStage_shapes env s r
  · refine .inl ⟨?_, ?_⟩
    · rw [filter_next (by rw [heffects]; rfl), filter_next hkv, filter_next hgraph.1]
      simp [isVectorEffect]
    · rw [mem_appliedSteps_next (by simp [hsteps]), mem_appliedSteps_next hkvSteps,
        mem_appliedSteps_next hgraph.2]
      simp
  · set p := ((Progress.mk [.createIntent env.txId r] [.intent] none).next (graphStage env r)).next
      (kvStage env s r) with hp
    have hbefore : p.effects.filter isVectorEffect = [] ∧ .vector ∉ p.appliedSteps := by
      rw [hp, filter_next hkv, filter_next hgraph.1, mem_appliedSteps_next hkvSteps,
        mem_appliedSteps_next hgraph.2]
      simp [isVectorEffect]
    unfold Progress.next
    split
    · exact .inl hbefore
    · rw [houtcome]
      exact .inr (by simp [heffects, hbefore.1, isVectorEffect])

lemma forward_intent (env : SagaEnv) (s : SagaStores) (r : MemoryRecord) :
    ((forward env s r).effects.filter isIntentEffect = [.createIntent env.txId r] ∧
        (forward env s r).error.isSome = true) ∨
      ((forward env s r).effects.filter isIntentEffect =
          [.createIntent env.txId r, .markCommitted env.txId] ∧
        (forward env s r).error = none) := by
  have hkv := filter_kvStage env s r (q := isIntentEffect) (fun _ _ => rfl) fun _ => rfl
  have hvector := filter_vectorStage env s r (q := isIntentEffect) fun _ _ => rfl
  have hgraph : (graphStage env r).effects.filter isIntentEffect = [] := by
    obtain ⟨err, h⟩ | h := graphStage_shapes env r
    · simp [h]
    · simp [h, isIntentEffect]
  unfold forward
  set p := (((Progress.mk [.createIntent env.txId r] [.intent] none).next
    (graphStage env r)).next (kvStage env s r)).next (vectorStage env s r) with hp
  have hbefore : p.effects.filter isIntentEffect = [.createIntent env.txId r] := by
    rw [hp, filter_next hvector, filter_next hkv, filter_next hgraph]
    simp [isIntentEffect]
  cases herror : p.error with
  | some err =>
      have hsame : p.next (commitStage env) = p := by
        unfold Progress.next
        rw [herror]
      rw [hsame, herror]
      exact .inl ⟨hbefore, rfl⟩
  | none =>
      obtain ⟨err, h⟩ | h := commitStage_shapes env
      · exact .inl (by simp [Progress.next, herror, h, hbefore])
      · exact .inr (by simp [Progress.next, herror, h, hbefore, isIntentEffect])

/-! ## The phases of a store -/

lemma filter_rollback (env : SagaEnv) (s : SagaStores) (r : MemoryRecord) (steps : List SagaStep)
    (err : PyError) :
    (rollback env s r steps err).filter isGraphEffect =
        (if .graph ∈ steps then [.removeEdge r.removedEdge] else []) ∧
      (rollback env s r steps err).filter isKvEffect =
        (if .kv ∈ steps then [.callKv (restoreCall env s r)] else []) ∧
      (rollback env s r steps err).filter isVectorEffect =
        (if .vector ∈ steps then [.deleteVectors r.upsertKey] else []) ∧
      (rollback env s r steps err).filter isIntentEffect =
        (if .intent ∈ steps then [.markFailed env.txId err.message] else []) := by
  unfold rollback
  simp only [List.filter_append, apply_ite (List.filter _), List.filter_nil, List.filter_cons,
    isGraphEffect, isKvEffect, isVectorEffect, isIntentEffect]
  simp

/-- An insertion without an effect, or the steps after the intent, with or without a rollback. -/
lemma effects_cases (env : SagaEnv) (s : SagaStores) (r : MemoryRecord) :
    ((intentFault env s).isSome = true ∧ (effects env s r).1 = []) ∨
      intentFault env s = none ∧
        (((forward env s r).error = none ∧ (effects env s r).1 = (forward env s r).effects) ∨
          ∃ err, (forward env s r).error = some err ∧ (effects env s r).1 =
            (forward env s r).effects ++
              rollback env s r (forward env s r).appliedSteps err) := by
  unfold effects
  cases intentFault env s with
  | some err => exact .inl ⟨rfl, rfl⟩
  | none =>
      right
      cases herror : (forward env s r).error with
      | none => exact ⟨rfl, .inl ⟨rfl, by simp [herror]⟩⟩
      | some err => exact ⟨rfl, .inr ⟨err, rfl, by simp [herror]⟩⟩

lemma graphEffects_initial (env : SagaEnv) (s : SagaStores) (r : MemoryRecord) :
    (effects env s r).1.filter isGraphEffect <+:
      [.addRecord r, .removeEdge r.removedEdge] := by
  obtain ⟨-, h⟩ | ⟨-, ⟨-, h⟩ | ⟨err, -, h⟩⟩ := effects_cases env s r
  · simp [h]
  · rw [h]
    obtain ⟨hnone, -⟩ | hadd := forward_graph env s r
    · simp [hnone]
    · simp [hadd]
  · rw [h, List.filter_append, (filter_rollback ..).1]
    obtain ⟨hnone, hsteps⟩ | hadd := forward_graph env s r
    · simp [hnone, hsteps]
    · rw [hadd]
      split <;> simp

/-- The state variable is written before it is restored. -/
lemma kvEffects_prefix (env : SagaEnv) (s : SagaStores) (r : MemoryRecord) :
    ∃ effect, IsWrite env r effect ∧ (effects env s r).1.filter isKvEffect <+:
      [effect, .callKv (restoreCall env s r)] := by
  obtain ⟨-, h⟩ | ⟨-, ⟨-, h⟩ | ⟨err, -, h⟩⟩ := effects_cases env s r
  · exact ⟨_, .inl rfl, by simp [h]⟩
  · rw [h]
    obtain ⟨hnone, -⟩ | ⟨effect, heffect, hwrite⟩ := forward_kv env s r
    · exact ⟨_, .inl rfl, by simp [hnone]⟩
    · exact ⟨effect, heffect, by simp [hwrite]⟩
  · rw [h, List.filter_append, (filter_rollback ..).2.1]
    obtain ⟨hnone, hsteps⟩ | ⟨effect, heffect, hwrite⟩ := forward_kv env s r
    · exact ⟨_, .inl rfl, by simp [hnone, hsteps]⟩
    · refine ⟨effect, heffect, ?_⟩
      rw [hwrite]
      split <;> simp

lemma vectorEffects_initial (env : SagaEnv) (s : SagaStores) (r : MemoryRecord) :
    (effects env s r).1.filter isVectorEffect <+:
      [.insertVector r.upsertKey r, .deleteVectors r.upsertKey] := by
  obtain ⟨-, h⟩ | ⟨-, ⟨-, h⟩ | ⟨err, -, h⟩⟩ := effects_cases env s r
  · simp [h]
  · rw [h]
    obtain ⟨hnone, -⟩ | hinsert := forward_vector env s r
    · simp [hnone]
    · simp [hinsert]
  · rw [h, List.filter_append, (filter_rollback ..).2.2.1]
    obtain ⟨hnone, hsteps⟩ | hinsert := forward_vector env s r
    · simp [hnone, hsteps]
    · rw [hinsert]
      split <;> simp

/-- The intent is created under a fresh key before it is marked. -/
lemma intentEffects_prefix (env : SagaEnv) (s : SagaStores) (r : MemoryRecord) :
    (effects env s r).1.filter isIntentEffect = [] ∨
      s.intents.get? env.txId = none ∧ ∃ mark, (mark = .markCommitted env.txId ∨
          ∃ message, mark = .markFailed env.txId message) ∧
        (effects env s r).1.filter isIntentEffect <+: [.createIntent env.txId r, mark] := by
  have hfresh : intentFault env s = none → s.intents.get? env.txId = none := by
    intro h
    unfold intentFault PyDict.contains at h
    cases hfault : env.fault .createIntent with
    | some err => simp [hfault] at h
    | none => simpa [hfault] using h
  obtain ⟨-, h⟩ | ⟨hintent, ⟨herror, h⟩ | ⟨err, herror, h⟩⟩ := effects_cases env s r
  · exact .inl (by simp [h])
  · refine .inr ⟨hfresh hintent, _, .inl rfl, ?_⟩
    rw [h]
    obtain ⟨hcreated, -⟩ | ⟨hmarked, -⟩ := forward_intent env s r
    · simp [hcreated]
    · simp [hmarked]
  · refine .inr ⟨hfresh hintent, _, .inr ⟨err.message, rfl⟩, ?_⟩
    obtain ⟨hcreated, -⟩ | ⟨-, hnone⟩ := forward_intent env s r
    · rw [h, List.filter_append, hcreated, (filter_rollback ..).2.2.2]
      split <;> simp
    · exact absurd herror (by simp [hnone])

/-- How far an insertion has come on one store. -/
inductive Phase
  | untouched
  | applied
  | compensated
  deriving DecidableEq

/-- The phase of a store after effects, those on it counted. -/
def phaseOf (q : SagaEffect → Bool) (l : List SagaEffect) : Phase :=
  match (l.filter q).length with
  | 0 => .untouched
  | 1 => .applied
  | _ => .compensated

/-- The effects on a store in the part of the insertion that is done. -/
lemma filter_take_cases {q : SagaEffect → Bool} {l : List SagaEffect} {a b : SagaEffect}
    (h : l.filter q <+: [a, b]) (n : ℕ) :
    ((l.take n).filter q = [] ∧ phaseOf q (l.take n) = .untouched) ∨
      ((l.take n).filter q = [a] ∧ phaseOf q (l.take n) = .applied) ∨
        (l.take n).filter q = [a, b] ∧ phaseOf q (l.take n) = .compensated := by
  have hprefix : (l.take n).filter q <+: [a, b] := ((List.take_prefix n l).filter q).trans h
  unfold phaseOf
  generalize (l.take n).filter q = l' at hprefix
  match l' with
  | [] => exact .inl ⟨rfl, rfl⟩
  | [x] =>
      obtain rfl : x = a := by simpa using hprefix
      exact .inr (.inl ⟨rfl, rfl⟩)
  | [x, y] =>
      obtain ⟨rfl, rfl⟩ : x = a ∧ y = b := by simpa using hprefix
      exact .inr (.inr ⟨rfl, rfl⟩)
  | _ :: _ :: _ :: _ => exact absurd hprefix.length_le (by simp)

/-! ## The stores where the process stops -/

/-- A part of the stores that is changed by the effects that satisfy `q` only, and by them as `f`
says, is changed by effects as by those of them that satisfy `q`. -/
lemma part_applyAll {σ : Type} {rt : Runtime} (part : SagaStores → σ) {q : SagaEffect → Bool}
    (f : σ → SagaEffect → σ) (hkeep : ∀ s x, q x = false → part (x.apply rt s) = part s)
    (hchange : ∀ s x, q x = true → part (x.apply rt s) = f (part s) x) (l : List SagaEffect)
    (s : SagaStores) : part (applyAll rt s l) = (l.filter q).foldl f (part s) := by
  induction l generalizing s with
  | nil => rfl
  | cons x l ih =>
      show part (applyAll rt (x.apply rt s) l) = _
      rw [ih]
      cases hx : q x with
      | true => rw [List.filter_cons_of_pos hx, List.foldl_cons, hchange s x hx]
      | false => rw [List.filter_cons_of_neg (by simp [hx]), hkeep s x hx]

lemma graph_applyAll (rt : Runtime) (l : List SagaEffect) (s : SagaStores) :
    (applyAll rt s l).graph = (l.filter isGraphEffect).foldl (fun g x => match x with
      | .addRecord r => g.addRecord r
      | .removeEdge e => g.removeEdge e
      | _ => g) s.graph := by
  refine part_applyAll SagaStores.graph _ (fun s x hx => ?_) (fun s x hx => ?_) l s
  · cases x <;> first | rfl | exact Bool.noConfusion hx
  · cases x <;> rfl

lemma vectors_applyAll (rt : Runtime) (l : List SagaEffect) (s : SagaStores) :
    (applyAll rt s l).vectors = (l.filter isVectorEffect).foldl (fun v x => match x with
      | .insertVector key r => v.map fun points => VectorStore.insert points key r.vectorText r
      | .deleteVectors key => v.map fun points => VectorStore.deleteByUpsertKey points key
      | _ => v) s.vectors := by
  refine part_applyAll SagaStores.vectors _ (fun s x hx => ?_) (fun s x hx => ?_) l s
  · cases x <;> first | rfl | exact Bool.noConfusion hx
  · cases x <;> rfl

lemma intents_applyAll (rt : Runtime) (l : List SagaEffect) (s : SagaStores) :
    (applyAll rt s l).intents = (l.filter isIntentEffect).foldl (fun log x => match x with
      | .createIntent txId r =>
        log.set txId ⟨r.effectiveSubject, r.predicate, r.object, .pending, none⟩
      | .markCommitted txId => log.mark txId .committed none
      | .markFailed txId error => log.mark txId .failed (some error)
      | _ => log) s.intents := by
  refine part_applyAll SagaStores.intents _ (fun s x hx => ?_) (fun s x hx => ?_) l s
  · cases x <;> first | rfl | exact Bool.noConfusion hx
  · cases x <;> rfl

lemma kv_applyAll (rt : Runtime) (l : List SagaEffect) (s : SagaStores) :
    (applyAll rt s l).kv =
      (applyAll rt s (l.filter isKvEffect)).kv := by
  have hfold := @part_applyAll _ rt SagaStores.kv isKvEffect
    (fun kv x => (x.apply rt { s with kv := kv }).kv) (fun s x hx => ?_) (fun s' x hx => ?_)
  · rw [hfold, hfold, List.filter_filter]
    simp
  · cases x <;> first | rfl | exact Bool.noConfusion hx
  · cases x <;> rfl

/-! ## The record in the stores -/

/-- The relation of the record is on disk. -/
def InGraph (r : MemoryRecord) (s : SagaStores) : Prop :=
  s.graph.disk.relations.contains r.graphEdge = true

/-- The state variable has the live columns that the record writes. -/
def InKv (env : SagaEnv) (r : MemoryRecord) (s : SagaStores) : Prop := RowSame env s r

/-- A point of the key has the text and the record. -/
def InVectors (r : MemoryRecord) (s : SagaStores) : Prop :=
  ∃ points, s.vectors = some points ∧ ∃ p ∈ points, VectorStore.belongsTo r.upsertKey p = true ∧
    p.text = r.vectorText ∧ p.record = r

/-- Every store that the record goes to says the same about it. -/
def Agree (r : MemoryRecord) (vectors : Bool) (inGraph inKv inVectors : Prop) : Prop :=
  (inGraph ∧ (r.isStateVariable = true → inKv) ∧ (vectors = true → inVectors)) ∨
    (¬inGraph ∧ (r.isStateVariable = true → ¬inKv) ∧ (vectors = true → ¬inVectors))

/-- The record is in all stores that it goes to, or in none. -/
def Whole (env : SagaEnv) (r : MemoryRecord) (s : SagaStores) : Prop :=
  Agree r s.vectors.isSome (InGraph r s) (InKv env r s) (InVectors r s)

def NothingPending (s : SagaStores) : Prop :=
  ∀ txId row, s.intents.get? txId = some row → row.status ≠ .pending

/-- The stores after the process has stopped, a new one has started, and has recovered. -/
def recoveredAfter (isValid : String → Bool) (env : SagaEnv) (s : SagaStores) (r : MemoryRecord)
    (n : ℕ) : SagaStores :=
  MemoryAuditor.recoverDanglingTransactions
    (MemoryAuditor.restart isValid (stoppedAfter env s r n))

/-! ## What the stop leaves -/

/-- The relation when the process stops: a compensation leaves it if the object was cut off. -/
def GraphLeft (env : SagaEnv) (s : SagaStores) (r : MemoryRecord) (n : ℕ) : Prop :=
  match phaseOf isGraphEffect ((effects env s r).1.take n) with
  | .untouched => InGraph r s
  | .applied => True
  | .compensated => r.graphEdge ≠ r.removedEdge

/-- The state variable when the process stops: a compensation leaves it if the backup has the columns
that the record writes. -/
def KvLeft (env : SagaEnv) (s : SagaStores) (r : MemoryRecord) (n : ℕ) : Prop :=
  match phaseOf isKvEffect ((effects env s r).1.take n) with
  | .untouched => InKv env r s
  | .applied => True
  | .compensated => ∃ a, restoreCall env s r = .setSync a env.restoredAt ∧
      WritePath.liveOf env.rt a env.restoredAt = WritePath.liveOf env.rt r.stateArgs env.setAt

/-- The vector when the process stops: a compensation leaves it if its key is empty. -/
def VectorsLeft (env : SagaEnv) (s : SagaStores) (r : MemoryRecord) (n : ℕ) : Prop :=
  match phaseOf isVectorEffect ((effects env s r).1.take n) with
  | .untouched => InVectors r s
  | .applied => s.vectors.isSome = true
  | .compensated => s.vectors.isSome = true ∧ r.upsertKey = ""

/-- An intent with the relation of the record is pending when the process stops: another one, or that
of the record itself, whose object was not cut off. -/
def Dangles (env : SagaEnv) (s : SagaStores) (r : MemoryRecord) (n : ℕ) : Prop :=
  (∃ txId row, s.intents.get? txId = some row ∧ row.status = .pending ∧
      (⟨row.subject, row.predicate, row.object⟩ : Edge) = r.graphEdge) ∨
    phaseOf isIntentEffect ((effects env s r).1.take n) = .applied ∧ r.removedEdge = r.graphEdge

lemma inGraph_stoppedAfter (n : ℕ) :
    InGraph r (stoppedAfter env s r n) ↔ GraphLeft env s r n := by
  unfold InGraph GraphLeft stoppedAfter
  rw [graph_applyAll]
  obtain ⟨h, hphase⟩ | ⟨h, hphase⟩ | ⟨h, hphase⟩ := filter_take_cases (graphEffects_initial env s r) n
  · rw [h, hphase]
    rfl
  · rw [h, hphase]
    refine iff_of_true ?_ trivial
    show (s.graph.addRecord r).disk.relations.contains r.graphEdge = true
    rw [KuzuGraphStore.relations_addRecord, PyDict.contains, PyDict.get?_set_self]
    rfl
  · rw [h, hphase]
    show ((s.graph.addRecord r).disk.relations.erase r.removedEdge).contains r.graphEdge = true ↔ _
    rw [KuzuGraphStore.relations_addRecord, PyDict.contains, PyDict.get?_erase]
    split
    · rename_i heq
      exact iff_of_false (by simp) fun hne => hne heq.symm
    · rename_i hne
      rw [PyDict.get?_set_self]
      exact iff_of_true rfl fun heq => hne heq.symm

lemma inKv_stoppedAfter (n : ℕ) : InKv env r (stoppedAfter env s r n) ↔ KvLeft env s r n := by
  unfold InKv KvLeft stoppedAfter RowSame
  rw [kv_applyAll]
  obtain ⟨effect, heffect, hprefix⟩ := kvEffects_prefix env s r
  have hwritten : ∀ key, ((effect.apply env.rt s).kv.db.stateVariables.get? key).map StateRow.live =
      if r.effectiveSubject = key then some (WritePath.liveOf env.rt r.stateArgs env.setAt)
      else (s.kv.db.stateVariables.get? key).map StateRow.live := by
    intro key
    rcases heffect with rfl | rfl
    · exact get?_writtenRow key
    · exact get?_call_setSync ..
  obtain ⟨h, hphase⟩ | ⟨h, hphase⟩ | ⟨h, hphase⟩ := filter_take_cases hprefix n
  · rw [h, hphase]
    rfl
  · rw [h, hphase]
    exact iff_of_true ((hwritten _).trans (if_pos rfl)) trivial
  · rw [h, hphase]
    show (((effect.apply env.rt s).kv.call env.rt (restoreCall env s r)).db.stateVariables.get?
      r.effectiveSubject).map _ = _ ↔ _
    unfold restoreCall
    cases backupKv s r with
    | none =>
        rw [VerifiedKVStore.db_call (by nofun)]
        show ((Db.deleteSync _ _ _ _).1.stateVariables.get? _).map _ = _ ↔ _
        rw [Db.stateVariables_deleteSync, PyDict.get?_erase_self]
        exact iff_of_false (by simp) (by simp)
    | some found =>
        dsimp only
        rw [get?_call_setSync, if_pos rfl, Option.some.injEq]
        constructor
        · exact fun heq => ⟨_, rfl, heq⟩
        · rintro ⟨a, ha, heq⟩
          obtain rfl : _ = a := by simpa using ha
          exact heq

lemma mem_insert_self {ρ : Type} (points : List (VectorPoint ρ)) (key text : String) (record : ρ) :
    (⟨VectorStore.normalizeUpsertKey key, text, record⟩ : VectorPoint ρ) ∈
      VectorStore.insert points key text record := by
  unfold VectorStore.insert
  dsimp only
  cases hfound : points.findIdx? (VectorStore.belongsTo key) with
  | none => simp
  | some i =>
      have hi := (List.findIdx?_eq_some_iff_getElem.mp hfound).1
      exact List.mem_set hi _

lemma inVectors_stoppedAfter (n : ℕ) :
    InVectors r (stoppedAfter env s r n) ↔ VectorsLeft env s r n := by
  unfold InVectors VectorsLeft stoppedAfter
  rw [vectors_applyAll]
  obtain ⟨h, hphase⟩ | ⟨h, hphase⟩ | ⟨h, hphase⟩ := filter_take_cases (vectorEffects_initial env s r) n
  · rw [h, hphase]
    rfl
  · rw [h, hphase]
    dsimp only [List.foldl_cons, List.foldl_nil]
    cases s.vectors with
    | none => simp
    | some points =>
        refine iff_of_true ⟨_, rfl, _, mem_insert_self .., ?_, rfl, rfl⟩ rfl
        exact VectorStore.belongsTo_inserted ..
  · rw [h, hphase]
    dsimp only [List.foldl_cons, List.foldl_nil]
    cases s.vectors with
    | none => simp
    | some points =>
        simp only [Option.map_some, Option.some.injEq, exists_eq_left', Option.isSome_some,
          true_and]
        unfold VectorStore.deleteByUpsertKey
        split_ifs with hkey
        · refine iff_of_true ⟨_, mem_insert_self .., ?_, rfl, rfl⟩ hkey
          exact VectorStore.belongsTo_inserted ..
        · refine iff_of_false ?_ hkey
          rintro ⟨p, hp, hbelongs, -⟩
          have hkept := (List.mem_filter.mp hp).2
          rw [hbelongs] at hkept
          exact Bool.noConfusion hkept

lemma exists_row_iff {log log' : IntentLog} {txId : String} {new : Intent}
    (hfresh : log.get? txId = none)
    (hlog : ∀ id, log'.get? id = if txId = id then some new else log.get? id)
    (P : Intent → Prop) :
    (∃ id row, log'.get? id = some row ∧ P row) ↔
      (∃ id row, log.get? id = some row ∧ P row) ∨ P new := by
  constructor
  · rintro ⟨id, row, hrow, hP⟩
    rw [hlog] at hrow
    split at hrow
    · obtain rfl : new = row := by simpa using hrow
      exact .inr hP
    · exact .inl ⟨id, row, hrow, hP⟩
  · rintro (⟨id, row, hrow, hP⟩ | hP)
    · refine ⟨id, row, ?_, hP⟩
      rw [hlog, if_neg (fun heq => by rw [← heq, hfresh] at hrow; exact absurd hrow (by simp))]
      exact hrow
    · exact ⟨txId, new, by rw [hlog, if_pos rfl], hP⟩

lemma get?_mark_set (log : IntentLog) (txId : String) (row : Intent) (status : IntentStatus)
    (error : Option String) (id : String) :
    (IntentLog.mark (log.set txId row) txId status error).get? id =
      if txId = id then
        some { row with status := status, error := error.orElse fun _ => row.error }
      else log.get? id := by
  unfold IntentLog.mark
  rw [PyDict.get?_set_self]
  dsimp only
  rw [PyDict.get?_set, PyDict.get?_set]
  split_ifs <;> rfl

lemma dangles_iff (n : ℕ) :
    (∃ id row, (stoppedAfter env s r n).intents.get? id = some row ∧ row.status = .pending ∧
        (⟨row.subject, row.predicate, row.object⟩ : Edge) = r.graphEdge) ↔
      Dangles env s r n := by
  unfold Dangles stoppedAfter
  rw [intents_applyAll]
  rcases intentEffects_prefix env s r with hnone | ⟨hfresh, mark, hmark, hprefix⟩
  · have htaken : ((effects env s r).1.take n).filter isIntentEffect = [] := by
      have hsub := ((List.take_prefix n (effects env s r).1).filter isIntentEffect)
      rw [hnone] at hsub
      exact List.prefix_nil.mp hsub
    have hphase : phaseOf isIntentEffect ((effects env s r).1.take n) = .untouched := by
      unfold phaseOf
      rw [htaken]
      rfl
    rw [htaken, hphase]
    simp
  · obtain ⟨h, hphase⟩ | ⟨h, hphase⟩ | ⟨h, hphase⟩ := filter_take_cases hprefix n
    · rw [h, hphase]
      simp
    · rw [h, hphase]
      refine (exists_row_iff hfresh (fun id => PyDict.get?_set s.intents env.txId id _)
        fun row => row.status = .pending ∧
          (⟨row.subject, row.predicate, row.object⟩ : Edge) = r.graphEdge).trans ?_
      exact or_congr Iff.rfl (and_congr (iff_of_true rfl rfl) Iff.rfl)
    · rw [h, hphase]
      rcases hmark with rfl | ⟨message, rfl⟩
      · refine (exists_row_iff hfresh (get?_mark_set s.intents env.txId _ _ _)
          fun row => row.status = .pending ∧
            (⟨row.subject, row.predicate, row.object⟩ : Edge) = r.graphEdge).trans ?_
        simp
      · refine (exists_row_iff hfresh (get?_mark_set s.intents env.txId _ _ _)
          fun row => row.status = .pending ∧
            (⟨row.subject, row.predicate, row.object⟩ : Edge) = r.graphEdge).trans ?_
        simp

/-! ## The restart and the recovery -/

def recoverIntent (s : SagaStores) (e : String × Intent) : SagaStores :=
  { s with
    graph := s.graph.removeEdge ⟨e.2.subject, e.2.predicate, e.2.object⟩
    intents := s.intents.mark e.1 .failed (some "recovered_after_crash") }

lemma relations_recoverIntents (l : List (String × Intent)) (s : SagaStores) (e : Edge) :
    (l.foldl recoverIntent s).graph.disk.relations.get? e =
      if ∃ x ∈ l, (⟨x.2.subject, x.2.predicate, x.2.object⟩ : Edge) = e then none
      else s.graph.disk.relations.get? e := by
  induction l generalizing s with
  | nil => simp
  | cons x l ih =>
      rw [List.foldl_cons, ih]
      show (if _ then none else (s.graph.disk.relations.erase _).get? e) = _
      rw [PyDict.get?_erase]
      by_cases hx : (⟨x.2.subject, x.2.predicate, x.2.object⟩ : Edge) = e
      · simp [hx]
      · rw [if_neg hx]
        refine if_congr ?_ rfl rfl
        rw [List.exists_mem_cons_iff]
        exact (or_iff_right hx).symm

lemma others_recoverIntents (l : List (String × Intent)) (s : SagaStores) :
    (l.foldl recoverIntent s).kv = s.kv ∧ (l.foldl recoverIntent s).vectors = s.vectors := by
  induction l generalizing s with
  | nil => exact ⟨rfl, rfl⟩
  | cons x l ih => exact ih (recoverIntent s x)

/-- The intents that are recovered are failed, and the others are as they were. -/
lemma intents_recoverIntents (l : List (String × Intent)) (s : SagaStores) (id : String) :
    ((l.foldl recoverIntent s).intents.get? id).map Intent.status =
      if id ∈ l.map Prod.fst then (s.intents.get? id).map fun _ => .failed
      else (s.intents.get? id).map Intent.status := by
  have hmark : ∀ (log : IntentLog) (k : String) (error : Option String),
      ((log.mark k .failed error).get? id).map Intent.status =
        if k = id then (log.get? id).map fun _ => .failed
        else (log.get? id).map Intent.status := by
    intro log k error
    unfold IntentLog.mark
    cases hrow : log.get? k with
    | none =>
        by_cases hk : k = id
        · subst hk
          simp [hrow]
        · simp [hk]
    | some row =>
        dsimp only
        rw [PyDict.get?_set]
        by_cases hk : k = id
        · subst hk
          simp [hrow]
        · simp [hk]
  induction l generalizing s with
  | nil => simp
  | cons x l ih =>
      have hstep := hmark s.intents x.1 (some "recovered_after_crash")
      have hsome : ((recoverIntent s x).intents.get? id).map (fun _ => IntentStatus.failed) =
          (s.intents.get? id).map fun _ => .failed := by
        have hcongr := congrArg (Option.map fun _ => IntentStatus.failed) hstep
        rw [Option.map_map] at hcongr
        refine hcongr.trans ?_
        split_ifs <;> simp [Function.comp_def]
      rw [List.foldl_cons, ih, hsome]
      show (if _ then _ else ((s.intents.mark x.1 .failed _).get? id).map Intent.status) = _
      rw [hstep]
      by_cases hx : x.1 = id
      · simp [hx]
      · rw [if_neg hx]
        refine if_congr ?_ rfl rfl
        rw [List.map_cons, List.mem_cons]
        exact (or_iff_right (Ne.symm hx)).symm

/-- **The recovery leaves no pending intent.** -/
theorem nothingPending_recover (s : SagaStores) :
    NothingPending (MemoryAuditor.recoverDanglingTransactions s) := by
  intro id row hrow hpending
  have hstatus := intents_recoverIntents s.intents.dangling s id
  rw [show s.intents.dangling.foldl recoverIntent s =
    MemoryAuditor.recoverDanglingTransactions s from rfl, hrow] at hstatus
  split_ifs at hstatus with hmem
  · cases hget : s.intents.get? id with
    | none => rw [hget] at hstatus; exact absurd hstatus (by simp)
    | some row' =>
        rw [hget] at hstatus
        have hfailed : row.status = .failed := by simpa using hstatus
        rw [hfailed] at hpending
        exact absurd hpending (by decide)
  · refine hmem ?_
    cases hget : s.intents.get? id with
    | none => rw [hget] at hstatus; exact absurd hstatus (by simp)
    | some row' =>
        rw [hget] at hstatus
        have hsame : row.status = row'.status := by simpa using hstatus
        refine List.mem_map.mpr ⟨(id, row'), ?_, rfl⟩
        unfold IntentLog.dangling
        rw [List.mem_filter, PyDict.mem_entries_iff]
        exact ⟨hget, decide_eq_true (hsame.symm.trans hpending)⟩

/-- **A second recovery changes nothing.** -/
theorem recover_recover (s : SagaStores) :
    MemoryAuditor.recoverDanglingTransactions (MemoryAuditor.recoverDanglingTransactions s) =
      MemoryAuditor.recoverDanglingTransactions s := by
  have hnone : (MemoryAuditor.recoverDanglingTransactions s).intents.dangling = [] := by
    unfold IntentLog.dangling
    rw [List.filter_eq_nil_iff]
    rintro ⟨id, row⟩ hmem
    have hpending := nothingPending_recover s id row (PyDict.mem_entries_iff.mp hmem)
    simpa using hpending
  generalize MemoryAuditor.recoverDanglingTransactions s = s' at hnone
  unfold MemoryAuditor.recoverDanglingTransactions
  rw [hnone]
  rfl

/-- The names that a restart purges are not valid. -/
lemma isValid_invalidEntities {isValid : String → Bool} {d : KuzuTables} {name : String}
    (h : name ∈ KuzuGraphStore.invalidEntities isValid d) : isValid name = false := by
  unfold KuzuGraphStore.invalidEntities at h
  simp only [List.mem_append, List.mem_filter, List.mem_filterMap, Bool.and_eq_true,
    Bool.not_eq_true'] at h
  rcases h with (⟨-, -, h⟩ | ⟨e, -, h⟩) | ⟨-, h⟩
  · exact h
  · split_ifs at h with hsubject hobject
    · exact Option.some.inj h ▸ hsubject
    · exact Option.some.inj h ▸ hobject
  · exact h

/-- A relation is there after a restart if it was there and its names are valid. -/
lemma relations_restart {isValid : String → Bool} (s : SagaStores) (e : Edge) :
    (MemoryAuditor.restart isValid s).graph.disk.relations.contains e = true ↔
      s.graph.disk.relations.contains e = true ∧
        KuzuGraphStore.validEnds isValid e.subject e.object = true := by
  show ((List.foldl KuzuTables.detachEntity s.graph.disk _).relations.get? e).isSome = true ↔
    (s.graph.disk.relations.get? e).isSome = true ∧ _
  rw [KuzuTables.relations_detachEntities]
  cases hget : s.graph.disk.relations.get? e with
  | none => simp
  | some row =>
      have hkey : e ∈ s.graph.disk.relations.keys := PyDict.mem_keys_of_get? hget
      unfold KuzuGraphStore.validEnds
      by_cases hsubject : isValid e.subject = true
      · by_cases hobject : isValid e.object = true
        · rw [if_neg]
          · simp [hsubject, hobject]
          · rintro (h | h)
            · exact absurd (isValid_invalidEntities h) (by simp [hsubject])
            · exact absurd (isValid_invalidEntities h) (by simp [hobject])
        · rw [if_pos]
          · simp [hobject]
          · refine .inr ?_
            unfold KuzuGraphStore.invalidEntities
            simp only [List.mem_append, List.mem_filterMap]
            exact .inl (.inr ⟨e, hkey, by simp [hsubject, hobject]⟩)
      · rw [if_pos]
        · simp [hsubject]
        · refine .inl ?_
          unfold KuzuGraphStore.invalidEntities
          simp only [List.mem_append, List.mem_filterMap]
          exact .inl (.inr ⟨e, hkey, by simp [hsubject]⟩)

/-- The record after the recovery: the graph counts as holding it if the stop left the relation there,
its names are valid, and no pending intent has it. -/
lemma whole_recoveredAfter_iff (isValid : String → Bool) (env : SagaEnv) (s : SagaStores)
    (r : MemoryRecord) (n : ℕ) :
    Whole env r (recoveredAfter isValid env s r n) ↔
      Agree r s.vectors.isSome
        (GraphLeft env s r n ∧
          KuzuGraphStore.validEnds isValid r.graphEdge.subject r.graphEdge.object = true ∧
            ¬Dangles env s r n)
        (KvLeft env s r n) (VectorsLeft env s r n) := by
  set stopped := stoppedAfter env s r n with hstopped
  obtain ⟨hkv, hvectors⟩ := others_recoverIntents
    (MemoryAuditor.restart isValid stopped).intents.dangling
    (MemoryAuditor.restart isValid stopped)
  have hgraph : InGraph r (recoveredAfter isValid env s r n) ↔ GraphLeft env s r n ∧
      KuzuGraphStore.validEnds isValid r.graphEdge.subject r.graphEdge.object = true ∧
        ¬Dangles env s r n := by
    have hdangles : (∃ x ∈ stopped.intents.dangling,
        (⟨x.2.subject, x.2.predicate, x.2.object⟩ : Edge) = r.graphEdge) ↔ Dangles env s r n := by
      rw [← dangles_iff]
      constructor
      · rintro ⟨⟨id, row⟩, hmem, hedge⟩
        obtain ⟨hrow, hpending⟩ := List.mem_filter.mp hmem
        exact ⟨id, row, PyDict.mem_entries_iff.mp hrow, of_decide_eq_true hpending, hedge⟩
      · rintro ⟨id, row, hrow, hpending, hedge⟩
        exact ⟨(id, row), List.mem_filter.mpr
          ⟨PyDict.mem_entries_iff.mpr hrow, decide_eq_true hpending⟩, hedge⟩
    have hrestart := @relations_restart isValid stopped r.graphEdge
    unfold InGraph PyDict.contains recoveredAfter
    show ((List.foldl recoverIntent _ stopped.intents.dangling).graph.disk.relations.get?
      r.graphEdge).isSome = true ↔ _
    rw [relations_recoverIntents]
    split_ifs with hmem
    · exact iff_of_false (by simp) fun h => h.2.2 (hdangles.mp hmem)
    · rw [← inGraph_stoppedAfter, ← hstopped]
      have hnot : ¬Dangles env s r n := fun h => hmem (hdangles.mpr h)
      refine hrestart.trans ?_
      exact and_congr_right fun _ => ⟨fun h => ⟨h, hnot⟩, fun h => h.1⟩
  have hstate : InKv env r (recoveredAfter isValid env s r n) ↔ KvLeft env s r n := by
    rw [← inKv_stoppedAfter]
    unfold InKv RowSame
    rw [show (recoveredAfter isValid env s r n).kv = stopped.kv from hkv]
  have hpoints : InVectors r (recoveredAfter isValid env s r n) ↔ VectorsLeft env s r n := by
    rw [← inVectors_stoppedAfter]
    unfold InVectors
    rw [show (recoveredAfter isValid env s r n).vectors = stopped.vectors from hvectors]
  have hsome : (recoveredAfter isValid env s r n).vectors.isSome = s.vectors.isSome := by
    rw [show (recoveredAfter isValid env s r n).vectors = stopped.vectors from hvectors, hstopped]
    unfold stoppedAfter
    rw [vectors_applyAll]
    obtain ⟨h, -⟩ | ⟨h, -⟩ | ⟨h, -⟩ := filter_take_cases (vectorEffects_initial env s r) n
    · rw [h]
      rfl
    · rw [h]
      simp
    · rw [h]
      simp
  unfold Whole Agree
  rw [hgraph, hstate, hpoints, hsome]

/-- **Crash recovery**: wherever the process stops, the recovery leaves no pending intent, and it
leaves the record in all stores or in none if and only if the stop left them in agreement, once the
relations of the pending intents are gone from the graph. -/
theorem recovered_iff (isValid : String → Bool) (env : SagaEnv) (s : SagaStores) (r : MemoryRecord)
    (n : ℕ) :
    (Whole env r (recoveredAfter isValid env s r n) ∧
        NothingPending (recoveredAfter isValid env s r n)) ↔
      Agree r s.vectors.isSome
        (GraphLeft env s r n ∧
          KuzuGraphStore.validEnds isValid r.graphEdge.subject r.graphEdge.object = true ∧
            ¬Dangles env s r n)
        (KvLeft env s r n) (VectorsLeft env s r n) := by
  have hpending : NothingPending (recoveredAfter isValid env s r n) := nothingPending_recover _
  rw [and_iff_left hpending]
  exact whole_recoveredAfter_iff isValid env s r n

/-! ### An insertion that stops before its commit -/

def faultless : SagaEnv where
  rt := .sample
  fault _ := none
  txId := "tx_1"
  setAt := 2
  restoredAt := 3

def emptyStores : SagaStores where
  graph := .empty
  kv := VerifiedKVStore.init
  vectors := some []
  intents := ∅

/-- The process stops after the vector is inserted: the recovery takes the relation out of the graph
and leaves the vector. -/
theorem recovery_splits : ¬ ∀ (isValid : String → Bool) (env : SagaEnv) (s : SagaStores)
    (r : MemoryRecord) (n : ℕ), Whole env r (recoveredAfter isValid env s r n) ∧
      NothingPending (recoveredAfter isValid env s r n) := by
  intro h
  have hagree := (whole_recoveredAfter_iff _ _ _ _ _).mp
    (h (fun _ => true) faultless emptyStores sampleRecord 3).1
  have hdangles : Dangles faultless emptyStores sampleRecord 3 := .inr ⟨by decide, by decide⟩
  have hvectors : VectorsLeft faultless emptyStores sampleRecord 3 := by
    have hphase : phaseOf isVectorEffect
        ((effects faultless emptyStores sampleRecord).1.take 3) = .applied := by
      decide
    unfold VectorsLeft
    rw [hphase]
    rfl
  rcases hagree with ⟨hgraph, -⟩ | ⟨-, -, hnone⟩
  · exact hgraph.2.2 hdangles
  · exact hnone rfl hvectors

end TransactionalDeltaTensor

end AtlasMemory
