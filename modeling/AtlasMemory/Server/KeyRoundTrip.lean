import AtlasMemory.L2Semantic.ValueReadback
import AtlasMemory.Server.MemoryRequests

/-!
# Setting, getting and deleting under one key

A set request strips its key and undoes the escapes in it before the record is stored, and the
requests to get and to delete take their key as it comes.  For a key that the set request leaves as
it is the three agree on the record.  A get request that finds no record under its key looks for
one whose key agrees up to case, so after the deletion it can still find another record.
-/

namespace AtlasMemory

open PyText Textnorm

namespace MemoryController

variable {ρ V : Type}

/-- The reply to a get request, with the value of the state on its own. -/
structure GetReply where
  status : String
  key : String
  found : Bool
  state : Option StateDict
  value : Option Json

/-- `_handle_get`. -/
def handleGet (rt : Runtime) (kv : VerifiedKVStore) (key : String) : Except PyError GetReply :=
  if key = "" then .error ⟨.valueError, "Key is required for get"⟩
  else
    let row := kv.db.stateVariables.lookup key
    .ok { status := "ok", key := key, found := row.isSome
          state := row.map fun e => e.2.toStateDict rt e.1
          value := row.map fun e => e.2.decodedValue }

def givenValue (rt : Runtime) (params : PyDict String Json) : Option Json :=
  firstOf rt [params.get? "value", params.get? "object", params.get? "val", params.get? "target",
    some (.str "")]

def givenKey (rt : Runtime) (params : PyDict String Json) : Option Json :=
  firstOf rt [params.get? "key", params.get? "subject"]

/-- A set request leaves the key as it is: there is no space around it, and it has no escape that
can be undone. -/
def OwnKey (key : String) : Prop := PyString.strip key = key ∧ Bare (ofString key)

/-- Another record in the table has the key up to case. -/
def HasVariant (t : StateTable) (key : String) : Prop :=
  ∃ key' row, key' ≠ key ∧ t.get? key' = some row ∧ SqlText.lower key' = SqlText.lower key

/-! ## The key and the value of a set request -/

lemma normalizeText_of_bare {text : String} (h : Bare (ofString text)) :
    normalizeText text = text := by
  rw [normalizeText, (normalize_eq_self_iff (surrogateFree_ofString text)).mpr h, toText_ofString]

/-- A text without surrogates that is not kept gets shorter. -/
lemma length_normalize_lt {t : PyText} (hfree : SurrogateFree t)
    (h : normalizeStoredText t ≠ t) : (normalizeStoredText t).length < t.length := by
  cases hescape : hasLiteralEscape t with
  | false =>
    rw [normalize_of_plain hescape, repair_of_surrogateFree hfree] at h
    exact absurd rfl h
  | true =>
    by_cases hraises : ∀ u, ¬Undoes 8 t u
    · exact absurd (normalize_of_raises hescape hraises) h
    push Not at hraises
    obtain ⟨u, hu⟩ := hraises
    rw [normalize_of_undoes hescape hu] at h ⊢
    have hle := repair_length_le u
    rcases (unescapePasses_shortens (unescapePasses_eq_some_iff.mpr hu)).1 with rfl | hlt
    · exact absurd (repair_of_surrogateFree hfree) h
    · omega

lemma length_normalizeText_lt {text : String} (h : ¬Bare (ofString text)) :
    (ofString (normalizeText text)).length < (ofString text).length := by
  have hfree := surrogateFree_ofString text
  rw [normalizeText, length_ofString_toText]
  exact length_normalize_lt hfree fun heq => h ((normalize_eq_self_iff hfree).mp heq)

/-- A string that is decoded from a literal is no longer than the string of the literal. -/
lemma length_of_decodedValue {row : StateRow} {s text : String}
    (hrow : row.value = (Json.str s).dumps) (h : row.decodedValue = .str text) :
    (ofString text).length ≤ (ofString s).length := by
  have hlit := StateRow.loadsString_dumps s
  rw [StateRow.decodedValue, hrow] at h
  have hkept : normalizeStoredText (ofString (Json.str s).dumps) = ofString (Json.str s).dumps →
      (ofString text).length ≤ (ofString s).length := by
    intro hlit'
    rw [hlit', hlit] at h
    dsimp only at h
    rw [← Json.str.inj h, length_ofString_toText]
    exact length_normalize_le _
  cases hescape : hasLiteralEscape (ofString (Json.str s).dumps) with
  | false =>
    apply hkept
    rw [normalize_of_plain hescape, repair_of_surrogateFree (surrogateFree_ofString _)]
  | true =>
    by_cases hraises : ∀ u, ¬Undoes 8 (ofString (Json.str s).dumps) u
    · exact hkept (normalize_of_raises hescape hraises)
    push Not at hraises
    obtain ⟨u, hu⟩ := hraises
    have hunit : u.length ≤ (ofString s).length := by
      have hfirst : unescapeOnePass (ofString (Json.str s).dumps) = some (ofString s) := by
        rw [unescapeOnePass, wholeString_dumps]
      cases hu with
      | settled hself =>
        rw [hfirst] at hself
        exact (congrArg List.length (Option.some.inj hself)).ge
      | layer hnext _ hrest =>
        obtain rfl := Option.some.inj (hfirst.symm.trans hnext)
        exact (unescapePasses_shortens (unescapePasses_eq_some_iff.mpr hrest)).1.le
    have hrepair := repair_length_le u
    rw [normalize_of_undoes hescape hu] at h
    cases hstr : StateRow.loadsString (repairSurrogates u) with
    | some s' =>
      rw [hstr] at h
      dsimp only at h
      have hlt := (StateRow.loads_of_loadsString hstr).2
      have hle := length_normalize_le s'
      rw [← Json.str.inj h, length_ofString_toText]
      omega
    | none =>
      rw [hstr] at h
      dsimp only at h
      cases hloads : Json.loads (repairSurrogates u) with
      | some w =>
        rw [hloads] at h
        obtain rfl : w = .str text := h
        obtain ⟨s', hs'⟩ := StateRow.exists_loadsString hloads
        rw [hstr] at hs'
        cases hs'
      | none =>
        rw [hloads] at h
        have hle := length_normalize_le (repairSurrogates u)
        rw [← Json.str.inj h, length_ofString_toText]
        omega

/-- What a set request that went through has persisted: the key and the value in their normal
forms. -/
lemma persist_of_handleSet {env : ControllerEnv ρ} {s s' : Stores ρ} {params : PyDict String Json}
    {times : RequestTimes} {r : WriteResponse}
    (h : handleSet env s params times = (s', .ok (.response r))) :
    ∃ v : StateVariable, persistStateVariable env s v times = (s', .ok (.response r)) ∧
      v.key = normalizeText (PyString.strip (textOr env.path.rt "None"
        (givenKey env.path.rt params))) ∧
      v.value = .str (normalizeText (valueText env.path.rt (givenValue env.path.rt params))) ∧
      PyString.strip (textOr env.path.rt "None" (givenKey env.path.rt params)) ≠ "" := by
  unfold handleSet at h
  dsimp only at h
  split at h
  · cases (Prod.mk.inj h).2
  · rename_i key val session hparams
    split at h
    · cases (Prod.mk.inj h).2
    · obtain ⟨hkey, hval, hne⟩ := parts_of_validateAndSanitize hparams
      exact ⟨_, h, hkey, congrArg Json.str hval, hne⟩

/-- The record of a set request under a key that is left as it is. -/
lemma record_of_ownKey {env : ControllerEnv ρ} (hstr : ∀ t, env.path.rt.pyStr (.str t) = t)
    {s s' : Stores ρ} {params : PyDict String Json} {times : RequestTimes} {r : WriteResponse}
    {key : String} (hkey : givenKey env.path.rt params = some (.str key)) (hown : OwnKey key)
    (hset : handleSet env s params times = (s', .ok (.response r))) (hr : r.persisted = true) :
    key ≠ "" ∧ ∃ row, s'.kv.db.stateVariables.get? key = some row ∧
      row.value = (Json.str (normalizeText
        (valueText env.path.rt (givenValue env.path.rt params)))).dumps := by
  obtain ⟨v, hpersist, hvkey, hvvalue, hne⟩ := persist_of_handleSet hset
  have htext : textOr env.path.rt "None" (givenKey env.path.rt params) = key := by
    rw [hkey, textOr, Option.map_some, hstr, Option.getD_some]
  rw [htext, hown.1] at hvkey hne
  rw [normalizeText_of_bare hown.2] at hvkey
  have hrkey : r.key = key := by
    rw [key_of_persistStateVariable hpersist, hvkey, hstr]
    simp [Runtime.truthy, hne, hown.1]
  obtain ⟨row, hrow, hvalue, -⟩ := hasRecord_of_persistStateVariable hpersist hr
  rw [hrkey] at hrow
  rw [hvvalue] at hvalue
  exact ⟨hne, row, hrow, hvalue⟩

/-- The decoded record is the given text exactly if the text has no escape that can be undone, and
comes back from its literal. -/
lemma decodedValue_normalizeText_iff {row : StateRow} {text : String}
    (hrow : row.value = (Json.str (normalizeText text)).dumps) :
    row.decodedValue = .str text ↔ Bare (ofString text) ∧ Restored text := by
  by_cases hbare : Bare (ofString text)
  · rw [normalizeText_of_bare hbare] at hrow
    rw [StateRow.decodedValue_str_iff hrow]
    exact (and_iff_right hbare).symm
  · refine iff_of_false (fun hvalue => ?_) fun h => hbare h.1
    have hlt := length_normalizeText_lt hbare
    have hle := length_of_decodedValue hrow hvalue
    omega

/-! ## After a set request -/

variable {env : ControllerEnv ρ} {s s' : Stores ρ} {params : PyDict String Json}
  {times : RequestTimes} {r : WriteResponse} {key : String}

lemma handleGet_of_record {rt : Runtime} {kv : VerifiedKVStore} {row : StateRow} (hne : key ≠ "")
    (hrow : kv.db.stateVariables.get? key = some row) :
    ∃ reply, handleGet rt kv key = .ok reply ∧ reply.found = true ∧
      reply.value = some row.decodedValue := by
  refine ⟨_, if_neg hne, ?_, ?_⟩ <;> simp [StateTable.lookup, hrow]

/-- A get request without a record of its key finds one exactly if another has the key up to
case. -/
lemma handleGet_of_none {rt : Runtime} {kv : VerifiedKVStore} (hne : key ≠ "")
    (hrow : kv.db.stateVariables.get? key = none) :
    ∃ reply, handleGet rt kv key = .ok reply ∧
      (reply.found = true ↔ HasVariant kv.db.stateVariables key) := by
  refine ⟨_, if_neg hne, ?_⟩
  simp only [StateTable.lookup, hrow, List.find?_isSome, decide_eq_true_eq]
  constructor
  · rintro ⟨⟨key', row⟩, hmem, hlower⟩
    have hget := PyDict.mem_entries_iff.mp hmem
    refine ⟨key', row, fun heq => ?_, hget, hlower⟩
    rw [heq, hrow] at hget
    cases hget
  · rintro ⟨key', row, -, hget, hlower⟩
    exact ⟨(key', row), PyDict.mem_entries_iff.mpr hget, hlower⟩

/-- A delete request for an unprotected key that has a record reports the deletion. -/
lemma deleted_of_handleDelete {rt : Runtime} {vb : VectorBackend V} {rawText : Json → String}
    {kv : VerifiedKVStore} {now : ℚ} {v : V} {row : StateRow} {reply : DeleteReply} (hne : key ≠ "")
    (hguard : DeleteGuard.isDeleteProtected key = none)
    (hrow : kv.db.stateVariables.get? key = some row)
    (h : (handleDelete rt vb rawText key now kv v).2.2 = .ok reply) : reply.deleted = true := by
  have hcontains : kv.db.stateVariables.contains key = true := by
    rw [PyDict.contains, hrow, Option.isSome_some]
  unfold handleDelete at h
  rw [if_neg hne, hguard] at h
  dsimp only at h
  rw [hcontains] at h
  split at h
  · cases h
  · rw [← Except.ok.inj h]
    rfl

/-- A delete request for an unprotected key removes its record and no other. -/
lemma stateVariables_handleDelete {rt : Runtime} {vb : VectorBackend V}
    {rawText : Json → String} {kv : VerifiedKVStore} {now : ℚ} {v : V} (hne : key ≠ "")
    (hguard : DeleteGuard.isDeleteProtected key = none) :
    (handleDelete rt vb rawText key now kv v).1.db.stateVariables =
      kv.db.stateVariables.erase key := by
  have hcall : (handleDelete rt vb rawText key now kv v).1 = kv.call rt (.deleteSync key now) := by
    unfold handleDelete
    rw [if_neg hne, hguard]
    dsimp only
    split
    · rfl
    · split <;> rfl
  rw [hcall]
  exact Db.stateVariables_deleteSync rt kv.db key now

/-- **Set, get and delete**: after a set request for a key that it leaves as it is, and that is
not protected, a get request finds the record, with the given text as its value exactly if the text
has no escape that can be undone and comes back from its literal; a delete request removes the
record; and a further get request finds nothing but a record that has the key up to case. -/
theorem set_get_delete (hstr : ∀ t, env.path.rt.pyStr (.str t) = t)
    (hkey : givenKey env.path.rt params = some (.str key)) (hown : OwnKey key)
    (hset : handleSet env s params times = (s', .ok (.response r))) (hr : r.persisted = true)
    (hguard : DeleteGuard.isDeleteProtected key = none) (vb : VectorBackend V)
    (rawText : Json → String) (now : ℚ) (v : V) :
    (∃ reply, handleGet env.path.rt s'.kv key = .ok reply ∧ reply.found = true ∧
      ∀ text, valueText env.path.rt (givenValue env.path.rt params) = text →
        (reply.value = some (.str text) ↔ Bare (ofString text) ∧ Restored text)) ∧
    (handleDelete env.path.rt vb rawText key now s'.kv v).1.db.stateVariables.get? key = none ∧
    (∀ reply, (handleDelete env.path.rt vb rawText key now s'.kv v).2.2 = .ok reply →
      reply.deleted = true) ∧
    ∃ reply, handleGet env.path.rt (handleDelete env.path.rt vb rawText key now s'.kv v).1 key =
        .ok reply ∧
      (reply.found = true ↔ HasVariant s'.kv.db.stateVariables key) := by
  obtain ⟨hne, row, hrow, hvalue⟩ := record_of_ownKey hstr hkey hown hset hr
  have htable : (handleDelete env.path.rt vb rawText key now s'.kv v).1.db.stateVariables =
      s'.kv.db.stateVariables.erase key := stateVariables_handleDelete hne hguard
  have hgone : (handleDelete env.path.rt vb rawText key now s'.kv v).1.db.stateVariables.get? key =
      none := by
    rw [htable, PyDict.get?_erase_self]
  refine ⟨?_, hgone, ?_, ?_⟩
  · obtain ⟨reply, hreply, hfound, hread⟩ := @handleGet_of_record _ env.path.rt _ _ hne hrow
    refine ⟨reply, hreply, hfound, ?_⟩
    rintro text rfl
    rw [hread, Option.some.injEq]
    exact decodedValue_normalizeText_iff hvalue
  · intro reply hreply
    exact deleted_of_handleDelete hne hguard hrow hreply
  · obtain ⟨reply, hreply, hfound⟩ := @handleGet_of_none _ env.path.rt _ hne hgone
    refine ⟨reply, hreply, hfound.trans ?_⟩
    unfold HasVariant
    rw [htable]
    constructor
    · rintro ⟨key', row', hne', hget, hlower⟩
      exact ⟨key', row', hne', by rwa [PyDict.get?_erase_of_ne _ (Ne.symm hne')] at hget, hlower⟩
    · rintro ⟨key', row', hne', hget, hlower⟩
      exact ⟨key', row', hne', by rwa [PyDict.get?_erase_of_ne _ (Ne.symm hne')], hlower⟩

/-! ## Two records that differ in case -/

/-- A controller over a write path that does not fail. -/
def plainController : ControllerEnv Unit where
  path := sampleWriteEnv
  vectors := ⟨fun v _ => (v, 0), fun v _ => (v, 0)⟩
  vectorRecord _ _ _ := ()

/-- The parameters of a set request with a key and a value. -/
def setParams (key value : String) : PyDict String Json :=
  PyDict.ofEntries [("key", .str key), ("value", .str value)]

def notedStores : Stores Unit :=
  (handleSet plainController emptyStores (setParams "note:Alpha" "one") ⟨timesAt 1, 1⟩).1

lemma exists_persisted {run : Stores Unit × Except PyError PersistReply}
    (h : (match run.2 with
      | .ok (.response r) => r.persisted
      | _ => false) = true) :
    ∃ s' r, run = (s', .ok (.response r)) ∧ r.persisted = true := by
  obtain ⟨s', result⟩ := run
  dsimp only at h
  split at h
  · exact ⟨s', _, rfl, h⟩
  · cases h

/-- A note is found and, once it is deleted, gone. -/
theorem set_get_delete_note : ∃ s' reply,
    (handleSet plainController emptyStores (setParams "note:Alpha" "one") ⟨timesAt 1, 1⟩).1 = s' ∧
      handleGet Runtime.sample s'.kv "note:Alpha" = .ok reply ∧ reply.found = true ∧
      (handleDelete Runtime.sample plainController.vectors Json.dumps "note:Alpha" 2 s'.kv
        []).1.db.stateVariables.get? "note:Alpha" = none := by
  obtain ⟨s', r, hset, hr⟩ : ∃ s' r, handleSet plainController emptyStores
      (setParams "note:Alpha" "one") ⟨timesAt 1, 1⟩ = (s', .ok (.response r)) ∧
        r.persisted = true := exists_persisted (by decide +kernel)
  have hown : OwnKey "note:Alpha" := ⟨by decide, Or.inl (by decide)⟩
  obtain ⟨⟨reply, hreply, hfound, -⟩, hgone, -⟩ := @set_get_delete Unit _ plainController _ _ _ _ _
    _ (fun _ => rfl) rfl hown hset hr (by decide) plainController.vectors Json.dumps 2 []
  exact ⟨s', reply, congrArg Prod.fst hset, hreply, hfound, hgone⟩

/-- A second note has the key of the first up to case: it is persisted and deleted, and the key is
still found. -/
theorem variant_found_after_delete : ∃ s' r reply,
    handleSet plainController notedStores (setParams "note:alpha" "two") ⟨timesAt 2, 2⟩ =
        (s', .ok (.response r)) ∧
      r.persisted = true ∧ DeleteGuard.isDeleteProtected "note:alpha" = none ∧
      handleGet Runtime.sample (handleDelete Runtime.sample plainController.vectors Json.dumps
        "note:alpha" 3 s'.kv []).1 "note:alpha" = .ok reply ∧ reply.found = true := by
  obtain ⟨s', r, hset, hr⟩ : ∃ s' r, handleSet plainController notedStores
      (setParams "note:alpha" "two") ⟨timesAt 2, 2⟩ = (s', .ok (.response r)) ∧
        r.persisted = true := exists_persisted (by decide +kernel)
  have hfirst : (s'.kv.db.stateVariables.get? "note:Alpha").isSome = true := by
    have hrun : ((handleSet plainController notedStores (setParams "note:alpha" "two")
        ⟨timesAt 2, 2⟩).1.kv.db.stateVariables.get? "note:Alpha").isSome = true := by decide +kernel
    rwa [hset] at hrun
  obtain ⟨row, hrow⟩ := Option.isSome_iff_exists.mp hfirst
  have hguard : DeleteGuard.isDeleteProtected "note:alpha" = none := by decide
  have htable : (handleDelete Runtime.sample plainController.vectors Json.dumps "note:alpha" 3 s'.kv
      []).1.db.stateVariables = s'.kv.db.stateVariables.erase "note:alpha" :=
    stateVariables_handleDelete (by decide) hguard
  obtain ⟨reply, hreply, hfound⟩ := @handleGet_of_none "note:alpha" Runtime.sample
    (handleDelete Runtime.sample plainController.vectors Json.dumps "note:alpha" 3 s'.kv []).1
    (by decide) (by rw [htable, PyDict.get?_erase_self])
  refine ⟨s', r, reply, hset, hr, hguard, hreply, hfound.mpr ⟨"note:Alpha", row, by decide, ?_, ?_⟩⟩
  · rwa [htable, PyDict.get?_erase_of_ne _ (by decide)]
  · decide

end MemoryController

end AtlasMemory
