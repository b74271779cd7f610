import AtlasMemory.L2Semantic.ChainInvariant

/-!
# The state table as a fold of the ledger

The table of variables and the ledger are written by the same calls, so the table can be read off
the ledger: a variable is there if the newest entry that `set_sync` or `delete_sync` wrote for its
key is not a deletion.  Which call wrote a row is not a column of the ledger, so a run is annotated
with it; the notes are kept in the snapshots of the savepoints as the tables are.

One call breaks the correspondence: `purge_stale_probe_keys` removes variables and writes no entry.
`present_iff_newest_set` therefore reads the table off the ledger and the purges.
-/

namespace AtlasMemory

variable {rt : Runtime}

/-! ## Annotated runs -/

/-- What a call does to a stack of states of which it updates the current one. -/
def tablesAfter {σ : Type} (update : σ → σ) (t : SavepointStack String σ) :
    KvCall → SavepointStack String σ
  | .savepoint name => t.push (SqlText.lower name)
  | .rollbackSavepoint name =>
    ((t.rollbackTo (SqlText.lower name)).bind
      (SavepointStack.release · (SqlText.lower name))).getD t
  | .releaseSavepoint name => (t.release (SqlText.lower name)).getD t
  | _ => t.modify update

lemma tables_call (s : VerifiedKVStore) (c : KvCall) :
    (s.call rt c).tables = tablesAfter (VerifiedKVStore.dbAfter rt · c) s.tables c := by
  cases c with
  | savepoint name => rfl
  | rollbackSavepoint name =>
      show (s.rollbackSavepoint name).tables = _
      rw [VerifiedKVStore.rollbackSavepoint, tablesAfter]
      cases (s.tables.rollbackTo (SqlText.lower name)).bind
          (SavepointStack.release · (SqlText.lower name)) with
      | none => rfl
      | some tables => cases s.savepointPrevHashes.get? name <;> rfl
  | releaseSavepoint name =>
      show (s.releaseSavepoint name).tables = _
      rw [VerifiedKVStore.releaseSavepoint, tablesAfter]
      cases s.tables.release (SqlText.lower name) <;> rfl
  | _ => rfl

lemma map_tablesAfter {σ τ : Type} {f : σ → τ} {update : σ → σ} {update' : τ → τ}
    (t : SavepointStack String σ) (h : f (update t.current) = update' (f t.current)) (c : KvCall) :
    (tablesAfter update t c).map f = tablesAfter update' (t.map f) c := by
  cases c with
  | savepoint name => rfl
  | rollbackSavepoint name =>
      rw [tablesAfter, tablesAfter, SavepointStack.rollbackTo_map]
      cases t.rollbackTo (SqlText.lower name) with
      | none => rfl
      | some t' =>
          show SavepointStack.map f ((t'.release _).getD t) =
            ((t'.map f).release _).getD (t.map f)
          rw [SavepointStack.release_map]
          cases t'.release (SqlText.lower name) <;> rfl
  | releaseSavepoint name =>
      rw [tablesAfter, tablesAfter, SavepointStack.release_map]
      cases t.release (SqlText.lower name) <;> rfl
  | _ => exact SavepointStack.map_modify t h

lemma everywhere_tablesAfter {σ : Type} {P : σ → Prop} {update : σ → σ}
    {t : SavepointStack String σ} (h : SavepointStack.Everywhere P t)
    (hupdate : P (update t.current)) (c : KvCall) :
    SavepointStack.Everywhere P (tablesAfter update t c) := by
  cases c with
  | savepoint name => exact SavepointStack.everywhere_push h
  | rollbackSavepoint name =>
      rw [tablesAfter]
      cases hroll : t.rollbackTo (SqlText.lower name) with
      | none => exact h
      | some t' =>
          rw [Option.bind_some]
          cases hrelease : t'.release (SqlText.lower name) with
          | none => exact h
          | some t'' =>
              exact SavepointStack.everywhere_release
                (SavepointStack.everywhere_rollbackTo h hroll) hrelease
  | releaseSavepoint name =>
      rw [tablesAfter]
      cases hrelease : t.release (SqlText.lower name) with
      | none => exact h
      | some t' => exact SavepointStack.everywhere_release h hrelease
  | _ => exact SavepointStack.everywhere_modify h hupdate

/-- The call that wrote a row. -/
inductive Origin
  | set
  | delete
  | other
  deriving DecidableEq

/-- The origin of the rows that a call writes. -/
def KvCall.origin : KvCall → Origin
  | .setSync _ _ => .set
  | .deleteSync _ _ => .delete
  | _ => .other

/-- The tables, the origins of the rows of the ledger, and the keys that a purge removed and that
were not written since. -/
structure Annotated where
  db : Db
  origins : List Origin
  purged : List String

def AuditRow.keyHash (r : AuditRow) : String × String := (r.key, r.valueHash)

namespace Annotated

/-- The tables and the notes after a call other than a savepoint call. -/
def after (rt : Runtime) (x : Annotated) (c : KvCall) : Annotated :=
  let db := VerifiedKVStore.dbAfter rt x.db c
  { db
    origins := x.origins ++
      List.replicate (db.auditLog.rows.length - x.db.auditLog.rows.length) c.origin
    purged := match c with
      | .setSync a _ => x.purged.filter fun k => decide (k ≠ a.key)
      | .purgeStaleProbeKeys _ =>
        x.purged ++ x.db.stateVariables.keys.filter fun k => !db.stateVariables.contains k
      | _ => x.purged }

/-- The keys, value hashes and origins of the rows. -/
def entries (x : Annotated) : List ((String × String) × Origin) :=
  (x.db.auditLog.rows.map AuditRow.keyHash).zip x.origins

/-- The value hash and the origin of the newest entry that `set_sync` or `delete_sync` wrote for the
key. -/
def newest (x : Annotated) (k : String) : Option (String × Origin) :=
  (x.entries.reverse.find? fun e => decide (e.1.1 = k) && decide (e.2 ≠ .other)).map fun e =>
    (e.1.2, e.2)

end Annotated

def annotate (rt : Runtime) (calls : List KvCall) : SavepointStack String Annotated :=
  calls.foldl (fun t c => tablesAfter (·.after rt c) t c) ⟨⟨Db.empty, [], []⟩, []⟩

/-- The tables of the annotated run are those of the store. -/
lemma map_db_annotate (calls : List KvCall) :
    (annotate rt calls).map Annotated.db = (VerifiedKVStore.init.run rt calls).tables := by
  have hloop : ∀ (t : SavepointStack String Annotated) (s : VerifiedKVStore),
      t.map Annotated.db = s.tables →
      (calls.foldl (fun t c => tablesAfter (·.after rt c) t c) t).map Annotated.db =
        (s.run rt calls).tables := by
    induction calls with
    | nil => exact fun t s h => h
    | cons c cs ih =>
        intro t s h
        refine ih _ (s.call rt c) ?_
        have hstep := @map_tablesAfter _ _ Annotated.db (·.after rt c)
          (VerifiedKVStore.dbAfter rt · c) t rfl c
        rw [h, ← tables_call] at hstep
        exact hstep
  exact hloop _ _ rfl

namespace Annotated

variable {x : Annotated}

/-! ## The invariant -/

/-- The variables are those of the ledger without the purged ones. -/
structure Folded (x : Annotated) : Prop where
  numbered : Numbered x.db.auditLog
  length : x.origins.length = x.db.auditLog.rows.length
  present : ∀ k row, x.db.stateVariables.get? k = some row →
    ∃ hash, x.newest k = some (hash, .set) ∧ row.valueHash = some hash ∧ k ∉ x.purged
  absent : ∀ k hash, x.db.stateVariables.get? k = none → x.newest k = some (hash, .set) →
    k ∈ x.purged

lemma folded_empty : Folded ⟨Db.empty, [], []⟩ where
  numbered := numbered_empty
  length := rfl
  present _ _ h := by cases h
  absent _ _ _ h := by cases h

lemma newest_of_rows_concat {y : Annotated} {r : AuditRow} {o : Origin}
    (hlength : x.origins.length = x.db.auditLog.rows.length)
    (hrows : y.db.auditLog.rows = x.db.auditLog.rows ++ [r]) (horigins : y.origins = x.origins ++ [o])
    (k : String) : y.newest k =
      if r.key = k ∧ o ≠ .other then some (r.valueHash, o) else x.newest k := by
  have hentries : y.entries = x.entries ++ [(r.keyHash, o)] := by
    rw [entries, entries, hrows, horigins, List.map_append, List.zip_append]
    · rfl
    · rw [List.length_map, hlength]
  rw [newest, newest, hentries, List.reverse_append, List.reverse_singleton, List.singleton_append]
  have hmatches : (decide (r.keyHash.1 = k) && decide (o ≠ .other)) = true ↔
      r.key = k ∧ o ≠ .other := by
    rw [Bool.and_eq_true, decide_eq_true_eq, decide_eq_true_eq]
    rfl
  by_cases hkey : r.key = k ∧ o ≠ .other
  · rw [if_pos hkey, List.find?_cons, hmatches.mpr hkey]
    rfl
  · rw [if_neg hkey, List.find?_cons, Bool.eq_false_iff.mpr fun hfound => hkey (hmatches.mp hfound)]

lemma newest_of_keyHash_eq {y : Annotated}
    (hrows : y.db.auditLog.rows.map AuditRow.keyHash = x.db.auditLog.rows.map AuditRow.keyHash)
    (horigins : y.origins = x.origins) (k : String) : y.newest k = x.newest k := by
  rw [newest, newest, entries, entries, hrows, horigins]

lemma origins_after_of_length (rt : Runtime) {c : KvCall}
    (h : (VerifiedKVStore.dbAfter rt x.db c).auditLog.rows.length = x.db.auditLog.rows.length) :
    (x.after rt c).origins = x.origins := by
  show x.origins ++ List.replicate _ _ = _
  rw [h, Nat.sub_self, List.replicate_zero, List.append_nil]

lemma origins_after_of_concat (rt : Runtime) {c : KvCall} {r : AuditRow}
    (h : (VerifiedKVStore.dbAfter rt x.db c).auditLog.rows = x.db.auditLog.rows ++ [r]) :
    (x.after rt c).origins = x.origins ++ [c.origin] := by
  show x.origins ++ List.replicate _ _ = _
  have hlen : (VerifiedKVStore.dbAfter rt x.db c).auditLog.rows.length -
      x.db.auditLog.rows.length = 1 := by
    rw [h, List.length_append, List.length_singleton]
    omega
  rw [hlen, List.replicate_one]

/-- A call that keeps the keys and value hashes of both tables, and notes nothing. -/
lemma folded_of_same (h : x.Folded) {c : KvCall}
    (hrows : (VerifiedKVStore.dbAfter rt x.db c).auditLog.rows.map AuditRow.keyHash =
      x.db.auditLog.rows.map AuditRow.keyHash)
    (hstate : ∀ k, ((VerifiedKVStore.dbAfter rt x.db c).stateVariables.get? k).map
      StateRow.valueHash = (x.db.stateVariables.get? k).map StateRow.valueHash)
    (hpurged : (x.after rt c).purged = x.purged) : (x.after rt c).Folded := by
  have hlen : (VerifiedKVStore.dbAfter rt x.db c).auditLog.rows.length =
      x.db.auditLog.rows.length := by
    rw [← List.length_map AuditRow.keyHash, hrows, List.length_map]
  have horigins := origins_after_of_length rt hlen
  have hnewest : ∀ k, (x.after rt c).newest k = x.newest k :=
    newest_of_keyHash_eq hrows horigins
  refine ⟨numbered_dbAfter h.numbered c, ?_, fun k row hrow => ?_, fun k hash hnone hset => ?_⟩
  · rw [horigins, h.length]
    exact hlen.symm
  · have hsame := hstate k
    change (VerifiedKVStore.dbAfter rt x.db c).stateVariables.get? k = some row at hrow
    rw [hrow, Option.map_some] at hsame
    obtain ⟨old, hold, hhash⟩ := Option.map_eq_some_iff.mp hsame.symm
    obtain ⟨hash, hset, hvalue, hnot⟩ := h.present k old hold
    exact ⟨hash, (hnewest k).trans hset, hhash ▸ hvalue, hpurged ▸ hnot⟩
  · have hsame := hstate k
    change (VerifiedKVStore.dbAfter rt x.db c).stateVariables.get? k = none at hnone
    rw [hnone, Option.map_none] at hsame
    have hold : x.db.stateVariables.get? k = none := Option.map_eq_none_iff.mp hsame.symm
    exact hpurged ▸ h.absent k hash hold ((hnewest k).symm.trans hset)

/-- A call that appends a row of another origin and keeps the variables. -/
lemma folded_of_other (h : x.Folded) {c : KvCall} {r : AuditRow} (horigin : c.origin = .other)
    (hrows : (VerifiedKVStore.dbAfter rt x.db c).auditLog.rows = x.db.auditLog.rows ++ [r])
    (hstate : (VerifiedKVStore.dbAfter rt x.db c).stateVariables = x.db.stateVariables)
    (hpurged : (x.after rt c).purged = x.purged) : (x.after rt c).Folded := by
  have horigins := origins_after_of_concat rt hrows
  have hnewest : ∀ k, (x.after rt c).newest k = x.newest k := by
    intro k
    rw [newest_of_rows_concat h.length hrows horigins, horigin, if_neg fun hand => hand.2 rfl]
  refine ⟨numbered_dbAfter h.numbered c, ?_, fun k row hrow => ?_, fun k hash hnone hset => ?_⟩
  · show (x.after rt c).origins.length = (VerifiedKVStore.dbAfter rt x.db c).auditLog.rows.length
    rw [horigins, hrows, List.length_append, List.length_append, h.length]
    rfl
  · change (VerifiedKVStore.dbAfter rt x.db c).stateVariables.get? k = some row at hrow
    rw [hstate] at hrow
    rw [hnewest, hpurged]
    exact h.present k row hrow
  · change (VerifiedKVStore.dbAfter rt x.db c).stateVariables.get? k = none at hnone
    rw [hstate] at hnone
    rw [hnewest] at hset
    rw [hpurged]
    exact h.absent k hash hnone hset

/-- An append by a call other than `set_sync` and `delete_sync`. -/
lemma folded_of_append (h : x.Folded) {c : KvCall} (horigin : c.origin = .other) {db' : Db}
    {e : NewEntry} (hlog : db'.auditLog = x.db.auditLog)
    (hvariables : db'.stateVariables = x.db.stateVariables)
    (hafter : VerifiedKVStore.dbAfter rt x.db c = (db'.append rt e).1)
    (hpurged : (x.after rt c).purged = x.purged) : (x.after rt c).Folded := by
  have hstate : (VerifiedKVStore.dbAfter rt x.db c).stateVariables = x.db.stateVariables := by
    rw [hafter, Db.stateVariables_append, hvariables]
  rcases @append_cases rt db'.auditLog (hlog ▸ h.numbered) e with
    ⟨-, herr⟩ | ⟨stored, log', -, hok, hrows⟩
  · refine folded_of_same h ?_ (fun k => by rw [hstate]) hpurged
    rw [hafter, Db.append, herr]
    exact congrArg (fun log : AuditLog => log.rows.map AuditRow.keyHash) hlog
  · have hafterRows : (VerifiedKVStore.dbAfter rt x.db c).auditLog.rows =
        x.db.auditLog.rows ++ [appendedRow rt db'.auditLog e stored] := by
      rw [hafter, Db.append, hok, ← hlog]
      exact hrows
    exact folded_of_other h horigin hafterRows hstate hpurged

/-- `set_sync`. -/
lemma folded_setSync (h : x.Folded) (a : SetArgs) (now : ℚ) :
    (x.after rt (.setSync a now)).Folded := by
  obtain ⟨db', hlog, happend⟩ := @setSync_eq_append rt x.db a now
  have hrows : (x.db.setSync rt a now).1.auditLog.rows = x.db.auditLog.rows ++
      [appendedRow rt x.db.auditLog (a.entry rt now) (.finite now)] := by
    rw [happend, ← hlog]
    exact rows_append db' (hlog ▸ h.numbered) rfl
  have horigins := @origins_after_of_concat x rt (.setSync a now) _ hrows
  have hnewest : ∀ k, (x.after rt (.setSync a now)).newest k =
      if a.key = k then some (rt.hexdigest a.value.dumps, .set) else x.newest k := by
    intro k
    rw [newest_of_rows_concat h.length hrows horigins]
    exact if_congr (and_iff_left nofun) rfl rfl
  have hget : ∀ k, a.key ≠ k → (x.db.setSync rt a now).1.stateVariables.get? k =
      x.db.stateVariables.get? k := by
    intro k hk
    rw [Db.stateVariables_setSync, StateTable.get?_setState_of_ne _ hk]
  have hpurged : ∀ k, k ∈ (x.after rt (.setSync a now)).purged ↔ k ∈ x.purged ∧ k ≠ a.key := by
    intro k
    show k ∈ x.purged.filter (fun k => decide (k ≠ a.key)) ↔ _
    rw [List.mem_filter, decide_eq_true_eq]
  refine ⟨numbered_dbAfter h.numbered _, ?_, fun k row hrow => ?_, fun k hash hnone hset => ?_⟩
  · show (x.after rt _).origins.length = (x.db.setSync rt a now).1.auditLog.rows.length
    rw [horigins, hrows, List.length_append, List.length_append, h.length]
    rfl
  · change (x.db.setSync rt a now).1.stateVariables.get? k = some row at hrow
    by_cases hk : a.key = k
    · subst hk
      rw [Db.stateVariables_setSync, StateTable.get?_setState_self] at hrow
      refine ⟨rt.hexdigest a.value.dumps, ?_, ?_, fun hmem => ((hpurged a.key).mp hmem).2 rfl⟩
      · rw [hnewest, if_pos rfl]
      · rw [← Option.some.inj hrow]
    · rw [hget k hk] at hrow
      obtain ⟨hash, hset, hvalue, hnot⟩ := h.present k row hrow
      refine ⟨hash, ?_, hvalue, fun hmem => hnot ((hpurged k).mp hmem).1⟩
      rw [hnewest, if_neg hk, hset]
  · change (x.db.setSync rt a now).1.stateVariables.get? k = none at hnone
    by_cases hk : a.key = k
    · subst hk
      rw [Db.stateVariables_setSync, StateTable.get?_setState_self] at hnone
      cases hnone
    · rw [hget k hk] at hnone
      rw [hnewest, if_neg hk] at hset
      exact (hpurged k).mpr ⟨h.absent k hash hnone hset, Ne.symm hk⟩

/-- `delete_sync`. -/
lemma folded_deleteSync (h : x.Folded) (key : String) (now : ℚ) :
    (x.after rt (.deleteSync key now)).Folded := by
  by_cases hcontains : x.db.stateVariables.contains key = true
  · have hrows : (x.db.deleteSync rt key now).1.auditLog.rows = x.db.auditLog.rows ++
        [appendedRow rt x.db.auditLog (Db.deleteEntry rt key now) (.finite now)] := by
      rw [Db.deleteSync, StateTable.deleteState, hcontains]
      exact rows_append { x.db with stateVariables := x.db.stateVariables.erase key } h.numbered rfl
    have horigins := @origins_after_of_concat x rt (.deleteSync key now) _ hrows
    have hnewest : ∀ k, (x.after rt (.deleteSync key now)).newest k =
        if key = k then some (rt.hexdigest deletedMarkerJson, .delete) else x.newest k := by
      intro k
      rw [newest_of_rows_concat h.length hrows horigins]
      exact if_congr (and_iff_left (by rintro ⟨⟩)) rfl rfl
    refine ⟨numbered_dbAfter h.numbered _, ?_, fun k row hrow => ?_, fun k hash hnone hset => ?_⟩
    · show (x.after rt _).origins.length = (x.db.deleteSync rt key now).1.auditLog.rows.length
      rw [horigins, hrows, List.length_append, List.length_append, h.length]
      rfl
    · change (x.db.deleteSync rt key now).1.stateVariables.get? k = some row at hrow
      rw [Db.stateVariables_deleteSync] at hrow
      have hk : key ≠ k := by
        rintro rfl
        rw [PyDict.get?_erase_self] at hrow
        cases hrow
      rw [PyDict.get?_erase_of_ne _ hk] at hrow
      rw [hnewest, if_neg hk]
      exact h.present k row hrow
    · change (x.db.deleteSync rt key now).1.stateVariables.get? k = none at hnone
      rw [hnewest] at hset
      split_ifs at hset with hk
      · cases congrArg Prod.snd (Option.some.inj hset)
      · rw [Db.stateVariables_deleteSync, PyDict.get?_erase_of_ne _ hk] at hnone
        exact h.absent k hash hnone hset
  · -- nothing is deleted
    have hnone : x.db.stateVariables.get? key = none := by
      rw [PyDict.contains, Option.not_isSome_iff_eq_none] at hcontains
      exact hcontains
    have hsame : (x.db.deleteSync rt key now).1.auditLog = x.db.auditLog := by
      rw [Db.deleteSync, StateTable.deleteState, Bool.eq_false_iff.mpr hcontains]
      rfl
    refine folded_of_same h (congrArg (fun log : AuditLog => log.rows.map AuditRow.keyHash) hsame)
      (fun k => ?_) rfl
    rw [VerifiedKVStore.dbAfter, Db.stateVariables_deleteSync]
    by_cases hk : key = k
    · rw [← hk, PyDict.get?_erase_self, hnone]
    · rw [PyDict.get?_erase_of_ne _ hk]

/-- `purge_stale_probe_keys`. -/
lemma folded_purge (h : x.Folded) (prefixes : List String) :
    (x.after rt (.purgeStaleProbeKeys prefixes)).Folded := by
  set db := VerifiedKVStore.dbAfter rt x.db (.purgeStaleProbeKeys prefixes) with hdb
  have hlog : db.auditLog = x.db.auditLog := by
    rw [hdb, VerifiedKVStore.dbAfter, Db.purgeStaleProbeKeys]
    split_ifs <;> rfl
  have hget : ∀ k row, db.stateVariables.get? k = some row →
      x.db.stateVariables.get? k = some row := by
    intro k row hrow
    rw [hdb, VerifiedKVStore.dbAfter, Db.purgeStaleProbeKeys] at hrow
    split_ifs at hrow
    · exact hrow
    · exact StateTable.get?_of_get?_purge hrow
  have horigins : (x.after rt (.purgeStaleProbeKeys prefixes)).origins = x.origins :=
    origins_after_of_length rt (by rw [← hdb, hlog])
  have hnewest : ∀ k, (x.after rt (.purgeStaleProbeKeys prefixes)).newest k = x.newest k :=
    newest_of_keyHash_eq (congrArg (fun log : AuditLog => log.rows.map AuditRow.keyHash) hlog)
      horigins
  have hpurged : ∀ k, k ∈ (x.after rt (.purgeStaleProbeKeys prefixes)).purged ↔
      k ∈ x.purged ∨ (k ∈ x.db.stateVariables.keys ∧ db.stateVariables.get? k = none) := by
    intro k
    show k ∈ x.purged ++ x.db.stateVariables.keys.filter (fun k => !db.stateVariables.contains k) ↔ _
    rw [List.mem_append, List.mem_filter, PyDict.contains, Bool.not_eq_true', Option.isSome_eq_false_iff,
      Option.isNone_iff_eq_none]
  refine ⟨numbered_dbAfter h.numbered _, ?_, fun k row hrow => ?_, fun k hash hnone hset => ?_⟩
  · rw [horigins, h.length]
    exact congrArg (fun log : AuditLog => log.rows.length) hlog.symm
  · obtain ⟨hash, hset, hvalue, hnot⟩ := h.present k row (hget k row hrow)
    refine ⟨hash, (hnewest k).trans hset, hvalue, fun hmem => ?_⟩
    rcases (hpurged k).mp hmem with hold | ⟨-, hgone⟩
    · exact hnot hold
    · rw [show db.stateVariables.get? k = some row from hrow] at hgone
      cases hgone
  · rw [hnewest] at hset
    refine (hpurged k).mpr ?_
    cases hbefore : x.db.stateVariables.get? k with
    | none => exact Or.inl (h.absent k hash hbefore hset)
    | some row =>
        refine Or.inr ⟨PyDict.mem_keys_iff.mpr ?_, hnone⟩
        rw [hbefore]
        rfl

/-- **Step rule.** -/
lemma folded_after (h : x.Folded) (c : KvCall) : (x.after rt c).Folded := by
  cases c with
  | setSync a now => exact folded_setSync h a now
  | deleteSync key now => exact folded_deleteSync h key now
  | purgeStaleProbeKeys prefixes => exact folded_purge h prefixes
  | appendAuditLog entry now =>
      cases hconv : entry.toNewEntry rt now with
      | error err =>
          have hsame : VerifiedKVStore.dbAfter rt x.db (.appendAuditLog entry now) = x.db := by
            rw [VerifiedKVStore.dbAfter, appendAuditLog_eq, hconv]
          exact folded_of_same h (by rw [hsame]) (fun k => by rw [hsame]) rfl
      | ok e =>
          refine @folded_of_append rt x h _ rfl x.db e rfl rfl ?_ rfl
          rw [VerifiedKVStore.dbAfter, appendAuditLog_eq, hconv]
  | recordSleepCheckpoint a now =>
      rcases @recordSleepCheckpoint_cases rt x.db a now with hsame | ⟨table, happend⟩
      · have hafter : VerifiedKVStore.dbAfter rt x.db (.recordSleepCheckpoint a now) = x.db := hsame
        exact folded_of_same h (by rw [hafter]) (fun k => by rw [hafter]) rfl
      · exact @folded_of_append rt x h _ rfl { x.db with checkpoints := table } _ rfl rfl happend rfl
  | redactAuditEntry seq reason redactedValue today now =>
      refine folded_of_same h ?_ (fun _ => rfl) rfl
      rcases redactAuditEntry_log x.db.auditLog x.db.redactions seq reason redactedValue today now
        with heq | ⟨marker, heq⟩
      · exact congrArg (fun log : AuditLog => log.rows.map AuditRow.keyHash) heq
      · refine (congrArg (fun log : AuditLog => log.rows.map AuditRow.keyHash) heq).trans ?_
        show (x.db.auditLog.rows.map _).map AuditRow.keyHash = _
        rw [List.map_map]
        refine List.map_congr_left fun r _ => ?_
        by_cases hr : r.seq = seq <;> simp [hr, AuditRow.keyHash]
  | healAuditLogChain =>
      refine folded_of_same h ?_ (fun k => ?_) rfl
      · have hkeep : ∀ r prev stamp, (healRow r prev stamp).keyHash = r.keyHash := fun _ _ _ => rfl
        exact HashChain.map_relink hkeep genesisHash x.db.auditLog.rows
      · show ((x.db.stateVariables.clampConfidences).get? k).map StateRow.valueHash = _
        rw [StateTable.clampConfidences, PyDict.get?_mapValues, Option.map_map]
        rfl
  | verifyAuditLog deep => exact folded_of_same h rfl (fun _ => rfl) rfl
  | savepoint name => exact folded_of_same h rfl (fun _ => rfl) rfl
  | rollbackSavepoint name => exact folded_of_same h rfl (fun _ => rfl) rfl
  | releaseSavepoint name => exact folded_of_same h rfl (fun _ => rfl) rfl

/-- **Run rule.** -/
lemma folded_annotate (calls : List KvCall) :
    SavepointStack.Everywhere Folded (annotate rt calls) := by
  have hloop : ∀ t : SavepointStack String Annotated, SavepointStack.Everywhere Folded t →
      SavepointStack.Everywhere Folded
        (calls.foldl (fun t c => tablesAfter (·.after rt c) t c) t) := by
    induction calls with
    | nil => exact fun t h => h
    | cons c cs ih =>
        exact fun t h => ih _ (everywhere_tablesAfter h (folded_after h.1 c) c)
  exact hloop _ ⟨folded_empty, fun _ he => absurd he List.not_mem_nil⟩

end Annotated

/-- **The state is the fold of the ledger and the purges.** After any sequence of calls on a fresh
store, a variable is there exactly if the newest entry that `set_sync` or `delete_sync` wrote for
its key is none of `delete_sync` and no purge removed it since, and its value hash is the one of
that entry. -/
theorem present_iff_newest_set (rt : Runtime) (calls : List KvCall) (k : String) :
    let s := VerifiedKVStore.init.run rt calls
    let x := (annotate rt calls).current
    x.db = s.db ∧
    (s.db.stateVariables.contains k = true ↔
      (∃ hash, x.newest k = some (hash, .set)) ∧ k ∉ x.purged) ∧
    ∀ row hash origin, s.db.stateVariables.get? k = some row → x.newest k = some (hash, origin) →
      row.valueHash = some hash := by
  intro s x
  have hdb : x.db = s.db := congrArg SavepointStack.current (map_db_annotate calls)
  have hfolded : x.Folded := (Annotated.folded_annotate calls).1
  rw [← hdb]
  refine ⟨rfl, ?_, ?_⟩
  · rw [PyDict.contains, Option.isSome_iff_exists]
    constructor
    · rintro ⟨row, hrow⟩
      obtain ⟨hash, hset, -, hnot⟩ := hfolded.present k row hrow
      exact ⟨⟨hash, hset⟩, hnot⟩
    · rintro ⟨⟨hash, hset⟩, hnot⟩
      cases hget : x.db.stateVariables.get? k with
      | none => exact absurd (hfolded.absent k hash hget hset) hnot
      | some row => exact ⟨row, rfl⟩
  · intro row hash origin hrow hnewest
    obtain ⟨hash', hset, hvalue, -⟩ := hfolded.present k row hrow
    rw [hset, Option.some.injEq, Prod.mk.injEq] at hnewest
    rw [hvalue, hnewest.1]

/-- **A purge writes no entry.** The newest entry of a purged variable is its last write. -/
theorem purged_without_entry :
    ¬ ∀ (rt : Runtime) (calls : List KvCall) (k : String),
      (VerifiedKVStore.init.run rt calls).db.stateVariables.contains k = true ↔
        ∃ hash, (annotate rt calls).current.newest k = some (hash, .set) := by
  intro h
  have hpresent := (h Runtime.sample [.setSync { key := "k", value := .bool true } 1,
    .purgeStaleProbeKeys ["k"]] "k").mpr ⟨"#true", by decide⟩
  exact absurd hpresent (by decide)

end AtlasMemory
