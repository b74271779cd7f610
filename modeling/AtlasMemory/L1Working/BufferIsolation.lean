import AtlasMemory.Foundations.PyText
import AtlasMemory.L1Working.HotBuffer
import Mathlib.Data.Bool.AllAny

/-!
# Session isolation of the hot buffer

What `get_active` returns to a session after any sequence of calls of `append`, `update` and
`purge`.  The buffer keeps one entry a key and stays within its length whatever is called.

The session of an entry is compared with the requested one after `session_` has been removed from
both, wherever it stands.  The mark is a prefix of a session identifier, so two spellings of one
session are meant to agree; but a mark inside an identifier goes as well, and different sessions may
then look alike.
-/

namespace AtlasMemory

namespace HotBuffer

variable (rt : Runtime) (lex : Lexicon)

/-! ## Calls -/

/-- A call that writes to the buffer. -/
inductive Call where
  | append (e : HotBufferEntry)
  | update (key : String) (value : Json) (confidence : ℚ) (metadata : PyDict String Json)
      (sourceType : String) (now : ℚ)
  | purge (key : String)

namespace Call

def apply (b : HotBuffer) : Call → HotBuffer
  | append e => b.append e
  | update key value confidence metadata sourceType now =>
    b.update rt key value confidence metadata sourceType now
  | purge key => b.purge key

/-- The session of the entry that the call writes. -/
def session : Call → Option String
  | append e => extractEffectiveSession rt lex e.key e.metadata
  | update key _ _ metadata _ _ => extractEffectiveSession rt lex key metadata
  | purge _ => none

end Call

def run (b : HotBuffer) (calls : List Call) : HotBuffer := calls.foldl (Call.apply rt) b

/-! ## Sessions -/

def sessionMark : String := "session_"

/-- `s.removeprefix("session_")`. -/
def withoutMark (cs : List Char) : List Char :=
  if sessionMark.toList.isPrefixOf cs then cs.drop 8 else cs

/-- The session that an identifier names: the identifier without the spaces around it and without
the mark in front. -/
def sessionName (session : String) : String :=
  PyString.strip (String.ofList (withoutMark (PyString.strip session).toList))

def defaultNames : List String := [defaultSession, "default", ""]

/-- The session is neither global nor the default one. -/
def PrivateSession (session : String) : Prop :=
  session ≠ globalSession ∧ sessionName session ∉ defaultNames

/-- Two identifiers of one session. -/
def SameSession (session requested : String) : Prop := sessionName session = sessionName requested

/-- The request sees the entries of the session: it names none, or the two agree without their
marks, or both are names of the default session then. -/
def Aliases (session requested : String) : Prop :=
  requested = "" ∨ cleanSession session = cleanSession requested ∨
    cleanSession session ∈ defaultNames ∧ cleanSession requested ∈ defaultNames

/-- No entry of another private session is returned. -/
def Isolated (b : HotBuffer) (requested : String) : Prop :=
  ∀ now, ∀ e ∈ getActive rt lex b (some requested) now, ∀ session,
    extractEffectiveSession rt lex e.key e.metadata = some session →
      PrivateSession session → SameSession session requested

/-- The calls write no entry of another private session that the request sees. -/
def NoAlias (calls : List Call) (requested : String) : Prop :=
  ∀ call ∈ calls, ∀ session, call.session rt lex = some session → PrivateSession session →
    Aliases session requested → SameSession session requested

/-- The buffer has one entry a key, and at most so many. -/
structure Shaped (b : HotBuffer) (maxlen : ℕ) : Prop where
  nodup : (b.buffer.map HotBufferEntry.key).Nodup
  bounded : b.buffer.length ≤ maxlen

variable {rt lex} {b : HotBuffer} {maxlen : ℕ} {session requested : String}

/-! ## What a call does to the buffer -/

lemma maxlen_apply (call : Call) : (call.apply rt b).maxlen = b.maxlen := by
  cases call <;> rfl

lemma mem_of_mem_push {e e' : HotBufferEntry} (h : e' ∈ (b.push e).buffer) :
    e' ∈ b.buffer ∨ e' = e := by
  rcases List.mem_append.mp (List.mem_of_mem_drop h) with h | h
  · exact Or.inl h
  · exact Or.inr (List.mem_singleton.mp h)

lemma shaped_purge (h : Shaped b maxlen) (key : String) : Shaped (b.purge key) maxlen where
  nodup := h.nodup.sublist (List.filter_sublist.map _)
  bounded := (List.length_filter_le _ _).trans h.bounded

lemma shaped_push (h : Shaped b b.maxlen) {e : HotBufferEntry}
    (hnew : ∀ e' ∈ b.buffer, e'.key ≠ e.key) : Shaped (b.push e) b.maxlen := by
  have hnodup : ((b.buffer ++ [e]).map HotBufferEntry.key).Nodup := by
    rw [List.map_append, List.nodup_append]
    refine ⟨h.nodup, List.nodup_singleton _, fun k hk k' hk' => ?_⟩
    obtain ⟨e', he', rfl⟩ := List.mem_map.mp hk
    rw [List.mem_singleton.mp hk']
    exact hnew e' he'
  refine ⟨hnodup.sublist ((List.drop_sublist _ _).map _), ?_⟩
  show ((b.buffer ++ [e]).drop ((b.buffer ++ [e]).length - b.maxlen)).length ≤ b.maxlen
  rw [List.length_drop]
  omega

lemma shaped_push_purge (h : Shaped b b.maxlen) (e : HotBufferEntry) :
    Shaped ((b.purge e.key).push e) b.maxlen := by
  refine shaped_push (b := b.purge e.key) (shaped_purge h e.key) fun e' he' => ?_
  exact of_decide_eq_true (List.mem_filter.mp he').2

lemma shaped_apply (h : Shaped b b.maxlen) (call : Call) :
    Shaped (call.apply rt b) b.maxlen := by
  cases call with
  | append e => exact shaped_push_purge h e
  | update key value confidence metadata sourceType now =>
      exact shaped_push_purge h ⟨key, value, confidence, sourceType, now, _, metadata⟩
  | purge key => exact shaped_purge h key

/-- The session of an entry after a call is that of an entry before it, or of the entry written. -/
lemma session_of_mem_apply {call : Call} {e : HotBufferEntry}
    (he : e ∈ (call.apply rt b).buffer) :
    e ∈ b.buffer ∨ call.session rt lex = extractEffectiveSession rt lex e.key e.metadata := by
  cases call with
  | append e' =>
      rcases mem_of_mem_push he with he | he
      · exact Or.inl (List.mem_of_mem_filter he)
      · right
        rw [he]
        rfl
  | update key value confidence metadata sourceType now =>
      rcases mem_of_mem_push he with he | he
      · exact Or.inl (List.mem_of_mem_filter he)
      · right
        rw [he]
        rfl
  | purge key => exact Or.inl (List.mem_of_mem_filter he)

lemma shaped_run (h : Shaped b b.maxlen) (calls : List Call) :
    Shaped (run rt b calls) b.maxlen := by
  induction calls generalizing b with
  | nil => exact h
  | cons call calls ih =>
      have hstep : Shaped (call.apply rt b) (call.apply rt b).maxlen := by
        rw [maxlen_apply]
        exact shaped_apply h call
      have hrun := ih hstep
      rw [maxlen_apply] at hrun
      exact hrun

/-- The session of an entry after the calls is that of an entry one of them wrote. -/
lemma session_of_mem_run {calls : List Call} {e : HotBufferEntry}
    (he : e ∈ (run rt b calls).buffer) :
    e ∈ b.buffer ∨ ∃ call ∈ calls,
      call.session rt lex = extractEffectiveSession rt lex e.key e.metadata := by
  induction calls generalizing b with
  | nil => exact Or.inl he
  | cons call calls ih =>
      rcases ih he with he | ⟨call', hmem, hsession⟩
      · have hor : e ∈ b.buffer ∨ call.session rt lex =
            extractEffectiveSession rt lex e.key e.metadata := session_of_mem_apply he
        rcases hor with he | hsession
        · exact Or.inl he
        · exact Or.inr ⟨call, List.mem_cons_self, hsession⟩
      · exact Or.inr ⟨call', List.mem_cons_of_mem _ hmem, hsession⟩

/-! ## What a request sees -/

/-- A request sees the entries of a session that is not global only under an alias. -/
lemma aliases_of_accessible (hglobal : session ≠ globalSession)
    (h : isSessionAccessible (some session) (some requested) = true) :
    Aliases session requested := by
  unfold isSessionAccessible at h
  dsimp only [Option.map_some, Option.getD_some] at h
  rw [if_neg hglobal] at h
  split_ifs at h with hdefault
  · refine Or.inr (Or.inr ⟨?_, ?_⟩)
    · simpa [defaultNames] using hdefault
    · simpa [defaultNames] using h
  · exact Or.inr (Or.inl (of_decide_eq_true h).2.symm)

lemma mem_of_mem_dedupLast {es : List HotBufferEntry} {e : HotBufferEntry}
    (h : e ∈ dedupLast es) : e ∈ es := by
  induction es with
  | nil => exact h
  | cons e' es ih =>
      rw [dedupLast] at h
      split_ifs at h with hlater
      · exact List.mem_cons_of_mem _ (ih h)
      · rcases List.mem_cons.mp h with h | h
        · rw [h]
          exact List.mem_cons_self
        · exact List.mem_cons_of_mem _ (ih h)

/-- An entry that is returned is in the buffer, and the request sees its session. -/
lemma aliases_of_mem_getActive {now : ℚ} {e : HotBufferEntry}
    (h : e ∈ getActive rt lex b (some requested) now) :
    e ∈ b.buffer ∧ ∀ session, extractEffectiveSession rt lex e.key e.metadata = some session →
      session ≠ globalSession → Aliases session requested := by
  obtain ⟨hmem, hactive⟩ := List.mem_filter.mp (mem_of_mem_dedupLast h)
  refine ⟨hmem, fun session hsession hglobal => ?_⟩
  have hseen := (Bool.and_eq_true_iff.mp hactive).2
  rw [Bool.or_eq_true, Option.getD_some, hsession] at hseen
  rcases hseen with hempty | haccessible
  · exact Or.inl (of_decide_eq_true hempty)
  · exact aliases_of_accessible hglobal haccessible

/-- **Isolation.** Whatever is called, the buffer has one entry a key and stays within its length;
and a session is returned no entry of another private session if the calls write none that looks
like it without the marks. -/
theorem shaped_and_isolated (rt : Runtime) (lex : Lexicon) (maxlen : ℕ) (ttlSeconds : ℚ)
    (calls : List Call) :
    Shaped (run rt ⟨maxlen, ttlSeconds, []⟩ calls) maxlen ∧
      ∀ requested, NoAlias rt lex calls requested →
        Isolated rt lex (run rt ⟨maxlen, ttlSeconds, []⟩ calls) requested := by
  constructor
  · exact shaped_run (b := ⟨maxlen, ttlSeconds, []⟩) ⟨List.nodup_nil, Nat.zero_le _⟩ calls
  · intro requested hcalls now e he session hsession hprivate
    obtain ⟨hmem, haliases⟩ := aliases_of_mem_getActive he
    have hor : e ∈ [] ∨ ∃ call ∈ calls, call.session rt lex =
        extractEffectiveSession rt lex e.key e.metadata := session_of_mem_run hmem
    rcases hor with hmem | ⟨call, hcall, hwritten⟩
    · exact absurd hmem List.not_mem_nil
    · exact hcalls call hcall session (hwritten.trans hsession) hprivate
        (haliases session hsession hprivate.1)

/-! ## Plain identifiers -/

/-- The mark stands at most in front of the identifier. -/
def PlainSession (session : String) : Prop :=
  ¬ sessionMark.toList <:+: withoutMark session.toList

instance : DecidablePred PlainSession := fun session =>
  inferInstanceAs (Decidable ¬ sessionMark.toList <:+: withoutMark session.toList)

lemma dropSessionMarks_of_plain {cs : List Char} (h : ¬ sessionMark.toList <:+: cs) :
    dropSessionMarks 0 cs = cs := by
  induction cs with
  | nil => rfl
  | cons c cs ih =>
      have hfront : ¬ "session_".toList.isPrefixOf (c :: cs) = true := fun hprefix =>
        h (List.isPrefixOf_iff_prefix.mp hprefix).isInfix
      have hrest : ¬ sessionMark.toList <:+: cs := fun hmark =>
        h (hmark.trans (List.suffix_cons c cs).isInfix)
      rw [dropSessionMarks, if_neg hfront, ih hrest]

lemma dropSessionMarks_mark (cs : List Char) :
    dropSessionMarks 0 (sessionMark.toList ++ cs) = dropSessionMarks 0 cs := by
  have hfront : "session_".toList.isPrefixOf ('s' :: ("ession_".toList ++ cs)) = true :=
    List.isPrefixOf_iff_prefix.mpr (List.prefix_append sessionMark.toList cs)
  show dropSessionMarks 0 ('s' :: ("ession_".toList ++ cs)) = _
  rw [dropSessionMarks, if_pos hfront]
  rfl

lemma withoutMark_mark (cs : List Char) : withoutMark (sessionMark.toList ++ cs) = cs := by
  rw [withoutMark, if_pos (List.isPrefixOf_iff_prefix.mpr (List.prefix_append _ _))]
  rfl

/-- Only the mark in front is removed from a plain identifier. -/
lemma cleanSession_of_plain (h : PlainSession session) :
    cleanSession session = sessionName session := by
  have hspace : ∀ c ∈ sessionMark.toList, PyText.isPySpace c = false :=
    List.all_iff_forall_prop.mp (by decide)
  unfold cleanSession sessionName PyString.strip PyString.stripWith
  rw [String.toList_ofList, String.toList_ofList, String.toList_ofList]
  by_cases hmark : sessionMark.toList <+: session.toList
  · obtain ⟨cs, hcs⟩ := hmark
    have hplain : ¬ sessionMark.toList <:+: cs := by
      rw [PlainSession, ← hcs, withoutMark_mark] at h
      exact h
    rw [← hcs, dropSessionMarks_mark, dropSessionMarks_of_plain hplain,
      PyText.stripList_append_of_not _ hspace (by decide), withoutMark_mark,
      PyText.stripList_rdropWhile]
  · have hfront : ¬ sessionMark.toList.isPrefixOf session.toList = true := fun hprefix =>
      hmark (List.isPrefixOf_iff_prefix.mp hprefix)
    rw [PlainSession, withoutMark, if_neg hfront] at h
    have hstrip : PyText.stripList PyText.isPySpace session.toList <:+: session.toList :=
      (List.rdropWhile_prefix _ _).isInfix.trans (List.dropWhile_suffix _).isInfix
    have hfront' : ¬ sessionMark.toList.isPrefixOf
        (PyText.stripList PyText.isPySpace session.toList) = true := fun hprefix =>
      h ((List.isPrefixOf_iff_prefix.mp hprefix).isInfix.trans hstrip)
    rw [dropSessionMarks_of_plain h, withoutMark, if_neg hfront', PyText.stripList_stripList]

/-- Plain identifiers of different private sessions do not look alike. -/
lemma sameSession_of_plain (hsession : PlainSession session) (hrequested : PlainSession requested)
    (hprivate : PrivateSession session) (hne : requested ≠ "")
    (halias : Aliases session requested) : SameSession session requested := by
  unfold Aliases at halias
  rw [cleanSession_of_plain hsession, cleanSession_of_plain hrequested] at halias
  rcases halias with hempty | hsame | ⟨hdefault, -⟩
  · exact absurd hempty hne
  · exact hsame
  · exact absurd hdefault hprivate.2

/-- The calls write no aliases if the marks stand only in front of the identifiers. -/
lemma noAlias_of_plain {calls : List Call} (hrequested : PlainSession requested)
    (hne : requested ≠ "") (hcalls : ∀ call ∈ calls, ∀ session,
      call.session rt lex = some session → PlainSession session) :
    NoAlias rt lex calls requested := fun call hcall session hsession hprivate halias =>
  sameSession_of_plain (hcalls call hcall session hsession) hrequested hprivate hne halias

/-- A note of the session `work`, and one of the session `play`. -/
def sampleCalls : List Call :=
  [.append ⟨"note", .str "dark", 1, "user_explicit", 0, false,
      PyDict.ofEntries [("session_id", .str "session_work")]⟩,
    .update "hint" (.str "light") 1 (PyDict.ofEntries [("session_id", .str "play")]) "" 1,
    .purge "memo"]

/-- The notes as the session `work` sees them. -/
theorem isolated_sampleCalls :
    Isolated Runtime.sample sampleLexicon
      (run Runtime.sample ⟨2, 900, []⟩ sampleCalls) "work" := by
  have hwork : PlainSession "work" := by decide
  have hcalls : ∀ call ∈ sampleCalls, ∀ session,
      call.session Runtime.sample sampleLexicon = some session → PlainSession session := by
    intro call hcall session hsession
    have hsessions : sampleCalls.map (Call.session Runtime.sample sampleLexicon) =
        [some "session_work", some "play", none] := by
      decide
    have hmem : some session ∈ [some "session_work", some "play", none] := by
      rw [← hsessions, ← hsession]
      exact List.mem_map_of_mem hcall
    have hor : session = "session_work" ∨ session = "play" := by simpa using hmem
    rcases hor with rfl | rfl
    · decide
    · decide
  exact (shaped_and_isolated Runtime.sample sampleLexicon 2 900 sampleCalls).2 "work"
    (noAlias_of_plain hwork (by decide) hcalls)

/-- A note of a session whose identifier holds the mark inside. -/
def markedCalls : List Call :=
  [.append ⟨"note", .str "dark", 1, "user_explicit", 0, false,
    PyDict.ofEntries [("session_id", .str "asession_b")]⟩]

/-- The note is returned to the session `ab`. -/
theorem marked_session_leaks :
    ¬ Isolated Runtime.sample sampleLexicon
      (run Runtime.sample ⟨25, 900, []⟩ markedCalls) "ab" := by
  intro hisolated
  have hkeys : (getActive Runtime.sample sampleLexicon
      (run Runtime.sample ⟨25, 900, []⟩ markedCalls) (some "ab") 1).map
        (fun e => extractEffectiveSession Runtime.sample sampleLexicon e.key e.metadata) =
      [some "asession_b"] := by
    decide +kernel
  obtain ⟨e, he, hsession⟩ := List.mem_map.mp
    (hkeys ▸ List.mem_singleton_self (some "asession_b"))
  have hprivate : PrivateSession "asession_b" := by
    unfold PrivateSession
    decide
  have hsame : sessionName "asession_b" = sessionName "ab" :=
    hisolated 1 e he "asession_b" hsession hprivate
  exact absurd hsame (by decide)

end HotBuffer

end AtlasMemory
