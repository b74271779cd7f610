import AtlasMemory.Cognitive.AcceptedWrites
import AtlasMemory.Foundations.PyText
import AtlasMemory.Server.SyncTurn

/-!
# The keys of the turns

Over every sequence of requests, two recorded lines are stored under one key exactly when they have one
subject, or a subject too long for a key meets another one through its digest (`SameKey`).  The rest of
a line and its session play no part, so a line is stored over every earlier one that starts with the
same four words.
-/

namespace AtlasMemory

namespace SyncTurn

open MemoryController

/-! ## Shortened subjects -/

def mark (rt : Runtime) (s : List Char) : List Char :=
  (rt.hexdigest (String.ofList ("turn:".toList ++ s))).toList.take 16

def shortened (rt : Runtime) (s : List Char) : List Char :=
  if 115 < s.length then s.take 59 ++ '_' :: mark rt s else s

lemma keyOf_eq (rt : Runtime) (s : List Char) :
    keyOf rt s = String.ofList ("turn:".toList ++ shortened rt s) := by
  have hlength : (String.ofList ("turn:".toList ++ s)).length = 5 + s.length := by
    rw [String.length_ofList, List.length_append]
    rfl
  unfold keyOf shortened
  dsimp only
  rw [hlength]
  by_cases hlong : 115 < s.length
  · have htake : ("turn:".toList ++ s).take 64 = "turn:".toList ++ s.take 59 :=
      rfl
    rw [if_pos (by omega), if_pos hlong, String.toList_ofList, htake, List.append_assoc]
    rfl
  · rw [if_neg (by omega), if_neg hlong]

/-- A subject is too long for a key, and what is kept of it is what is kept of the other one. -/
def Clash (rt : Runtime) (s s' : List Char) : Prop :=
  115 < s.length ∧
    if 115 < s'.length then s.take 59 = s'.take 59 ∧ mark rt s = mark rt s'
    else s' = s.take 59 ++ '_' :: mark rt s

def SameKey (rt : Runtime) (s s' : List Char) : Prop := s = s' ∨ Clash rt s s' ∨ Clash rt s' s

lemma shortened_eq_iff {rt : Runtime} {s s' : List Char} :
    shortened rt s = shortened rt s' ↔ SameKey rt s s' := by
  unfold shortened SameKey Clash
  by_cases hs : 115 < s.length
  · by_cases hs' : 115 < s'.length
    · have hlength : (s.take 59).length = (s'.take 59).length := by
        rw [List.length_take, List.length_take]
        omega
      rw [if_pos hs, if_pos hs', if_pos hs', if_pos hs]
      constructor
      · intro h
        obtain ⟨htake, hmark⟩ := List.append_inj h hlength
        exact .inr (.inl ⟨hs, htake, (List.cons.inj hmark).2⟩)
      · rintro (rfl | ⟨-, htake, hmark⟩ | ⟨-, htake, hmark⟩)
        · rfl
        · rw [htake, hmark]
        · rw [htake, hmark]
    · rw [if_pos hs, if_neg hs', if_neg hs']
      constructor
      · exact fun h => .inr (.inl ⟨hs, h.symm⟩)
      · rintro (rfl | ⟨-, h⟩ | ⟨h, -⟩)
        · exact absurd hs hs'
        · exact h.symm
        · exact absurd h hs'
  · by_cases hs' : 115 < s'.length
    · rw [if_neg hs, if_pos hs', if_neg hs]
      constructor
      · exact fun h => .inr (.inr ⟨hs', h⟩)
      · rintro (rfl | ⟨h, -⟩ | ⟨-, h⟩)
        · exact absurd hs' hs
        · exact absurd h hs
        · exact h
    · rw [if_neg hs, if_neg hs']
      constructor
      · exact .inl
      · rintro (rfl | ⟨h, -⟩ | ⟨h, -⟩)
        · rfl
        · exact absurd h hs
        · exact absurd h hs'

lemma keyOf_eq_iff {rt : Runtime} {s s' : List Char} :
    keyOf rt s = keyOf rt s' ↔ SameKey rt s s' := by
  rw [keyOf_eq, keyOf_eq, String.ofList_inj, List.append_cancel_left_eq, shortened_eq_iff]

/-! ## Keys without space -/

lemma isKeyChar_fold (c : Char) : isKeyChar (fold c) = true := by
  unfold fold
  split_ifs with h
  · exact h
  · decide

lemma isPySpace_of_isKeyChar {c : Char} (h : isKeyChar c = true) : PyText.isPySpace c = false := by
  have hcases : (97 ≤ c.toNat ∧ c.toNat ≤ 122) ∨ (65 ≤ c.toNat ∧ c.toNat ≤ 90) ∨
      (48 ≤ c.toNat ∧ c.toNat ≤ 57) ∨ c.toNat = 95 ∨ c.toNat = 58 := by
    unfold isKeyChar at h
    simp only [Bool.or_eq_true, Bool.and_eq_true, decide_eq_true_eq] at h
    rcases h with (((h | h) | h) | rfl) | rfl
    · exact .inl h
    · exact .inr (.inl h)
    · exact .inr (.inr (.inl h))
    · exact .inr (.inr (.inr (.inl rfl)))
    · exact .inr (.inr (.inr (.inr rfl)))
  unfold PyText.isPySpace
  simp only [Bool.or_eq_false_iff, Bool.and_eq_false_iff, decide_eq_false_iff_not]
  omega

lemma mem_of_mem_stripList {α : Type} {p : α → Bool} {l : List α} {a : α}
    (h : a ∈ PyText.stripList p l) : a ∈ l := by
  have hreverse := (List.dropWhile_suffix p).subset (List.mem_reverse.mp h)
  exact (List.dropWhile_suffix p).subset (List.mem_reverse.mp hreverse)

lemma isKeyChar_of_mem_subject {text : String} {c : Char} (h : c ∈ subject text) :
    isKeyChar c = true := by
  unfold subject at h
  split_ifs at h
  · have hall : "turn_fact".toList.all isKeyChar = true := by decide
    exact List.all_eq_true.mp hall c h
  · obtain ⟨d, -, rfl⟩ := List.mem_map.mp (mem_of_mem_stripList h)
    exact isKeyChar_fold d

/-- No character of a digest is white space. -/
def PlainDigests (rt : Runtime) : Prop :=
  ∀ s, ∀ c ∈ (rt.hexdigest s).toList, PyText.isPySpace c = false

lemma strip_keyOf {rt : Runtime} (hdigest : PlainDigests rt) (text : String) :
    PyString.strip (keyOf rt (subject text)) = keyOf rt (subject text) := by
  have hsubject : ∀ c ∈ subject text, PyText.isPySpace c = false := fun c hc =>
    isPySpace_of_isKeyChar (isKeyChar_of_mem_subject hc)
  have hshort : ∀ c ∈ shortened rt (subject text), PyText.isPySpace c = false := by
    intro c hc
    unfold shortened at hc
    split_ifs at hc
    · rcases List.mem_append.mp hc with hc | hc
      · exact hsubject c (List.mem_of_mem_take hc)
      · rcases List.mem_cons.mp hc with rfl | hc
        · decide
        · exact hdigest _ c (List.mem_of_mem_take hc)
    · exact hsubject c hc
  have hall : ∀ c ∈ "turn:".toList ++ shortened rt (subject text), PyText.isPySpace c = false := by
    intro c hc
    rcases List.mem_append.mp hc with hc | hc
    · have hprefix : "turn:".toList.all isKeyChar = true := by decide
      exact isPySpace_of_isKeyChar (List.all_eq_true.mp hprefix c hc)
    · exact hshort c hc
  have hstrip := PyText.stripList_append_of_not PyText.isPySpace hall (by simp) []
  rw [List.append_nil] at hstrip
  rw [keyOf_eq, PyString.strip, PyString.stripWith, String.toList_ofList, hstrip]
  simp

/-! ## Recorded lines -/

variable {ρ : Type} {env : TurnEnv ρ} (clock : ℕ → WriteTimes)

/-- The record of a line is stored under the key of its subject. -/
def Keyed (env : TurnEnv ρ) (r : Recorded) : Prop :=
  r.response.key = keyOf env.path.rt (subject r.text)

/-- A step records further lines, all of them under the keys of their subjects. -/
def Extends (env : TurnEnv ρ) (st st' : TurnState ρ) : Prop :=
  ∃ new, st'.recorded = st.recorded ++ new ∧ ∀ r ∈ new, Keyed env r

lemma Extends.refl (st : TurnState ρ) : Extends env st st :=
  ⟨[], (List.append_nil _).symm, fun _ hr => absurd hr List.not_mem_nil⟩

lemma Extends.trans {st st' st'' : TurnState ρ} (h : Extends env st st')
    (h' : Extends env st' st'') : Extends env st st'' := by
  obtain ⟨new, hnew, hkeyed⟩ := h
  obtain ⟨new', hnew', hkeyed'⟩ := h'
  refine ⟨new ++ new', by rw [hnew', hnew, List.append_assoc], fun r hr => ?_⟩
  exact (List.mem_append.mp hr).elim (hkeyed r) (hkeyed' r)

lemma key_of_write (hstr : ∀ s, env.path.rt.pyStr (.str s) = s)
    (hdigest : PlainDigests env.path.rt) {s : Stores ρ} {session : Json} {line : TurnLine}
    {times : WriteTimes} {response : WriteResponse}
    (h : (WritePath.write env.path s (turnWrite env session line) times).2 = .ok response) :
    response.key = keyOf env.path.rt (subject line.text) := by
  obtain ⟨input, hinput, hkey, -⟩ := WritePath.reports_of_write h
  have hplain : WritePath.PlainWrite (turnWrite env session line)
      (keyOf env.path.rt (subject line.text)) := ⟨rfl, rfl, rfl⟩
  rw [hkey, hplain.normalized (hstr _) hinput]
  exact strip_keyOf hdigest line.text

section Steps

variable (hstr : ∀ s, env.path.rt.pyStr (.str s) = s) (hdigest : PlainDigests env.path.rt)

include hstr hdigest

lemma extends_recordTurnFact (session : Json) (st : TurnState ρ) (line : TurnLine) :
    Extends env st (recordTurnFact env clock session st line).1 := by
  unfold recordTurnFact
  split_ifs
  · split
    · rename_i stores response hwrite
      refine ⟨[⟨session, line.text, response⟩], rfl, fun r hr => ?_⟩
      obtain rfl := List.mem_singleton.mp hr
      exact key_of_write hstr hdigest (congrArg Prod.snd hwrite)
    · exact Extends.refl st
  · exact Extends.refl st

lemma extends_recordLines (session : Json) (lines : List TurnLine) (st : TurnState ρ) :
    Extends env st (recordLines env clock session st lines).1 := by
  induction lines generalizing st with
  | nil => exact Extends.refl st
  | cons line lines ih =>
      have hstep := extends_recordTurnFact clock hstr hdigest session st line
      unfold recordLines
      split
      · rename_i st' hrecord
        rw [hrecord] at hstep
        exact hstep.trans (ih st')
      · rename_i st' err hrecord
        rw [hrecord] at hstep
        exact hstep

lemma extends_recordSegment (session content : Json) (source : String) (confidence : ℚ)
    (st : TurnState ρ) :
    Extends env st (recordSegment env clock session content source confidence st).1 := by
  unfold recordSegment
  split
  · exact Extends.refl st
  · exact extends_recordLines clock hstr hdigest session _ st

lemma extends_handleSyncTurn (st : TurnState ρ) (params : PyDict String Json) :
    Extends env st (handleSyncTurn env clock st params).1 := by
  unfold handleSyncTurn
  dsimp only
  split
  · exact Extends.refl st
  · rename_i user assistant hcontents
    have huser := extends_recordSegment clock hstr hdigest
      (params.getD "session_id" (.str HotBuffer.defaultSession)) user "user_explicit" (90 / 100) st
    split
    · rename_i st' err hsegment
      rw [hsegment] at huser
      exact huser
    · rename_i st' hsegment
      rw [hsegment] at huser
      have hassistant := extends_recordSegment clock hstr hdigest
        (params.getD "session_id" (.str HotBuffer.defaultSession)) assistant "agent_inference"
        (60 / 100) st'
      split
      · rename_i st'' err hsegment'
        rw [hsegment'] at hassistant
        exact huser.trans hassistant
      · rename_i st'' hsegment'
        rw [hsegment'] at hassistant
        have hboth := huser.trans hassistant
        split_ifs
        · split
          · exact hboth
          · rename_i line hline
            have hline := extends_recordTurnFact clock hstr hdigest
              (params.getD "session_id" (.str HotBuffer.defaultSession)) st'' line
            split
            · rename_i st''' hrecord
              rw [hrecord] at hline
              exact hboth.trans hline
            · rename_i st''' err hrecord
              rw [hrecord] at hline
              exact hboth.trans hline
        · exact hboth

lemma extends_runTurns (requests : List (PyDict String Json)) (st : TurnState ρ) :
    Extends env st (runTurns env clock st requests) := by
  induction requests generalizing st with
  | nil => exact Extends.refl st
  | cons params requests ih =>
      exact (extends_handleSyncTurn clock hstr hdigest st params).trans (ih _)

end Steps

/-- **One key for one subject.**  Over every sequence of requests, two recorded lines are stored under
one key if and only if they have one subject, or a long subject meets another one through its digest,
whatever the rest of the lines and their sessions are. -/
theorem stored_together_iff (hstr : ∀ s, env.path.rt.pyStr (.str s) = s)
    (hdigest : PlainDigests env.path.rt) (stores : Stores ρ) (requests : List (PyDict String Json)) :
    ∀ r ∈ (runTurns env clock ⟨stores, []⟩ requests).recorded,
      ∀ r' ∈ (runTurns env clock ⟨stores, []⟩ requests).recorded,
        r.response.key = r'.response.key ↔
          SameKey env.path.rt (subject r.text) (subject r'.text) := by
  obtain ⟨new, hnew, hkeyed⟩ := extends_runTurns clock hstr hdigest requests ⟨stores, []⟩
  intro r hr r' hr'
  rw [hnew] at hr hr'
  rw [hkeyed r hr, hkeyed r' hr', keyOf_eq_iff]

def lineRequest (line session : String) : PyDict String Json :=
  PyDict.ofEntries [("user_content", .str line), ("session_id", .str session)]

/-- The sample write path, with digests without space. -/
def sampleTurnEnv : TurnEnv Unit where
  path := { sampleWriteEnv with rt :=
    { Runtime.sample with
      hexdigest := fun _ => "0"
      hexdigest_ne_empty := fun _ => by decide } }

lemma plainDigests_sample : PlainDigests sampleTurnEnv.path.rt := by
  intro s c hc
  have hzero : "0".toList.all isKeyChar = true := by decide
  exact isPySpace_of_isKeyChar (List.all_eq_true.mp hzero c hc)

def sampleClock (n : ℕ) : WriteTimes := timesAt n

/-- Two lines about different things, in two sessions. -/
def unrelatedLines : List (PyDict String Json) :=
  [lineRequest "we have to go home" "a", lineRequest "we have to go shopping" "b"]

/-- The lines are stored together, since they have one subject. -/
theorem stored_together_iff_unrelated :
    ∃ r ∈ (runTurns sampleTurnEnv sampleClock ⟨emptyStores, []⟩ unrelatedLines).recorded,
      ∃ r' ∈ (runTurns sampleTurnEnv sampleClock ⟨emptyStores, []⟩ unrelatedLines).recorded,
        r.text = "we have to go home" ∧ r'.text = "we have to go shopping" ∧
          (r.response.key = r'.response.key ↔
            SameKey sampleTurnEnv.path.rt (subject r.text) (subject r'.text)) := by
  have htexts : (runTurns sampleTurnEnv sampleClock ⟨emptyStores, []⟩ unrelatedLines).recorded.map
      (fun r => r.text) = ["we have to go home", "we have to go shopping"] := by decide +kernel
  have htext : ∀ t ∈ ["we have to go home", "we have to go shopping"],
      ∃ r ∈ (runTurns sampleTurnEnv sampleClock ⟨emptyStores, []⟩ unrelatedLines).recorded,
        r.text = t := fun t ht => List.mem_map.mp (htexts ▸ ht)
  obtain ⟨r, hr, hhome⟩ := htext _ (List.mem_cons_self ..)
  obtain ⟨r', hr', hshopping⟩ := htext _ (List.mem_cons_of_mem _ (List.mem_cons_self ..))
  exact ⟨r, hr, r', hr', hhome, hshopping, stored_together_iff sampleClock (fun _ => rfl)
    plainDigests_sample emptyStores unrelatedLines r hr r' hr'⟩

/-- The lines of a run, each with its key and whether it was persisted, and the value of a key. -/
def summary (st : TurnState ρ) (key : String) : List (String × String × Bool) × Option String :=
  (st.recorded.map fun r => (r.text, r.response.key, r.response.persisted),
    (st.stores.kv.db.stateVariables.get? key).map (·.value))

/-- The second line is stored over the first. -/
theorem unrelated_line_overwritten :
    summary (runTurns sampleTurnEnv sampleClock ⟨emptyStores, []⟩ unrelatedLines)
        "turn:we_have_to_go" =
      ([("we have to go home", "turn:we_have_to_go", true),
        ("we have to go shopping", "turn:we_have_to_go", true)],
        some "\"we have to go shopping\"") := by
  decide +kernel

end SyncTurn

end AtlasMemory
