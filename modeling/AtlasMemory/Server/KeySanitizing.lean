import AtlasMemory.Foundations.LeastText
import AtlasMemory.Server.KeyRoundTrip

/-!
# What the checks on a key say about the key that is stored

`_validate_and_sanitize_kv_params` on texts with surrogates, and on any value as an argument: the
function looks at an argument only through `is None`, `bool(v)` and `str(v)`.  The checks are made on
the key as it is given, and what is returned is its normal form.  The lengths still hold of it, since
the normalisation makes nothing longer; the rest need not, since an escape may stand for a character
that the checks exclude, and the halves of surrogates that are dropped may keep such characters
apart.
-/

namespace AtlasMemory

open PyText Textnorm

namespace MemoryController

/-- A value as the function sees it: `v is None`, `bool(v)` and `str(v)`. -/
structure Argument where
  isNone : Bool
  truthy : Bool
  text : PyText

/-- `s in t`. -/
def occursIn (s : String) (t : PyText) : Bool := t.tails.any (ofString s).isPrefixOf

/-- The text can be encoded: it has no surrogate. -/
def isEncodable (t : PyText) : Bool := t.all fun
  | .scalar _ => true
  | .high _ | .low _ => false

/-- `_validate_and_sanitize_kv_params`; the text of the encoding error is given. -/
def sanitizeKvParams (encodeError : PyText → String) (key val session : Argument) :
    Except PyError (PyText × PyText × PyText) :=
  let kStr := strip key.text
  let vStr := if val.isNone then [] else val.text
  let kClean := normalizeStoredText kStr
  let vClean := normalizeStoredText vStr
  let sClean := strip (if session.truthy then session.text else ofString HotBuffer.defaultSession)
  if !key.truthy || decide (kStr = []) then
    .error ⟨.valueError, "Key or subject is required and cannot be empty"⟩
  else if decide (.scalar (Char.ofNat 0) ∈ kStr) then
    .error ⟨.valueError, "Key contains forbidden null bytes"⟩
  else if occursIn "../" kStr || occursIn "..\\" kStr then
    .error ⟨.valueError, "Key contains forbidden path traversal patterns"⟩
  else if maxKeyLength < kStr.length then
    .error ⟨.valueError,
      s!"Key length ({kStr.length}) exceeds maximum allowed ({maxKeyLength})"⟩
  else if maxValueLength < vStr.length then
    .error ⟨.valueError,
      s!"Value length ({vStr.length}) exceeds maximum allowed ({maxValueLength})"⟩
  else if !isEncodable kClean then
    .error ⟨.valueError, "Unencodable unicode surrogate in parameters: " ++ encodeError kClean⟩
  else if !isEncodable vClean then
    .error ⟨.valueError, "Unencodable unicode surrogate in parameters: " ++ encodeError vClean⟩
  else if maxSessionIdLength < sClean.length then
    .error ⟨.valueError, s!"Session ID length ({sClean.length}) exceeds maximum allowed " ++
      s!"({maxSessionIdLength})"⟩
  else if !isEncodable sClean then
    .error ⟨.valueError, "Unencodable unicode surrogate in session_id: " ++ encodeError sClean⟩
  else .ok (kClean, vClean, sClean)

/-- The text is not blank, and has no path traversal in it. -/
structure Clean (t : PyText) : Prop where
  notBlank : strip t ≠ []
  noParent : occursIn "../" t = false
  noParent' : occursIn "..\\" t = false

/-- What the checks are to say about the key and the value that are returned. -/
structure Sanitized (key val : PyText) : Prop extends Clean key where
  noNull : PyChar.scalar (Char.ofNat 0) ∉ key
  keyLength : key.length ≤ maxKeyLength
  valLength : val.length ≤ maxValueLength

variable {encodeError : PyText → String} {key val session : Argument} {k v s : PyText}

lemma isEncodable_iff {t : PyText} : isEncodable t = true ↔ SurrogateFree t := by
  unfold isEncodable SurrogateFree
  rw [List.all_eq_true]
  refine forall₂_congr fun u _ => ?_
  cases u with
  | scalar c => exact iff_of_true rfl ⟨c, rfl⟩
  | high n => exact iff_of_false Bool.false_ne_true nofun
  | low n => exact iff_of_false Bool.false_ne_true nofun

lemma null_mem_of_repair {t : PyText} (h : PyChar.scalar (Char.ofNat 0) ∈ repairSurrogates t) :
    PyChar.scalar (Char.ofNat 0) ∈ t := by
  fun_induction repairSurrogates t with
  | case1 hi lo cs ih =>
    rcases List.mem_cons.mp h with h | h
    · have hnat := congrArg Char.toNat (PyChar.scalar.inj h)
      rw [toNat_join] at hnat
      have hzero : (Char.ofNat 0).toNat = 0 := rfl
      omega
    · exact List.mem_cons_of_mem _ (List.mem_cons_of_mem _ (ih h))
  | case2 c cs ih =>
    rcases List.mem_cons.mp h with h | h
    · rw [← h]
      exact List.mem_cons_self
    · exact List.mem_cons_of_mem _ (ih h)
  | case3 u cs _ _ ih => exact List.mem_cons_of_mem _ (ih h)
  | case4 => exact h

/-- The checks that an accepted key and value have passed. -/
structure Checked (key val : Argument) (k v : PyText) : Prop where
  key_eq : k = normalizeStoredText (strip key.text)
  noNull : PyChar.scalar (Char.ofNat 0) ∉ strip key.text
  keyLength : k.length ≤ maxKeyLength
  valLength : v.length ≤ maxValueLength
  encodable : SurrogateFree k

lemma of_guard_eq_ok {α : Type} {c : Prop} [Decidable c] {e : PyError} {x : Except PyError α}
    {r : α} (h : (if c then .error e else x) = .ok r) : ¬c ∧ x = .ok r := by
  by_cases hc : c
  · rw [if_pos hc] at h
    cases h
  · rw [if_neg hc] at h
    exact ⟨hc, h⟩

lemma checked_of_sanitizeKvParams
    (h : sanitizeKvParams encodeError key val session = .ok (k, v, s)) : Checked key val k v := by
  unfold sanitizeKvParams at h
  dsimp only at h
  obtain ⟨-, h⟩ := of_guard_eq_ok h
  obtain ⟨hnull, h⟩ := of_guard_eq_ok h
  obtain ⟨-, h⟩ := of_guard_eq_ok h
  obtain ⟨hkey, h⟩ := of_guard_eq_ok h
  obtain ⟨hval, h⟩ := of_guard_eq_ok h
  obtain ⟨hencodable, h⟩ := of_guard_eq_ok h
  obtain ⟨-, h⟩ := of_guard_eq_ok h
  obtain ⟨-, h⟩ := of_guard_eq_ok h
  obtain ⟨-, h⟩ := of_guard_eq_ok h
  obtain ⟨hk, hrest⟩ := Prod.mk.inj (Except.ok.inj h)
  obtain ⟨hv, -⟩ := Prod.mk.inj hrest
  refine ⟨hk.symm, fun hmem => hnull (decide_eq_true hmem), ?_, ?_, ?_⟩
  · rw [← hk]
    exact (length_normalize_le _).trans (Nat.not_lt.mp hkey)
  · rw [← hv]
    exact (length_normalize_le _).trans (Nat.not_lt.mp hval)
  · rw [← hk, ← isEncodable_iff]
    simpa using hencodable

/-- A bare key that is accepted only has its surrogates repaired. -/
lemma Checked.eq_repair (h : Checked key val k v) (hbare : Bare (strip key.text)) :
    k = repairSurrogates (strip key.text) := by
  have hplain : hasLiteralEscape (strip key.text) = false →
      k = repairSurrogates (strip key.text) := fun hplain =>
    h.key_eq.trans (normalize_of_plain hplain)
  rcases hbare with hplain' | hraises
  · exact hplain hplain'
  · cases hescape : hasLiteralEscape (strip key.text) with
    | false => exact hplain hescape
    | true =>
      have hself := h.key_eq.trans (normalize_of_raises hescape hraises)
      rw [← hself]
      exact (repair_of_surrogateFree h.encodable).symm

/-- **What the checks say about what is stored**: the lengths hold of it always.  Of a key in which
no escape is undone all of it holds exactly if the key without the lone halves of surrogates is not
blank and has no path traversal. -/
theorem sanitized_iff_clean
    (h : sanitizeKvParams encodeError key val session = .ok (k, v, s)) :
    k.length ≤ maxKeyLength ∧ v.length ≤ maxValueLength ∧
    (Bare (strip key.text) →
      (Sanitized k v ↔ Clean (repairSurrogates (strip key.text)))) := by
  have hchecked := checked_of_sanitizeKvParams h
  refine ⟨hchecked.keyLength, hchecked.valLength, fun hbare => ?_⟩
  have hk := hchecked.eq_repair hbare
  constructor
  · intro hsanitized
    rw [← hk]
    exact hsanitized.toClean
  · intro hclean
    refine ⟨hk ▸ hclean, fun hnull => hchecked.noNull ?_, hchecked.keyLength, hchecked.valLength⟩
    rw [hk] at hnull
    exact null_mem_of_repair hnull

/-! ## Texts without surrogates -/

/-- A parameter of a request, as an argument. -/
def Argument.ofParam (rt : Runtime) (v : Option Json) : Argument where
  isNone :=
    match v with
    | none | some .null => true
    | _ => false
  truthy := isTruthy rt v
  text := ofString (textOr rt "None" v)

lemma strip_ofString (t : String) : strip (ofString t) = ofString (PyString.strip t) := by
  unfold strip ofString ofChars PyString.strip PyString.stripWith stripList
  simp only [List.dropWhile_map, ← List.map_reverse, Function.comp_def, String.toList_ofList]

lemma occursIn_ofString (p t : String) : occursIn p (ofString t) = PyString.hasInfix p t := by
  have hinj : Function.Injective PyChar.scalar := fun _ _ h => PyChar.scalar.inj h
  have htails : (ofString t).tails = t.toList.tails.map ofChars := by
    show (t.toList.map PyChar.scalar).tails = _
    rw [List.map_tails]
    rfl
  unfold occursIn PyString.hasInfix
  rw [htails, List.any_map]
  congr 1
  funext cs
  show (ofString p).isPrefixOf (cs.map PyChar.scalar) = p.toList.isPrefixOf cs
  rw [Bool.eq_iff_iff, List.isPrefixOf_iff_prefix, List.isPrefixOf_iff_prefix]
  exact List.prefix_map_iff_of_injective hinj

lemma ofString_toText {t : PyText} (h : SurrogateFree t) : ofString (toText t) = t := by
  unfold ofString toText ofChars
  rw [String.toList_ofList, List.map_map]
  refine (List.map_congr_left fun u hu => ?_).trans (List.map_id t)
  obtain ⟨c, rfl⟩ := h u hu
  rfl

lemma surrogateFree_normalize {t : PyText} (h : SurrogateFree t) :
    SurrogateFree (normalizeStoredText t) := by
  unfold normalizeStoredText
  dsimp only
  split
  · exact surrogateFree_repair _
  · exact h

lemma normalize_ofString (t : String) :
    normalizeStoredText (ofString t) = ofString (normalizeText t) :=
  (ofString_toText (surrogateFree_normalize (surrogateFree_ofString t))).symm

lemma isEncodable_ofString (t : String) : isEncodable (ofString t) = true :=
  isEncodable_iff.mpr (surrogateFree_ofString t)

lemma length_ofString (t : String) : (ofString t).length = t.length := by
  rw [ofString, ofChars, List.length_map, String.length_toList]

lemma ofString_eq_nil_iff {t : String} : ofString t = [] ↔ t = "" := by
  rw [ofString, ofChars, List.map_eq_nil_iff, String.toList_eq_nil_iff]

lemma scalar_mem_ofString {c : Char} {t : String} : PyChar.scalar c ∈ ofString t ↔ c ∈ t.toList := by
  unfold ofString ofChars
  constructor
  · intro h
    obtain ⟨d, hd, heq⟩ := List.mem_map.mp h
    rwa [← PyChar.scalar.inj heq]
  · exact List.mem_map_of_mem

lemma guard_congr {α β : Type} {c d : Prop} [Decidable c] [Decidable d] {e : PyError} {f : β → α}
    {x : Except PyError α} {y : Except PyError β} (hcd : c ↔ d) (hxy : x = y.map f) :
    (if c then .error e else x) = Except.map f (if d then .error e else y) := by
  by_cases hc : c
  · rw [if_pos hc, if_pos (hcd.mp hc)]
    rfl
  · rw [if_neg hc, if_neg fun hd => hc (hcd.mpr hd)]
    exact hxy

/-- For parameters without surrogates the two models of the function agree. -/
theorem sanitizeKvParams_ofParam (encodeError : PyText → String) (rt : Runtime)
    (key val session : Option Json) :
    sanitizeKvParams encodeError (.ofParam rt key) (.ofParam rt val) (.ofParam rt session) =
      (validateAndSanitize rt key val session).map
        fun r => (ofString r.1, ofString r.2.1, ofString r.2.2) := by
  have hval : (if (Argument.ofParam rt val).isNone then [] else (Argument.ofParam rt val).text) =
      ofString (valueText rt val) := by
    cases val with
    | none => rfl
    | some w => cases w <;> rfl
  have hsession : strip (if (Argument.ofParam rt session).truthy then
      (Argument.ofParam rt session).text else ofString HotBuffer.defaultSession) =
      ofString (PyString.strip
        (if isTruthy rt session then textOr rt "None" session else HotBuffer.defaultSession)) := by
    rw [← strip_ofString]
    exact congrArg strip (apply_ite ofString _ _ _).symm
  have hkey : strip (Argument.ofParam rt key).text =
      ofString (PyString.strip (textOr rt "None" key)) := strip_ofString _
  unfold sanitizeKvParams validateAndSanitize
  dsimp only
  rw [hval, hsession, hkey]
  generalize PyString.strip (textOr rt "None" key) = k
  generalize valueText rt val = v
  generalize PyString.strip _ = s
  rw [normalize_ofString, normalize_ofString, isEncodable_ofString, isEncodable_ofString,
    isEncodable_ofString, length_ofString, length_ofString, length_ofString, occursIn_ofString,
    occursIn_ofString]
  refine guard_congr ?_ (guard_congr ?_ (guard_congr Iff.rfl (guard_congr Iff.rfl
    (guard_congr Iff.rfl ?_))))
  · simp only [Bool.or_eq_true, decide_eq_true_eq, ofString_eq_nil_iff]
    rfl
  · unfold PyString.hasChar
    rw [decide_eq_true_eq, decide_eq_true_eq, scalar_mem_ofString]
  · rw [if_neg (by decide), if_neg (by decide)]
    refine guard_congr Iff.rfl ?_
    rw [if_neg (by decide)]
    rfl

def Argument.ofText (t : PyText) : Argument := ⟨false, decide (t ≠ []), t⟩

theorem sanitized_iff_clean_note :
    Sanitized (ofString "note:alpha") (ofString "tea") := by
  have hok : sanitizeKvParams (fun _ => "") (.ofText (ofString " note:alpha"))
      (.ofText (ofString "tea")) (.ofText []) =
        .ok (ofString "note:alpha", ofString "tea", ofString "hermes_default") := by
    decide
  refine ((sanitized_iff_clean hok).2.2 (Or.inl (by decide))).mpr ⟨?_, ?_, ?_⟩ <;> decide

/-- The escape of a full stop hides a path traversal from the checks. -/
theorem escaped_stop_traverses :
    ∃ k v s, sanitizeKvParams (fun _ => "") (.ofText (ofString ".\\u002e/note"))
      (.ofText (ofString "tea")) (.ofText []) = .ok (k, v, s) ∧ ¬Sanitized k v := by
  refine ⟨ofString "../note", ofString "tea", ofString "hermes_default", ?_, fun h => ?_⟩
  · decide
  · exact absurd h.noParent (by decide)

end MemoryController

end AtlasMemory
