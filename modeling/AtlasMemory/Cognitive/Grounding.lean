import AtlasMemory.Cognitive.Lexicon
import AtlasMemory.Foundations.EditDistance
import AtlasMemory.Foundations.PyDict
import AtlasMemory.Runtime

/-!
# Lexical grounding

The model of `is_lexically_grounded_entity`: keys without a namespace are refused when they are
conversational particles, close misspellings of one, very short, or hold a bare yes or no.

A close misspelling is a word at edit distance at most one.  The code decides this by one scan
instead of the dynamic program, and `levenshteinLe1_iff` says that the scan decides the distance.
-/

namespace AtlasMemory

namespace Grounding

/-- `CONVERSATIONAL_NOISE_TOKENS`. -/
def conversationalNoiseTokens : List String :=
  ["cztli", "czyli", "albo", "poniewaz", "ponieważ", "jakby", "oraz", "lecz", "wiec", "więc", "zeby",
    "żeby", "jezeli", "jeżeli", "jesli", "jeśli", "gdy", "wtedy", "dlaczego", "kiedy", "gdzie",
    "skad", "skąd", "dokad", "dokąd", "jak", "co", "kto", "czy", "oto", "otoz", "otóż", "takze",
    "także", "rowniez", "również", "chociaz", "chociaż", "choc", "choć", "jednak", "natomiast",
    "zatem", "przeciez", "przecież", "chyba", "moze", "może", "raczej", "tam", "tu", "tutaj",
    "teraz", "bądź", "badz", "ani", "zarówno", "zarowno", "aczkolwiek", "wszakże", "wszakze",
    "which", "what", "where", "when", "why", "how", "who", "whom", "whose", "that", "this", "these",
    "those", "then", "than", "thus", "also", "and", "or", "but", "so", "because", "although",
    "since", "unless", "either", "neither", "nor", "if", "whether", "well", "actually", "basically"]

/-- The loop of `_levenshtein_le_1` over a text and a longer one; the flag says whether a character
was skipped already. -/
def oneInsertion : Bool → List Char → List Char → Bool
  | _, [], _ => true
  | _, _ :: _, [] => true
  | skipped, c :: cs, e :: es =>
    if c = e then oneInsertion skipped cs es
    else if skipped then false
    else oneInsertion true (c :: cs) es

/-- `_levenshtein_le_1`. -/
def levenshteinLe1 (s1 s2 : String) : Bool :=
  let a := s1.toList
  let b := s2.toList
  if s1 = s2 then true
  else if a.length = b.length then
    decide (((a.zip b).filter fun p => decide (p.1 ≠ p.2)).length ≤ 1)
  else if b.length + 1 = a.length then oneInsertion false b a
  else if a.length + 1 = b.length then oneInsertion false a b
  else false

/-! ### What the scan decides -/

open EditDistance

/-- Once a character was skipped, the rests have to be equal. -/
lemma oneInsertion_true_iff {xs ys : List Char} (hlen : xs.length = ys.length) :
    oneInsertion true xs ys = true ↔ xs = ys := by
  induction xs generalizing ys with
  | nil =>
    have hys : ys = [] := List.length_eq_zero_iff.mp hlen.symm
    rw [hys]
    exact iff_of_true rfl rfl
  | cons x xs ih =>
    obtain ⟨y, ys, rfl⟩ := List.exists_cons_of_length_eq_add_one hlen.symm
    have hlen' : xs.length = ys.length := Nat.succ.inj hlen
    by_cases h : x = y
    · subst h
      rw [oneInsertion, if_pos rfl, ih hlen', List.cons_inj_right]
    · rw [oneInsertion, if_neg h, if_pos rfl]
      constructor
      · intro hfalse
        cases hfalse
      · intro heq
        exact absurd (List.cons.inj heq).1 h

/-- The scan of a text against one that is longer by one character. -/
lemma oneInsertion_false_iff {xs ys : List Char} (hlen : xs.length + 1 = ys.length) :
    oneInsertion false xs ys = true ↔ editDistance xs ys ≤ 1 := by
  induction xs generalizing ys with
  | nil =>
    have hle : editDistance [] ys ≤ 1 := by
      rw [editDistance_nil_left, ← hlen]
      exact Nat.le_refl 1
    rw [oneInsertion]
    exact iff_of_true rfl hle
  | cons x xs ih =>
    obtain ⟨y, ys, rfl⟩ := List.exists_cons_of_length_eq_add_one hlen.symm
    have hlen' : xs.length + 1 = ys.length := Nat.succ.inj hlen
    by_cases h : x = y
    · subst h
      rw [oneInsertion, if_pos rfl, editDistance_cons_self]
      exact ih hlen'
    · have hskip : oneInsertion true (x :: xs) ys = true ↔ x :: xs = ys :=
        oneInsertion_true_iff hlen'
      rw [oneInsertion, if_neg h, if_neg Bool.false_ne_true, hskip,
        editDistance_cons_le_one_iff h]
      constructor
      · intro heq
        exact Or.inr (Or.inl heq)
      · -- The other edits would leave rests of different lengths.
        rintro (heq | heq | heq)
        · rw [heq, List.length_cons] at hlen'
          omega
        · exact heq
        · rw [heq] at hlen'
          omega

/-- `_levenshtein_le_1` decides whether the Levenshtein distance is at most one. -/
theorem levenshteinLe1_iff (s1 s2 : String) :
    levenshteinLe1 s1 s2 = true ↔ editDistance s1.toList s2.toList ≤ 1 := by
  have hleft := length_le_add_editDistance s1.toList s2.toList
  have hright := length_le_add_editDistance s2.toList s1.toList
  rw [editDistance_comm s2.toList s1.toList] at hright
  rw [levenshteinLe1]
  by_cases heq : s1 = s2
  · have hle : editDistance s1.toList s2.toList ≤ 1 := by
      rw [heq, editDistance_self]
      exact Nat.zero_le 1
    rw [if_pos heq]
    exact iff_of_true rfl hle
  · rw [if_neg heq]
    by_cases hlen : s1.toList.length = s2.toList.length
    · rw [if_pos hlen, decide_eq_true_iff]
      exact mismatches_le_one_iff hlen
    · rw [if_neg hlen]
      by_cases hlong : s2.toList.length + 1 = s1.toList.length
      · rw [if_pos hlong, editDistance_comm]
        exact oneInsertion_false_iff hlong
      · rw [if_neg hlong]
        by_cases hshort : s1.toList.length + 1 = s2.toList.length
        · rw [if_pos hshort]
          exact oneInsertion_false_iff hshort
        · rw [if_neg hshort]
          constructor
          · intro hfalse
            cases hfalse
          · intro hle
            omega

/-- `is_lexically_grounded_entity`; the text is the reason. -/
def isLexicallyGroundedEntity (rt : Runtime) (lex : Lexicon) (key : String) (val : Json)
    (metadata : PyDict String Json) : Bool × String :=
  let keyStr := PyString.strip key
  let clean := lex.lower keyStr
  let longEnough := decide (4 ≤ clean.length) && !lex.isDigits clean
  let noise := (lex.listOf conversationalNoiseTokens.toFinset).find? fun noise =>
    4 ≤ noise.length && levenshteinLe1 clean noise
  let valText := if rt.truthy val then rt.pyStr val else ""
  let valClean := lex.lower (PyString.stripWith (fun c => c = '"' || c = '\'')
    (PyString.strip valText))
  let hasPredicate := rt.truthy ((metadata.get? "predicate").getD .null) ||
    rt.truthy ((metadata.get? "relation").getD .null)
  if keyStr = "" then (false, "empty_key")
  else if (PyString.hasChar ':' keyStr || PyString.hasChar '/' keyStr ||
      PyString.hasChar '.' keyStr) ∧ 1 < ((PyString.split ':' keyStr).headD "").length then
    (true, "namespaced_entity")
  else if clean ∈ conversationalNoiseTokens then
    (false, "conversational_noise_token: '" ++ clean ++ "'")
  else if longEnough ∧ noise.isSome then
    (false, "conversational_noise_typo: '" ++ clean ++ "' (similar to '" ++ noise.getD "" ++ "')")
  else if clean.length < 3 ∧ lex.isDigits clean = false then
    (false, "isolated_short_token: '" ++ clean ++ "'")
  else if valClean ∈ ["nie", "tak", "no", "yes", "true", "false", "ok"] ∧ hasPredicate = false then
    (false, "ungrounded_discourse_affirmation_or_negation: '" ++ clean ++ "'='" ++ valClean ++ "'")
  else (true, "grounded")

end Grounding

end AtlasMemory
