import AtlasMemory.Foundations.JsonParts
import AtlasMemory.Foundations.LazyMatches
import AtlasMemory.Foundations.PyText

/-!
# The facts in an answer

The model of `_parse_json_facts` of the shadow worker.  The block between two fences is taken out of
the answer, then an array and an object out of the block, each up to the next closing character;
what can be read and holds a fact is returned.  The three regular expressions are leftmost lazy
matches.
-/

namespace AtlasMemory

open PyText Json LazyMatches

namespace ShadowWorker

def fence : PyText := ofString "```"

/-- `\s`, and what `strip` removes. -/
def isBlank : PyChar → Bool
  | .scalar c => isPySpace c
  | .high _ | .low _ => false

/-- What follows `(?:json)?`. -/
def dropTag (t : PyText) : PyText := if ofString "json" <+: t then t.drop 4 else t

/-- The group of the first match of ```` ```(?:json)?\s*([\s\S]*?)\s*``` ````.  The white space at both
ends belongs to `\s*`: the first one is greedy, and the group ends as soon as it may. -/
def blockMatch (t : PyText) : Option PyText := do
  let (_, rest) ← splitInfix fence t
  let (block, _) ← splitInfix fence ((dropTag rest).dropWhile isBlank)
  return block.rdropWhile isBlank

/-- `candidate_str`. -/
def candidateStr (content : PyText) : PyText :=
  let contentClean := strip content
  match blockMatch contentClean with
  | some block => strip block
  | none => contentClean

/-- `(\[[\s\S]*?\])`. -/
def arrayMatch (t : PyText) : Option PyText := enclosed (.scalar '[') (.scalar ']') t

/-- `(\x7b[\s\S]*?\x7d)`. -/
def objMatch (t : PyText) : Option PyText := enclosed (.scalar '\x7b') (.scalar '\x7d') t

/-- A dictionary with the three names of a fact. -/
def isFact : Json → Bool
  | .obj members => ["subject", "predicate", "object"].all fun k => (PyDict.find k members).isSome
  | _ => false

def arrayFacts (candidate : PyText) : List Json :=
  match (arrayMatch candidate).bind loads with
  | some (.arr items) => items.filter isFact
  | _ => []

/-- The object that is found, if it is a fact. -/
def objectFact (candidate : PyText) : Option Json :=
  ((objMatch candidate).bind loads).filter isFact

def wholeFacts (candidate : PyText) : List Json :=
  match loads candidate with
  | some (.arr items) => items.filter isFact
  | some v => [v].filter isFact
  | none => []

def candidateFacts (candidate : PyText) : List Json :=
  match arrayFacts candidate, objectFact candidate with
  | [], some fact => [fact]
  | [], none => wholeFacts candidate
  | facts, _ => facts

/-- `_parse_json_facts`. -/
def parseJsonFacts (content : PyText) : List Json := candidateFacts (candidateStr content)

/-! ## The block between two fences -/

/-- Two fences stand in the text, one after the other. -/
def TwoFences (t : PyText) : Prop := ∃ a b c, t = a ++ (fence ++ (b ++ (fence ++ c)))

lemma dropTag_suffix (t : PyText) : dropTag t <:+ t := by
  unfold dropTag
  split_ifs
  · exact List.drop_suffix 4 t
  · exact List.suffix_rfl

lemma fences_of_blockMatch {t block : PyText} (h : blockMatch t = some block) :
    ∃ a b c, t = a ++ (fence ++ (b ++ (fence ++ c))) ∧ block <:+: b := by
  obtain ⟨r, hr, h⟩ := Option.bind_eq_some_iff.mp h
  obtain ⟨r', hr', h⟩ := Option.bind_eq_some_iff.mp h
  obtain rfl := Option.some.inj h
  obtain ⟨s, hs⟩ := (List.dropWhile_suffix isBlank).trans (dropTag_suffix r.2)
  rw [eq_of_splitInfix hr'] at hs
  refine ⟨r.1, s ++ r'.1, r'.2, ?_, (List.rdropWhile_prefix _ _).isInfix.trans
    (List.suffix_append s r'.1).isInfix⟩
  rw [List.append_assoc, hs]
  exact eq_of_splitInfix hr

lemma isBlank_of_mem_fence : ∀ u ∈ fence, isBlank u = false := by decide

lemma infix_dropTag {t : PyText} (h : fence <:+: t) : fence <:+: dropTag t := by
  unfold dropTag
  split_ifs with htag
  · obtain ⟨s, rfl⟩ := htag
    rcases @infix_of_append_cons_of_notMem _ fence (ofString "jso") s (.scalar 'n') h (by decide)
      with htext | htext
    · have hlen := htext.eq_of_length rfl
      exact absurd hlen (by decide)
    · exact htext
  · exact h

lemma exists_blockMatch {t : PyText} (h : TwoFences t) : ∃ block, blockMatch t = some block := by
  obtain ⟨a, b, c, rfl⟩ := h
  obtain ⟨r, hr⟩ := exists_splitInfix
    (⟨a, b ++ (fence ++ c), List.append_assoc _ _ _⟩ : fence <:+: a ++ (fence ++ (b ++ (fence ++ c))))
  have hsecond : fence <:+: r.2 := by
    refine List.IsInfix.trans ?_ (suffix_of_splitInfix hr).isInfix
    exact ⟨b, c, List.append_assoc _ _ _⟩
  obtain ⟨r', hr'⟩ := exists_splitInfix (infix_dropWhile (infix_dropTag hsecond)
    isBlank_of_mem_fence)
  refine ⟨r'.1.rdropWhile isBlank, ?_⟩
  rw [blockMatch, hr]
  show (splitInfix fence ((dropTag r.2).dropWhile isBlank)).bind _ = _
  rw [hr']
  rfl

lemma blockMatch_eq_none {t : PyText} (h : ¬TwoFences t) : blockMatch t = none := by
  by_contra hne
  obtain ⟨block, hblock⟩ := Option.ne_none_iff_exists'.mp hne
  obtain ⟨a, b, c, heq, -⟩ := fences_of_blockMatch hblock
  exact h ⟨a, b, c, heq⟩

end ShadowWorker

end AtlasMemory
