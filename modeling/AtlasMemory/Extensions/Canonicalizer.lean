import AtlasMemory.Cognitive.Lexicon
import AtlasMemory.Foundations.PyDict
import Mathlib.Data.List.Perm.Basic

/-!
# Entity canonicalisation

The model of `canonicalizer.py`: entities are registered under normalised names, and a name is
resolved by its normal form, first exactly, then by the first alias of at least four characters that
contains the form or is contained in it.  A name that no alias resolves becomes its normal form with
underscores.

Resolved names are stable, since an entity is registered under its own identifier.  A name that is
not resolved is stable only if the form it gets does not meet an alias in its turn, and where aliases
of different entities match in part, the entity that was registered first is taken.
-/

namespace AtlasMemory

/-- What `str.lower` and the character class `\w` do, as far as normalisation relies on it. -/
structure Casing where
  /-- `text.lower()`. -/
  lower : String → String
  /-- `\w`. -/
  isWord : Char → Bool
  /-- The characters of a lowered text are lower-case ones. -/
  lower_singleton : ∀ text, ∀ c ∈ (lower text).toList, lower (String.singleton c) = String.singleton c
  /-- A text of lower-case characters is left as it is. -/
  lower_of_singletons : ∀ text, (∀ c ∈ text.toList, lower (String.singleton c) = String.singleton c) →
    lower text = text
  /-- The letters of ASCII and the underscore. -/
  ascii : ∀ c : Char, c.isLower = true ∨ c = '_' →
    lower (String.singleton c) = String.singleton c ∧ isWord c = true

namespace Casing

variable (cs : Casing)

/-- The character is its own lower case. -/
def IsLower (c : Char) : Prop := cs.lower (String.singleton c) = String.singleton c

/-- What `_NORM_PUNCT_RE` keeps. -/
def kept (c : Char) : Bool := cs.isWord c || PyText.isPySpace c || c = '-' || c = '_'

/-- `_NORM_SPACES_RE.sub(" ", text)`; the flag says whether the character before was a space. -/
def collapseSpaces : Bool → List Char → List Char
  | _, [] => []
  | inSpaces, c :: rest =>
    if PyText.isPySpace c then
      if inSpaces then collapseSpaces true rest else ' ' :: collapseSpaces true rest
    else c :: collapseSpaces false rest

/-- `_normalize`. -/
def normalize (text : String) : String :=
  String.ofList (collapseSpaces false ((PyString.strip (cs.lower text)).toList.filter cs.kept))

/-- `norm.replace(" ", "_")`. -/
def underscored (norm : String) : String :=
  String.ofList (norm.toList.map fun c => if c = ' ' then '_' else c)

/-! ## Normal forms -/

lemma mem_collapseSpaces {inSpaces : Bool} {l : List Char} {c : Char}
    (h : c ∈ collapseSpaces inSpaces l) : c = ' ' ∨ c ∈ l ∧ PyText.isPySpace c = false := by
  induction l generalizing inSpaces with
  | nil => cases h
  | cons d rest ih =>
    have hrest : ∀ b, c ∈ collapseSpaces b rest →
        c = ' ' ∨ c ∈ d :: rest ∧ PyText.isPySpace c = false := fun b hb => by
      rcases ih hb with hspace | ⟨hmem, hnot⟩
      · exact Or.inl hspace
      · exact Or.inr ⟨List.mem_cons_of_mem d hmem, hnot⟩
    by_cases hd : PyText.isPySpace d = true
    · rw [collapseSpaces, if_pos hd] at h
      cases inSpaces with
      | true => exact hrest true h
      | false =>
        rcases List.mem_cons.mp h with rfl | hmem
        · exact Or.inl rfl
        · exact hrest true hmem
    · rw [collapseSpaces, if_neg hd] at h
      rcases List.mem_cons.mp h with rfl | hmem
      · exact Or.inr ⟨List.mem_cons_self, Bool.eq_false_iff.mpr hd⟩
      · exact hrest false hmem

lemma collapseSpaces_eq_self {l : List Char} (h : ∀ c ∈ l, PyText.isPySpace c = false)
    (inSpaces : Bool) : collapseSpaces inSpaces l = l := by
  induction l generalizing inSpaces with
  | nil => rfl
  | cons c rest ih =>
    have hc : ¬ PyText.isPySpace c = true := by
      rw [h c List.mem_cons_self]
      exact Bool.false_ne_true
    rw [collapseSpaces, if_neg hc, ih (fun d hd => h d (List.mem_cons_of_mem c hd))]

/-- The characters of which a text may consist if normalisation is to leave it as it is. -/
structure IsPlain (c : Char) : Prop where
  lower : cs.IsLower c
  kept : cs.kept c = true
  noSpace : PyText.isPySpace c = false

variable {cs}

lemma isPlain_of_ascii {c : Char} (hc : c.isLower = true ∨ c = '_')
    (hspace : PyText.isPySpace c = false) : cs.IsPlain c where
  lower := (cs.ascii c hc).1
  kept := by rw [kept, (cs.ascii c hc).2]; rfl
  noSpace := hspace

lemma normalize_eq_self {text : String} (h : ∀ c ∈ text.toList, cs.IsPlain c) :
    cs.normalize text = text := by
  have hlower : cs.lower text = text := cs.lower_of_singletons text fun c hc => (h c hc).lower
  have hstrip : (PyString.strip text).toList = text.toList := by
    show (String.ofList (PyText.stripList PyText.isPySpace text.toList)).toList = text.toList
    rw [String.toList_ofList]
    cases hl : text.toList with
    | nil => rfl
    | cons c rest =>
      have hstripped := PyText.stripList_append_of_not PyText.isPySpace
        (fun d hd => (h d (hl ▸ hd)).noSpace) (List.cons_ne_nil c rest) []
      rw [List.append_nil] at hstripped
      rw [hstripped]
      exact List.append_nil _
  have hkept : text.toList.filter cs.kept = text.toList :=
    List.filter_eq_self.mpr fun c hc => (h c hc).kept
  rw [normalize, hlower, hstrip, hkept, collapseSpaces_eq_self (fun c hc => (h c hc).noSpace),
    String.ofList_toList]

lemma underscored_eq_self {text : String} (h : ∀ c ∈ text.toList, cs.IsPlain c) :
    underscored text = text := by
  have hmap : text.toList.map (fun c => if c = ' ' then '_' else c) = text.toList := by
    conv_rhs => rw [← List.map_id text.toList]
    refine List.map_congr_left fun c hc => ?_
    have hne : c ≠ ' ' := by
      rintro rfl
      have hspace := (h _ hc).noSpace
      exact absurd hspace (by decide)
    rw [if_neg hne]
    rfl
  rw [underscored, hmap, String.ofList_toList]

/-- The form that a name gets in place of an identifier consists of plain characters. -/
lemma isPlain_of_mem_underscored {text : String} :
    ∀ c ∈ (underscored (cs.normalize text)).toList, cs.IsPlain c := by
  intro c hc
  rw [underscored, String.toList_ofList, normalize, String.toList_ofList] at hc
  obtain ⟨d, hd, rfl⟩ := List.mem_map.mp hc
  have hunderscore : cs.IsPlain '_' := isPlain_of_ascii (Or.inr rfl) (by decide)
  by_cases hspace : d = ' '
  · rw [if_pos hspace]
    exact hunderscore
  · rw [if_neg hspace]
    rcases mem_collapseSpaces hd with heq | ⟨hmem, hnot⟩
    · exact absurd heq hspace
    · obtain ⟨hstripped, hkept⟩ := List.mem_filter.mp hmem
      refine ⟨cs.lower_singleton text d ?_, hkept, hnot⟩
      rw [PyString.strip, PyString.stripWith, String.toList_ofList] at hstripped
      have hdropped := List.mem_reverse.mp hstripped
      have hreversed := (List.dropWhile_sublist _).subset hdropped
      exact (List.dropWhile_sublist _).subset (List.mem_reverse.mp hreversed)

end Casing

/-! ## The registry -/

/-- `EntityEntry`. -/
structure EntityEntry where
  canonicalId : String
  canonicalName : String
  aliases : Finset String
  entityType : String
  description : Option String

/-- The arguments of `register_entity`. -/
structure Registration where
  canonicalId : String
  canonicalName : String
  aliases : List String := []
  entityType : String := "general"
  description : Option String := none

/-- `EntityCanonicalizer`. -/
structure EntityCanonicalizer where
  entities : PyDict String EntityEntry := ∅
  aliasToId : PyDict String String := ∅

namespace EntityCanonicalizer

variable (cs : Casing)

/-- The aliases that are registered: those whose normal form is not empty. -/
def normAliases (r : Registration) : List String :=
  (r.aliases.map cs.normalize).filter fun normAlias => decide (normAlias ≠ "")

/-- `register_entity`. -/
def registerEntity (c : EntityCanonicalizer) (r : Registration) :
    EntityCanonicalizer × EntityEntry :=
  let normId := cs.normalize r.canonicalId
  let normName := cs.normalize r.canonicalName
  let found := (c.entities.get? normId).getD
    ⟨r.canonicalId, r.canonicalName, {normName}, r.entityType, r.description⟩
  let entry := { found with aliases := found.aliases ∪ (normAliases cs r).toFinset }
  let named := (c.aliasToId.set normName r.canonicalId).set normId r.canonicalId
  ({ entities := c.entities.set normId entry
     aliasToId := (normAliases cs r).foldl (fun d normAlias => d.set normAlias r.canonicalId) named },
    entry)

/-- An empty canonicalizer after registrations. -/
def registered (regs : List Registration) : EntityCanonicalizer :=
  regs.foldl (fun c r => (c.registerEntity cs r).1) {}

/-- The name matches the normal form in part. -/
def matchesPartially (norm name : String) : Bool :=
  decide (4 ≤ name.length) && (PyString.hasInfix name norm || PyString.hasInfix norm name)

/-- The identifier of the first alias that matches in part. -/
def firstPartial (index : PyDict String String) (norm : String) : Option String :=
  (index.entries.find? fun e => matchesPartially norm e.1).map Prod.snd

/-- The registered identifier that a name is resolved to. -/
def resolve (c : EntityCanonicalizer) (rawName : String) : Option String :=
  let norm := cs.normalize rawName
  if rawName = "" then none else (c.aliasToId.get? norm).orElse fun _ => firstPartial c.aliasToId norm

/-- What a name that is not resolved becomes. -/
def fallback (rawName : String) : String :=
  if rawName = "" then "unknown_entity" else Casing.underscored (cs.normalize rawName)

/-- `canonicalize`. -/
def canonicalize (c : EntityCanonicalizer) (rawName : String) : String :=
  if rawName = "" then "unknown_entity"
  else
    let norm := cs.normalize rawName
    match c.aliasToId.get? norm with
    | some id => id
    | none =>
      match firstPartial c.aliasToId norm with
      | some id => id
      | none => Casing.underscored norm

/-- The normalised names under which a registration is found. -/
def names (r : Registration) : List String :=
  cs.normalize r.canonicalName :: cs.normalize r.canonicalId :: normAliases cs r

/-- No two entities share a normalised name. -/
def NoCollision (regs : List Registration) : Prop :=
  ∀ r ∈ regs, ∀ r' ∈ regs, ∀ name ∈ names cs r, name ∈ names cs r' → r.canonicalId = r'.canonicalId

instance (regs : List Registration) : Decidable (NoCollision cs regs) :=
  inferInstanceAs (Decidable (∀ r ∈ regs, ∀ r' ∈ regs, ∀ name ∈ names cs r,
    name ∈ names cs r' → r.canonicalId = r'.canonicalId))

/-- The name is registered in its normal form. -/
def IsKnown (regs : List Registration) (rawName : String) : Prop :=
  ∃ r ∈ regs, cs.normalize rawName ∈ names cs r

/-- The names that match in part belong to one entity. -/
def PartialMatchesAgree (regs : List Registration) (rawName : String) : Prop :=
  ∀ r ∈ regs, ∀ r' ∈ regs, ∀ name ∈ names cs r, ∀ name' ∈ names cs r',
    matchesPartially (cs.normalize rawName) name = true →
      matchesPartially (cs.normalize rawName) name' = true → r.canonicalId = r'.canonicalId

/-! ### What is found -/

variable {cs} {c : EntityCanonicalizer} {regs regs' : List Registration} {r : Registration}
  {name id rawName norm : String}

lemma canonicalize_eq (c : EntityCanonicalizer) (rawName : String) :
    c.canonicalize cs rawName = (c.resolve cs rawName).getD (fallback cs rawName) := by
  by_cases h : rawName = ""
  · rw [canonicalize, resolve, fallback, if_pos h, if_pos h, if_pos h]
    rfl
  · rw [canonicalize, resolve, fallback, if_neg h, if_neg h, if_neg h]
    dsimp only
    cases c.aliasToId.get? (cs.normalize rawName) with
    | some id => rfl
    | none =>
      rw [Option.orElse_none]
      cases firstPartial c.aliasToId (cs.normalize rawName) with
      | some id => rfl
      | none => rfl

/-- A registration assigns its identifier to all its names. -/
lemma aliasToId_registerEntity (c : EntityCanonicalizer) (r : Registration) :
    (c.registerEntity cs r).1.aliasToId =
      (names cs r).foldl (fun d name => d.set name r.canonicalId) c.aliasToId := by
  rfl

lemma get?_registerEntity (c : EntityCanonicalizer) (r : Registration) (name : String) :
    (c.registerEntity cs r).1.aliasToId.get? name =
      if name ∈ names cs r then some r.canonicalId else c.aliasToId.get? name := by
  rw [aliasToId_registerEntity]
  exact PyDict.get?_foldl_set (names cs r) (fun _ => r.canonicalId) c.aliasToId name

lemma registered_concat (regs : List Registration) (r : Registration) :
    registered cs (regs ++ [r]) = ((registered cs regs).registerEntity cs r).1 := by
  rw [registered, List.foldl_append]
  rfl

/-- What is found under a name is the identifier of an entity that has it. -/
lemma exists_of_get?_registered (h : (registered cs regs).aliasToId.get? name = some id) :
    ∃ r ∈ regs, name ∈ names cs r ∧ r.canonicalId = id := by
  induction regs using List.reverseRecOn with
  | nil => cases h
  | append_singleton regs r ih =>
    rw [registered_concat, get?_registerEntity] at h
    by_cases hname : name ∈ names cs r
    · rw [if_pos hname] at h
      exact ⟨r, List.mem_append_right regs List.mem_cons_self, hname, Option.some.inj h⟩
    · rw [if_neg hname] at h
      obtain ⟨r', hr', hfound⟩ := ih h
      exact ⟨r', List.mem_append_left [r] hr', hfound⟩

lemma isSome_get?_registered (hr : r ∈ regs) (hname : name ∈ names cs r) :
    ((registered cs regs).aliasToId.get? name).isSome = true := by
  induction regs using List.reverseRecOn with
  | nil => cases hr
  | append_singleton regs last ih =>
    rw [registered_concat, get?_registerEntity]
    by_cases hlast : name ∈ names cs last
    · rw [if_pos hlast]
      rfl
    · rw [if_neg hlast]
      rcases List.mem_append.mp hr with hmem | hmem
      · exact ih hmem
      · rw [List.mem_singleton.mp hmem] at hname
        exact absurd hname hlast

/-- **The index**: without collisions a name leads to the one entity that has it. -/
lemma get?_registered_iff (h : NoCollision cs regs) :
    (registered cs regs).aliasToId.get? name = some id ↔
      ∃ r ∈ regs, name ∈ names cs r ∧ r.canonicalId = id := by
  refine ⟨exists_of_get?_registered, ?_⟩
  rintro ⟨r, hr, hname, rfl⟩
  obtain ⟨id, hid⟩ := Option.isSome_iff_exists.mp (isSome_get?_registered hr hname)
  obtain ⟨r', hr', hname', rfl⟩ := exists_of_get?_registered hid
  rw [hid, h r hr r' hr' name hname hname']

lemma mem_keys_registered_iff :
    name ∈ (registered cs regs).aliasToId.keys ↔ ∃ r ∈ regs, name ∈ names cs r := by
  rw [PyDict.mem_keys_iff]
  constructor
  · intro h
    obtain ⟨id, hid⟩ := Option.isSome_iff_exists.mp h
    obtain ⟨r, hr, hname, -⟩ := exists_of_get?_registered hid
    exact ⟨r, hr, hname⟩
  · rintro ⟨r, hr, hname⟩
    exact isSome_get?_registered hr hname

/-! ### Partial matches -/

/-- The first match is decided by the names in their order. -/
lemma firstPartial_eq (index : PyDict String String) (norm : String) :
    firstPartial index norm = (index.keys.find? (matchesPartially norm)).bind index.get? := by
  rw [firstPartial, PyDict.keys, List.find?_map, Option.bind_map]
  cases hfind : index.entries.find? (matchesPartially norm ∘ Prod.fst) with
  | none =>
    have hnone : index.entries.find? (fun e => matchesPartially norm e.1) = none := hfind
    rw [hnone]
    rfl
  | some e =>
    have hsome : index.entries.find? (fun e => matchesPartially norm e.1) = some e := hfind
    rw [hsome]
    exact (PyDict.mem_entries_iff.mp (List.mem_of_find?_eq_some hfind)).symm

lemma firstPartial_registered_eq_none_iff :
    firstPartial (registered cs regs).aliasToId norm = none ↔
      ∀ r ∈ regs, ∀ name ∈ names cs r, matchesPartially norm name = false := by
  rw [firstPartial_eq]
  constructor
  · intro h r hr name hname
    cases hfind : (registered cs regs).aliasToId.keys.find? (matchesPartially norm) with
    | none =>
      have hnot := List.find?_eq_none.mp hfind name (mem_keys_registered_iff.mpr ⟨r, hr, hname⟩)
      exact Bool.eq_false_iff.mpr hnot
    | some found =>
      rw [hfind, Option.bind_some] at h
      have hkey := List.mem_of_find?_eq_some hfind
      rw [PyDict.mem_keys_iff, h] at hkey
      cases hkey
  · intro h
    have hfind : (registered cs regs).aliasToId.keys.find? (matchesPartially norm) = none := by
      rw [List.find?_eq_none]
      intro name hname
      obtain ⟨r, hr, hmem⟩ := mem_keys_registered_iff.mp hname
      rw [h r hr name hmem]
      exact Bool.false_ne_true
    rw [hfind]
    rfl

lemma exists_of_firstPartial_registered
    (h : firstPartial (registered cs regs).aliasToId norm = some id) :
    ∃ r ∈ regs, ∃ name ∈ names cs r, matchesPartially norm name = true ∧ r.canonicalId = id := by
  rw [firstPartial_eq, Option.bind_eq_some_iff] at h
  obtain ⟨name, hfind, hid⟩ := h
  obtain ⟨r, hr, hname, heq⟩ := exists_of_get?_registered hid
  exact ⟨r, hr, name, hname, List.find?_some hfind, heq⟩

/-! ### The order of registration -/

/-- Assignments keep the keys before them in their places. -/
lemma keys_prefix_foldl_set (ks : List String) (id : String) (d : PyDict String String) :
    d.keys <+: (ks.foldl (fun d k => d.set k id) d).keys := by
  induction ks generalizing d with
  | nil => exact List.prefix_refl _
  | cons k ks ih =>
    have hset : d.keys <+: (d.set k id).keys := by
      rw [PyDict.keys, PyDict.keys, PyDict.set, PyDict.map_fst_assign]
      split_ifs
      · exact List.prefix_refl _
      · exact List.prefix_append _ _
    exact hset.trans (ih _)

/-- The names of the entity that was registered first stand first. -/
lemma keys_prefix_registered (r : Registration) (regs : List Registration) :
    (registered cs [r]).aliasToId.keys <+: (registered cs (r :: regs)).aliasToId.keys := by
  induction regs using List.reverseRecOn with
  | nil => exact List.prefix_refl _
  | append_singleton regs last ih =>
    rw [← List.cons_append, registered_concat, aliasToId_registerEntity]
    exact ih.trans (keys_prefix_foldl_set _ _ _)

/-- An entity that matches in part is taken if it is registered first. -/
lemma firstPartial_registered_cons (h : NoCollision cs (r :: regs)) (hname : name ∈ names cs r)
    (hmatch : matchesPartially norm name = true) :
    firstPartial (registered cs (r :: regs)).aliasToId norm = some r.canonicalId := by
  have hkeys : (registered cs [r]).aliasToId.keys <+: (registered cs (r :: regs)).aliasToId.keys :=
    keys_prefix_registered r regs
  obtain ⟨later, hlater⟩ := hkeys
  have hfirst : name ∈ (registered cs [r]).aliasToId.keys :=
    mem_keys_registered_iff.mpr ⟨r, List.mem_cons_self, hname⟩
  obtain ⟨found, hfound⟩ : ∃ found,
      (registered cs [r]).aliasToId.keys.find? (matchesPartially norm) = some found := by
    rw [← Option.isSome_iff_exists, List.find?_isSome]
    exact ⟨name, hfirst, hmatch⟩
  have hmem : found ∈ names cs r := by
    obtain ⟨r', hr', hname'⟩ := mem_keys_registered_iff.mp (List.mem_of_find?_eq_some hfound)
    rw [List.mem_singleton.mp hr'] at hname'
    exact hname'
  rw [firstPartial_eq, ← hlater, List.find?_append, hfound, Option.some_or, Option.bind_some]
  exact (get?_registered_iff h).mpr ⟨r, List.mem_cons_self, hmem, rfl⟩

lemma NoCollision.perm (h : NoCollision cs regs) (hperm : regs'.Perm regs) :
    NoCollision cs regs' := by
  intro r hr r' hr'
  exact h r (hperm.mem_iff.mp hr) r' (hperm.mem_iff.mp hr')

lemma get?_registered_perm (h : NoCollision cs regs) (hperm : regs'.Perm regs) (name : String) :
    (registered cs regs').aliasToId.get? name = (registered cs regs).aliasToId.get? name := by
  refine Option.ext fun id => ?_
  rw [get?_registered_iff h, get?_registered_iff (h.perm hperm)]
  simp only [hperm.mem_iff]

lemma isKnown_iff : IsKnown cs regs rawName ↔
    ((registered cs regs).aliasToId.get? (cs.normalize rawName)).isSome = true := by
  rw [← PyDict.mem_keys_iff, mem_keys_registered_iff]
  rfl

lemma canonicalize_perm_of_isKnown (h : NoCollision cs regs) (hperm : regs'.Perm regs)
    (hknown : IsKnown cs regs rawName) :
    (registered cs regs').canonicalize cs rawName = (registered cs regs).canonicalize cs rawName := by
  obtain ⟨id, hid⟩ := Option.isSome_iff_exists.mp (isKnown_iff.mp hknown)
  unfold canonicalize
  dsimp only
  rw [get?_registered_perm h hperm, hid]

/-- Where all matching names belong to one entity, it does not matter which is first. -/
lemma firstPartial_registered_perm (hperm : regs'.Perm regs)
    (hagree : PartialMatchesAgree cs regs rawName) :
    firstPartial (registered cs regs').aliasToId (cs.normalize rawName) =
      firstPartial (registered cs regs).aliasToId (cs.normalize rawName) := by
  cases hfirst : firstPartial (registered cs regs).aliasToId (cs.normalize rawName) with
  | none =>
    rw [firstPartial_registered_eq_none_iff] at hfirst ⊢
    intro r hr
    exact hfirst r (hperm.mem_iff.mp hr)
  | some id =>
    obtain ⟨r, hr, name, hname, hmatch, rfl⟩ := exists_of_firstPartial_registered hfirst
    cases hother : firstPartial (registered cs regs').aliasToId (cs.normalize rawName) with
    | none =>
      have hnot := firstPartial_registered_eq_none_iff.mp hother r (hperm.mem_iff.mpr hr) name hname
      rw [hmatch] at hnot
      cases hnot
    | some id' =>
      obtain ⟨r', hr', name', hname', hmatch', rfl⟩ := exists_of_firstPartial_registered hother
      rw [hagree r' (hperm.mem_iff.mp hr') r hr name' hname' name hname hmatch' hmatch]

lemma canonicalize_of_not_isKnown (hraw : rawName ≠ "") (hknown : ¬ IsKnown cs regs rawName) :
    (registered cs regs).canonicalize cs rawName =
      (firstPartial (registered cs regs).aliasToId (cs.normalize rawName)).getD
        (Casing.underscored (cs.normalize rawName)) := by
  rw [isKnown_iff, Option.not_isSome_iff_eq_none] at hknown
  rw [canonicalize, if_neg hraw]
  dsimp only
  rw [hknown]
  cases firstPartial (registered cs regs).aliasToId (cs.normalize rawName) with
  | some id => rfl
  | none => rfl

/-- The order of registration makes no difference to names that are empty or known, and to those
whose partial matches belong to one entity; to all others it does. -/
lemma canonicalize_perm_iff (h : NoCollision cs regs) (rawName : String) :
    (∀ regs', regs'.Perm regs → (registered cs regs').canonicalize cs rawName =
      (registered cs regs).canonicalize cs rawName) ↔
    rawName = "" ∨ IsKnown cs regs rawName ∨ PartialMatchesAgree cs regs rawName := by
  constructor
  · intro horder
    by_cases hraw : rawName = ""
    · exact Or.inl hraw
    by_cases hknown : IsKnown cs regs rawName
    · exact Or.inr (Or.inl hknown)
    refine Or.inr (Or.inr ?_)
    -- Either of two entities that match is taken when it is registered first.
    have htaken : ∀ r ∈ regs, ∀ name ∈ names cs r,
        matchesPartially (cs.normalize rawName) name = true →
          r.canonicalId = (registered cs regs).canonicalize cs rawName := by
      intro r hr name hname hmatch
      classical
      have hperm : (r :: regs.erase r).Perm regs := (List.perm_cons_erase hr).symm
      have hknown' : ¬ IsKnown cs (r :: regs.erase r) rawName := by
        rintro ⟨r', hr', hname'⟩
        exact hknown ⟨r', hperm.mem_iff.mp hr', hname'⟩
      rw [← horder _ hperm, canonicalize_of_not_isKnown hraw hknown',
        firstPartial_registered_cons (h.perm hperm) hname hmatch]
      rfl
    intro r hr r' hr' name hname name' hname' hmatch hmatch'
    exact (htaken r hr name hname hmatch).trans (htaken r' hr' name' hname' hmatch').symm
  · intro hcases regs' hperm
    by_cases hraw : rawName = ""
    · unfold canonicalize
      rw [if_pos hraw, if_pos hraw]
    by_cases hknown : IsKnown cs regs rawName
    · exact canonicalize_perm_of_isKnown h hperm hknown
    have hagree : PartialMatchesAgree cs regs rawName :=
      (hcases.resolve_left hraw).resolve_left hknown
    have hknown' : ¬ IsKnown cs regs' rawName := by
      rintro ⟨r', hr', hname'⟩
      exact hknown ⟨r', hperm.mem_iff.mp hr', hname'⟩
    rw [canonicalize_of_not_isKnown hraw hknown, canonicalize_of_not_isKnown hraw hknown',
      firstPartial_registered_perm hperm hagree]

/-! ### Stability -/

/-- The forms of names that are not resolved are plain. -/
lemma isPlain_of_mem_fallback : ∀ ch ∈ (fallback cs rawName).toList, cs.IsPlain ch := by
  unfold fallback
  split_ifs
  · have hascii : ("unknown_entity".toList.all fun ch =>
        (ch.isLower || ch == '_') && !PyText.isPySpace ch) = true := by
      rfl
    intro ch hch
    have hch := List.all_eq_true.mp hascii ch hch
    rw [Bool.and_eq_true, Bool.or_eq_true, beq_iff_eq, Bool.not_eq_true'] at hch
    exact Casing.isPlain_of_ascii hch.1 hch.2
  · exact Casing.isPlain_of_mem_underscored

lemma canonicalize_fallback (c : EntityCanonicalizer) (h : fallback cs rawName ≠ "") :
    c.canonicalize cs (fallback cs rawName) =
      (c.resolve cs (fallback cs rawName)).getD (fallback cs rawName) := by
  have hplain : ∀ ch ∈ (fallback cs rawName).toList, cs.IsPlain ch := isPlain_of_mem_fallback
  have hform : fallback cs (fallback cs rawName) = fallback cs rawName := by
    rw [fallback, if_neg h, Casing.normalize_eq_self hplain, Casing.underscored_eq_self hplain]
  rw [canonicalize_eq, hform]

lemma exists_of_resolve_registered (h : (registered cs regs).resolve cs rawName = some id) :
    ∃ r ∈ regs, r.canonicalId = id := by
  unfold resolve at h
  dsimp only at h
  split_ifs at h with hraw
  cases hexact : (registered cs regs).aliasToId.get? (cs.normalize rawName) with
  | some id' =>
    rw [hexact] at h
    obtain ⟨r, hr, -, heq⟩ := exists_of_get?_registered hexact
    exact ⟨r, hr, heq.trans (Option.some.inj h)⟩
  | none =>
    rw [hexact, Option.orElse_none] at h
    obtain ⟨r, hr, -, -, -, heq⟩ := exists_of_firstPartial_registered h
    exact ⟨r, hr, heq⟩

lemma canonicalize_canonicalId (h : NoCollision cs regs) (hr : r ∈ regs)
    (hid : r.canonicalId ≠ "") :
    (registered cs regs).canonicalize cs r.canonicalId = r.canonicalId := by
  have hname : cs.normalize r.canonicalId ∈ names cs r :=
    List.mem_cons_of_mem _ List.mem_cons_self
  rw [canonicalize, if_neg hid]
  dsimp only
  rw [(get?_registered_iff h).mpr ⟨r, hr, hname, rfl⟩]

/-- What canonicalisation does to a name it does not do again: a resolved name has an identifier that
is not empty, and the form of any other name is not empty and is not resolved to something else. -/
def IsStable (cs : Casing) (c : EntityCanonicalizer) (rawName : String) : Prop :=
  match c.resolve cs rawName with
  | some id => id ≠ ""
  | none => fallback cs rawName ≠ "" ∧
      ∀ id, c.resolve cs (fallback cs rawName) = some id → id = fallback cs rawName

lemma canonicalize_empty (c : EntityCanonicalizer) : c.canonicalize cs "" = "unknown_entity" := by
  rfl

lemma canonicalize_canonicalize_iff (h : NoCollision cs regs) (rawName : String) :
    (registered cs regs).canonicalize cs ((registered cs regs).canonicalize cs rawName) =
        (registered cs regs).canonicalize cs rawName ↔
      IsStable cs (registered cs regs) rawName := by
  rw [canonicalize_eq _ rawName, IsStable]
  cases hresolve : (registered cs regs).resolve cs rawName with
  | some id =>
    show (registered cs regs).canonicalize cs id = id ↔ id ≠ ""
    constructor
    · rintro heq rfl
      rw [canonicalize_empty] at heq
      exact absurd heq (by decide)
    · intro hid
      obtain ⟨r, hr, rfl⟩ := exists_of_resolve_registered hresolve
      exact canonicalize_canonicalId h hr hid
  | none =>
    show (registered cs regs).canonicalize cs (fallback cs rawName) = fallback cs rawName ↔
      fallback cs rawName ≠ "" ∧ ∀ id, (registered cs regs).resolve cs (fallback cs rawName) =
        some id → id = fallback cs rawName
    by_cases hform : fallback cs rawName = ""
    · rw [hform, canonicalize_empty]
      constructor
      · intro heq
        exact absurd heq (by decide)
      · intro hne
        exact absurd rfl hne.1
    · rw [canonicalize_fallback _ hform]
      cases (registered cs regs).resolve cs (fallback cs rawName) with
      | none => exact iff_of_true rfl ⟨hform, fun id hid => by cases hid⟩
      | some id =>
        constructor
        · intro heq
          exact ⟨hform, fun id' hid' => (Option.some.inj hid').symm.trans heq⟩
        · intro hne
          exact hne.2 id rfl

/-- **Canonicalisation**, with entities that share no normalised name: it is idempotent at the
stable names, and does not depend on the order of registration at the names that are empty, known, or
matched in part by one entity only; and at no others. -/
theorem canonicalize_stable_iff (cs : Casing) (regs : List Registration)
    (h : NoCollision cs regs) (rawName : String) :
    ((registered cs regs).canonicalize cs ((registered cs regs).canonicalize cs rawName) =
        (registered cs regs).canonicalize cs rawName ↔
      IsStable cs (registered cs regs) rawName) ∧
    ((∀ regs', regs'.Perm regs → (registered cs regs').canonicalize cs rawName =
        (registered cs regs).canonicalize cs rawName) ↔
      rawName = "" ∨ IsKnown cs regs rawName ∨ PartialMatchesAgree cs regs rawName) :=
  ⟨canonicalize_canonicalize_iff h rawName, canonicalize_perm_iff h rawName⟩

/-- A letter in lower case, and a sign, have no upper case to lose. -/
lemma toLower_of_not_isUpper {c : Char} (h : c.isUpper = false) : c.toLower = c := by
  unfold Char.toLower
  rw [dif_neg]
  intro hrange
  unfold Char.isUpper at h
  rw [decide_eq_false_iff_not] at h
  exact h hrange

lemma isUpper_toLower (c : Char) : c.toLower.isUpper = false := by
  unfold Char.toLower Char.isUpper
  split
  · grind [UInt32.toNat_add, Char.toNat_val]
  · grind

/-- `str.lower` and `\w` on texts of ASCII. -/
def asciiCasing : Casing where
  lower text := String.ofList (text.toList.map Char.toLower)
  isWord c := c.isAlphanum || c = '_'
  lower_singleton text c hc := by
    rw [String.toList_ofList] at hc
    obtain ⟨d, -, rfl⟩ := List.mem_map.mp hc
    rw [String.toList_singleton, List.map_singleton, toLower_of_not_isUpper (isUpper_toLower d)]
    rfl
  lower_of_singletons text h := by
    have hmap : text.toList.map Char.toLower = text.toList := by
      conv_rhs => rw [← List.map_id text.toList]
      refine List.map_congr_left fun c hc => ?_
      have hlower := congrArg String.toList (h c hc)
      rw [String.toList_ofList, String.toList_singleton, List.map_singleton] at hlower
      exact (List.cons.inj hlower).1
    rw [hmap, String.ofList_toList]
  ascii c hc := by
    have hupper : c.toLower = c := by
      apply toLower_of_not_isUpper
      rcases hc with hlow | rfl
      · unfold Char.isLower at hlow
        unfold Char.isUpper
        grind
      · decide
    constructor
    · rw [String.toList_singleton, List.map_singleton, hupper]
      rfl
    · rcases hc with hlow | rfl
      · show (((c.isUpper || c.isLower) || c.isDigit) || _) = true
        simp [hlow]
      · rfl

/-- Two entities without a name in common. -/
def alphaAndGamma : List Registration :=
  [{ canonicalId := "E1", canonicalName := "alpha" },
    { canonicalId := "E2", canonicalName := "beta_gamma" }]

/-- A form with an underscore meets an alias that the name with a space did not meet, and a name
that contains aliases of both entities goes to the one that was registered first. -/
theorem canonicalize_not_stable : NoCollision asciiCasing alphaAndGamma ∧
    (registered asciiCasing alphaAndGamma).canonicalize asciiCasing
        ((registered asciiCasing alphaAndGamma).canonicalize asciiCasing "beta gamma") ≠
      (registered asciiCasing alphaAndGamma).canonicalize asciiCasing "beta gamma" ∧
    ∃ regs, regs.Perm alphaAndGamma ∧
      (registered asciiCasing regs).canonicalize asciiCasing "alpha beta_gamma" ≠
        (registered asciiCasing alphaAndGamma).canonicalize asciiCasing "alpha beta_gamma" := by
  refine ⟨by decide +kernel, by decide +kernel, alphaAndGamma.reverse, List.reverse_perm _, ?_⟩
  decide +kernel

theorem canonicalize_stable_iff_alpha :
    NoCollision asciiCasing alphaAndGamma ∧
    ((registered asciiCasing alphaAndGamma).canonicalize asciiCasing
          ((registered asciiCasing alphaAndGamma).canonicalize asciiCasing "the alpha") =
        (registered asciiCasing alphaAndGamma).canonicalize asciiCasing "the alpha" ↔
      IsStable asciiCasing (registered asciiCasing alphaAndGamma) "the alpha") := by
  have h : NoCollision asciiCasing alphaAndGamma := by decide +kernel
  exact ⟨h, (canonicalize_stable_iff asciiCasing alphaAndGamma h "the alpha").1⟩

end EntityCanonicalizer

end AtlasMemory
