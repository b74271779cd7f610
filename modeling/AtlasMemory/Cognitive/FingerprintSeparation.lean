import AtlasMemory.Cognitive.CandidateDedup
import AtlasMemory.Foundations.SeparatedText

/-!
# Which candidates are taken for duplicates

A fingerprint joins its parts by doubled colons.  No colon is in a checksum or in the tokens before
it, so that the checksum is read back from the end of a fingerprint, unless a key stands behind it:
the key of a candidate without a source is not escaped, and it may itself hold a checksum.

Apart from such keys two candidates have one fingerprint exactly if they are told apart in one way,
have one reduced text and, when keys count, one key.  The removal keeps an entry for each
fingerprint, and a candidate whose fingerprint no other one has is kept as it is.
-/

namespace AtlasMemory

namespace Fingerprint

variable {env : ScoringEnv} {a b c x : CandidateDict}

/-! ## The parts of a fingerprint -/

section Parts

variable (env)

/-- The checksum at the end of a content fingerprint. -/
def digestOf (c : CandidateDict) : List Char :=
  (env.checksum (reducedText env (objVal env c))).toList

/-- The content fingerprint of a candidate. -/
def contentOf (c : CandidateDict) : List Char :=
  (computeContentFingerprint env (objVal env c)).toList

/-- The key of a candidate without a source holds the checksum of another candidate. -/
def HoldsDigest (a b : CandidateDict) : Prop :=
  kind env a = .manual ∧ digestOf env b <:+: (keyOf env a).toList

end Parts

lemma colon_notMem_tokenPrefix (clean : String) : ':' ∉ (tokenPrefix env clean).toList := by
  intro h
  unfold tokenPrefix at h
  dsimp only at h
  rw [String.toList_ofList] at h
  rcases SeparatedText.mem_of_mem_intercalate h with h | ⟨w, hw, hcolon⟩
  · exact absurd h (by decide)
  · have hfound := List.mem_of_mem_filter (List.mem_of_mem_filter (List.mem_of_mem_take hw))
    have hword := SeparatedText.eq_false_of_mem_splitOnP hfound hcolon
    rw [env.isWord_colon] at hword
    cases hword

lemma colon_notMem_digestOf : ':' ∉ digestOf env c := env.checksum_colon _

/-- A content fingerprint is the checksum, or the tokens and the checksum. -/
lemma contentOf_shape (env : ScoringEnv) (c : CandidateDict) :
    contentOf env c = digestOf env c ∨
      ∃ p, ':' ∉ p ∧ contentOf env c = p ++ ':' :: ':' :: digestOf env c := by
  unfold contentOf computeContentFingerprint
  dsimp only
  split_ifs with hprefix
  · exact Or.inl rfl
  · refine Or.inr ⟨(tokenPrefix env (reducedText env (objVal env c))).toList,
      colon_notMem_tokenPrefix _, ?_⟩
    rw [String.toList_append, String.toList_append, List.append_assoc]
    rfl

lemma content_ne_empty (env : ScoringEnv) (text : String) :
    computeContentFingerprint env text ≠ "" := by
  unfold computeContentFingerprint
  dsimp only
  split_ifs with hprefix
  · exact env.checksum_ne_empty _
  · intro h
    have hlist := congrArg String.toList h
    rw [String.toList_append, String.toList_append, List.append_assoc] at hlist
    exact hprefix (String.toList_inj.mp (List.append_eq_nil_iff.mp hlist).1)

lemma fingerprint_manual (h : kind env c = .manual) :
    (fingerprint env c).toList = contentOf env c ++ ':' :: ':' :: (keyOf env c).toList := by
  unfold fingerprint
  dsimp only
  rw [h]
  dsimp only
  rw [if_neg (content_ne_empty env _), String.toList_append, String.toList_append,
    List.append_assoc]
  rfl

lemma fingerprint_atomic (h : kind env c = .atomic) :
    (fingerprint env c).toList = (keyOf env c).toList ++ ':' :: ':' :: contentOf env c := by
  unfold fingerprint
  dsimp only
  rw [h]
  dsimp only
  rw [if_neg (content_ne_empty env _), String.toList_append, String.toList_append,
    List.append_assoc]
  rfl

lemma fingerprint_content (h : kind env c = .content) :
    (fingerprint env c).toList = contentOf env c := by
  unfold fingerprint
  dsimp only
  rw [h]
  dsimp only
  rw [if_neg (content_ne_empty env _)]
  rfl

/-- The text is the checksum of a candidate, or ends with it behind a colon. -/
def EndsWithDigest (env : ScoringEnv) (c : CandidateDict) (cs : List Char) : Prop :=
  cs = digestOf env c ∨ ∃ y, cs = y ++ ':' :: digestOf env c

lemma endsWithDigest_contentOf (env : ScoringEnv) (c : CandidateDict) :
    EndsWithDigest env c (contentOf env c) := by
  rcases contentOf_shape env c with h | ⟨p, -, h⟩
  · exact Or.inl h
  · refine Or.inr ⟨p ++ [':'], ?_⟩
    rw [h, List.append_assoc]
    rfl

lemma endsWithDigest_fingerprint (h : kind env c ≠ .manual) :
    EndsWithDigest env c (fingerprint env c).toList := by
  cases hkind : kind env c with
  | manual => exact absurd hkind h
  | content =>
    rw [fingerprint_content hkind]
    exact endsWithDigest_contentOf env c
  | atomic =>
    rw [fingerprint_atomic hkind]
    rcases endsWithDigest_contentOf env c with hc | ⟨y, hc⟩
    · refine Or.inr ⟨(keyOf env c).toList ++ [':'], ?_⟩
      rw [hc, List.append_assoc]
      rfl
    · refine Or.inr ⟨(keyOf env c).toList ++ ':' :: ':' :: y, ?_⟩
      rw [hc, List.append_assoc]
      rfl

lemma digestOf_eq {cs : List Char} (ha : EndsWithDigest env a cs) (hb : EndsWithDigest env b cs) :
    digestOf env a = digestOf env b := by
  have hmixed : ∀ {c d : CandidateDict} {y : List Char},
      digestOf env c ≠ y ++ ':' :: digestOf env d := by
    intro c d y h
    exact colon_notMem_digestOf (h ▸ List.mem_append_right y List.mem_cons_self)
  rcases ha with ha | ⟨y, ha⟩
  · rcases hb with hb | ⟨z, hb⟩
    · rw [← ha, hb]
    · exact absurd (ha.symm.trans hb) hmixed
  · rcases hb with hb | ⟨z, hb⟩
    · exact absurd (hb.symm.trans ha) hmixed
    · exact (SeparatedText.append_cons_inj_of_notMem_tail (ha.symm.trans hb)
        colon_notMem_digestOf colon_notMem_digestOf).2

/-! ## Equal fingerprints -/

lemma reducedText_eq (hinj : Function.Injective env.checksum)
    (h : digestOf env a = digestOf env b) :
    reducedText env (objVal env a) = reducedText env (objVal env b) :=
  hinj (String.toList_inj.mp h)

lemma contentOf_congr (h : reducedText env (objVal env a) = reducedText env (objVal env b)) :
    contentOf env a = contentOf env b := by
  unfold contentOf computeContentFingerprint
  rw [h]

/-- A key that stands behind another content fingerprint holds the checksum in it. -/
lemma digestOf_infix_of_shifted {k k' : List Char}
    (h : SeparatedText.Shifted ':' (contentOf env a) k (contentOf env b) k') :
    digestOf env b <:+: k := by
  rcases h with ⟨hb, -⟩ | ⟨y, hb, hk⟩
  · -- a content fingerprint does not end with a colon
    have hne : digestOf env b ≠ [] := fun hnil =>
      env.checksum_ne_empty _ (String.toList_inj.mp hnil)
    have hlast : ∀ z, contentOf env a ++ [':'] ≠ z ++ digestOf env b := by
      intro z hz
      have hget := congrArg List.getLast? hz
      rw [List.getLast?_append_of_ne_nil _ (List.cons_ne_nil _ _),
        List.getLast?_append_of_ne_nil _ hne, List.getLast?_singleton] at hget
      exact colon_notMem_digestOf (List.mem_of_getLast? hget.symm)
    rcases contentOf_shape env b with hshape | ⟨p, -, hshape⟩
    · exact absurd (hb.symm.trans hshape) (hlast [])
    · refine absurd (hb.symm.trans hshape) fun heq => hlast (p ++ [':', ':']) ?_
      rw [heq, List.append_assoc]
      rfl
  · have hy : y = digestOf env b := by
      have hnot : ':' ∉ y ∧ EndsWithDigest env b (contentOf env a ++ ':' :: ':' :: y) := by
        refine ⟨?_, hb ▸ endsWithDigest_contentOf env b⟩
        intro hmem
        rcases contentOf_shape env b with hshape | ⟨p, hp, hshape⟩
        · refine colon_notMem_digestOf (hshape ▸ hb ▸ ?_ : ':' ∈ digestOf env b)
          exact List.mem_append_right _ List.mem_cons_self
        · -- there are two colons in a content fingerprint
          have hcount := congrArg (List.count ':') (hb.symm.trans hshape)
          rw [List.count_append, List.count_append, List.count_cons_self, List.count_cons_self,
            List.count_cons_self, List.count_cons_self, List.count_eq_zero.mpr hp,
            List.count_eq_zero.mpr colon_notMem_digestOf] at hcount
          have hpos := List.count_pos_iff.mpr hmem
          omega
      obtain ⟨hcolon, hends⟩ := hnot
      rcases hends with hends | ⟨z, hends⟩
      · exact absurd (hends ▸ List.mem_append_right _ List.mem_cons_self) colon_notMem_digestOf
      · have hsplit : (contentOf env a ++ [':']) ++ ':' :: y = z ++ ':' :: digestOf env b := by
          rw [← hends, List.append_assoc]
          rfl
        exact (SeparatedText.append_cons_inj_of_notMem_tail hsplit hcolon colon_notMem_digestOf).2
    rw [hk, hy]
    exact (List.prefix_append _ _).isInfix

/-- A key behind a content fingerprint holds the checksum at the end of the whole. -/
lemma holdsDigest_of_eq (ha : kind env a = .manual) (hb : kind env b ≠ .manual)
    (h : fingerprint env a = fingerprint env b) : HoldsDigest env a b := by
  have hends := endsWithDigest_fingerprint hb
  rw [← h, fingerprint_manual ha] at hends
  refine ⟨ha, ?_⟩
  rcases hends with hends | ⟨y, hends⟩
  · exact absurd (hends ▸ List.mem_append_right _ List.mem_cons_self) colon_notMem_digestOf
  · have hsplit : (contentOf env a ++ [':']) ++ ':' :: (keyOf env a).toList =
        y ++ ':' :: digestOf env b := by
      rw [← hends, List.append_assoc]
      rfl
    exact SeparatedText.infix_of_append_cons hsplit colon_notMem_digestOf

/-- The two are told apart in one way, have one reduced text and, when keys count, one key. -/
def SameEntry (env : ScoringEnv) (a b : CandidateDict) : Prop :=
  kind env a = kind env b ∧
    reducedText env (objVal env a) = reducedText env (objVal env b) ∧
      (kind env a = .content ∨ keyOf env a = keyOf env b)

lemma fingerprint_eq_of_sameEntry (h : SameEntry env a b) :
    fingerprint env a = fingerprint env b := by
  obtain ⟨hkind, htext, hkey⟩ := h
  have hcontent := contentOf_congr htext
  apply String.toList_inj.mp
  cases ha : kind env a with
  | manual =>
    rcases hkey with hkey | hkey
    · rw [ha] at hkey
      cases hkey
    · rw [fingerprint_manual ha, fingerprint_manual (hkind ▸ ha), hcontent, hkey]
  | atomic =>
    rcases hkey with hkey | hkey
    · rw [ha] at hkey
      cases hkey
    · rw [fingerprint_atomic ha, fingerprint_atomic (hkind ▸ ha), hcontent, hkey]
  | content => rw [fingerprint_content ha, fingerprint_content (hkind ▸ ha), hcontent]

/-- A content fingerprint does not end with itself behind a key. -/
lemma kind_ne_of_eq (ha : kind env a = .content) (hb : kind env b = .atomic)
    (hcontent : contentOf env a = contentOf env b) : fingerprint env a ≠ fingerprint env b := by
  intro h
  have hlen := congrArg List.length (congrArg String.toList h)
  rw [fingerprint_content ha, fingerprint_atomic hb, hcontent, List.length_append,
    List.length_cons, List.length_cons] at hlen
  omega

lemma sameEntry_of_manual (hinj : Function.Injective env.checksum) (ha : kind env a = .manual)
    (hb : kind env b = .manual) (hab : ¬HoldsDigest env a b) (hba : ¬HoldsDigest env b a)
    (h : fingerprint env a = fingerprint env b) : SameEntry env a b := by
  have hlist := congrArg String.toList h
  rw [fingerprint_manual ha, fingerprint_manual hb] at hlist
  rcases SeparatedText.append_cons_cons_inj.mp hlist with ⟨hcontent, hkey⟩ | hshift | hshift
  · have hends := endsWithDigest_contentOf env b
    rw [← hcontent] at hends
    exact ⟨ha.trans hb.symm,
      reducedText_eq hinj (digestOf_eq (endsWithDigest_contentOf env a) hends),
      Or.inr (String.toList_inj.mp hkey)⟩
  · exact absurd ⟨ha, digestOf_infix_of_shifted hshift⟩ hab
  · exact absurd ⟨hb, digestOf_infix_of_shifted hshift⟩ hba

lemma sameEntry_of_not_manual (hinj : Function.Injective env.checksum)
    (ha : kind env a ≠ .manual) (hb : kind env b ≠ .manual)
    (h : fingerprint env a = fingerprint env b) : SameEntry env a b := by
  have hends := endsWithDigest_fingerprint hb
  rw [← h] at hends
  have htext := reducedText_eq hinj (digestOf_eq (endsWithDigest_fingerprint ha) hends)
  have hcontent := contentOf_congr htext
  cases hka : kind env a with
  | manual => exact absurd hka ha
  | content =>
    cases hkb : kind env b with
    | manual => exact absurd hkb hb
    | content => exact ⟨hka.trans hkb.symm, htext, Or.inl hka⟩
    | atomic => exact absurd h (kind_ne_of_eq hka hkb hcontent)
  | atomic =>
    cases hkb : kind env b with
    | manual => exact absurd hkb hb
    | content => exact absurd h.symm (kind_ne_of_eq hkb hka hcontent.symm)
    | atomic =>
      have hlist := congrArg String.toList h
      rw [fingerprint_atomic hka, fingerprint_atomic hkb, hcontent] at hlist
      exact ⟨hka.trans hkb.symm, htext,
        Or.inr (String.toList_inj.mp (List.append_cancel_right hlist))⟩

/-- Apart from keys that hold a checksum, equal fingerprints are those of one entry. -/
lemma fingerprint_eq_iff (hinj : Function.Injective env.checksum)
    (hab : ¬HoldsDigest env a b) (hba : ¬HoldsDigest env b a) :
    fingerprint env a = fingerprint env b ↔ SameEntry env a b := by
  refine ⟨fun h => ?_, fingerprint_eq_of_sameEntry⟩
  by_cases ha : kind env a = .manual
  · by_cases hb : kind env b = .manual
    · exact sameEntry_of_manual hinj ha hb hab hba h
    · exact absurd (holdsDigest_of_eq ha hb h) hab
  · by_cases hb : kind env b = .manual
    · exact absurd (holdsDigest_of_eq hb ha h.symm) hba
    · exact sameEntry_of_not_manual hinj ha hb h

/-! ## What the removal keeps -/

def scoreNames : List String := ["vector_score", "graph_score", "graph_hit"]

/-- The same candidate, apart from its scores. -/
def Rescored (x c : CandidateDict) : Prop :=
  x.ident = c.ident ∧ ∀ name, name ∉ scoreNames → x.fields.get? name = c.fields.get? name

lemma rescored_of_merge {prev : CandidateDict} (h : merge env prev c = some x) :
    Rescored x prev ∨ Rescored x c := by
  obtain ⟨curVs, -, h⟩ := Option.bind_eq_some_iff.mp h
  obtain ⟨prevVs, -, h⟩ := Option.bind_eq_some_iff.mp h
  obtain ⟨curGs, -, h⟩ := Option.bind_eq_some_iff.mp h
  obtain ⟨prevGs, -, h⟩ := Option.bind_eq_some_iff.mp h
  obtain ⟨prevKey, -, h⟩ := Option.bind_eq_some_iff.mp h
  obtain ⟨curKey, -, h⟩ := Option.bind_eq_some_iff.mp h
  obtain rfl := Option.some.inj h
  have hscores : ∀ (target : CandidateDict) (u v w : Json), Rescored { target with
      fields := ((target.fields.set "vector_score" u).set "graph_score" v).set "graph_hit" w }
      target := by
    refine fun target u v w => ⟨rfl, fun name hname => ?_⟩
    have hne : ∀ n ∈ scoreNames, n ≠ name := fun n hn heq => hname (heq ▸ hn)
    rw [PyDict.get?_set_of_ne _ _ (hne "graph_hit" (by decide)),
      PyDict.get?_set_of_ne _ _ (hne "graph_score" (by decide)),
      PyDict.get?_set_of_ne _ _ (hne "vector_score" (by decide))]
  split_ifs
  · exact Or.inr (hscores c _ _ _)
  · exact Or.inl (hscores prev _ _ _)

/-- The entry of `a` among the candidates: one of them with its fingerprint, up to the scores, and
`a` itself if it is the only one. -/
structure StandsFor (env : ScoringEnv) (candidates : List CandidateDict) (a x : CandidateDict) :
    Prop where
  member : ∃ c ∈ candidates, Rescored x c ∧ fingerprint env c = fingerprint env a
  unchanged : (candidates.filter fun c => fingerprint env c = fingerprint env a) = [a] → x = a

/-- What has been taken up: an entry for each candidate, under its fingerprint. -/
structure Taken (env : ScoringEnv) (seen : List CandidateDict)
    (dedup : PyDict String CandidateDict) : Prop where
  sound : ∀ fp y, dedup.get? fp = some y → ∃ c ∈ seen, Rescored y c ∧ fingerprint env c = fp
  complete : ∀ c ∈ seen, (dedup.get? (fingerprint env c)).isSome
  alone : ∀ fp c, (seen.filter fun c => fingerprint env c = fp) = [c] → dedup.get? fp = some c

lemma rescored_refl (c : CandidateDict) : Rescored c c := ⟨rfl, fun _ _ => rfl⟩

/-- Taking one candidate up keeps what has been taken up. -/
lemma taken_takeUp {seen : List CandidateDict} {dedup dedup' : PyDict String CandidateDict}
    (h : Taken env seen dedup) (htake : takeUp env dedup c = some dedup') :
    Taken env (seen ++ [c]) dedup' := by
  have hfilter : ∀ fp, (seen ++ [c]).filter (fun c => fingerprint env c = fp) =
      seen.filter (fun c => fingerprint env c = fp) ++
        if fingerprint env c = fp then [c] else [] := by
    intro fp
    rw [List.filter_append, List.filter_singleton]
    simp only [Bool.cond_decide]
  -- the entry of the candidate, which the dictionary gets
  obtain ⟨y, hset, hy, hfirst⟩ : ∃ y, dedup' = dedup.set (fingerprint env c) y ∧
      (∃ c' ∈ seen ++ [c], Rescored y c' ∧ fingerprint env c' = fingerprint env c) ∧
        (dedup.get? (fingerprint env c) = none → y = c) := by
    unfold takeUp at htake
    split at htake
    · rename_i hnone
      refine ⟨c, (Option.some.inj htake).symm, ⟨c, ?_, rescored_refl c, rfl⟩, fun _ => rfl⟩
      exact List.mem_append_right seen (List.mem_singleton_self c)
    · rename_i prev hprev
      obtain ⟨y, hmerge, hset⟩ := Option.map_eq_some_iff.mp htake
      refine ⟨y, hset.symm, ?_, fun hnone => ?_⟩
      · rcases rescored_of_merge hmerge with hy | hy
        · obtain ⟨c', hc', hprev', hfp⟩ := h.sound _ _ hprev
          refine ⟨c', List.mem_append_left _ hc', ⟨hy.1.trans hprev'.1, fun name hname => ?_⟩, hfp⟩
          rw [hy.2 name hname, hprev'.2 name hname]
        · exact ⟨c, List.mem_append_right seen (List.mem_singleton_self c), hy, rfl⟩
      · rw [hprev] at hnone
        cases hnone
  subst hset
  refine ⟨fun fp z hz => ?_, fun d hd => ?_, fun fp d hd => ?_⟩
  · by_cases hfp : fingerprint env c = fp
    · subst hfp
      rw [PyDict.get?_set_self] at hz
      rw [← Option.some.inj hz]
      exact hy
    · rw [PyDict.get?_set_of_ne _ _ hfp] at hz
      obtain ⟨c', hc', hrest⟩ := h.sound fp z hz
      exact ⟨c', List.mem_append_left _ hc', hrest⟩
  · by_cases hfp : fingerprint env c = fingerprint env d
    · rw [← hfp, PyDict.get?_set_self]
      rfl
    · rw [PyDict.get?_set_of_ne _ _ hfp]
      rcases List.mem_append.mp hd with hd | hd
      · exact h.complete d hd
      · exact absurd (by rw [List.mem_singleton.mp hd]) hfp
  · rw [hfilter] at hd
    by_cases hfp : fingerprint env c = fp
    · subst hfp
      rw [if_pos rfl] at hd
      have hnil : seen.filter (fun c' => fingerprint env c' = fingerprint env c) = [] := by
        have hlen := congrArg List.length hd
        rw [List.length_append, List.length_singleton, List.length_singleton] at hlen
        exact List.length_eq_zero_iff.mp (by omega)
      rw [hnil, List.nil_append] at hd
      have hnone : dedup.get? (fingerprint env c) = none := by
        rw [← Option.not_isSome_iff_eq_none]
        intro hsome
        obtain ⟨z, hz⟩ := Option.isSome_iff_exists.mp hsome
        obtain ⟨c', hc', -, hfp⟩ := h.sound _ z hz
        exact List.filter_eq_nil_iff.mp hnil c' hc' (decide_eq_true hfp)
      rw [PyDict.get?_set_self, hfirst hnone, (List.cons.inj hd).1]
    · rw [if_neg hfp, List.append_nil] at hd
      rw [PyDict.get?_set_of_ne _ _ hfp]
      exact h.alone fp d hd

/-- After the run there is an entry for each candidate. -/
lemma taken_foldlM {candidates : List CandidateDict} {dedup : PyDict String CandidateDict}
    (h : candidates.foldlM (takeUp env) ∅ = some dedup) : Taken env candidates dedup := by
  have hrun : ∀ (rest seen : List CandidateDict) (d : PyDict String CandidateDict),
      Taken env seen d → rest.foldlM (takeUp env) d = some dedup →
        Taken env (seen ++ rest) dedup := by
    intro rest
    induction rest with
    | nil =>
      intro seen d hd hrest
      rw [List.append_nil, ← Option.some.inj hrest]
      exact hd
    | cons c rest ih =>
      intro seen d hd hrest
      rw [List.foldlM_cons] at hrest
      obtain ⟨d', htake, hrest⟩ := Option.bind_eq_some_iff.mp hrest
      have htaken := ih (seen ++ [c]) d' (taken_takeUp hd htake) hrest
      rwa [List.append_assoc] at htaken
  refine hrun candidates [] ∅ ⟨fun fp y hy => ?_, fun c hc => ?_, fun fp c hc => ?_⟩ h
  · rw [PyDict.get?_empty] at hy
    cases hy
  · cases hc
  · cases hc

/-- Two candidates with different fingerprints have different entries. -/
lemma standsFor_of_fingerprint_ne {candidates out : List CandidateDict}
    (h : dedupCandidates env candidates = some out) (ha : a ∈ candidates) (hb : b ∈ candidates)
    (hne : fingerprint env a ≠ fingerprint env b) :
    ∃ (p q : ℕ) (x y : CandidateDict), p ≠ q ∧ out[p]? = some x ∧ out[q]? = some y ∧
      StandsFor env candidates a x ∧ StandsFor env candidates b y := by
  obtain ⟨dedup, hdedup, rfl⟩ := Option.map_eq_some_iff.mp h
  have htaken := taken_foldlM hdedup
  have hentry : ∀ c ∈ candidates, ∃ (p : ℕ) (x : CandidateDict),
      dedup.entries[p]? = some (fingerprint env c, x) ∧ StandsFor env candidates c x := by
    intro c hc
    obtain ⟨x, hx⟩ := Option.isSome_iff_exists.mp (htaken.complete c hc)
    obtain ⟨p, hp⟩ := List.mem_iff_getElem?.mp (PyDict.mem_entries_iff.mpr hx)
    refine ⟨p, x, hp, htaken.sound _ x hx, fun halone => ?_⟩
    exact Option.some.inj (hx.symm.trans (htaken.alone _ c halone))
  obtain ⟨p, x, hp, hx⟩ := hentry a ha
  obtain ⟨q, y, hq, hy⟩ := hentry b hb
  refine ⟨p, q, x, y, ?_, ?_, ?_, hx, hy⟩
  · rintro rfl
    exact hne (congrArg Prod.fst (Option.some.inj (hp.symm.trans hq)))
  · unfold PyDict.values
    rw [List.getElem?_map, hp, Option.map_some]
  · unfold PyDict.values
    rw [List.getElem?_map, hq, Option.map_some]

/-- Two candidates with different fingerprints are both returned. -/
lemma dedupCandidates_pair (h : fingerprint env a ≠ fingerprint env b) :
    dedupCandidates env [a, b] = some [a, b] := by
  have hfirst : takeUp env ∅ a =
      some ((∅ : PyDict String CandidateDict).set (fingerprint env a) a) := by
    unfold takeUp
    rw [PyDict.get?_empty]
  have hsecond : takeUp env ((∅ : PyDict String CandidateDict).set (fingerprint env a) a) b =
      some (((∅ : PyDict String CandidateDict).set (fingerprint env a) a).set
        (fingerprint env b) b) := by
    unfold takeUp
    rw [PyDict.get?_set_of_ne _ _ h, PyDict.get?_empty]
  have hrun : [a, b].foldlM (takeUp env) ∅ =
      some (((∅ : PyDict String CandidateDict).set (fingerprint env a) a).set
        (fingerprint env b) b) := by
    simp only [List.foldlM_cons, List.foldlM_nil, hfirst, hsecond, Option.bind_eq_bind,
      Option.bind_some, Option.pure_def]
  have hentries : (((∅ : PyDict String CandidateDict).set (fingerprint env a) a).set
      (fingerprint env b) b).entries = [(fingerprint env a, a), (fingerprint env b, b)] :=
    (if_neg h : PyDict.assign (fingerprint env b) b [(fingerprint env a, a)] = _)
  unfold dedupCandidates PyDict.values
  rw [hrun, Option.map_some, hentries]
  rfl

/-- **Distinct facts.**  Two candidates with different keys are both kept, unless both are told apart
by their contents alone and these are equal once labels, marks, case and white space are removed; a
key that stands behind a fingerprint and holds the checksum of the other candidate is left aside.
Alone they are returned as they are, and in any list they have two different entries. -/
theorem dedupCandidates_keeps_both (hinj : Function.Injective env.checksum)
    (hkeys : keyOf env a ≠ keyOf env b)
    (htexts : ¬(kind env a = .content ∧ kind env b = .content ∧
      reducedText env (objVal env a) = reducedText env (objVal env b)))
    (hab : ¬HoldsDigest env a b) (hba : ¬HoldsDigest env b a) :
    dedupCandidates env [a, b] = some [a, b] ∧
      ∀ candidates out, a ∈ candidates → b ∈ candidates →
        dedupCandidates env candidates = some out →
          ∃ (p q : ℕ) (x y : CandidateDict), p ≠ q ∧ out[p]? = some x ∧ out[q]? = some y ∧
            StandsFor env candidates a x ∧ StandsFor env candidates b y := by
  have hne : fingerprint env a ≠ fingerprint env b := by
    intro h
    obtain ⟨hkind, htext, hsame⟩ := (fingerprint_eq_iff hinj hab hba).mp h
    rcases hsame with hcontent | hkey
    · exact htexts ⟨hcontent, hkind ▸ hcontent, htext⟩
    · exact hkeys hkey
  exact ⟨dedupCandidates_pair hne, fun candidates out ha hb h =>
    standsFor_of_fingerprint_ne h ha hb hne⟩

/-! ## Two channels of a release -/

/-- A text without colons, from which the text can be read back. -/
def escapeColons (cs : List Char) : List Char :=
  cs.flatMap fun c => if c = ':' then ['0', '1'] else ['1', c]

lemma escapeColons_injective : Function.Injective escapeColons := by
  intro cs
  induction cs with
  | nil =>
    intro ds h
    cases ds with
    | nil => rfl
    | cons d ds =>
      unfold escapeColons at h
      rw [List.flatMap_cons] at h
      split_ifs at h
      · cases h
      · cases h
  | cons c cs ih =>
    intro ds h
    cases ds with
    | nil =>
      unfold escapeColons at h
      rw [List.flatMap_cons] at h
      split_ifs at h
      · cases h
      · cases h
    | cons d ds =>
      have htail : escapeColons cs = escapeColons ds → cs = ds := fun heq => ih heq
      unfold escapeColons at h htail
      rw [List.flatMap_cons, List.flatMap_cons] at h
      split_ifs at h with hc hd hd
      · rw [hc, hd, htail (List.append_cancel_left h)]
      · exact absurd (List.cons.inj h).1 (by decide)
      · exact absurd (List.cons.inj h).1 (by decide)
      · obtain ⟨-, hrest⟩ := List.cons.inj h
        obtain ⟨hcd, hrest⟩ := List.cons.inj hrest
        rw [hcd, htail hrest]

lemma colon_notMem_escapeColons (cs : List Char) : ':' ∉ escapeColons cs := by
  intro h
  obtain ⟨c, -, hc⟩ := List.mem_flatMap.mp h
  split_ifs at hc with hcolon
  · exact absurd hc (by decide)
  · rcases List.mem_cons.mp hc with h1 | hc
    · exact absurd h1 (by decide)
    · exact hcolon (List.mem_singleton.mp hc).symm

/-- An environment in which the checksum is the text itself, without colons. -/
def plainScoring : ScoringEnv where
  rt := .sample
  lower s := String.ofList (s.toList.map Char.toLower)
  isWord c := c.isAlphanum || c = '_'
  isWord_colon := by decide
  isDigits s := s.toList.all Char.isDigit
  checksum s := String.ofList ('0' :: escapeColons s.toList)
  checksum_ne_empty s h := by
    have hlist := congrArg String.toList h
    rw [String.toList_ofList] at hlist
    cases hlist
  checksum_colon s h := by
    rw [String.toList_ofList] at h
    rcases List.mem_cons.mp h with h | h
    · exact absurd h (by decide)
    · exact colon_notMem_escapeColons _ h

lemma plainScoring_injective : Function.Injective plainScoring.checksum := by
  intro s t h
  have hlist := String.ofList_injective h
  exact String.toList_inj.mp (escapeColons_injective (List.cons.inj hlist).2)

def storedCandidate (ident : ℕ) (key object : String) : CandidateDict where
  ident := ident
  fields := .ofEntries [("key", .str key), ("object", .str object), ("source", .str "kv")]

/-- The label before the colon tells no two facts apart: of two channels with one release one is
kept. -/
theorem labelled_facts_merged :
    let a := storedCandidate 1 "channel:staging" "staging: ship the blue release to all users"
    let b := storedCandidate 2 "channel:stable" "stable: ship the blue release to all users"
    keyOf plainScoring a ≠ keyOf plainScoring b ∧
      normalText plainScoring (objVal plainScoring a) ≠
        normalText plainScoring (objVal plainScoring b) ∧
      (dedupCandidates plainScoring [a, b]).map List.length = some 1 := by
  decide +kernel

/-- Two releases of one channel are both kept. -/
theorem dedupCandidates_keeps_both_releases :
    let a := storedCandidate 1 "channel:staging" "staging: ship the blue release to all users"
    let b := storedCandidate 2 "channel:stable" "stable: ship the green release to all users"
    dedupCandidates plainScoring [a, b] = some [a, b] := by
  refine (dedupCandidates_keeps_both plainScoring_injective ?_ ?_ ?_ ?_).1
  · decide +kernel
  · exact fun h => absurd h.2.2 (by decide +kernel)
  · exact fun h => absurd h.1 (by decide +kernel)
  · exact fun h => absurd h.1 (by decide +kernel)

def manualCandidate (ident : ℕ) (key object : String) : CandidateDict where
  ident := ident
  fields := .ofEntries [("key", .str key), ("object", .str object)]

-- a key that holds the checksum of the other candidate
example : HoldsDigest plainScoring (manualCandidate 1 "010111a111b" "ab")
      (storedCandidate 2 "<release" "01a1b") ∧
    (dedupCandidates plainScoring [manualCandidate 1 "010111a111b" "ab",
      storedCandidate 2 "<release" "01a1b"]).map List.length = some 1 := by
  refine ⟨⟨by decide +kernel, [], [], ?_⟩, by decide +kernel⟩
  decide +kernel

end Fingerprint

end AtlasMemory
