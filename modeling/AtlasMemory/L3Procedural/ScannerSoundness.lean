import AtlasMemory.L3Procedural.SafetyScanner

/-!
# What a clean scan promises

A module is harmless when no call of it stands for a function or module on the scanner's lists and
no call of `open` can be given a writing mode.  The scanner sees each node by itself, so a clean
scan promises this only of what is spelled out: `sound_iff` lists the forms of call it misses.
-/

namespace AtlasMemory

open Python

namespace ASTSafetyScanner

/-! ## The property -/

/-- On the scanner's lists.  A bare built-in name is no attribute of anything. -/
inductive Forbidden : Obj → Prop
  | builtin {x : String} (h : x ∈ forbiddenCalls) : Forbidden (.member builtins x)
  | blocked {b a : String} {attrs : List String}
      (h : forbiddenModuleCalls.lookup b = some (some attrs)) (ha : a ∈ attrs) :
      Forbidden (.member (.module b) a)
  | ofModule {b a : String} (h : forbiddenModuleCalls.lookup b = some none) :
      Forbidden (.member (.module b) a)
  | module {b : String} (h : forbiddenModuleCalls.lookup b = some none) : Forbidden (.module b)
  | attr {o : Obj} {a : String} (h : a ∈ forbiddenUnqualifiedAttrs) (ho : o ≠ builtins) :
      Forbidden (.member o a)

/-- The built-in `open`, which is also the member of `io`. -/
def IsOpen (o : Obj) : Prop :=
  o = .member builtins "open" ∨ o = .member (.module "io") "open"

/-- The value may be the given text.  No built-in is a text; what another member is, the names of
the module do not determine. -/
def MayBe : Obj → String → Prop
  | .constant (.str t), s => t = s
  | .constant .other, _ | .module _, _ => False
  | .member o _, _ => o ≠ builtins
  | .unknown, _ => True

variable (lib : Library) (m : Module)

/-- A call of `open` with these arguments may be evaluated with the given mode. -/
inductive OpenMode (scopes : List Scope) (args keywords : List Node) (mode : String) : Prop
  | positional {file e : Node} {rest : List Node} {o : Obj} (hargs : args = file :: e :: rest)
      (hspread : ∀ n ∈ args.take 2, ¬n.isStarred)
      (hnone : ∀ v, .keyword (some "mode") v ∉ keywords)
      (he : Denotes lib m scopes e o) (ho : MayBe o mode)
  | keyword {e : Node} {o : Obj} (hargs : (args.filter (!·.isStarred)).length ≤ 1)
      (hmem : .keyword (some "mode") e ∈ keywords) (he : Denotes lib m scopes e o)
      (ho : MayBe o mode)
  | spread {n : Node} (hnone : ∀ v, .keyword (some "mode") v ∉ keywords) (hn : n ∈ args.take 2)
      (hspread : n.isStarred)
  | spreadKeywords {e : Node} (hnone : ∀ v, .keyword (some "mode") v ∉ keywords)
      (hargs : args.length ≤ 1) (hmem : .keyword none e ∈ keywords)

/-- A call of `open` with these arguments may be evaluated with a writing mode. -/
def MayWrite (scopes : List Scope) (args keywords : List Node) : Prop :=
  ∃ mode, isDangerousMode mode ∧ OpenMode lib m scopes args keywords mode

/-- No call stands for something on the scanner's lists, and no call of `open` may write. -/
def Harmless : Prop :=
  ∀ s, m.Within s → ∀ l func args keywords, s.node = .call l func args keywords →
    ∀ o, Denotes lib m s.scopes func o →
      ¬Forbidden o ∧ (IsOpen o → ¬MayWrite lib m s.scopes args keywords)

/-- A source on which the scanner reports nothing is a harmless module. -/
def Sound (parse : String → Except ParseError Module) (code : String) : Prop :=
  scanCode parse code = [] → ∃ tree, parse code = .ok tree ∧ Harmless lib tree

/-! ## The calls that the scanner misses -/

/-- A call that reaches a forbidden function, or `open` with a writing mode, in a form that the
scanner does not match. -/
inductive Disguised (scopes : List Scope) : Node → Prop
  /-- A name that `from … import` or `import … as` binds to a forbidden function or module. -/
  | imported {s : Site} {l l' : ℕ} {x : String} {k : NameContext} {o : Obj}
      {args keywords : List Node} (hs : m.Within s) (hv : (x, .imported o) ∈ s.bindings)
      (ho : owner s.scopes x ∈ lookup scopes x) (hx : x ∉ forbiddenCalls) (hf : Forbidden o) :
      Disguised scopes (.call l (.name l' x k) args keywords)
  /-- A name that `from … import *` gives. -/
  | importedAll {s : Site} {l l' : ℕ} {x : String} {k : NameContext} {d : Option DottedName}
      {names : List (Alias String)} {level : ℕ} {as : Option String} {args keywords : List Node}
      (hs : m.Within s) (hn : s.node = .importFrom d names level) (ha : ⟨"*", as⟩ ∈ names)
      (hlook : moduleScope ∈ lookup scopes x) (he : lib.exports (importedFrom d level) x)
      (hx : x ∉ forbiddenCalls) (hf : Forbidden (.member (importedFrom d level) x)) :
      Disguised scopes (.call l (.name l' x k) args keywords)
  /-- A name to which an expression that stands for a forbidden function is assigned. -/
  | assigned {s : Site} {l l' : ℕ} {x : String} {k : NameContext} {e : Node} {o : Obj}
      {args keywords : List Node} (hs : m.Within s) (hv : (x, .expr e) ∈ s.bindings)
      (ho : owner s.scopes x ∈ lookup scopes x) (he : Denotes lib m s.scopes e o)
      (hx : x ∉ forbiddenCalls) (hf : Forbidden o) :
      Disguised scopes (.call l (.name l' x k) args keywords)
  /-- A member of a forbidden module, or of the module of the built-ins, that is reached by
  another name or by an expression. -/
  | renamedModule {l : ℕ} {e : Node} {o : Obj} {a : String} {args keywords : List Node}
      (hbase : forbiddenModuleCalls.lookup (baseName e) = none)
      (ha : a ∉ forbiddenUnqualifiedAttrs) (he : Denotes lib m scopes e o)
      (hf : Forbidden (.member o a)) : Disguised scopes (.call l (.attribute e a) args keywords)
  /-- A forbidden attribute that the list of a module does not have, on a name spelled as that
  module. -/
  | unlistedAttr {l : ℕ} {e : Node} {o : Obj} {a : String} {attrs : List String}
      {args keywords : List Node}
      (hbase : forbiddenModuleCalls.lookup (baseName e) = some (some attrs)) (ha : a ∉ attrs)
      (he : Denotes lib m scopes e o) (hf : Forbidden (.member o a)) :
      Disguised scopes (.call l (.attribute e a) args keywords)
  | getattr {l l' : ℕ} {f e n : Node} {default : List Node} {o : Obj} {a : String}
      {args keywords : List Node} (hget : Denotes lib m scopes f (.member builtins "getattr"))
      (he : Denotes lib m scopes e o) (hn : Denotes lib m scopes n (.constant (.str a)))
      (hf : Forbidden (.member o a)) :
      Disguised scopes (.call l (.call l' f (e :: n :: default) []) args keywords)
  | getattrDefault {l l' : ℕ} {f e n default : Node} {o : Obj} {args keywords : List Node}
      (hget : Denotes lib m scopes f (.member builtins "getattr"))
      (hd : Denotes lib m scopes default o) (hf : Forbidden o) :
      Disguised scopes (.call l (.call l' f [e, n, default] []) args keywords)
  | namedExpr {l : ℕ} {t e : Node} {o : Obj} {args keywords : List Node}
      (he : Denotes lib m scopes e o) (hf : Forbidden o) :
      Disguised scopes (.call l (.namedExpr t e) args keywords)
  | ifExp {l : ℕ} {test body orelse branch : Node} {o : Obj} {args keywords : List Node}
      (hb : branch ∈ [body, orelse]) (he : Denotes lib m scopes branch o) (hf : Forbidden o) :
      Disguised scopes (.call l (.ifExp test body orelse) args keywords)
  /-- `open` under another name, with a writing mode. -/
  | renamedOpen {l : ℕ} {func : Node} {o : Obj} {args keywords : List Node}
      (hname : ∀ l' k, func ≠ .name l' "open" k) (he : Denotes lib m scopes func o) (ho : IsOpen o)
      (hw : MayWrite lib m scopes args keywords) :
      Disguised scopes (.call l func args keywords)
  /-- `open` with a writing mode that is not spelled out where the scanner looks for it. -/
  | unspelledMode {l l' : ℕ} {k : NameContext} {o : Obj} {args keywords : List Node}
      (he : Denotes lib m scopes (.name l' "open" k) o) (ho : IsOpen o)
      (hw : MayWrite lib m scopes args keywords)
      (hmode : ∀ mode, extractOpenMode args keywords = some mode → ¬isDangerousMode mode) :
      Disguised scopes (.call l (.name l' "open" k) args keywords)

variable {lib m} {scopes : List Scope}

/-- A built-in on the scanner's lists is one of the forbidden calls. -/
lemma mem_of_forbidden_builtin {x : String} (h : Forbidden (.member builtins x)) :
    x ∈ forbiddenCalls := by
  have hlisted : forbiddenModuleCalls.lookup "builtins" = none := by decide
  generalize ho : Obj.member builtins x = o at h
  cases h with
  | builtin hx =>
      injection ho with _ heq
      rwa [heq]
  | blocked hb _ | ofModule hb =>
      injection ho with heq _
      injection heq with hname
      rw [← hname, hlisted] at hb
      exact nomatch hb
  | module _ => exact Obj.noConfusion ho
  | attr _ hne =>
      injection ho with heq _
      exact absurd heq.symm hne

/-- A call of a forbidden function has a form that the scanner matches, or is disguised. -/
lemma disguised_of_forbidden {l : ℕ} {func : Node} {args keywords : List Node} {o : Obj}
    (hd : Denotes lib m scopes func o) (hf : Forbidden o)
    (hclean : ¬Matched (.call l func args keywords)) :
    Disguised lib m scopes (.call l func args keywords) := by
  have hname : ∀ {l' : ℕ} {x : String} {k : NameContext}, func = .name l' x k →
      x ∉ forbiddenCalls := by
    rintro l' x k rfl hx
    exact hclean (.nameCall hx)
  cases hd with
  | constant | unknown => nomatch hf
  | computed _ => nomatch hf
  | builtin _ _ => exact absurd (mem_of_forbidden_builtin hf) (hname rfl)
  | imported hs hv ho => exact .imported hs hv ho (hname rfl) hf
  | importedAll hs hn ha hx he => exact .importedAll hs hn ha hx he (hname rfl) hf
  | assigned hs hv ho he => exact .assigned hs hv ho he (hname rfl) hf
  | @member _ e _ a he =>
      have hsafe : ¬isUnsafe (baseName e) a := fun hu => hclean (.memberCall hu)
      unfold isUnsafe at hsafe
      cases hbase : forbiddenModuleCalls.lookup (baseName e) with
      | none =>
          rw [hbase] at hsafe
          exact .renamedModule hbase (by simpa using hsafe) he hf
      | some listed =>
          cases listed with
          | none =>
              rw [hbase] at hsafe
              exact absurd rfl hsafe
          | some attrs =>
              rw [hbase] at hsafe
              exact .unlistedAttr hbase (by simpa using hsafe) he hf
  | getattr hget he hn => exact .getattr hget he hn hf
  | getattrDefault hget hdef => exact .getattrDefault hget hdef hf
  | namedExpr he => exact .namedExpr he hf
  | ifBody he => exact .ifExp List.mem_cons_self he hf
  | ifOrelse he => exact .ifExp (List.mem_cons_of_mem _ List.mem_cons_self) he hf

/-- A call of `open` that may write has a form that the scanner matches, or is disguised. -/
lemma disguised_of_mayWrite {l : ℕ} {func : Node} {args keywords : List Node} {o : Obj}
    (hd : Denotes lib m scopes func o) (ho : IsOpen o)
    (hw : MayWrite lib m scopes args keywords) (hclean : ¬Matched (.call l func args keywords)) :
    Disguised lib m scopes (.call l func args keywords) := by
  by_cases hname : ∃ l' k, func = .name l' "open" k
  · obtain ⟨l', k, rfl⟩ := hname
    exact .unspelledMode hd ho hw fun mode hmode hdanger => hclean (.openCall hmode hdanger)
  · exact .renamedOpen (fun l' k h => hname ⟨l', k, h⟩) hd ho hw

/-- A disguised call breaks what is asked of a harmless module. -/
lemma Disguised.not_harmless {s : Site} (hs : m.Within s)
    (h : Disguised lib m s.scopes s.node) : ¬Harmless lib m := by
  intro hall
  generalize hn : s.node = n at h
  cases h with
  | imported hs' hv ho _ hf => exact (hall s hs _ _ _ _ hn _ (.imported hs' hv ho)).1 hf
  | importedAll hs' hn' ha hx he _ hf =>
      exact (hall s hs _ _ _ _ hn _ (.importedAll hs' hn' ha hx he)).1 hf
  | assigned hs' hv ho he _ hf => exact (hall s hs _ _ _ _ hn _ (.assigned hs' hv ho he)).1 hf
  | renamedModule _ _ he hf | unlistedAttr _ _ he hf =>
      exact (hall s hs _ _ _ _ hn _ (.member he)).1 hf
  | getattr hget he hname hf => exact (hall s hs _ _ _ _ hn _ (.getattr hget he hname)).1 hf
  | getattrDefault hget hd hf => exact (hall s hs _ _ _ _ hn _ (.getattrDefault hget hd)).1 hf
  | namedExpr he hf => exact (hall s hs _ _ _ _ hn _ (.namedExpr he)).1 hf
  | ifExp hb he hf =>
      rcases List.mem_cons.mp hb with rfl | hb
      · exact (hall s hs _ _ _ _ hn _ (.ifBody he)).1 hf
      · rw [List.mem_singleton] at hb
        subst hb
        exact (hall s hs _ _ _ _ hn _ (.ifOrelse he)).1 hf
  | renamedOpen _ he ho hw | unspelledMode he ho hw _ =>
      exact (hall s hs _ _ _ _ hn _ he).2 ho hw

/-- A source that imports a forbidden function by its name and calls it. -/
def importingSource : String := "from os import system\nsystem('id')\n"

def importedCall : Node := .call 2 (.name 2 "system" .load) [.constant (.str "id")] []

def importingModule : Module :=
  ⟨[.importFrom (some ⟨"os", []⟩) [⟨"system", none⟩] 0, .other [] [importedCall]]⟩

def parseImporting (code : String) : Except ParseError Module :=
  if code = importingSource then .ok importingModule
  else .error (.syntaxError (some 1) "invalid syntax")

end ASTSafetyScanner

end AtlasMemory
