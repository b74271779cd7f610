import AtlasMemory.Foundations.PythonSyntax

/-!
# What a name of a Python module stands for

Python decides from the text of a module which scope a name belongs to; which of that scope's
bindings it holds depends on the run, so each of them counts.  A name is followed through
`import`, `import … as`, `from … import`, `from … import *` and assignments of one expression to
one name; an attribute and `getattr` with a constant text give a member of what they are taken
from.  Every other binding gives an unknown value.
-/

namespace Python

/-- What an expression may stand for. -/
inductive Obj where
  | module (name : String)
  | member (of : Obj) (name : String)
  | constant (value : Constant)
  /-- A value that the names of the module do not determine. -/
  | unknown
  deriving DecidableEq

def DottedName.obj (d : DottedName) : Obj := d.parts.foldl .member (.module d.root)

/-- The module that the built-in names belong to. -/
def builtins : Obj := .module "builtins"

/-- The module that a `from` import takes its names from. -/
def importedFrom (module : Option DottedName) (level : ℕ) : Obj :=
  match level, module with
  | 0, some d => d.obj
  | _, _ => .unknown

/-- What a binding gives its name. -/
inductive Value where
  | expr (e : Node)
  | imported (o : Obj)
  | unknown
  /-- The name belongs to the scope, and nothing is bound to it here. -/
  | unbound

/-! ## The bindings of a block -/

/-- The bindings of an `import`. -/
def importBindings (names : List (Alias DottedName)) : List (String × Value) :=
  names.map fun a =>
    match a.asname with
    | some x => (x, .imported a.name.obj)
    | none => (a.name.root, .imported (.module a.name.root))

/-- The bindings of a `from` import; those of `*` are not in the text. -/
def importFromBindings (module : Option DottedName) (names : List (Alias String)) (level : ℕ) :
    List (String × Value) :=
  (names.filter (·.name ≠ "*")).map fun a =>
    (a.asname.getD a.name, .imported (.member (importedFrom module level) a.name))

namespace Node

mutual
/-- The names that a node binds in the block it stands in, functions, classes and comprehensions
below it apart.  `inner` says that it stands in a comprehension of the block, from which only the
targets of `:=` are bound outside. -/
def bindings (inner : Bool) : Node → List (String × Value)
  | name _ x .store => if inner then [] else [(x, .unknown)]
  | name _ x .del => [(x, .unbound)]
  | name _ _ .load | constant _ | globalNames _ | nonlocalNames _ => []
  | .attribute value _ | keyword _ value | starred value => bindings inner value
  | call _ func args keywords =>
    bindings inner func ++ bindingsAll inner args ++ bindingsAll inner keywords
  | namedExpr (.name _ x _) value =>
    (x, if inner then .unknown else .expr value) :: bindings inner value
  | namedExpr _ value => bindings inner value
  | ifExp test body orelse => bindings inner test ++ bindings inner body ++ bindings inner orelse
  | assign targets value => assigned inner value targets ++ bindings inner value
  | annAssign (.name _ x _) annotation value =>
    (x, .expr value) :: (bindings inner annotation ++ bindings inner value)
  | annAssign target annotation value =>
    bindings inner target ++ bindings inner annotation ++ bindings inner value
  | annotated (.name _ x _) annotation => (x, .unbound) :: bindings inner annotation
  | annotated target annotation => bindings inner target ++ bindings inner annotation
  | importModules names => importBindings names
  | importFrom module names level => importFromBindings module names level
  | functionDef x args _ around =>
    (x, .unknown) :: (bindings inner args ++ bindingsAll inner around)
  | lambda args _ => bindings inner args
  | arguments _ children => bindingsAll inner children
  | classDef x bases _ decorators =>
    (x, .unknown) :: (bindingsAll inner bases ++ bindingsAll inner decorators)
  | comp elts first rest =>
    bindingsAll true elts ++ bindings true first ++ bindingsAll true rest
  | generator target iter ifs =>
    bindings inner target ++ bindings inner iter ++ bindingsAll inner ifs
  | other binds children => binds.map (·, .unknown) ++ bindingsAll inner children
def bindingsAll (inner : Bool) : List Node → List (String × Value)
  | [] => []
  | n :: ns => bindings inner n ++ bindingsAll inner ns
/-- The names that the targets of an assignment bind: a target that is one name gets the value. -/
def assigned (inner : Bool) (value : Node) : List Node → List (String × Value)
  | [] => []
  | .name _ x _ :: ns => (x, .expr value) :: assigned inner value ns
  | n :: ns => bindings inner n ++ assigned inner value ns
end

mutual
/-- The names that a block declares `global`, or `nonlocal`. -/
def declared (isGlobal : Bool) : Node → List String
  | globalNames names => if isGlobal then names else []
  | nonlocalNames names => if isGlobal then [] else names
  | other _ children => declaredAll isGlobal children
  | _ => []
/-- The names that the statements of a block declare. -/
def declaredAll (isGlobal : Bool) : List Node → List String
  | [] => []
  | n :: ns => declared isGlobal n ++ declaredAll isGlobal ns
end

end Node

/-! ## Scopes -/

/-- The kinds of scope.  The first generator of a comprehension is read in the scope around it. -/
inductive ScopeKind where
  | module
  | function
  | classBody
  | comprehension
  | firstGenerator
  deriving DecidableEq

/-- A scope: the place of its node in the tree, and the names of its block. -/
structure Scope where
  kind : ScopeKind
  place : List ℕ
  bindings : List (String × Value)
  globals : List String
  nonlocals : List String

namespace Scope

def ofBlock (kind : ScopeKind) (place : List ℕ) (params : List String) (body : List Node) :
    Scope where
  kind := kind
  place := place
  bindings := params.map (·, .unknown) ++ Node.bindingsAll false body
  globals := Node.declaredAll true body
  nonlocals := Node.declaredAll false body

def targets : Node → List Node
  | .generator target _ _ => [target]
  | _ => []

/-- The scope of a comprehension with these generators. -/
def ofGenerators (kind : ScopeKind) (place : List ℕ) (generators : List Node) : Scope where
  kind := kind
  place := place
  bindings := Node.bindingsAll false (generators.flatMap targets)
  globals := []
  nonlocals := []

def params : Node → List String
  | .arguments names _ => names
  | _ => []

end Scope

def moduleScope : List ℕ := []

/-- The scope that a block's free name belongs to: the next function around it that binds it, and
the module's where there is none.  Class bodies are passed over. -/
def enclosing : List Scope → String → List ℕ
  | [], _ => moduleScope
  | s :: scopes, x =>
    if s.kind = .module then moduleScope
    else if s.kind = .classBody then enclosing scopes x
    else if x ∈ s.globals then moduleScope
    else if x ∈ s.nonlocals then enclosing scopes x
    else if x ∈ s.bindings.map Prod.fst then s.place
    else enclosing scopes x

/-- The scopes in which a name is looked up.  A name of a class body is looked up in the module's
where the body has not bound it yet. -/
def lookup : List Scope → String → List (List ℕ)
  | [], _ => [moduleScope]
  | s :: scopes, x =>
    if s.kind = .classBody ∧ x ∉ s.globals ∧ x ∉ s.nonlocals then
      if x ∈ s.bindings.map Prod.fst then [s.place, moduleScope] else [enclosing scopes x]
    else if x ∈ s.globals then [moduleScope]
    else if x ∈ s.nonlocals then [enclosing scopes x]
    else [enclosing (s :: scopes) x]

/-- The scope that a block binds a name in. -/
def owner : List Scope → String → List ℕ
  | [], _ => moduleScope
  | s :: scopes, x =>
    if x ∈ s.globals then moduleScope
    else if x ∈ s.nonlocals then enclosing scopes x
    else s.place

/-! ## The places of a module -/

/-- A node of a module, with its place and the scopes it stands in, the innermost first. -/
structure Site where
  scopes : List Scope
  place : List ℕ
  node : Node

namespace Site

/-- The children of a node, each with the scopes it stands in. -/
def childSites (scopes : List Scope) (place : List ℕ) : Node → List (List Scope × Node)
  | .functionDef _ args body around =>
    let inside := Scope.ofBlock .function place (Scope.params args) body :: scopes
    (scopes, args) :: (body.map (inside, ·) ++ around.map (scopes, ·))
  | .lambda args body =>
    [(scopes, args), (Scope.ofBlock .function place (Scope.params args) [body] :: scopes, body)]
  | .classDef _ bases body decorators =>
    let inside := Scope.ofBlock .classBody place [] body :: scopes
    bases.map (scopes, ·) ++ (body.map (inside, ·) ++ decorators.map (scopes, ·))
  | .comp elts first rest =>
    let inside := Scope.ofGenerators .comprehension place (first :: rest) :: scopes
    let head := Scope.ofGenerators .firstGenerator place (first :: rest) :: scopes
    elts.map (inside, ·) ++ (head, first) :: rest.map (inside, ·)
  | .generator target iter ifs =>
    match scopes with
    | s :: around =>
      let inside := { s with kind := .comprehension } :: around
      let source := if s.kind = .firstGenerator then around else scopes
      (inside, target) :: (source, iter) :: ifs.map (inside, ·)
    | [] => ([], target) :: ([], iter) :: ifs.map ([], ·)
  | n => n.children.map (scopes, ·)

def below (s : Site) : List Site :=
  (childSites s.scopes s.place s.node).zipIdx.map fun p => ⟨p.1.1, p.2 :: s.place, p.1.2⟩

def bindings (s : Site) : List (String × Value) :=
  match s.scopes with
  | [] => []
  | scope :: _ => scope.bindings

end Site

namespace Module

def site (m : Module) : Site :=
  ⟨[Scope.ofBlock .module moduleScope [] m.body], moduleScope, m.root⟩

def Within (m : Module) : Site → Prop := TreeWalk.Below Site.below m.site

end Module

lemma Site.map_childSites (scopes : List Scope) (place : List ℕ) (n : Node) :
    (childSites scopes place n).map Prod.snd = n.children := by
  cases n with
  | generator target iter ifs => cases scopes <;> simp [childSites, Node.children, Function.comp_def]
  | _ => simp [childSites, Node.children, Function.comp_def]

lemma Site.map_below (s : Site) : s.below.map Site.node = s.node.children := by
  have hfst := List.zipIdx_map_fst 0 (childSites s.scopes s.place s.node)
  calc s.below.map Site.node
      = ((childSites s.scopes s.place s.node).zipIdx.map Prod.fst).map Prod.snd := by
        unfold below
        rw [List.map_map, List.map_map]
        rfl
    _ = s.node.children := by rw [hfst, map_childSites]

namespace Module

variable {m : Module}

/-- The sites of a module are sites of the nodes of its tree. -/
lemma below_of_within {s : Site} (h : m.Within s) :
    TreeWalk.Below Node.children m.root s.node := by
  induction h with
  | refl => exact Relation.ReflTransGen.refl
  | tail _ hstep ih =>
      refine ih.tail ?_
      rw [← Site.map_below]
      exact List.mem_map_of_mem hstep

/-- Every node of the tree of a module has a site. -/
lemma within_of_below {n : Node} (h : TreeWalk.Below Node.children m.root n) :
    ∃ s, m.Within s ∧ s.node = n := by
  induction h with
  | refl => exact ⟨m.site, Relation.ReflTransGen.refl, rfl⟩
  | tail _ hstep ih =>
      obtain ⟨s, hs, rfl⟩ := ih
      rw [← Site.map_below] at hstep
      obtain ⟨t, ht, rfl⟩ := List.mem_map.mp hstep
      exact ⟨t, hs.tail ht, rfl⟩

end Module

/-! ## What an expression stands for -/

/-- The names that each module gives to `from … import *`, the built-in ones among them. -/
structure Library where
  exports : Obj → String → Prop

/-- The classes of expression whose value their names do not determine. -/
def Node.isComputed : Node → Bool
  | call .. | lambda .. | comp .. | other .. => true
  | _ => false

/-- What an expression that stands in the given scopes of a module may stand for. -/
inductive Denotes (lib : Library) (m : Module) : List Scope → Node → Obj → Prop
  | constant {scopes : List Scope} {c : Constant} : Denotes lib m scopes (.constant c) (.constant c)
  | builtin {scopes : List Scope} {l : ℕ} {x : String} {k : NameContext}
      (hx : moduleScope ∈ lookup scopes x) (hb : lib.exports builtins x) :
      Denotes lib m scopes (.name l x k) (.member builtins x)
  | imported {scopes : List Scope} {l : ℕ} {x : String} {k : NameContext} {s : Site} {o : Obj}
      (hs : m.Within s) (hv : (x, .imported o) ∈ s.bindings)
      (ho : owner s.scopes x ∈ lookup scopes x) : Denotes lib m scopes (.name l x k) o
  | importedAll {scopes : List Scope} {l : ℕ} {x : String} {k : NameContext} {s : Site}
      {d : Option DottedName} {names : List (Alias String)} {level : ℕ} {as : Option String}
      (hs : m.Within s) (hn : s.node = .importFrom d names level) (ha : ⟨"*", as⟩ ∈ names)
      (hx : moduleScope ∈ lookup scopes x) (he : lib.exports (importedFrom d level) x) :
      Denotes lib m scopes (.name l x k) (.member (importedFrom d level) x)
  | assigned {scopes : List Scope} {l : ℕ} {x : String} {k : NameContext} {s : Site} {e : Node}
      {o : Obj} (hs : m.Within s) (hv : (x, .expr e) ∈ s.bindings)
      (ho : owner s.scopes x ∈ lookup scopes x) (he : Denotes lib m s.scopes e o) :
      Denotes lib m scopes (.name l x k) o
  | unknown {scopes : List Scope} {l : ℕ} {x : String} {k : NameContext} {s : Site}
      (hs : m.Within s) (hv : (x, .unknown) ∈ s.bindings)
      (ho : owner s.scopes x ∈ lookup scopes x) : Denotes lib m scopes (.name l x k) .unknown
  | member {scopes : List Scope} {e : Node} {o : Obj} {a : String}
      (he : Denotes lib m scopes e o) : Denotes lib m scopes (.attribute e a) (.member o a)
  | getattr {scopes : List Scope} {l : ℕ} {f e n : Node} {default : List Node} {o : Obj}
      {a : String} (hf : Denotes lib m scopes f (.member builtins "getattr"))
      (he : Denotes lib m scopes e o) (hn : Denotes lib m scopes n (.constant (.str a))) :
      Denotes lib m scopes (.call l f (e :: n :: default) []) (.member o a)
  | getattrDefault {scopes : List Scope} {l : ℕ} {f e n default : Node} {o : Obj}
      (hf : Denotes lib m scopes f (.member builtins "getattr"))
      (hd : Denotes lib m scopes default o) : Denotes lib m scopes (.call l f [e, n, default] []) o
  | namedExpr {scopes : List Scope} {t e : Node} {o : Obj} (he : Denotes lib m scopes e o) :
      Denotes lib m scopes (.namedExpr t e) o
  | ifBody {scopes : List Scope} {test body orelse : Node} {o : Obj}
      (he : Denotes lib m scopes body o) : Denotes lib m scopes (.ifExp test body orelse) o
  | ifOrelse {scopes : List Scope} {test body orelse : Node} {o : Obj}
      (he : Denotes lib m scopes orelse o) : Denotes lib m scopes (.ifExp test body orelse) o
  | computed {scopes : List Scope} {e : Node} (h : e.isComputed) : Denotes lib m scopes e .unknown

end Python
