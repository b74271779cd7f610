import AtlasMemory.Foundations.TreeWalk

/-!
# Syntax trees of Python modules

The nodes of a parsed module, with the fields that name binding and calls are read from.  Every
other class of node, be it an operator, a display, a loop or a handler, is `other`: its children in
the order of its fields, with the names it binds without a `Name` node of their own.
-/

namespace Python

/-- The value of a constant: a text, or a number, bytes, `None` and the like. -/
inductive Constant where
  | str (s : String)
  | other
  deriving DecidableEq

/-- Whether a name is read, bound or deleted. -/
inductive NameContext where
  | load
  | store
  | del
  deriving DecidableEq

/-- A dotted name: its first part and the parts after the dots. -/
structure DottedName where
  root : String
  parts : List String
  deriving DecidableEq

/-- A name of an import, with the name after `as`. -/
structure Alias (α : Type) where
  name : α
  asname : Option String
  deriving DecidableEq

/-- A node of a syntax tree. -/
inductive Node where
  | name (lineno : ℕ) (id : String) (ctx : NameContext)
  | constant (value : Constant)
  | attribute (value : Node) (attr : String)
  | call (lineno : ℕ) (func : Node) (args keywords : List Node)
  /-- `arg=value` in a call, or `**value`. -/
  | keyword (arg : Option String) (value : Node)
  | starred (value : Node)
  | namedExpr (target value : Node)
  | ifExp (test body orelse : Node)
  | assign (targets : List Node) (value : Node)
  | annAssign (target annotation value : Node)
  /-- An annotation without a value. -/
  | annotated (target annotation : Node)
  | importModules (names : List (Alias DottedName))
  | importFrom (module : Option DottedName) (names : List (Alias String)) (level : ℕ)
  /-- A function: its parameters, its body, then its decorators and its return annotation. -/
  | functionDef (name : String) (args : Node) (body around : List Node)
  | lambda (args body : Node)
  /-- The parameters of a function, with their annotations and defaults. -/
  | arguments (params : List String) (children : List Node)
  /-- A class: its bases and keywords, its body, then its decorators. -/
  | classDef (name : String) (bases body decorators : List Node)
  /-- A comprehension: its elements, its first generator and the others. -/
  | comp (elts : List Node) (first : Node) (rest : List Node)
  | generator (target iter : Node) (ifs : List Node)
  | globalNames (names : List String)
  | nonlocalNames (names : List String)
  | other (binds : List String) (children : List Node)

namespace Node

/-- The child nodes, in the order of the fields. -/
def children : Node → List Node
  | name .. | constant _ | importModules _ | importFrom .. => []
  | globalNames _ | nonlocalNames _ => []
  | .attribute value _ | keyword _ value | starred value => [value]
  | call _ func args keywords => func :: (args ++ keywords)
  | namedExpr target value => [target, value]
  | ifExp test body orelse => [test, body, orelse]
  | assign targets value => targets ++ [value]
  | annAssign target annotation value => [target, annotation, value]
  | annotated target annotation => [target, annotation]
  | functionDef _ args body around => args :: (body ++ around)
  | lambda args body => [args, body]
  | arguments _ children => children
  | classDef _ bases body decorators => bases ++ (body ++ decorators)
  | comp elts first rest => elts ++ first :: rest
  | generator target iter ifs => target :: iter :: ifs
  | other _ children => children

mutual
/-- The nodes of the tree under a node, the node itself included. -/
def count : Node → ℕ
  | name .. | constant _ | importModules _ | importFrom .. => 1
  | globalNames _ | nonlocalNames _ => 1
  | .attribute value _ | keyword _ value | starred value => 1 + count value
  | call _ func args keywords => 1 + (count func + (countAll args + countAll keywords))
  | namedExpr target value => 1 + (count target + count value)
  | ifExp test body orelse => 1 + (count test + (count body + count orelse))
  | assign targets value => 1 + (countAll targets + count value)
  | annAssign target annotation value => 1 + (count target + (count annotation + count value))
  | annotated target annotation => 1 + (count target + count annotation)
  | functionDef _ args body around => 1 + (count args + (countAll body + countAll around))
  | lambda args body => 1 + (count args + count body)
  | arguments _ children => 1 + countAll children
  | classDef _ bases body decorators => 1 + (countAll bases + (countAll body + countAll decorators))
  | comp elts first rest => 1 + (countAll elts + (count first + countAll rest))
  | generator target iter ifs => 1 + (count target + (count iter + countAll ifs))
  | other _ children => 1 + countAll children
def countAll : List Node → ℕ
  | [] => 0
  | n :: ns => count n + countAll ns
end

lemma countAll_eq (ns : List Node) : countAll ns = (ns.map count).sum := by
  induction ns with
  | nil => simp [countAll]
  | cons n ns ih => rw [countAll, ih, List.map_cons, List.sum_cons]

lemma counts : TreeWalk.Counts children count := by
  intro n
  cases n <;> simp [children, count, countAll_eq, List.sum_append]

def walk (n : Node) : List Node := TreeWalk.walk children count n

/-- A call's positional argument that is spread over several. -/
def isStarred : Node → Bool
  | starred _ => true
  | _ => false

end Node

/-- A parsed module. -/
structure Module where
  body : List Node

def Module.root (m : Module) : Node := .other [] m.body

end Python
