import ViewCompiler.Scope.Defect

/-!
# The order of a scope

The nodes of a scope are checked after all their inputs. A node is named by its position.

* `Scope.checkNodes`: are the ids there and distinct, is there one output node, has every node the
  inputs that its kind takes, and are they distinct nodes of the scope?
* `Walk.visit`: a depth-first walk to the readers of a node, in the order of the scope.
* `Scope.order`: the positions of a scope such that every node comes after its inputs. They are
  taken in the reverse of the order in which the walk leaves them. If a node then stands before
  one of its inputs, the scope has a cycle.
-/

namespace ViewCompiler

namespace Scope

/-- Fail with a defect unless the condition holds. -/
def require (condition : Bool) (defect : ViewDefect) : Except ViewDefect Unit :=
  if condition then .ok () else .error defect

/-! ### Nodes and their inputs -/

/-- Are the ids of the nodes there and distinct from each other and from those seen before? -/
def checkIds (seen : List String) : List Node → Except ViewDefect Unit
  | [] => .ok ()
  | node :: rest => do
    require (node.id ≠ "") .unnamedNode
    require (!seen.contains node.id) (.node node.id .repeatedId)
    checkIds (node.id :: seen) rest

/-- The number of output nodes. -/
def outputCount (scope : List Node) : Nat := scope.countP fun node => node.kind = .output

/-- Does a node of the kind take this number of inputs? -/
def takesInputs (kind : NodeKind) (count : Nat) : Bool :=
  match kind with
  | .view => count = 0
  | .join => count = 2
  | .union => 2 ≤ count
  | .sql => 1 ≤ count
  | .output => count = 1

/-- Are the inputs of a node distinct nodes of the scope? -/
def checkInputs (ids : List String) (id : String) (seen : List String) :
    List String → Except ViewDefect Unit
  | [] => .ok ()
  | input :: rest => do
    require (!seen.contains input) (.node id (.repeatedInput input))
    require (ids.contains input) (.node id (.unknownInput input))
    checkInputs ids id (input :: seen) rest

/-- Has the node the inputs that its kind takes, and are they distinct nodes of the scope? -/
def checkNode (ids : List String) (node : Node) : Except ViewDefect Unit := do
  require (takesInputs node.kind node.inputs.length)
    (.node node.id (.inputCount node.kind node.inputs.length))
  checkInputs ids node.id [] node.inputs

/-- Have all the nodes the inputs that they should have? -/
def checkAllInputs (ids : List String) : List Node → Except ViewDefect Unit
  | [] => .ok ()
  | node :: rest => do
    checkNode ids node
    checkAllInputs ids rest

/-- Are the nodes named, is one of them the output, and have they the right inputs? -/
def checkNodes (scope : List Node) : Except ViewDefect Unit := do
  checkIds [] scope
  require (outputCount scope = 1) (.outputCount (outputCount scope))
  checkAllInputs (scope.map Node.id) scope

/-! ### The graph -/

/-- The position of the node with an id. -/
def position? (scope : List Node) (id : String) : Option Nat :=
  scope.findIdx? fun node => node.id = id

/-- The positions of the inputs of a node. -/
def inputsOf (scope : List Node) (i : Nat) : List Nat :=
  match scope[i]? with
  | none => []
  | some node => node.inputs.filterMap (position? scope)

/-- The positions of the nodes that read a node. -/
def readersOf (scope : List Node) (i : Nat) : List Nat :=
  match scope[i]? with
  | none => []
  | some source =>
    (List.range scope.length).filter fun j =>
      match scope[j]? with
      | none => false
      | some node => node.inputs.contains source.id

end Scope

/-- How far a depth-first walk has come. -/
structure Walk where
  /-- The nodes that the walk has come to. -/
  found : List Nat := []
  /-- The nodes that it has left for good, the last one first. -/
  left : List Nat := []
  deriving DecidableEq, Repr, Inhabited

/-- Go to a node and from there to its readers; a node that reads itself is an error. The walk is
at most `fuel` nodes deep. -/
def Walk.visit (readers : Nat → List Nat) : Nat → Walk → Nat → Except Nat Walk
  | 0, walk, _ => .ok walk
  | fuel + 1, walk, i =>
    if walk.found.contains i then .ok walk
    else if (readers i).contains i then .error i
    else do
      let walk ← (readers i).foldlM (visit readers fuel) { walk with found := i :: walk.found }
      return { walk with left := i :: walk.left }

/-- Go to all the nodes. -/
def Walk.visitAll (readers : Nat → List Nat) (fuel : Nat) (nodes : List Nat) : Except Nat Walk :=
  nodes.foldlM (visit readers fuel) {}

namespace Scope

/-- The first input that does not stand before the node that reads it. -/
def misplaced? (inputs : Nat → List Nat) (before : List Nat) : List Nat → Option Nat
  | [] => none
  | i :: rest =>
    match (inputs i).find? fun j => !(i :: before).contains j with
    | some j => some j
    | none => misplaced? inputs (i :: before) rest

/-- The positions in an order in which every node comes after its inputs, or a position on a
cycle. -/
def orderOf (scope : List Node) : Except Nat (List Nat) := do
  let nodes := List.range scope.length
  let walk ← Walk.visitAll (readersOf scope) (scope.length + 1) nodes
  match misplaced? (inputsOf scope) [] walk.left with
  | some j => .error j
  | none => .ok walk.left

/-- The positions of a scope whose nodes and inputs are as they should be, in an order in which
every node comes after its inputs. -/
def order (scope : List Node) : Except ViewDefect (List Nat) := do
  checkNodes scope
  match orderOf scope with
  | .ok positions => .ok positions
  | .error i => .error (.node ((scope[i]?.map Node.id).getD "") .cycle)

end Scope

end ViewCompiler
