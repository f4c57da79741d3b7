import ViewCompiler.KeyMap
import ViewCompiler.Relation.Error
import ViewCompiler.View.Basic

/-!
# Routing of indices

The second part of the name of an index, between its first two hyphens, is the base type of its
documents. A search view reads the base types that its sources are named for.

* `BaseTypes`: the base types that a view reads, and the owners that read each.
* `BaseTypes.route`: the indices that every owner reads.
* `BaseTypes.direct`: the same for a backend that is addressed by the base types themselves.
-/

namespace ViewCompiler

/-- The base types that a view reads. -/
structure BaseTypes where
  /-- The base types, in the order in which they come first. -/
  names : List String := []
  /-- The nodes, or the atomic view, that read each base type. -/
  owners : KeyMap (List String) := []
  deriving DecidableEq, Repr, Inhabited

/-- The indices that each owner reads. -/
abbrev NodeRoutes := KeyMap (List String)

/-- The indices that a request reads. -/
structure IndexRoutes where
  /-- All the indices. -/
  indices : List String := []
  /-- The indices by owner. -/
  byNode : NodeRoutes := []
  deriving DecidableEq, Repr, Inhabited

namespace BaseTypes

/-- Add an owner of a base type; an empty base type has none. -/
def add (types : BaseTypes) (baseType owner : String) : BaseTypes :=
  if baseType = "" then types
  else
    let owners := (types.owners.get? baseType).getD []
    { names := if owners.isEmpty then types.names ++ [baseType] else types.names
      owners := types.owners.insert baseType
        (if owners.contains owner then owners else owners ++ [owner]) }

/-- Add the base type of the source of a node. -/
def addNode (types : BaseTypes) (node : Node) : BaseTypes :=
  match node.source? with
  | none => types
  | some source => types.add source.technicalName node.id

/-- The base types that a view reads: its own, or those of its view nodes. -/
def ofView (view : View) : BaseTypes :=
  if view.isAtomic then ({} : BaseTypes).add view.technicalName view.id
  else view.viewNodes.foldl addNode {}

/-- Is there no base type? -/
def isEmpty (types : BaseTypes) : Bool := types.names.isEmpty

/-- The base type of an index. -/
def ofIndex? (index : String) : Option String :=
  match Text.splitOn '-' index.toList with
  | _ :: part :: _ => if part.isEmpty then none else some (String.ofList part)
  | _ => none

/-- Add an index to the routes of every owner. -/
def addIndex (index : String) (routes : NodeRoutes) (owner : String) : NodeRoutes :=
  routes.update owner [] (· ++ [index])

/-- The routes after those of one more index; an index without a base type has none. -/
def routeIndex (types : BaseTypes) (routes : NodeRoutes) (index : String) :
    Except CompileError NodeRoutes :=
  match ofIndex? index with
  | none => .ok routes
  | some baseType =>
    match types.owners.get? baseType with
    | none => .error (.unreadIndex index baseType)
    | some owners => .ok (owners.foldl (addIndex index) routes)

/-- The indices that each owner reads. -/
def route (types : BaseTypes) (indices : List String) : Except CompileError NodeRoutes :=
  indices.foldlM (routeIndex types) []

/-- Every owner reads the base types themselves. -/
def direct (types : BaseTypes) : IndexRoutes where
  indices := types.names
  byNode := types.owners.foldl
    (fun routes (baseType, owners) => owners.foldl (addIndex baseType) routes) []

end BaseTypes

namespace IndexRoutes

/-- Is there no index? -/
def isEmpty (routes : IndexRoutes) : Bool := routes.indices.isEmpty

end IndexRoutes

end ViewCompiler
