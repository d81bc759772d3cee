import TypedColumns.Schema.Node

/-!
# Read shapes

The object of a node is reached in one of ten ways.  Which one is decided by four facts of the node and by whether its
source has a director, that is, whether the cursor steers it at all.

* `Facts`, `Node.facts` -- the four facts.
* `Shape`, `Facts.shape` -- the ways, and the choice among them: without a director there is one way; a node that lies
  in another is reached through it, whatever counts it; of the rest, collections and counts decide.
* `Shape.all`, `Shape.index` -- the shapes in their order, and the place of each in it (`all_index`).
-/

namespace TypedColumns

/-- What decides how the object of a node is reached. -/
structure Facts where
  hasParent : Bool
  isCollection : Bool
  hasCount : Bool
  byPointer : Bool
deriving DecidableEq, Repr

/-- The facts of a node. -/
def Node.facts (n : Node) : Facts :=
  ⟨n.parent.isSome, n.elements.isCollection, n.count.isSome, n.elements.areBehindPointers⟩

/-- How the object of a node is reached. -/
inductive Shape where
  | noCoordinator
  | parentScalar
  | parentCollectionPointer
  | parentCollectionValue
  | scalar
  | collectionPointer
  | collectionValue
  | countedCollectionPointer
  | countedCollectionValue
  | countedScalar
deriving DecidableEq, Repr

/-- The way to the object of a node with the given facts. -/
def Facts.shape (f : Facts) (hasDirector : Bool) : Shape :=
  if !hasDirector then .noCoordinator
  else if f.hasParent then
    if !f.isCollection then .parentScalar
    else if f.byPointer then .parentCollectionPointer
    else .parentCollectionValue
  else if f.hasCount then
    if !f.isCollection then .countedScalar
    else if f.byPointer then .countedCollectionPointer
    else .countedCollectionValue
  else if !f.isCollection then .scalar
  else if f.byPointer then .collectionPointer
  else .collectionValue

namespace Shape

/-- The shapes in their order. -/
def all : List Shape :=
  [.noCoordinator, .parentScalar, .parentCollectionPointer, .parentCollectionValue, .scalar, .collectionPointer,
    .collectionValue, .countedCollectionPointer, .countedCollectionValue, .countedScalar]

/-- The place of a shape in the order. -/
def index : Shape → Nat
  | .noCoordinator => 0
  | .parentScalar => 1
  | .parentCollectionPointer => 2
  | .parentCollectionValue => 3
  | .scalar => 4
  | .collectionPointer => 5
  | .collectionValue => 6
  | .countedCollectionPointer => 7
  | .countedCollectionValue => 8
  | .countedScalar => 9

theorem all_index (s : Shape) : all[s.index]? = some s := by
  cases s <;> rfl

/-- The name of a shape. -/
def name : Shape → String
  | .noCoordinator => "NoCoordinator"
  | .parentScalar => "ParentScalar"
  | .parentCollectionPointer => "ParentCollectionPointer"
  | .parentCollectionValue => "ParentCollectionValue"
  | .scalar => "Scalar"
  | .collectionPointer => "CollectionPointer"
  | .collectionValue => "CollectionValue"
  | .countedCollectionPointer => "CountedCollectionPointer"
  | .countedCollectionValue => "CountedCollectionValue"
  | .countedScalar => "CountedScalar"

end Shape

end TypedColumns
