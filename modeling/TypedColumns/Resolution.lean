import TypedColumns.Event
import TypedColumns.Memory.PointerChain
import TypedColumns.Schema.Basic
import TypedColumns.Types.Agreement

/-!
# Path resolution

What a column path stands for in a schema: a whole node, a leaf of a flat node, or a value that is reached by walking
the members of a structured node.

* `Access`, `Resolution` -- the three ways to get from a node's object to the value, and a resolved path.
* `typeChecked` -- the stored type under a name, known and agreeing with the request.
* `Walk`, `Walk.step`, `walkMembers` -- the member walk, which adds up offsets and starts a new hop at every pointer.
* `Schema.owner?` -- the node that owns a dotted path: of all readings, the first whose object is a node.
* `Schema.resolve` -- the resolution.  A leaf wins over a node called like the whole path, and that over a member walk.
-/

namespace TypedColumns

/-- How to get from the object of a node to the value of a column. -/
inductive Access where
  /-- Along a chain of pointers. -/
  | chase (chain : PointerChain)
  /-- At the offset of a leaf. -/
  | field (node leaf : String) (offset : UInt64)
  /-- The object is the value. -/
  | whole
deriving DecidableEq, Repr

/-- The chain to follow, where there is one. -/
def Access.chain? : Access → Option PointerChain
  | .chase chain => some chain
  | _ => none

/-- The address of the value, given that of the object. -/
def Access.locate (a : Access) (m : Image) (base : Address) : Except MemoryError Address :=
  match a with
  | .chase chain => chain.follow m base
  | .field _ _ offset => base.plus? offset
  | .whole => .ok base

/-- What a path stands for: a node, the name of the type stored there, and the way from the one to the other. -/
structure Resolution where
  node : NodeId
  stored : String
  access : Access
deriving DecidableEq, Repr

/-- The stored type under a name, when the catalog knows it and it serves the request. -/
def typeChecked (types : Catalog) (path : String) (requested : Option Descriptor) (type : String) :
    Except SetupError Descriptor :=
  match types.resolve type with
  | none => .error (.unknownStoredType path type)
  | some stored =>
    match requested with
    | none => .ok stored
    | some wanted =>
      if (types.agreement wanted stored).isCompatible then .ok stored
      else .error (.mismatchType path stored.name wanted.name)

/-! ### Walking members -/

/-- How far a member walk has come: the offsets of the pointers passed, the offset since the last of them, and the
type of the member reached. -/
structure Walk where
  hops : List UInt64
  offset : UInt64
  type : String
deriving DecidableEq, Repr

/-- A walk that has not left its object, whose type is given. -/
def Walk.start (type : String) : Walk := ⟨[], 0, type⟩

/-- The chain that a walk amounts to. -/
def Walk.chain (w : Walk) : PointerChain := ⟨w.hops, w.offset⟩

/-- A walk one member further, unless the offset no longer fits a word. -/
def Walk.step (w : Walk) (m : Member) : Option Walk :=
  if w.offset.toNat + m.offset.toNat < UInt64.size then
    if m.pointer then some ⟨w.hops ++ [w.offset + m.offset], 0, m.type⟩
    else some ⟨w.hops, w.offset + m.offset, m.type⟩
  else none

/-- Walks along the named members, of which the first belongs to the given layout and every other to the class of the
one before. -/
def walkMembers (types : Catalog) (path : String) : List Member → List String → Walk → Except SetupError Walk
  | _, [], w => .ok w
  | layout, name :: names, w =>
    match findMember? layout name with
    | none => .error (.missingSubColumn path)
    | some m =>
      match w.step m with
      | none => .error (.internal ("offset overflow in " ++ path))
      | some w =>
        match names with
        | [] => .ok w
        | next :: rest =>
          match (types.resolve m.type).bind Descriptor.members? with
          | none => .error (.missingSubColumn path)
          | some layout => walkMembers types path layout (next :: rest) w

namespace Schema

/-! ### Dotted paths -/

/-- The node that a reading's object names.  Where the member path is longer than one, the object may also be written
with a dot behind it. -/
def ownerOf? (s : Schema) (r : Path.Reading) : Option NodeId :=
  match r.members with
  | [_] => s.lookup r.object
  | _ => s.lookupObject r.object

/-- The node that owns a dotted path, with the members named behind it. -/
def owner? (s : Schema) (path : String) : Option (NodeId × List String) :=
  (Path.readings path).findSome? (fun r => (s.ownerOf? r).map (fun id => (id, r.members)))

/-- Resolves a path as members of a structured node. -/
def resolveWalk (types : Catalog) (path : String) (requested : Option Descriptor) (id : NodeId) (node : Node)
    (members : List String) : Except SetupError Resolution :=
  match walkMembers types path node.members members (Walk.start node.type) with
  | .error e => .error e
  | .ok w =>
    match typeChecked types path requested w.type with
    | .error e => .error e
    | .ok stored => .ok ⟨id, stored.name, .chase w.chain⟩

/-- Resolves a path as a leaf of a flat node. -/
def resolveLeaf (types : Catalog) (path : String) (requested : Option Descriptor) (id : NodeId) (node : Node)
    (members : List String) : Except SetupError Resolution :=
  match node.member? (Path.dotted members) with
  | none => .error (.missingSubColumn path)
  | some leaf =>
    match typeChecked types path requested leaf.type with
    | .error e => .error e
    | .ok stored => .ok ⟨id, stored.name, .field node.name leaf.name leaf.offset⟩

/-- Resolves a dotted path as something inside the node that owns it. -/
def resolveInside (s : Schema) (types : Catalog) (path : String) (requested : Option Descriptor) :
    Except SetupError Resolution :=
  match s.owner? path with
  | none => .error (.missingSubColumn path)
  | some (id, members) =>
    match s.get? id with
    | none => .error (.missingSubColumn path)
    | some node =>
      if node.structured then resolveWalk types path requested id node members
      else resolveLeaf types path requested id node members

/-! ### Whole paths -/

/-- Resolves a path as the node that it names, if it names one. -/
def resolveWhole (s : Schema) (types : Catalog) (path : String) (requested : Option Descriptor)
    (literal : Option NodeId) : Except SetupError Resolution :=
  match literal with
  | none => .error (.missingColumn path)
  | some id =>
    match s.get? id with
    | none => .error (.missingColumn path)
    | some node =>
      match typeChecked types path requested node.type with
      | .error e => .error e
      | .ok stored => .ok ⟨id, stored.name, .whole⟩

/-- What a path stands for, and what is worth telling about the choice.  A path without dots can only name a node.  A
dotted one is looked for inside the node that owns it; what is found there gives way to a node called like the whole
path if it is a member walk or an error. -/
def resolve (s : Schema) (types : Catalog) (path : String) (requested : Option Descriptor) :
    Except SetupError Resolution × List Event :=
  let literal := s.find path
  if Path.isDotted path then
    match s.resolveInside types path requested, literal with
    | .ok r, some id =>
      if r.access.chain?.isSome then (s.resolveWhole types path requested literal, [.walkIgnored path id])
      else (.ok r, [])
    | .error e, some _ => (s.resolveWhole types path requested literal, [.walkFailed path e])
    | inside, none => (inside, [])
  else (s.resolveWhole types path requested literal, [])

end Schema

end TypedColumns
