import TypedColumns.Schema.Basic

/-!
# Node specifications

A schema is built from specifications, which refer to other nodes by name.  The references may point forwards and
backwards; they are settled once all names are known.

* `Spec` -- one node to be, with `Spec.scalar`, `Spec.object`, `Spec.leaves` and `Spec.ofDescriptor`.
* `SchemaError` -- a repeated name, a reference to itself, a reference to no node.
* `Spec.enterAll`, `Spec.linkAll`, `linkedChildren` -- the three passes: the names are entered in a table, the references
  are settled by it, and every node is entered in the list of the one that it lies in.
* `NodeGraph.build`, `Schema.ofSpecs` -- what the passes make of some specifications, or the first thing wrong with them;
  and the same as a schema.
-/

namespace TypedColumns

/-- A node to be: like a node, but other nodes are referred to by name. -/
structure Spec where
  name : String
  type : String
  source : SourceId
  parent : Option (String × UInt64)
  count : Option String
  elements : Elements
  structured : Bool
  members : List Member
deriving DecidableEq, Repr

namespace Spec

/-- A single value of the primary source, without members. -/
def scalar (name type : String) : Spec := ⟨name, type, .primary, none, none, .single, false, []⟩

/-- An object that is walked member by member. -/
def object (name type : String) (members : List Member) : Spec :=
  { scalar name type with structured := true, members := members }

/-- An object whose leaves are matched by their whole names. -/
def leaves (name type : String) (members : List Member) : Spec := { scalar name type with members := members }

/-- An object laid out as a descriptor says; a type without layout gives an object without members. -/
def ofDescriptor (name : String) (d : Descriptor) : Spec := object name d.name (d.members?.getD [])

end Spec

/-- What a specification refers to another node for. -/
inductive Role where
  | parent
  | count
deriving DecidableEq, Repr

/-- The word for a role. -/
def Role.text : Role → String
  | .parent => "parent"
  | .count => "count"

/-- What is wrong with a list of specifications. -/
inductive SchemaError where
  | duplicateNode (name : String)
  | unknownReference (node : String) (role : Role) (target : String)
  | selfReference (node : String)
deriving DecidableEq, Repr

/-- The text of a schema error. -/
def SchemaError.message : SchemaError → String
  | .duplicateNode name => s!"duplicate node name: {name}"
  | .unknownReference node role target => s!"node {node} refers to unknown {role.text} node {target}"
  | .selfReference node => s!"node {node} cannot be its own parent or count"

/-! ### The table of names -/

namespace NameTable

variable {t : NameTable} {names : List String}

@[simp]
theorem lists_empty : empty.Lists [] := by
  intro name id
  simp [empty]

/-- A name that is new to the table of a list stands behind the list. -/
theorem Lists.insert (h : t.Lists names) {name : String} (hnew : t.find? name = none) :
    (t.insert name ⟨names.length⟩).Lists (names ++ [name]) := by
  rintro other ⟨i⟩
  have hother := h other ⟨i⟩
  rw [find?_insert, List.getElem?_append]
  by_cases hlt : i < names.length
  · rw [if_pos hlt, ← hother]
    by_cases hname : other = name
    · rw [if_pos hname, hname, hnew]
      simp
      omega
    · rw [if_neg hname]
  · rw [List.getElem?_eq_none (Nat.le_of_not_lt hlt)] at hother
    rw [if_neg hlt, List.getElem?_singleton]
    by_cases hname : other = name
    · rw [if_pos hname, hname]
      simp
      omega
    · rw [if_neg hname, hother]
      simp
      intro _ hsame
      exact hname hsame.symm

/-- A table lists distinct names only. -/
theorem Lists.nodup (h : t.Lists names) : names.Nodup := by
  refine List.pairwise_iff_getElem.2 ?_
  intro i j hi hj hij hsame
  have hfirst := (h _ ⟨i⟩).2 (List.getElem?_eq_getElem hi)
  have hsecond := (h _ ⟨j⟩).2 (List.getElem?_eq_getElem hj)
  rw [hsame, hsecond] at hfirst
  cases hfirst
  exact Nat.lt_irrefl _ hij

end NameTable

/-- Enters the names of specifications, of which the first stands at the given position.  A name that is in the table
already is refused. -/
def Spec.enterAll : List Spec → Nat → NameTable → Except SchemaError NameTable
  | [], _, t => .ok t
  | s :: ss, i, t =>
    match t.find? s.name with
    | some _ => .error (.duplicateNode s.name)
    | none => enterAll ss (i + 1) (t.insert s.name ⟨i⟩)

theorem Spec.lists_of_enterAll {specs : List Spec} {seen : List String} {t u : NameTable} (ht : t.Lists seen)
    (h : enterAll specs seen.length t = .ok u) : u.Lists (seen ++ specs.map Spec.name) := by
  induction specs generalizing seen t with
  | nil =>
      cases h
      simpa using ht
  | cons s ss ih =>
      unfold enterAll at h
      split at h
      · cases h
      · rename_i hnew
        have hrest := ih (ht.insert hnew) (by simpa using h)
        simpa using hrest

/-! ### Settling references -/

/-- The node that `node` refers to as `target`, by the table of names. -/
def settle (t : NameTable) (node : String) (role : Role) (target : String) : Except SchemaError NodeId :=
  if node = target then .error (.selfReference node)
  else
    match t.find? target with
    | some id => .ok id
    | none => .error (.unknownReference node role target)

theorem settle_eq_ok {t : NameTable} {node target : String} {role : Role} {id : NodeId}
    (h : settle t node role target = .ok id) : t.find? target = some id ∧ node ≠ target := by
  unfold settle at h
  split at h
  · cases h
  · rename_i hne
    split at h
    · rename_i i hi
      cases h
      exact ⟨hi, hne⟩
    · cases h

namespace Spec

/-- The parent of a specification, settled. -/
def settledParent (t : NameTable) (s : Spec) : Except SchemaError (Option Placement) :=
  match s.parent with
  | none => .ok none
  | some (target, offset) =>
    match settle t s.name .parent target with
    | .ok id => .ok (some ⟨id, offset⟩)
    | .error e => .error e

/-- The count of a specification, settled. -/
def settledCount (t : NameTable) (s : Spec) : Except SchemaError (Option NodeId) :=
  match s.count with
  | none => .ok none
  | some target =>
    match settle t s.name .count target with
    | .ok id => .ok (some id)
    | .error e => .error e

/-- The node of a specification by a table of names, its parent settled before its count. -/
def link (t : NameTable) (s : Spec) : Except SchemaError Node :=
  match s.settledParent t with
  | .error e => .error e
  | .ok parent =>
    match s.settledCount t with
    | .error e => .error e
    | .ok count => .ok ⟨s.name, s.type, s.source, parent, count, s.elements, s.structured, s.members⟩

theorem settle_of_settledParent {t : NameTable} {s : Spec} {p : Placement}
    (h : s.settledParent t = .ok (some p)) : ∃ target, settle t s.name .parent target = .ok p.node := by
  unfold settledParent at h
  split at h
  · cases h
  · rename_i target offset _
    split at h
    · rename_i id hid
      cases h
      exact ⟨target, hid⟩
    · cases h

theorem settle_of_settledCount {t : NameTable} {s : Spec} {id : NodeId}
    (h : s.settledCount t = .ok (some id)) : ∃ target, settle t s.name .count target = .ok id := by
  unfold settledCount at h
  split at h
  · cases h
  · rename_i target _
    split at h
    · rename_i i hi
      cases h
      exact ⟨target, hi⟩
    · cases h

theorem name_of_link {t : NameTable} {s : Spec} {n : Node} (h : s.link t = .ok n) : n.name = s.name := by
  unfold link at h
  split at h
  · cases h
  · split at h
    · cases h
    · cases h
      rfl

theorem settle_of_link {t : NameTable} {s : Spec} {n : Node} (h : s.link t = .ok n) {r : NodeId}
    (hr : r ∈ n.references) : ∃ role target, settle t s.name role target = .ok r := by
  unfold link at h
  split at h
  · cases h
  · rename_i parent hp
    split at h
    · cases h
    · rename_i count hc
      cases h
      simp only [Node.references, List.mem_append, Option.mem_toList, Option.map_eq_some_iff] at hr
      rcases hr with ⟨p, rfl, rfl⟩ | rfl
      · obtain ⟨target, ht⟩ := settle_of_settledParent hp
        exact ⟨.parent, target, ht⟩
      · obtain ⟨target, ht⟩ := settle_of_settledCount hc
        exact ⟨.count, target, ht⟩

/-- The nodes of all specifications, or the error of the first that cannot be linked. -/
def linkAll (t : NameTable) : List Spec → Except SchemaError (List Node)
  | [] => .ok []
  | s :: ss =>
    match s.link t with
    | .error e => .error e
    | .ok n =>
      match linkAll t ss with
      | .error e => .error e
      | .ok ns => .ok (n :: ns)

theorem linkAll_eq_ok {t : NameTable} {specs : List Spec} {nodes : List Node}
    (h : linkAll t specs = .ok nodes) :
    nodes.map Node.name = specs.map Spec.name ∧
      ∀ (i : Nat) (n : Node), nodes[i]? = some n → ∃ s, specs[i]? = some s ∧ s.link t = .ok n := by
  induction specs generalizing nodes with
  | nil =>
      cases h
      exact ⟨rfl, by simp⟩
  | cons s ss ih =>
      unfold linkAll at h
      split at h
      · cases h
      · rename_i n hn
        split at h
        · cases h
        · rename_i ns hns
          cases h
          obtain ⟨hnames, hlinks⟩ := ih hns
          refine ⟨by simp [hnames, name_of_link hn], ?_⟩
          intro i m hm
          cases i with
          | zero =>
              simp only [List.getElem?_cons_zero, Option.some.injEq] at hm
              exact ⟨s, by simp, hm ▸ hn⟩
          | succ i =>
              simp only [List.getElem?_cons_succ] at hm ⊢
              exact hlinks i m hm

end Spec

/-! ### The passes -/

/-- What the passes make of a list of specifications: a repeated name is refused first, then, in order, the first
specification with a reference that cannot be settled. -/
def NodeGraph.build (specs : List Spec) : Except SchemaError NodeGraph :=
  match Spec.enterAll specs 0 .empty with
  | .error e => .error e
  | .ok names =>
    match Spec.linkAll names specs with
    | .error e => .error e
    | .ok nodes => .ok ⟨nodes, names, linkedChildren nodes⟩

theorem NodeGraph.build_eq_ok {specs : List Spec} {g : NodeGraph} (h : build specs = .ok g) :
    Spec.enterAll specs 0 .empty = .ok g.names ∧ Spec.linkAll g.names specs = .ok g.nodes ∧
      g.childLists = linkedChildren g.nodes := by
  unfold build at h
  split at h
  · cases h
  · rename_i names hnames
    split at h
    · cases h
    · rename_i nodes hnodes
      cases h
      exact ⟨hnames, hnodes, rfl⟩

theorem NodeGraph.indexed_of_build {specs : List Spec} {g : NodeGraph} (h : build specs = .ok g) :
    g.names.Lists (g.nodes.map Node.name) := by
  obtain ⟨henter, hlink, -⟩ := build_eq_ok h
  rw [(Spec.linkAll_eq_ok hlink).1]
  exact Spec.lists_of_enterAll NameTable.lists_empty henter

theorem NodeGraph.linked_of_build {specs : List Spec} {g : NodeGraph} (h : build specs = .ok g) :
    WellLinked g.nodes := by
  obtain ⟨-, hlink, -⟩ := build_eq_ok h
  have hlists := indexed_of_build h
  refine ⟨hlists.nodup, ?_⟩
  intro i n hn r hr
  obtain ⟨s, -, hs⟩ := (Spec.linkAll_eq_ok hlink).2 i n hn
  obtain ⟨role, target, ht⟩ := Spec.settle_of_link hs hr
  obtain ⟨hfind, hne⟩ := settle_eq_ok ht
  have htarget := (hlists target r).1 hfind
  rw [List.getElem?_map] at htarget
  obtain ⟨m, hm, rfl⟩ := Option.map_eq_some_iff.1 htarget
  refine ⟨(List.getElem?_eq_some_iff.1 hm).1, ?_⟩
  intro hri
  rw [hri, hn] at hm
  cases hm
  exact hne (Spec.name_of_link hs).symm

/-- The schema of a list of specifications. -/
def Schema.ofSpecs (specs : List Spec) : Except SchemaError Schema :=
  match h : NodeGraph.build specs with
  | .error e => .error e
  | .ok g => .ok ⟨g, NodeGraph.linked_of_build h, NodeGraph.indexed_of_build h⟩

end TypedColumns
