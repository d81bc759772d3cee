import Mathlib.Data.List.Sort
import TypedColumns.Proofs.PathSearch
import TypedColumns.Proofs.TypedefChains
import TypedColumns.Schema.Spec

/-!
# Schemas from specifications

Which lists of specifications make a schema, what the schema is then, and which of several faults is reported.  The three
passes are taken one by one: what each makes of its input, and when it refuses it.

* `Spec.enterAll_eq_ok_iff`, `Spec.enterAll_eq_error_iff` -- the table of distinct names, or the first name that repeats
  an earlier one.
* `Spec.RefersWell`, `Spec.ReferenceFault` -- a reference to another specification of the list, and what is wrong with
  one that is not.
* `Spec.link_eq_error_iff`, `Spec.linkAll_eq_error_iff` -- the first reference that cannot be settled.
* `getElem?_linkChildren`, `getElem?_linkedChildren` -- what the last pass enters in the list of every node.
* `WellSpecified` -- distinct names, and references to others of the list only.
* `Node.Realizes`, `NodeGraph.Realizes` -- the node of a specification, and the graph of a list of them; a list has at
  most one (`NodeGraph.Realizes.unique`).
* `FirstFault` -- the fault that comes first.
* `Schema.ofSpecs_iff` -- **the well-specified lists make a schema, whose graph is the one that realizes them; any other
  list is refused for its first fault.**
-/

namespace TypedColumns

/-! ### The table of names -/

namespace NameTable.Lists

variable {t u : NameTable} {names : List String} {name : String}

/-- A list has one table. -/
theorem unique (ht : t.Lists names) (hu : u.Lists names) : t = u := by
  have hfind : t.find? = u.find? := by
    funext name
    apply Option.ext
    intro id
    rw [ht, hu]
  cases t
  cases u
  exact congrArg NameTable.mk hfind

theorem find?_eq_none_iff (h : t.Lists names) : t.find? name = none ↔ name ∉ names := by
  rw [Option.eq_none_iff_forall_ne_some, List.mem_iff_getElem?]
  constructor
  · rintro hnone ⟨i, hi⟩
    exact hnone ⟨i⟩ ((h name ⟨i⟩).2 hi)
  · intro hnotMem id hfind
    exact hnotMem ⟨id.index, (h name id).1 hfind⟩

end NameTable.Lists

namespace Spec

variable {specs : List Spec} {seen : List String} {t u : NameTable}

theorem enterAll_cons_of_new {s : Spec} {ss : List Spec} {i : Nat} (h : t.find? s.name = none) :
    enterAll (s :: ss) i t = enterAll ss (i + 1) (t.insert s.name ⟨i⟩) := by
  rw [enterAll, h]

/-- The name of the first specification that repeats one seen before the list or earlier in it.  The induction is on the
list, whose names join those seen one by one. -/
theorem enterAll_eq_error_iff {e : SchemaError} (ht : t.Lists seen) :
    enterAll specs seen.length t = .error e ↔
      ∃ before s after, specs = before ++ s :: after ∧ (seen ++ before.map Spec.name).Nodup ∧
        s.name ∈ seen ++ before.map Spec.name ∧ e = .duplicateNode s.name := by
  induction specs generalizing seen t with
  | nil => simp [enterAll]
  | cons s ss ih =>
      have hjoin : ∀ before : List Spec, seen ++ (s :: before).map Spec.name =
          seen ++ [s.name] ++ before.map Spec.name := by simp
      cases hfind : t.find? s.name with
      | some id =>
          have hmem : s.name ∈ seen := by
            by_contra hnotMem
            rw [ht.find?_eq_none_iff.2 hnotMem] at hfind
            cases hfind
          rw [enterAll, hfind]
          constructor
          · intro h
            cases h
            exact ⟨[], s, ss, rfl, by simpa using ht.nodup, by simpa using hmem, rfl⟩
          · rintro ⟨before, r, after, hsplit, hnodup, -, rfl⟩
            cases before with
            | nil =>
                cases hsplit
                rfl
            | cons b before =>
                cases hsplit
                rw [hjoin] at hnodup
                have hrepeats := (List.nodup_append.1 (List.nodup_append.1 hnodup).1).2.2 s.name hmem s.name
                exact absurd rfl (hrepeats List.mem_cons_self)
      | none =>
          have hrest := ih (ht.insert hfind)
          rw [List.length_append, List.length_singleton] at hrest
          rw [enterAll_cons_of_new hfind, hrest]
          constructor
          · rintro ⟨before, r, after, rfl, hnodup, hmem, rfl⟩
            exact ⟨s :: before, r, after, rfl, by rwa [hjoin], by rwa [hjoin], rfl⟩
          · rintro ⟨before, r, after, hsplit, hnodup, hmem, rfl⟩
            cases before with
            | nil =>
                cases hsplit
                rw [List.map_nil, List.append_nil] at hmem
                exact absurd hmem (ht.find?_eq_none_iff.1 hfind)
            | cons b before =>
                cases hsplit
                rw [hjoin] at hnodup hmem
                exact ⟨before, r, after, rfl, hnodup, hmem, rfl⟩

/-- The table of the names, if they are distinct. -/
theorem enterAll_eq_ok_iff : enterAll specs 0 .empty = .ok t ↔ t.Lists (specs.map Spec.name) := by
  have hempty := NameTable.lists_empty
  constructor
  · exact lists_of_enterAll hempty
  · intro ht
    cases henter : enterAll specs 0 .empty with
    | error e =>
        obtain ⟨before, s, after, hsplit, -, hmem, -⟩ := (enterAll_eq_error_iff hempty).1 henter
        have hnodup := ht.nodup
        rw [hsplit, List.map_append, List.map_cons] at hnodup
        exact absurd rfl ((List.nodup_append.1 hnodup).2.2 s.name hmem s.name List.mem_cons_self)
    | ok u => rw [(lists_of_enterAll hempty henter).unique ht]

end Spec

/-! ### References -/

namespace Spec

variable {names : List String} {s : Spec} {role : Role}

/-- The name that a specification refers to in a role. -/
def reference? (s : Spec) : Role → Option String
  | .parent => s.parent.map Prod.fst
  | .count => s.count

/-- In this role the specification refers, if at all, to another one of the given names. -/
def RefersWell (names : List String) (s : Spec) (role : Role) : Prop :=
  ∀ target, s.reference? role = some target → target ∈ names ∧ target ≠ s.name

/-- What is wrong with the reference of a specification in a role. -/
inductive ReferenceFault (names : List String) (s : Spec) (role : Role) : SchemaError → Prop
  | itself : s.reference? role = some s.name → ReferenceFault names s role (.selfReference s.name)
  | unknown {target : String} : s.reference? role = some target → target ≠ s.name → target ∉ names →
      ReferenceFault names s role (.unknownReference s.name role target)

theorem refersWell_iff : s.RefersWell names role ↔ ∀ e, ¬ s.ReferenceFault names role e := by
  constructor
  · intro h e hfault
    cases hfault with
    | itself href => exact (h s.name href).2 rfl
    | unknown href _ hunknown => exact hunknown (h _ href).1
  · intro h target href
    by_cases hself : target = s.name
    · subst hself
      exact absurd (.itself href) (h _)
    · by_cases hmem : target ∈ names
      · exact ⟨hmem, hself⟩
      · exact absurd (.unknown href hself hmem) (h _)

/-- The fault of a specification: that of its parent, or else that of its count. -/
inductive Fault (names : List String) (s : Spec) (e : SchemaError) : Prop
  | parent : s.ReferenceFault names .parent e → Fault names s e
  | count : s.RefersWell names .parent → s.ReferenceFault names .count e → Fault names s e

end Spec

/-! ### Settled references -/

namespace Spec

variable {t : NameTable} {s : Spec} {e : SchemaError}

theorem settledParent_eq_ok_iff {placement : Option Placement} :
    s.settledParent t = .ok placement ↔
      Option.Rel (fun p q => settle t s.name .parent p.1 = .ok q.node ∧ q.offset = p.2) s.parent placement := by
  rw [settledParent]
  cases s.parent with
  | none => cases placement <;> simp
  | some p =>
      cases hsettle : settle t s.name .parent p.1 with
      | error e' => cases placement <;> simp [hsettle]
      | ok id =>
          cases placement with
          | none => simp [hsettle]
          | some q =>
              cases q
              simp [hsettle, eq_comm]

theorem settledCount_eq_ok_iff {count : Option NodeId} :
    s.settledCount t = .ok count ↔
      Option.Rel (fun target id => settle t s.name .count target = .ok id) s.count count := by
  rw [settledCount]
  cases s.count with
  | none => cases count <;> simp
  | some target =>
      cases hsettle : settle t s.name .count target with
      | error e' => cases count <;> simp [hsettle]
      | ok id => cases count <;> simp [hsettle]

theorem link_eq_ok_iff {n : Node} :
    s.link t = .ok n ↔
      ∃ placement count, s.settledParent t = .ok placement ∧ s.settledCount t = .ok count ∧
        n = ⟨s.name, s.type, s.source, placement, count, s.elements, s.structured, s.members⟩ := by
  rw [link]
  cases s.settledParent t with
  | error e' => simp
  | ok placement =>
      cases s.settledCount t with
      | error e' => simp
      | ok count => simp [eq_comm]

theorem linkAll_cons_eq_ok_iff {ss : List Spec} {nodes : List Node} :
    linkAll t (s :: ss) = .ok nodes ↔
      ∃ n ns, s.link t = .ok n ∧ linkAll t ss = .ok ns ∧ nodes = n :: ns := by
  rw [linkAll]
  cases s.link t with
  | error e' => simp
  | ok n => cases linkAll t ss <;> simp [eq_comm]

theorem linkAll_cons_eq_error_iff {ss : List Spec} :
    linkAll t (s :: ss) = .error e ↔
      s.link t = .error e ∨ ((∃ n, s.link t = .ok n) ∧ linkAll t ss = .error e) := by
  rw [linkAll]
  cases s.link t with
  | error e' => simp
  | ok n => cases linkAll t ss <;> simp

end Spec

/-! ### References that cannot be settled -/

section Tables

variable {t : NameTable} {names : List String} (ht : t.Lists names)
include ht

theorem settle_eq_error_iff {node target : String} {role : Role} {e : SchemaError} :
    settle t node role target = .error e ↔
      (target = node ∧ e = .selfReference node) ∨
        (target ≠ node ∧ target ∉ names ∧ e = .unknownReference node role target) := by
  rw [settle, ← ht.find?_eq_none_iff]
  by_cases hself : node = target
  · simp [hself, eq_comm]
  · rw [if_neg hself]
    have hne : target ≠ node := Ne.symm hself
    cases t.find? target with
    | some id => simp [hne]
    | none => simp [hne, eq_comm]

namespace Spec

variable {s : Spec} {role : Role} {e : SchemaError}

/-- A reference is refused for its fault. -/
theorem referenceFault_iff :
    s.ReferenceFault names role e ↔
      ∃ target, s.reference? role = some target ∧ settle t s.name role target = .error e := by
  simp only [settle_eq_error_iff ht]
  constructor
  · intro h
    cases h with
    | itself href => exact ⟨s.name, href, Or.inl ⟨rfl, rfl⟩⟩
    | unknown href hself hunknown => exact ⟨_, href, Or.inr ⟨hself, hunknown, rfl⟩⟩
  · rintro ⟨target, href, ⟨rfl, rfl⟩ | ⟨hself, hunknown, rfl⟩⟩
    · exact .itself href
    · exact .unknown href hself hunknown

theorem settledParent_eq_error_iff : s.settledParent t = .error e ↔ s.ReferenceFault names .parent e := by
  rw [referenceFault_iff ht, settledParent, reference?]
  cases s.parent with
  | none => simp
  | some p =>
      cases hsettle : settle t s.name .parent p.1 with
      | ok id => simp [hsettle]
      | error e' => simp [hsettle]

theorem settledCount_eq_error_iff : s.settledCount t = .error e ↔ s.ReferenceFault names .count e := by
  rw [referenceFault_iff ht, settledCount, reference?]
  cases s.count with
  | none => simp
  | some target =>
      cases hsettle : settle t s.name .count target with
      | ok id => simp [hsettle]
      | error e' => simp [hsettle]

theorem exists_settledParent_iff : (∃ p, s.settledParent t = .ok p) ↔ s.RefersWell names .parent := by
  rw [refersWell_iff]
  simp only [← settledParent_eq_error_iff ht]
  cases s.settledParent t <;> simp

theorem exists_settledCount_iff : (∃ id, s.settledCount t = .ok id) ↔ s.RefersWell names .count := by
  rw [refersWell_iff]
  simp only [← settledCount_eq_error_iff ht]
  cases s.settledCount t <;> simp

theorem exists_link_iff : (∃ n, s.link t = .ok n) ↔ ∀ role, s.RefersWell names role := by
  simp only [link_eq_ok_iff]
  constructor
  · rintro ⟨n, placement, count, hparent, hcount, -⟩ role
    cases role with
    | parent => exact (exists_settledParent_iff ht).1 ⟨placement, hparent⟩
    | count => exact (exists_settledCount_iff ht).1 ⟨count, hcount⟩
  · intro h
    obtain ⟨placement, hparent⟩ := (exists_settledParent_iff ht).2 (h .parent)
    obtain ⟨count, hcount⟩ := (exists_settledCount_iff ht).2 (h .count)
    exact ⟨_, placement, count, hparent, hcount, rfl⟩

theorem link_eq_error_iff : s.link t = .error e ↔ s.Fault names e := by
  have hcases : s.link t = .error e ↔ s.settledParent t = .error e ∨
      ((∃ p, s.settledParent t = .ok p) ∧ s.settledCount t = .error e) := by
    rw [link]
    cases s.settledParent t with
    | error e' => simp
    | ok placement => cases s.settledCount t <;> simp
  rw [hcases, settledParent_eq_error_iff ht, exists_settledParent_iff ht, settledCount_eq_error_iff ht]
  constructor
  · rintro (hparent | ⟨hwell, hcount⟩)
    · exact .parent hparent
    · exact .count hwell hcount
  · intro h
    cases h with
    | parent hparent => exact Or.inl hparent
    | count hwell hcount => exact Or.inr ⟨hwell, hcount⟩

theorem exists_linkAll_iff {specs : List Spec} :
    (∃ nodes, linkAll t specs = .ok nodes) ↔ ∀ s ∈ specs, ∀ role, s.RefersWell names role := by
  induction specs with
  | nil => simp [linkAll]
  | cons s ss ih =>
      rw [List.forall_mem_cons, ← exists_link_iff ht, ← ih]
      simp only [linkAll_cons_eq_ok_iff]
      constructor
      · rintro ⟨_, n, ns, hn, hns, -⟩
        exact ⟨⟨n, hn⟩, ns, hns⟩
      · rintro ⟨⟨n, hn⟩, ns, hns⟩
        exact ⟨n :: ns, n, ns, hn, hns, rfl⟩

/-- The fault of the first specification that has one. -/
theorem linkAll_eq_error_iff {specs : List Spec} :
    linkAll t specs = .error e ↔
      ∃ before s after, specs = before ++ s :: after ∧ (∀ r ∈ before, ∀ role, r.RefersWell names role) ∧
        s.Fault names e := by
  induction specs with
  | nil => simp [linkAll]
  | cons s ss ih =>
      rw [linkAll_cons_eq_error_iff, link_eq_error_iff ht, exists_link_iff ht, ih]
      constructor
      · rintro (hfault | ⟨hs, before, r, after, rfl, hwell, hfault⟩)
        · exact ⟨[], s, ss, rfl, by simp, hfault⟩
        · exact ⟨s :: before, r, after, rfl, List.forall_mem_cons.2 ⟨hs, hwell⟩, hfault⟩
      · rintro ⟨before, r, after, hsplit, hwell, hfault⟩
        cases before with
        | nil =>
            cases hsplit
            exact Or.inl hfault
        | cons u before =>
            cases hsplit
            obtain ⟨hs, hwell⟩ := List.forall_mem_cons.1 hwell
            exact Or.inr ⟨hs, before, r, after, rfl, hwell, hfault⟩

end Spec

end Tables

/-! ### Children -/

section Children

variable {nodes : List Node}

/-- The node at a position lies in the node of this number. -/
def LiesIn (nodes : List Node) (i : Nat) (id : NodeId) : Prop :=
  ∃ n p, nodes[i]? = some n ∧ n.parent = some p ∧ p.node = id

theorem liesIn_iff {i : Nat} {id : NodeId} :
    LiesIn nodes i id ↔ ∃ p, nodes[i]?.bind Node.parent = some p ∧ p.node = id := by
  constructor
  · rintro ⟨n, p, hn, hp, hid⟩
    exact ⟨p, Option.bind_eq_some_iff.2 ⟨n, hn, hp⟩, hid⟩
  · rintro ⟨p, hbind, hid⟩
    obtain ⟨n, hn, hp⟩ := Option.bind_eq_some_iff.1 hbind
    exact ⟨n, p, hn, hp, hid⟩

instance (i : Nat) (id : NodeId) : Decidable (LiesIn nodes i id) := decidable_of_iff _ liesIn_iff.symm

/-- The pass over some positions enters behind each list those of them that lie in its node, in their order. -/
theorem getElem?_linkChildren (is : List Nat) (lists : List (List NodeId)) (id : NodeId) :
    (linkChildren nodes is lists)[id.index]? =
      lists[id.index]?.map (· ++ (is.filter (fun i => LiesIn nodes i id)).map NodeId.mk) := by
  induction is generalizing lists with
  | nil => simp [linkChildren]
  | cons i is ih =>
      rw [linkChildren]
      split
      · rename_i hnone
        have hnot : ¬ LiesIn nodes i id := by
          rw [liesIn_iff, hnone]
          rintro ⟨p, hp, -⟩
          cases hp
        rw [ih, List.filter_cons_of_neg (by simpa using hnot)]
      · rename_i p hp
        rw [ih, List.getElem?_modify]
        by_cases hid : p.node = id
        · have hlies : LiesIn nodes i id := liesIn_iff.2 ⟨p, hp, hid⟩
          rw [List.filter_cons_of_pos (by simpa using hlies)]
          cases lists[id.index]? <;> simp [hid]
        · have hnot : ¬ LiesIn nodes i id := by
            rw [liesIn_iff, hp]
            rintro ⟨q, hq, hqid⟩
            cases hq
            exact hid hqid
          have hindex : p.node.index ≠ id.index := fun h => hid (congrArg NodeId.mk h)
          rw [List.filter_cons_of_neg (by simpa using hnot)]
          cases lists[id.index]? <;> simp [hindex]

theorem getElem?_linkedChildren {id : NodeId} (h : id.index < nodes.length) :
    (linkedChildren nodes)[id.index]? =
      some (((List.range nodes.length).filter (fun i => LiesIn nodes i id)).map NodeId.mk) := by
  rw [linkedChildren, getElem?_linkChildren, List.getElem?_map, List.getElem?_eq_getElem h]
  rfl

theorem length_linkChildren (is : List Nat) (lists : List (List NodeId)) :
    (linkChildren nodes is lists).length = lists.length := by
  induction is generalizing lists with
  | nil => rfl
  | cons i is ih =>
      rw [linkChildren]
      split
      · exact ih lists
      · rw [ih, List.length_modify]

theorem length_linkedChildren (nodes : List Node) : (linkedChildren nodes).length = nodes.length := by
  rw [linkedChildren, length_linkChildren, List.length_map]

/-- The list of a node after the pass: the nodes that lie in it, by rising position. -/
theorem mem_of_linkedChildren {id : NodeId} {children : List NodeId}
    (h : (linkedChildren nodes)[id.index]? = some children) :
    (∀ child, child ∈ children ↔ LiesIn nodes child.index id) ∧ children.Pairwise (fun a b => a.index < b.index) := by
  have hlt : id.index < nodes.length := by
    rw [← length_linkedChildren nodes]
    exact (List.getElem?_eq_some_iff.1 h).1
  rw [getElem?_linkedChildren hlt] at h
  cases h
  constructor
  · rintro ⟨i⟩
    rw [List.mem_map]
    simp only [List.mem_filter, List.mem_range, decide_eq_true_eq, NodeId.mk.injEq, exists_eq_right]
    constructor
    · exact And.right
    · intro hlies
      refine ⟨?_, hlies⟩
      obtain ⟨n, -, hn, -, -⟩ := hlies
      exact (List.getElem?_eq_some_iff.1 hn).1
  · rw [List.pairwise_map]
    exact List.pairwise_lt_range.filter _

end Children

/-! ### Lists that make a schema -/

/-- The names are distinct, and every reference is to another specification of the list. -/
structure WellSpecified (specs : List Spec) : Prop where
  distinct : (specs.map Spec.name).Nodup
  refersWell : ∀ s ∈ specs, ∀ role, s.RefersWell (specs.map Spec.name) role

/-- The fault of a list of specifications that comes first: the first name that repeats an earlier one, or else the fault
of the first specification that has one. -/
inductive FirstFault (specs : List Spec) : SchemaError → Prop
  | repeated {before : List Spec} {s : Spec} {after : List Spec} : specs = before ++ s :: after →
      (before.map Spec.name).Nodup → s.name ∈ before.map Spec.name → FirstFault specs (.duplicateNode s.name)
  | reference {before : List Spec} {s : Spec} {after : List Spec} {e : SchemaError} : (specs.map Spec.name).Nodup →
      specs = before ++ s :: after → (∀ t ∈ before, ∀ role, t.RefersWell (specs.map Spec.name) role) →
      s.Fault (specs.map Spec.name) e → FirstFault specs e

/-- The node of a specification: its data, and its parent and its count under the positions of the nodes named. -/
structure Node.Realizes (t : NameTable) (spec : Spec) (n : Node) : Prop where
  name : n.name = spec.name
  type : n.type = spec.type
  source : n.source = spec.source
  elements : n.elements = spec.elements
  structured : n.structured = spec.structured
  members : n.members = spec.members
  parent : Option.Rel (fun p q => t.find? p.1 = some q.node ∧ q.offset = p.2) spec.parent n.parent
  count : Option.Rel (fun target id => t.find? target = some id) spec.count n.count

/-- By one table a specification has one node. -/
theorem Node.Realizes.unique {t : NameTable} {spec : Spec} {n m : Node} (hn : n.Realizes t spec)
    (hm : m.Realizes t spec) : n = m := by
  have hparent : n.parent = m.parent := by
    refine eq_of_rel ?_ hn.parent hm.parent
    rintro p ⟨i, x⟩ ⟨j, y⟩ ⟨hi, rfl⟩ ⟨hj, rfl⟩
    obtain rfl := Option.some.inj (hi.symm.trans hj)
    rfl
  have hcount : n.count = m.count := by
    refine eq_of_rel ?_ hn.count hm.count
    intro target i j hi hj
    exact Option.some.inj (hi.symm.trans hj)
  cases n
  cases m
  obtain ⟨rfl, rfl, rfl, rfl, rfl, rfl, -, -⟩ := hn
  obtain ⟨rfl, rfl, rfl, rfl, rfl, rfl, -, -⟩ := hm
  cases hparent
  cases hcount
  rfl

theorem Node.realizes_of_link {t : NameTable} {spec : Spec} {n : Node} (h : spec.link t = .ok n) :
    n.Realizes t spec := by
  obtain ⟨placement, count, hparent, hcount, rfl⟩ := Spec.link_eq_ok_iff.1 h
  refine ⟨rfl, rfl, rfl, rfl, rfl, rfl, ?_, ?_⟩
  · refine rel_mono ?_ (Spec.settledParent_eq_ok_iff.1 hparent)
    rintro p q ⟨hsettled, hoffset⟩
    exact ⟨(settle_eq_ok hsettled).1, hoffset⟩
  · refine rel_mono ?_ (Spec.settledCount_eq_ok_iff.1 hcount)
    intro target id hsettled
    exact (settle_eq_ok hsettled).1

namespace NodeGraph

variable {specs : List Spec} {g : NodeGraph} {e : SchemaError}

/-- The graph of a list of specifications: it has their nodes in their order, finds exactly their names, each where it
stands in the list, and enters under every node the nodes whose parent it is, each once and in order. -/
structure Realizes (g : NodeGraph) (specs : List Spec) : Prop where
  size : g.nodes.length = specs.length
  node : ∀ (i : Nat) spec, specs[i]? = some spec → ∃ n : Node, g.nodes[i]? = some n ∧ n.Realizes g.names spec
  lookup : ∀ name (id : NodeId), g.names.find? name = some id ↔ (specs[id.index]?).map Spec.name = some name
  lists : g.childLists.length = specs.length
  children : ∀ (id : NodeId) children, g.childLists[id.index]? = some children → ∀ child, child ∈ children ↔
    ∃ (n : Node) (p : Placement), g.nodes[child.index]? = some n ∧ n.parent = some p ∧ p.node = id
  ordered : ∀ children ∈ g.childLists, children.Pairwise (fun a b => a.index < b.index)

theorem build_eq_ok_iff :
    build specs = .ok g ↔
      g.names.Lists (specs.map Spec.name) ∧ Spec.linkAll g.names specs = .ok g.nodes ∧
        g.childLists = linkedChildren g.nodes := by
  rw [← Spec.enterAll_eq_ok_iff]
  constructor
  · exact build_eq_ok
  · rintro ⟨henter, hlink, hchildren⟩
    rw [build, henter]
    simp only [hlink]
    rw [← hchildren]

theorem build_eq_error_iff :
    build specs = .error e ↔
      Spec.enterAll specs 0 .empty = .error e ∨
        ∃ t : NameTable, t.Lists (specs.map Spec.name) ∧ Spec.linkAll t specs = .error e := by
  simp only [← Spec.enterAll_eq_ok_iff]
  rw [build]
  cases Spec.enterAll specs 0 .empty with
  | error e' => simp
  | ok t => cases hlink : Spec.linkAll t specs <;> simp [hlink]

theorem Realizes.indexed (h : g.Realizes specs) : g.names.Lists (specs.map Spec.name) := by
  intro name id
  rw [h.lookup, List.getElem?_map]

/-- A list has at most one graph: the names that are found, the data of the nodes and what lies in what leave no
choice. -/
theorem Realizes.unique {h : NodeGraph} (hg : g.Realizes specs) (hh : h.Realizes specs) : g = h := by
  have hnames : g.names = h.names := hg.indexed.unique hh.indexed
  have hnodes : g.nodes = h.nodes := by
    apply List.ext_getElem (hg.size.trans hh.size.symm)
    intro i hi _
    have hspec := List.getElem?_eq_getElem (hg.size ▸ hi : i < specs.length)
    obtain ⟨n, hn, hns⟩ := hg.node i _ hspec
    obtain ⟨m, hm, hmt⟩ := hh.node i _ hspec
    obtain ⟨_, rfl⟩ := List.getElem?_eq_some_iff.1 hn
    obtain ⟨_, rfl⟩ := List.getElem?_eq_some_iff.1 hm
    exact hns.unique (hnames ▸ hmt)
  have hlists : g.childLists = h.childLists := by
    apply List.ext_getElem (hg.lists.trans hh.lists.symm)
    intro i hi hi'
    have : Std.Antisymm (fun a b : NodeId => a.index < b.index) :=
      ⟨fun _ _ hab hba => absurd hab (Nat.lt_asymm hba)⟩
    have : Std.Irrefl (fun a b : NodeId => a.index < b.index) := ⟨fun _ => Nat.lt_irrefl _⟩
    refine (hg.ordered _ (List.getElem_mem hi)).eq_of_mem_iff (hh.ordered _ (List.getElem_mem hi')) ?_
    intro child
    rw [hg.children ⟨i⟩ _ (List.getElem?_eq_getElem hi), hh.children ⟨i⟩ _ (List.getElem?_eq_getElem hi'), hnodes]
  cases g
  cases h
  cases hnames
  cases hnodes
  cases hlists
  rfl

theorem realizes_of_build (h : build specs = .ok g) : g.Realizes specs := by
  obtain ⟨hnames, hlink, hchildren⟩ := build_eq_ok_iff.1 h
  obtain ⟨hsame, hlinks⟩ := Spec.linkAll_eq_ok hlink
  have hsize : g.nodes.length = specs.length := by
    have hlength := congrArg List.length hsame
    rwa [List.length_map, List.length_map] at hlength
  refine ⟨hsize, ?_, ?_, ?_, ?_, ?_⟩
  · intro i spec hspec
    have hlt : i < g.nodes.length := Nat.lt_of_lt_of_eq (List.getElem?_eq_some_iff.1 hspec).1 hsize.symm
    have hn : g.nodes[i]? = some g.nodes[i] := List.getElem?_eq_getElem hlt
    obtain ⟨spec', hspec', hlinked⟩ := hlinks i g.nodes[i] hn
    obtain rfl := Option.some.inj (hspec.symm.trans hspec')
    exact ⟨g.nodes[i], hn, Node.realizes_of_link hlinked⟩
  · intro name id
    rw [hnames, List.getElem?_map]
  · rw [hchildren, length_linkedChildren, hsize]
  · intro id children hlist child
    rw [hchildren] at hlist
    exact (mem_of_linkedChildren hlist).1 child
  · intro children hmem
    rw [hchildren] at hmem
    obtain ⟨j, hj⟩ := List.mem_iff_getElem?.1 hmem
    have hlist : (linkedChildren g.nodes)[(NodeId.mk j).index]? = some children := hj
    exact (mem_of_linkedChildren hlist).2

theorem exists_build_iff : (∃ g, build specs = .ok g) ↔ WellSpecified specs := by
  simp only [build_eq_ok_iff]
  constructor
  · rintro ⟨g, hnames, hlink, -⟩
    exact ⟨hnames.nodup, (Spec.exists_linkAll_iff hnames).1 ⟨g.nodes, hlink⟩⟩
  · intro h
    have hnames := NameTable.lists_ofNames h.distinct
    obtain ⟨nodes, hlink⟩ := (Spec.exists_linkAll_iff hnames).2 h.refersWell
    exact ⟨⟨nodes, _, linkedChildren nodes⟩, hnames, hlink, rfl⟩

theorem build_eq_error_iff_firstFault : build specs = .error e ↔ FirstFault specs e := by
  rw [build_eq_error_iff]
  constructor
  · rintro (henter | ⟨t, hnames, hlink⟩)
    · obtain ⟨before, s, after, hsplit, hnodup, hmem, rfl⟩ :=
        (Spec.enterAll_eq_error_iff NameTable.lists_empty).1 henter
      exact .repeated hsplit hnodup hmem
    · obtain ⟨before, s, after, hsplit, hwell, hfault⟩ := (Spec.linkAll_eq_error_iff hnames).1 hlink
      exact .reference hnames.nodup hsplit hwell hfault
  · intro h
    cases h with
    | @repeated before s after hsplit hnodup hmem =>
        exact Or.inl ((Spec.enterAll_eq_error_iff NameTable.lists_empty).2
          ⟨before, s, after, hsplit, hnodup, hmem, rfl⟩)
    | reference hdistinct hsplit hwell hfault =>
        have hnames := NameTable.lists_ofNames hdistinct
        exact Or.inr ⟨_, hnames, (Spec.linkAll_eq_error_iff hnames).2 ⟨_, _, _, hsplit, hwell, hfault⟩⟩

end NodeGraph

namespace Schema

theorem map_ofSpecs (specs : List Spec) : (ofSpecs specs).map toNodeGraph = NodeGraph.build specs := by
  unfold ofSpecs
  split
  · rename_i e he
    rw [he]
    rfl
  · rename_i g hg
    exact hg.symm

/-- **The well-specified lists make a schema, whose graph is the one that realizes them; any other list is refused for
its first fault.**  Positions number the nodes, and the references may point forwards, share a target or form a
circle. -/
theorem ofSpecs_iff (specs : List Spec) :
    (ofSpecs specs).map toNodeGraph = NodeGraph.build specs ∧
      ((∃ g, NodeGraph.build specs = .ok g) ↔ WellSpecified specs) ∧
        (∀ g, NodeGraph.build specs = .ok g ↔ WellSpecified specs ∧ g.Realizes specs) ∧
          ∀ e, NodeGraph.build specs = .error e ↔ FirstFault specs e := by
  refine ⟨map_ofSpecs specs, NodeGraph.exists_build_iff, ?_, fun e => NodeGraph.build_eq_error_iff_firstFault⟩
  intro g
  constructor
  · intro h
    exact ⟨NodeGraph.exists_build_iff.1 ⟨g, h⟩, NodeGraph.realizes_of_build h⟩
  · rintro ⟨hwell, hg⟩
    obtain ⟨built, hbuilt⟩ := NodeGraph.exists_build_iff.2 hwell
    rw [hbuilt, hg.unique (NodeGraph.realizes_of_build hbuilt)]

end Schema

end TypedColumns
