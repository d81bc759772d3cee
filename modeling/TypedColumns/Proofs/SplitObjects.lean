import Mathlib.Data.List.Nodup
import TypedColumns.Proofs.MemberWalk
import TypedColumns.Proofs.PathSearch

/-!
# Objects written with a dot

A structured node may be called like an object or like the object with a dot behind it.  Where the dot is no part of what
the path says, one spelling is as good as the other.

* `Schema.rename` -- another name for one node, one that no node has.
* `Schema.lookup_rename_of_ne` -- other names are looked up as before.
* `Path.IsReading.object_ne_append_dot` -- of two readings of a path neither has the object of the other with a dot.
* `Schema.ownerOf?_rename`, `Schema.find_rename` -- with a dot behind its name a node owns the same readings, and the same
  nodes are found under the whole path.
* `Schema.resolve_rename` -- **the dot behind a node's name changes no path of two members or more,** unless the path is the
  qualified name of the node.
* `Schema.resolve_spelled` -- paths that it does change: one of a single member, and such a qualified name.
-/

namespace TypedColumns

/-! ### Readings and dots -/

namespace Path

variable {path : String} {r q : Reading}

/-- A name with a dot behind it ends in an empty component. -/
theorem components_append_dot (name : String) : components (name ++ ".").toList = components name.toList ++ [[]] := by
  rw [String.toList_append]
  exact components_append name.toList []

theorem append_dot_ne (name : String) : name ++ "." ≠ name := by
  intro h
  have hcomp := components_append_dot name
  rw [h] at hcomp
  exact absurd (congrArg List.length hcomp) (by simp)

/-- Of two readings of a path neither has the object of the other with a dot behind it. -/
theorem IsReading.object_ne_append_dot (hr : IsReading path r) (hq : IsReading path q) : q.object ≠ r.object ++ "." := by
  intro h
  have hcomp := hr.components_eq.symm.trans hq.components_eq
  rw [h, components_append_dot, List.append_assoc, List.append_cancel_left_eq] at hcomp
  -- the first member of the one reading would be empty
  obtain ⟨m, ms, hms⟩ := List.exists_cons_of_ne_nil hr.1
  rw [hms] at hcomp
  have hm : m.toList = [] := (List.cons.inj hcomp).1
  have hseg := hr.2.1 m (by simp [hms])
  rw [hm] at hseg
  cases hseg

/-- A reading is known by its object. -/
theorem IsReading.eq_of_object_eq (hr : IsReading path r) (hq : IsReading path q) (h : r.object = q.object) : r = q := by
  have hcomp := hr.components_eq.symm.trans hq.components_eq
  rw [h, List.append_cancel_left_eq] at hcomp
  have hmembers := (List.map_inj_right (fun _ _ => String.toList_injective)).1 hcomp
  cases r
  cases q
  exact congrArg₂ Reading.mk h hmembers

/-- A path that can be read does not end in a dot. -/
theorem IsReading.ne_append_dot (hr : IsReading path r) (name : String) : path ≠ name ++ "." := by
  intro h
  have hcomp := hr.components_eq
  rw [h, components_append_dot] at hcomp
  have hlast := congrArg List.getLast? hcomp
  rw [List.getLast?_concat, List.getLast?_append_of_ne_nil _ (by simpa using hr.1), List.getLast?_map] at hlast
  obtain ⟨m, hm, hempty⟩ := Option.map_eq_some_iff.1 hlast.symm
  have hseg := hr.2.1 m (List.mem_of_getLast? hm)
  rw [hempty] at hseg
  cases hseg

/-- A path has more components than the object of a reading of it. -/
theorem IsReading.length_components_lt (hr : IsReading path r) :
    (components r.object.toList).length < (components path.toList).length := by
  have hpos := List.length_pos_iff.2 hr.1
  rw [hr.components_eq, List.length_append, List.length_map]
  omega

theorem IsReading.ne_object (hr : IsReading path r) : path ≠ r.object := by
  intro h
  have hlt := hr.length_components_lt
  rw [← h] at hlt
  exact Nat.lt_irrefl _ hlt

theorem IsReading.append_dot_ne_object (hr : IsReading path r) : path ++ "." ≠ r.object := by
  intro h
  have hlt := hr.length_components_lt
  rw [← h, components_append_dot, List.length_append, List.length_singleton] at hlt
  omega

/-- A name with a dot behind it has no other dots at its end. -/
theorem withoutTrailingDots_append_dot (name : String) : withoutTrailingDots (name ++ ".") = withoutTrailingDots name := by
  simp [withoutTrailingDots]

end Path

namespace Schema

/-! ### Renamed nodes -/

section Rename

variable {s : Schema} {id : NodeId} {node : Node} {name : String}

theorem wellLinked_rename (s : Schema) (id : NodeId) (hfree : ∀ j, ¬ s.IsNamed name j) :
    WellLinked (s.nodes.modify id.index (fun n => { n with name := name })) := by
  have hnames : (s.nodes.modify id.index (fun n => { n with name := name })).map Node.name =
      (s.nodes.map Node.name).set id.index name := by
    apply List.ext_getElem?
    intro i
    rw [List.getElem?_map, List.getElem?_modify, List.getElem?_set, List.getElem?_map]
    by_cases hi : id.index = i
    · by_cases hlt : i < s.nodes.length
      · simp [hi, hlt]
      · simp [hi, hlt]
    · simp [hi]
  refine ⟨?_, ?_⟩
  · rw [hnames]
    refine List.Nodup.set s.linked.distinct ?_
    intro h
    obtain ⟨n, hn, hname⟩ := List.mem_map.1 h
    obtain ⟨i, hi⟩ := List.mem_iff_getElem?.1 hn
    exact hfree ⟨i⟩ ⟨n, hi, hname⟩
  · intro i n hn r hr
    rw [List.length_modify]
    rw [List.getElem?_modify] at hn
    obtain ⟨m, hm, rfl⟩ := Option.map_eq_some_iff.1 hn
    refine s.linked.known i m hm r ?_
    split at hr
    · exact hr
    · exact hr

/-- The schema with another name for one node, a name that no node has. -/
def rename (s : Schema) (id : NodeId) (name : String) (hfree : ∀ j, ¬ s.IsNamed name j) : Schema :=
  ofNodes (s.nodes.modify id.index (fun n => { n with name := name })) (wellLinked_rename s id hfree)

variable {hfree : ∀ j, ¬ s.IsNamed name j}

theorem get?_rename_self (hnode : s.get? id = some node) :
    (s.rename id name hfree).get? id = some { node with name := name } := by
  show (s.nodes.modify id.index _)[id.index]? = _
  rw [List.getElem?_modify, show s.nodes[id.index]? = some node from hnode]
  simp

theorem get?_rename_of_ne {j : NodeId} (hj : j ≠ id) : (s.rename id name hfree).get? j = s.get? j := by
  show (s.nodes.modify id.index _)[j.index]? = s.nodes[j.index]?
  have hne : id.index ≠ j.index := fun h => hj (congrArg NodeId.mk h.symm)
  rw [List.getElem?_modify]
  simp [hne]

/-- Names other than the old one and the new one are looked up as before. -/
theorem lookup_rename_of_ne {other : String} (hnode : s.get? id = some node) (hold : other ≠ node.name)
    (hnew : other ≠ name) : (s.rename id name hfree).lookup other = s.lookup other := by
  have hnamed : ∀ j, (s.rename id name hfree).IsNamed other j ↔ s.IsNamed other j := by
    intro j
    by_cases hj : j = id
    · simp [IsNamed, hj, get?_rename_self hnode, hnode, hnew.symm, hold.symm]
    · rw [IsNamed, IsNamed, get?_rename_of_ne hj]
  apply Option.ext
  intro j
  rw [lookup_eq_some_iff, lookup_eq_some_iff, hnamed]

/-- The node is found under its new name. -/
theorem lookup_rename_self (hnode : s.get? id = some node) : (s.rename id name hfree).lookup name = some id :=
  (lookup_eq_some_iff _ _ _).2 ⟨_, get?_rename_self hnode, rfl⟩

/-- No node is left under the old name. -/
theorem lookup_rename_old (hnode : s.get? id = some node) (hne : node.name ≠ name) :
    (s.rename id name hfree).lookup node.name = none := by
  rw [lookup_eq_none_iff]
  intro j hj
  obtain ⟨n, hn, hname⟩ := hj
  by_cases hjd : j = id
  · rw [hjd, get?_rename_self hnode] at hn
    cases hn
    exact hne hname.symm
  · rw [get?_rename_of_ne hjd] at hn
    exact hjd (IsNamed.unique ⟨n, hn, hname⟩ ⟨node, hnode, rfl⟩)

end Rename

/-! ### A dot behind a name -/

section Dot

variable {s : Schema} {id : NodeId} {node : Node} {path : String} {members : List String}
  {hfree : ∀ j, ¬ s.IsNamed (node.name ++ ".") j}

/-- A reading of the path has the same owner, whether there is a dot behind the name of the node or not. -/
theorem ownerOf?_rename (hnode : s.get? id = some node) (hreading : Path.IsReading path ⟨node.name, members⟩)
    (hlong : 2 ≤ members.length) {r : Path.Reading} (hr : Path.IsReading path r) :
    (s.rename id (node.name ++ ".") hfree).ownerOf? r = s.ownerOf? r := by
  by_cases hobject : r.object = node.name
  · -- the node is written in the path, which has more than one member behind it
    obtain rfl := hr.eq_of_object_eq hreading hobject
    have hnamed : s.NamesObject ⟨node.name, members⟩ id := Or.inl ⟨node, hnode, rfl⟩
    rw [(ownerOf?_eq_some_iff s hr.1 id).2 hnamed, ownerOf?_eq_some_iff _ hr.1]
    refine Or.inr ⟨hlong, ?_, ?_⟩
    · exact (lookup_eq_none_iff _ _).1 (lookup_rename_old hnode (Path.append_dot_ne node.name).symm)
    · exact (lookup_eq_some_iff _ _ _).1 (lookup_rename_self hnode)
  · have hplain : (s.rename id (node.name ++ ".") hfree).lookup r.object = s.lookup r.object :=
      lookup_rename_of_ne hnode hobject (hreading.object_ne_append_dot hr)
    have hdotted : (s.rename id (node.name ++ ".") hfree).lookup (r.object ++ ".") = s.lookup (r.object ++ ".") := by
      refine lookup_rename_of_ne hnode (hr.object_ne_append_dot hreading).symm ?_
      intro h
      exact hobject ((String.append_left_inj ".").1 h)
    rw [ownerOf?, ownerOf?, lookupObject, lookupObject, hplain, hdotted]

theorem owner?_rename (hnode : s.get? id = some node) (hreading : Path.IsReading path ⟨node.name, members⟩)
    (hlong : 2 ≤ members.length) : (s.rename id (node.name ++ ".") hfree).owner? path = s.owner? path := by
  rw [owner?, owner?, ← List.head?_filterMap, ← List.head?_filterMap]
  refine congrArg List.head? (List.filterMap_congr ?_)
  intro r hr
  rw [ownerOf?_rename hnode hreading hlong ((Path.mem_readings_iff path r).1 hr)]

/-- A node that lies in the renamed one keeps its qualified name. -/
theorem qualifiedName?_rename (hnode : s.get? id = some node) (n : Node) :
    (s.rename id (node.name ++ ".") hfree).qualifiedName? n = s.qualifiedName? n := by
  rw [qualifiedName?, qualifiedName?]
  cases n.parent with
  | none => rfl
  | some p =>
      by_cases hp : p.node = id
      · simp only [hp, get?_rename_self hnode, hnode, Path.withoutTrailingDots_append_dot]
      · simp only [get?_rename_of_ne hp]

/-- A dot behind a node's name stands behind its qualified name too. -/
theorem qualifiedName?_append_dot (s : Schema) (n : Node) :
    s.qualifiedName? { n with name := n.name ++ "." } = (s.qualifiedName? n).map (· ++ ".") := by
  rw [qualifiedName?, qualifiedName?]
  cases n.parent with
  | none => rfl
  | some p =>
      cases hparent : s.get? p.node with
      | none => simp [hparent]
      | some parent => simp [hparent, String.append_assoc]

/-- The same node is found under the whole path, unless that is the qualified name of the renamed one. -/
theorem find_rename (hnode : s.get? id = some node) (hreading : Path.IsReading path ⟨node.name, members⟩)
    (hqualified : ¬ s.IsQualified path id) : (s.rename id (node.name ++ ".") hfree).find path = s.find path := by
  have hplain : (s.rename id (node.name ++ ".") hfree).lookup path = s.lookup path :=
    lookup_rename_of_ne hnode hreading.ne_object (hreading.ne_append_dot node.name)
  have hdotted : (s.rename id (node.name ++ ".") hfree).lookup (path ++ ".") = s.lookup (path ++ ".") := by
    refine lookup_rename_of_ne hnode ?_ ?_
    · exact hreading.append_dot_ne_object
    · intro h
      exact hreading.ne_object ((String.append_left_inj ".").1 h)
  have hold : s.qualifiedName? node ≠ some path := by
    intro h
    exact hqualified ((qualifiedName?_eq_some_iff s path id).1 ⟨node, hnode, beq_iff_eq.2 h⟩)
  have hnew : (s.qualifiedName? node).map (· ++ ".") ≠ some path := by
    intro h
    obtain ⟨name, -, hname⟩ := Option.map_eq_some_iff.1 h
    exact hreading.ne_append_dot name hname.symm
  have hchild : (s.rename id (node.name ++ ".") hfree).findNode?
        (fun n => (s.rename id (node.name ++ ".") hfree).qualifiedName? n == some path) =
      s.findNode? (fun n => s.qualifiedName? n == some path) := by
    refine findNode?_congr ?_
    intro j
    simp only [qualifiedName?_rename hnode]
    by_cases hj : j = id
    · rw [hj, get?_rename_self hnode, hnode, Option.map_some, Option.map_some, qualifiedName?_append_dot,
        beq_false_of_ne hnew, beq_false_of_ne hold]
    · rw [get?_rename_of_ne hj]
  rw [find, find, lookupObject, lookupObject, hplain, hdotted, hchild]

theorem resolveInside_rename (types : Catalog) (requested : Option Descriptor) (hnode : s.get? id = some node)
    (hstructured : node.structured = true) (hreading : Path.IsReading path ⟨node.name, members⟩)
    (hlong : 2 ≤ members.length) :
    (s.rename id (node.name ++ ".") hfree).resolveInside types path requested =
      s.resolveInside types path requested := by
  rw [resolveInside, resolveInside, owner?_rename hnode hreading hlong]
  cases s.owner? path with
  | none => rfl
  | some owned =>
      obtain ⟨i, names⟩ := owned
      by_cases hi : i = id
      · -- a walk reads the members and the type of the node, not its name
        simp only [hi, get?_rename_self hnode, hnode, hstructured]
        rfl
      · simp only [get?_rename_of_ne hi]

theorem resolveWhole_rename (types : Catalog) (path : String) (requested : Option Descriptor)
    (hnode : s.get? id = some node) (literal : Option NodeId) :
    (s.rename id (node.name ++ ".") hfree).resolveWhole types path requested literal =
      s.resolveWhole types path requested literal := by
  cases literal with
  | none => rfl
  | some i =>
      rw [resolveWhole, resolveWhole]
      by_cases hi : i = id
      · simp only [hi, get?_rename_self hnode, hnode]
      · simp only [get?_rename_of_ne hi]

/-- **The dot behind a node's name changes no path of two members or more,** unless the path is the qualified name of the
node: what it stands for and what is told about the choice stay the same. -/
theorem resolve_rename (s : Schema) (types : Catalog) (requested : Option Descriptor) {id : NodeId} {node : Node}
    {path : String} {members : List String} (hfree : ∀ j, ¬ s.IsNamed (node.name ++ ".") j)
    (hnode : s.get? id = some node) (hstructured : node.structured = true)
    (hreading : Path.IsReading path ⟨node.name, members⟩) (hlong : 2 ≤ members.length)
    (hqualified : ¬ s.IsQualified path id) :
    (s.rename id (node.name ++ ".") hfree).resolve types path requested = s.resolve types path requested := by
  rw [resolve, resolve, find_rename hnode hreading hqualified,
    resolveInside_rename types requested hnode hstructured hreading hlong, resolveWhole_rename types path requested hnode]

end Dot

/-! ### Two schemas -/

/-- An event alone. -/
def eventSchema : Schema := .ofNodes [eventNode] (by decide +kernel)

/-- A vertex inside an object of the same name, but for dots. -/
def nestedSchema : Schema :=
  .ofNodes [⟨"start.vertex..", "int", .primary, none, none, .single, false, []⟩,
    ⟨"start.vertex", "Vertex", .primary, some ⟨⟨0⟩, 0⟩, none, .single, true,
      [⟨"id", "int", 0, false⟩, ⟨"start", "Track", 8, true⟩]⟩] (by decide +kernel)

theorem not_isNamed_event_dot (j : NodeId) : ¬ eventSchema.IsNamed "event." j :=
  (lookup_eq_none_iff _ _).1 (by decide +kernel) j

theorem not_isNamed_vertex_dot (j : NodeId) : ¬ nestedSchema.IsNamed "start.vertex." j :=
  (lookup_eq_none_iff _ _).1 (by decide +kernel) j

/-- An event with a dot behind its name still holds the momentum of its track. -/
theorem resolve_rename_event :
    ∃ hfree, Path.IsReading "event.track.px" ⟨"event", ["track", "px"]⟩ ∧
      ¬ eventSchema.IsQualified "event.track.px" ⟨0⟩ ∧
      ((eventSchema.rename ⟨0⟩ "event." hfree).resolve eventTypes "event.track.px" none).1 =
        .ok ⟨⟨0⟩, "int", .chase ⟨[], 24⟩⟩ := by
  have hreading : Path.IsReading "event.track.px" ⟨"event", ["track", "px"]⟩ := ⟨by decide, by decide, by decide⟩
  have hqualified : ¬ eventSchema.IsQualified "event.track.px" ⟨0⟩ := by
    intro h
    obtain ⟨n, p, _, hn, hp, _⟩ := h
    cases hn
    cases hp
  refine ⟨not_isNamed_event_dot, hreading, hqualified, ?_⟩
  have hfree : ∀ j, ¬ eventSchema.IsNamed (eventNode.name ++ ".") j := not_isNamed_event_dot
  have hsame := resolve_rename eventSchema eventTypes none hfree rfl rfl hreading (by decide) hqualified
  exact (congrArg Prod.fst hsame).trans (by decide +kernel)

/-- Paths that a dot behind the name changes, where no other node has anything to do with the path: a single member is no
longer found, and a node that was found under its qualified name gives way to a member walk. -/
theorem resolve_spelled :
    (∃ hfree, eventSchema.nodes = [eventNode] ∧ Path.IsReading "event.track" ⟨"event", ["track"]⟩ ∧
      (eventSchema.resolve eventTypes "event.track" none).1 = .ok ⟨⟨0⟩, "Track", .chase ⟨[], 24⟩⟩ ∧
      ((eventSchema.rename ⟨0⟩ "event." hfree).resolve eventTypes "event.track" none).1 =
        .error (.missingSubColumn "event.track")) ∧
    ∃ node hfree, nestedSchema.get? ⟨1⟩ = some node ∧ node.structured = true ∧
      (∀ n ∈ nestedSchema.nodes, n ≠ node → n.parent = none ∧ n.name ∉ ["start.vertex", "start.vertex.",
        "start.vertex.start", "start.vertex.start.", "start.vertex.start.vertex", "start.vertex.start.vertex."]) ∧
      Path.IsReading "start.vertex.start.vertex" ⟨node.name, ["start", "vertex"]⟩ ∧
      (nestedSchema.resolve eventTypes "start.vertex.start.vertex" none).1 = .ok ⟨⟨1⟩, "Vertex", .whole⟩ ∧
      ((nestedSchema.rename ⟨1⟩ "start.vertex." hfree).resolve eventTypes "start.vertex.start.vertex" none).1 =
        .ok ⟨⟨1⟩, "Vertex", .chase ⟨[8, 8], 0⟩⟩ := by
  refine ⟨?_, ?_⟩
  · exact ⟨not_isNamed_event_dot, rfl, ⟨by decide, by decide, by decide⟩, by decide +kernel, by decide +kernel⟩
  · exact ⟨_, not_isNamed_vertex_dot, rfl, rfl, by decide +kernel, ⟨by decide, by decide, by decide +kernel⟩,
      by decide +kernel, by decide +kernel⟩

end Schema

end TypedColumns
