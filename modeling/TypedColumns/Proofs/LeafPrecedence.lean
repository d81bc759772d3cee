import TypedColumns.Proofs.PathSearch

/-!
# When a leaf decides

A flat node may hold a leaf under the rest of a path behind its own name.  That leaf decides what the path stands for,
unless a longer beginning of the path names a node, where the search stops before it comes to the leaf.  And a leaf whose
type does not serve gives way to a node called like the whole path.

* `Schema.Offers` -- a flat node called like a beginning of the path, with the rest of the path as a leaf.
* `Schema.Offers.owns` -- where no longer beginning names a node, the search comes to the leaf.
* `serves_or_typeFault` -- a stored type serves the request or has a fault.
* `Schema.resolve_of_owns_of_typeFault` -- what a leaf that does not serve leaves to be found.
* `Schema.resolve_of_offers` -- **the first leaf on the way decides,** by its place, or by its fault where no node has the
  whole name.
* `Schema.resolve_crowded` -- longer beginnings that name a node, and a node of the whole name.
-/

namespace TypedColumns

/-- A stored type serves the request, or there is something wrong with it. -/
theorem serves_or_typeFault (types : Catalog) (path : String) (requested : Option Descriptor) (type : String) :
    (∃ stored, Serves types requested type stored) ∨ ∃ e, TypeFault types path requested type e := by
  cases h : typeChecked types path requested type with
  | ok stored => exact Or.inl ⟨stored, (typeChecked_eq_ok_iff types path requested type stored).1 h⟩
  | error e => exact Or.inr ⟨e, (typeChecked_eq_error_iff types path requested type e).1 h⟩

/-- What is wrong with a type is not that the column is missing. -/
theorem TypeFault.status_ne {types : Catalog} {path : String} {requested : Option Descriptor} {type : String}
    {e : SetupError} (h : TypeFault types path requested type e) : e.status ≠ .missingColumn := by
  cases h with
  | unknown _ =>
      intro h
      cases h
  | mismatch _ _ _ =>
      intro h
      cases h

namespace Schema

/-- A flat node offers the rest of a path: the path is the node's name, a dot, and the name of a leaf, which consists of
segments. -/
structure Offers (s : Schema) (path : String) (id : NodeId) (node : Node) (members : List String) (leaf : Member) :
    Prop where
  found : s.get? id = some node
  flat : node.structured = false
  reading : Path.IsReading path ⟨node.name, members⟩
  holds : node.member? (Path.dotted members) = some leaf

section Leaves

variable {s : Schema} {types : Catalog} {path : String} {requested : Option Descriptor} {id : NodeId} {node : Node}
  {members : List String} {leaf : Member}

/-- Where no longer beginning of the path names a node, the node that offers a leaf owns the path. -/
theorem Offers.owns (ho : s.Offers path id node members leaf)
    (hfirst : ∀ r, Path.IsReading path r → r.members.length < members.length → ∀ j, ¬ s.NamesObject r j) :
    s.Owns path id members :=
  ⟨node.name, ho.reading, Or.inl ⟨node, ho.found, rfl⟩, hfirst⟩

/-- A leaf of the owner that serves is what the path stands for. -/
theorem Offers.resolve_of_serves (ho : s.Offers path id node members leaf) (howns : s.Owns path id members)
    {stored : Descriptor} (hserves : Serves types requested leaf.type stored) :
    (s.resolve types path requested).1 = .ok ⟨id, stored.name, .field node.name leaf.name leaf.offset⟩ :=
  resolve_of_leafAt ⟨id, members, node, leaf, stored, howns, ho.found, ho.flat, ho.holds, hserves, rfl⟩

/-- Where a leaf of the owner does not serve, nothing inside the owner does. -/
theorem Offers.resolveInside_of_typeFault (ho : s.Offers path id node members leaf) (howns : s.Owns path id members)
    {e : SetupError} (hfault : TypeFault types path requested leaf.type e) :
    s.resolveInside types path requested = .error e :=
  resolveInside_eq_error_iff.2 (.leafType howns ho.found ho.flat ho.holds hfault)

/-- A leaf of the owner that does not serve gives way to a node of the whole name; without one its fault is the answer. -/
theorem Offers.resolve_of_typeFault (ho : s.Offers path id node members leaf) (howns : s.Owns path id members)
    {e : SetupError} (hfault : TypeFault types path requested leaf.type e) :
    ((∀ l, ¬ s.Literal path l) → (s.resolve types path requested).1 = .error e) ∧
      ∀ l, s.Literal path l → (s.resolve types path requested).1 = s.resolveWhole types path requested (some l) := by
  have hinside := ho.resolveInside_of_typeFault howns hfault
  refine ⟨?_, ?_⟩
  · intro hno
    rw [resolve_of_isDotted hno howns.isDotted, hinside]
  · intro l hl
    have hnoleaf : ∀ r, ¬ s.LeafAt types path requested r := by
      intro r hr
      rw [resolveInside_eq_ok_iff.2 (Or.inr hr)] at hinside
      cases hinside
    rw [resolve_of_literal hnoleaf hl, (find_eq_some_iff s path l).2 hl]

/-- A node of the whole name is read as a whole or has a fault in its type. -/
theorem Literal.resolveWhole {l : NodeId} (hl : s.Literal path l) :
    (∀ r, s.resolveWhole types path requested (some l) = .ok r → r.access.chain? = none) ∧
      ∀ e, s.resolveWhole types path requested (some l) = .error e → e.status ≠ .missingColumn := by
  rw [← (find_eq_some_iff s path l).2 hl]
  refine ⟨?_, ?_⟩
  · intro r hr
    obtain ⟨_, _, _, _, _, _, rfl⟩ := resolveWhole_eq_ok_iff.1 hr
    rfl
  · intro e he
    rcases resolveWhole_eq_error_iff.1 he with ⟨_, _, _, _, hfault⟩ | ⟨hno, -⟩
    · exact hfault.status_ne
    · exact absurd hl (hno l)

variable (types requested) in
/-- **The first leaf on the way decides.**  Let a flat node offer the rest of a path as a leaf, and let no longer beginning
of the path name a node.  If the leaf's type serves, the path stands for the leaf.  If not, the answer is the fault of the
leaf's type, or that of the node called like the whole path where there is one.  It is never a member walk and never a
missing column. -/
theorem resolve_of_offers (ho : s.Offers path id node members leaf)
    (hfirst : ∀ r, Path.IsReading path r → r.members.length < members.length → ∀ j, ¬ s.NamesObject r j) :
    ((∃ stored, Serves types requested leaf.type stored ∧
        (s.resolve types path requested).1 = .ok ⟨id, stored.name, .field node.name leaf.name leaf.offset⟩) ∨
      ∃ e, TypeFault types path requested leaf.type e ∧
        (((∀ l, ¬ s.Literal path l) ∧ (s.resolve types path requested).1 = .error e) ∨
          ∃ l, s.Literal path l ∧
            (s.resolve types path requested).1 = s.resolveWhole types path requested (some l))) ∧
    (∀ r, (s.resolve types path requested).1 = .ok r → r.access.chain? = none) ∧
    ∀ e, (s.resolve types path requested).1 = .error e → e.status ≠ .missingColumn := by
  have howns := ho.owns hfirst
  rcases serves_or_typeFault types path requested leaf.type with ⟨stored, hserves⟩ | ⟨e, hfault⟩
  · have hresolve := ho.resolve_of_serves howns hserves
    refine ⟨Or.inl ⟨stored, hserves, hresolve⟩, ?_, ?_⟩
    · intro r hr
      cases hresolve.symm.trans hr
      rfl
    · intro e he
      cases hresolve.symm.trans he
  · obtain ⟨hfree, htaken⟩ := ho.resolve_of_typeFault howns hfault
    by_cases hliteral : ∃ l, s.Literal path l
    · obtain ⟨l, hl⟩ := hliteral
      have hresolve := htaken l hl
      refine ⟨Or.inr ⟨e, hfault, Or.inr ⟨l, hl, hresolve⟩⟩, ?_⟩
      rw [hresolve]
      exact hl.resolveWhole
    · have hno : ∀ l, ¬ s.Literal path l := fun l hl => hliteral ⟨l, hl⟩
      have hresolve := hfree hno
      refine ⟨Or.inr ⟨e, hfault, Or.inl ⟨hno, hresolve⟩⟩, ?_, ?_⟩
      · intro r hr
        cases hresolve.symm.trans hr
      · intro f hf
        cases hresolve.symm.trans hf
        exact hfault.status_ne

end Leaves

/-! ### A crowded schema -/

/-- A single object of the primary source that lies in no other. -/
def loneNode (name type : String) (structured : Bool) (members : List Member) : Node :=
  ⟨name, type, .primary, none, none, .single, structured, members⟩

/-- A flat node with four leaves, and three nodes that are called like a beginning of the path of a leaf or like the whole
of it. -/
def crowdedSchema : Schema :=
  .ofNodes [loneNode "a" "Row" false
      [⟨"b.c", "int", 0, false⟩, ⟨"d", "int", 4, false⟩, ⟨"e.x", "int", 8, false⟩, ⟨"g.h", "int", 12, false⟩],
    loneNode "a.b" "int" false [], loneNode "a.d" "double" false [],
    loneNode "a.e" "Event" true [⟨"x", "int", 0, false⟩]] (by decide +kernel)

/-- A leaf behind two segments, with no other node on the way. -/
theorem resolve_of_offers_crowded :
    ∃ node leaf, crowdedSchema.Offers "a.g.h" ⟨0⟩ node ["g", "h"] leaf ∧
      (∀ r, Path.IsReading "a.g.h" r → r.members.length < 2 → ∀ j, ¬ crowdedSchema.NamesObject r j) ∧
      (crowdedSchema.resolve Catalog.builtins "a.g.h" none).1 = .ok ⟨⟨0⟩, "int", .field "a" "g.h" 12⟩ := by
  have ho : crowdedSchema.Offers "a.g.h" ⟨0⟩ _ ["g", "h"] ⟨"g.h", "int", 12, false⟩ :=
    ⟨rfl, rfl, ⟨by decide, by decide, by decide⟩, by decide +kernel⟩
  have hfirst : ∀ r, Path.IsReading "a.g.h" r → r.members.length < 2 → ∀ j, ¬ crowdedSchema.NamesObject r j := by
    intro r hr hlen
    have hreadings : Path.readings "a.g.h" = [⟨"a.g", ["h"]⟩, ⟨"a", ["g", "h"]⟩] := by decide +kernel
    have hmem := (Path.mem_readings_iff _ r).2 hr
    rw [hreadings] at hmem
    rcases List.mem_cons.1 hmem with rfl | hmem
    · exact (ownerOf?_eq_none_iff _ (by simp)).1 (by decide +kernel)
    · obtain rfl := List.mem_singleton.1 hmem
      exact absurd hlen (by decide)
  have hint : Catalog.builtins.resolve "int" = some ⟨"int", .numeric .i32⟩ := by decide +kernel
  refine ⟨_, _, ho, hfirst, ?_⟩
  obtain ⟨⟨stored, hserves, hresolve⟩ | ⟨e, hfault, -⟩, -⟩ := resolve_of_offers Catalog.builtins none ho hfirst
  · obtain rfl := Option.some.inj (hint.symm.trans hserves.1)
    exact hresolve
  · cases hfault with
    | unknown h => cases hint.symm.trans h
    | mismatch _ h _ => cases h

/-- Leaves that lose: the column is missing where a longer beginning of the path names a flat node, it is a member walk
where that is a structured node, and it is the node of the whole name where the leaf's type does not serve. -/
theorem resolve_crowded :
    let s := crowdedSchema
    let int : Descriptor := ⟨"int", .numeric .i32⟩
    let double : Descriptor := ⟨"double", .numeric .f64⟩
    (∃ node, s.Offers "a.b.c" ⟨0⟩ node ["b", "c"] ⟨"b.c", "int", 0, false⟩ ∧
      (s.resolve Catalog.builtins "a.b.c" (some int)).1 = .error (.missingSubColumn "a.b.c")) ∧
    (∃ node, s.Offers "a.e.x" ⟨0⟩ node ["e", "x"] ⟨"e.x", "int", 8, false⟩ ∧
      (s.resolve Catalog.builtins "a.e.x" (some int)).1 = .ok ⟨⟨3⟩, "int", .chase ⟨[], 0⟩⟩) ∧
    ∃ node, s.Offers "a.d" ⟨0⟩ node ["d"] ⟨"d", "int", 4, false⟩ ∧
      (s.resolve Catalog.builtins "a.d" (some double)).1 = .ok ⟨⟨2⟩, "double", .whole⟩ := by
  intro s int double
  refine ⟨⟨_, ⟨rfl, rfl, ⟨by decide, by decide, by decide⟩, by decide +kernel⟩, rfl⟩,
    ⟨_, ⟨rfl, rfl, ⟨by decide, by decide, by decide⟩, by decide +kernel⟩, rfl⟩,
    ⟨_, ⟨rfl, rfl, ⟨by decide, by decide, by decide⟩, by decide +kernel⟩, rfl⟩⟩

end Schema

end TypedColumns
