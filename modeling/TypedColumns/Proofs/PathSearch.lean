import TypedColumns.Proofs.PathReading
import TypedColumns.Resolution

/-!
# The search behind path resolution

What a path stands for, said without the lookups, the order in which readings are tried, and the four ways in which
the two halves of the search can meet.

* `Schema.IsNamed`, `Schema.IsQualified`, `Schema.Literal` -- the node that a whole path names: by its own name, by its
  name with a dot behind it, or by the name of the node it lies in (`find_eq_some_iff`).
* `Schema.NamesObject`, `Schema.Owns` -- the node inside which a dotted path leads: of all ways to write the path, the
  one with the fewest members whose object is a node (`owner?_eq_some_iff`).
* `Serves`, `TypeFault` -- a stored type that is known and serves the request, and what is wrong with one that is or
  does not.
* `Schema.WalksTo`, `Schema.LeafAt`, `Schema.WholeAt` -- the three ways to be found.
* `Schema.InsideFault`, `Schema.WholeFault` -- what is wrong with the inside of the owner, and with the literal node.
* `resolve_iff_search` -- **a path resolves exactly as the search says,** with every mode and every error.
-/

namespace TypedColumns

/-! ### Stored types -/

/-- The stored type of a name: known, and fit for the request if there is one. -/
def Serves (types : Catalog) (requested : Option Descriptor) (type : String) (stored : Descriptor) : Prop :=
  types.resolve type = some stored ∧
    ∀ wanted, requested = some wanted → (types.agreement wanted stored).isCompatible = true

/-- What is wrong with a stored type. -/
inductive TypeFault (types : Catalog) (path : String) (requested : Option Descriptor) (type : String) : SetupError → Prop
  | unknown : types.resolve type = none → TypeFault types path requested type (.unknownStoredType path type)
  | mismatch {stored wanted : Descriptor} : types.resolve type = some stored → requested = some wanted →
      (types.agreement wanted stored).isCompatible = false →
      TypeFault types path requested type (.mismatchType path stored.name wanted.name)

theorem typeChecked_eq_ok_iff (types : Catalog) (path : String) (requested : Option Descriptor) (type : String)
    (stored : Descriptor) : typeChecked types path requested type = .ok stored ↔ Serves types requested type stored := by
  rw [typeChecked, Serves]
  cases types.resolve type with
  | none => simp
  | some d =>
      cases requested with
      | none => simp
      | some wanted =>
          by_cases hc : (types.agreement wanted d).isCompatible = true
          · simp only [hc, if_true, Except.ok.injEq, Option.some.injEq]
            refine ⟨?_, ?_⟩
            · rintro rfl
              refine ⟨rfl, ?_⟩
              rintro w rfl
              exact hc
            · intro h
              obtain ⟨rfl, -⟩ := h
              rfl
          · simp only [hc, Bool.false_eq_true, if_false, reduceCtorEq, Option.some.injEq, false_iff]
            intro h
            obtain ⟨rfl, h⟩ := h
            exact hc (h wanted rfl)

theorem typeChecked_eq_error_iff (types : Catalog) (path : String) (requested : Option Descriptor) (type : String)
    (e : SetupError) :
    typeChecked types path requested type = .error e ↔ TypeFault types path requested type e := by
  refine ⟨?_, ?_⟩
  · intro h
    rw [typeChecked] at h
    split at h
    · rename_i hn
      cases h
      exact .unknown hn
    · rename_i d hd
      split at h
      · cases h
      · rename_i wanted
        split at h
        · cases h
        · rename_i hc
          cases h
          exact .mismatch hd rfl (by simpa using hc)
  · intro h
    cases h with
    | unknown hn => rw [typeChecked, hn]
    | mismatch hd hw hc =>
        rw [typeChecked, hd, hw]
        simp [hc]

/-- What is found of a type that has been checked. -/
theorem typeChecked_found {types : Catalog} {path : String} {requested : Option Descriptor} {type : String}
    {found : Descriptor → Resolution} {r : Resolution} :
    (match typeChecked types path requested type with
      | .error e => .error e
      | .ok stored => .ok (found stored)) = Except.ok (ε := SetupError) r ↔
      ∃ stored, Serves types requested type stored ∧ r = found stored := by
  simp only [← typeChecked_eq_ok_iff types path]
  cases typeChecked types path requested type with
  | error e => simp
  | ok stored => simp [eq_comm]

theorem typeChecked_fault {types : Catalog} {path : String} {requested : Option Descriptor} {type : String}
    {found : Descriptor → Resolution} {e : SetupError} :
    (match typeChecked types path requested type with
      | .error e => .error e
      | .ok stored => .ok (found stored)) = Except.error (α := Resolution) e ↔
      TypeFault types path requested type e := by
  rw [← typeChecked_eq_error_iff]
  cases typeChecked types path requested type with
  | error e => simp
  | ok stored => simp

namespace Schema

/-! ### Nodes by name -/

/-- The node is called exactly this. -/
def IsNamed (s : Schema) (name : String) (id : NodeId) : Prop := ∃ n, s.get? id = some n ∧ n.name = name

/-- The node lies in another, and this is the other's name without the dots at its end, a dot, and its own name. -/
def IsQualified (s : Schema) (name : String) (id : NodeId) : Prop :=
  ∃ n p parent, s.get? id = some n ∧ n.parent = some p ∧ s.get? p.node = some parent ∧
    Path.withoutTrailingDots parent.name ++ "." ++ n.name = name

/-- The node that a whole path names: the one of this name; else the one of this name with a dot behind it; else the
first that is qualified like this. -/
inductive Literal (s : Schema) (path : String) : NodeId → Prop
  | exact {id : NodeId} : s.IsNamed path id → Literal s path id
  | object {id : NodeId} : (∀ j, ¬ s.IsNamed path j) → s.IsNamed (path ++ ".") id → Literal s path id
  | child {id : NodeId} : (∀ j, ¬ s.IsNamed path j) → (∀ j, ¬ s.IsNamed (path ++ ".") j) → s.IsQualified path id →
      (∀ j, j.index < id.index → ¬ s.IsQualified path j) → Literal s path id

theorem findNode?_eq_some_iff (s : Schema) (p : Node → Bool) (id : NodeId) :
    s.findNode? p = some id ↔
      (∃ n, s.get? id = some n ∧ p n = true) ∧ ∀ j, j.index < id.index → ∀ n, s.get? j = some n → p n = false := by
  rw [findNode?, Option.map_eq_some_iff]
  refine ⟨?_, ?_⟩
  · intro h
    obtain ⟨i, hi, rfl⟩ := h
    obtain ⟨hlt, hp, hmin⟩ := List.findIdx?_eq_some_iff_getElem.1 hi
    refine ⟨⟨s.nodes[i], List.getElem?_eq_getElem hlt, hp⟩, ?_⟩
    intro j hj n hn
    obtain ⟨hjlt, rfl⟩ := List.getElem?_eq_some_iff.1 hn
    simpa using hmin j.index hj
  · intro h
    obtain ⟨⟨n, hn, hp⟩, hmin⟩ := h
    obtain ⟨hlt, rfl⟩ := List.getElem?_eq_some_iff.1 hn
    refine ⟨id.index, List.findIdx?_eq_some_iff_getElem.2 ⟨hlt, hp, ?_⟩, rfl⟩
    intro j hj
    have hjlt : j < s.nodes.length := Nat.lt_trans hj hlt
    simpa using hmin ⟨j⟩ hj _ (List.getElem?_eq_getElem hjlt)

/-- Tests that agree node by node find the same node. -/
theorem findNode?_congr {s s' : Schema} {p p' : Node → Bool} (h : ∀ id, (s.get? id).map p = (s'.get? id).map p') :
    s.findNode? p = s'.findNode? p' := by
  have htests : s.nodes.map p = s'.nodes.map p' := by
    apply List.ext_getElem?
    intro i
    rw [List.getElem?_map, List.getElem?_map]
    exact h ⟨i⟩
  have hfirst : ∀ (nodes : List Node) (q : Node → Bool), nodes.findIdx? q = (nodes.map q).findIdx? id := by
    intro nodes q
    rw [List.findIdx?_map]
    rfl
  rw [findNode?, findNode?, hfirst, hfirst, htests]

/-- No two nodes have one name. -/
theorem IsNamed.unique {s : Schema} {name : String} {i j : NodeId} (hi : s.IsNamed name i) (hj : s.IsNamed name j) :
    i = j := by
  obtain ⟨n, hn, rfl⟩ := hi
  obtain ⟨m, hm, hname⟩ := hj
  obtain ⟨hlt, -⟩ := List.getElem?_eq_some_iff.1 hn
  have hi : (s.nodes.map Node.name)[i.index]? = some n.name := by
    rw [List.getElem?_map, show s.nodes[i.index]? = some n from hn]
    rfl
  have hj : (s.nodes.map Node.name)[j.index]? = some n.name := by
    rw [List.getElem?_map, show s.nodes[j.index]? = some m from hm, ← hname]
    rfl
  have hidx : i.index = j.index := (List.getElem?_inj (by simpa using hlt) s.linked.distinct).1 (hi.trans hj.symm)
  cases i
  cases j
  exact congrArg NodeId.mk hidx

theorem lookup_eq_some_iff (s : Schema) (name : String) (id : NodeId) :
    s.lookup name = some id ↔ s.IsNamed name id := by
  rw [lookup, s.indexed, List.getElem?_map, Option.map_eq_some_iff]
  rfl

theorem lookup_eq_none_iff (s : Schema) (name : String) : s.lookup name = none ↔ ∀ id, ¬ s.IsNamed name id := by
  simp only [← lookup_eq_some_iff, Option.eq_none_iff_forall_ne_some, ne_eq]

theorem lookupObject_eq_some_iff (s : Schema) (name : String) (id : NodeId) :
    s.lookupObject name = some id ↔
      s.IsNamed name id ∨ ((∀ j, ¬ s.IsNamed name j) ∧ s.IsNamed (name ++ ".") id) := by
  rw [lookupObject]
  cases h : s.lookup name with
  | none => simp [lookup_eq_some_iff, (lookup_eq_none_iff s name).1 h]
  | some i =>
      have hi := (lookup_eq_some_iff s name i).1 h
      refine ⟨?_, ?_⟩
      · intro e
        cases e
        exact Or.inl hi
      · intro h
        rcases h with hid | ⟨hno, -⟩
        · exact congrArg some (hi.unique hid)
        · exact absurd hi (hno i)

theorem lookupObject_eq_none_iff (s : Schema) (name : String) :
    s.lookupObject name = none ↔ (∀ j, ¬ s.IsNamed name j) ∧ ∀ j, ¬ s.IsNamed (name ++ ".") j := by
  rw [lookupObject]
  cases h : s.lookup name with
  | none => simp [lookup_eq_none_iff, (lookup_eq_none_iff s name).1 h]
  | some i =>
      have hi := (lookup_eq_some_iff s name i).1 h
      simp only [reduceCtorEq, false_iff]
      intro h
      obtain ⟨hno, -⟩ := h
      exact hno i hi

theorem qualifiedName?_eq_some_iff (s : Schema) (name : String) (id : NodeId) :
    (∃ n, s.get? id = some n ∧ (s.qualifiedName? n == some name) = true) ↔ s.IsQualified name id := by
  refine ⟨?_, ?_⟩
  · intro h
    obtain ⟨n, hn, hq⟩ := h
    have hq : s.qualifiedName? n = some name := by simpa using hq
    rw [qualifiedName?] at hq
    split at hq
    · rename_i p hp
      split at hq
      · rename_i parent hparent
        exact ⟨n, p, parent, hn, hp, hparent, by simpa using hq⟩
      · cases hq
    · cases hq
  · intro h
    obtain ⟨n, p, parent, hn, hp, hparent, hname⟩ := h
    refine ⟨n, hn, ?_⟩
    simp only [qualifiedName?, hp, hparent, hname, beq_self_eq_true]

theorem find_eq_some_iff (s : Schema) (path : String) (id : NodeId) : s.find path = some id ↔ s.Literal path id := by
  rw [find]
  cases h : s.lookupObject path with
  | some i =>
      refine ⟨?_, ?_⟩
      · intro e
        obtain rfl : i = id := Option.some.inj e
        rcases (lookupObject_eq_some_iff s path i).1 h with hi | ⟨hno, hi⟩
        · exact .exact hi
        · exact .object hno hi
      · intro hl
        have hid : s.lookupObject path = some id := by
          cases hl with
          | exact hi => exact (lookupObject_eq_some_iff s path id).2 (Or.inl hi)
          | object hno hi => exact (lookupObject_eq_some_iff s path id).2 (Or.inr ⟨hno, hi⟩)
          | child hno hno' _ _ =>
              rw [(lookupObject_eq_none_iff s path).2 ⟨hno, hno'⟩] at h
              cases h
        rw [← h, hid]
  | none =>
      obtain ⟨hno, hno'⟩ := (lookupObject_eq_none_iff s path).1 h
      show s.findNode? _ = some id ↔ _
      rw [findNode?_eq_some_iff, qualifiedName?_eq_some_iff]
      refine ⟨?_, ?_⟩
      · intro h
        obtain ⟨hq, hmin⟩ := h
        refine .child hno hno' hq ?_
        intro j hj hqj
        obtain ⟨n, hn, hname⟩ := (qualifiedName?_eq_some_iff s path j).2 hqj
        rw [hmin j hj n hn] at hname
        cases hname
      · intro hl
        cases hl with
        | exact hi => exact absurd hi (hno id)
        | object _ hi => exact absurd hi (hno' id)
        | child _ _ hq hmin =>
            refine ⟨hq, ?_⟩
            intro j hj n hn
            rw [Bool.eq_false_iff]
            intro hc
            exact hmin j hj ((qualifiedName?_eq_some_iff s path j).1 ⟨n, hn, hc⟩)

theorem find_eq_none_iff (s : Schema) (path : String) : s.find path = none ↔ ∀ id, ¬ s.Literal path id := by
  simp only [← find_eq_some_iff, Option.eq_none_iff_forall_ne_some, ne_eq]

theorem Literal.unique {s : Schema} {path : String} {i j : NodeId} (hi : s.Literal path i) (hj : s.Literal path j) :
    i = j :=
  Option.some.inj (((find_eq_some_iff s path i).2 hi).symm.trans ((find_eq_some_iff s path j).2 hj))

theorem Literal.exists_node {s : Schema} {path : String} {id : NodeId} (h : s.Literal path id) :
    ∃ n, s.get? id = some n := by
  cases h with
  | exact hi => exact ⟨_, hi.choose_spec.1⟩
  | object _ hi => exact ⟨_, hi.choose_spec.1⟩
  | child _ _ hq _ =>
      obtain ⟨n, _, _, hn, _⟩ := hq
      exact ⟨n, hn⟩

/-! ### The owner of a dotted path -/

/-- The node that the object of a reading names: by its name or, where it has more than one member behind it and no node
is called like it, by its name with a dot. -/
def NamesObject (s : Schema) (r : Path.Reading) (id : NodeId) : Prop :=
  s.IsNamed r.object id ∨ (2 ≤ r.members.length ∧ (∀ j, ¬ s.IsNamed r.object j) ∧ s.IsNamed (r.object ++ ".") id)

/-- The node inside which a dotted path leads, and the members behind it: of all readings whose object names a node, the
one with the fewest members. -/
def Owns (s : Schema) (path : String) (id : NodeId) (members : List String) : Prop :=
  ∃ object, Path.IsReading path ⟨object, members⟩ ∧ s.NamesObject ⟨object, members⟩ id ∧
    ∀ r, Path.IsReading path r → r.members.length < members.length → ∀ j, ¬ s.NamesObject r j

theorem ownerOf?_eq_some_iff (s : Schema) {r : Path.Reading} (hr : r.members ≠ []) (id : NodeId) :
    s.ownerOf? r = some id ↔ s.NamesObject r id := by
  rw [ownerOf?, NamesObject]
  split
  · rename_i m hm
    rw [lookup_eq_some_iff, hm]
    simp
  · rename_i hm
    have hlen : 2 ≤ r.members.length := by
      cases hms : r.members with
      | nil => exact absurd hms hr
      | cons m ms =>
          cases ms with
          | nil => exact absurd hms (hm m)
          | cons _ _ => simp
    rw [lookupObject_eq_some_iff]
    simp only [hlen, true_and]

theorem ownerOf?_eq_none_iff (s : Schema) {r : Path.Reading} (hr : r.members ≠ []) :
    s.ownerOf? r = none ↔ ∀ id, ¬ s.NamesObject r id := by
  simp only [← ownerOf?_eq_some_iff s hr, Option.eq_none_iff_forall_ne_some, ne_eq]

theorem owner?_eq_some_iff (s : Schema) (path : String) (id : NodeId) (members : List String) :
    s.owner? path = some (id, members) ↔ s.Owns path id members := by
  rw [owner?, Path.findSome?_readings]
  refine ⟨?_, ?_⟩
  · intro h
    obtain ⟨r, hr, hfound, hnone⟩ := h
    obtain ⟨i, hi, he⟩ := Option.map_eq_some_iff.1 hfound
    cases he
    refine ⟨r.object, hr, (ownerOf?_eq_some_iff s hr.1 _).1 hi, ?_⟩
    intro q hq hlt
    exact (ownerOf?_eq_none_iff s hq.1).1 (Option.map_eq_none_iff.1 (hnone q hq hlt))
  · intro h
    obtain ⟨object, hr, hname, hnone⟩ := h
    refine ⟨⟨object, members⟩, hr, ?_, ?_⟩
    · rw [(ownerOf?_eq_some_iff s hr.1 id).2 hname]
      rfl
    · intro q hq hlt
      rw [(ownerOf?_eq_none_iff s hq.1).2 (hnone q hq hlt)]
      rfl

theorem owner?_eq_none_iff (s : Schema) (path : String) :
    s.owner? path = none ↔ ∀ id members, ¬ s.Owns path id members := by
  simp only [← owner?_eq_some_iff, Option.eq_none_iff_forall_ne_some, ne_eq, Prod.forall]

theorem Owns.exists_node {s : Schema} {path : String} {id : NodeId} {members : List String}
    (h : s.Owns path id members) : ∃ n, s.get? id = some n := by
  obtain ⟨object, -, hname, -⟩ := h
  rcases hname with hi | ⟨-, -, hi⟩
  · exact ⟨_, hi.choose_spec.1⟩
  · exact ⟨_, hi.choose_spec.1⟩

/-- Only a dotted path has an owner. -/
theorem Owns.isDotted {s : Schema} {path : String} {id : NodeId} {members : List String}
    (h : s.Owns path id members) : Path.isDotted path = true := by
  obtain ⟨object, ⟨-, -, hpath⟩, -⟩ := h
  rw [Path.isDotted, hpath]
  simp

/-! ### What is found, and what is wrong -/

section Search

variable (s : Schema) (types : Catalog) (path : String) (requested : Option Descriptor)

/-- The path leads along the members of a structured owner. -/
def WalksTo (r : Resolution) : Prop :=
  ∃ id members node w stored, s.Owns path id members ∧ s.get? id = some node ∧ node.structured = true ∧
    walkMembers types path node.members members (Walk.start node.type) = .ok w ∧
    Serves types requested w.type stored ∧ r = ⟨id, stored.name, .chase w.chain⟩

/-- The path leads to a leaf of a flat owner. -/
def LeafAt (r : Resolution) : Prop :=
  ∃ id members node leaf stored, s.Owns path id members ∧ s.get? id = some node ∧ node.structured = false ∧
    node.member? (Path.dotted members) = some leaf ∧
    Serves types requested leaf.type stored ∧ r = ⟨id, stored.name, .field node.name leaf.name leaf.offset⟩

/-- The path names a node as a whole. -/
def WholeAt (r : Resolution) : Prop :=
  ∃ id node stored, s.Literal path id ∧ s.get? id = some node ∧ Serves types requested node.type stored ∧
    r = ⟨id, stored.name, .whole⟩

/-- Why a dotted path leads nowhere inside its owner. -/
inductive InsideFault : SetupError → Prop
  | noOwner : (∀ id members, ¬ s.Owns path id members) → InsideFault (.missingSubColumn path)
  | walk {id : NodeId} {members : List String} {node : Node} {e : SetupError} :
      s.Owns path id members → s.get? id = some node → node.structured = true →
      walkMembers types path node.members members (Walk.start node.type) = .error e → InsideFault e
  | walkType {id : NodeId} {members : List String} {node : Node} {w : Walk} {e : SetupError} :
      s.Owns path id members → s.get? id = some node → node.structured = true →
      walkMembers types path node.members members (Walk.start node.type) = .ok w →
      TypeFault types path requested w.type e → InsideFault e
  | noLeaf {id : NodeId} {members : List String} {node : Node} :
      s.Owns path id members → s.get? id = some node → node.structured = false →
      node.member? (Path.dotted members) = none → InsideFault (.missingSubColumn path)
  | leafType {id : NodeId} {members : List String} {node : Node} {leaf : Member} {e : SetupError} :
      s.Owns path id members → s.get? id = some node → node.structured = false →
      node.member? (Path.dotted members) = some leaf →
      TypeFault types path requested leaf.type e → InsideFault e

/-- What is wrong with the node that the path names as a whole. -/
def WholeFault (e : SetupError) : Prop :=
  ∃ id node, s.Literal path id ∧ s.get? id = some node ∧ TypeFault types path requested node.type e

variable {s types path requested}

theorem resolveWalk_eq_ok_iff {id : NodeId} {node : Node} {members : List String} {r : Resolution} :
    resolveWalk types path requested id node members = .ok r ↔
      ∃ w stored, walkMembers types path node.members members (Walk.start node.type) = .ok w ∧
        Serves types requested w.type stored ∧ r = ⟨id, stored.name, .chase w.chain⟩ := by
  rw [resolveWalk]
  cases walkMembers types path node.members members (Walk.start node.type) with
  | error e => simp
  | ok w =>
      refine Iff.trans typeChecked_found ?_
      refine ⟨?_, ?_⟩
      · intro h
        obtain ⟨stored, hserves, hr⟩ := h
        exact ⟨w, stored, rfl, hserves, hr⟩
      · intro h
        obtain ⟨v, stored, hv, hserves, hr⟩ := h
        cases hv
        exact ⟨stored, hserves, hr⟩

theorem resolveWalk_eq_error_iff {id : NodeId} {node : Node} {members : List String} {e : SetupError} :
    resolveWalk types path requested id node members = .error e ↔
      walkMembers types path node.members members (Walk.start node.type) = .error e ∨
        ∃ w, walkMembers types path node.members members (Walk.start node.type) = .ok w ∧
          TypeFault types path requested w.type e := by
  rw [resolveWalk]
  cases walkMembers types path node.members members (Walk.start node.type) with
  | error e => simp
  | ok w =>
      refine Iff.trans typeChecked_fault ?_
      simp

theorem resolveLeaf_eq_ok_iff {id : NodeId} {node : Node} {members : List String} {r : Resolution} :
    resolveLeaf types path requested id node members = .ok r ↔
      ∃ leaf stored, node.member? (Path.dotted members) = some leaf ∧ Serves types requested leaf.type stored ∧
        r = ⟨id, stored.name, .field node.name leaf.name leaf.offset⟩ := by
  rw [resolveLeaf]
  cases node.member? (Path.dotted members) with
  | none => simp
  | some leaf =>
      refine Iff.trans typeChecked_found ?_
      refine ⟨?_, ?_⟩
      · intro h
        obtain ⟨stored, hserves, hr⟩ := h
        exact ⟨leaf, stored, rfl, hserves, hr⟩
      · intro h
        obtain ⟨l, stored, hl, hserves, hr⟩ := h
        cases hl
        exact ⟨stored, hserves, hr⟩

theorem resolveLeaf_eq_error_iff {id : NodeId} {node : Node} {members : List String} {e : SetupError} :
    resolveLeaf types path requested id node members = .error e ↔
      (node.member? (Path.dotted members) = none ∧ e = .missingSubColumn path) ∨
        ∃ leaf, node.member? (Path.dotted members) = some leaf ∧ TypeFault types path requested leaf.type e := by
  rw [resolveLeaf]
  cases node.member? (Path.dotted members) with
  | none => simp [eq_comm]
  | some leaf =>
      refine Iff.trans typeChecked_fault ?_
      simp

/-- The search inside, once the owner is known. -/
theorem resolveInside_of_owns {id : NodeId} {members : List String} {node : Node} (ho : s.Owns path id members)
    (hn : s.get? id = some node) :
    s.resolveInside types path requested =
      if node.structured then resolveWalk types path requested id node members
      else resolveLeaf types path requested id node members := by
  rw [resolveInside, (owner?_eq_some_iff s path id members).2 ho]
  simp only [hn]

theorem resolveInside_eq_ok_iff {r : Resolution} :
    s.resolveInside types path requested = .ok r ↔
      s.WalksTo types path requested r ∨ s.LeafAt types path requested r := by
  refine ⟨?_, ?_⟩
  · intro h
    cases ho : s.owner? path with
    | none =>
        rw [resolveInside, ho] at h
        cases h
    | some found =>
        obtain ⟨id, members⟩ := found
        have ho := (owner?_eq_some_iff s path id members).1 ho
        obtain ⟨node, hn⟩ := ho.exists_node
        rw [resolveInside_of_owns ho hn] at h
        split at h
        · rename_i hs
          obtain ⟨w, stored, hw, hserves, hr⟩ := resolveWalk_eq_ok_iff.1 h
          exact Or.inl ⟨id, members, node, w, stored, ho, hn, hs, hw, hserves, hr⟩
        · rename_i hs
          obtain ⟨leaf, stored, hleaf, hserves, hr⟩ := resolveLeaf_eq_ok_iff.1 h
          exact Or.inr ⟨id, members, node, leaf, stored, ho, hn, by simpa using hs, hleaf, hserves, hr⟩
  · intro h
    rcases h with (⟨id, members, node, w, stored, ho, hn, hs, hw, hserves, hr⟩ |
      ⟨id, members, node, leaf, stored, ho, hn, hs, hleaf, hserves, hr⟩)
    · rw [resolveInside_of_owns ho hn, hs, if_pos rfl]
      exact resolveWalk_eq_ok_iff.2 ⟨w, stored, hw, hserves, hr⟩
    · rw [resolveInside_of_owns ho hn, hs, if_neg (by simp)]
      exact resolveLeaf_eq_ok_iff.2 ⟨leaf, stored, hleaf, hserves, hr⟩

theorem resolveInside_eq_error_iff {e : SetupError} :
    s.resolveInside types path requested = .error e ↔ s.InsideFault types path requested e := by
  refine ⟨?_, ?_⟩
  · intro h
    cases ho : s.owner? path with
    | none =>
        rw [resolveInside, ho] at h
        cases h
        exact .noOwner ((owner?_eq_none_iff s path).1 ho)
    | some found =>
        obtain ⟨id, members⟩ := found
        have ho := (owner?_eq_some_iff s path id members).1 ho
        obtain ⟨node, hn⟩ := ho.exists_node
        rw [resolveInside_of_owns ho hn] at h
        split at h
        · rename_i hs
          rcases resolveWalk_eq_error_iff.1 h with hw | ⟨w, hw, hf⟩
          · exact .walk ho hn hs hw
          · exact .walkType ho hn hs hw hf
        · rename_i hs
          have hs : node.structured = false := by simpa using hs
          rcases resolveLeaf_eq_error_iff.1 h with ⟨hleaf, rfl⟩ | ⟨leaf, hleaf, hf⟩
          · exact .noLeaf ho hn hs hleaf
          · exact .leafType ho hn hs hleaf hf
  · intro h
    cases h with
    | noOwner hno => rw [resolveInside, (owner?_eq_none_iff s path).2 hno]
    | walk ho hn hs hw =>
        rw [resolveInside_of_owns ho hn, hs, if_pos rfl]
        exact resolveWalk_eq_error_iff.2 (Or.inl hw)
    | walkType ho hn hs hw hf =>
        rw [resolveInside_of_owns ho hn, hs, if_pos rfl]
        exact resolveWalk_eq_error_iff.2 (Or.inr ⟨_, hw, hf⟩)
    | noLeaf ho hn hs hleaf =>
        rw [resolveInside_of_owns ho hn, hs, if_neg (by simp)]
        exact resolveLeaf_eq_error_iff.2 (Or.inl ⟨hleaf, rfl⟩)
    | leafType ho hn hs hleaf hf =>
        rw [resolveInside_of_owns ho hn, hs, if_neg (by simp)]
        exact resolveLeaf_eq_error_iff.2 (Or.inr ⟨_, hleaf, hf⟩)

theorem resolveWhole_eq_ok_iff {r : Resolution} :
    s.resolveWhole types path requested (s.find path) = .ok r ↔ s.WholeAt types path requested r := by
  cases hf : s.find path with
  | none =>
      have hno := (find_eq_none_iff s path).1 hf
      simp only [resolveWhole, reduceCtorEq, false_iff]
      intro h
      obtain ⟨id, -, -, hl, -⟩ := h
      exact hno id hl
  | some id =>
      have hl := (find_eq_some_iff s path id).1 hf
      obtain ⟨node, hn⟩ := hl.exists_node
      simp only [resolveWhole, hn]
      refine Iff.trans typeChecked_found ?_
      refine ⟨?_, ?_⟩
      · intro h
        obtain ⟨stored, hserves, hr⟩ := h
        exact ⟨id, node, stored, hl, hn, hserves, hr⟩
      · intro h
        obtain ⟨j, m, stored, hj, hm, hserves, hr⟩ := h
        obtain rfl := hl.unique hj
        obtain rfl := Option.some.inj (hn.symm.trans hm)
        exact ⟨stored, hserves, hr⟩

theorem resolveWhole_eq_error_iff {e : SetupError} :
    s.resolveWhole types path requested (s.find path) = .error e ↔
      s.WholeFault types path requested e ∨ ((∀ id, ¬ s.Literal path id) ∧ e = .missingColumn path) := by
  cases hf : s.find path with
  | none =>
      have hno := (find_eq_none_iff s path).1 hf
      simp only [resolveWhole, Except.error.injEq]
      refine ⟨?_, ?_⟩
      · rintro rfl
        exact Or.inr ⟨hno, rfl⟩
      · intro h
        rcases h with ⟨id, -, hl, -⟩ | ⟨-, rfl⟩
        · exact absurd hl (hno id)
        · rfl
  | some id =>
      have hl := (find_eq_some_iff s path id).1 hf
      obtain ⟨node, hn⟩ := hl.exists_node
      simp only [resolveWhole, hn]
      refine Iff.trans typeChecked_fault ?_
      refine ⟨?_, ?_⟩
      · intro hfault
        exact Or.inl ⟨id, node, hl, hn, hfault⟩
      · intro h
        rcases h with ⟨j, m, hj, hm, hfault⟩ | ⟨hno, -⟩
        · obtain rfl := hl.unique hj
          obtain rfl := Option.some.inj (hn.symm.trans hm)
          exact hfault
        · exact absurd hl (hno id)

/-! ### The four meetings -/

theorem WalksTo.isDotted {r : Resolution} (h : s.WalksTo types path requested r) : Path.isDotted path = true := by
  obtain ⟨_, _, _, _, _, ho, _⟩ := h
  exact ho.isDotted

theorem LeafAt.isDotted {r : Resolution} (h : s.LeafAt types path requested r) : Path.isDotted path = true := by
  obtain ⟨_, _, _, _, _, ho, _⟩ := h
  exact ho.isDotted

/-- A leaf wins, whatever else there is. -/
theorem resolve_of_leafAt {l : Resolution} (h : s.LeafAt types path requested l) :
    (s.resolve types path requested).1 = .ok l := by
  have hchain : l.access.chain? = none := by
    obtain ⟨_, _, _, _, _, _, _, _, _, _, rfl⟩ := h
    rfl
  simp only [resolve, h.isDotted, if_true, resolveInside_eq_ok_iff.2 (Or.inr h)]
  cases s.find path with
  | none => rfl
  | some id => simp [hchain]

/-- Where there is no leaf, the literal node wins. -/
theorem resolve_of_literal {id : NodeId} (hno : ∀ l, ¬ s.LeafAt types path requested l) (hl : s.Literal path id) :
    (s.resolve types path requested).1 = s.resolveWhole types path requested (s.find path) := by
  have hf := (find_eq_some_iff s path id).2 hl
  simp only [resolve]
  split
  · cases hin : s.resolveInside types path requested with
    | error e => simp only [hf]
    | ok r =>
        rcases resolveInside_eq_ok_iff.1 hin with ⟨_, _, _, _, _, _, _, _, _, _, rfl⟩ | hleaf
        · simp [hf, Access.chain?]
        · exact absurd hleaf (hno r)
  · rfl

/-- Where there is no literal node, a dotted path is looked for inside its owner only. -/
theorem resolve_of_isDotted (hno : ∀ id, ¬ s.Literal path id) (hd : Path.isDotted path = true) :
    (s.resolve types path requested).1 = s.resolveInside types path requested := by
  simp only [resolve, hd, if_true, (find_eq_none_iff s path).2 hno]

/-- A path without dots can only name a node. -/
theorem resolve_of_not_isDotted (hd : Path.isDotted path = false) :
    (s.resolve types path requested).1 = s.resolveWhole types path requested (s.find path) := by
  simp only [resolve, hd, Bool.false_eq_true, if_false]

/-- A dotted path has at most one thing inside its owner. -/
theorem eq_of_walksTo_of_leafAt {r l : Resolution} (hr : s.WalksTo types path requested r)
    (hl : s.LeafAt types path requested l) : r = l :=
  Except.ok.inj ((resolveInside_eq_ok_iff.2 (Or.inl hr)).symm.trans (resolveInside_eq_ok_iff.2 (Or.inr hl)))

theorem not_leafAt_of_walksTo {r : Resolution} (hr : s.WalksTo types path requested r) (l : Resolution) :
    ¬ s.LeafAt types path requested l := by
  intro hl
  obtain rfl := eq_of_walksTo_of_leafAt hr hl
  obtain ⟨_, _, _, _, _, _, _, _, _, _, rfl⟩ := hr
  obtain ⟨_, _, _, _, _, _, _, _, _, _, h⟩ := hl
  have haccess := congrArg Resolution.access h
  cases haccess

/-- What a path resolves to. -/
theorem resolve_eq_ok_iff {r : Resolution} :
    (s.resolve types path requested).1 = .ok r ↔
      s.LeafAt types path requested r ∨
        (s.WholeAt types path requested r ∧ ∀ l, ¬ s.LeafAt types path requested l) ∨
        (s.WalksTo types path requested r ∧ ∀ id, ¬ s.Literal path id) := by
  by_cases hleaf : ∃ l, s.LeafAt types path requested l
  · obtain ⟨l, hl⟩ := hleaf
    rw [resolve_of_leafAt hl]
    refine ⟨?_, ?_⟩
    · intro h
      cases h
      exact Or.inl hl
    · intro h
      rcases h with hr | ⟨-, hno⟩ | ⟨hr, -⟩
      · rw [← resolve_of_leafAt hl, resolve_of_leafAt hr]
      · exact absurd hl (hno l)
      · exact absurd hl (not_leafAt_of_walksTo hr l)
  · have hno : ∀ l, ¬ s.LeafAt types path requested l := fun l hl => hleaf ⟨l, hl⟩
    by_cases hlit : ∃ id, s.Literal path id
    · obtain ⟨id, hid⟩ := hlit
      rw [resolve_of_literal hno hid, resolveWhole_eq_ok_iff]
      refine ⟨?_, ?_⟩
      · intro h
        exact Or.inr (Or.inl ⟨h, hno⟩)
      · intro h
        rcases h with hr | ⟨h, -⟩ | ⟨-, hnolit⟩
        · exact absurd hr (hno r)
        · exact h
        · exact absurd hid (hnolit id)
    · have hnolit : ∀ id, ¬ s.Literal path id := fun id hid => hlit ⟨id, hid⟩
      have hwhole : ¬ s.WholeAt types path requested r := by
        intro h
        obtain ⟨id, _, _, hid, _⟩ := h
        exact hnolit id hid
      cases hd : Path.isDotted path with
      | true =>
          rw [resolve_of_isDotted hnolit hd, resolveInside_eq_ok_iff]
          refine ⟨?_, ?_⟩
          · intro h
            rcases h with h | h
            · exact Or.inr (Or.inr ⟨h, hnolit⟩)
            · exact Or.inl h
          · intro h
            rcases h with h | ⟨h, -⟩ | ⟨h, -⟩
            · exact Or.inr h
            · exact absurd h hwhole
            · exact Or.inl h
      | false =>
          rw [resolve_of_not_isDotted hd, resolveWhole_eq_ok_iff]
          refine ⟨?_, ?_⟩
          · intro h
            exact absurd h hwhole
          · intro h
            rcases h with h | ⟨h, -⟩ | ⟨h, -⟩
            · exact absurd h (hno r)
            · exact h
            · rw [h.isDotted] at hd
              cases hd

/-- Why a path does not resolve. -/
theorem resolve_eq_error_iff {e : SetupError} :
    (s.resolve types path requested).1 = .error e ↔
      (∀ l, ¬ s.LeafAt types path requested l) ∧
        (s.WholeFault types path requested e ∨
          ((∀ id, ¬ s.Literal path id) ∧
            if Path.isDotted path then s.InsideFault types path requested e else e = .missingColumn path)) := by
  by_cases hleaf : ∃ l, s.LeafAt types path requested l
  · obtain ⟨l, hl⟩ := hleaf
    simp only [resolve_of_leafAt hl, reduceCtorEq, false_iff]
    intro h
    obtain ⟨hno, -⟩ := h
    exact hno l hl
  · have hno : ∀ l, ¬ s.LeafAt types path requested l := fun l hl => hleaf ⟨l, hl⟩
    by_cases hlit : ∃ id, s.Literal path id
    · obtain ⟨id, hid⟩ := hlit
      rw [resolve_of_literal hno hid, resolveWhole_eq_error_iff]
      refine ⟨?_, ?_⟩
      · intro h
        rcases h with h | ⟨hnolit, -⟩
        · exact ⟨hno, Or.inl h⟩
        · exact absurd hid (hnolit id)
      · intro h
        rcases h with ⟨-, h | ⟨hnolit, -⟩⟩
        · exact Or.inl h
        · exact absurd hid (hnolit id)
    · have hnolit : ∀ id, ¬ s.Literal path id := fun id hid => hlit ⟨id, hid⟩
      have hwhole : ¬ s.WholeFault types path requested e := by
        intro h
        obtain ⟨id, _, hid, _⟩ := h
        exact hnolit id hid
      cases hd : Path.isDotted path with
      | true =>
          rw [resolve_of_isDotted hnolit hd, resolveInside_eq_error_iff, if_pos rfl]
          refine ⟨?_, ?_⟩
          · intro h
            exact ⟨hno, Or.inr ⟨hnolit, h⟩⟩
          · intro h
            rcases h with ⟨-, h | ⟨-, h⟩⟩
            · exact absurd h hwhole
            · exact h
      | false =>
          rw [resolve_of_not_isDotted hd, resolveWhole_eq_error_iff, if_neg (by simp)]
          refine ⟨?_, ?_⟩
          · intro h
            rcases h with h | ⟨-, rfl⟩
            · exact absurd h hwhole
            · exact ⟨hno, Or.inr ⟨hnolit, rfl⟩⟩
          · intro h
            rcases h with ⟨-, h | ⟨-, rfl⟩⟩
            · exact absurd h hwhole
            · exact Or.inr ⟨hnolit, rfl⟩

end Search

/-- **A path resolves exactly as the search says.**  A member walk is what it stands for when there is one and no node
has the whole name; a leaf whenever there is one; the literal node when there is one that serves and no leaf.  Otherwise
the error is that of the literal node's type, or else of the search inside a dotted path, or else a missing column. -/
theorem resolve_iff_search (s : Schema) (types : Catalog) (path : String) (requested : Option Descriptor) :
    (∀ r, ((s.resolve types path requested).1 = .ok r ∧ ∃ chain, r.access = .chase chain) ↔
      s.WalksTo types path requested r ∧ ∀ id, ¬ s.Literal path id) ∧
    (∀ r, ((s.resolve types path requested).1 = .ok r ∧ ∃ node leaf offset, r.access = .field node leaf offset) ↔
      s.LeafAt types path requested r) ∧
    (∀ r, ((s.resolve types path requested).1 = .ok r ∧ r.access = .whole) ↔
      s.WholeAt types path requested r ∧ ∀ l, ¬ s.LeafAt types path requested l) ∧
    ∀ e, (s.resolve types path requested).1 = .error e ↔
      (∀ l, ¬ s.LeafAt types path requested l) ∧
        (s.WholeFault types path requested e ∨
          ((∀ id, ¬ s.Literal path id) ∧
            if Path.isDotted path then s.InsideFault types path requested e else e = .missingColumn path)) := by
  refine ⟨?_, ?_, ?_, fun e => resolve_eq_error_iff⟩
  · intro r
    rw [resolve_eq_ok_iff]
    refine ⟨?_, ?_⟩
    · intro h
      rcases h with ⟨⟨_, _, _, _, _, _, _, _, _, _, rfl⟩ | ⟨⟨_, _, _, _, _, _, rfl⟩, -⟩ | h, chain, hchain⟩
      · cases hchain
      · cases hchain
      · exact h
    · intro h
      obtain ⟨h, hno⟩ := h
      refine ⟨Or.inr (Or.inr ⟨h, hno⟩), ?_⟩
      obtain ⟨_, _, _, w, _, _, _, _, _, _, rfl⟩ := h
      exact ⟨w.chain, rfl⟩
  · intro r
    rw [resolve_eq_ok_iff]
    refine ⟨?_, ?_⟩
    · intro h
      rcases h with ⟨h | ⟨⟨_, _, _, _, _, _, rfl⟩, -⟩ | ⟨⟨_, _, _, _, _, _, _, _, _, _, rfl⟩, -⟩, _, _, _, hfield⟩
      · exact h
      · cases hfield
      · cases hfield
    · intro h
      refine ⟨Or.inl h, ?_⟩
      obtain ⟨_, _, node, leaf, _, _, _, _, _, _, rfl⟩ := h
      exact ⟨node.name, leaf.name, leaf.offset, rfl⟩
  · intro r
    rw [resolve_eq_ok_iff]
    refine ⟨?_, ?_⟩
    · intro h
      rcases h with ⟨⟨_, _, _, _, _, _, _, _, _, _, rfl⟩ | h | ⟨⟨_, _, _, _, _, _, _, _, _, _, rfl⟩, -⟩, hwhole⟩
      · cases hwhole
      · exact h
      · cases hwhole
    · intro h
      obtain ⟨h, hno⟩ := h
      refine ⟨Or.inr (Or.inl ⟨h, hno⟩), ?_⟩
      obtain ⟨_, _, _, _, _, _, rfl⟩ := h
      rfl

end Schema

end TypedColumns
