import Mathlib.Data.List.Forall2
import TypedColumns.Proofs.Inheritance
import TypedColumns.Proofs.PathSearch

/-!
# Types under another name

A type definition gives a known type another name.  The other name may then stand anywhere where the old one stands: among
the members and bases of classes, in the nodes of a schema, and in a request.  What a path stands for stays the same, with
the stored type under the name that it has at the end of its chain.

* `Respelled` -- a name and what may stand in its place; the same for members, types and nodes.
* `Catalog.Respelled`, `Schema.Respelled` -- a catalog with one more type definition, and a schema, in which occurrences
  of the old name are replaced by the new one.
* `Catalog.Alike`, `Catalog.Respelled.resolve` -- what a name resolves to before and after, one like the other.
* `Catalog.Respelled.inherits`, `Catalog.Respelled.agreement` -- like types inherit alike and agree alike.
* `Catalog.Respelled.walkMembers` -- walks side by side take the same hops.
* `Schema.Respelled.find`, `Schema.Respelled.owner?` -- nodes are found as before.
* `Schema.resolve_respelled` -- **type definitions are transparent:** every path resolves as before, with the same error
  where there is one.
* `Schema.resolve_paddedSchema` -- not so where the new name stands with a blank around it.
-/

namespace TypedColumns

/-! ### Lists side by side -/

section Lists

variable {α β : Type} {R : α → β → Prop} {l : List α} {l' : List β}

theorem rel_find? (h : List.Forall₂ R l l') {p : α → Bool} {q : β → Bool} (hpq : ∀ a b, R a b → p a = q b) :
    Option.Rel R (l.find? p) (l'.find? q) := by
  induction h with
  | nil => exact .none
  | @cons a b l l' hab _ ih =>
      rw [List.find?_cons, List.find?_cons, hpq a b hab]
      cases q b with
      | true => exact .some hab
      | false => exact ih

theorem rel_getElem? (h : List.Forall₂ R l l') (i : Nat) : Option.Rel R l[i]? l'[i]? := by
  induction h generalizing i with
  | nil => exact .none
  | cons hab _ ih =>
      cases i with
      | zero => exact .some hab
      | succ i => exact ih i

theorem exists_mem_left (h : List.Forall₂ R l l') {b : β} (hb : b ∈ l') : ∃ a ∈ l, R a b := by
  induction h with
  | nil => cases hb
  | @cons a b' l l' hab _ ih =>
      rcases List.mem_cons.1 hb with rfl | hb
      · exact ⟨a, List.mem_cons_self, hab⟩
      · obtain ⟨a, ha, hab⟩ := ih hb
        exact ⟨a, List.mem_cons_of_mem _ ha, hab⟩

theorem exists_mem_right (h : List.Forall₂ R l l') {a : α} (ha : a ∈ l) : ∃ b ∈ l', R a b := by
  obtain ⟨b, hb, hab⟩ := exists_mem_left (List.Forall₂.flip (R := flip R) h) ha
  exact ⟨b, hb, hab⟩

end Lists

/-- What relates the starts of a chain to each other, and is kept step by step, relates its ends. -/
theorem exists_transGen {α : Type} {r p R : α → α → Prop}
    (hstep : ∀ {a b a'}, r a b → R a a' → ∃ b', p a' b' ∧ R b b') {a b a' : α} (h : Relation.TransGen r a b)
    (ha : R a a') : ∃ b', Relation.TransGen p a' b' ∧ R b b' := by
  induction h with
  | single hab =>
      obtain ⟨b', hb', hbb'⟩ := hstep hab ha
      exact ⟨b', .single hb', hbb'⟩
  | tail _ hbc ih =>
      obtain ⟨b', hb', hbb'⟩ := ih
      obtain ⟨c', hc', hcc'⟩ := hstep hbc hbb'
      exact ⟨c', .tail hb' hc', hcc'⟩

/-! ### Spellings -/

/-- A name and what may stand in its place: the name itself or, for the old name, the new one.  The name is not the new
one; nor is it that with blanks around it, which a catalog would take for the new one. -/
def Respelled (old new name name' : String) : Prop :=
  Text.trim name ≠ new ∧ (name' = name ∨ (name = old ∧ name' = new))

instance (old new name name' : String) : Decidable (Respelled old new name name') := instDecidableAnd

/-- A member whose type may be respelled. -/
structure Member.Respelled (old new : String) (m m' : Member) : Prop where
  name : m'.name = m.name
  type : TypedColumns.Respelled old new m.type m'.type
  offset : m'.offset = m.offset
  pointer : m'.pointer = m.pointer

/-- A type whose bases and members may be respelled.  What a type definition stands for may not. -/
inductive Form.Respelled (old new : String) : Form → Form → Prop
  | numeric (kind : Numeric) : Form.Respelled old new (.numeric kind) (.numeric kind)
  | enumeration (underlying : Numeric) : Form.Respelled old new (.enumeration underlying) (.enumeration underlying)
  | record {bases bases' : List String} {members members' : List Member} :
      List.Forall₂ (TypedColumns.Respelled old new) bases bases' →
      List.Forall₂ (Member.Respelled old new) members members' →
      Form.Respelled old new (.record bases members) (.record bases' members')
  | typedef {target : String} : Text.trim target ≠ new → Form.Respelled old new (.typedef target) (.typedef target)

/-- A type under its name, which stays. -/
structure Descriptor.Respelled (old new : String) (d d' : Descriptor) : Prop where
  name : d'.name = d.name
  form : Form.Respelled old new d.form d'.form

namespace Descriptor.Respelled

variable {old new : String} {d d' : Descriptor}

theorem target (h : Descriptor.Respelled old new d d') : d'.target? = d.target? := by
  obtain ⟨name, form⟩ := d
  obtain ⟨name', form'⟩ := d'
  obtain ⟨-, hform⟩ := h
  cases hform with
  | _ => rfl

theorem target_ne (h : Descriptor.Respelled old new d d') {target : String} (ht : d.target? = some target) :
    Text.trim target ≠ new := by
  obtain ⟨name, form⟩ := d
  obtain ⟨name', form'⟩ := d'
  obtain ⟨-, hform⟩ := h
  cases hform with
  | typedef hne =>
      cases ht
      exact hne
  | _ => cases ht

theorem bases (h : Descriptor.Respelled old new d d') :
    List.Forall₂ (TypedColumns.Respelled old new) d.bases d'.bases := by
  obtain ⟨name, form⟩ := d
  obtain ⟨name', form'⟩ := d'
  obtain ⟨-, hform⟩ := h
  cases hform with
  | record hbases _ => exact hbases
  | _ => exact .nil

theorem members? (h : Descriptor.Respelled old new d d') :
    Option.Rel (List.Forall₂ (Member.Respelled old new)) d.members? d'.members? := by
  obtain ⟨name, form⟩ := d
  obtain ⟨name', form'⟩ := d'
  obtain ⟨-, hform⟩ := h
  cases hform with
  | record _ hmembers => exact .some hmembers
  | _ => exact .none

end Descriptor.Respelled

/-! ### Catalogs -/

namespace Catalog

/-- A catalog in which the new name, a name that occurs nowhere before, is defined to be the old one, and stands in its
place among some of the bases and members of classes.  The old one leads to its type through 14 definitions at most. -/
structure Respelled (old new : String) (c c' : Catalog) : Prop where
  apart : Text.trim new = new
  fresh : c.find? new = none
  reached : ∃ hops ≤ 14, ∃ d, c.StandsFor hops old d
  added : c'.find? new = some ⟨new, .typedef old⟩
  kept : ∀ name, name ≠ new → Option.Rel (Descriptor.Respelled old new) (c.find? name) (c'.find? name)

/-- Two types that are what their names resolve to, the one respelled as the other. -/
structure Alike (old new : String) (c c' : Catalog) (d d' : Descriptor) : Prop where
  own : c.resolve d.name = some d
  own' : c'.resolve d'.name = some d'
  respelled : Descriptor.Respelled old new d d'

variable {old new : String} {c c' : Catalog}

theorem Alike.right_unique {d e e' : Descriptor} (he : Alike old new c c' d e) (he' : Alike old new c c' d e') :
    e = e' := by
  have h := he.own'
  rw [he.respelled.name, ← he'.respelled.name, he'.own'] at h
  exact (Option.some.inj h).symm

theorem Alike.left_unique {d d' e : Descriptor} (hd : Alike old new c c' d e) (hd' : Alike old new c c' d' e) :
    d = d' := by
  have h := hd.own
  rw [← hd.respelled.name, hd'.respelled.name, hd'.own] at h
  exact (Option.some.inj h).symm

namespace Respelled

/-- One more definition behind the descriptors of a catalog, some of them respelled. -/
theorem of_entries {entries : List Descriptor} (apart : Text.trim new = new) (fresh : c.find? new = none)
    (reached : ∃ hops ≤ 14, ∃ d, c.StandsFor hops old d)
    (hentries : List.Forall₂ (Descriptor.Respelled old new) c.entries entries)
    (hc' : c'.entries = entries ++ [⟨new, .typedef old⟩]) : c.Respelled old new c' := by
  have hrel : ∀ name, Option.Rel (Descriptor.Respelled old new) (c.find? name)
      (entries.find? (fun e => e.name == name)) := by
    intro name
    refine rel_find? hentries ?_
    intro d d' hdd'
    rw [hdd'.name]
  refine ⟨apart, fresh, reached, ?_, ?_⟩
  · rw [Catalog.find?, hc', List.find?_append]
    rcases rel_cases (hrel new) with ⟨-, hnone⟩ | ⟨d, d', hd, -, -⟩
    · rw [hnone]
      simp
    · cases fresh.symm.trans hd
  · intro name hname
    have hlast : (new == name) = false := beq_false_of_ne hname.symm
    rw [show c'.find? name = entries.find? (fun e => e.name == name) by
      rw [Catalog.find?, hc', List.find?_append]
      simp [hlast]]
    exact hrel name

/-- The types under other names than the new one are carried over. -/
theorem follows (h : c.Respelled old new c') :
    Follows (fun name => Text.trim name ≠ new) (Descriptor.Respelled old new) c c' :=
  .of_rel (fun _ hname => h.kept _ hname) (fun _ _ hdd' => hdd'.target) (fun _ _ _ hdd' ht => hdd'.target_ne ht)

/-- And nothing else is there. -/
theorem followed (h : c.Respelled old new c') :
    Follows (fun name => Text.trim name ≠ new) (flip (Descriptor.Respelled old new)) c' c := by
  refine .of_rel (fun _ hname => rel_flip (h.kept _ hname)) (fun _ _ hdd' => hdd'.target.symm) ?_
  intro d' d target hdd' ht
  exact hdd'.target_ne (hdd'.target.symm.trans ht)

/-- What is known before is not the new name. -/
theorem trim_ne (h : c.Respelled old new c') {name : String} {d : Descriptor} (hd : c.lookup name = some d) :
    Text.trim name ≠ new := by
  intro hname
  rw [lookup, hname, h.fresh] at hd
  cases hd

/-- A name that stays resolves to like types. -/
theorem resolve_same (h : c.Respelled old new c') {name : String} (hname : Text.trim name ≠ new) :
    Option.Rel (Alike old new c c') (c.resolve name) (c'.resolve name) := by
  cases hd : c.resolve name with
  | some d =>
      obtain ⟨d', hd', hdd'⟩ := h.follows.resolve hname hd
      rw [hd']
      exact .some ⟨resolve_name hd, resolve_name hd', hdd'⟩
  | none =>
      cases hd' : c'.resolve name with
      | none => exact .none
      | some d' =>
          obtain ⟨d, hd'', -⟩ := h.followed.resolve hname hd'
          rw [hd] at hd''
          cases hd''

/-- The new name resolves to the type that the old one resolves to: there is a look left for the definition. -/
theorem resolve_new (h : c.Respelled old new c') : c'.resolve new = c'.resolve old := by
  obtain ⟨hops, hle, d, hold⟩ := h.reached
  obtain ⟨e, he⟩ := hold.exists_lookup
  obtain ⟨d', hd', -⟩ := h.follows.standsFor hold (h.trim_ne he)
  have hlookup : c'.lookup new = some ⟨new, .typedef old⟩ := by rw [lookup, h.apart, h.added]
  have hlt : hops + 1 < typedefLimit := by
    rw [typedefLimit]
    omega
  rw [resolve_eq_some_iff.2 ⟨hops, Nat.lt_of_succ_lt hlt, hd'⟩]
  exact resolve_eq_some_iff.2 ⟨hops + 1, hlt, .hop hlookup rfl hd'⟩

/-- A name and what stands in its place resolve to like types. -/
theorem resolve (h : c.Respelled old new c') {name name' : String} (hname : TypedColumns.Respelled old new name name') :
    Option.Rel (Alike old new c c') (c.resolve name) (c'.resolve name') := by
  obtain ⟨hne, rfl | ⟨rfl, rfl⟩⟩ := hname
  · exact h.resolve_same hne
  · rw [h.resolve_new]
    exact h.resolve_same hne

/-- A name that is not known stays as it is. -/
theorem eq_of_resolve_eq_none (h : c.Respelled old new c') {name name' : String}
    (hname : TypedColumns.Respelled old new name name') (hnone : c.resolve name = none) : name' = name := by
  obtain ⟨-, rfl | ⟨rfl, rfl⟩⟩ := hname
  · rfl
  · obtain ⟨hops, hle, d, hold⟩ := h.reached
    have hlt : hops < typedefLimit := by
      rw [typedefLimit]
      omega
    rw [resolve_eq_some_iff.2 ⟨hops, hlt, hold⟩] at hnone
    cases hnone

/-- A name and what stands in its place lead to layouts with like members, or to none. -/
theorem layout (h : c.Respelled old new c') {name name' : String} (hname : TypedColumns.Respelled old new name name') :
    Option.Rel (List.Forall₂ (Member.Respelled old new)) ((c.resolve name).bind Descriptor.members?)
      ((c'.resolve name').bind Descriptor.members?) := by
  rcases rel_cases (h.resolve hname) with ⟨hd, hd'⟩ | ⟨d, d', hd, hd', hdd'⟩
  · rw [hd, hd']
    exact .none
  · rw [hd, hd']
    exact hdd'.respelled.members?

/-! ### Inheritance and agreement -/

theorem exists_extends_right (h : c.Respelled old new c') {d e d' : Descriptor} (he : c.Extends d e)
    (hd : Alike old new c c' d d') : ∃ e', c'.Extends d' e' ∧ Alike old new c c' e e' := by
  obtain ⟨b, hb, he⟩ := he
  obtain ⟨b', hb', hbb'⟩ := exists_mem_right hd.respelled.bases hb
  obtain ⟨e', he', hee'⟩ := exists_right_of_rel (h.resolve hbb') he
  exact ⟨e', ⟨b', hb', he'⟩, hee'⟩

theorem exists_extends_left (h : c.Respelled old new c') {d' e' d : Descriptor} (he : c'.Extends d' e')
    (hd : Alike old new c c' d d') : ∃ e, c.Extends d e ∧ Alike old new c c' e e' := by
  obtain ⟨b', hb', he'⟩ := he
  obtain ⟨b, hb, hbb'⟩ := exists_mem_left hd.respelled.bases hb'
  obtain ⟨e, he, hee'⟩ := exists_left_of_rel (h.resolve hbb') he'
  exact ⟨e, ⟨b, hb, he⟩, hee'⟩

/-- Like types inherit from like types.  The search of one catalog is followed in the other through its chains of classes,
for the spellings that it lists are not the same. -/
theorem inherits (h : c.Respelled old new c') {d d' e e' : Descriptor} (hd : Alike old new c c' d d')
    (he : Alike old new c c' e e') : c'.inherits d'.name e'.name = c.inherits d.name e.name := by
  rw [Bool.eq_iff_iff, inherits_name_iff hd.own' he.own', inherits_name_iff hd.own he.own]
  refine ⟨?_, ?_⟩
  · intro hchain
    obtain ⟨f, hf, hfe⟩ := exists_transGen (R := flip (Alike old new c c')) h.exists_extends_left hchain hd
    rw [he.left_unique hfe]
    exact hf
  · intro hchain
    obtain ⟨f', hf', hef'⟩ := exists_transGen h.exists_extends_right hchain hd
    rw [he.right_unique hef']
    exact hf'

/-- Like types agree alike. -/
theorem agreement (h : c.Respelled old new c') {wanted wanted' stored stored' : Descriptor}
    (hw : Alike old new c c' wanted wanted') (hs : Alike old new c c' stored stored') :
    c'.agreement wanted' stored' = c.agreement wanted stored := by
  have hinherits := h.inherits hs hw
  rw [Catalog.agreement, Catalog.agreement, hw.respelled.name, hs.respelled.name]
  rw [hw.respelled.name, hs.respelled.name] at hinherits
  have hwform := hw.respelled.form
  have hsform := hs.respelled.form
  generalize wanted.form = wform at *
  generalize wanted'.form = wform' at *
  generalize stored.form = sform at *
  generalize stored'.form = sform' at *
  cases hwform with
  | record _ _ =>
      cases hsform with
      | record _ _ => simp only [hinherits]
      | _ => rfl
  | _ =>
      cases hsform with
      | _ => rfl

/-! ### Checked types and walks -/

/-- What a check of a type comes to: one error on both sides, or types of one name. -/
theorem typeChecked (h : c.Respelled old new c') (path : String) {requested requested' : Option Descriptor}
    {type type' : String} (hrequest : Option.Rel (Alike old new c c') requested requested')
    (htype : TypedColumns.Respelled old new type type') :
    (∃ e, TypedColumns.typeChecked c path requested type = .error e ∧
      TypedColumns.typeChecked c' path requested' type' = .error e) ∨
    ∃ d d', TypedColumns.typeChecked c path requested type = .ok d ∧
      TypedColumns.typeChecked c' path requested' type' = .ok d' ∧ d'.name = d.name := by
  rw [TypedColumns.typeChecked, TypedColumns.typeChecked]
  rcases rel_cases (h.resolve htype) with ⟨hd, hd'⟩ | ⟨stored, stored', hd, hd', hstored⟩
  · rw [hd, hd', h.eq_of_resolve_eq_none htype hd]
    exact Or.inl ⟨_, rfl, rfl⟩
  · rw [hd, hd']
    cases hrequest with
    | none => exact Or.inr ⟨stored, stored', rfl, rfl, hstored.respelled.name⟩
    | @some wanted wanted' hwanted =>
        simp only [h.agreement hwanted hstored]
        by_cases hc : (c.agreement wanted stored).isCompatible = true
        · rw [if_pos hc, if_pos hc]
          exact Or.inr ⟨stored, stored', rfl, rfl, hstored.respelled.name⟩
        · rw [if_neg hc, if_neg hc, hstored.respelled.name, hwanted.respelled.name]
          exact Or.inl ⟨_, rfl, rfl⟩

end Respelled

end Catalog

/-- Two walks that came equally far, to a type that may be respelled. -/
structure Walk.Respelled (old new : String) (w w' : Walk) : Prop where
  hops : w'.hops = w.hops
  offset : w'.offset = w.offset
  type : TypedColumns.Respelled old new w.type w'.type

theorem Walk.Respelled.step {old new : String} {w w' : Walk} {m m' : Member} (h : Walk.Respelled old new w w')
    (hm : Member.Respelled old new m m') : Option.Rel (Walk.Respelled old new) (w.step m) (w'.step m') := by
  rw [Walk.step, Walk.step, h.hops, h.offset, hm.offset, hm.pointer]
  split
  · split
    · exact .some ⟨rfl, rfl, hm.type⟩
    · exact .some ⟨rfl, rfl, hm.type⟩
  · exact .none

theorem findMember?_respelled {old new : String} {members members' : List Member}
    (h : List.Forall₂ (Member.Respelled old new) members members') (name : String) :
    Option.Rel (Member.Respelled old new) (findMember? members name) (findMember? members' name) := by
  refine rel_find? h ?_
  intro m m' hm
  rw [hm.name]

/-- Walks side by side end in one error or equally far.  The induction is on the names, each of which takes both walks
one member further, into layouts that are respelled in turn. -/
theorem Catalog.Respelled.walkMembers {old new : String} {c c' : Catalog} (h : c.Respelled old new c') (path : String)
    (names : List String) {layout layout' : List Member} {w w' : Walk}
    (hlayout : List.Forall₂ (Member.Respelled old new) layout layout') (hw : Walk.Respelled old new w w') :
    (∃ e, TypedColumns.walkMembers c path layout names w = .error e ∧
      TypedColumns.walkMembers c' path layout' names w' = .error e) ∨
    ∃ v v', TypedColumns.walkMembers c path layout names w = .ok v ∧
      TypedColumns.walkMembers c' path layout' names w' = .ok v' ∧ Walk.Respelled old new v v' := by
  induction names generalizing layout layout' w w' with
  | nil => exact Or.inr ⟨w, w', rfl, rfl, hw⟩
  | cons name names ih =>
      rcases rel_cases (findMember?_respelled hlayout name) with ⟨hm, hm'⟩ | ⟨m, m', hm, hm', hmember⟩
      · simp only [TypedColumns.walkMembers, hm, hm']
        exact Or.inl ⟨_, rfl, rfl⟩
      · rcases rel_cases (hw.step hmember) with ⟨hv, hv'⟩ | ⟨v, v', hv, hv', hstep⟩
        · simp only [TypedColumns.walkMembers, hm, hm', hv, hv']
          exact Or.inl ⟨_, rfl, rfl⟩
        · cases names with
          | nil =>
              simp only [TypedColumns.walkMembers, hm, hm', hv, hv']
              exact Or.inr ⟨v, v', rfl, rfl, hstep⟩
          | cons next rest =>
              rw [TypedColumns.walkMembers, TypedColumns.walkMembers]
              simp only [hm, hm', hv, hv']
              rcases rel_cases (h.layout hmember.type) with ⟨hl, hl'⟩ | ⟨inner, inner', hl, hl', hinner⟩
              · rw [hl, hl']
                exact Or.inl ⟨_, rfl, rfl⟩
              · rw [hl, hl']
                exact ih hinner hstep

/-! ### Schemas -/

/-- A node whose type and members may be respelled. -/
structure Node.Respelled (old new : String) (n n' : Node) : Prop where
  kept : n' = { n with type := n'.type, members := n'.members }
  type : TypedColumns.Respelled old new n.type n'.type
  members : List.Forall₂ (Member.Respelled old new) n.members n'.members

theorem Node.Respelled.name {old new : String} {n n' : Node} (h : Node.Respelled old new n n') : n'.name = n.name := by
  rw [h.kept]

theorem Node.Respelled.parent {old new : String} {n n' : Node} (h : Node.Respelled old new n n') :
    n'.parent = n.parent := by
  rw [h.kept]

theorem Node.Respelled.structured {old new : String} {n n' : Node} (h : Node.Respelled old new n n') :
    n'.structured = n.structured := by
  rw [h.kept]

namespace Schema

/-- A schema in which the new name stands in the place of the old one for some of the types of nodes and members. -/
def Respelled (old new : String) (s s' : Schema) : Prop := List.Forall₂ (Node.Respelled old new) s.nodes s'.nodes

variable {old new : String} {s s' : Schema} {c c' : Catalog} {path : String} {requested requested' : Option Descriptor}

namespace Respelled

theorem get? (h : s.Respelled old new s') (id : NodeId) :
    Option.Rel (Node.Respelled old new) (s.get? id) (s'.get? id) :=
  rel_getElem? h id.index

/-! ### Nodes by name -/

theorem findNode? (h : s.Respelled old new s') {p p' : Node → Bool}
    (hp : ∀ n n', Node.Respelled old new n n' → p' n' = p n) : s'.findNode? p' = s.findNode? p := by
  refine findNode?_congr ?_
  intro id
  rcases rel_cases (h.get? id) with ⟨hn, hn'⟩ | ⟨n, n', hn, hn', hnode⟩
  · rw [hn, hn']
    rfl
  · rw [hn, hn', Option.map_some, Option.map_some, hp n n' hnode]

theorem lookup (h : s.Respelled old new s') (name : String) : s'.lookup name = s.lookup name := by
  apply Option.ext
  intro id
  rw [lookup_eq_some_iff, lookup_eq_some_iff, IsNamed, IsNamed]
  rcases rel_cases (h.get? id) with ⟨hn, hn'⟩ | ⟨n, n', hn, hn', hnode⟩
  · simp [hn, hn']
  · simp [hn, hn', hnode.name]

theorem lookupObject (h : s.Respelled old new s') (name : String) : s'.lookupObject name = s.lookupObject name := by
  rw [Schema.lookupObject, Schema.lookupObject, h.lookup, h.lookup]

theorem qualifiedName? (h : s.Respelled old new s') {n n' : Node} (hnode : Node.Respelled old new n n') :
    s'.qualifiedName? n' = s.qualifiedName? n := by
  rw [Schema.qualifiedName?, Schema.qualifiedName?, hnode.parent, hnode.name]
  cases n.parent with
  | none => rfl
  | some p =>
      rcases rel_cases (h.get? p.node) with ⟨hp, hp'⟩ | ⟨parent, parent', hp, hp', hparent⟩
      · simp only [hp, hp']
      · simp only [hp, hp', hparent.name]

theorem find (h : s.Respelled old new s') (name : String) : s'.find name = s.find name := by
  rw [Schema.find, Schema.find, h.lookupObject, h.findNode? (fun n n' hnode => by rw [h.qualifiedName? hnode])]

theorem owner? (h : s.Respelled old new s') (path : String) : s'.owner? path = s.owner? path := by
  have howner : s'.ownerOf? = s.ownerOf? := by
    funext r
    rw [ownerOf?, ownerOf?, h.lookup, h.lookupObject]
  rw [Schema.owner?, Schema.owner?, howner]

end Respelled

/-! ### Resolution -/

/-- A walk into a respelled node resolves as before. -/
theorem resolveWalk_respelled (hc : c.Respelled old new c')
    (hrequest : Option.Rel (Catalog.Alike old new c c') requested requested') {n n' : Node}
    (hnode : Node.Respelled old new n n') (id : NodeId) (members : List String) :
    resolveWalk c' path requested' id n' members = resolveWalk c path requested id n members := by
  have hstart : Walk.Respelled old new (Walk.start n.type) (Walk.start n'.type) := ⟨rfl, rfl, hnode.type⟩
  rw [resolveWalk, resolveWalk]
  rcases hc.walkMembers path members hnode.members hstart with ⟨e, hw, hw'⟩ | ⟨w, w', hw, hw', hwalk⟩
  · rw [hw, hw']
  · rw [hw, hw']
    rcases hc.typeChecked path hrequest hwalk.type with ⟨e, hd, hd'⟩ | ⟨d, d', hd, hd', hname⟩
    · simp only [hd, hd']
    · simp only [hd, hd', hname, Walk.chain, hwalk.hops, hwalk.offset]

/-- A leaf of a respelled node resolves as before. -/
theorem resolveLeaf_respelled (hc : c.Respelled old new c')
    (hrequest : Option.Rel (Catalog.Alike old new c c') requested requested') {n n' : Node}
    (hnode : Node.Respelled old new n n') (id : NodeId) (members : List String) :
    resolveLeaf c' path requested' id n' members = resolveLeaf c path requested id n members := by
  have hfound := findMember?_respelled hnode.members (Path.dotted members)
  rw [resolveLeaf, resolveLeaf, Node.member?, Node.member?]
  rcases rel_cases hfound with ⟨hm, hm'⟩ | ⟨m, m', hm, hm', hleaf⟩
  · rw [hm, hm']
  · rw [hm, hm']
    rcases hc.typeChecked path hrequest hleaf.type with ⟨e, hd, hd'⟩ | ⟨d, d', hd, hd', hname⟩
    · simp only [hd, hd']
    · simp only [hd, hd', hname, hnode.name, hleaf.name, hleaf.offset]

theorem resolveInside_respelled (hc : c.Respelled old new c') (hs : s.Respelled old new s')
    (hrequest : Option.Rel (Catalog.Alike old new c c') requested requested') :
    s'.resolveInside c' path requested' = s.resolveInside c path requested := by
  rw [resolveInside, resolveInside, hs.owner?]
  cases s.owner? path with
  | none => rfl
  | some owned =>
      obtain ⟨id, members⟩ := owned
      rcases rel_cases (hs.get? id) with ⟨hn, hn'⟩ | ⟨n, n', hn, hn', hnode⟩
      · simp only [hn, hn']
      · simp only [hn, hn', hnode.structured, resolveWalk_respelled hc hrequest hnode,
          resolveLeaf_respelled hc hrequest hnode]

theorem resolveWhole_respelled (hc : c.Respelled old new c') (hs : s.Respelled old new s')
    (hrequest : Option.Rel (Catalog.Alike old new c c') requested requested') (literal : Option NodeId) :
    s'.resolveWhole c' path requested' literal = s.resolveWhole c path requested literal := by
  cases literal with
  | none => rfl
  | some id =>
      rw [resolveWhole, resolveWhole]
      rcases rel_cases (hs.get? id) with ⟨hn, hn'⟩ | ⟨n, n', hn, hn', hnode⟩
      · simp only [hn, hn']
      · rcases hc.typeChecked path hrequest hnode.type with ⟨e, hd, hd'⟩ | ⟨d, d', hd, hd', hname⟩
        · simp only [hn, hn', hd, hd']
        · simp only [hn, hn', hd, hd', hname]

theorem resolve_of_alike (hc : c.Respelled old new c') (hs : s.Respelled old new s')
    (hrequest : Option.Rel (Catalog.Alike old new c c') requested requested') :
    s'.resolve c' path requested' = s.resolve c path requested := by
  simp only [resolve, hs.find, resolveInside_respelled hc hs hrequest, resolveWhole_respelled hc hs hrequest]

/-- **Type definitions are transparent.**  Give a known type another name, and put that name in the place of the old one
wherever you like.  Then every path resolves as before, to the same node, stored type and mode or with the same error:
when nothing is requested, and when the request is made under a name that was known or, for the old name, under the new
one. -/
theorem resolve_respelled (hc : c.Respelled old new c') (hs : s.Respelled old new s') (path : String) :
    s'.resolve c' path none = s.resolve c path none ∧
    ∀ name name', (c.lookup name).isSome = true → name' = name ∨ (name = old ∧ name' = new) →
      (c'.resolve name').isSome = (c.resolve name).isSome ∧
        s'.resolve c' path (c'.resolve name') = s.resolve c path (c.resolve name) := by
  refine ⟨resolve_of_alike hc hs .none, ?_⟩
  intro name name' hknown hname
  obtain ⟨d, hd⟩ := Option.isSome_iff_exists.1 hknown
  have hrequest := hc.resolve ⟨hc.trim_ne hd, hname⟩
  refine ⟨?_, resolve_of_alike hc hs hrequest⟩
  rcases rel_cases hrequest with ⟨hr, hr'⟩ | ⟨e, e', hr, hr', -⟩
  · rw [hr, hr']
  · rw [hr, hr', Option.isSome_some, Option.isSome_some]

/-! ### A track that is an object -/

/-- A number, an object, and a track that is an object, under a name for objects. -/
def objectEntries (base : String) : List Descriptor :=
  [⟨"int", .numeric .i32⟩, ⟨"Object", .record [] []⟩, ⟨"Track", .record [base] [⟨"px", "int", 0, false⟩]⟩]

def objectTypes : Catalog := ⟨objectEntries "Object", by decide +kernel⟩

/-- The same with another name for objects. -/
def aliasedTypes : Catalog := ⟨objectEntries "Object_t" ++ [⟨"Object_t", Form.typedef "Object"⟩], by decide +kernel⟩

/-- An event with a track and a pointer to the object that owns it. -/
def ownedNode (owner : String) : Node :=
  ⟨"event", "Event", .primary, none, none, .single, true, [⟨"track", "Track", 24, false⟩, ⟨"owner", owner, 32, true⟩]⟩

def ownedSchema : Schema := .ofNodes [ownedNode "Object"] (by decide +kernel)

def aliasedSchema : Schema := .ofNodes [ownedNode "Object_t"] (by decide +kernel)

/-- An event has a track where an object is asked for. -/
theorem resolve_ownedSchema :
    (ownedSchema.resolve objectTypes "event.track" (objectTypes.resolve "Object")).1 =
      .ok ⟨⟨0⟩, "Track", .chase ⟨[], 24⟩⟩ := by
  have hobject : objectTypes.resolve "Object" = some ⟨"Object", .record [] []⟩ := rfl
  have hinherits : objectTypes.inherits "Track" "Object" = true :=
    Catalog.inherits_eq_true_iff.2 ⟨["Object"], .last (by decide +kernel) hobject (Or.inl rfl)⟩
  have hserves : Serves objectTypes (objectTypes.resolve "Object") "Track"
      ⟨"Track", .record ["Object"] [⟨"px", "int", 0, false⟩]⟩ := by
    refine ⟨rfl, ?_⟩
    intro wanted hwanted
    cases hobject.symm.trans hwanted
    simp [Catalog.agreement, hinherits, Agreement.isCompatible]
  have hwalk : ownedSchema.WalksTo objectTypes "event.track" (objectTypes.resolve "Object")
      ⟨⟨0⟩, "Track", .chase ⟨[], 24⟩⟩ :=
    ⟨⟨0⟩, ["track"], ownedNode "Object", ⟨[], 24, "Track"⟩, _, (owner?_eq_some_iff _ _ _ _).1 rfl, rfl, rfl, rfl,
      hserves, rfl⟩
  exact resolve_eq_ok_iff.2 (Or.inr (Or.inr ⟨hwalk, (find_eq_none_iff _ _).1 rfl⟩))

/-- A track is still an object when objects are called otherwise, among the bases of the track, in the event and in the
request. -/
theorem resolve_respelled_event :
    objectTypes.Respelled "Object" "Object_t" aliasedTypes ∧ ownedSchema.Respelled "Object" "Object_t" aliasedSchema ∧
      (aliasedSchema.resolve aliasedTypes "event.track" (aliasedTypes.resolve "Object_t")).1 =
        .ok ⟨⟨0⟩, "Track", .chase ⟨[], 24⟩⟩ := by
  have hint : Member.Respelled "Object" "Object_t" ⟨"px", "int", 0, false⟩ ⟨"px", "int", 0, false⟩ :=
    ⟨rfl, by decide +kernel, rfl, rfl⟩
  have htrack : Member.Respelled "Object" "Object_t" ⟨"track", "Track", 24, false⟩ ⟨"track", "Track", 24, false⟩ :=
    ⟨rfl, by decide +kernel, rfl, rfl⟩
  have howner : Member.Respelled "Object" "Object_t" ⟨"owner", "Object", 32, true⟩ ⟨"owner", "Object_t", 32, true⟩ :=
    ⟨rfl, by decide +kernel, rfl, rfl⟩
  have hc : objectTypes.Respelled "Object" "Object_t" aliasedTypes := by
    refine .of_entries (by decide +kernel) (by decide +kernel) ⟨0, by decide, _, .here rfl rfl⟩ ?_ rfl
    refine .cons ⟨rfl, .numeric _⟩ (.cons ⟨rfl, .record .nil .nil⟩ (.cons ⟨rfl, .record ?_ ?_⟩ .nil))
    · exact .cons (by decide +kernel) .nil
    · exact .cons hint .nil
  have hs : ownedSchema.Respelled "Object" "Object_t" aliasedSchema :=
    .cons ⟨rfl, by decide +kernel, .cons htrack (.cons howner .nil)⟩ .nil
  refine ⟨hc, hs, ?_⟩
  obtain ⟨-, hrequest⟩ := resolve_respelled hc hs "event.track"
  obtain ⟨-, hsame⟩ := hrequest "Object" "Object_t" (by decide +kernel) (Or.inr ⟨rfl, rfl⟩)
  exact (congrArg Prod.fst hsame).trans resolve_ownedSchema

/-- A node whose type is written with a blank before it. -/
def paddedSchema : Schema := .ofNodes [⟨"n", " A", .primary, none, none, .single, false, []⟩] (by decide +kernel)

/-- A name that occurs nowhere, but for a blank before it: once it is defined, it is known with the blank too. -/
theorem resolve_paddedSchema :
    let c' := Catalog.builtins.register ⟨"A", Form.typedef "int"⟩
    Text.trim "A" = "A" ∧ Catalog.builtins.find? "int" = some ⟨"int", .numeric .i32⟩ ∧
      (∀ d ∈ Catalog.builtins.entries, d.name ≠ "A" ∧ ∃ kind, d.form = .numeric kind) ∧
      (∀ n ∈ paddedSchema.nodes, n.name ≠ "A" ∧ n.type ≠ "A" ∧ n.members = []) ∧
      (paddedSchema.resolve Catalog.builtins "n" none).1 = .error (.unknownStoredType "n" " A") ∧
      (paddedSchema.resolve c' "n" none).1 = .ok ⟨⟨0⟩, "int", .whole⟩ := by
  intro c'
  have hnumeric : ∀ d ∈ Catalog.builtins.entries, ∃ kind, d.form = .numeric kind := by
    intro d hd
    obtain ⟨⟨kind, names⟩, -, hmem⟩ := List.mem_flatMap.1 hd
    obtain ⟨name, -, rfl⟩ := List.mem_map.1 hmem
    exact ⟨kind, rfl⟩
  have hnames : ∀ d ∈ Catalog.builtins.entries, d.name ≠ "A" := by decide +kernel
  exact ⟨by decide +kernel, by decide +kernel, fun d hd => ⟨hnames d hd, hnumeric d hd⟩, by decide +kernel,
    by decide +kernel, by decide +kernel⟩

end Schema

end TypedColumns
