import Mathlib.Logic.Relation
import TypedColumns.Proofs.TypedefChains

/-!
# Inheritance as reachability

A class inherits from every base that is reached from its own bases by going on to the bases of bases.  The search for
them keeps book of spellings and not of classes, a class may be met under several of them, and bases may lead back to
where they come from or nowhere at all.

* `Catalog.mem_visit`, `Catalog.mem_visit_of_mem_basesOf` -- the search lists what waits, and is closed under bases.
* `Catalog.nodup_ancestors`, `Catalog.mem_allBases_of_mem_ancestors` -- it lists each spelling of a base once at most, and
  nothing else.
* `Catalog.Lineage` -- the names that lead from a class to one of its bases, each named by the class before it.
* `Catalog.inherits_eq_true_iff` -- a class inherits from what a lineage leads to.
* `Catalog.Extends`, `Catalog.IsAcyclic` -- the same between classes, and a catalog in which no class leads back to itself.
* `Catalog.SameUpToBases` -- a catalog that differs in the order of bases and in how often they are named.
* `Catalog.inherits_iff_exists_lineage` -- **inheritance is reachability,** whatever the order of bases, and with it
  transitive, and free of cycles where the catalog is.
-/

namespace TypedColumns

namespace Catalog

variable {c : Catalog}

/-! ### What the search lists -/

theorem mem_basesOf_iff {name b : String} : b ∈ c.basesOf name ↔ ∃ d, c.resolve name = some d ∧ b ∈ d.bases := by
  rw [basesOf]
  cases c.resolve name with
  | none => simp
  | some d => simp

theorem mem_allBases_of_mem_basesOf {name b : String} (h : b ∈ c.basesOf name) : b ∈ c.allBases := by
  obtain ⟨d, hd, hb⟩ := mem_basesOf_iff.1 h
  exact List.mem_flatMap.2 ⟨d, List.mem_of_find?_eq_some (find?_of_resolve hd), hb⟩

theorem mem_without_iff {name b : String} {names : List String} : b ∈ without name names ↔ b ∈ names ∧ b ≠ name := by
  rw [without, List.mem_filter, bne_iff_ne]

/-- What waits and has not been seen is listed. -/
theorem mem_visit {unseen waiting : List String} {b : String} (hw : b ∈ waiting) (hu : b ∈ unseen) :
    b ∈ c.visit unseen waiting := by
  fun_induction visit c unseen waiting with
  | case1 unseen => cases hw
  | case2 unseen name rest hname ih =>
      by_cases hb : b = name
      · rw [hb]
        exact List.mem_cons_self
      · refine List.mem_cons_of_mem name (ih ?_ (mem_without_iff.2 ⟨hu, hb⟩))
        exact List.mem_append_left _ ((List.mem_cons.1 hw).resolve_left hb)
  | case3 unseen name rest hname ih =>
      rcases List.mem_cons.1 hw with rfl | hw
      · exact absurd hu hname
      · exact ih hw hu

/-- The bases of what is listed are listed, unless they were seen before. -/
theorem mem_visit_of_mem_basesOf {unseen waiting : List String} {a b : String} (ha : a ∈ c.visit unseen waiting)
    (hb : b ∈ c.basesOf a) (hu : b ∈ unseen) : b ∈ c.visit unseen waiting := by
  fun_induction visit c unseen waiting with
  | case1 unseen => cases ha
  | case2 unseen name rest hname ih =>
      by_cases hbn : b = name
      · rw [hbn]
        exact List.mem_cons_self
      · have hu := mem_without_iff.2 ⟨hu, hbn⟩
        refine List.mem_cons_of_mem name ?_
        rcases List.mem_cons.1 ha with rfl | ha
        · exact mem_visit (List.mem_append_right rest hb) hu
        · exact ih ha hu
  | case3 unseen name rest hname ih => exact ih ha hu

theorem mem_unseen_of_mem_visit {unseen waiting : List String} {b : String} (h : b ∈ c.visit unseen waiting) :
    b ∈ unseen := by
  fun_induction visit c unseen waiting with
  | case1 unseen => cases h
  | case2 unseen name rest hname ih =>
      rcases List.mem_cons.1 h with rfl | h
      · exact hname
      · exact (mem_without_iff.1 (ih h)).1
  | case3 unseen name rest hname ih => exact ih h

theorem nodup_visit (c : Catalog) (unseen waiting : List String) : (c.visit unseen waiting).Nodup := by
  fun_induction visit c unseen waiting with
  | case1 unseen => exact List.nodup_nil
  | case2 unseen name rest hname ih =>
      refine List.nodup_cons.2 ⟨?_, ih⟩
      intro h
      exact (mem_without_iff.1 (mem_unseen_of_mem_visit h)).2 rfl
  | case3 unseen name rest hname ih => exact ih

theorem nodup_ancestors (c : Catalog) (bases : List String) : (c.ancestors bases).Nodup := nodup_visit c _ _

theorem mem_allBases_of_mem_ancestors {bases : List String} {b : String} (h : b ∈ c.ancestors bases) :
    b ∈ c.allBases :=
  mem_unseen_of_mem_visit h

/-! ### Lineages -/

/-- Names that lead from a class to a base of it: each is among the bases of the one before and known, and the last one
is the base or resolves to a type of its name. -/
inductive Lineage (c : Catalog) (base : String) : String → List String → Prop
  | last {name b : String} {d : Descriptor} : b ∈ c.basesOf name → c.resolve b = some d → b = base ∨ d.name = base →
      Lineage c base name [b]
  | next {name b : String} {d : Descriptor} {names : List String} : b ∈ c.basesOf name → c.resolve b = some d →
      Lineage c base b names → Lineage c base name (b :: names)

theorem Lineage.exists_resolve {base name : String} {names : List String} (h : c.Lineage base name names) :
    ∃ d, c.resolve name = some d := by
  cases h with
  | last hb _ _ => exact ⟨_, (mem_basesOf_iff.1 hb).choose_spec.1⟩
  | next hb _ _ => exact ⟨_, (mem_basesOf_iff.1 hb).choose_spec.1⟩

theorem denotes_eq_true_iff {name base : String} :
    c.denotes name base = true ↔ ∃ d, c.resolve name = some d ∧ (name = base ∨ d.name = base) := by
  rw [denotes]
  cases c.resolve name with
  | none => simp
  | some d => simp [or_comm]

/-- Whatever is listed and denotes the base is something that waits, or a lineage leads there from something that
waits. -/
theorem lineage_of_mem_visit {unseen waiting : List String} {b base : String} (h : b ∈ c.visit unseen waiting)
    (hbase : c.denotes b base = true) : ∃ a ∈ waiting, a = b ∨ ∃ names, c.Lineage base a names := by
  fun_induction visit c unseen waiting with
  | case1 unseen => cases h
  | case2 unseen name rest hname ih =>
      rcases List.mem_cons.1 h with rfl | h
      · exact ⟨b, List.mem_cons_self, Or.inl rfl⟩
      · obtain ⟨a, ha, hab⟩ := ih h
        rcases List.mem_append.1 ha with ha | ha
        · exact ⟨a, List.mem_cons_of_mem name ha, hab⟩
        · refine ⟨name, List.mem_cons_self, Or.inr ?_⟩
          rcases hab with rfl | ⟨names, hab⟩
          · obtain ⟨d, hd, hb⟩ := denotes_eq_true_iff.1 hbase
            exact ⟨[a], .last ha hd hb⟩
          · obtain ⟨d, hd⟩ := hab.exists_resolve
            exact ⟨a :: names, .next ha hd hab⟩
  | case3 unseen name rest hname ih =>
      obtain ⟨a, ha, hab⟩ := ih h
      exact ⟨a, List.mem_cons_of_mem name ha, hab⟩

/-- A lineage stays within any names that hold the bases of the class and are closed under bases. -/
theorem Lineage.exists_mem {base name : String} {names within : List String} (h : c.Lineage base name names)
    (hfirst : ∀ b ∈ c.basesOf name, b ∈ within) (hclosed : ∀ a ∈ within, ∀ b ∈ c.basesOf a, b ∈ within) :
    ∃ b ∈ within, c.denotes b base = true := by
  induction h with
  | last hb hd hbase => exact ⟨_, hfirst _ hb, denotes_eq_true_iff.2 ⟨_, hd, hbase⟩⟩
  | next hb _ _ ih => exact ih (hclosed _ (hfirst _ hb))

/-- A class inherits from what a lineage leads to. -/
theorem inherits_eq_true_iff {derived base : String} :
    c.inherits derived base = true ↔ ∃ names, c.Lineage base derived names := by
  rw [inherits, List.any_eq_true]
  refine ⟨?_, ?_⟩
  · intro h
    obtain ⟨b, hb, hbase⟩ := h
    obtain ⟨a, ha, hab⟩ := lineage_of_mem_visit hb hbase
    rcases hab with rfl | ⟨names, hab⟩
    · obtain ⟨d, hd, hname⟩ := denotes_eq_true_iff.1 hbase
      exact ⟨[a], .last ha hd hname⟩
    · obtain ⟨d, hd⟩ := hab.exists_resolve
      exact ⟨a :: names, .next ha hd hab⟩
  · intro h
    obtain ⟨names, h⟩ := h
    refine h.exists_mem ?_ ?_
    · intro b hb
      exact mem_visit hb (mem_allBases_of_mem_basesOf hb)
    · intro a ha b hb
      exact mem_visit_of_mem_basesOf ha hb (mem_allBases_of_mem_basesOf hb)

/-- Names that resolve alike have the same lineages. -/
theorem Lineage.of_resolve_eq {base name name' : String} {names : List String} (h : c.Lineage base name names)
    (hname : c.resolve name' = c.resolve name) : c.Lineage base name' names := by
  have hbases : c.basesOf name = c.basesOf name' := by rw [basesOf, basesOf, hname]
  cases h with
  | last hb hd hbase =>
      rw [hbases] at hb
      exact .last hb hd hbase
  | next hb hd h =>
      rw [hbases] at hb
      exact .next hb hd h

/-- What denotes a name resolves as the name does. -/
theorem resolve_of_denotes {b base : String} {d : Descriptor} (hd : c.resolve b = some d)
    (h : b = base ∨ d.name = base) : c.resolve base = some d := by
  rcases h with rfl | rfl
  · exact hd
  · exact resolve_name hd

/-- A lineage to a class, and one from there on. -/
theorem Lineage.append {base middle name : String} {names names' : List String} (h : c.Lineage middle name names)
    (h' : c.Lineage base middle names') : c.Lineage base name (names ++ names') := by
  induction h with
  | last hb hd hmiddle =>
      exact .next hb hd (h'.of_resolve_eq (hd.trans (resolve_of_denotes hd hmiddle).symm))
  | next hb hd _ ih => exact .next hb hd ih

/-! ### Between classes -/

/-- A class names another type among its bases. -/
def Extends (c : Catalog) (d e : Descriptor) : Prop := ∃ b ∈ d.bases, c.resolve b = some e

/-- No class leads back to itself. -/
def IsAcyclic (c : Catalog) : Prop := ∀ d, ¬ Relation.TransGen c.Extends d d

/-- A lineage passes from class to class, and its end is what the base resolves to. -/
theorem Lineage.transGen {base name : String} {names : List String} (h : c.Lineage base name names) :
    ∃ d e, c.resolve name = some d ∧ c.resolve base = some e ∧ Relation.TransGen c.Extends d e := by
  induction h with
  | last hb he hbase =>
      obtain ⟨d, hd, hb⟩ := mem_basesOf_iff.1 hb
      exact ⟨d, _, hd, resolve_of_denotes he hbase, .single ⟨_, hb, he⟩⟩
  | next hb hf _ ih =>
      obtain ⟨d, hd, hb⟩ := mem_basesOf_iff.1 hb
      obtain ⟨f, e, hf', he, hfe⟩ := ih
      exact ⟨d, e, hd, he, .head ⟨_, hb, hf'⟩ hfe⟩

/-- From class to class there is a lineage to the name of the last one. -/
theorem exists_lineage_of_transGen {d e : Descriptor} (h : Relation.TransGen c.Extends d e) {name : String}
    (hd : c.resolve name = some d) : ∃ names, c.Lineage e.name name names := by
  induction h using Relation.TransGen.head_induction_on generalizing name with
  | single h =>
      obtain ⟨b, hb, he⟩ := h
      exact ⟨[b], .last (mem_basesOf_iff.2 ⟨_, hd, hb⟩) he (Or.inr rfl)⟩
  | head h _ ih =>
      obtain ⟨b, hb, hf⟩ := h
      obtain ⟨names, hnames⟩ := ih hf
      exact ⟨b :: names, .next (mem_basesOf_iff.2 ⟨_, hd, hb⟩) hf hnames⟩

/-- A class inherits from a type, under the type's own name, when it leads there from class to class. -/
theorem inherits_name_iff {name : String} {d e : Descriptor} (hd : c.resolve name = some d)
    (he : c.resolve e.name = some e) : c.inherits name e.name = true ↔ Relation.TransGen c.Extends d e := by
  rw [inherits_eq_true_iff]
  refine ⟨?_, ?_⟩
  · intro h
    obtain ⟨names, h⟩ := h
    obtain ⟨d', e', hd', he', h⟩ := h.transGen
    obtain rfl := Option.some.inj (hd.symm.trans hd')
    obtain rfl := Option.some.inj (he.symm.trans he')
    exact h
  · intro h
    exact exists_lineage_of_transGen h hd

end Catalog

/-! ### Other orders of bases -/

/-- Two types that differ only in the order of their bases, in how often they are named, and in their members. -/
structure Descriptor.SameBases (d e : Descriptor) : Prop where
  name : e.name = d.name
  target : e.target? = d.target?
  bases : ∀ b, b ∈ e.bases ↔ b ∈ d.bases

theorem Descriptor.SameBases.symm {d e : Descriptor} (h : d.SameBases e) : e.SameBases d :=
  ⟨h.name.symm, h.target.symm, fun b => (h.bases b).symm⟩

namespace Catalog

variable {c c' : Catalog}

/-- Under every name, the two catalogs keep types that differ only in the order of their bases and in how often they are
named. -/
def SameUpToBases (c c' : Catalog) : Prop := ∀ name, Option.Rel Descriptor.SameBases (c.find? name) (c'.find? name)

theorem SameUpToBases.symm (h : c.SameUpToBases c') : c'.SameUpToBases c := by
  intro name
  rcases rel_cases (h name) with ⟨hd, he⟩ | ⟨d, e, hd, he, hde⟩
  · rw [hd, he]
    exact .none
  · rw [hd, he]
    exact .some hde.symm

theorem SameUpToBases.follows (h : c.SameUpToBases c') : Follows (fun _ => True) Descriptor.SameBases c c' :=
  .of_rel (fun name _ => h (Text.trim name)) (fun _ _ hde => hde.target) (fun _ _ _ _ _ => trivial)

theorem SameUpToBases.lineage (h : c.SameUpToBases c') {base name : String} {names : List String}
    (hl : c.Lineage base name names) : c'.Lineage base name names := by
  have hbases : ∀ {name b : String}, b ∈ c.basesOf name → b ∈ c'.basesOf name := by
    intro name b hb
    obtain ⟨d, hd, hb⟩ := mem_basesOf_iff.1 hb
    obtain ⟨e, he, hde⟩ := h.follows.resolve trivial hd
    exact mem_basesOf_iff.2 ⟨e, he, (hde.bases b).2 hb⟩
  induction hl with
  | last hb hd hbase =>
      obtain ⟨e, he, hde⟩ := h.follows.resolve trivial hd
      exact .last (hbases hb) he (hde.name ▸ hbase)
  | next hb hd _ ih =>
      obtain ⟨e, he, -⟩ := h.follows.resolve trivial hd
      exact .next (hbases hb) he ih

/-- **Inheritance is reachability.**  A class inherits from a base when it is known and a lineage leads from it to the
base; the search for one lists every spelling once at most, and only such as occur in the catalog.  So the answer does not
depend on the order of bases or on how often they are named, what a base inherits its classes inherit, and where no class
leads back to itself none inherits from itself. -/
theorem inherits_iff_exists_lineage (c : Catalog) :
    (∀ derived base, c.inherits derived base = true ↔
      (c.resolve derived).isSome = true ∧ ∃ names, c.Lineage base derived names) ∧
    (∀ bases, (c.ancestors bases).Nodup ∧ ∀ b ∈ c.ancestors bases, b ∈ c.allBases) ∧
    (∀ c', c.SameUpToBases c' → ∀ derived base, c'.inherits derived base = c.inherits derived base) ∧
    (∀ derived middle base, c.inherits derived middle = true → c.inherits middle base = true →
      c.inherits derived base = true) ∧
    (c.IsAcyclic → ∀ name, c.inherits name name = false) := by
  refine ⟨?_, ?_, ?_, ?_, ?_⟩
  · intro derived base
    rw [inherits_eq_true_iff]
    refine ⟨?_, fun h => h.2⟩
    intro h
    obtain ⟨names, h⟩ := h
    obtain ⟨d, hd⟩ := h.exists_resolve
    exact ⟨by rw [hd]; rfl, names, h⟩
  · intro bases
    exact ⟨nodup_ancestors c bases, fun b => mem_allBases_of_mem_ancestors⟩
  · intro c' h derived base
    rw [Bool.eq_iff_iff, inherits_eq_true_iff, inherits_eq_true_iff]
    exact ⟨fun ⟨names, hl⟩ => ⟨names, h.symm.lineage hl⟩, fun ⟨names, hl⟩ => ⟨names, h.lineage hl⟩⟩
  · intro derived middle base hm hb
    obtain ⟨names, hm⟩ := inherits_eq_true_iff.1 hm
    obtain ⟨names', hb⟩ := inherits_eq_true_iff.1 hb
    exact inherits_eq_true_iff.2 ⟨names ++ names', hm.append hb⟩
  · intro hacyclic name
    rw [Bool.eq_false_iff]
    intro h
    obtain ⟨names, h⟩ := inherits_eq_true_iff.1 h
    obtain ⟨d, e, hd, he, hde⟩ := h.transGen
    obtain rfl := Option.some.inj (hd.symm.trans he)
    exact hacyclic d hde

/-- Bases in a ring, closed through a type definition, with an unknown base beside them: the search comes to an end. -/
example : (⟨[⟨"Ring", .record ["Loop_t"] []⟩, ⟨"Loop_t", Form.typedef "Loop"⟩, ⟨"Loop", .record ["Gone", "Ring"] []⟩],
    by decide +kernel⟩ : Catalog).inherits "Ring" "Ring" = true := by cbv

end Catalog

end TypedColumns
