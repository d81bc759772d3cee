import Mathlib.Data.Option.Basic
import TypedColumns.Proofs.Trimming
import TypedColumns.Types.Catalog

/-!
# Chains of type definitions

A name stands for a type when the type definitions that start at the name come to an end there.  To look at a limited
number of descriptors on the way is to accept the chains up to a length.

* `Descriptor.target?` -- the name that a type definition stands for.
* `Catalog.StandsFor` -- a name, the type at the end of its chain, and the number of type definitions on the way.
* `Catalog.resolve_eq_some_iff` -- **a name resolves to the end of its chain, when the chain is short enough.**
* `Catalog.find?_of_resolve`, `Catalog.resolve_name` -- no two types behind names are called alike, so that a type is what
  its own name resolves to.
* `rel_cases`, `eq_of_rel` -- of two related options both are there or neither is, and a relation that leaves no choice
  settles the second.
* `Catalog.Follows` -- a catalog whose types are like those of another one, name by name; then they resolve alike
  (`Follows.resolve`).
-/

namespace TypedColumns

/-! ### Related options -/

section Related

variable {α β : Type} {R : α → β → Prop} {o : Option α} {o' : Option β}

/-- Of two related options both are there or neither is. -/
theorem rel_cases (h : Option.Rel R o o') : (o = none ∧ o' = none) ∨ ∃ a b, o = some a ∧ o' = some b ∧ R a b := by
  cases h with
  | none => exact Or.inl ⟨rfl, rfl⟩
  | some hab => exact Or.inr ⟨_, _, rfl, rfl, hab⟩

theorem rel_flip (h : Option.Rel R o o') : Option.Rel (flip R) o' o := by
  cases h with
  | none => exact .none
  | some hab => exact .some hab

theorem exists_right_of_rel (h : Option.Rel R o o') {a : α} (ho : o = some a) : ∃ b, o' = some b ∧ R a b := by
  rcases rel_cases h with ⟨hnone, -⟩ | ⟨a', b, hsome, hb, hab⟩
  · cases ho.symm.trans hnone
  · cases ho.symm.trans hsome
    exact ⟨b, hb, hab⟩

theorem exists_left_of_rel (h : Option.Rel R o o') {b : β} (ho : o' = some b) : ∃ a, o = some a ∧ R a b :=
  exists_right_of_rel (rel_flip h) ho

theorem rel_mono {S : α → β → Prop} (hRS : ∀ a b, R a b → S a b) (h : Option.Rel R o o') : Option.Rel S o o' := by
  cases h with
  | none => exact .none
  | some hab => exact .some (hRS _ _ hab)

/-- What is related to an option by a relation that leaves no choice. -/
theorem eq_of_rel {p : Option β} (hR : ∀ a b c, R a b → R a c → b = c) (h : Option.Rel R o o')
    (hp : Option.Rel R o p) : o' = p := by
  cases h with
  | none =>
      cases hp
      rfl
  | some hab =>
      cases hp with
      | some hac => exact congrArg some (hR _ _ _ hab hac)

end Related

/-! ### Type definitions -/

/-- The name that a type definition stands for. -/
def Descriptor.target? (d : Descriptor) : Option String :=
  match d.form with
  | .typedef target => some target
  | _ => none

namespace Catalog

variable {c : Catalog}

/-! ### The end of a chain -/

/-- A name stands for the type at the end of its chain, behind so many type definitions. -/
inductive StandsFor (c : Catalog) : Nat → String → Descriptor → Prop
  | here {name : String} {d : Descriptor} : c.lookup name = some d → d.target? = none → StandsFor c 0 name d
  | hop {hops : Nat} {name target : String} {via d : Descriptor} : c.lookup name = some via →
      via.target? = some target → StandsFor c hops target d → StandsFor c (hops + 1) name d

theorem StandsFor.exists_lookup {hops : Nat} {name : String} {d : Descriptor} (h : c.StandsFor hops name d) :
    ∃ e, c.lookup name = some e := by
  cases h with
  | here hlookup _ => exact ⟨_, hlookup⟩
  | hop hlookup _ _ => exact ⟨_, hlookup⟩

/-- One more look at a descriptor: it is the answer, or the chain goes on at its target. -/
theorem followTypedefs_succ (c : Catalog) (fuel : Nat) (d : Descriptor) :
    c.followTypedefs (fuel + 1) d =
      match d.target? with
      | none => some d
      | some target => (c.lookup target).bind (c.followTypedefs fuel) := by
  obtain ⟨name, form⟩ := d
  cases form with
  | typedef target =>
      rw [followTypedefs]
      simp only [Descriptor.target?]
      cases c.lookup target with
      | none => rfl
      | some e => rfl
  | _ => rfl

/-- What is followed to within a number of looks is what the name stands for behind fewer definitions.  The induction is
on the number of looks, each of which is one definition of the chain or its end. -/
theorem followTypedefs_eq_some_iff {fuel : Nat} {name : String} {e d : Descriptor} (he : c.lookup name = some e) :
    c.followTypedefs fuel e = some d ↔ ∃ hops < fuel, c.StandsFor hops name d := by
  induction fuel generalizing name e with
  | zero => simp [followTypedefs]
  | succ fuel ih =>
      rw [followTypedefs_succ]
      cases ht : e.target? with
      | none =>
          refine ⟨?_, ?_⟩
          · intro h
            cases h
            exact ⟨0, Nat.succ_pos fuel, .here he ht⟩
          · intro h
            obtain ⟨hops, -, hd⟩ := h
            cases hd with
            | here hlookup _ =>
                rw [he] at hlookup
                exact hlookup
            | hop hlookup htarget _ =>
                obtain rfl := Option.some.inj (he.symm.trans hlookup)
                rw [ht] at htarget
                cases htarget
      | some target =>
          refine ⟨?_, ?_⟩
          · intro h
            obtain ⟨f, hf, hd⟩ := Option.bind_eq_some_iff.1 h
            obtain ⟨hops, hlt, hd⟩ := (ih hf).1 hd
            exact ⟨hops + 1, Nat.succ_lt_succ hlt, .hop he ht hd⟩
          · intro h
            obtain ⟨hops, hlt, hd⟩ := h
            cases hd with
            | here hlookup hend =>
                obtain rfl := Option.some.inj (he.symm.trans hlookup)
                rw [ht] at hend
                cases hend
            | @hop hops _ _ _ _ hlookup htarget hd =>
                obtain rfl := Option.some.inj (he.symm.trans hlookup)
                obtain rfl := Option.some.inj (ht.symm.trans htarget)
                cases hf : c.lookup target with
                | none =>
                    obtain ⟨f, hlookup⟩ := hd.exists_lookup
                    rw [hf] at hlookup
                    cases hlookup
                | some f =>
                    exact Option.bind_eq_some_iff.2 ⟨f, hf, (ih hf).2 ⟨hops, Nat.lt_of_succ_lt_succ hlt, hd⟩⟩

/-- **A name resolves to the end of its chain, when the chain is short enough.** -/
theorem resolve_eq_some_iff {name : String} {d : Descriptor} :
    c.resolve name = some d ↔ ∃ hops < typedefLimit, c.StandsFor hops name d := by
  rw [resolve]
  cases he : c.lookup name with
  | none =>
      simp only [reduceCtorEq, false_iff]
      intro h
      obtain ⟨hops, -, hd⟩ := h
      obtain ⟨e, hlookup⟩ := hd.exists_lookup
      rw [he] at hlookup
      cases hlookup
  | some e => exact followTypedefs_eq_some_iff he

/-! ### Types under their names -/

theorem name_of_find? {name : String} {d : Descriptor} (h : c.find? name = some d) : d.name = name := by
  simpa using List.find?_some h

/-- What is found under a name is found under its own name too. -/
theorem lookup_name {name : String} {d : Descriptor} (h : c.lookup name = some d) : c.lookup d.name = some d := by
  rw [lookup, name_of_find? h, Text.trim_trim]
  exact h

/-- What a name stands for is kept under its own name, and it is no type definition. -/
theorem StandsFor.lookup_name {hops : Nat} {name : String} {d : Descriptor} (h : c.StandsFor hops name d) :
    c.lookup d.name = some d ∧ d.target? = none := by
  induction h with
  | here hlookup hend => exact ⟨Catalog.lookup_name hlookup, hend⟩
  | hop _ _ _ ih => exact ih

/-- A type is what its own name resolves to. -/
theorem resolve_name {name : String} {d : Descriptor} (h : c.resolve name = some d) : c.resolve d.name = some d := by
  obtain ⟨_, -, hd⟩ := resolve_eq_some_iff.1 h
  obtain ⟨hlookup, hend⟩ := hd.lookup_name
  exact resolve_eq_some_iff.2 ⟨0, by decide, .here hlookup hend⟩

/-- A name stands for a type that is kept under its own name. -/
theorem find?_of_resolve {name : String} {d : Descriptor} (h : c.resolve name = some d) : c.find? d.name = some d := by
  obtain ⟨_, -, hd⟩ := resolve_eq_some_iff.1 h
  have hlookup := hd.lookup_name.1
  have hname : d.name = Text.trim d.name := name_of_find? hlookup
  rw [hname]
  exact hlookup

/-! ### Catalogs with like types -/

/-- A catalog follows another one on some names: what the other keeps under them it keeps too, up to a likeness of types
that leaves the targets of type definitions as they are, and the targets are among the names. -/
structure Follows (names : String → Prop) (like : Descriptor → Descriptor → Prop) (c c' : Catalog) : Prop where
  lookup : ∀ name d, names name → c.lookup name = some d → ∃ d', c'.lookup name = some d' ∧ like d d'
  target : ∀ d d', like d d' → d'.target? = d.target?
  closed : ∀ name d target, names name → c.lookup name = some d → d.target? = some target → names target

/-- Catalogs with like types under the same names follow each other. -/
theorem Follows.of_rel {names : String → Prop} {like : Descriptor → Descriptor → Prop} {c c' : Catalog}
    (hrel : ∀ name, names name → Option.Rel like (c.lookup name) (c'.lookup name))
    (htarget : ∀ d d', like d d' → d'.target? = d.target?)
    (hclosed : ∀ d d' target, like d d' → d.target? = some target → names target) : Follows names like c c' := by
  refine ⟨?_, htarget, ?_⟩
  · intro name d hname hd
    exact exists_right_of_rel (hrel name hname) hd
  · intro name d target hname hd ht
    obtain ⟨d', -, hlike⟩ := exists_right_of_rel (hrel name hname) hd
    exact hclosed d d' target hlike ht

/-- What follows another catalog has like types at the ends of chains of the same length. -/
theorem Follows.standsFor {names : String → Prop} {like : Descriptor → Descriptor → Prop} {c c' : Catalog}
    (hf : Follows names like c c') {hops : Nat} {name : String} {d : Descriptor} (h : c.StandsFor hops name d)
    (hname : names name) : ∃ d', c'.StandsFor hops name d' ∧ like d d' := by
  induction h with
  | @here name d hlookup hend =>
      obtain ⟨d', hd', hlike⟩ := hf.lookup name d hname hlookup
      refine ⟨d', .here hd' ?_, hlike⟩
      rw [hf.target d d' hlike, hend]
  | @hop hops name target via d hlookup htarget _ ih =>
      obtain ⟨via', hvia', hlike⟩ := hf.lookup name via hname hlookup
      obtain ⟨d', hd', hlike'⟩ := ih (hf.closed name via target hname hlookup htarget)
      refine ⟨d', .hop hvia' ?_ hd', hlike'⟩
      rw [hf.target via via' hlike, htarget]

/-- What follows another catalog resolves the names to like types. -/
theorem Follows.resolve {names : String → Prop} {like : Descriptor → Descriptor → Prop} {c c' : Catalog}
    (hf : Follows names like c c') {name : String} {d : Descriptor} (hname : names name)
    (h : c.resolve name = some d) : ∃ d', c'.resolve name = some d' ∧ like d d' := by
  obtain ⟨hops, hlt, hd⟩ := resolve_eq_some_iff.1 h
  obtain ⟨d', hd', hlike⟩ := hf.standsFor hd hname
  exact ⟨d', resolve_eq_some_iff.2 ⟨hops, hlt, hd'⟩, hlike⟩

end Catalog

end TypedColumns
