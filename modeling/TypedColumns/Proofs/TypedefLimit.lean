import Mathlib.Data.Set.Finite.Basic
import Mathlib.Order.Preorder.Finite
import TypedColumns.Proofs.TypedefChains

/-!
# The length of a chain of type definitions

The chain that starts at a name does one of three things: it comes to an end at a type, it leads to a name that is not
known, or it turns in a circle.  A name resolves in the first case only, and only while the chain is short.

* `Catalog.nameAfter` -- the name behind a number of type definitions; `nameAfter_add` takes it in two parts.
* `Catalog.standsFor_iff_nameAfter` -- a name stands for the type kept under the last name of its chain.
* `Catalog.Dangles`, `Catalog.Circles` -- a chain that leads to an unknown name, and one that comes back to a name.
* `Catalog.circles_of_endless` -- a chain without an end turns in a circle, since a catalog names finitely many targets.
* `Catalog.resolve_iff_chain` -- **a name resolves to the end of its chain, unless the chain dangles, turns in a circle
  or is too long.**
* `Catalog.resolve_longestChain` -- sixteen type definitions are too many.
-/

namespace TypedColumns

namespace Catalog

variable {c : Catalog}

/-! ### Names on a chain -/

/-- The name that the type definition kept under a name stands for. -/
def next? (c : Catalog) (name : String) : Option String := (c.lookup name).bind Descriptor.target?

/-- The name that a chain has come to behind so many type definitions. -/
def nameAfter (c : Catalog) : Nat → String → Option String
  | 0, name => some name
  | hops + 1, name => (c.next? name).bind (c.nameAfter hops)

theorem nameAfter_add (m n : Nat) (name : String) :
    c.nameAfter (m + n) name = (c.nameAfter m name).bind (c.nameAfter n) := by
  induction m generalizing name with
  | zero =>
      rw [Nat.zero_add]
      rfl
  | succ m ih =>
      rw [Nat.succ_add, nameAfter, nameAfter, Option.bind_assoc]
      congr 1
      funext target
      exact ih target

/-- One more type definition is taken at the far end of a chain. -/
theorem nameAfter_succ (n : Nat) (name : String) :
    c.nameAfter (n + 1) name = (c.nameAfter n name).bind c.next? := by
  rw [nameAfter_add]
  congr 1
  funext last
  exact Option.bind_fun_some (c.next? last)

/-- A name stands for the type kept under the last name of its chain. -/
theorem standsFor_iff_nameAfter {hops : Nat} {name : String} {d : Descriptor} :
    c.StandsFor hops name d ↔
      ∃ last, c.nameAfter hops name = some last ∧ c.lookup last = some d ∧ d.target? = none := by
  induction hops generalizing name with
  | zero =>
      constructor
      · intro h
        cases h with
        | here hlookup hend => exact ⟨name, rfl, hlookup, hend⟩
      · rintro ⟨last, hlast, hlookup, hend⟩
        cases hlast
        exact .here hlookup hend
  | succ hops ih =>
      constructor
      · intro h
        cases h with
        | @hop _ _ target via _ hlookup htarget hd =>
            obtain ⟨last, hlast, hend⟩ := ih.1 hd
            have hnext : c.next? name = some target := Option.bind_eq_some_iff.2 ⟨via, hlookup, htarget⟩
            exact ⟨last, Option.bind_eq_some_iff.2 ⟨target, hnext, hlast⟩, hend⟩
      · rintro ⟨last, hlast, hend⟩
        obtain ⟨target, hnext, hlast⟩ := Option.bind_eq_some_iff.1 hlast
        obtain ⟨via, hlookup, htarget⟩ := Option.bind_eq_some_iff.1 hnext
        exact .hop hlookup htarget (ih.2 ⟨last, hlast, hend⟩)

/-! ### Chains without an end -/

/-- A chain leads to a name that is not known. -/
def Dangles (c : Catalog) (name : String) : Prop :=
  ∃ hops last, c.nameAfter hops name = some last ∧ c.lookup last = none

/-- A chain comes to a name that leads back to itself. -/
def Circles (c : Catalog) (name : String) : Prop :=
  ∃ hops turn last, c.nameAfter hops name = some last ∧ 0 < turn ∧ c.nameAfter turn last = some last

/-- What a chain that comes to an end passes on its way stands for the same type, behind fewer definitions. -/
theorem StandsFor.of_nameAfter {hops n : Nat} {name last : String} {d : Descriptor} (h : c.StandsFor hops name d)
    (hlast : c.nameAfter n name = some last) : ∃ rest, hops = n + rest ∧ c.StandsFor rest last d := by
  induction n generalizing hops name with
  | zero =>
      cases hlast
      exact ⟨hops, (Nat.zero_add hops).symm, h⟩
  | succ n ih =>
      obtain ⟨target, hnext, hlast⟩ := Option.bind_eq_some_iff.1 hlast
      obtain ⟨via, hvia, htarget⟩ := Option.bind_eq_some_iff.1 hnext
      cases h with
      | here hlookup hend =>
          obtain rfl := Option.some.inj (hvia.symm.trans hlookup)
          cases htarget.symm.trans hend
      | hop hlookup hthere hd =>
          obtain rfl := Option.some.inj (hvia.symm.trans hlookup)
          obtain rfl := Option.some.inj (htarget.symm.trans hthere)
          obtain ⟨rest, rfl, hrest⟩ := ih hd hlast
          exact ⟨rest, by omega, hrest⟩

/-- A name stands for one type, behind one number of definitions. -/
theorem StandsFor.unique {m n : Nat} {name : String} {d e : Descriptor} (hd : c.StandsFor m name d)
    (he : c.StandsFor n name e) : m = n ∧ d = e := by
  obtain ⟨last, hlast, hlookup, hend⟩ := standsFor_iff_nameAfter.1 hd
  obtain ⟨rest, rfl, hrest⟩ := he.of_nameAfter hlast
  cases hrest with
  | here hthere _ => exact ⟨rfl, Option.some.inj (hlookup.symm.trans hthere)⟩
  | hop hthere htarget _ =>
      obtain rfl := Option.some.inj (hlookup.symm.trans hthere)
      cases hend.symm.trans htarget

theorem StandsFor.not_dangles {hops : Nat} {name : String} {d : Descriptor} (h : c.StandsFor hops name d) :
    ¬ c.Dangles name := by
  rintro ⟨n, last, hlast, hunknown⟩
  obtain ⟨rest, -, hrest⟩ := h.of_nameAfter hlast
  obtain ⟨e, hlookup⟩ := hrest.exists_lookup
  cases hunknown.symm.trans hlookup

theorem StandsFor.not_circles {hops : Nat} {name : String} {d : Descriptor} (h : c.StandsFor hops name d) :
    ¬ c.Circles name := by
  rintro ⟨n, turn, last, hlast, hpos, hback⟩
  obtain ⟨rest, -, hrest⟩ := h.of_nameAfter hlast
  obtain ⟨less, hless, hagain⟩ := hrest.of_nameAfter hback
  have hsame := (hrest.unique hagain).1
  omega

/-- The names that the type definitions of a catalog stand for. -/
def targets (c : Catalog) : List String := c.entries.filterMap Descriptor.target?

theorem mem_targets_of_next? {name target : String} (h : c.next? name = some target) : target ∈ c.targets := by
  obtain ⟨via, hvia, htarget⟩ := Option.bind_eq_some_iff.1 h
  exact List.mem_filterMap.2 ⟨via, List.mem_of_find?_eq_some hvia, htarget⟩

/-- A chain without an end turns in a circle: from its second name on it takes all its names from a finite list, so two
of them are the same. -/
theorem circles_of_endless {name : String} (h : ∀ n, ∃ last, c.nameAfter n name = some last) : c.Circles name := by
  choose nth hnth using h
  have hmem : ∀ n, nth (n + 1) ∈ {target | target ∈ c.targets} := by
    intro n
    have hnext := hnth (n + 1)
    rw [nameAfter_succ, hnth n] at hnext
    exact mem_targets_of_next? hnext
  obtain ⟨i, j, hlt, hsame⟩ := Set.Finite.exists_lt_map_eq_of_forall_mem hmem (List.finite_toSet c.targets)
  refine ⟨i + 1, j - i, nth (i + 1), hnth (i + 1), by omega, ?_⟩
  have hlast : c.nameAfter (i + 1 + (j - i)) name = some (nth (i + 1)) := by
    rw [hsame, ← hnth (j + 1)]
    congr 1
    omega
  rw [nameAfter_add, hnth (i + 1), Option.bind_some] at hlast
  exact hlast

/-- A chain goes on, unless it has come to an unknown name or to the end. -/
theorem nameAfter_cases (c : Catalog) (name : String) (n : Nat) :
    (∃ last, c.nameAfter n name = some last) ∨ c.Dangles name ∨ ∃ hops d, c.StandsFor hops name d := by
  induction n with
  | zero => exact Or.inl ⟨name, rfl⟩
  | succ n ih =>
      rcases ih with ⟨last, hlast⟩ | hstop
      · cases hlookup : c.lookup last with
        | none => exact Or.inr (Or.inl ⟨n, last, hlast, hlookup⟩)
        | some e =>
            cases htarget : e.target? with
            | none => exact Or.inr (Or.inr ⟨n, e, standsFor_iff_nameAfter.2 ⟨last, hlast, hlookup, htarget⟩⟩)
            | some target =>
                refine Or.inl ⟨target, ?_⟩
                rw [nameAfter_succ, hlast, Option.bind_some, next?, hlookup, Option.bind_some, htarget]
      · exact Or.inr hstop

/-- A chain dangles, turns in a circle or comes to an end. -/
theorem dangles_or_circles_or_standsFor (c : Catalog) (name : String) :
    c.Dangles name ∨ c.Circles name ∨ ∃ hops d, c.StandsFor hops name d := by
  by_cases h : c.Dangles name ∨ ∃ hops d, c.StandsFor hops name d
  · rcases h with hdangles | hend
    · exact Or.inl hdangles
    · exact Or.inr (Or.inr hend)
  · refine Or.inr (Or.inl (circles_of_endless ?_))
    intro n
    exact (nameAfter_cases c name n).resolve_right h

/-! ### The limit -/

/-- **A name resolves to the end of its chain, unless the chain dangles, turns in a circle or is too long.**  The limit
counts looks at a descriptor, of which the end of the chain takes one, so that the longest chain that is followed has
fifteen type definitions. -/
theorem resolve_iff_chain (c : Catalog) (name : String) :
    (∀ d, c.resolve name = some d ↔ ∃ hops ≤ 15, c.StandsFor hops name d) ∧
      (c.resolve name = none ↔
        c.Dangles name ∨ c.Circles name ∨ ∃ hops ≥ 16, ∃ d, c.StandsFor hops name d) := by
  have hsome : ∀ d, c.resolve name = some d ↔ ∃ hops ≤ 15, c.StandsFor hops name d := by
    intro d
    rw [resolve_eq_some_iff]
    refine exists_congr (fun hops => and_congr_left' ?_)
    exact Nat.lt_succ_iff
  refine ⟨hsome, ?_⟩
  constructor
  · intro hnone
    rcases dangles_or_circles_or_standsFor c name with hdangles | hcircles | ⟨hops, d, hd⟩
    · exact Or.inl hdangles
    · exact Or.inr (Or.inl hcircles)
    · refine Or.inr (Or.inr ⟨hops, ?_, d, hd⟩)
      by_contra hshort
      have hresolve := (hsome d).2 ⟨hops, by omega, hd⟩
      cases hnone.symm.trans hresolve
  · intro hstop
    rw [Option.eq_none_iff_forall_ne_some]
    intro d hd
    obtain ⟨hops, hle, hends⟩ := (hsome d).1 hd
    rcases hstop with hdangles | hcircles | ⟨long, hlong, e, he⟩
    · exact hends.not_dangles hdangles
    · exact hends.not_circles hcircles
    · have hsame := (hends.unique he).1
      omega

/-- The name of a type definition in a row of them. -/
def rung (n : Nat) : String := "t" ++ toString n

/-- Sixteen type definitions in a row, and the integer type at the end of the row. -/
def longestChain : Catalog where
  entries := ⟨rung 0, .numeric .i32⟩ :: (List.range 16).map (fun n => ⟨rung (n + 1), .typedef (rung n)⟩)
  distinct := by decide +kernel

/-- Sixteen type definitions are too many: the name stands for the integer type behind sixteen of them, and does not
resolve. -/
theorem resolve_longestChain :
    longestChain.StandsFor 16 (rung 16) ⟨rung 0, .numeric .i32⟩ ∧ longestChain.resolve (rung 16) = none := by
  constructor
  · exact standsFor_iff_nameAfter.2 ⟨rung 0, by decide +kernel, by decide +kernel, rfl⟩
  · decide +kernel

end Catalog

end TypedColumns
