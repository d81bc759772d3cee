import Mathlib.Data.List.Induction
import TypedColumns.Proofs.Trimming
import TypedColumns.Proofs.TypedefChains

/-!
# What a catalog has kept

A catalog is what has been registered in it, one type after another.  Of the types of one name the last one is kept,
under the name as it was given, and every such name is listed.  Names are looked up without the blanks around them, so
that a type is found again under its own name only if there are none.

* `Catalog.LastRegistered` -- of the types of a name the one that a history registers last.
* `Catalog.find?_foldl_register_iff` -- a catalog keeps under each name the type registered last under it.
* `Catalog.foldl_register_entries` -- every catalog is what comes of registering its types in their order.
* `Catalog.sorted_names`, `Catalog.mem_names_iff` -- the names are listed in strictly ascending order, and are those
  that something is kept under.
* `Catalog.lookup_registered` -- **what is registered last under a name is found again, unless there are blanks around
  the name,** and all names are listed.
* `Catalog.lookup_paddedTypes` -- two names with blanks around them that are listed and not found.
-/

namespace TypedColumns

namespace Catalog

variable {c : Catalog} {history : List Descriptor} {name : String} {d e : Descriptor}

/-! ### Histories -/

/-- A history registers a type under a name, and none under that name behind it. -/
def LastRegistered (history : List Descriptor) (name : String) (d : Descriptor) : Prop :=
  ∃ before after, history = before ++ d :: after ∧ d.name = name ∧ ∀ e ∈ after, e.name ≠ name

/-- What is registered next is the last under its own name, and changes nothing under the others. -/
theorem lastRegistered_concat_iff :
    LastRegistered (history ++ [e]) name d ↔
      (e.name = name ∧ d = e) ∨ (e.name ≠ name ∧ LastRegistered history name d) := by
  constructor
  · rintro ⟨before, after, hsplit, hname, hafter⟩
    -- the new entry is the one in question, or stands behind it
    rcases List.eq_nil_or_concat' after with rfl | ⟨after, last, rfl⟩
    · have hlast := (List.append_inj' hsplit rfl).2
      obtain rfl : e = d := (List.cons.inj hlast).1
      exact Or.inl ⟨hname, rfl⟩
    · rw [← List.cons_append, ← List.append_assoc] at hsplit
      obtain ⟨hhistory, hlast⟩ := List.append_inj' hsplit rfl
      obtain rfl : e = last := (List.cons.inj hlast).1
      refine Or.inr ⟨hafter e (List.mem_append_right after List.mem_cons_self), before, after, hhistory, hname, ?_⟩
      exact fun x hx => hafter x (List.mem_append_left [e] hx)
  · rintro (⟨hname, rfl⟩ | ⟨hne, before, after, rfl, hname, hafter⟩)
    · exact ⟨history, [], rfl, hname, by simp⟩
    · refine ⟨before, after ++ [e], by simp, hname, ?_⟩
      intro x hx
      rcases List.mem_append.1 hx with hx | hx
      · exact hafter x hx
      · rw [List.mem_singleton.1 hx]
        exact hne

/-- Under every name that a history registers something under, it registers something last. -/
theorem exists_lastRegistered_iff : (∃ d, LastRegistered history name d) ↔ ∃ d ∈ history, d.name = name := by
  constructor
  · intro h
    obtain ⟨d, before, after, rfl, hname, -⟩ := h
    exact ⟨d, List.mem_append_right before List.mem_cons_self, hname⟩
  · intro h
    obtain ⟨d, hd, hname⟩ := h
    induction history using List.reverseRecOn with
    | nil => cases hd
    | append_singleton history e ih =>
        by_cases h : e.name = name
        · exact ⟨e, lastRegistered_concat_iff.2 (Or.inl ⟨h, rfl⟩)⟩
        · rcases List.mem_append.1 hd with hd | hd
          · obtain ⟨last, hlast⟩ := ih hd
            exact ⟨last, lastRegistered_concat_iff.2 (Or.inr ⟨h, hlast⟩)⟩
          · rw [List.mem_singleton.1 hd] at hname
            exact absurd hname h

/-! ### Catalogs by their histories -/

/-- A catalog keeps under each name the type that was registered last under it. -/
theorem find?_foldl_register_iff :
    (history.foldl register empty).find? name = some d ↔ LastRegistered history name d := by
  induction history using List.reverseRecOn with
  | nil =>
      constructor
      · intro h
        cases h
      · intro h
        obtain ⟨d, hd, -⟩ := exists_lastRegistered_iff.1 ⟨d, h⟩
        cases hd
  | append_singleton history e ih =>
      rw [List.foldl_concat, lastRegistered_concat_iff]
      by_cases h : e.name = name
      · obtain rfl := h
        rw [find?_register_self]
        simp [eq_comm]
      · rw [find?_register_of_ne _ _ (Ne.symm h), ih]
        simp [h]

/-- Types of different names are kept in the order in which they are registered. -/
theorem entries_foldl_register {entries : List Descriptor} (h : (entries.map Descriptor.name).Nodup) :
    (entries.foldl register empty).entries = entries := by
  induction entries using List.reverseRecOn with
  | nil => rfl
  | append_singleton entries e ih =>
      rw [List.map_append, List.nodup_append] at h
      obtain ⟨hentries, -, hnew⟩ := h
      rw [List.foldl_concat]
      have hkeep : entries.filter (fun x => x.name != e.name) = entries := by
        rw [List.filter_eq_self]
        intro x hx
        exact bne_iff_ne.2 (hnew x.name (List.mem_map_of_mem hx) e.name List.mem_cons_self)
      show (entries.foldl register empty).entries.filter (fun x => x.name != e.name) ++ [e] = entries ++ [e]
      rw [ih hentries, hkeep]

theorem eq_of_entries_eq {c c' : Catalog} (h : c.entries = c'.entries) : c = c' := by
  cases c
  cases c'
  cases h
  rfl

/-- Every catalog is what comes of registering its types in their order. -/
theorem foldl_register_entries (c : Catalog) : c.entries.foldl register empty = c :=
  eq_of_entries_eq (entries_foldl_register c.distinct)

/-! ### The list of names -/

/-- The names are listed in strictly ascending order. -/
theorem sorted_names (c : Catalog) : c.names.Pairwise (· < ·) := by
  have hsorted : c.names.Pairwise (fun a b => decide (a ≤ b) = true) := by
    refine List.pairwise_mergeSort ?_ ?_ (c.entries.map Descriptor.name)
    · intro a b d hab hbd
      exact decide_eq_true (String.le_trans (of_decide_eq_true hab) (of_decide_eq_true hbd))
    · intro a b
      simpa using String.le_total a b
  refine hsorted.imp₂ ?_ c.nodup_names
  intro a b hab hne
  exact String.not_le.1 (fun hba => hne (String.le_antisymm (of_decide_eq_true hab) hba))

/-- Listed are the names that something is kept under. -/
theorem mem_names_iff : name ∈ c.names ↔ ∃ d, c.find? name = some d := by
  rw [names, (List.mergeSort_perm _ _).mem_iff, List.mem_map]
  constructor
  · intro h
    obtain ⟨d, hd, rfl⟩ := h
    exact Option.isSome_iff_exists.1 (List.find?_isSome.2 ⟨d, hd, beq_self_eq_true d.name⟩)
  · intro h
    obtain ⟨d, hd⟩ := h
    exact ⟨d, List.mem_of_find?_eq_some hd, name_of_find? hd⟩

/-! ### Finding types again -/

/-- A name is answered with a type of that very name exactly if the type is kept under it and no blank is at either end
of it. -/
theorem lookup_and_name_iff :
    (c.lookup name = some d ∧ d.name = name) ↔ c.find? name = some d ∧ Text.Trimmed name := by
  rw [lookup, ← Text.trim_eq_self_iff]
  constructor
  · intro h
    obtain ⟨hd, hname⟩ := h
    have htrim : Text.trim name = name := (name_of_find? hd).symm.trans hname
    rw [htrim] at hd
    exact ⟨hd, htrim⟩
  · intro h
    obtain ⟨hd, htrim⟩ := h
    rw [htrim]
    exact ⟨hd, name_of_find? hd⟩

/-- **What is registered last under a name is found again, unless there are blanks around the name.**  Types are
registered in a catalog, behind those that it has.  A name is answered with the type registered last under the name
without its blanks; so it is answered with the type registered last under itself, and with any type of that very name,
exactly if it has no blank at either end.  All names are listed in strictly ascending order, whether or not there are
blanks around them, and no others. -/
theorem lookup_registered (c : Catalog) (added : List Descriptor) :
    (∀ name d, (added.foldl register c).lookup name = some d ↔
      LastRegistered (c.entries ++ added) (Text.trim name) d) ∧
    (∀ name d, ((added.foldl register c).lookup name = some d ∧ d.name = name) ↔
      LastRegistered (c.entries ++ added) name d ∧ Text.Trimmed name) ∧
    (added.foldl register c).names.Pairwise (· < ·) ∧
    (∀ name, name ∈ (added.foldl register c).names ↔ ∃ d ∈ c.entries ++ added, d.name = name) ∧
    (∀ name, (∃ d, (added.foldl register c).lookup name = some d ∧ d.name = name) ↔
      name ∈ (added.foldl register c).names ∧ Text.Trimmed name) := by
  have hfind : ∀ name d, (added.foldl register c).find? name = some d ↔
      LastRegistered (c.entries ++ added) name d := by
    intro name d
    rw [← find?_foldl_register_iff, List.foldl_append, foldl_register_entries]
  refine ⟨?_, ?_, sorted_names _, ?_, ?_⟩
  · intro name d
    exact hfind (Text.trim name) d
  · intro name d
    rw [lookup_and_name_iff, hfind]
  · intro name
    rw [mem_names_iff, ← exists_lastRegistered_iff]
    exact exists_congr (hfind name)
  · intro name
    rw [mem_names_iff, ← exists_and_right]
    exact exists_congr (fun d => lookup_and_name_iff)

/-- A type that is registered over a built-in one is found under its name, also with blanks around the name. -/
example :
    ([⟨"int", .enumeration .u8⟩].foldl register builtins).lookup " int\t" = some ⟨"int", .enumeration .u8⟩ := by
  decide +kernel

/-- An integer type whose name has a blank before it, another one without the blank, and one with a blank behind its
name. -/
def paddedTypes : List Descriptor :=
  [⟨" int", .numeric .i64⟩, ⟨"int", .numeric .i32⟩, ⟨"run ", .numeric .u8⟩]

/-- Two names with blanks around them are listed, and what is registered under them is not found: one of them is
answered with a type of another name, and the other not at all. -/
theorem lookup_paddedTypes :
    LastRegistered paddedTypes " int" ⟨" int", .numeric .i64⟩ ∧
      LastRegistered paddedTypes "run " ⟨"run ", .numeric .u8⟩ ∧
      (paddedTypes.foldl register empty).names = [" int", "int", "run "] ∧
      (paddedTypes.foldl register empty).lookup " int" = some ⟨"int", .numeric .i32⟩ ∧
      (paddedTypes.foldl register empty).lookup "run " = none := by
  refine ⟨?_, ?_, ?_, ?_, ?_⟩
  · exact ⟨[], [⟨"int", .numeric .i32⟩, ⟨"run ", .numeric .u8⟩], rfl, rfl, by decide⟩
  · exact ⟨[⟨" int", .numeric .i64⟩, ⟨"int", .numeric .i32⟩], [], rfl, rfl, by decide⟩
  · -- the names are in order as they come, so that sorting leaves them as they are
    exact List.mergeSort_of_pairwise (by decide +kernel)
  · decide +kernel
  · decide +kernel

end Catalog

end TypedColumns
