import TypedColumns.Text.Blank
import TypedColumns.Types.Descriptor

/-!
# Type catalogs

A catalog keeps descriptors under their names.  A descriptor registered under a name that is taken replaces the one
before.  Names are looked up without the blanks around them; type definitions are followed when a name is resolved.

* `Catalog.register`, `Catalog.lookup`, `Catalog.names` -- the store.  What is registered is found under its name, and
  nothing else changes (`find?_register_self`, `find?_register_of_ne`).
* `Catalog.resolve` -- the type behind a name, after at most `typedefLimit` looks at a descriptor.
* `Catalog.ancestors` -- every base that can be reached from some bases, each spelling once.
* `Catalog.inherits` -- whether a class has a base, directly or through others, under either of the base's names.
* `Catalog.builtins` -- the numeric types under their usual names.
-/

namespace TypedColumns

/-- Descriptors under their names, no two under the same. -/
structure Catalog where
  entries : List Descriptor
  distinct : (entries.map Descriptor.name).Nodup
deriving Repr

namespace Catalog

/-- The catalog without any type. -/
def empty : Catalog := ⟨[], List.nodup_nil⟩

theorem distinct_replace {entries : List Descriptor} (h : (entries.map Descriptor.name).Nodup) (d : Descriptor) :
    ((entries.filter (fun e => e.name != d.name) ++ [d]).map Descriptor.name).Nodup := by
  rw [List.map_append, List.nodup_append]
  refine ⟨List.Nodup.sublist (List.Sublist.map _ List.filter_sublist) h, by simp, ?_⟩
  intro x hx y hy
  obtain ⟨e, he, rfl⟩ := List.mem_map.1 hx
  have hname : e.name ≠ d.name := by simpa using (List.mem_filter.1 he).2
  have hyd : y = d.name := by simpa using hy
  rw [hyd]
  exact hname

/-- Keeps a descriptor under its name, in place of one that had it before. -/
def register (c : Catalog) (d : Descriptor) : Catalog :=
  ⟨c.entries.filter (fun e => e.name != d.name) ++ [d], distinct_replace c.distinct d⟩

/-- The descriptor kept under exactly this name. -/
def find? (c : Catalog) (name : String) : Option Descriptor :=
  c.entries.find? (fun e => e.name == name)

/-- The descriptor kept under a name, blanks around the name set aside. -/
def lookup (c : Catalog) (name : String) : Option Descriptor := c.find? (Text.trim name)

/-- How many types are kept. -/
def size (c : Catalog) : Nat := c.entries.length

/-- The names in ascending order of their characters. -/
def names (c : Catalog) : List String :=
  (c.entries.map Descriptor.name).mergeSort (fun a b => decide (a ≤ b))

theorem nodup_names (c : Catalog) : c.names.Nodup :=
  (List.mergeSort_perm _ _).nodup_iff.2 c.distinct

theorem find?_register_self (c : Catalog) (d : Descriptor) : (c.register d).find? d.name = some d := by
  simp only [register, find?, List.find?_append, List.find?_cons, beq_self_eq_true]
  rw [List.find?_eq_none.2]
  · rfl
  · intro e he
    have h := (List.mem_filter.1 he).2
    simpa using h

theorem find?_register_of_ne (c : Catalog) (d : Descriptor) {name : String} (h : name ≠ d.name) :
    (c.register d).find? name = c.find? name := by
  have hd : (d.name == name) = false := by simpa using Ne.symm h
  simp only [register, find?, List.find?_append, List.find?_cons, hd, List.find?_nil, Option.or_none]
  rw [List.find?_filter]
  congr 1
  funext e
  by_cases he : e.name = name
  · simp [he, h]
  · simp [he]

/-! ### Resolving names -/

/-- How many descriptors are looked at before a chain of type definitions is given up. -/
def typedefLimit : Nat := 16

/-- Follows type definitions from a descriptor, looking at no more than `fuel` descriptors. -/
def followTypedefs (c : Catalog) : Nat → Descriptor → Option Descriptor
  | 0, _ => none
  | fuel + 1, d =>
    match d.form with
    | .typedef target =>
      match c.lookup target with
      | some e => c.followTypedefs fuel e
      | none => none
    | _ => some d

/-- The type that a name stands for once type definitions are followed. -/
def resolve (c : Catalog) (name : String) : Option Descriptor :=
  match c.lookup name with
  | some d => c.followTypedefs typedefLimit d
  | none => none

/-! ### Inheritance -/

/-- The bases named by the class that a name resolves to. -/
def basesOf (c : Catalog) (name : String) : List String :=
  match c.resolve name with
  | some d => d.bases
  | none => []

/-- Every base named by any class of the catalog. -/
def allBases (c : Catalog) : List String := c.entries.flatMap Descriptor.bases

/-- Names with every occurrence of one name left out. -/
def without (name : String) (names : List String) : List String := names.filter (· != name)

theorem length_without_lt {name : String} {names : List String} (h : name ∈ names) :
    (without name names).length < names.length :=
  List.length_filter_lt_length_iff_exists.2 ⟨name, h, by simp⟩

/-- Visits bases breadth first: takes the next one waiting, passes over it when it is no longer among the `unseen`,
and otherwise lists it and lets its own bases wait. -/
def visit (c : Catalog) (unseen waiting : List String) : List String :=
  match waiting with
  | [] => []
  | name :: rest =>
    if name ∈ unseen then name :: c.visit (without name unseen) (rest ++ c.basesOf name)
    else c.visit unseen rest
termination_by (unseen.length, waiting.length)
decreasing_by
  · rename_i h
    exact Prod.Lex.left _ _ (length_without_lt h)
  · apply Prod.Lex.right
    simp

/-- Every base that can be reached from the given bases, each spelling once, nearest first. -/
def ancestors (c : Catalog) (bases : List String) : List String := c.visit c.allBases bases

/-- Whether `name` is a spelling of the base: the same text, or resolved to a type of that name. -/
def denotes (c : Catalog) (name base : String) : Bool :=
  match c.resolve name with
  | some d => d.name == base || name == base
  | none => false

/-- Whether the class that `derived` resolves to has `base` among the bases that can be reached from it. -/
def inherits (c : Catalog) (derived base : String) : Bool :=
  (c.ancestors (c.basesOf derived)).any (fun name => c.denotes name base)

/-! ### Built-in types -/

/-- The usual names of each numeric kind. -/
def builtinNames : List (Numeric × List String) :=
  [(.bool, ["bool", "Bool_t"]),
    (.i8, ["i8", "char", "Char_t", "int8_t"]),
    (.u8, ["u8", "unsigned char", "UChar_t", "uint8_t"]),
    (.i16, ["i16", "short", "Short_t", "int16_t"]),
    (.u16, ["u16", "unsigned short", "UShort_t", "uint16_t"]),
    (.i32, ["i32", "int", "Int_t", "int32_t"]),
    (.u32, ["u32", "unsigned int", "UInt_t", "uint32_t"]),
    (.i64, ["i64", "long long", "Long64_t", "int64_t"]),
    (.u64, ["u64", "unsigned long long", "ULong64_t", "uint64_t"]),
    (.f32, ["f32", "float", "Float_t"]),
    (.f64, ["f64", "double", "Double_t"]),
    (.float16, ["Float16_t"]),
    (.double32, ["Double32_t"])]

/-- The descriptors of the numeric types under their usual names. -/
def builtinEntries : List Descriptor :=
  builtinNames.flatMap (fun (kind, names) => names.map (fun name => ⟨name, .numeric kind⟩))

theorem nodup_builtinEntries : (builtinEntries.map Descriptor.name).Nodup := by decide +kernel

/-- The catalog of the numeric types under their usual names. -/
def builtins : Catalog := ⟨builtinEntries, nodup_builtinEntries⟩

end Catalog

end TypedColumns
