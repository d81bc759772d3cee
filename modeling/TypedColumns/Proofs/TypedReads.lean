import Mathlib.Algebra.Group.Int.Defs
import TypedColumns.Proofs.Generations
import TypedColumns.Proofs.Outlines
import TypedColumns.Proofs.TypedefChains

/-!
# Values of the right width

A column that is asked for as one of the built-in kinds of value reads as many bytes as are stored, however the path was
resolved, whatever the names of the types say, and however often the column was set up before.

* `Descriptor.storage?`, `storage?_of_agreement` -- what numbers a type keeps in memory, and that a type that agrees with
  a numeric one keeps numbers of the same width.
* `Schema.serves_of_resolve`, `Dataset.serves_of_resolution` -- whatever a path is resolved to serves the request.
* `Numeric.integerOf`, `ColumnType.decode_eq_integerOf` -- the whole number that some bytes stand for, by the least
  significant byte first and two's complement; decoding an integer gives it (`integerOf_emod`, `integerOf_congr`).
* `Binding.Genuine`, `Binding.Recent` -- what a binding has found comes from a set-up with these types; it is what the
  path stands for now unless the generation is an earlier one (`genuine_after`, `recent_after`).
* `Session.get_reads_storedWidth` -- a value is decoded from exactly the bytes of the stored number.
-/

namespace TypedColumns

/-! ### Types under their names -/

namespace Catalog

variable {c : Catalog}

/-- Types that are added under other names leave a name to its type. -/
theorem find?_foldl_register {name : String} {added : List Descriptor} (h : ∀ d ∈ added, d.name ≠ name) :
    (added.foldl register c).find? name = c.find? name := by
  induction added generalizing c with
  | nil => rfl
  | cons d added ih =>
      rw [List.foldl_cons, ih (fun e he => h e (List.mem_cons_of_mem d he))]
      exact find?_register_of_ne c d (Ne.symm (h d List.mem_cons_self))

end Catalog

/-- The descriptor of a built-in kind of value. -/
def ColumnType.descriptor (type : ColumnType) : Descriptor := ⟨type.name, .numeric type.kind⟩

theorem ColumnType.find?_builtins (type : ColumnType) : Catalog.builtins.find? type.name = some type.descriptor := by
  cases type <;> decide +kernel

theorem ColumnType.trim_name (type : ColumnType) : Text.trim type.name = type.name := by
  cases type <;> decide +kernel

/-- Where the name of a built-in kind is not taken by another type, it is resolved to that kind. -/
theorem ColumnType.resolve_name {types : Catalog} {type : ColumnType}
    (h : types.find? type.name = Catalog.builtins.find? type.name) : types.resolve type.name = some type.descriptor := by
  rw [Catalog.resolve, Catalog.lookup, type.trim_name, h, type.find?_builtins]
  rfl

/-- The kind of number that a type keeps in memory, for numeric types and enumerations. -/
def Descriptor.storage? (d : Descriptor) : Option Numeric :=
  match d.form with
  | .numeric kind | .enumeration kind => some kind
  | _ => none

theorem Numeric.width_of_enumAgreement {kind underlying : Numeric}
    (h : (kind.enumAgreement underlying).isCompatible = true) : underlying.width = kind.width := by
  rw [enumAgreement] at h
  split at h
  · rename_i hcases
    rcases hcases with ⟨-, hwidth⟩ | rfl
    · exact hwidth
    · rfl
  · cases h

/-- A type that agrees with a numeric one keeps numbers of the same width.  That an equal name is enough for two types to
agree does no harm, since the name says which type it is. -/
theorem storage?_of_agreement {types : Catalog} {wanted stored : Descriptor} {kind : Numeric}
    (hwanted : types.find? wanted.name = some wanted) (hstored : types.find? stored.name = some stored)
    (hkind : wanted.form = .numeric kind) (h : (types.agreement wanted stored).isCompatible = true) :
    ∃ held, stored.storage? = some held ∧ held.width = kind.width := by
  rw [Catalog.agreement] at h
  split at h
  · rename_i hname
    rw [hname, hstored] at hwanted
    cases hwanted
    refine ⟨kind, ?_, rfl⟩
    rw [Descriptor.storage?, hkind]
  · rw [hkind] at h
    rw [Descriptor.storage?]
    cases hform : stored.form with
    | numeric held =>
        rw [hform] at h
        exact ⟨held, rfl, (Numeric.width_of_agreement h).symm⟩
    | enumeration underlying =>
        rw [hform] at h
        exact ⟨underlying, rfl, Numeric.width_of_enumAgreement h⟩
    | record bases members =>
        rw [hform] at h
        cases h
    | typedef target =>
        rw [hform] at h
        cases h

/-! ### Resolved paths -/

/-- Whatever a path is resolved to, it is the name of a type that is known and serves the request. -/
theorem Schema.serves_of_resolve {s : Schema} {types : Catalog} {path : String} {requested : Option Descriptor}
    {r : Resolution} (h : (s.resolve types path requested).1 = .ok r) :
    ∃ type stored, Serves types requested type stored ∧ r.stored = stored.name := by
  rcases resolve_eq_ok_iff.1 h with
    ⟨_, _, _, leaf, stored, -, -, -, -, hserves, rfl⟩ | ⟨⟨_, node, stored, -, -, hserves, rfl⟩, -⟩ |
      ⟨⟨_, _, _, w, stored, -, -, -, -, hserves, rfl⟩, -⟩
  · exact ⟨leaf.type, stored, hserves, rfl⟩
  · exact ⟨node.type, stored, hserves, rfl⟩
  · exact ⟨w.type, stored, hserves, rfl⟩

theorem Dataset.serves_of_resolution {d : Dataset} {path name : String} {r : Resolution}
    (h : d.resolution path (some name) = .ok r) :
    ∃ wanted type stored, d.types.resolve name = some wanted ∧ Serves d.types (some wanted) type stored ∧
      r.stored = stored.name := by
  rw [Dataset.resolution] at h
  split at h
  · cases h
  · simp only at h
    split at h
    · cases h
    · rename_i wanted hwanted
      obtain ⟨type, stored, hserves, hname⟩ := Schema.serves_of_resolve h
      exact ⟨wanted, type, stored, hwanted, hserves, hname⟩

/-- A path that is resolved for a built-in kind of value leads to numbers of that width. -/
theorem Dataset.storage?_of_resolution {d : Dataset} {path : String} {type : ColumnType} {r : Resolution}
    (hname : d.types.find? type.name = Catalog.builtins.find? type.name)
    (h : d.resolution path (some type.name) = .ok r) :
    ∃ stored kind, r.stored = stored.name ∧ d.types.find? stored.name = some stored ∧
      stored.storage? = some kind ∧ kind.width = type.size := by
  obtain ⟨wanted, held, stored, hwanted, ⟨hresolve, hserves⟩, hstored⟩ := Dataset.serves_of_resolution h
  rw [ColumnType.resolve_name hname] at hwanted
  obtain rfl := Option.some.inj hwanted
  have hfind := Catalog.find?_of_resolve hresolve
  have hself : d.types.find? type.descriptor.name = some type.descriptor := hname.trans type.find?_builtins
  obtain ⟨kind, hkind, hwidth⟩ := storage?_of_agreement hself hfind rfl (hserves _ rfl)
  exact ⟨stored, kind, hstored, hfind, hkind, hwidth⟩

/-! ### Whole numbers in memory -/

/-- Whether the numbers of a kind can be negative. -/
def Numeric.isSigned : Numeric → Bool
  | .i8 | .i16 | .i32 | .i64 => true
  | _ => false

/-- The whole number that some bytes stand for, least significant byte first; a signed kind takes the upper half of the
range for negative numbers. -/
def Numeric.integerOf (kind : Numeric) (bytes : List UInt8) : Int :=
  let n := LittleEndian.decode bytes
  if kind.isSigned ∧ 256 ^ bytes.length ≤ 2 * n then (n : Int) - 256 ^ bytes.length else n

theorem Numeric.integerOf_congr {kind other : Numeric} (h : kind.isSigned = other.isSigned) (bytes : List UInt8) :
    kind.integerOf bytes = other.integerOf bytes := by
  rw [integerOf, integerOf, h]

/-- Two kinds read the same bytes as the same number, up to a multiple of the range. -/
theorem Numeric.integerOf_emod (kind : Numeric) (bytes : List UInt8) :
    kind.integerOf bytes % 256 ^ bytes.length = LittleEndian.decode bytes % 256 ^ bytes.length := by
  rw [integerOf]
  split
  · exact Int.sub_emod_right _ _
  · rfl

theorem LittleEndian.decode_lt (bytes : List UInt8) : decode bytes < 256 ^ bytes.length := by
  induction bytes with
  | nil => simp [decode]
  | cons b bs ih =>
      rw [decode, List.length_cons, Nat.pow_succ]
      have hb : b.toNat < 256 := b.toNat_lt
      omega

/-- Taking the residue around zero is reading by two's complement. -/
theorem bmod_decode (bytes : List UInt8) (h : bytes ≠ []) :
    Int.bmod (LittleEndian.decode bytes) (256 ^ bytes.length) =
      if 256 ^ bytes.length ≤ 2 * LittleEndian.decode bytes then
        (LittleEndian.decode bytes : Int) - 256 ^ bytes.length
      else LittleEndian.decode bytes := by
  have hlt := LittleEndian.decode_lt bytes
  obtain ⟨half, hhalf⟩ : ∃ half, 256 ^ bytes.length = 2 * half := by
    obtain ⟨b, bs, rfl⟩ := List.exists_cons_of_ne_nil h
    refine ⟨128 * 256 ^ bs.length, ?_⟩
    rw [List.length_cons, Nat.pow_succ]
    omega
  have hcast : (256 : Int) ^ bytes.length = ((256 ^ bytes.length : Nat) : Int) := by
    rw [Int.natCast_pow]
    rfl
  rw [hcast]
  rw [hhalf] at hlt ⊢
  rw [Int.bmod, Int.emod_eq_of_lt (by omega) (by omega)]
  split
  · rw [if_neg (by omega)]
  · rw [if_pos (by omega)]

/-- Decoding as an integer gives the number that the bytes stand for. -/
theorem ColumnType.decode_eq_integerOf {type : ColumnType} {bytes : List UInt8} (h : type.kind.isInteger = true)
    (hlength : bytes.length = type.size) : type.decode bytes = .int (type.kind.integerOf bytes) := by
  have hrange : 2 ^ (8 * type.size) = 256 ^ bytes.length := by
    rw [hlength, Nat.pow_mul]
  have hne : bytes ≠ [] := by
    intro hnil
    rw [hnil] at hlength
    cases type <;> cases hlength
  have hsigned : (BitVec.ofNat (8 * type.size) (LittleEndian.decode bytes)).toInt =
      if 256 ^ bytes.length ≤ 2 * LittleEndian.decode bytes then
        (LittleEndian.decode bytes : Int) - 256 ^ bytes.length
      else LittleEndian.decode bytes := by
    rw [BitVec.toInt_ofNat', hrange]
    exact bmod_decode bytes hne
  cases type with
  | bool | f32 | f64 => cases h
  | i8 | i16 | i32 | i64 =>
      simp only [decode, hsigned, Numeric.integerOf, kind, Numeric.isSigned, true_and]
  | u8 | u16 | u32 | u64 =>
      simp only [decode, Numeric.integerOf, kind, Numeric.isSigned, Bool.false_eq_true, false_and, if_false]

/-- A stored integer that is decoded as an integer is the same up to a multiple of the range, and the same altogether if
both are signed or both are not. -/
theorem ColumnType.decode_congr {type : ColumnType} {bytes : List UInt8} (h : type.kind.isInteger = true)
    (hlength : bytes.length = type.size) (kind : Numeric) :
    ∃ n, type.decode bytes = .int n ∧ n % 256 ^ type.size = kind.integerOf bytes % 256 ^ type.size ∧
      (type.kind.isSigned = kind.isSigned → n = kind.integerOf bytes) := by
  refine ⟨type.kind.integerOf bytes, decode_eq_integerOf h hlength, ?_, ?_⟩
  · rw [← hlength, Numeric.integerOf_emod, Numeric.integerOf_emod]
  · intro hsigned
    exact Numeric.integerOf_congr hsigned bytes

/-! ### Values -/

namespace Binding

/-- A binding that was refreshed has been set up under this generation. -/
theorem generation_of_refresh {b : Binding} {d : Dataset} {generation : Generation}
    {outcome : Except SetupError Finding}
    (h : (b.refresh Dataset.cursor d).1.outline? = some (generation, outcome)) :
    generation = d.registry.generation := by
  rw [refresh] at h
  split at h
  · rename_i hfresh
    rw [isFresh_eq, h] at hfresh
    exact eq_of_beq hfresh
  · cases h
    rfl

/-- Where a value is got, it is decoded from the bytes at the binding's address, and by then the binding has found
something under the current generation. -/
theorem get_eq_some {b : Binding} {d : Dataset} {type : ColumnType} {v : Value}
    (h : (b.get type Dataset.cursor d).value = some v) :
    ∃ a bytes f, (b.address Dataset.cursor d).value = some a ∧ d.arena.bytes a type.size = .ok bytes ∧
      v = type.decode bytes ∧
      (b.get type Dataset.cursor d).binding.outline? = some (d.registry.generation, .ok f) := by
  rw [value_get] at h
  split at h
  · cases h
  · rename_i hstatus
    obtain ⟨a, ha, hdecode⟩ := Option.bind_eq_some_iff.1 h
    obtain ⟨bytes, hbytes, rfl⟩ := Option.map_eq_some_iff.1 hdecode
    obtain ⟨generation, f, hfound⟩ := found_of_address ha
    obtain rfl := generation_of_refresh hfound
    refine ⟨a, bytes, f, ha, ?_, rfl, (outline?_get type hstatus).trans hfound⟩
    cases hread : d.arena.bytes a type.size with
    | error e =>
        rw [hread] at hbytes
        cases hbytes
    | ok bs =>
        rw [hread] at hbytes
        exact congrArg Except.ok (Option.some.inj hbytes)

/-! ### What a binding has found -/

/-- What the last set-up found, if anything, is what the path stands for in some dataset with these types. -/
def Genuine (types : Catalog) (b : Binding) : Prop :=
  ∀ generation f, b.outline? = some (generation, .ok f) →
    ∃ d : Dataset, d.types = types ∧ d.resolution b.path b.requested = .ok f.resolution

/-- What the last set-up found, if anything, was found under no later generation, and if under this one, it is what the
path stands for in the current file. -/
def Recent (d : Dataset) (b : Binding) : Prop :=
  ∀ generation f, b.outline? = some (generation, .ok f) →
    generation.number.toNat ≤ d.registry.generation.number.toNat ∧
      (generation = d.registry.generation → d.resolution b.path b.requested = .ok f.resolution)

section Calls

variable {b : Binding} {d : Dataset}

theorem genuine_call (h : b.Genuine d.types) (call : BindingCall) : (b.call d call).binding.Genuine d.types := by
  intro generation f hf
  have hcolumn := sameColumn_call b d call
  rw [hcolumn.path, hcolumn.requested]
  rcases outline?_call b d call with hold | hnew
  · rw [hold] at hf
    exact h generation f hf
  · rw [hnew] at hf
    exact ⟨d, rfl, (resolution_of_setup hf).2⟩

/-- Where a genuine binding of a built-in kind has found something, numbers of that width are kept. -/
theorem Genuine.storage? {types : Catalog} {type : ColumnType} {generation : Generation} {f : Finding}
    (h : b.Genuine types) (hname : types.find? type.name = Catalog.builtins.find? type.name)
    (hrequested : b.requested = some type.name) (hfound : b.outline? = some (generation, .ok f)) :
    ∃ stored kind, f.resolution.stored = stored.name ∧ b.storedType = some stored.name ∧
      types.find? stored.name = some stored ∧ stored.storage? = some kind ∧ kind.width = type.size := by
  obtain ⟨d, rfl, hresolution⟩ := h generation f hfound
  rw [hrequested] at hresolution
  obtain ⟨stored, kind, hstored, hfind, hkind, hwidth⟩ := Dataset.storage?_of_resolution hname hresolution
  refine ⟨stored, kind, hstored, ?_, hfind, hkind, hwidth⟩
  rw [storedType_eq, hfound]
  exact congrArg some hstored

theorem recent_call (h : b.Recent d) (call : BindingCall) : (b.call d call).binding.Recent (b.call d call).state := by
  intro generation f hf
  have hcolumn := sameColumn_call b d call
  have hagrees := (Dataset.reloaded_of_reaches (reaches_call b d call)).agrees
  rw [hcolumn.path, hcolumn.requested, hagrees.generation, hagrees.resolution]
  rcases outline?_call b d call with hold | hnew
  · rw [hold] at hf
    exact h generation f hf
  · rw [hnew] at hf
    obtain ⟨rfl, hr⟩ := resolution_of_setup hf
    exact ⟨Nat.le_refl _, fun _ => hr⟩

end Calls

end Binding

namespace Session

/-! ### Runs -/

theorem genuine_apply {types : Catalog} {s : Session} (htypes : s.dataset.types = types)
    (h : ∀ b ∈ s.bindings, b.Genuine types) (call : SessionCall) :
    ∀ b ∈ (s.apply call).state.bindings, b.Genuine types := by
  intro b hb
  obtain ⟨i, hi⟩ := List.getElem?_of_mem hb
  rcases binding_apply hi with hold | ⟨a, use, rfl, ha, rfl⟩ | ⟨a, rfl, ha, rfl⟩ | ⟨path, requested, rfl, rfl⟩
  · exact h b (List.mem_of_getElem? hold)
  · rw [← htypes] at h ⊢
    exact Binding.genuine_call (h a (List.mem_of_getElem? ha)) use
  · exact h a (List.mem_of_getElem? ha)
  · intro generation f hf
    cases hf

/-- Whatever a binding has found in the course of a run, it found with the types of the dataset. -/
theorem genuine_after {types : Catalog} {s : Session} (htypes : s.dataset.types = types)
    (h : ∀ b ∈ s.bindings, b.Genuine types) (calls : List SessionCall) :
    ∀ b ∈ (s.after calls).bindings, b.Genuine types := by
  induction calls generalizing s with
  | nil => exact h
  | cons call calls ih => exact ih ((fixed_apply s call).2.trans htypes) (genuine_apply htypes h call)

/-- As long as the current file does not change, a path that is resolved stays so. -/
theorem resolution_after {s : Session} {calls : List SessionCall} (hs : s.WellFormed) (hnone : s.switches calls = 0)
    {path : String} {requested : Option String} {r : Resolution} (h : s.dataset.resolution path requested = .ok r) :
    (s.after calls).dataset.resolution path requested = .ok r := by
  rw [(showsSame_after hs hnone h).resolution]
  exact h

theorem recent_apply {s : Session} {call : SessionCall} (hs : s.WellFormed) (hsilent : call.announces = false)
    (hcount : s.dataset.registry.generation.number.toNat + s.switches [call] < 2 ^ 64)
    (h : ∀ b ∈ s.bindings, b.Recent s.dataset) :
    ∀ b ∈ (s.apply call).state.bindings, b.Recent (s.apply call).state.dataset := by
  -- A binding that the call is not about: either the current file stays, or the generation moves past what was found.
  have hkept : ∀ a ∈ s.bindings, a.Recent (s.apply call).state.dataset := by
    intro a ha generation f hf
    obtain ⟨hle, hholds⟩ := h a ha generation f hf
    rcases advances_apply (s := s) hsilent with ⟨hcurrent, hgen⟩ | ⟨hcurrent, hgen⟩
    · have hnone : s.switches [call] = 0 := by
        simp only [switches, Nat.add_zero]
        exact if_pos hcurrent
      rw [hgen]
      exact ⟨hle, fun heq => resolution_after hs hnone (hholds heq)⟩
    · have hone : s.switches [call] = 1 := by
        simp only [switches, Nat.add_zero]
        exact if_neg hcurrent
      rw [hone] at hcount
      have hnext := Generation.toNat_next hcount
      rw [hgen]
      refine ⟨by omega, ?_⟩
      rintro rfl
      omega
  intro b hb
  obtain ⟨i, hi⟩ := List.getElem?_of_mem hb
  rcases binding_apply hi with hold | ⟨a, use, rfl, ha, rfl⟩ | ⟨a, rfl, ha, rfl⟩ | ⟨path, requested, rfl, rfl⟩
  · exact hkept b (List.mem_of_getElem? hold)
  · simp only [apply, ha]
    exact Binding.recent_call (h a (List.mem_of_getElem? ha)) use
  · exact hkept a (List.mem_of_getElem? ha)
  · intro generation f hf
    cases hf

/-- In a run without announcements, whatever a binding has found under the current generation is what its path stands
for in the current file. -/
theorem recent_after {s : Session} {calls : List SessionCall} (hs : s.WellFormed)
    (hsilent : ∀ call ∈ calls, call.announces = false)
    (hcount : s.dataset.registry.generation.number.toNat + s.switches calls < 2 ^ 64)
    (h : ∀ b ∈ s.bindings, b.Recent s.dataset) : ∀ b ∈ (s.after calls).bindings, b.Recent (s.after calls).dataset := by
  induction calls generalizing s with
  | nil => exact h
  | cons call calls ih =>
      have hcall := hsilent call List.mem_cons_self
      have hgen := generation_apply hcall hcount
      have hone : s.dataset.registry.generation.number.toNat + s.switches [call] < 2 ^ 64 := by
        rw [switches_cons] at hcount
        omega
      rw [← hgen] at hcount
      exact ih (wellFormed_apply hs call) (fun c hc => hsilent c (List.mem_cons_of_mem call hc)) hcount
        (recent_apply hs hcall hone h)

/-- **A value is decoded from exactly the bytes of the stored number.**  Take any run with any types that leave the name
of a built-in kind to that kind, and a binding that asks for it.  When a value is got, the stored type of the column keeps
numbers of the width of the kind; the value is decoded from so many bytes at the binding's address; and a stored integer
that is got as an integer is the same up to a multiple of the range, and the same altogether if both are signed or both
are not.  As long as the client announces no generation of its own, the stored type is the one in the current file. -/
theorem get_reads_storedWidth {identity : RegistryId} {types : Catalog} {settings : Settings} {calls : List SessionCall}
    {i : Nat} {b : Binding} {type : ColumnType} {v : Value}
    (hname : types.find? type.name = Catalog.builtins.find? type.name)
    (hb : ((start identity types settings).after calls).bindings[i]? = some b)
    (hrequested : b.requested = some type.name)
    (hget : (((start identity types settings).after calls).apply (.use i (.get type))).answer = .value (some v)) :
    let s := (start identity types settings).after calls
    ∃ b' stored kind a bytes, (s.apply (.use i (.get type))).state.bindings[i]? = some b' ∧
      b'.storedType = some stored.name ∧ types.find? stored.name = some stored ∧
      stored.storage? = some kind ∧ kind.width = type.size ∧
      (s.apply (.use i .address)).answer = .address (some a) ∧
      s.dataset.arena.bytes a type.size = .ok bytes ∧ v = type.decode bytes ∧
      (kind.isInteger = true → type.kind.isInteger = true → ∃ n, v = .int n ∧
        n % 256 ^ type.size = kind.integerOf bytes % 256 ^ type.size ∧
        (type.kind.isSigned = kind.isSigned → n = kind.integerOf bytes)) ∧
      ((∀ call ∈ calls, call.announces = false) → (start identity types settings).switches calls < 2 ^ 64 →
        ∃ r, s.dataset.resolution b.path b.requested = .ok r ∧ r.stored = stored.name) := by
  intro s
  have hmem : b ∈ s.bindings := List.mem_of_getElem? hb
  have hlt := (List.getElem?_eq_some_iff.1 hb).1
  have hvalue : (b.get type Dataset.cursor s.dataset).value = some v := by
    simp only [apply, hb] at hget
    exact Answer.value.inj hget
  obtain ⟨a, bytes, f, haddress, hbytes, rfl, hfound⟩ := Binding.get_eq_some hvalue
  have hcolumn := Binding.sameColumn_get b Dataset.cursor s.dataset type
  -- The types never change, so whatever is found is found with them.
  have hnone : ∀ a ∈ (start identity types settings).bindings, a.Genuine types := fun a ha => by cases ha
  have htypes : s.dataset.types = types := (fixed_after _ calls).2
  have hgenuine : b.Genuine s.dataset.types := by
    rw [htypes]
    exact genuine_after rfl hnone calls b hmem
  have hgot : (b.get type Dataset.cursor s.dataset).binding.Genuine s.dataset.types :=
    Binding.genuine_call hgenuine (.get type)
  rw [htypes] at hgot
  obtain ⟨stored, kind, hstored, hstoredType, hfind, hkind, hwidth⟩ :=
    hgot.storage? hname (hcolumn.requested.trans hrequested) hfound
  refine ⟨(b.get type Dataset.cursor s.dataset).binding, stored, kind, a, bytes, ?_, hstoredType, hfind, hkind, hwidth,
    ?_, hbytes, rfl, ?_, ?_⟩
  · simp only [s, apply, hb]
    exact List.getElem?_set_self hlt
  · simp only [s, apply, hb]
    exact congrArg Answer.address haddress
  · intro _ hinteger
    exact ColumnType.decode_congr hinteger (Arena.length_bytes hbytes) kind
  · intro hsilent hcount
    have hzero : (start identity types settings).dataset.registry.generation.number.toNat = 0 := rfl
    have hunset : ∀ a ∈ (start identity types settings).bindings, a.Recent (start identity types settings).dataset :=
      fun a ha => by cases ha
    have hrecent := recent_after (wellFormed_start identity types settings) hsilent (by omega) hunset b hmem
    have hagrees := (Dataset.reloaded_of_reaches (reaches_get Dataset.cursor b type s.dataset)).agrees
    have hcalled : (b.get type Dataset.cursor s.dataset).binding.Recent (b.get type Dataset.cursor s.dataset).state :=
      Binding.recent_call hrecent (.get type)
    have hresolution := (hcalled _ f hfound).2 hagrees.generation.symm
    rw [hagrees.resolution, hcolumn.path, hcolumn.requested] at hresolution
    exact ⟨f.resolution, hresolution, hstored⟩

/-- A file with one node of an enumeration, whose number has all its bits set. -/
def colorRun : File :=
  ⟨"colors", .ofNodes [plainNode "color" "Color"] (wellLinked_of_references_eq_nil (by decide +kernel) (by decide)),
    { Arena.empty with data := [255, 255, 255, 255] }, [⟨[("color", ⟨0x1000⟩)]⟩], []⟩

/-- An enumeration kept in four unsigned bytes is got as a signed integer of four bytes. -/
theorem get_enumeration :
    let types := [⟨"Color", .enumeration .u32⟩].foldl Catalog.register Catalog.builtins
    let calls := [.dataset (.pushFile colorRun), .bind "color" (some "i32"), .dataset .next]
    let s := (start ⟨0⟩ types ⟨[], 0⟩).after calls
    (s.apply (.use 0 (.get .i32))).answer = .value (some (.int (-1))) ∧
      ∃ stored kind a bytes, types.find? stored.name = some stored ∧ stored.storage? = some kind ∧
        kind.width = 4 ∧ (s.apply (.use 0 .address)).answer = .address (some a) ∧
        s.dataset.arena.bytes a 4 = .ok bytes ∧ Value.int (-1) = ColumnType.i32.decode bytes := by
  intro types calls s
  have hname : types.find? ColumnType.i32.name = Catalog.builtins.find? ColumnType.i32.name :=
    Catalog.find?_foldl_register (by decide)
  have hanswer : (s.apply (.use 0 (.get .i32))).answer = .value (some (.int (-1))) := answer_get (by decide +kernel)
  have hasked : s.bindings[0]?.map Binding.requested = some (some ColumnType.i32.name) := by decide +kernel
  obtain ⟨b, hb, hrequested⟩ := Option.map_eq_some_iff.1 hasked
  obtain ⟨-, stored, kind, a, bytes, -, -, hfind, hkind, hwidth, haddress, hbytes, hv, -, -⟩ :=
    get_reads_storedWidth hname hb hrequested hanswer
  exact ⟨hanswer, stored, kind, a, bytes, hfind, hkind, hwidth, haddress, hbytes, hv⟩

end Session

end TypedColumns
