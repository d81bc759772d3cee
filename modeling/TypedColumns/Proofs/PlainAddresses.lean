import Mathlib.Algebra.GroupWithZero.Nat
import TypedColumns.Resolution

/-!
# Addresses worked out from the bytes

Where an offset, a stored pointer and the way from an object to a value lead, said by sums of natural numbers and by the
bytes of an image alone.  The chains and accesses that are followed step by step lead to the same addresses.

* `Address.above?` -- an address further up, as long as it is below `2 ^ 64`.
* `bytesNumber`, `Image.stored?` -- the number of some bytes, and the pointer that eight bytes store, unless it is null.
* `Image.along?`, `Access.reach?` -- the address behind a list of offsets, of which all but the last are followed; and
  the one that an access leads to.
* `Address.toOption_plus?`, `Image.toOption_target`, `PointerChain.toOption_follow`, `Access.toOption_locate` -- the
  agreement, from one addition up to a whole access.
-/

namespace TypedColumns

/-- The address some bytes further up, if it is still below `2 ^ 64`. -/
def Address.above? (a : Address) (n : UInt64) : Option Address :=
  let sum := a.word.toNat + n.toNat
  if sum < 2 ^ 64 then some ⟨.ofNat sum⟩ else none

/-- The number of some bytes, each of which counts 256 times as much as the one before. -/
def bytesNumber (bs : List UInt8) : Nat := (bs.zipIdx.map fun p => p.1.toNat * 256 ^ p.2).sum

/-- The pointer that the eight bytes at a slot store, if these can be read and it is not null. -/
def Image.stored? (m : Image) (slot : Address) : Option Address :=
  match m.bytes slot 8 with
  | .error _ => none
  | .ok bs =>
    let p : Address := ⟨.ofNat (bytesNumber bs)⟩
    if p = ⟨0⟩ then none else some p

/-- The address behind a list of offsets: a pointer is stored at each but the last of them and leads to where the next one
counts from. -/
def Image.along? (m : Image) : List UInt64 → Address → Option Address
  | [], _ => none
  | [last], a => a.above? last
  | offset :: offsets, a =>
    match a.above? offset with
    | none => none
    | some slot =>
      match m.stored? slot with
      | none => none
      | some p => m.along? offsets p

/-- The address of a value, given that of its object: the object itself, a leaf in it, or what stands behind it. -/
def Access.reach? (m : Image) : Access → Address → Option Address
  | .whole, base => some base
  | .field _ _ offset, base => base.above? offset
  | .chase chain, base => m.along? chain.offsets base

/-! ### Sums and pointers -/

theorem Address.toOption_plus? (a : Address) (n : UInt64) : (a.plus? n).toOption = a.above? n := by
  have hsize : 2 ^ 64 = UInt64.size := rfl
  rw [above?, plus?, hsize]
  by_cases hfit : a.word.toNat + n.toNat < UInt64.size
  · simp only [hfit, if_true, UInt64.ofNat_add, UInt64.ofNat_toNat, Except.toOption]
  · simp only [hfit, if_false, Except.toOption]

theorem Address.above?_eq_some_iff (a b : Address) (n : UInt64) : a.above? n = some b ↔ a.plus? n = .ok b := by
  rw [← toOption_plus?]
  cases a.plus? n <;> simp [Except.toOption]

theorem bytesNumber_eq_decode (bs : List UInt8) : bytesNumber bs = LittleEndian.decode bs := by
  have hfrom : ∀ i, ((bs.zipIdx i).map fun p => p.1.toNat * 256 ^ p.2).sum = 256 ^ i * LittleEndian.decode bs := by
    induction bs with
    | nil => simp [LittleEndian.decode]
    | cons b bs ih =>
        intro i
        rw [List.zipIdx_cons, List.map_cons, List.sum_cons, ih, LittleEndian.decode, Nat.pow_succ, Nat.mul_add,
          Nat.mul_comm b.toNat, Nat.mul_assoc]
  simpa [bytesNumber] using hfrom 0

theorem Image.stored?_eq_some_iff (m : Image) (slot p : Address) : m.stored? slot = some p ↔ m.target slot = .ok p := by
  rw [target_eq_ok_iff, stored?, pointer]
  cases hbytes : m.bytes slot 8 with
  | error e => simp [pointerSize, hbytes]
  | ok bs =>
      simp only [pointerSize, hbytes, bytesNumber_eq_decode, Except.ok.injEq]
      split
      · rename_i hnull
        rw [hnull]
        constructor
        · intro h
          cases h
        · rintro ⟨rfl, hne⟩
          exact absurd rfl hne
      · rename_i hne
        rw [Option.some.injEq]
        constructor
        · rintro rfl
          exact ⟨rfl, hne⟩
        · exact And.left

theorem Image.toOption_target (m : Image) (slot : Address) : (m.target slot).toOption = m.stored? slot := by
  apply Option.ext
  intro p
  rw [stored?_eq_some_iff]
  cases m.target slot <;> simp [Except.toOption]

/-! ### Chains and accesses -/

theorem Image.along?_cons (m : Image) (offset : UInt64) {offsets : List UInt64} (h : offsets ≠ []) (a : Address) :
    m.along? (offset :: offsets) a = ((a.above? offset).bind m.stored?).bind (m.along? offsets) := by
  cases offsets with
  | nil => exact absurd rfl h
  | cons next offsets =>
      rw [along?]
      cases a.above? offset with
      | none => rfl
      | some slot =>
          simp only [Option.bind_some]
          cases m.stored? slot <;> rfl
      exact h

/-- The induction is on the hops, each of which is one offset of the list and leads to where the rest counts from. -/
theorem PointerChain.toOption_follow (c : PointerChain) (m : Image) (a : Address) :
    (c.follow m a).toOption = m.along? c.offsets a := by
  obtain ⟨hops, last⟩ := c
  induction hops generalizing a with
  | nil => exact a.toOption_plus? last
  | cons offset hops ih =>
      have hoffsets : (⟨offset :: hops, last⟩ : PointerChain).offsets =
          offset :: (⟨hops, last⟩ : PointerChain).offsets := rfl
      rw [hoffsets, Image.along?_cons m offset (by simp [offsets]), ← Address.toOption_plus?, follow, chase]
      cases a.plus? offset with
      | error e => rfl
      | ok slot =>
          show _ = (m.stored? slot).bind _
          rw [← Image.toOption_target]
          cases htarget : m.target slot with
          | error e =>
              simp only [htarget]
              rfl
          | ok p =>
              simp only [htarget]
              exact ih p

theorem Access.toOption_locate (access : Access) (m : Image) (base : Address) :
    (access.locate m base).toOption = access.reach? m base := by
  cases access with
  | whole => rfl
  | field node leaf offset => exact base.toOption_plus? offset
  | chase chain => exact chain.toOption_follow m base

end TypedColumns
