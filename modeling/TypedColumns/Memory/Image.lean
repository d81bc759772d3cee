import TypedColumns.Memory.Address
import TypedColumns.Memory.LittleEndian

/-!
# Memory images

A memory image answers one question: which bytes stand at an address.  Everything else that reads memory is
defined from that answer, so that it makes sense for any image.

* `Image` -- the answer to "which `n` bytes stand here".
* `Image.pointer` -- the address stored at an address, possibly null.
* `Image.target` -- the same, with a null pointer refused.
-/

namespace TypedColumns

/-- A memory image: the bytes at an address, or why they cannot be read. -/
structure Image where
  bytes : Address → Nat → Except MemoryError (List UInt8)

/-- The number of bytes of a stored pointer. -/
def pointerSize : Nat := 8

namespace Image

/-- The address stored at `a`, which may be null. -/
def pointer (m : Image) (a : Address) : Except MemoryError Address :=
  match m.bytes a pointerSize with
  | .ok bs => .ok ⟨UInt64.ofNat (LittleEndian.decode bs)⟩
  | .error e => .error e

/-- The address stored at `a`, when it is not null. -/
def target (m : Image) (a : Address) : Except MemoryError Address :=
  match m.pointer a with
  | .ok p => if p.isNull then .error .null else .ok p
  | .error e => .error e

theorem target_eq_ok_iff (m : Image) (a p : Address) :
    m.target a = .ok p ↔ m.pointer a = .ok p ∧ p ≠ Address.null := by
  unfold target
  cases h : m.pointer a with
  | error e => simp
  | ok q =>
      by_cases hq : q = Address.null
      · simp [hq, Address.isNull, Address.null]
        intro hp
        exact hp.symm
      · have hn : q.isNull = false := by
          cases hb : q.isNull with
          | false => rfl
          | true => exact absurd ((Address.isNull_iff q).1 hb) hq
        simp only [hn, Bool.false_eq_true, if_false, Except.ok.injEq]
        constructor
        · intro e
          exact ⟨e, e ▸ hq⟩
        · intro e
          exact e.1

end Image

end TypedColumns
