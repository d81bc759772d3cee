/-!
# Little-endian bytes of a number

The encoding that every word stored in a memory image uses: least significant byte first.

* `LittleEndian.encode w n` -- the `w` bytes of `n`, bits above `8 * w` dropped.
* `LittleEndian.decode` -- the number with the given bytes.
-/

namespace TypedColumns.LittleEndian

/-- The `w` bytes of `n`, least significant first; what does not fit is dropped. -/
def encode : Nat → Nat → List UInt8
  | 0, _ => []
  | w + 1, n => UInt8.ofNat (n % 256) :: encode w (n / 256)

/-- The number whose bytes are given, least significant first. -/
def decode : List UInt8 → Nat
  | [] => 0
  | b :: bs => b.toNat + 256 * decode bs

@[simp]
theorem length_encode (w n : Nat) : (encode w n).length = w := by
  induction w generalizing n with
  | zero => rfl
  | succ w ih => simp only [encode, List.length_cons, ih]

end TypedColumns.LittleEndian
