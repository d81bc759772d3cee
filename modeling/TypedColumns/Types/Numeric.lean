/-!
# Numeric kinds

The kinds of number that a column can store.  Two of them are stored shorter than they are read: `float16` is kept in
memory as a single-precision and `double32` as a double-precision float.

* `Numeric.width` -- the number of bytes in memory.
* `Numeric.isInteger`, `Numeric.isFloat` -- the two families; truth values belong to neither.
* `Numeric.canonical` -- the kind in memory of a kind that is stored shorter, with `canonical_canonical` and
  `width_canonical`.
-/

namespace TypedColumns

/-- A kind of number. -/
inductive Numeric where
  | bool | i8 | u8 | i16 | u16 | i32 | u32 | i64 | u64 | f32 | f64 | float16 | double32
deriving DecidableEq, Repr

namespace Numeric

/-- The number of bytes of a value in memory. -/
def width : Numeric → Nat
  | .bool | .i8 | .u8 => 1
  | .i16 | .u16 => 2
  | .i32 | .u32 | .f32 | .float16 => 4
  | .i64 | .u64 | .f64 | .double32 => 8

/-- Whether a kind holds whole numbers. -/
def isInteger : Numeric → Bool
  | .i8 | .u8 | .i16 | .u16 | .i32 | .u32 | .i64 | .u64 => true
  | _ => false

/-- Whether a kind holds floating-point numbers. -/
def isFloat : Numeric → Bool
  | .f32 | .f64 | .float16 | .double32 => true
  | _ => false

/-- The kind that a value has in memory. -/
def canonical : Numeric → Numeric
  | .float16 => .f32
  | .double32 => .f64
  | k => k

@[simp]
theorem canonical_canonical (k : Numeric) : k.canonical.canonical = k.canonical := by
  cases k <;> rfl

@[simp]
theorem width_canonical (k : Numeric) : k.canonical.width = k.width := by
  cases k <;> rfl

end Numeric

end TypedColumns
