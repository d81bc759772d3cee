import TypedColumns.Binding.Basic

/-!
# Typed columns

A typed column is a binding that asks for a fixed kind of value and decodes it.

* `Value` -- a decoded value; floating-point numbers are given by their bits.
* `ColumnType`, `ColumnType.name`, `ColumnType.size`, `ColumnType.decode` -- what can be asked for, the type requested
  for it, and how the bytes are read.
* `Binding.get` -- the value of the column on the current row.
-/

namespace TypedColumns

/-- A decoded value. -/
inductive Value where
  | bool (value : Bool)
  | int (value : Int)
  | f32 (bits : UInt32)
  | f64 (bits : UInt64)
deriving DecidableEq, Repr

/-- A kind of value that a column can be asked for. -/
inductive ColumnType where
  | bool | i8 | u8 | i16 | u16 | i32 | u32 | i64 | u64 | f32 | f64
deriving DecidableEq, Repr

namespace ColumnType

/-- The kinds of value that a column can be asked for. -/
def all : List ColumnType := [.bool, .i8, .u8, .i16, .u16, .i32, .u32, .i64, .u64, .f32, .f64]

/-- The numeric kind with the same values. -/
def kind : ColumnType → Numeric
  | .bool => .bool
  | .i8 => .i8
  | .u8 => .u8
  | .i16 => .i16
  | .u16 => .u16
  | .i32 => .i32
  | .u32 => .u32
  | .i64 => .i64
  | .u64 => .u64
  | .f32 => .f32
  | .f64 => .f64

/-- The name under which the type is requested. -/
def name : ColumnType → String
  | .bool => "bool"
  | .i8 => "i8"
  | .u8 => "u8"
  | .i16 => "i16"
  | .u16 => "u16"
  | .i32 => "i32"
  | .u32 => "u32"
  | .i64 => "i64"
  | .u64 => "u64"
  | .f32 => "f32"
  | .f64 => "f64"

/-- The number of bytes of a value. -/
def size (t : ColumnType) : Nat := t.kind.width

/-- The value that the given bytes stand for, least significant byte first. -/
def decode (t : ColumnType) (bytes : List UInt8) : Value :=
  let n := LittleEndian.decode bytes
  match t with
  | .bool => .bool (bytes.head? != some 0)
  | .f32 => .f32 (UInt32.ofNat n)
  | .f64 => .f64 (UInt64.ofNat n)
  | .i8 | .i16 | .i32 | .i64 => .int (BitVec.ofNat (8 * t.size) n).toInt
  | .u8 | .u16 | .u32 | .u64 => .int n

end ColumnType

namespace Binding

/-- The value of a located column. -/
def decode (type : ColumnType) (t : Turn σ (Option Address)) (c : RowCursor σ) : Turn σ (Option Value) :=
  match t.value, t.binding.match? with
  | some a, some m =>
    match readMemory ((c.image t.state).bytes a type.size) with
    | .ok bytes => ⟨some (type.decode bytes), t.binding, t.state, t.events⟩
    | .error e =>
      ⟨none, t.binding.failRead m e, t.state, t.events ++ [.readFailed t.binding.path e]⟩
  | _, _ => ⟨none, t.binding, t.state, t.events⟩

/-- The value of the column on the current row, decoded as the given type.  Before any row has been loaded there is no
value, and the client is told so unless it asked not to be. -/
def get (b : Binding) (type : ColumnType) (c : RowCursor σ) (s : σ) : Turn σ (Option Value) :=
  if c.status s = .notLoaded then
    ⟨none, b, s, if c.isSuppressed s b.path then [] else [.notInitialized b.path]⟩
  else decode type (b.address c s) c

end Binding

end TypedColumns
