import Mathlib.Algebra.Group.Nat.Defs
import TypedColumns.Binding.Column
import TypedColumns.Memory.Arena

/-!
# Access to an arena

Which bytes of an arena can be read and written, and how a write shows in later reads, for every address and every
number of bytes.

* `Arena.Covers` -- the bytes at an address lie inside the arena; `exists_bytes_iff` and `bytes_eq_error_iff` say that
  exactly these can be read, and why others cannot.
* `Arena.overlay`, `Arena.bytes_write_eq` -- old bytes with written ones put over them; it is what is read after a write,
  byte for byte (`bytes_write_of_apart` where nothing was written).
* `LittleEndian.decode_encode` -- a number is read back from its bytes, up to the range of their width.
* `Cell.width`, `Cell.length_bytes`, `Arena.ReadsBack` -- how wide a cell is, and that it is read back as what it is.
* `Arena.ChecksReads`, `Arena.Overwrites` -- what a read is checked for, and what a write does.
* `Arena.checksReads_and_overwrites` -- **reads are checked against the bounds, writes fail as reads do, and a write
  replaces the bytes at its address and no others.**
-/

namespace TypedColumns

namespace Arena

variable {a b : Arena} {p : Address} {n : Nat} {bs : List UInt8} {e : MemoryError}

/-! ### Bounds -/

/-- The `n` bytes at an address lie inside the arena. -/
structure Covers (a : Arena) (p : Address) (n : Nat) : Prop where
  ne_null : p ≠ Address.null
  base_le : a.base.toNat ≤ p.word.toNat
  le_size : p.word.toNat - a.base.toNat + n ≤ a.size

theorem start?_of_covers (h : a.Covers p n) : a.start? p n = .ok (p.word.toNat - a.base.toNat) := by
  have hbase := h.base_le
  exact (start?_eq_ok_iff a p n _).2 ⟨h.ne_null, by omega, h.le_size⟩

theorem covers_of_start? {i : Nat} (h : a.start? p n = .ok i) :
    a.Covers p n ∧ i = p.word.toNat - a.base.toNat := by
  obtain ⟨hnull, hword, hfit⟩ := (start?_eq_ok_iff a p n i).1 h
  exact ⟨⟨hnull, by omega, by omega⟩, by omega⟩

/-- A run of bytes is refused when it stands at the null address, else when it does not lie inside the arena. -/
theorem start?_eq_error_iff :
    a.start? p n = .error e ↔
      (p = Address.null ∧ e = .null) ∨ (p ≠ Address.null ∧ ¬ a.Covers p n ∧ e = .outOfBounds p n) := by
  by_cases hcovers : a.Covers p n
  · simp [start?_of_covers hcovers, hcovers, hcovers.ne_null]
  · cases hstart : a.start? p n with
    | ok i => exact absurd (covers_of_start? hstart).1 hcovers
    | error e' =>
        rw [start?] at hstart
        by_cases hp : p = Address.null
        · rw [if_pos ((Address.isNull_iff p).2 hp)] at hstart
          cases hstart
          simp [hp, eq_comm]
        · rw [if_neg (fun hnull => hp ((Address.isNull_iff p).1 hnull))] at hstart
          split at hstart
          · cases hstart
          · cases hstart
            simp [hp, hcovers, eq_comm]

theorem bytes_of_covers (h : a.Covers p n) :
    a.bytes p n = .ok ((a.data.drop (p.word.toNat - a.base.toNat)).take n) := by
  rw [bytes, start?_of_covers h]

theorem exists_bytes_iff : (∃ bs, a.bytes p n = .ok bs) ↔ a.Covers p n := by
  constructor
  · rintro ⟨bs, hbs⟩
    rw [bytes] at hbs
    split at hbs
    · rename_i i hi
      exact (covers_of_start? hi).1
    · cases hbs
  · intro h
    exact ⟨_, bytes_of_covers h⟩

theorem bytes_eq_error_iff :
    a.bytes p n = .error e ↔
      (p = Address.null ∧ e = .null) ∨ (p ≠ Address.null ∧ ¬ a.Covers p n ∧ e = .outOfBounds p n) := by
  rw [← start?_eq_error_iff, bytes]
  cases a.start? p n <;> simp

theorem write_eq_error_iff : a.write p bs = .error e ↔ a.bytes p bs.length = .error e := by
  rw [write, bytes]
  cases a.start? p bs.length <;> simp

theorem exists_write_iff : (∃ b, a.write p bs = .ok b) ↔ ∃ old, a.bytes p bs.length = .ok old := by
  rw [write, bytes]
  cases a.start? p bs.length <;> simp

/-! ### Reading after a write -/

/-- Bytes that stood at `q`, with the ones written at `p` put over those that lie there too. -/
def overlay (p : Address) (bs : List UInt8) (q : Address) (old : List UInt8) : List UInt8 :=
  old.mapIdx fun i x =>
    if p.word.toNat ≤ q.word.toNat + i then bs[q.word.toNat + i - p.word.toNat]?.getD x else x

/-- Where none of the written bytes lie, the old ones stay. -/
theorem overlay_of_apart {q : Address} {old : List UInt8}
    (h : q.word.toNat + old.length ≤ p.word.toNat ∨ p.word.toNat + bs.length ≤ q.word.toNat) :
    overlay p bs q old = old := by
  apply List.ext_getElem?
  intro i
  rw [overlay, List.getElem?_mapIdx]
  cases hi : old[i]? with
  | none => rfl
  | some x =>
      have hlt : i < old.length := (List.getElem?_eq_some_iff.1 hi).1
      rw [Option.map_some]
      congr 1
      split
      · rw [List.getElem?_eq_none (by omega), Option.getD_none]
      · rfl

/-- What stands in an arena after a write, byte for byte. -/
theorem getElem?_write (h : a.write p bs = .ok b) (j : Nat) :
    b.data[j]? = a.data[j]?.map fun x =>
      if p.word.toNat ≤ a.base.toNat + j then bs[a.base.toNat + j - p.word.toNat]?.getD x else x := by
  rw [write] at h
  split at h
  · rename_i i hi
    obtain ⟨-, hword, hfit⟩ := (start?_eq_ok_iff a p bs.length i).1 hi
    cases h
    show (a.data.take i ++ bs ++ a.data.drop (i + bs.length))[j]? = _
    rw [size] at hfit
    rw [List.append_assoc, List.getElem?_append, List.getElem?_append, List.length_take, Nat.min_eq_left (by omega)]
    have hat : a.base.toNat + j - p.word.toNat = j - i := by omega
    rw [hat]
    by_cases hbefore : j < i
    · have hnot : ¬ p.word.toNat ≤ a.base.toNat + j := by omega
      simp [hbefore, hnot]
    · have hle : p.word.toNat ≤ a.base.toNat + j := by omega
      by_cases hin : j - i < bs.length
      · have hj : j < a.data.length := by omega
        simp [hbefore, hle, hin, List.getElem?_eq_getElem hj]
      · have hdrop : i + bs.length + (j - i - bs.length) = j := by omega
        simp [hbefore, hle, hin, List.getElem?_drop, hdrop]
  · cases h

theorem covers_write_iff (h : a.write p bs = .ok b) {q : Address} : b.Covers q n ↔ a.Covers q n := by
  have hbase := base_write h
  have hsize := size_write h
  constructor
  · rintro ⟨hnull, hle, hfit⟩
    exact ⟨hnull, hbase ▸ hle, hbase ▸ hsize ▸ hfit⟩
  · rintro ⟨hnull, hle, hfit⟩
    exact ⟨hnull, hbase ▸ hle, by rw [hbase, hsize]; exact hfit⟩

/-- What is read after a write is what was read before it, with the written bytes put over. -/
theorem bytes_write_eq (h : a.write p bs = .ok b) (q : Address) (n : Nat) :
    b.bytes q n = (a.bytes q n).map (overlay p bs q) := by
  by_cases hcovers : a.Covers q n
  · rw [bytes_of_covers hcovers, bytes_of_covers ((covers_write_iff h).2 hcovers), base_write h]
    have hle := hcovers.base_le
    apply congrArg Except.ok
    apply List.ext_getElem?
    intro i
    rw [overlay, List.getElem?_mapIdx, List.getElem?_take, List.getElem?_take]
    split
    · rw [List.getElem?_drop, List.getElem?_drop, getElem?_write h]
      have hat : a.base.toNat + (q.word.toNat - a.base.toNat + i) = q.word.toNat + i := by omega
      rw [hat]
    · rfl
  · cases hread : a.bytes q n with
    | ok old => exact absurd (exists_bytes_iff.1 ⟨old, hread⟩) hcovers
    | error e =>
        rw [bytes_eq_error_iff, ← covers_write_iff h] at hread
        exact bytes_eq_error_iff.2 hread

theorem bytes_write_of_apart (h : a.write p bs = .ok b) {q : Address} {n : Nat}
    (hapart : q.word.toNat + n ≤ p.word.toNat ∨ p.word.toNat + bs.length ≤ q.word.toNat) :
    b.bytes q n = a.bytes q n := by
  rw [bytes_write_eq h]
  cases hread : a.bytes q n with
  | error e => rfl
  | ok old =>
      rw [← length_bytes hread] at hapart
      exact congrArg Except.ok (overlay_of_apart hapart)

/-- The arena to go on with after a write, which may have been refused. -/
def commit (a : Arena) (written : Except MemoryError Arena) : Arena :=
  match written with
  | .ok b => b
  | .error _ => a

end Arena

/-! ### Cells -/

/-- The number of bytes of a cell. -/
def Cell.width : Cell → Nat
  | .pointer _ => pointerSize
  | .u32 _ | .i32 _ | .f32 _ => 4
  | .u64 _ | .f64 _ => 8

theorem Cell.length_bytes (c : Cell) : c.bytes.length = c.width := by
  cases c <;> exact LittleEndian.length_encode _ _

theorem LittleEndian.decode_encode (w n : Nat) : decode (encode w n) = n % 256 ^ w := by
  induction w generalizing n with
  | zero => simp only [encode, decode, Nat.pow_zero, Nat.mod_one]
  | succ w ih =>
      have h : n % 256 % 2 ^ 8 = n % 256 := Nat.mod_eq_of_lt (Nat.mod_lt n (by decide))
      rw [encode, decode, ih, UInt8.toNat_ofNat', h, Nat.pow_succ, Nat.mul_comm (256 ^ w) 256, Nat.mod_mul]

/-- A number below the range of a width is read back from as many bytes. -/
theorem LittleEndian.decode_encode_of_lt {w n : Nat} (h : n < 256 ^ w) : decode (encode w n) = n := by
  rw [decode_encode, Nat.mod_eq_of_lt h]

namespace Arena

/-- A value of a type stands at an address. -/
def Decodes (a : Arena) (p : Address) (type : ColumnType) (value : Value) : Prop :=
  ∃ bytes, a.bytes p type.size = .ok bytes ∧ type.decode bytes = value

/-- A cell stands at an address: the pointer when it is one, else the value in the type of the same width and form. -/
def ReadsBack (a : Arena) (p : Address) : Cell → Prop
  | .pointer target => a.image.pointer p = .ok target
  | .u32 value => a.Decodes p .u32 (.int value.toNat)
  | .i32 value => a.Decodes p .i32 (.int value.toInt)
  | .u64 value => a.Decodes p .u64 (.int value.toNat)
  | .f32 bits => a.Decodes p .f32 (.f32 bits)
  | .f64 bits => a.Decodes p .f64 (.f64 bits)

/-- Where the bytes of a cell stand, the cell is read back. -/
theorem readsBack_of_bytes {a : Arena} {p : Address} {c : Cell} (h : a.bytes p c.width = .ok c.bytes) :
    a.ReadsBack p c := by
  cases c with
  | pointer target =>
      have hword : target.word.toNat < 256 ^ pointerSize := target.word.toNat_lt
      have hread : a.image.bytes p pointerSize = .ok (LittleEndian.encode pointerSize target.word.toNat) := h
      show a.image.pointer p = .ok target
      rw [Image.pointer, hread]
      simp only [LittleEndian.decode_encode_of_lt hword, UInt64.ofNat_toNat]
  | u32 value =>
      refine ⟨_, h, ?_⟩
      have hword : value.toNat < 256 ^ 4 := value.toNat_lt
      rw [ColumnType.decode, Cell.bytes, LittleEndian.decode_encode_of_lt hword]
  | i32 value =>
      refine ⟨_, h, ?_⟩
      have hword : value.toUInt32.toNat < 256 ^ 4 := value.toUInt32.toNat_lt
      rw [ColumnType.decode, Cell.bytes, LittleEndian.decode_encode_of_lt hword]
      show Value.int (BitVec.ofNat 32 value.toBitVec.toNat).toInt = Value.int value.toBitVec.toInt
      rw [BitVec.ofNat_toNat, BitVec.setWidth_eq]
  | u64 value =>
      refine ⟨_, h, ?_⟩
      have hword : value.toNat < 256 ^ 8 := value.toNat_lt
      rw [ColumnType.decode, Cell.bytes, LittleEndian.decode_encode_of_lt hword]
  | f32 bits =>
      refine ⟨_, h, ?_⟩
      have hword : bits.toNat < 256 ^ 4 := bits.toNat_lt
      rw [ColumnType.decode, Cell.bytes, LittleEndian.decode_encode_of_lt hword, UInt32.ofNat_toNat]
  | f64 bits =>
      refine ⟨_, h, ?_⟩
      have hword : bits.toNat < 256 ^ 8 := bits.toNat_lt
      rw [ColumnType.decode, Cell.bytes, LittleEndian.decode_encode_of_lt hword, UInt64.ofNat_toNat]

/-! ### The access as a whole -/

/-- Reads are checked for the null address and the bounds, and for nothing else.  A length whose sum with the address
leaves the range of a word is out of bounds. -/
structure ChecksReads (a : Arena) : Prop where
  ok_iff : ∀ p n, (∃ bs, a.bytes p n = .ok bs) ↔ a.Covers p n
  null_iff : ∀ p n, a.bytes p n = .error .null ↔ p = Address.null
  error_iff : ∀ p n e, a.bytes p n = .error e ↔
    (p = Address.null ∧ e = .null) ∨ (p ≠ Address.null ∧ ¬ a.Covers p n ∧ e = .outOfBounds p n)
  overflow : a.size < 2 ^ 64 → ∀ p n, p ≠ Address.null → 2 ^ 64 ≤ p.word.toNat - a.base.toNat + n →
    a.bytes p n = .error (.outOfBounds p n)

/-- What a write of some bytes at an address does: it fails as a read of as many bytes would, and then leaves the arena
as it was; else the bytes stand at the address, and everything that is read is what was read before, byte for byte, but
for them. -/
structure Overwrites (a : Arena) (p : Address) (bs : List UInt8) (written : Except MemoryError Arena) : Prop where
  ok_iff : (∃ b, written = .ok b) ↔ ∃ old, a.bytes p bs.length = .ok old
  error_iff : ∀ e, written = .error e ↔ a.bytes p bs.length = .error e
  refused : ∀ e, written = .error e → a.commit written = a
  frame : ∀ b, written = .ok b → b.base = a.base ∧ b.size = a.size
  same : ∀ b, written = .ok b → b.bytes p bs.length = .ok bs
  others : ∀ b, written = .ok b → ∀ q n,
    q.word.toNat + n ≤ p.word.toNat ∨ p.word.toNat + bs.length ≤ q.word.toNat → b.bytes q n = a.bytes q n
  pointwise : ∀ b, written = .ok b → ∀ q n, b.bytes q n = (a.bytes q n).map (overlay p bs q)

theorem checksReads (a : Arena) : a.ChecksReads := by
  refine ⟨fun _ _ => exists_bytes_iff, ?_, fun _ _ _ => bytes_eq_error_iff, ?_⟩
  · intro p n
    simp [bytes_eq_error_iff]
  · intro hsize p n hnull hsum
    refine bytes_eq_error_iff.2 (Or.inr ⟨hnull, ?_, rfl⟩)
    intro hcovers
    have hfit := hcovers.le_size
    omega

theorem overwrites_write (a : Arena) (p : Address) (bs : List UInt8) : a.Overwrites p bs (a.write p bs) := by
  refine ⟨exists_write_iff, fun _ => write_eq_error_iff, ?_, ?_, fun _ => bytes_write, ?_, ?_⟩
  · intro e he
    rw [he, commit]
  · intro b hb
    exact ⟨base_write hb, size_write hb⟩
  · intro b hb q n hapart
    exact bytes_write_of_apart hb hapart
  · intro b hb q n
    exact bytes_write_eq hb q n

/-- **Reads are checked against the bounds, writes fail as reads do, and a write replaces the bytes at its address and no
others.**  A cell is written as the bytes of its width, and is read back as it was written. -/
theorem checksReads_and_overwrites (a : Arena) :
    a.ChecksReads ∧ (∀ p bs, a.Overwrites p bs (a.write p bs)) ∧
      ∀ p c, c.bytes.length = c.width ∧ a.Overwrites p c.bytes (a.store p c) ∧
        ∀ b, a.store p c = .ok b → b.ReadsBack p c := by
  refine ⟨a.checksReads, a.overwrites_write, ?_⟩
  intro p c
  refine ⟨c.length_bytes, a.overwrites_write p c.bytes, ?_⟩
  intro b hb
  have hbytes := bytes_write hb
  rw [c.length_bytes] at hbytes
  exact readsBack_of_bytes hbytes

end Arena

end TypedColumns
