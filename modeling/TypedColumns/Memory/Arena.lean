import TypedColumns.Memory.Image

/-!
# Arenas

An arena is a memory image made of one growing run of bytes that starts at a fixed base address.  Blocks are added at
its end, with as much padding as their alignment asks for; nothing is ever taken away.

* `Arena.withBase` -- an empty arena; a base of zero or above `maxArenaBase` is replaced by `defaultArenaBase`.
* `Arena.allocate` -- a new zeroed block at the end.
* `Arena.start?` -- the one bounds check: a run of bytes is addressable when it lies inside the arena
  (`Arena.start?_eq_ok_iff`).
* `Arena.bytes`, `Arena.write`, `Arena.store` -- reading bytes, as many as were asked for (`Arena.length_bytes`), writing
  bytes, writing one `Cell`.  A write moves nothing (`Arena.base_write`, `Arena.size_write`), and what was written is read
  back (`Arena.bytes_write`).
-/

namespace TypedColumns

/-- Where an arena starts when nothing else is asked for. -/
def defaultArenaBase : UInt64 := 0x1000

/-- The highest base an arena can have, which leaves room for every block that fits in memory. -/
def maxArenaBase : UInt64 := 0x1000000000000

/-- A run of bytes starting at a base that is neither null nor too high. -/
structure Arena where
  base : UInt64
  data : List UInt8
  base_ne_zero : base ≠ 0
  base_le : base ≤ maxArenaBase
deriving DecidableEq, Repr

namespace Arena

/-- The empty arena at `base`; a base that is null or too high is replaced by the default one. -/
def withBase (base : UInt64) : Arena :=
  if h : base ≠ 0 ∧ base ≤ maxArenaBase then ⟨base, [], h.1, h.2⟩
  else ⟨defaultArenaBase, [], by decide, by decide⟩

/-- The empty arena at the default base. -/
def empty : Arena := withBase defaultArenaBase

/-- The number of bytes of an arena. -/
def size (a : Arena) : Nat := a.data.length

/-- The least multiple of a power of two that is not below `current`, by clearing the low bits. -/
def alignUp (current align : UInt64) : UInt64 := (current + (align - 1)) &&& ~~~(align - 1)

/-- Adds a block of `size` zero bytes whose address is a multiple of `align` (zero counts as one), after as many
zero bytes of padding as that takes.  Answers the block's address and the larger arena. -/
def allocate (a : Arena) (size : Nat) (align : UInt64) : Address × Arena :=
  let align := if align = 0 then 1 else align
  let current := a.base + UInt64.ofNat a.size
  let aligned := alignUp current align
  let padding := (aligned - current).toNat
  (⟨aligned⟩, { a with data := a.data ++ List.replicate (padding + size) 0 })

theorem le_size_allocate (a : Arena) (size : Nat) (align : UInt64) :
    a.size + size ≤ (a.allocate size align).2.size := by
  unfold allocate Arena.size
  simp only [List.length_append, List.length_replicate]
  omega

/-- How far behind the base the `length` bytes at `start` begin, when they all lie inside the arena. -/
def start? (a : Arena) (start : Address) (length : Nat) : Except MemoryError Nat :=
  if start.isNull then .error .null
  else if a.base ≤ start.word ∧ (start.word - a.base).toNat + length ≤ a.size then
    .ok (start.word - a.base).toNat
  else .error (.outOfBounds start length)

theorem start?_eq_ok_iff (a : Arena) (p : Address) (n i : Nat) :
    a.start? p n = .ok i ↔ p ≠ Address.null ∧ p.word.toNat = a.base.toNat + i ∧ i + n ≤ a.size := by
  unfold start?
  by_cases hp : p = Address.null
  · rw [if_pos ((Address.isNull_iff p).2 hp)]
    constructor
    · intro e
      cases e
    · intro e
      exact absurd hp e.1
  · have hnull : p.isNull = false := by
      rw [Bool.eq_false_iff]
      intro h
      exact hp ((Address.isNull_iff p).1 h)
    rw [hnull]
    simp only [Bool.false_eq_true, if_false]
    by_cases hbase : a.base ≤ p.word
    · have hsub : (p.word - a.base).toNat = p.word.toNat - a.base.toNat := UInt64.toNat_sub_of_le _ _ hbase
      have hle : a.base.toNat ≤ p.word.toNat := UInt64.le_iff_toNat_le.1 hbase
      split
      · rename_i h
        rw [Except.ok.injEq]
        rw [hsub] at h ⊢
        constructor
        · intro e
          exact ⟨hp, by omega, by omega⟩
        · intro e
          omega
      · rename_i h
        rw [hsub] at h
        constructor
        · intro e
          cases e
        · intro e
          exact absurd ⟨hbase, by omega⟩ h
    · have hlt : p.word.toNat < a.base.toNat := by
        rw [UInt64.le_iff_toNat_le] at hbase
        omega
      rw [if_neg (fun h => hbase h.1)]
      constructor
      · intro e
        cases e
      · intro e
        omega

/-- The `length` bytes at `start`. -/
def bytes (a : Arena) (start : Address) (length : Nat) : Except MemoryError (List UInt8) :=
  match a.start? start length with
  | .ok i => .ok ((a.data.drop i).take length)
  | .error e => .error e

theorem length_bytes {a : Arena} {p : Address} {n : Nat} {bs : List UInt8} (h : a.bytes p n = .ok bs) :
    bs.length = n := by
  rw [bytes] at h
  split at h
  · rename_i i hi
    have hfit := ((start?_eq_ok_iff a p n i).1 hi).2.2
    cases h
    rw [List.length_take, List.length_drop]
    rw [size] at hfit
    omega
  · cases h

/-- Replaces the bytes at `start`. -/
def write (a : Arena) (start : Address) (bs : List UInt8) : Except MemoryError Arena :=
  match a.start? start bs.length with
  | .ok i => .ok { a with data := a.data.take i ++ bs ++ a.data.drop (i + bs.length) }
  | .error e => .error e

theorem base_write {a b : Arena} {p : Address} {bs : List UInt8} (h : a.write p bs = .ok b) : b.base = a.base := by
  unfold write at h
  split at h
  · cases h
    rfl
  · cases h

theorem size_write {a b : Arena} {p : Address} {bs : List UInt8} (h : a.write p bs = .ok b) : b.size = a.size := by
  unfold write at h
  split at h
  · rename_i i hi
    have hfit := ((start?_eq_ok_iff a p bs.length i).1 hi).2.2
    cases h
    show (a.data.take i ++ bs ++ a.data.drop (i + bs.length)).length = a.data.length
    rw [List.length_append, List.length_append, List.length_take, List.length_drop]
    unfold size at hfit
    omega
  · cases h

theorem bytes_write {a b : Arena} {p : Address} {bs : List UInt8} (h : a.write p bs = .ok b) :
    b.bytes p bs.length = .ok bs := by
  have hbase := base_write h
  have hsize := size_write h
  unfold write at h
  split at h
  · rename_i i hi
    have hin := (start?_eq_ok_iff a p bs.length i).1 hi
    have hstart : b.start? p bs.length = .ok i := by
      rw [start?_eq_ok_iff, hbase, hsize]
      exact hin
    unfold bytes
    rw [hstart]
    cases h
    have htake : (a.data.take i).length = i := by
      rw [List.length_take]
      have hfit := hin.2.2
      unfold size at hfit
      omega
    show Except.ok (((a.data.take i ++ bs ++ a.data.drop (i + bs.length)).drop i).take bs.length) = Except.ok bs
    rw [List.append_assoc, List.drop_left' htake, List.take_left]
  · cases h

/-- The image that an arena shows. -/
def image (a : Arena) : Image := ⟨a.bytes⟩

end Arena

/-- A value of fixed width as it is put into memory.  Floating-point values are given by their bits. -/
inductive Cell where
  | pointer (target : Address)
  | u32 (value : UInt32)
  | i32 (value : Int32)
  | u64 (value : UInt64)
  | f32 (bits : UInt32)
  | f64 (bits : UInt64)
deriving DecidableEq, Repr

/-- The bytes of a cell, least significant first. -/
def Cell.bytes : Cell → List UInt8
  | .pointer p => LittleEndian.encode pointerSize p.word.toNat
  | .u32 v => LittleEndian.encode 4 v.toNat
  | .i32 v => LittleEndian.encode 4 v.toUInt32.toNat
  | .u64 v => LittleEndian.encode 8 v.toNat
  | .f32 v => LittleEndian.encode 4 v.toNat
  | .f64 v => LittleEndian.encode 8 v.toNat

/-- Writes one cell at `start`. -/
def Arena.store (a : Arena) (start : Address) (c : Cell) : Except MemoryError Arena :=
  a.write start c.bytes

end TypedColumns
