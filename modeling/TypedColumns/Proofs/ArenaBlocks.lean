import TypedColumns.Proofs.ArenaAccess

/-!
# Blocks of an arena

Blocks are added to an arena by allocation and filled by writes, in any order and any number.  Addresses are words, and
alignment clears bits of a word; while the arena is not too long, all of this is plain arithmetic of numbers.

* `toNat_and_not_mask`, `Arena.toNat_alignUp` -- clearing the low bits of a word rounds it down to a multiple of a power
  of two, and alignment rounds up.
* `Arena.IsAlignment`, `Arena.allocate_cases` -- an alignment that can be asked for, and what an allocation does then.
* `Arena.bytes_of_grown` -- what could be read can still be read in an arena that has grown.
* `ArenaCall`, `Arena.after`, `Arena.blocks` -- the calls that change an arena, the arena after them, and the blocks that
  they have allocated.
* `Arena.Laid` -- blocks lie inside the arena and one behind the other; every call keeps that (`laid_apply`,
  `laid_after`).
* `Arena.SoundAllocation`, `Arena.SoundWrite` -- what is asked of an allocation and of a write.
* `Arena.sound_after` -- **in every run of calls that leaves the arena below `2 ^ 62` bytes, every allocation and every
  write is sound.**
-/

namespace TypedColumns

/-! ### Rounding -/

/-- Clearing the low bits of a word rounds it down to a multiple of a power of two. -/
theorem toNat_and_not_mask {word mask : UInt64} {k : Nat} (hmask : mask.toNat = 2 ^ k - 1) :
    (word &&& ~~~mask).toNat = word.toNat / 2 ^ k * 2 ^ k := by
  apply Nat.eq_of_testBit_eq
  intro i
  have hclear : mask.toBitVec.getLsbD i = decide (i < k) := by
    rw [← BitVec.testBit_toNat, UInt64.toNat_toBitVec, hmask, Nat.testBit_two_pow_sub_one]
  show (word.toBitVec &&& ~~~mask.toBitVec).toNat.testBit i = _
  rw [BitVec.testBit_toNat, BitVec.getLsbD_and, BitVec.getLsbD_not, hclear, Nat.testBit_mul_two_pow,
    Nat.testBit_div_two_pow]
  by_cases hi : i < k
  · simp [hi, Nat.not_le.2 hi]
  · have hback : i - k + k = i := by omega
    rw [hback, ← UInt64.toNat_toBitVec, BitVec.testBit_toNat]
    by_cases hword : i < 64
    · simp [hi, hword, Nat.not_lt.1 hi]
    · rw [BitVec.getLsbD_of_ge _ _ (Nat.not_lt.1 hword)]
      simp

namespace Arena

/-- Alignment rounds an address up to a multiple of a power of two. -/
theorem toNat_alignUp {current align : UInt64} {k : Nat} (halign : align.toNat = 2 ^ k)
    (hsum : current.toNat + 2 ^ k ≤ 2 ^ 64) :
    (alignUp current align).toNat = (current.toNat + (2 ^ k - 1)) / 2 ^ k * 2 ^ k := by
  have hpos : 0 < 2 ^ k := Nat.two_pow_pos k
  have hmask : (align - 1).toNat = 2 ^ k - 1 := by
    rw [UInt64.toNat_sub_of_le, halign]
    · rfl
    · rw [UInt64.le_iff_toNat_le, halign]
      exact hpos
  have hword : (current + (align - 1)).toNat = current.toNat + (2 ^ k - 1) := by
    rw [UInt64.toNat_add, hmask, Nat.mod_eq_of_lt (by omega)]
  rw [alignUp, toNat_and_not_mask hmask, hword]

theorem alignUp_bounds {current align : UInt64} {k : Nat} (halign : align.toNat = 2 ^ k)
    (hsum : current.toNat + 2 ^ k ≤ 2 ^ 64) :
    current.toNat ≤ (alignUp current align).toNat ∧ (alignUp current align).toNat < current.toNat + 2 ^ k ∧
      2 ^ k ∣ (alignUp current align).toNat := by
  have hpos : 0 < 2 ^ k := Nat.two_pow_pos k
  rw [toNat_alignUp halign hsum]
  have hdiv := Nat.div_add_mod (current.toNat + (2 ^ k - 1)) (2 ^ k)
  have hmod := Nat.mod_lt (current.toNat + (2 ^ k - 1)) hpos
  rw [Nat.mul_comm] at hdiv
  exact ⟨by omega, by omega, Nat.dvd_mul_left _ _⟩

/-- An alignment that can be asked for: none, or a power of two that leaves room for the rounding. -/
def IsAlignment (align : UInt64) : Prop := align = 0 ∨ ∃ k ≤ 62, align.toNat = 2 ^ k

/-- The alignment that is used when this one is asked for. -/
def alignment (align : UInt64) : UInt64 := if align = 0 then 1 else align

theorem IsAlignment.exists_alignment {align : UInt64} (h : IsAlignment align) :
    ∃ k ≤ 62, (alignment align).toNat = 2 ^ k := by
  rcases h with rfl | ⟨k, hk, hpow⟩
  · exact ⟨0, by decide, rfl⟩
  · refine ⟨k, hk, ?_⟩
    have hne : align ≠ 0 := by
      rintro rfl
      exact absurd hpow (Nat.ne_of_lt (Nat.two_pow_pos k))
    rw [alignment, if_neg hne, hpow]

/-! ### One allocation -/

variable {a b : Arena} {p : Address} {n : Nat}

/-- An allocation as arithmetic of numbers: no sum of words leaves their range, the block stands behind the arena and
some padding, at a multiple of the alignment, and the arena grows by the padding and the block, all of it zero. -/
theorem allocate_cases (a : Arena) {align : UInt64} (halign : IsAlignment align) (hroom : a.size < 2 ^ 62)
    (size : Nat) :
    0 < (alignment align).toNat ∧ a.base.toNat + a.size + (alignment align).toNat < 2 ^ 64 ∧
      ∃ padding, (a.allocate size align).1.word.toNat = a.base.toNat + a.size + padding ∧
        (align ≠ 0 → align.toNat ∣ (a.allocate size align).1.word.toNat) ∧
        (a.allocate size align).2.base = a.base ∧
        (a.allocate size align).2.data = a.data ++ List.replicate (padding + size) 0 := by
  obtain ⟨k, hk, hpow⟩ := halign.exists_alignment
  have hpowle : 2 ^ k ≤ 2 ^ 62 := Nat.pow_le_pow_right (by decide) hk
  have hbase : a.base.toNat ≤ 2 ^ 48 := UInt64.le_iff_toNat_le.1 a.base_le
  have hcurrent : (a.base + UInt64.ofNat a.size).toNat = a.base.toNat + a.size := by
    rw [UInt64.toNat_add, UInt64.toNat_ofNat_of_lt' (by simp only [UInt64.size]; omega), Nat.mod_eq_of_lt (by omega)]
  have hsum : (a.base + UInt64.ofNat a.size).toNat + 2 ^ k ≤ 2 ^ 64 := by omega
  obtain ⟨hle, hlt, hdvd⟩ := alignUp_bounds hpow hsum
  have hpadding : (alignUp (a.base + UInt64.ofNat a.size) (alignment align) - (a.base + UInt64.ofNat a.size)).toNat =
      (alignUp (a.base + UInt64.ofNat a.size) (alignment align)).toNat - (a.base.toNat + a.size) := by
    rw [UInt64.toNat_sub_of_le _ _ (UInt64.le_iff_toNat_le.2 hle), hcurrent]
  have hdata : (a.allocate size align).2.data = a.data ++ List.replicate
      ((alignUp (a.base + UInt64.ofNat a.size) (alignment align)).toNat - (a.base.toNat + a.size) + size) 0 := by
    rw [← hpadding]
    rfl
  have hpos : 0 < 2 ^ k := Nat.two_pow_pos k
  refine ⟨by omega, by omega, _, ?_, ?_, rfl, hdata⟩
  · show (alignUp (a.base + UInt64.ofNat a.size) (alignment align)).toNat = _
    omega
  · intro hne
    rw [alignment, if_neg hne] at hpow
    rw [hpow]
    exact hdvd

/-- What could be read can still be read in an arena that has grown at its end. -/
theorem bytes_of_grown {bs : List UInt8} (hbase : b.base = a.base) (hgrown : a.data <+: b.data)
    (h : a.bytes p n = .ok bs) : b.bytes p n = .ok bs := by
  have hcovers := exists_bytes_iff.1 ⟨bs, h⟩
  have hfit := hcovers.le_size
  have hlonger : a.size ≤ b.size := hgrown.length_le
  have hstill : b.Covers p n := ⟨hcovers.ne_null, hbase ▸ hcovers.base_le, by rw [hbase]; omega⟩
  obtain ⟨more, hmore⟩ := hgrown
  rw [← h, bytes_of_covers hcovers, bytes_of_covers hstill, hbase]
  rw [size] at hfit
  rw [← hmore, List.drop_append_of_le_length (by omega), List.take_append_of_le_length]
  rw [List.length_drop]
  omega

theorem size_of_zeros {zeros : Nat} (hdata : b.data = a.data ++ List.replicate zeros 0) : b.size = a.size + zeros := by
  rw [size, hdata, List.length_append, List.length_replicate]
  rfl

/-- The bytes behind the padding of an arena that has grown by zeros are zero. -/
theorem bytes_of_zeros {padding size : Nat} (hdata : b.data = a.data ++ List.replicate (padding + size) 0)
    (hword : p.word.toNat = b.base.toNat + a.size + padding) : b.bytes p size = .ok (List.replicate size 0) := by
  have hsize := size_of_zeros hdata
  have hcovers : b.Covers p size := by
    refine ⟨?_, by omega, by omega⟩
    rintro rfl
    have hpos : b.base.toNat ≠ 0 := fun hzero => b.base_ne_zero (UInt64.toNat_inj.1 hzero)
    have hnull : Address.null.word.toNat = 0 := rfl
    omega
  have hat : p.word.toNat - b.base.toNat = a.data.length + padding := by
    rw [hword]
    show _ = a.size + padding
    omega
  have hzeros : padding + size - (a.data.length + padding - a.data.length) = size := by omega
  rw [bytes_of_covers hcovers, hat, hdata, List.drop_append, List.drop_eq_nil_of_le (by omega), List.nil_append,
    List.drop_replicate, hzeros, List.take_replicate, Nat.min_self]

end Arena

/-! ### Runs of calls -/

/-- A run of bytes that was allocated. -/
structure Block where
  start : Address
  size : Nat
deriving DecidableEq, Repr

/-- The number of the first address behind a block. -/
def Block.stop (x : Block) : Nat := x.start.word.toNat + x.size

/-- A call that changes an arena. -/
inductive ArenaCall where
  | allocate (size : Nat) (align : UInt64)
  | write (start : Address) (bytes : List UInt8)
  | store (start : Address) (cell : Cell)
deriving DecidableEq, Repr

/-- What is asked for has an alignment that can be asked for. -/
def ArenaCall.IsAligned : ArenaCall → Prop
  | .allocate _ align => Arena.IsAlignment align
  | _ => True

namespace Arena

variable {a b : Arena} {xs : List Block}

/-- The arena after a call. -/
def apply (a : Arena) : ArenaCall → Arena
  | .allocate size align => (a.allocate size align).2
  | .write p bs => a.commit (a.write p bs)
  | .store p c => a.commit (a.store p c)

/-- The block that a call allocates. -/
def block? (a : Arena) : ArenaCall → Option Block
  | .allocate size align => some ⟨(a.allocate size align).1, size⟩
  | _ => none

/-- The arena after some calls. -/
def after (a : Arena) (calls : List ArenaCall) : Arena := calls.foldl apply a

/-- The blocks that some calls allocate, in order. -/
def blocks (a : Arena) : List ArenaCall → List Block
  | [] => []
  | call :: calls => (a.block? call).toList ++ (a.apply call).blocks calls

theorem after_append (a : Arena) (calls more : List ArenaCall) : a.after (calls ++ more) = (a.after calls).after more :=
  List.foldl_append

theorem commit_write (a : Arena) (p : Address) (bs : List UInt8) :
    (a.commit (a.write p bs)).base = a.base ∧ (a.commit (a.write p bs)).size = a.size := by
  cases hwrite : a.write p bs with
  | ok b => exact ⟨base_write hwrite, size_write hwrite⟩
  | error e => exact ⟨rfl, rfl⟩

theorem size_le_apply (a : Arena) (call : ArenaCall) : a.size ≤ (a.apply call).size := by
  cases call with
  | allocate size align => exact Nat.le_trans (Nat.le_add_right _ _) (le_size_allocate a size align)
  | write p bs => exact Nat.le_of_eq (commit_write a p bs).2.symm
  | store p c => exact Nat.le_of_eq (commit_write a p c.bytes).2.symm

theorem size_le_after (a : Arena) (calls : List ArenaCall) : a.size ≤ (a.after calls).size := by
  induction calls generalizing a with
  | nil => exact Nat.le_refl _
  | cons call calls ih => exact Nat.le_trans (size_le_apply a call) (ih (a.apply call))

/-! ### Blocks one behind the other -/

/-- Blocks lie inside an arena, each behind the ones before it. -/
structure Laid (a : Arena) (xs : List Block) : Prop where
  inside : ∀ x ∈ xs, a.base.toNat ≤ x.start.word.toNat ∧ x.stop ≤ a.base.toNat + a.size
  apart : xs.Pairwise (fun x y => x.stop ≤ y.start.word.toNat)

theorem laid_nil (a : Arena) : a.Laid [] := ⟨by simp, List.Pairwise.nil⟩

/-- Blocks stay where they are in an arena that starts at the same address and is no shorter. -/
theorem Laid.mono (h : a.Laid xs) (hbase : b.base = a.base) (hsize : a.size ≤ b.size) : b.Laid xs := by
  refine ⟨?_, h.apart⟩
  intro x hx
  obtain ⟨hstart, hstop⟩ := h.inside x hx
  rw [hbase]
  exact ⟨hstart, by omega⟩

theorem Laid.commit_write (h : a.Laid xs) (p : Address) (bs : List UInt8) : (a.commit (a.write p bs)).Laid xs := by
  obtain ⟨hbase, hsize⟩ := Arena.commit_write a p bs
  exact h.mono hbase (Nat.le_of_eq hsize.symm)

/-- What an allocation does to an arena in which some blocks are laid.  No sum or difference of its arithmetic leaves the
range of a word (`alignment_pos` to `length_lt`); the block is a new run of zeros at a multiple of the alignment; and
what could be read before is read as it was. -/
structure SoundAllocation (a : Arena) (xs : List Block) (size : Nat) (align : UInt64) (start : Address)
    (grown : Arena) : Prop where
  alignment_pos : 0 < (alignment align).toNat
  sums_lt : a.base.toNat + a.size + (alignment align).toNat < 2 ^ 64
  no_borrow : a.base.toNat + a.size ≤ start.word.toNat
  length_lt : a.size + (start.word.toNat - (a.base.toNat + a.size)) + size < 2 ^ 64
  ne_null : start ≠ Address.null
  aligned : align ≠ 0 → align.toNat ∣ start.word.toNat
  inside : grown.base = a.base ∧ a.base.toNat ≤ start.word.toNat ∧
    start.word.toNat + size ≤ grown.base.toNat + grown.size
  zeros : grown.bytes start size = .ok (List.replicate size 0)
  apart : ∀ x ∈ xs, x.stop ≤ start.word.toNat
  kept : ∀ q n bs, a.bytes q n = .ok bs → grown.bytes q n = .ok bs

theorem sound_allocate (h : a.Laid xs) {size : Nat} {align : UInt64} (halign : IsAlignment align)
    (hroom : (a.allocate size align).2.size < 2 ^ 62) :
    SoundAllocation a xs size align (a.allocate size align).1 (a.allocate size align).2 := by
  have hgrows := le_size_allocate a size align
  obtain ⟨hpos, hsums, padding, hstart, hdvd, hbase, hdata⟩ := allocate_cases a halign (by omega) size
  generalize (a.allocate size align).1 = start at *
  generalize (a.allocate size align).2 = grown at *
  have hsize := size_of_zeros hdata
  have hzeros : grown.bytes start size = .ok (List.replicate size 0) := bytes_of_zeros hdata (hbase ▸ hstart)
  have hnull : start ≠ Address.null := (exists_bytes_iff.1 ⟨_, hzeros⟩).ne_null
  refine ⟨hpos, hsums, by omega, by omega, hnull, hdvd, ⟨hbase, by omega, ?_⟩, hzeros, ?_, ?_⟩
  · rw [hbase]
    omega
  · intro x hx
    have hstop := (h.inside x hx).2
    omega
  · intro q n bs hread
    exact bytes_of_grown hbase (hdata ▸ List.prefix_append _ _) hread

/-- What a write, be it carried out or refused, does to an arena in which some blocks are laid: no byte changes but those
at its own address, and so no block but the one that it lies in. -/
structure SoundWrite (a : Arena) (xs : List Block) (p : Address) (bs : List UInt8) (written : Arena) : Prop where
  frame : written.base = a.base ∧ written.size = a.size
  others : ∀ q n, q.word.toNat + n ≤ p.word.toNat ∨ p.word.toNat + bs.length ≤ q.word.toNat →
    written.bytes q n = a.bytes q n
  other_blocks : ∀ (i j : Nat) (x y : Block), xs[i]? = some x → xs[j]? = some y → i ≠ j →
    x.start.word.toNat ≤ p.word.toNat → p.word.toNat + bs.length ≤ x.stop →
    written.bytes y.start y.size = a.bytes y.start y.size

/-- Of two laid blocks one lies behind the other. -/
theorem Laid.apart_or (h : a.Laid xs) {i j : Nat} {x y : Block} (hx : xs[i]? = some x) (hy : xs[j]? = some y)
    (hne : i ≠ j) : x.stop ≤ y.start.word.toNat ∨ y.stop ≤ x.start.word.toNat := by
  obtain ⟨hi, rfl⟩ := List.getElem?_eq_some_iff.1 hx
  obtain ⟨hj, rfl⟩ := List.getElem?_eq_some_iff.1 hy
  rcases Nat.lt_or_gt_of_ne hne with hlt | hlt
  · exact Or.inl (List.pairwise_iff_getElem.1 h.apart i j hi hj hlt)
  · exact Or.inr (List.pairwise_iff_getElem.1 h.apart j i hj hi hlt)

theorem sound_write (h : a.Laid xs) (p : Address) (bs : List UInt8) :
    SoundWrite a xs p bs (a.commit (a.write p bs)) := by
  have hothers : ∀ q n, q.word.toNat + n ≤ p.word.toNat ∨ p.word.toNat + bs.length ≤ q.word.toNat →
      (a.commit (a.write p bs)).bytes q n = a.bytes q n := by
    intro q n hapart
    cases hwrite : a.write p bs with
    | ok b => exact bytes_write_of_apart hwrite hapart
    | error e => rfl
  refine ⟨commit_write a p bs, hothers, ?_⟩
  intro i j x y hx hy hne hstart hstop
  apply hothers
  rcases h.apart_or hx hy hne with hbehind | hbefore
  · exact Or.inr (Nat.le_trans hstop hbehind)
  · exact Or.inl (Nat.le_trans hbefore hstart)

/-- What a call does to an arena in which some blocks are laid. -/
def Sound (a : Arena) (xs : List Block) : ArenaCall → Prop
  | .allocate size align => SoundAllocation a xs size align (a.allocate size align).1 (a.allocate size align).2
  | .write p bs => SoundWrite a xs p bs (a.apply (.write p bs))
  | .store p c => SoundWrite a xs p c.bytes (a.apply (.store p c))

theorem sound_apply (h : a.Laid xs) {call : ArenaCall} (haligned : call.IsAligned)
    (hroom : (a.apply call).size < 2 ^ 62) : a.Sound xs call := by
  cases call with
  | allocate size align => exact sound_allocate h haligned hroom
  | write p bs => exact sound_write h p bs
  | store p c => exact sound_write h p c.bytes

/-- A call keeps the blocks laid, its own one behind the others. -/
theorem laid_apply (h : a.Laid xs) {call : ArenaCall} (haligned : call.IsAligned)
    (hroom : (a.apply call).size < 2 ^ 62) : (a.apply call).Laid (xs ++ (a.block? call).toList) := by
  cases call with
  | allocate size align =>
      have hsound := sound_allocate h haligned hroom
      have hgrows := le_size_allocate a size align
      have hlaid : (a.allocate size align).2.Laid xs := h.mono hsound.inside.1 (by omega)
      obtain ⟨hbase, hstart, hstop⟩ := hsound.inside
      refine ⟨?_, List.pairwise_append.2 ⟨h.apart, List.pairwise_singleton _ _, ?_⟩⟩
      · intro x hx
        rcases List.mem_append.1 hx with hx | hx
        · exact hlaid.inside x hx
        · obtain rfl := Option.some.inj (Option.mem_toList.1 hx)
          exact ⟨by rw [apply, hbase]; exact hstart, hstop⟩
      · intro x hx y hy
        obtain rfl := Option.some.inj (Option.mem_toList.1 hy)
        exact hsound.apart x hx
  | write p bs =>
      show (a.commit (a.write p bs)).Laid (xs ++ [])
      rw [List.append_nil]
      exact h.commit_write p bs
  | store p c =>
      show (a.commit (a.write p c.bytes)).Laid (xs ++ [])
      rw [List.append_nil]
      exact h.commit_write p c.bytes

/-- Calls keep the blocks laid, their own ones behind the others.  The induction is on the calls; since an arena never
gets shorter, there is room after each of them when there is room after the last. -/
theorem laid_after (h : a.Laid xs) {calls : List ArenaCall} (haligned : ∀ call ∈ calls, call.IsAligned)
    (hroom : (a.after calls).size < 2 ^ 62) : (a.after calls).Laid (xs ++ a.blocks calls) := by
  induction calls generalizing a xs with
  | nil =>
      rw [blocks, List.append_nil]
      exact h
  | cons call calls ih =>
      obtain ⟨hcall, hcalls⟩ := List.forall_mem_cons.1 haligned
      have hlaid := laid_apply h hcall (Nat.lt_of_le_of_lt (size_le_after (a.apply call) calls) hroom)
      rw [blocks, ← List.append_assoc]
      exact ih hlaid hcalls hroom

/-- **In every run of calls that leaves the arena below `2 ^ 62` bytes, every allocation and every write is sound.** -/
theorem sound_after (base : UInt64) (before rest : List ArenaCall) (call : ArenaCall)
    (haligned : ∀ other ∈ before ++ call :: rest, other.IsAligned)
    (hroom : ((withBase base).after (before ++ call :: rest)).size < 2 ^ 62) :
    ((withBase base).after before).Sound ((withBase base).blocks before) call := by
  obtain ⟨hbefore, hrest⟩ := List.forall_mem_append.1 haligned
  have hcall := (List.forall_mem_cons.1 hrest).1
  rw [after_append] at hroom
  have hnext : (((withBase base).after before).apply call).size < 2 ^ 62 :=
    Nat.lt_of_le_of_lt (size_le_after _ rest) hroom
  have hlaid : ((withBase base).after before).Laid ((withBase base).blocks before) :=
    laid_after (laid_nil _) hbefore (Nat.lt_of_le_of_lt (size_le_apply _ call) hnext)
  exact sound_apply hlaid hcall hnext

/-- An aligned block of eight bytes behind an unaligned one of three, in an arena with an odd base. -/
theorem sound_alignedBlock :
    (∀ other ∈ [.allocate 3 0, .write ⟨0x1003⟩ [1, 2, 3]] ++ .allocate 8 8 ::
        [.store ⟨0x1008⟩ (.pointer ⟨0x1003⟩), .allocate 0 16], ArenaCall.IsAligned other) ∧
      ((withBase 0x1003).after ([.allocate 3 0, .write ⟨0x1003⟩ [1, 2, 3]] ++ .allocate 8 8 ::
        [.store ⟨0x1008⟩ (.pointer ⟨0x1003⟩), .allocate 0 16])).size < 2 ^ 62 ∧
      ((withBase 0x1003).after [.allocate 3 0, .write ⟨0x1003⟩ [1, 2, 3]]).Sound [⟨⟨0x1003⟩, 3⟩] (.allocate 8 8) := by
  have haligned : ∀ other ∈ [.allocate 3 0, .write ⟨0x1003⟩ [1, 2, 3]] ++ .allocate 8 8 ::
      [.store ⟨0x1008⟩ (.pointer ⟨0x1003⟩), .allocate 0 16], ArenaCall.IsAligned other := by
    intro other hother
    simp only [List.cons_append, List.nil_append, List.mem_cons, List.not_mem_nil, or_false] at hother
    rcases hother with rfl | rfl | rfl | rfl | rfl
    · exact Or.inl rfl
    · trivial
    · exact Or.inr ⟨3, by decide, rfl⟩
    · trivial
    · exact Or.inr ⟨4, by decide, rfl⟩
  have hroom : ((withBase 0x1003).after ([.allocate 3 0, .write ⟨0x1003⟩ [1, 2, 3]] ++ .allocate 8 8 ::
      [.store ⟨0x1008⟩ (.pointer ⟨0x1003⟩), .allocate 0 16])).size < 2 ^ 62 := by
    decide
  exact ⟨haligned, hroom, sound_after 0x1003 _ _ _ haligned hroom⟩

end Arena

end TypedColumns
