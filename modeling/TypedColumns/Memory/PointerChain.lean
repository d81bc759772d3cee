import TypedColumns.Memory.Image

/-!
# Pointer chains

A pointer chain tells how to get from an object to a value inside it or behind it: each of its hops is an offset at
which a pointer stands, to be followed, and its last offset is added to where the hops lead.

* `PointerChain` -- the hops and the last offset; it has at least that one entry by construction.
* `PointerChain.offsets`, `PointerChain.ofOffsets?` -- as a list of offsets, and back when there is one.
* `PointerChain.follow` -- the address a chain leads to; each pointer on the way must be readable and not null.
-/

namespace TypedColumns

/-- Offsets of pointers to follow, and a last offset that is only added. -/
structure PointerChain where
  hops : List UInt64
  last : UInt64
deriving DecidableEq, Repr

namespace PointerChain

/-- All offsets of a chain in order. -/
def offsets (c : PointerChain) : List UInt64 := c.hops ++ [c.last]

/-- How many pointers a chain follows. -/
def dereferences (c : PointerChain) : Nat := c.hops.length

/-- The chain with the given offsets, if there is at least one. -/
def ofOffsets? (os : List UInt64) : Option PointerChain :=
  match os.getLast? with
  | some last => some ⟨os.dropLast, last⟩
  | none => none

/-- The address reached from `a` by following one pointer after the other. -/
def chase (m : Image) : List UInt64 → Address → Except MemoryError Address
  | [], a => .ok a
  | o :: os, a =>
    match a.plus? o with
    | .error e => .error e
    | .ok slot =>
      match m.target slot with
      | .error e => .error e
      | .ok next => chase m os next

theorem chase_append (m : Image) (os ps : List UInt64) (a : Address) :
    chase m (os ++ ps) a = (chase m os a).bind (chase m ps) := by
  induction os generalizing a with
  | nil => rfl
  | cons o os ih =>
      show chase m (o :: (os ++ ps)) a = (chase m (o :: os) a).bind (chase m ps)
      unfold chase
      cases a.plus? o with
      | error e => rfl
      | ok slot =>
          cases ht : m.target slot with
          | error e => simp only [ht, Except.bind]
          | ok next => simp only [ht, ih]

/-- The address that a chain leads to from `a`. -/
def follow (c : PointerChain) (m : Image) (a : Address) : Except MemoryError Address :=
  match chase m c.hops a with
  | .error e => .error e
  | .ok b => b.plus? c.last

end PointerChain

end TypedColumns
