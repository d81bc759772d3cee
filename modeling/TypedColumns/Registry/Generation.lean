/-!
# Generations

A generation numbers the schemas that a dataset has shown one after the other.  Whatever was found out under one
generation holds until the next.

* `Generation`, `Generation.next`, `Generation.text` -- the number, its successor (which wraps) and its written form.
-/

namespace TypedColumns

/-- The number of a schema in the course of a dataset. -/
structure Generation where
  number : UInt64
deriving DecidableEq, Repr

namespace Generation

/-- The generation that a dataset starts with. -/
def first : Generation := ⟨0⟩

/-- The generation that follows. -/
def next (g : Generation) : Generation := ⟨g.number + 1⟩

/-- The written form of a generation. -/
def text (g : Generation) : String := s!"gen-{g.number.toNat}"

end Generation

end TypedColumns
