import TypedColumns.Types.Catalog

/-!
# Agreement of a requested type with a stored one

A column stores one type and is asked for another.  Whether the request can be served depends on both: the same name,
numbers of the same bytes in memory, an enumeration and its integer, or a class and one of its bases.

* `Agreement`, `Agreement.isCompatible` -- in which way two types agree, if they do.
* `Numeric.agreement` -- two numeric kinds.
* `Catalog.agreement` -- any two types.
-/

namespace TypedColumns

/-- In which way a stored type can serve a request. -/
inductive Agreement where
  | identical
  | numericAlias
  | reducedPrecision
  | enumAlias
  | inherited
  | incompatible
deriving DecidableEq, Repr

/-- Whether the request can be served at all. -/
def Agreement.isCompatible (a : Agreement) : Bool := a != .incompatible

/-- Numbers agree when they are of one kind, when one is the form in memory of the other, or when both are integers of
one width. -/
def Numeric.agreement (want held : Numeric) : Agreement :=
  if want = held then .numericAlias
  else if held ≠ held.canonical ∧ held.canonical = want then .reducedPrecision
  else if want.isInteger && held.isInteger && want.width == held.width then .numericAlias
  else .incompatible

/-- A number and an enumeration agree when the number is what the enumeration is made of, or a 32-bit integer of the
same width. -/
def Numeric.enumAgreement (kind underlying : Numeric) : Agreement :=
  if (kind = .i32 ∧ underlying.width = kind.width) ∨ kind = underlying then .enumAlias else .incompatible

/-- How the `stored` type agrees with the `requested` one. -/
def Catalog.agreement (c : Catalog) (requested stored : Descriptor) : Agreement :=
  if requested.name = stored.name then .identical
  else
    match requested.form, stored.form with
    | .numeric want, .numeric held => want.agreement held
    | .numeric kind, .enumeration underlying => kind.enumAgreement underlying
    | .enumeration underlying, .numeric kind => kind.enumAgreement underlying
    | .record .., .record .. => if c.inherits stored.name requested.name then .inherited else .incompatible
    | _, _ => .incompatible

theorem Numeric.width_of_agreement {want held : Numeric}
    (h : (want.agreement held).isCompatible = true) : want.width = held.width := by
  revert h
  cases want <;> cases held <;> decide

end TypedColumns
