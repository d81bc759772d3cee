/-!
# Addresses in a memory image

An address is a 64-bit word into a memory image; the zero word is null and never holds an object.

* `Address`, `Address.null`, `Address.text` -- the word, the null word and the written form (`0x` and the
  hexadecimal digits, lower case).
* `MemoryError` -- the three ways an access can fail, with `MemoryError.message`.
* `Address.plus?` -- moving an address up, refused when the sum leaves the 64-bit range
  (`Address.plus?_eq_ok_iff`).
-/

namespace TypedColumns

/-- An address in a memory image. -/
structure Address where
  word : UInt64
deriving DecidableEq, Repr, Inhabited

namespace Address

/-- The address that never holds an object. -/
def null : Address := ⟨0⟩

/-- Whether an address is null. -/
def isNull (a : Address) : Bool := a.word == 0

theorem isNull_iff (a : Address) : a.isNull = true ↔ a = null := by
  cases a with
  | mk w => simp [isNull, null]

/-- The written form: `0x` and the hexadecimal digits in lower case. -/
def text (a : Address) : String := "0x" ++ String.ofList (Nat.toDigits 16 a.word.toNat)

end Address

/-- Why an access to a memory image fails. -/
inductive MemoryError where
  /-- The null address was followed. -/
  | null
  /-- The bytes do not all lie inside the image. -/
  | outOfBounds (start : Address) (length : Nat)
  /-- The sum of an address and an offset leaves the 64-bit range. -/
  | overflow (base : Address) (step : UInt64)
deriving DecidableEq, Repr

/-- The text of a memory error. -/
def MemoryError.message : MemoryError → String
  | .null => "null pointer dereference"
  | .outOfBounds a n => s!"{n} bytes at {a.text} are outside the memory image"
  | .overflow a n => s!"address overflow: {a.text} + {n.toNat}"

/-- The address `n` bytes further up, unless the sum does not fit a word. -/
def Address.plus? (a : Address) (n : UInt64) : Except MemoryError Address :=
  if a.word.toNat + n.toNat < UInt64.size then .ok ⟨a.word + n⟩ else .error (.overflow a n)

theorem Address.plus?_eq_ok_iff (a b : Address) (n : UInt64) :
    a.plus? n = .ok b ↔ b.word.toNat = a.word.toNat + n.toNat := by
  have hb := b.word.toNat_lt
  simp only [Address.plus?, UInt64.size]
  split
  · rename_i h
    constructor
    · intro e
      cases e
      simp only [UInt64.toNat_add]
      omega
    · intro e
      congr 1
      cases b with
      | mk w =>
        congr 1
        apply UInt64.toNat_inj.1
        simp only [UInt64.toNat_add] at e ⊢
        omega
  · simp only [reduceCtorEq, false_iff]
    omega

end TypedColumns
