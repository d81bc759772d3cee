import TypedColumns.Toml.Quoted

/-!
# TOML numbers

Whole numbers are decimal with an optional sign, or hexadecimal, octal or binary without one, and fit 64 bits with
sign.  A number with a fraction or an exponent is a floating-point number; such a number may not be too large.  Single
underscores may stand between digits.

* `moreDigits`, `digits` -- digits with underscores between them.
* `radix?` -- a whole number with a base given in front of it.
* `isTooLarge` -- whether a decimal rounds to infinity in double precision.
* `Number`, `number` -- a number of either kind.
-/

namespace TypedColumns.Toml

/-- Digits that follow a digit; an underscore must have a digit on both sides. -/
def moreDigits (isDigit : Char → Bool) : Scan (List Char)
  | [] => some ([], [])
  | '_' :: c :: cs => if isDigit c then (moreDigits isDigit cs).map (prepend c) else none
  | c :: cs =>
    if isDigit c then (moreDigits isDigit cs).map (prepend c)
    else if c = '_' then none
    else some ([], c :: cs)

/-- At least one digit. -/
def digits (isDigit : Char → Bool) : Scan (List Char)
  | [] => none
  | c :: cs => if isDigit c then (moreDigits isDigit cs).map (prepend c) else none

/-- The number written by digits to a base. -/
def digitsValue (base : Nat) (ds : List Char) : Nat :=
  ds.foldl (fun n d => base * n + (hexValue? d).getD 0) 0

/-- A number within a text. -/
inductive Number where
  | integer (value : Int)
  | float (text : String)
deriving DecidableEq, Repr

/-- A whole number, when it fits 64 bits with sign. -/
def integer? (value : Int) : Option Number :=
  if Int64.minValue.toInt ≤ value ∧ value ≤ Int64.maxValue.toInt then some (.integer value) else none

/-- A whole number with digits to a base. -/
def radix? (base : Nat) (isDigit : Char → Bool) (cs : List Char) : Option (Number × List Char) :=
  match digits isDigit cs with
  | some (ds, rest) => (integer? (digitsValue base ds)).map (fun n => (n, rest))
  | none => none

/-- Whether `n * 10 ^ e` is at least halfway from the largest finite double to the next power of two. -/
def isTooLarge (n : Nat) (e : Int) : Bool :=
  let bound := ((1 <<< 54) - 1) <<< 970
  if n = 0 then false
  else if 400 ≤ e then true
  else if 0 ≤ e then bound ≤ n * Nat.pow 10 e.toNat
  else bound * Nat.pow 10 (min (-e).toNat (Nat.toDigits 10 n).length) ≤ n

/-- The exponent of a floating-point number, after its letter. -/
def exponent : Scan Int
  | '-' :: cs => (digits Char.isDigit cs).map (fun (ds, rest) => (-(digitsValue 10 ds : Int), rest))
  | '+' :: cs => (digits Char.isDigit cs).map (fun (ds, rest) => ((digitsValue 10 ds : Int), rest))
  | cs => (digits Char.isDigit cs).map (fun (ds, rest) => ((digitsValue 10 ds : Int), rest))

/-- An exponent with its letter, zero where there is none. -/
def optionalExponent : Scan Int
  | c :: cs => if c = 'e' || c = 'E' then exponent cs else some (0, c :: cs)
  | [] => some (0, [])

/-- The number that begins with the given whole part: floating-point if a fraction or an exponent follows. -/
def afterWhole (isNegative : Bool) (whole : List Char) (cs : List Char) : Option (Number × List Char) :=
  let float (ds : List Char) (e : Int) (rest : List Char) : Option (Number × List Char) :=
    if !isNegative && isTooLarge (digitsValue 10 ds) e then none
    else some (.float (String.ofList whole ++ lexeme cs rest), rest)
  match cs with
  | '.' :: rest =>
    match digits Char.isDigit rest with
    | none => none
    | some (fraction, rest) =>
      match optionalExponent rest with
      | none => none
      | some (e, rest) => float (whole ++ fraction) (e - fraction.length) rest
  | c :: rest =>
    if c = 'e' || c = 'E' then
      match exponent rest with
      | none => none
      | some (e, rest) => float whole e rest
    else
      (integer? (if isNegative then -(digitsValue 10 whole : Int) else digitsValue 10 whole)).map
        (fun n => (n, c :: rest))
  | [] =>
    (integer? (if isNegative then -(digitsValue 10 whole : Int) else digitsValue 10 whole)).map (fun n => (n, []))

/-- A decimal number after its sign; no digit may follow a leading zero. -/
def decimal (isNegative : Bool) : Scan Number
  | 'i' :: 'n' :: 'f' :: cs => some (.float (if isNegative then "-inf" else "inf"), cs)
  | 'n' :: 'a' :: 'n' :: cs => some (.float "nan", cs)
  | '0' :: cs => afterWhole isNegative ['0'] cs
  | cs =>
    match digits Char.isDigit cs with
    | some (whole, rest) => afterWhole isNegative whole rest
    | none => none

/-- A number. -/
def number : Scan Number
  | '0' :: 'x' :: cs => radix? 16 (fun c => (hexValue? c).isSome) cs
  | '0' :: 'o' :: cs => radix? 8 (fun c => '0' ≤ c && c ≤ '7') cs
  | '0' :: 'b' :: cs => radix? 2 (fun c => c = '0' || c = '1') cs
  | '-' :: cs => decimal true cs
  | '+' :: cs => decimal false cs
  | cs => decimal false cs

end TypedColumns.Toml
