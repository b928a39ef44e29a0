import ContractNet.Text.Basic

/-!
# Numbers with a fixed number of decimal places

`fixed` writes a floating-point number with a given number of places.  The value of the number is
taken exactly, as a fraction with a power of two below, and rounded to the nearest multiple of the
last place; a tie goes to the even neighbour.
-/

namespace ContractNet.Drawing

/-- `n / d` rounded to the nearest number, a tie to the even one. -/
def roundDiv (n d : Nat) : Nat :=
  let q := n / d
  let r := n % d
  if 2 * r < d then q
  else if d < 2 * r then q + 1
  else if q % 2 = 0 then q
  else q + 1

/-- A number `± size / 2 ^ scale`. -/
structure Binary where
  negative : Bool
  size : Nat
  scale : Nat

/-- The exact value of a finite floating-point number. -/
def Binary.ofFloat (x : Float) : Binary :=
  let bits := x.toBits.toNat
  let exponent := bits / Nat.pow 2 52 % Nat.pow 2 11
  let fraction := bits % Nat.pow 2 52
  -- subnormal numbers have the exponent of the smallest normal ones and no leading bit
  let (size, power) := if exponent = 0 then (fraction, 1) else (Nat.pow 2 52 + fraction, exponent)
  { negative := Nat.pow 2 63 ≤ bits
    size := size * Nat.pow 2 (power - 1075)
    scale := 1075 - power }

/-- The multiple of `1 / 10 ^ places` nearest to the size of the number. -/
def Binary.rounded (places : Nat) (b : Binary) : Nat :=
  roundDiv (b.size * Nat.pow 10 places) (Nat.pow 2 b.scale)

/-- A finite number with the given number of decimal places; a negative number keeps its sign even
if nothing but zeros is left. -/
def fixed (places : Nat) (x : Float) : Text :=
  let b := Binary.ofFloat x
  let n := b.rounded places
  let whole := Text.decimal (n / Nat.pow 10 places)
  let fraction := Text.padZeros places (Text.decimal (n % Nat.pow 10 places))
  (if b.negative then "-" else "") ++ if places = 0 then whole else whole ++ "." ++ fraction

end ContractNet.Drawing
