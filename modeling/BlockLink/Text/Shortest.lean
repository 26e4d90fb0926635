import BlockLink.Numerals

/-!
The shortest decimal that reads back as a given float. A float stands for all
reals that round to it; of the decimals in that interval the one on the coarsest
grid of powers of ten is chosen, and of two on that grid the one nearer to the
float.
-/

namespace BlockLink.Text.Shortest

/-- The number `coefficient * 10 ^ exponent`. -/
structure Decimal where
  coefficient : Nat
  exponent : Int
deriving DecidableEq

/-- A float without its sign, `mantissa * 2 ^ exponent`, and whether the next smaller one is
only half as far away as the next larger one. -/
structure Binary where
  mantissa : Nat
  exponent : Int
  closeBelow : Bool
deriving DecidableEq

namespace Binary

/-- The finite float with the given bits, without its sign. -/
def ofBits (bits : UInt64) : Binary :=
  let fraction : Nat := bits.toNat % 2 ^ 52
  let biased : Nat := bits.toNat / 2 ^ 52 % 2 ^ 11
  if biased = 0 then ⟨fraction, -1074, false⟩
  else ⟨2 ^ 52 + fraction, (biased : Int) - 1075, fraction = 0 && 1 < biased⟩

/-- Four times the mantissa: a quarter of the last place is the unit of the interval. -/
def value (binary : Binary) : Nat := 4 * binary.mantissa

/-- The lower end of the interval, half way to the next smaller float. -/
def lower (binary : Binary) : Nat := binary.value - if binary.closeBelow then 1 else 2

/-- The upper end of the interval, half way to the next larger float. -/
def upper (binary : Binary) : Nat := binary.value + 2

/-- Whether `scaled / unit` units of the interval round to the float. Both ends of the interval
do so exactly if the mantissa is even. -/
def contains (binary : Binary) (scaled unit : Nat) : Bool :=
  if binary.mantissa % 2 = 0 then binary.lower * unit ≤ scaled && scaled ≤ binary.upper * unit
  else binary.lower * unit < scaled && scaled < binary.upper * unit

end Binary

/-- The multiple of `10 ^ grid` in the interval that is nearest to the float. -/
def onGrid? (binary : Binary) (grid : Int) : Option Decimal :=
  let quarter := binary.exponent - 2
  let unit := 2 ^ quarter.toNat * 10 ^ (-grid).toNat
  let step := 2 ^ (-quarter).toNat * 10 ^ grid.toNat
  let below := binary.value * unit / step
  let above := below + 1
  let fits (count : Nat) := binary.contains (count * step) unit
  let gapBelow := binary.value * unit - below * step
  let gapAbove := above * step - binary.value * unit
  let nearerBelow := gapBelow < gapAbove || (gapBelow = gapAbove && below % 2 = 0)
  if fits below && (nearerBelow || !fits above) then some ⟨below, grid⟩
  else if fits above then some ⟨above, grid⟩
  else none

/-- The shortest decimal for a positive float. Floats lie between the grids of `10 ^ 309` and
`10 ^ (-324)`. -/
def decimal (binary : Binary) : Decimal :=
  ((List.range 634).findSome? fun index => onGrid? binary (309 - Int.ofNat index)).getD ⟨0, 0⟩

/-- The digits of a decimal with its point `places` digits from the left, written positionally
up to sixteen digits before the point or four zeros behind it, and otherwise with an exponent,
which always has a sign. -/
def render (digits : List Char) (places : Int) : List Char :=
  let count : Int := digits.length
  if 0 < places ∧ places ≤ 16 then
    if count ≤ places then digits ++ List.replicate (places - count).toNat '0' ++ ['.', '0']
    else digits.take places.toNat ++ ['.'] ++ digits.drop places.toNat
  else if -5 < places ∧ places ≤ 0 then
    ['0', '.'] ++ List.replicate (-places).toNat '0' ++ digits
  else
    let tail := digits.drop 1
    let exponent := places - 1
    digits.take 1 ++ (if tail.isEmpty then [] else '.' :: tail) ++ ['e'] ++
      [if exponent < 0 then '-' else '+'] ++ Nat.toDigits 10 exponent.natAbs

/-- The text of a finite float. -/
def text (float : Float) : String :=
  let bits := float.toBits
  let binary := Binary.ofBits bits
  let sign := if bits.toNat < 2 ^ 63 then [] else ['-']
  if binary.mantissa = 0 then String.ofList (sign ++ ['0', '.', '0'])
  else
    let shortest := decimal binary
    let digits := Nat.toDigits 10 shortest.coefficient
    String.ofList (sign ++ render digits (digits.length + shortest.exponent))

end BlockLink.Text.Shortest
