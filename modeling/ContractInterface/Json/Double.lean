import ContractInterface.Text.Numeral

/-!
# Double-precision numbers

A finite double is a sign, a mantissa below 2^53 and a power of two.  A decimal fraction is read
as the nearest double, a tie going to the even mantissa; a double is written with the fewest
decimal digits that read back as the same double.
-/

namespace ContractInterface

/-- A double-precision number. -/
inductive Double where
  /-- The number `± mantissa * 2 ^ exponent`. -/
  | finite (negative : Bool) (mantissa : Nat) (exponent : Int)
  | infinite (negative : Bool)
  | nan
  deriving DecidableEq, Repr

namespace Double

/-- The least exponent of a double. -/
def minExponent : Int := -1074

/-- The greatest exponent of a double. -/
def maxExponent : Int := 971

/-- The quotient of two numbers rounded to the nearest integer, a tie going to the even one. -/
def roundDiv (num den : Nat) : Nat :=
  let q := num / den
  let r := num % den
  if 2 * r < den then q
  else if 2 * r > den then q + 1
  else if q % 2 = 0 then q else q + 1

/-- The nearest double to `± num / den`. -/
def ofRatio (negative : Bool) (num den : Nat) : Double :=
  if num = 0 then .finite negative 0 minExponent
  else
    -- With this exponent the quotient has 53 or 54 bits.
    let guess : Int := (Nat.log2 num : Int) - Nat.log2 den - 53
    let scaled (e : Int) : Nat × Nat :=
      if 0 ≤ e then (num, den * Nat.pow 2 e.toNat) else (num * Nat.pow 2 (-e).toNat, den)
    let tooLong (e : Int) : Bool :=
      let (n, d) := scaled e
      Nat.pow 2 53 ≤ n / d
    let e := max (if tooLong guess then guess + 1 else guess) minExponent
    let (n, d) := scaled e
    let m := roundDiv n d
    let (m, e) := if m = Nat.pow 2 53 then (Nat.pow 2 52, e + 1) else (m, e)
    if maxExponent < e then .infinite negative else .finite negative m e

/-- The nearest double to the decimal `± digits * 10 ^ exponent`.  Decimals beyond the range of
doubles are recognised by the place of their first digit. -/
def ofDecimal (negative : Bool) (digits : Nat) (exponent : Int) : Double :=
  if digits = 0 then .finite negative 0 minExponent
  else
    let place : Int := (Nat.toDigits 10 digits).length + exponent
    if 400 < place then .infinite negative
    else if place < -400 then .finite negative 0 minExponent
    else if 0 ≤ exponent then ofRatio negative (digits * Nat.pow 10 exponent.toNat) 1
    else ofRatio negative digits (Nat.pow 10 (-exponent).toNat)

/-- Whether a double is an integer. -/
def isIntegral : Double → Bool
  | .finite _ m e => 0 ≤ e || m % Nat.pow 2 (-e).toNat == 0
  | _ => false

/-- Whether a double is less than zero; negative zero is not. -/
def isNegative : Double → Bool
  | .finite negative m _ => negative && m != 0
  | .infinite negative => negative
  | .nan => false

/-- Whether a double is greater than one. -/
def exceedsOne : Double → Bool
  | .finite true _ _ => false
  | .finite false m e => if 0 ≤ e then 1 < m * Nat.pow 2 e.toNat else Nat.pow 2 (-e).toNat < m
  | .infinite negative => !negative
  | .nan => false

/-! ### Shortest decimals -/

/-- A nonnegative rational number. -/
structure Ratio where
  num : Nat
  den : Nat
  deriving Repr

/-- The number `m * 2 ^ e`. -/
def Ratio.scale (m : Nat) (e : Int) : Ratio :=
  if 0 ≤ e then ⟨m * Nat.pow 2 e.toNat, 1⟩ else ⟨m, Nat.pow 2 (-e).toNat⟩

/-- The power of ten at which the first digit of a positive number stands: the least `k` with
the number below `10 ^ k`. -/
def Ratio.place (r : Ratio) : Int :=
  let digits (n : Nat) : Int := (Nat.toDigits 10 n).length
  -- The lengths of numerator and denominator determine the place up to one.
  let guess := digits r.num - digits r.den
  let below (k : Int) : Bool :=
    if 0 ≤ k then r.num < r.den * Nat.pow 10 k.toNat else r.num * Nat.pow 10 (-k).toNat < r.den
  if below guess then guess else guess + 1

/-- The decimal digits and the place of the shortest decimal that reads back as a positive
double, trying ever finer grids; of two candidates on a grid the nearer one is taken. -/
def shortestFrom (m : Nat) (e : Int) : Nat → Nat → Nat × Int
  | 0, _ => (m, 0)
  | fuel + 1, count =>
    let r := Ratio.scale m e
    let exponent := r.place - count
    let (num, den) :=
      if 0 ≤ exponent then (r.num, r.den * Nat.pow 10 exponent.toNat)
      else (r.num * Nat.pow 10 (-exponent).toNat, r.den)
    let near := roundDiv num den
    let far := if near * den ≤ num then near + 1 else near - 1
    let reads (d : Nat) : Bool := ofDecimal false d exponent = .finite false m e
    if reads near then (near, exponent)
    else if reads far then (far, exponent)
    else shortestFrom m e fuel (count + 1)

/-- The digits of a decimal without trailing zeros, and the place of its point. -/
def trimZeros (digits : Text) : Text :=
  Text.dropEndWhile (· == '0') digits

/-- Places the point in the digits of a shortest decimal.  Numbers from 10^-4 up to 10^16 are
written positionally, with at least one digit after the point; others get an exponent of at
least two digits. -/
def positional (digits : Text) (place : Int) : Text :=
  if -4 < place && place ≤ 16 then
    if place ≤ 0 then "0.".toList ++ List.replicate (-place).toNat '0' ++ digits
    else
      let whole := digits.take place.toNat ++ List.replicate (place.toNat - digits.length) '0'
      let fraction := digits.drop place.toNat
      whole ++ '.' :: (if fraction.isEmpty then ['0'] else fraction)
  else
    let mantissa :=
      match digits with
      | [] => ['0']
      | [d] => [d]
      | d :: ds => d :: '.' :: ds
    let exponent := place - 1
    let magnitude := Nat.toDigits 10 exponent.natAbs
    let padded := if magnitude.length < 2 then '0' :: magnitude else magnitude
    mantissa ++ 'e' :: (if exponent < 0 then '-' else '+') :: padded

/-- The shortest decimal of a double, with words for the numbers that have none. -/
def render : Double → String
  | .nan => "nan"
  | .infinite negative => if negative then "-inf" else "inf"
  | .finite negative m e =>
    let sign := if negative then ['-'] else []
    if m = 0 then String.ofList (sign ++ "0.0".toList)
    else
      let (d, exponent) := shortestFrom m e 17 1
      let digits := Nat.toDigits 10 d
      String.ofList (sign ++ positional (trimZeros digits) (digits.length + exponent))

end Double

end ContractInterface
