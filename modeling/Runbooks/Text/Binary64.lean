import Runbooks.Text.Digits

namespace Runbooks

/-- A finite number is `mantissa * 2 ^ exponent`, with the mantissa below `2 ^ 53`, the exponent
at least `-1074`, and the larger mantissa where there is a choice. -/
inductive Binary64 where
  | finite (negative : Bool) (mantissa : Nat) (exponent : Int)
  | infinite (negative : Bool)
  | nan
  deriving DecidableEq, Repr

namespace Binary64

/-- Equal as numbers: both zeros are equal, and a number that is none equals itself. -/
def same : Binary64 → Binary64 → Bool
  | .finite _ 0 _, .finite _ 0 _ => true
  | a, b => a = b

/-- `numerator / denominator` to the nearest whole number, a half to the even one. -/
def roundHalfEven (numerator denominator : Nat) : Nat :=
  let low := numerator / denominator
  let twice := 2 * (numerator % denominator)
  if twice < denominator then low
  else if twice > denominator then low + 1
  else low + low % 2

/-- The number nearest to `numerator / denominator`, both positive. -/
def nearestRatio (negative : Bool) (numerator denominator : Nat) : Binary64 :=
  let scaled (q : Int) : Nat × Nat :=
    if q ≥ 0 then (numerator, denominator * Nat.pow 2 q.toNat)
    else (numerator * Nat.pow 2 (-q).toNat, denominator)
  let guess : Int := (numerator.log2 : Int) - denominator.log2 - 53
  let q := if (scaled guess).1 / (scaled guess).2 < Nat.pow 2 53 then guess else guess + 1
  let q := max q (-1074)
  let m := roundHalfEven (scaled q).1 (scaled q).2
  let (m, q) := if m = Nat.pow 2 53 then (Nat.pow 2 52, q + 1) else (m, q)
  if q > 971 then .infinite negative else .finite negative m (if m = 0 then -1074 else q)

/-- The number nearest to `digits * 10 ^ power`. -/
def nearest (negative : Bool) (digits : Nat) (power : Int) : Binary64 :=
  let size : Int := (decimalDigits digits).length + power
  if digits = 0 ∨ size < -400 then .finite negative 0 (-1074)
  else if size > 400 then .infinite negative
  else if power ≥ 0 then nearestRatio negative (digits * Nat.pow 10 power.toNat) 1
  else nearestRatio negative digits (Nat.pow 10 (-power).toNat)

/-- A decimal numeral: digits with at most one point, at least one digit, and an optional power
of ten, with an optional sign in front of each. -/
def ofNumeral? (s : List Char) : Option Binary64 :=
  let (negative, s) := match s with
    | '-' :: r => (true, r)
    | '+' :: r => (false, r)
    | r => (false, r)
  let whole := s.takeWhile isDigit
  let s := s.dropWhile isDigit
  let (fraction, s) := match s with
    | '.' :: r => (r.takeWhile isDigit, r.dropWhile isDigit)
    | r => ([], r)
  match readNat? 10 (whole ++ fraction) with
  | none => none
  | some digits =>
    let power : Int := -fraction.length
    let signed (sign : Int) (r : List Char) : Option Binary64 :=
      (readNat? 10 r).map fun e => nearest negative digits (power + sign * e)
    match s with
    | [] => some (nearest negative digits power)
    | c :: r =>
      if c = 'e' ∨ c = 'E' then
        match r with
        | '-' :: r => signed (-1) r
        | '+' :: r => signed 1 r
        | r => signed 1 r
      else none

/-- A positive finite number as a fraction. -/
def fraction (m : Nat) (q : Int) : Nat × Nat :=
  if q ≥ 0 then (m * Nat.pow 2 q.toNat, 1) else (m, Nat.pow 2 (-q).toNat)

/-- Whether `d * 10 ^ k` lies among the reals that round to the positive number `m * 2 ^ q`;
the ends belong to them when `m` is even. -/
def readsBack (m : Nat) (q : Int) (d : Nat) (k : Int) : Bool :=
  let low := if m = Nat.pow 2 52 ∧ q > -1074 then fraction (4 * m - 1) (q - 2)
    else fraction (2 * m - 1) (q - 1)
  let high := fraction (2 * m + 1) (q - 1)
  let x : Nat × Nat := if k ≥ 0 then (d * Nat.pow 10 k.toNat, 1) else (d, Nat.pow 10 (-k).toNat)
  if m % 2 = 0 then low.1 * x.2 ≤ x.1 * low.2 && x.1 * high.2 ≤ high.1 * x.2
  else low.1 * x.2 < x.1 * low.2 && x.1 * high.2 < high.1 * x.2

/-- The decimal `d * 10 ^ k` with the fewest digits that reads back as the positive number
`m * 2 ^ q`, the nearest of those. The first argument bounds the digits still to be tried, the
second counts those of the present grid. -/
def shortestFrom (m : Nat) (q : Int) : Nat → Nat → Nat × Int
  | 0, _ => (m, 0)
  | fuel + 1, n =>
    let (num, den) := fraction m q
    let order : Int :=
      let guess : Int := ((decimalDigits num).length : Int) - (decimalDigits den).length
      let atLeast (e : Int) : Bool :=
        if e ≥ 0 then den * Nat.pow 10 e.toNat ≤ num else den ≤ num * Nat.pow 10 (-e).toNat
      if atLeast guess then guess else guess - 1
    let k : Int := order + 1 - n
    let (a, b) := if k ≥ 0 then (num, den * Nat.pow 10 k.toNat)
      else (num * Nat.pow 10 (-k).toNat, den)
    let below := a / b
    let near := roundHalfEven a b
    let far := if near = below then below + 1 else below
    if readsBack m q near k then (near, k)
    else if readsBack m q far k then (far, k)
    else shortestFrom m q fuel (n + 1)

/-- Zeros at the end go into the power. -/
def stripZeros : Nat → Nat → Int → Nat × Int
  | 0, d, k => (d, k)
  | fuel + 1, d, k => if d % 10 = 0 ∧ d ≠ 0 then stripZeros fuel (d / 10) (k + 1) else (d, k)

/-- Positional from a millionth up to sixteen places, with at least one digit after the point;
scientific elsewhere. -/
def magnitudeText (d : Nat) (k : Int) : List Char :=
  let ds := decimalDigits d
  let n := ds.length
  let point : Int := n + k
  if 0 ≤ k ∧ point ≤ 16 then ds ++ List.replicate k.toNat '0' ++ ['.', '0']
  else if 0 < point ∧ point ≤ 16 then ds.take point.toNat ++ '.' :: ds.drop point.toNat
  else if -5 < point ∧ point ≤ 0 then
    '0' :: '.' :: (List.replicate (-point).toNat '0' ++ ds)
  else
    let power := (decimalText (point - 1)).toList
    if n = 1 then ds ++ 'e' :: power
    else ds.take 1 ++ '.' :: ds.drop 1 ++ 'e' :: power

/-- The shortest text that reads back, with a point or a power of ten in it. -/
def text : Binary64 → String
  | .nan => ".nan"
  | .infinite negative => if negative then "-.inf" else ".inf"
  | .finite negative m q =>
    let body :=
      if m = 0 then ['0', '.', '0']
      else
        let (d, k) := shortestFrom m q 17 1
        let (d, k) := stripZeros 20 d k
        magnitudeText d k
    String.ofList (if negative then '-' :: body else body)

end Binary64

end Runbooks
