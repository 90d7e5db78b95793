/-!
# Binary floating point with 53 digits

Numbers of the form `± m · 2 ^ e` with a mantissa below `2 ^ 53` and an exponent between
`-1074` and `971`, two infinities and one value that is no number. All arithmetic goes
through one rounding, `ofRatio`, which takes an exact quotient to the nearest such number,
a tie to the even mantissa.

* A number that is not zero is stored with the largest mantissa that its exponent range
  allows, so each number has one form.
* `toBits` is the interchange encoding, and `ceil?` the least integer not below the number.

## One rounding

A product or a sum is first computed without a loss, as a quotient of natural numbers, and then
rounded once, so what is said of `ofRatio` holds of every operation. The exponent at which a
quotient is rounded (`quantum`) comes from its size alone; below the least exponent it stays there,
and the numbers get as thin as they are near zero. A mantissa that is rounded up to `2 ^ 53` moves
to the next exponent, and what passes the greatest exponent by that is infinite. The two
laws `roundHalfEven_mul` and `roundHalfEven_near` are the content of rounding to an integer: nothing
is lost without a remainder, and never more than half a unit.

Equality of these numbers is equality of their forms: a zero of either sign is a number of its own,
and the one value that is no number is equal to itself.
-/

namespace HollowFleet.Number

/-! ### Rounding to an integer -/

/-- The integer nearest to `n / d`, a tie going to the even one. -/
def roundHalfEven (n d : Nat) : Nat :=
  let q := n / d
  let r := n % d
  if 2 * r < d then q
  else if d < 2 * r then q + 1
  else if q % 2 = 0 then q else q + 1

/-- A quotient without remainder is not moved. -/
theorem roundHalfEven_mul (q : Nat) {d : Nat} (h : 0 < d) : roundHalfEven (q * d) d = q := by
  simp [roundHalfEven, Nat.mul_div_cancel q h, h]

/-- A rounded quotient is within half a unit of the exact one. -/
theorem roundHalfEven_near (n : Nat) {d : Nat} (h : 0 < d) :
    2 * n ≤ (2 * roundHalfEven n d + 1) * d ∧ (2 * roundHalfEven n d) * d ≤ 2 * n + d := by
  have hdiv := Nat.div_add_mod n d
  have hcomm : n / d * d = d * (n / d) := Nat.mul_comm _ _
  have hmod := Nat.mod_lt n h
  have hone : (n / d + 1) * d = n / d * d + d := by rw [Nat.add_mul, Nat.one_mul]
  have hlow : (2 * (n / d) + 1) * d = 2 * (n / d * d) + d := by
    rw [Nat.add_mul, Nat.one_mul, Nat.mul_assoc]
  have hhigh : (2 * (n / d + 1) + 1) * d = 2 * (n / d * d) + 3 * d := by
    rw [Nat.add_mul, Nat.mul_assoc, hone]
    omega
  have hlow' : 2 * (n / d) * d = 2 * (n / d * d) := Nat.mul_assoc _ _ _
  have hhigh' : 2 * (n / d + 1) * d = 2 * (n / d * d) + 2 * d := by
    rw [Nat.mul_assoc, hone]
    omega
  simp only [roundHalfEven]
  split
  · rw [hlow, hlow']; omega
  · split
    · rw [hhigh, hhigh']; omega
    · split
      · rw [hlow, hlow']; omega
      · rw [hhigh, hhigh']; omega

/-! ### The numbers -/

/-- A binary floating point number. -/
inductive Binary64 where
  /-- `± mantissa · 2 ^ exponent`. -/
  | finite (negative : Bool) (mantissa : Nat) (exponent : Int)
  | infinite (negative : Bool)
  | undefined
deriving DecidableEq, Repr

namespace Binary64

/-- The least exponent. -/
def minExponent : Int := -1074

/-- The greatest exponent. -/
def maxExponent : Int := 971

/-- One more than the greatest mantissa. -/
def mantissaBound : Nat := Nat.pow 2 53

/-- The zero of a sign. -/
def zero (negative : Bool) : Binary64 := finite negative 0 minExponent

/-- Numerator and denominator of `(n / d) / 2 ^ e`. -/
def scaled (n d : Nat) (e : Int) : Nat × Nat :=
  if 0 ≤ e then (n, d * Nat.pow 2 e.toNat) else (n * Nat.pow 2 (-e).toNat, d)

/-- The greatest `k` with `2 ^ k ≤ n / d`, for positive `n` and `d`. -/
def floorLog (n d : Nat) : Int :=
  let k : Int := (Nat.log2 n : Int) - (Nat.log2 d : Int)
  let s := scaled n d k
  if s.2 ≤ s.1 then k else k - 1

/-- The exponent at which `n / d` is rounded. -/
def quantum (n d : Nat) : Int := max (floorLog n d - 52) minExponent

/-- The number nearest to `± n / d`. -/
def ofRatio (negative : Bool) (n d : Nat) : Binary64 :=
  if n = 0 then zero negative
  else
    let e := quantum n d
    let s := scaled n d e
    let m := roundHalfEven s.1 s.2
    let fitted : Nat × Int := if m < mantissaBound then (m, e) else (mantissaBound / 2, e + 1)
    if maxExponent < fitted.2 then infinite negative else finite negative fitted.1 fitted.2

/-- The number nearest to `i · 2 ^ e`; a zero takes the sign `negativeZero`. -/
def ofScaled (negativeZero : Bool) (i : Int) (e : Int) : Binary64 :=
  let negative := if i = 0 then negativeZero else decide (i < 0)
  if 0 ≤ e then ofRatio negative (i.natAbs * Nat.pow 2 e.toNat) 1
  else ofRatio negative i.natAbs (Nat.pow 2 (-e).toNat)

/-- The number nearest to a natural number. -/
def ofNat (n : Nat) : Binary64 := ofRatio false n 1

/-! ### Tests -/

/-- Whether the number is neither infinite nor undefined. -/
def isFinite : Binary64 → Bool
  | finite _ _ _ => true
  | _ => false

/-- Whether the number is below zero; a negative zero is not. -/
def isBelowZero : Binary64 → Bool
  | finite negative m _ => negative && decide (m ≠ 0)
  | infinite negative => negative
  | undefined => false

/-! ### Arithmetic -/

/-- The number with the opposite sign. -/
def neg : Binary64 → Binary64
  | finite negative m e => finite (!negative) m e
  | infinite negative => infinite (!negative)
  | undefined => undefined

/-- The rounded product. -/
def mul : Binary64 → Binary64 → Binary64
  | finite s m e, finite s' m' e' =>
    let negative := s != s'
    if 0 ≤ e + e' then ofRatio negative (m * m' * Nat.pow 2 (e + e').toNat) 1
    else ofRatio negative (m * m') (Nat.pow 2 (-(e + e')).toNat)
  | infinite s, finite s' m _ => if m = 0 then undefined else infinite (s != s')
  | finite s m _, infinite s' => if m = 0 then undefined else infinite (s != s')
  | infinite s, infinite s' => infinite (s != s')
  | _, _ => undefined

/-- The mantissa with its sign, as a multiple of `2 ^ e'` for an `e'` not above `e`. -/
def aligned (negative : Bool) (m : Nat) (e e' : Int) : Int :=
  let i : Int := (m * Nat.pow 2 (e - e').toNat : Nat)
  if negative then -i else i

/-- The rounded sum. -/
def add : Binary64 → Binary64 → Binary64
  | finite s m e, finite s' m' e' =>
    let low := min e e'
    ofScaled (s && s') (aligned s m e low + aligned s' m' e' low) low
  | infinite s, infinite s' => if s = s' then infinite s else undefined
  | infinite s, finite _ _ _ => infinite s
  | finite _ _ _, infinite s => infinite s
  | _, _ => undefined

/-- The rounded difference. -/
def sub (x y : Binary64) : Binary64 := add x (neg y)

/-- The least integer not below a finite number. -/
def ceil? : Binary64 → Option Int
  | finite negative m e =>
    if 0 ≤ e then
      let i : Int := (m * Nat.pow 2 e.toNat : Nat)
      some (if negative then -i else i)
    else
      let d := Nat.pow 2 (-e).toNat
      some (if negative then -((m / d : Nat) : Int) else (((m + (d - 1)) / d : Nat) : Int))
  | _ => none

/-- The least natural number not below `x`, but at most `greatest`. -/
def ceilWithin (greatest : Nat) (x : Binary64) : Nat :=
  match x with
  | infinite false => greatest
  | x => min ((x.ceil?).getD 0).toNat greatest

/-! ### Encoding -/

/-- The encoding of a negative sign. -/
def signBit : Nat := Nat.pow 2 63

/-- The encoding of one step of the exponent. -/
def exponentUnit : Nat := Nat.pow 2 52

/-- The interchange encoding: a sign bit, eleven exponent bits and fifty-two mantissa
bits. -/
def toBits : Binary64 → Nat
  | finite negative m e =>
    let sign := if negative then signBit else 0
    let size :=
      if m < exponentUnit then m
      else (e - minExponent + 1).toNat * exponentUnit + (m - exponentUnit)
    sign + size
  | infinite negative => (if negative then signBit else 0) + 2047 * exponentUnit
  | undefined => 2047 * exponentUnit + exponentUnit / 2

end Binary64

end HollowFleet.Number
