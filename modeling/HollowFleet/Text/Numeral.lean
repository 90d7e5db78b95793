/-!
# Numerals

Reading whole numbers. A numeral is one or more digits; an unsigned field also takes a
leading plus, a signed one either sign. Leading zeros are allowed. The laws give the value of
a string of decimal digits from either end.

A bound is a test on the value and not on the number of digits: `unsigned? 256` reads `0000255` and
refuses `256`. Digits are those of ASCII only. The value is computed by one pass over the digits
(`digitsValue`), which is the right form to compute with and the wrong one to reason about, for its
accumulator is in the way. `foldl_digits` takes the accumulator out, and from it come the two forms
that proofs go by, `digitsValue_cons` and `digitsValue_append`.
-/

namespace HollowFleet.Text

/-- The value of a decimal digit. -/
def digit? (c : Char) : Option Nat :=
  if '0' ≤ c ∧ c ≤ '9' then some (c.toNat - '0'.toNat) else none

/-- Whether `c` is a decimal digit. -/
def isDigit (c : Char) : Bool := (digit? c).isSome

/-- The value of a digit in base sixteen. -/
def hexDigit? (c : Char) : Option Nat :=
  if '0' ≤ c ∧ c ≤ '9' then some (c.toNat - 48)
  else if 'a' ≤ c ∧ c ≤ 'f' then some (c.toNat - 87)
  else if 'A' ≤ c ∧ c ≤ 'F' then some (c.toNat - 55)
  else none

/-- The number that a string of digits stands for. -/
def digitsValue (cs : List Char) : Nat :=
  cs.foldl (fun n c ↦ n * 10 + (digit? c).getD 0) 0

/-- Reads one or more digits. -/
def numeral? (cs : List Char) : Option Nat :=
  if cs ≠ [] ∧ cs.all isDigit then some (digitsValue cs) else none

/-- Reads a numeral with an optional plus whose value is below `bound`. -/
def unsigned? (bound : Nat) (cs : List Char) : Option Nat :=
  let digits := match cs with
    | '+' :: rest => rest
    | _ => cs
  (numeral? digits).filter fun n ↦ decide (n < bound)

/-- Reads a numeral with an optional sign. -/
def signed? (cs : List Char) : Option Int :=
  match cs with
  | '-' :: rest => (numeral? rest).map fun n ↦ -(n : Int)
  | '+' :: rest => (numeral? rest).map fun n ↦ (n : Int)
  | _ => (numeral? cs).map fun n ↦ (n : Int)

/-- Reads one or more digits of a base up to sixteen. -/
def numeralInBase? (base : Nat) (cs : List Char) : Option Nat :=
  if cs = [] then none
  else (cs.mapM hexDigit?).bind fun ds ↦
    if ds.all fun d ↦ decide (d < base) then some (ds.foldl (fun n d ↦ n * base + d) 0) else none

theorem foldl_digits (n : Nat) (cs : List Char) :
    cs.foldl (fun n c ↦ n * 10 + (digit? c).getD 0) n =
      n * Nat.pow 10 cs.length + digitsValue cs := by
  induction cs generalizing n with
  | nil => simp [digitsValue]
  | cons c rest ih =>
    have hcons : digitsValue (c :: rest) =
        (0 * 10 + (digit? c).getD 0) * Nat.pow 10 rest.length + digitsValue rest := ih _
    have hpow : Nat.pow 10 (rest.length + 1) = Nat.pow 10 rest.length * 10 := rfl
    rw [List.foldl_cons, ih, hcons, List.length_cons, hpow, Nat.zero_mul, Nat.zero_add,
      Nat.add_mul, Nat.add_assoc, Nat.mul_assoc, Nat.mul_comm 10]

@[simp]
theorem digitsValue_nil : digitsValue [] = 0 := rfl

theorem digitsValue_cons (c : Char) (rest : List Char) :
    digitsValue (c :: rest) = (digit? c).getD 0 * Nat.pow 10 rest.length + digitsValue rest := by
  rw [digitsValue, List.foldl_cons, foldl_digits]
  simp

theorem digitsValue_append (left right : List Char) :
    digitsValue (left ++ right) =
      digitsValue left * Nat.pow 10 right.length + digitsValue right := by
  rw [digitsValue, List.foldl_append, foldl_digits, ← digitsValue]

end HollowFleet.Text
