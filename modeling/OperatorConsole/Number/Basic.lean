/-!
# Numbers

The console computes with IEEE double precision numbers: rows hold them, options
are compared with them and the audit log stores them.  A number is given by its
place in the list of all finite magnitudes, so that order and equality are those
of naturals and every operation is exact arithmetic followed by one rounding.

## Ranks and units

Finite magnitudes are whole multiples of the least positive one, `2 ^ (-1074)`.
The *rank* of a magnitude counts the smaller magnitudes and its *units* say which
multiple it is.  `rankOf` rounds a quotient of naturals, in units, to the nearest
magnitude, a half going to the even rank.
-/

namespace OperatorConsole

/-- How many finite magnitudes there are. -/
abbrev Number.ranks : Nat := 2047 * Nat.pow 2 52

/-- A double precision number. -/
inductive Number where
  | nan
  | infinity (negative : Bool)
  | finite (negative : Bool) (rank : Fin Number.ranks)
  deriving DecidableEq, Repr

namespace Number

/-- How many units make one. -/
abbrev one : Nat := Nat.pow 2 1074

/-- The multiple of the least magnitude that has the given rank. -/
def unitsOf (rank : Nat) : Nat :=
  if rank < Nat.pow 2 52 then rank
  else (Nat.pow 2 52 + rank % Nat.pow 2 52) * Nat.pow 2 (rank / Nat.pow 2 52 - 1)

/-- The quotient of two naturals as a natural, a half going to the even neighbour. -/
def roundQuotient (numerator denominator : Nat) : Nat :=
  let quotient := numerator / denominator
  let double := 2 * (numerator % denominator)
  if double < denominator then quotient
  else if denominator < double then quotient + 1
  else quotient + quotient % 2

/-- The rank nearest to a quotient of units.  Past the last rank the answer only says so. -/
def rankOf (numerator denominator : Nat) : Nat :=
  let shift := (numerator / denominator).log2 - 52
  shift * Nat.pow 2 52 + roundQuotient numerator (denominator * Nat.pow 2 shift)

def ofRank (negative : Bool) (rank : Nat) : Number :=
  if h : rank < ranks then .finite negative ⟨rank, h⟩ else .infinity negative

def zero (negative : Bool) : Number :=
  .finite negative ⟨0, by decide⟩

/-- The number nearest to a quotient of units. -/
def round (negative : Bool) (numerator denominator : Nat) : Number :=
  ofRank negative (rankOf numerator denominator)

def ofInt (n : Int) : Number :=
  round (n < 0) (n.natAbs * one) 1

def ofNat (n : Nat) : Number :=
  round false (n * one) 1

instance (n : Nat) : OfNat Number n where
  ofNat := Number.ofNat n

def units? : Number -> Option Int
  | .finite true rank => some (-(unitsOf rank : Int))
  | .finite false rank => some (unitsOf rank)
  | _ => none

def toInt? (x : Number) : Option Int :=
  match x.units? with
  | some u => if u % (one : Int) = 0 then some (u / (one : Int)) else none
  | none => none

def isFinite : Number -> Bool
  | .finite _ _ => true
  | _ => false

def isNaN : Number -> Bool
  | .nan => true
  | _ => false

def isInteger (x : Number) : Bool :=
  x.toInt?.isSome

/-- The sign bit; the sign of NaN does not show. -/
def isNegative : Number -> Bool
  | .nan => false
  | .infinity negative => negative
  | .finite negative _ => negative

/-! ## Order

Order and equality go by signed rank, so the two zeros are equal; NaN is related
to nothing, itself included. -/

/-- The place in the order, infinities included. -/
def place? : Number -> Option Int
  | .nan => none
  | .infinity true => some (-(ranks : Int))
  | .infinity false => some ranks
  | .finite true rank => some (-(rank.val : Int))
  | .finite false rank => some rank.val

def le (x y : Number) : Bool :=
  match x.place?, y.place? with
  | some a, some b => decide (a ≤ b)
  | _, _ => false

def lt (x y : Number) : Bool :=
  match x.place?, y.place? with
  | some a, some b => decide (a < b)
  | _, _ => false

/-- Equality of the values that two numbers stand for. -/
def equals (x y : Number) : Bool :=
  match x.place?, y.place? with
  | some a, some b => decide (a = b)
  | _, _ => false

/-! ## Arithmetic -/

def neg : Number -> Number
  | .nan => .nan
  | .infinity negative => .infinity (!negative)
  | .finite negative rank => .finite (!negative) rank

/-- The number nearest to so many signed units; a zero has the sign asked for. -/
def ofUnits (zeroNegative : Bool) (u : Int) : Number :=
  round (if u = 0 then zeroNegative else u < 0) u.natAbs 1

def add : Number -> Number -> Number
  | .nan, _ => .nan
  | _, .nan => .nan
  | .infinity a, .infinity b => if a = b then .infinity a else .nan
  | .infinity a, _ => .infinity a
  | _, .infinity b => .infinity b
  | .finite a i, .finite b j =>
      let signed := fun (negative : Bool) (rank : Nat) =>
        if negative then -(unitsOf rank : Int) else (unitsOf rank : Int)
      ofUnits (a && b) (signed a i + signed b j)

def sub (x y : Number) : Number :=
  x.add y.neg

def mul : Number -> Number -> Number
  | .nan, _ => .nan
  | _, .nan => .nan
  | .infinity a, .infinity b => .infinity (a != b)
  | .infinity a, .finite b j => if j.val = 0 then .nan else .infinity (a != b)
  | .finite a i, .infinity b => if i.val = 0 then .nan else .infinity (a != b)
  | .finite a i, .finite b j => round (a != b) (unitsOf i * unitsOf j) one

def div : Number -> Number -> Number
  | .nan, _ => .nan
  | _, .nan => .nan
  | .infinity _, .infinity _ => .nan
  | .infinity a, .finite b _ => .infinity (a != b)
  | .finite a _, .infinity b => .zero (a != b)
  | .finite a i, .finite b j =>
      if j.val = 0 then (if i.val = 0 then .nan else .infinity (a != b))
      else round (a != b) (unitsOf i * one) (unitsOf j)

/-! ## Whole parts

Each of these goes to a whole number in the direction its name says.  A result of
zero keeps the sign of the argument. -/

def wholeBy (choose : Int -> Int) : Number -> Number
  | .finite negative rank =>
      let u := if negative then -(unitsOf rank : Int) else (unitsOf rank : Int)
      ofUnits negative (choose u * one)
  | x => x

def floor : Number -> Number :=
  wholeBy fun u => u / (one : Int)

def ceil : Number -> Number :=
  wholeBy fun u => -(-u / (one : Int))

def truncate : Number -> Number :=
  wholeBy fun u => u.tdiv (one : Int)

/-- The nearest whole number, a half going up. -/
def roundHalfUp : Number -> Number :=
  wholeBy fun u => (2 * u + one) / (2 * one : Int)

/-- The greater number; NaN wins over all. -/
def max (x y : Number) : Number :=
  if x.isNaN || y.isNaN then .nan
  else if x.lt y then y
  else if x.equals y && x.isNegative then y
  else x

def min (x y : Number) : Number :=
  if x.isNaN || y.isNaN then .nan
  else if y.lt x then y
  else if x.equals y && y.isNegative then y
  else x

end Number

end OperatorConsole
