/-
  ArtGrammar.Single.Basic
  ────────────────────────────────
  **BINARY32 NUMBERS BY RANK.**

  The finite magnitudes of binary32 are numbered upward from zero; the number
  of a magnitude is its RANK, and a finite value is a sign and a rank.  The
  order of magnitudes is the order of ranks, and the neighbours of a value are
  the values one rank away.  Magnitudes themselves are counted in the smallest
  positive one, 2 ^ -149, so that every finite value is a whole number of
  UNITS and exact arithmetic happens in `Nat` and `Int`:

      rank   0 … 2^23            units = rank
      rank   e·2^23 + f, 1 ≤ e   units = (2^23 + f) · 2^(e-1)

  There is ONE rounding, `nearestRank`: the rank nearest to a quotient of
  units, ties to the even rank.  Sums and remainders are exact in units,
  products and quotients are one quotient of units; each operation rounds
  once.
-/

namespace ArtGrammar

/-! ## §1. The values. -/

/-- The number of finite magnitudes.  As a rank it is the place just past the
largest finite magnitude, where a rounded result overflows. -/
abbrev finiteRanks : Nat := 0x7f800000

/-- The number of ranks from one power of two to the next. -/
abbrev binade : Nat := 0x800000

/-- The number of units in one. -/
abbrev unitsPerOne : Nat := Nat.pow 2 149

/-- A binary32 value, with a single not-a-number. -/
inductive Single where
  /-- The result of an operation without a value. -/
  | nan
  /-- A signed infinity. -/
  | infinite (neg : Bool)
  /-- The signed magnitude of the given rank; rank zero gives the two zeros. -/
  | finite (neg : Bool) (rank : Fin finiteRanks)
  deriving DecidableEq, Repr

/-- The magnitude at rank `r`, in units of 2 ^ -149.  At `finiteRanks` it is
the magnitude that would follow the largest finite one. -/
def unitsAt (r : Nat) : Nat :=
  if r < binade then r else (binade + r % binade) * Nat.pow 2 (r / binade - 1)

/-! ## §2. Rounding. -/

/-- The integer nearest to `num / den`, the even one of two equally near. -/
def roundHalfEven (num den : Nat) : Nat :=
  let q := num / den
  let r := num % den
  if 2 * r < den then q else if den < 2 * r then q + 1 else q + q % 2

/-- The rank nearest to `num / den` units.  With `e` the exponent of the step
between neighbours there, the quotient is rounded to a multiple of 2 ^ e; that
multiple, at most 2 ^ 24, counts ranks upward from `e * binade`, also where it
reaches the next power of two. -/
def nearestRank (num den : Nat) : Nat :=
  let e := (num / den).log2 - 23
  e * binade + roundHalfEven num (den * Nat.pow 2 e)

namespace Single

/-- The value of the given sign nearest to `num / den` units, infinite past the
largest finite magnitude. -/
def ofUnits (neg : Bool) (num den : Nat) : Single :=
  if h : nearestRank num den < finiteRanks then
    .finite neg ⟨nearestRank num den, h⟩
  else
    .infinite neg

/-- The value of the given sign nearest to `num / den`. -/
def ofRatio (neg : Bool) (num den : Nat) : Single :=
  ofUnits neg (num * unitsPerOne) den

/-- The signed zero. -/
def zero (neg : Bool) : Single := .finite neg ⟨0, by decide⟩

/-- The value nearest to a natural number. -/
def ofNat (n : Nat) : Single := ofRatio false n 1

instance (n : Nat) : OfNat Single n := ⟨ofNat n⟩

/-! ## §3. Sign, finiteness and order. -/

/-- Signed units of a finite value. -/
def signed (neg : Bool) (units : Nat) : Int := if neg then -units else units

/-- The same value with the other sign. -/
def neg : Single → Single
  | .nan => .nan
  | .infinite s => .infinite !s
  | .finite s r => .finite (!s) r

/-- The same magnitude with a positive sign. -/
def abs : Single → Single
  | .nan => .nan
  | .infinite _ => .infinite false
  | .finite _ r => .finite false r

/-- Whether the value is neither infinite nor not-a-number. -/
def isFinite : Single → Bool
  | .finite .. => true
  | _ => false

/-- The place of a value on the number line, counted in ranks: both zeros are
at 0, the infinities at the two ends, and not-a-number has no place. -/
def place : Single → Option Int
  | .nan => none
  | .infinite s => some (signed s finiteRanks)
  | .finite s r => some (signed s r)

/-- Compares by place; nothing holds of not-a-number. -/
def compares (rel : Int → Int → Bool) (a b : Single) : Bool :=
  match a.place, b.place with
  | some i, some j => rel i j
  | _, _ => false

instance : LE Single := ⟨fun a b => a.compares (fun i j => decide (i ≤ j)) b = true⟩
instance : LT Single := ⟨fun a b => a.compares (fun i j => decide (i < j)) b = true⟩
instance (a b : Single) : Decidable (a ≤ b) := inferInstanceAs (Decidable (_ = true))
instance (a b : Single) : Decidable (a < b) := inferInstanceAs (Decidable (_ = true))

/-- Numeric equality: the two zeros are equal, not-a-number differs from
everything. -/
def numEq (a b : Single) : Bool := a.compares (fun i j => decide (i = j)) b

/-! ## §4. Arithmetic. -/

/-- Sum.  A sum of exactly zero is negative only if both operands are. -/
def add : Single → Single → Single
  | .nan, _ => .nan
  | _, .nan => .nan
  | .infinite s, .infinite t => if s = t then .infinite s else .nan
  | .infinite s, .finite .. => .infinite s
  | .finite .., .infinite t => .infinite t
  | .finite s a, .finite t b =>
    let total := signed s (unitsAt a) + signed t (unitsAt b)
    if total = 0 then zero (s && t) else ofUnits (decide (total < 0)) total.natAbs 1

/-- Difference: the sum with the negated operand. -/
def sub (a b : Single) : Single := a.add b.neg

/-- Product.  Zero times an infinity has no value. -/
def mul : Single → Single → Single
  | .nan, _ => .nan
  | _, .nan => .nan
  | .infinite s, .infinite t => .infinite (s != t)
  | .infinite s, .finite t b => if b.val = 0 then .nan else .infinite (s != t)
  | .finite s a, .infinite t => if a.val = 0 then .nan else .infinite (s != t)
  | .finite s a, .finite t b => ofUnits (s != t) (unitsAt a * unitsAt b) unitsPerOne

/-- Quotient.  A nonzero value over zero is infinite; zero over zero and an
infinity over an infinity have no value. -/
def div : Single → Single → Single
  | .nan, _ => .nan
  | _, .nan => .nan
  | .infinite _, .infinite _ => .nan
  | .infinite s, .finite t _ => .infinite (s != t)
  | .finite s _, .infinite t => zero (s != t)
  | .finite s a, .finite t b =>
    if b.val = 0 then
      if a.val = 0 then .nan else .infinite (s != t)
    else
      ofUnits (s != t) (unitsAt a * unitsPerOne) (unitsAt b)

/-- Remainder of the quotient truncated toward zero.  It is exact and has the
sign of the dividend. -/
def rem : Single → Single → Single
  | .nan, _ => .nan
  | _, .nan => .nan
  | .infinite _, _ => .nan
  | .finite s a, .infinite _ => .finite s a
  | .finite s a, .finite _ b =>
    if b.val = 0 then .nan else ofUnits s (unitsAt a % unitsAt b) 1

instance : Add Single := ⟨add⟩
instance : Sub Single := ⟨sub⟩
instance : Mul Single := ⟨mul⟩
instance : Div Single := ⟨div⟩
instance : Mod Single := ⟨rem⟩
instance : Neg Single := ⟨neg⟩

/-! ## §5. Rounding to a byte. -/

/-- The nearest byte, halves away from zero; values outside the range of bytes
go to its ends and not-a-number to zero. -/
def toByte : Single → UInt8
  | .nan => 0
  | .infinite neg => if neg then 0 else 255
  | .finite neg r =>
    if neg then 0 else UInt8.ofNat (min 255 ((2 * unitsAt r + unitsPerOne) / (2 * unitsPerOne)))

end Single

end ArtGrammar
