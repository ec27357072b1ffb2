/-
  ArtGrammar.Single.Bits
  ────────────────────────────────
  **THE INTERCHANGE WORD OF A BINARY32 NUMBER.**

  The top bit of the 32-bit word is the sign; the other 31 bits, read as a
  number, ARE the rank.  The rank just past the finite ones stands for
  infinity, every larger one for not-a-number.
-/
import ArtGrammar.Single.Basic

namespace ArtGrammar.Single

/-- The value that a word stands for. -/
def ofBits (word : UInt32) : Single :=
  let neg := decide (0x80000000 ≤ word.toNat)
  let rank := word.toNat % 0x80000000
  if h : rank < finiteRanks then .finite neg ⟨rank, h⟩
  else if rank = finiteRanks then .infinite neg
  else .nan

/-- The word of a value; not-a-number gets the quiet positive pattern. -/
def toBits : Single → UInt32
  | .nan => 0x7fc00000
  | .infinite neg => signBit neg ||| 0x7f800000
  | .finite neg rank => signBit neg ||| UInt32.ofNat rank
where
  signBit (neg : Bool) : UInt32 := if neg then 0x80000000 else 0

end ArtGrammar.Single
