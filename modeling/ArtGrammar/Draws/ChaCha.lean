/-
  ArtGrammar.Draws.ChaCha
  ────────────────────────────────
  **THE TAPE OF A SEED.**

  A 64-bit seed is stretched to a 256-bit key, and the key to an endless tape by
  the ChaCha stream with twelve rounds: the words of the blocks with counter
  0, 1, 2, … one after the other.

  The sixteen words of a block are four ROWS of four.  A round works on the four
  columns at once, row against row; turning the rows by 0, 1, 2 and 3 places
  brings the diagonals into the columns for every second round.
-/
import ArtGrammar.Draws.Tape

namespace ArtGrammar

namespace ChaCha

/-! ## §1. Rows. -/

/-- Four words. -/
structure Row where
  w0 : UInt32
  w1 : UInt32
  w2 : UInt32
  w3 : UInt32
  deriving DecidableEq, Repr

namespace Row

/-- Applies a function to every word. -/
def map (f : UInt32 → UInt32) (r : Row) : Row := ⟨f r.w0, f r.w1, f r.w2, f r.w3⟩

/-- Combines two rows word by word. -/
def zip (f : UInt32 → UInt32 → UInt32) (r s : Row) : Row :=
  ⟨f r.w0 s.w0, f r.w1 s.w1, f r.w2 s.w2, f r.w3 s.w3⟩

/-- Moves every word one place to the left, the first to the end. -/
def turn (r : Row) : Row := ⟨r.w1, r.w2, r.w3, r.w0⟩

/-- The words as a list. -/
def toList (r : Row) : List UInt32 := [r.w0, r.w1, r.w2, r.w3]

end Row

/-- The word with its bits moved `n` places up, those at the top coming in at
the bottom. -/
def rotateLeft (w n : UInt32) : UInt32 := (w <<< n) ||| (w >>> (32 - n))

/-! ## §2. Rounds. -/

/-- The sixteen words of a block. -/
structure State where
  a : Row
  b : Row
  c : Row
  d : Row
  deriving DecidableEq, Repr

/-- A quarter round on every column. -/
def columns (s : State) : State :=
  let a := s.a.zip (· + ·) s.b
  let d := (s.d.zip (· ^^^ ·) a).map (rotateLeft · 16)
  let c := s.c.zip (· + ·) d
  let b := (s.b.zip (· ^^^ ·) c).map (rotateLeft · 12)
  let a := a.zip (· + ·) b
  let d := (d.zip (· ^^^ ·) a).map (rotateLeft · 8)
  let c := c.zip (· + ·) d
  let b := (b.zip (· ^^^ ·) c).map (rotateLeft · 7)
  ⟨a, b, c, d⟩

/-- A round on the columns and one on the diagonals. -/
def doubleRound (s : State) : State :=
  let s := columns s
  let s := columns ⟨s.a, s.b.turn, s.c.turn.turn, s.d.turn.turn.turn⟩
  ⟨s.a, s.b.turn.turn.turn, s.c.turn.turn, s.d.turn⟩

/-- Six double rounds. -/
def scramble (s : State) : State :=
  Nat.repeat doubleRound 6 s

/-- The rows that hold the key. -/
structure Key where
  low : Row
  high : Row
  deriving DecidableEq, Repr

/-- The block of the given counter, before scrambling. -/
def initial (key : Key) (counter : UInt64) : State :=
  { a := ⟨0x61707865, 0x3320646e, 0x79622d32, 0x6b206574⟩
    b := key.low
    c := key.high
    d := ⟨counter.toUInt32, (counter >>> 32).toUInt32, 0, 0⟩ }

/-- The sixteen words of the block of the given counter. -/
def block (key : Key) (counter : UInt64) : List UInt32 :=
  let s := initial key counter
  let t := scramble s
  (t.a.zip (· + ·) s.a).toList ++ (t.b.zip (· + ·) s.b).toList
    ++ (t.c.zip (· + ·) s.c).toList ++ (t.d.zip (· + ·) s.d).toList

/-- The word of the stream at a position. -/
def wordAt (key : Key) (i : Nat) : UInt32 :=
  (block key (UInt64.ofNat (i / 16))).getD (i % 16) 0

/-! ## §3. Seeds. -/

/-- The next state of the linear sequence that stretches a seed. -/
def advance (s : UInt64) : UInt64 := s * 6364136223846793005 + 11634580027462260723

/-- The key word of a state: folded to 32 bits and rotated right by the top five
bits. -/
def output (s : UInt64) : UInt32 :=
  let x := (((s >>> 18) ^^^ s) >>> 27).toUInt32
  let turn := (s >>> 59).toUInt32
  (x >>> turn) ||| (x <<< ((32 - turn) % 32))

/-- The key of a seed. -/
def keyOfSeed (seed : UInt64) : Key :=
  let s0 := advance seed
  let s1 := advance s0
  let s2 := advance s1
  let s3 := advance s2
  let s4 := advance s3
  let s5 := advance s4
  let s6 := advance s5
  let s7 := advance s6
  { low := ⟨output s0, output s1, output s2, output s3⟩
    high := ⟨output s4, output s5, output s6, output s7⟩ }

end ChaCha

/-- The endless tape of a seed. -/
def Tape.ofSeed (seed : UInt64) : Tape := Tape.endless (ChaCha.wordAt (ChaCha.keyOfSeed seed))

end ArtGrammar
