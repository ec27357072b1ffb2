/-
  ArtGrammar.Draws.Tape
  ────────────────────────────────
  **COMPUTATIONS THAT DRAW RANDOM WORDS.**

  Randomness is a TAPE: the word at each position, or nothing past the end of a
  finite tape.  A drawing computation reads the tape from a position on and
  answers the position behind the last word it read, whether it finishes or
  halts; so the number of words drawn is a difference of positions, and two
  tapes that agree on the words drawn cannot be told apart.
-/
import ArtGrammar.Fault

namespace ArtGrammar

/-! ## §1. Tapes. -/

/-- The word at each position, as far as there is one. -/
abbrev Tape := Nat → Option UInt32

namespace Tape

/-- The tape that ends after the listed words. -/
def ofList (words : List UInt32) : Tape := fun i => words[i]?

/-- The tape that repeats the listed words without end; of no words it is
blank. -/
def cycle (words : List UInt32) : Tape := fun i => words[i % words.length]?

/-- The tape without an end. -/
def endless (word : Nat → UInt32) : Tape := fun i => some (word i)

end Tape

/-! ## §2. Drawing. -/

/-- Why a computation stops without a result. -/
inductive Halt where
  | fault (cause : Fault)
  /-- The tape has no word at the position. -/
  | dry
  /-- The limit on nested expansions is reached. -/
  | unfinished
  /-- A budget does not fit into its bits. -/
  | overflow
  deriving DecidableEq, Repr

/-- A computation that reads a tape from a position on. -/
structure Drawing (α : Type) where
  run : Tape → Nat → Except Halt α × Nat

namespace Drawing

instance : Monad Drawing where
  pure a := ⟨fun _ i => (.ok a, i)⟩
  bind d next := ⟨fun tape i =>
    match d.run tape i with
    | (.ok a, j) => (next a).run tape j
    | (.error h, j) => (.error h, j)⟩

/-- Stops. -/
def halt {α : Type} (h : Halt) : Drawing α := ⟨fun _ i => (.error h, i)⟩

/-- Stops with a fault. -/
def fail {α : Type} (cause : Fault) : Drawing α := halt (.fault cause)

/-- Goes on with the value, or stops with the fault. -/
def ofExcept {α : Type} : Except Fault α → Drawing α
  | .ok a => pure a
  | .error cause => fail cause

/-- The word at the position. -/
def word : Drawing UInt32 :=
  ⟨fun tape i => match tape i with
    | some w => (.ok w, i + 1)
    | none => (.error .dry, i)⟩

@[simp] theorem run_pure {α : Type} (a : α) (tape : Tape) (i : Nat) :
    (pure a : Drawing α).run tape i = (.ok a, i) := rfl

@[simp] theorem run_halt {α : Type} (h : Halt) (tape : Tape) (i : Nat) :
    (halt h : Drawing α).run tape i = (.error h, i) := rfl

theorem run_word_of_some {tape : Tape} {i : Nat} {w : UInt32} (h : tape i = some w) :
    word.run tape i = (.ok w, i + 1) := by
  simp [word, h]

/-- A computation that finishes hands its result and its position on. -/
theorem run_bind_of_ok {α β : Type} {d : Drawing α} {next : α → Drawing β} {tape : Tape}
    {i j : Nat} {a : α} (h : d.run tape i = (.ok a, j)) :
    (d >>= next).run tape i = (next a).run tape j := by
  simp [bind, h]

/-- A computation that halts is the end of every computation it begins. -/
theorem run_bind_of_error {α β : Type} {d : Drawing α} {next : α → Drawing β} {tape : Tape}
    {i j : Nat} {stop : Halt} (h : d.run tape i = (.error stop, j)) :
    (d >>= next).run tape i = (.error stop, j) := by
  simp [bind, h]

end Drawing

/-! ## §3. Numbers drawn. -/

/-- The number in `[0, 1)` of a word: its top 24 bits as a fraction. -/
def unitOfWord (w : UInt32) : Single := Single.ofRatio false (w >>> 8).toNat 0x1000000

/-- The number in `[-1, 1)` of a word. -/
def signedOfWord (w : UInt32) : Single := unitOfWord w * 2 - 1

namespace Drawing

/-- Draws a number in `[0, 1)`. -/
def unit : Drawing Single := do return unitOfWord (← word)

/-- Draws a number in `[-1, 1)`. -/
def signed : Drawing Single := do return signedOfWord (← word)

/-- Draws `n` times. -/
def times {α : Type} (n : Nat) (d : Drawing α) : Drawing (List α) :=
  match n with
  | 0 => pure []
  | n + 1 => do
    let first ← d
    let rest ← times n d
    return first :: rest

end Drawing

end ArtGrammar
