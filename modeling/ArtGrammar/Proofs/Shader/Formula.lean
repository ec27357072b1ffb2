/-
  ArtGrammar.Proofs.Shader.Formula
  ────────────────────────────────
  **THE FORMULAS THAT A SHADER DECLARES ITS VARIABLES WITH.**

  Around an expression a shader computes with the places it is given, in
  arithmetic that groups to the left:

      strength 2    *  /       `.`, sin( ) and parentheses bind tighter
      strength 1    +  -

  Formulas are read by a machine that takes one lexeme at a time, like the terms
  of expressions.  What a place holds is left open; a scalar stands beside a
  vector for the vector of equal lanes.
-/
import ArtGrammar.Proofs.Shader.Lexeme
import ArtGrammar.Proofs.Shader.Term

namespace ArtGrammar.Shading

/-! ## §1. Formulas. -/

/-- The operations of a formula. -/
inductive Operation where
  | plus
  | minus
  | times
  | over
  deriving DecidableEq, Repr

namespace Operation

/-- The operation that a sign stands for. -/
def ofSign? : Char → Option Operation
  | '+' => some .plus
  | '-' => some .minus
  | '*' => some .times
  | '/' => some .over
  | _ => none

/-- The operation of greater strength takes its operands first. -/
def strength : Operation → Nat
  | .times => 2
  | .over => 2
  | .plus => 1
  | .minus => 1

/-- The operation on numbers. -/
def apply : Operation → Single → Single → Single
  | .plus => (· + ·)
  | .minus => (· - ·)
  | .times => (· * ·)
  | .over => (· / ·)

end Operation

/-- Parsed formulas. -/
inductive Formula where
  | number (value : Single)
  /-- A name, or a member of what a name stands for. -/
  | place (path : String)
  | sine (inner : Formula)
  | binary (op : Operation) (left right : Formula)
  deriving DecidableEq, Repr

namespace Formula

/-- The value of a formula, where the places hold the given values. -/
def value? (places : String → Option Value) : Formula → Option Value
  | .number v => some (.scalar v)
  | .place path => places path
  | .sine a =>
    match a.value? places with
    | some (.scalar v) => some (.scalar v.sin)
    | _ => none
  | .binary op a b =>
    (a.value? places).bind fun v => (b.value? places).bind fun w => lanewise op.apply v w

/-! ## §2. Parsing. -/

/-- What is open until a formula or a closing parenthesis comes. -/
inductive Frame where
  | group
  | sine
  /-- An operation with its left operand. -/
  | left (a : Formula) (op : Operation)
  deriving DecidableEq, Repr

/-- Where the parser stands, above the frames that are open, the inmost first. -/
inductive State where
  /-- A formula has to come. -/
  | wants (stack : List Frame)
  /-- The parenthesis of a sine has to come. -/
  | called (stack : List Frame)
  /-- The name of a member has to come. -/
  | member (path : String) (stack : List Frame)
  /-- A formula has been read. -/
  | holds (a : Formula) (stack : List Frame)
  deriving DecidableEq, Repr

/-- Closes the operations that are at least as strong. -/
def settle (strength : Nat) : Formula → List Frame → Formula × List Frame
  | a, .left b op :: stack =>
    if strength ≤ op.strength then settle strength (.binary op b a) stack
    else (a, .left b op :: stack)
  | a, stack => (a, stack)

/-- Closes a parenthesis. -/
def close (a : Formula) (stack : List Frame) : Option State :=
  match settle 0 a stack with
  | (a, .group :: stack) => some (.holds a stack)
  | (a, .sine :: stack) => some (.holds (.sine a) stack)
  | _ => none

/-- Takes one lexeme. -/
def step : State → Lexeme → Option State
  | .wants stack, .number v => some (.holds (.number v) stack)
  | .wants stack, .word word =>
    if word = "sin" then some (.called stack) else some (.holds (.place word) stack)
  | .wants stack, .sign '(' => some (.wants (.group :: stack))
  | .called stack, .sign '(' => some (.wants (.sine :: stack))
  | .holds (.place path) stack, .sign '.' => some (.member path stack)
  | .member path stack, .word name => some (.holds (.place (path ++ "." ++ name)) stack)
  | .holds a stack, .sign ')' => close a stack
  -- what is as strong as the operation takes the formula first: to the left
  | .holds a stack, .sign c =>
    (Operation.ofSign? c).map fun op =>
      let (a, stack) := settle op.strength a stack
      .wants (.left a op :: stack)
  | _, _ => none

/-- Takes lexemes one after the other. -/
def run : State → List Lexeme → Option State
  | s, [] => some s
  | s, lexeme :: lexemes => (step s lexeme).bind fun s => run s lexemes

/-- The formula that lexemes make up. -/
def parse? (lexemes : List Lexeme) : Option Formula :=
  match run (.wants []) lexemes with
  | some (.holds a stack) =>
    match settle 0 a stack with
    | (a, []) => some a
    | _ => none
  | _ => none

/-- The formula that a text is. -/
def ofText? (text : String) : Option Formula := (lexemes? text.toList).bind parse?

/-- The parser takes a lexeme and goes on. -/
theorem run_cons {s s' : State} {lexeme : Lexeme} {lexemes : List Lexeme} {r : Option State}
    (hstep : step s lexeme = some s') (hrun : run s' lexemes = r) :
    run s (lexeme :: lexemes) = r := by
  unfold run
  rw [hstep]
  exact hrun

theorem step_word {word : String} (hsine : word ≠ "sin") (stack : List Frame) :
    step (.wants stack) (.word word) = some (.holds (.place word) stack) := by
  unfold step
  exact if_neg hsine

/-- A dot and a name go down into what a place holds. -/
theorem run_member {path name : String} {stack : List Frame} (more : List Lexeme) :
    run (.holds (.place path) stack) (.sign '.' :: .word name :: more)
      = run (.holds (.place (path ++ "." ++ name)) stack) more := by
  have hdot : step (.holds (.place path) stack) (.sign '.') = some (.member path stack) := rfl
  exact run_cons hdot (run_cons rfl rfl)

end Formula

/-! ## §3. Reading lexemes. -/

theorem lexemes?_space {s : List Char} {more : List Lexeme} (hs : lexemes? s = some more) :
    lexemes? (' ' :: s) = some more := by
  rw [lexemes?_blank (by decide)]
  exact hs

/-- A word is a lexeme up to the first character that does not go on with it. -/
theorem lexemes?_word {w : String} (hw : isWord w = true) {rest : List Char} {more : List Lexeme}
    (hrest : ∀ c ∈ rest.head?, isWordRest c = false) (hmore : lexemes? rest = some more) :
    lexemes? (w.toList ++ rest) = some (.word w :: more) := by
  obtain ⟨c, s, hchars, hc, hall⟩ := exists_of_isWord hw
  obtain ⟨htake, hdrop⟩ := takeWhile_append_of_stop hall hrest
  have hread : readLexeme (c :: (s ++ rest)) = some (.word w, rest) := by
    rw [List.cons_append] at htake hdrop
    rw [readLexeme_word hc, htake, hdrop, ← hchars, String.ofList_toList]
  rw [hchars, List.cons_append]
  apply lexemes?_of_readLexeme (isWhitespace_of_isWordRest (isWordRest_of_isWordStart hc)) hread _
    hmore
  rw [List.length_cons, List.length_append]
  omega

/-- A proper numeral is a lexeme, the number that it denotes. -/
theorem lexemes?_numeral {n : Numeral} (hn : n.Proper) {rest : List Char} {more : List Lexeme}
    (hrest : Breaks rest) (hmore : lexemes? rest = some more) :
    lexemes? (n.chars false ++ rest)
      = some (.number (Single.ofDecimal false n.decimal) :: more) := by
  obtain ⟨c, t, hchars, hdigit⟩ := Numeral.exists_digit_chars hn false
  have hread : readLiteral false (n.chars false ++ rest)
      = some (.number (Single.ofDecimal false n.decimal), rest) := by
    unfold readLiteral
    rw [Numeral.read_chars hn hrest.ends]
    rfl
  rw [hchars, List.cons_append] at hread ⊢
  apply lexemes?_of_readLexeme (isWhitespace_of_isWordRest (isWordRest_of_isDigit hdigit))
    ((readLexeme_digit hdigit).trans hread) _ hmore
  rw [List.length_cons, List.length_append]
  omega

/-! ## §4. Places. -/

/-- The text is read as a place, whatever is open before it. -/
def IsPlace (path : String) : Prop :=
  ∃ lexemes, (∀ rest more, Breaks rest → lexemes? rest = some more →
      lexemes? (path.toList ++ rest) = some (lexemes ++ more))
    ∧ ∀ stack more, Formula.run (.wants stack) (lexemes ++ more)
        = Formula.run (.holds (.place path) stack) more

theorem Breaks.isWordRest {rest : List Char} (h : Breaks rest) :
    ∀ c ∈ rest.head?, isWordRest c = false :=
  fun c hc => (h c hc).1

/-- A word that is no function is a place, -/
theorem isPlace_word {w : String} (hw : isWord w = true) (hsine : w ≠ "sin") : IsPlace w := by
  refine ⟨[.word w], fun rest more hrest hmore => ?_, fun stack more => ?_⟩
  · exact lexemes?_word hw hrest.isWordRest hmore
  · exact Formula.run_cons (Formula.step_word hsine stack) rfl

/-- and so is a member of it. -/
theorem isPlace_member (w name : String) (hw : isWord w = true) (hname : isWord name = true)
    (hsine : w ≠ "sin") : IsPlace (w ++ "." ++ name) := by
  refine ⟨[.word w, .sign '.', .word name], fun rest more hrest hmore => ?_, fun stack more => ?_⟩
  · have htext : (w ++ "." ++ name).toList ++ rest = w.toList ++ '.' :: (name.toList ++ rest) := by
      simp
    rw [htext]
    apply lexemes?_word hw
    · intro c hc
      cases hc
      decide
    · apply lexemes?_sign (by decide)
      exact lexemes?_word hname hrest.isWordRest hmore
  · exact Formula.run_cons (Formula.step_word hsine stack) (Formula.run_member more)

end ArtGrammar.Shading
