/-
  ArtGrammar.Proofs.Shader.Lexeme
  ────────────────────────────────
  **THE LEXEMES OF ANY SHADER TEXT.**

  Whole shaders have more signs than expressions do.  A LEXEME is a word, a
  number literal with its sign, or any other character alone; white space is
  dropped:

      (x >= -1.0)      (   x   >   =   -1.0   )

  Each token of an expression is one lexeme, only `>=` is two, so what reads as
  tokens reads as their lexemes.
-/
import ArtGrammar.Proofs.Shader.Token

namespace ArtGrammar.Shading

/-! ## §1. Lexemes. -/

/-- The pieces of a shader text. -/
inductive Lexeme where
  | word (text : String)
  | number (value : Single)
  | sign (c : Char)
  deriving DecidableEq, Repr

/-- Whether a text begins with a digit. -/
def beginsWithDigit : List Char → Bool
  | [] => false
  | c :: _ => c.isDigit

/-- Reads a numeral as a number of the given sign. -/
def readLiteral (neg : Bool) (s : List Char) : Option (Lexeme × List Char) :=
  (Numeral.read false s).map fun r => (.number (Single.ofDecimal neg r.1.decimal), r.2)

/-- Reads the lexeme at the front of a text.  A minus sign belongs to the literal
right behind it. -/
def readLexeme : List Char → Option (Lexeme × List Char)
  | [] => none
  | c :: s =>
    if c.isDigit then readLiteral false (c :: s)
    else if c = '-' ∧ beginsWithDigit s then readLiteral true s
    else if isWordStart c then
      some (.word (String.ofList ((c :: s).takeWhile isWordRest)), (c :: s).dropWhile isWordRest)
    else some (.sign c, s)

/-- The lexemes of a text, unless a number in it is broken off. -/
def lexemes? : List Char → Option (List Lexeme)
  | [] => some []
  | c :: s =>
    if c.isWhitespace then lexemes? s
    else
      match readLexeme (c :: s) with
      | none => none
      | some (lexeme, rest) =>
        if rest.length < (c :: s).length then (lexemes? rest).map (lexeme :: ·) else none
termination_by s => s.length
decreasing_by
  · exact Nat.lt_succ_self s.length
  · assumption

/-! ## §2. One lexeme. -/

theorem lexemes?_nil : lexemes? [] = some [] := by
  unfold lexemes?
  rfl

theorem lexemes?_blank {c : Char} {s : List Char} (hc : c.isWhitespace = true) :
    lexemes? (c :: s) = lexemes? s := by
  conv => lhs; unfold lexemes?
  rw [if_pos hc]

/-- A lexeme stands before those of the rest. -/
theorem lexemes?_of_readLexeme {c : Char} {s rest : List Char} {lexeme : Lexeme}
    {more : List Lexeme} (hc : c.isWhitespace = false)
    (hread : readLexeme (c :: s) = some (lexeme, rest)) (hlt : rest.length < (c :: s).length)
    (hrest : lexemes? rest = some more) : lexemes? (c :: s) = some (lexeme :: more) := by
  unfold lexemes?
  rw [hc, hread]
  simp only [Bool.false_eq_true, if_false]
  rw [if_pos hlt, hrest]
  rfl

theorem readLexeme_digit {c : Char} {s : List Char} (hc : c.isDigit = true) :
    readLexeme (c :: s) = readLiteral false (c :: s) :=
  if_pos hc

theorem readLexeme_minus {s : List Char} (hs : beginsWithDigit s = true) :
    readLexeme ('-' :: s) = readLiteral true s :=
  if_pos ⟨rfl, hs⟩

theorem readLexeme_word {c : Char} {s : List Char} (hc : isWordStart c = true) :
    readLexeme (c :: s) = some
      (.word (String.ofList ((c :: s).takeWhile isWordRest)), (c :: s).dropWhile isWordRest) := by
  have hdigit : ¬ c.isDigit = true := by
    rw [isDigit_of_isWordStart hc]
    decide
  have hminus : c ≠ '-' := ne_of_class hc (by decide)
  exact (if_neg hdigit).trans ((if_neg fun h => hminus h.1).trans (if_pos hc))

/-- The character stands alone wherever it is: it begins neither a word nor a
number, and is no minus sign. -/
def isLoneSign (c : Char) : Bool := !c.isWhitespace && !isWordRest c && c != '-'

/-- What goes on no word begins none, and no number. -/
theorem readLexeme_sign {c : Char} {s : List Char} (hc : isWordRest c = false)
    (hminus : ¬ (c = '-' ∧ beginsWithDigit s = true)) :
    readLexeme (c :: s) = some (.sign c, s) := by
  have hdigit : ¬ c.isDigit = true := by
    intro h
    rw [isWordRest_of_isDigit h] at hc
    cases hc
  have hstart : ¬ isWordStart c = true := by
    intro h
    rw [isWordRest_of_isWordStart h] at hc
    cases hc
  exact (if_neg hdigit).trans ((if_neg hminus).trans (if_neg hstart))

theorem lexemes?_sign {c : Char} {s : List Char} {more : List Lexeme} (hc : isLoneSign c = true)
    (hs : lexemes? s = some more) : lexemes? (c :: s) = some (.sign c :: more) := by
  unfold isLoneSign at hc
  simp only [Bool.and_eq_true, Bool.not_eq_true', bne_iff_ne] at hc
  obtain ⟨⟨hspace, hrest⟩, hminus⟩ := hc
  exact lexemes?_of_readLexeme hspace (readLexeme_sign hrest fun h => hminus h.1)
    (Nat.lt_succ_self _) hs

/-- A minus sign stands alone unless a digit follows it. -/
theorem lexemes?_minus {s : List Char} {more : List Lexeme} (hdigit : beginsWithDigit s = false)
    (hs : lexemes? s = some more) : lexemes? ('-' :: s) = some (.sign '-' :: more) := by
  apply lexemes?_of_readLexeme (by decide) (readLexeme_sign (by decide) _) (Nat.lt_succ_self _) hs
  rw [hdigit]
  decide

/-! ## §3. From tokens to lexemes. -/

/-- The lexemes that a token is written with. -/
def Token.lexemes : Token → List Lexeme
  | .word text => [.word text]
  | .number v => [.number v]
  | .opening => [.sign '(']
  | .closing => [.sign ')']
  | .comma => [.sign ',']
  | .bang => [.sign '!']
  | .operator (.arith .add) => [.sign '+']
  | .operator (.arith .mult) => [.sign '*']
  | .operator (.arith .mod) => [.sign '%']
  | .operator .ge => [.sign '>', .sign '=']

/-- The signs of expressions are the lexemes of their tokens. -/
theorem lexemes_of_sign? {c : Char} {token : Token} (h : sign? c = some token) :
    token.lexemes = [.sign c] ∧ isLoneSign c = true := by
  unfold sign? at h
  split at h
  all_goals first
    | cases h; exact ⟨rfl, by decide⟩
    | cases h

/-- A numeral begins with a digit. -/
theorem beginsWithDigit_of_read {s : List Char} {r : Numeral × List Char}
    (h : Numeral.read false s = some r) : beginsWithDigit s = true := by
  cases s with
  | nil => cases h
  | cons c t =>
      rw [← Bool.not_eq_false]
      intro hdigit
      change c.isDigit = false at hdigit
      have htake : (c :: t).takeWhile Char.isDigit = [] := by simp [hdigit]
      -- without digits before the point there is no numeral
      unfold Numeral.read at h
      simp only [htake, List.isEmpty_nil, Bool.true_or, Bool.not_false, Bool.and_true,
        Bool.false_and, if_true] at h
      split at h
      · cases h
      · cases h

theorem readLiteral_of_readNumber {neg : Bool} {s rest : List Char} {token : Token}
    (h : readNumber neg s = some (token, rest)) :
    ∃ v, token = .number v ∧ readLiteral neg s = some (.number v, rest)
      ∧ beginsWithDigit s = true := by
  unfold readNumber at h
  obtain ⟨⟨n, t⟩, hread, hpair⟩ := Option.map_eq_some_iff.1 h
  cases hpair
  refine ⟨_, rfl, ?_, beginsWithDigit_of_read hread⟩
  unfold readLiteral
  rw [hread]
  rfl

/-- One token is read as its lexemes, whatever lexemes follow. -/
theorem lexemes?_of_readToken {c : Char} {s rest : List Char} {token : Token} {more : List Lexeme}
    (hc : c.isWhitespace = false) (hread : readToken (c :: s) = some (token, rest))
    (hlt : rest.length < (c :: s).length) (hrest : lexemes? rest = some more) :
    lexemes? (c :: s) = some (token.lexemes ++ more) := by
  unfold readToken at hread
  cases hsign : sign? c with
  | some sign =>
      simp only [hsign, Option.some.injEq, Prod.mk.injEq] at hread
      obtain ⟨rfl, rfl⟩ := hread
      obtain ⟨hlexemes, hlone⟩ := lexemes_of_sign? hsign
      rw [hlexemes]
      exact lexemes?_sign hlone hrest
  | none =>
      simp only [hsign] at hread
      split at hread
      · -- the comparison is the only token of two signs
        next hgt =>
          subst hgt
          split at hread
          · cases hread
            exact lexemes?_sign (by decide) (lexemes?_sign (by decide) hrest)
          · cases hread
      split at hread
      · next hminus =>
          subst hminus
          obtain ⟨v, rfl, hliteral, hdigit⟩ := readLiteral_of_readNumber hread
          exact lexemes?_of_readLexeme hc ((readLexeme_minus hdigit).trans hliteral) hlt hrest
      next hminus =>
        split at hread
        · next hdigit =>
            obtain ⟨v, rfl, hliteral, _⟩ := readLiteral_of_readNumber hread
            exact lexemes?_of_readLexeme hc ((readLexeme_digit hdigit).trans hliteral) hlt hrest
        split at hread
        · next hdigit hstart =>
            cases hread
            exact lexemes?_of_readLexeme hc (readLexeme_word hstart) hlt hrest
        · cases hread

/-- **WHAT READS AS TOKENS READS AS THEIR LEXEMES.** -/
theorem lexemes?_of_tokens? (s : List Char) :
    ∀ tokens, tokens? s = some tokens → lexemes? s = some (tokens.flatMap Token.lexemes) := by
  fun_induction tokens? s with
  | case1 =>
      intro tokens h
      cases h
      exact lexemes?_nil
  | case2 c s hc ih =>
      intro tokens h
      rw [lexemes?_blank hc]
      exact ih tokens h
  | case3 c s hc hread =>
      intro tokens h
      cases h
  | case4 c s hc token rest hread hlt ih =>
      intro tokens h
      obtain ⟨more, hmore, rfl⟩ := Option.map_eq_some_iff.1 h
      rw [List.flatMap_cons]
      exact lexemes?_of_readToken (Bool.not_eq_true _ ▸ hc) hread hlt (ih more hmore)
  | case5 c s hc token rest hread hlt =>
      intro tokens h
      cases h

end ArtGrammar.Shading
