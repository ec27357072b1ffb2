/-
  ArtGrammar.Proofs.Shader.Splice
  ────────────────────────────────
  **AN EXPRESSION CAN BE SPLICED INTO A FRAGMENT.**

      head of the language and the canvas  ++  expression  ++  tail of the language

  Nothing in the expression reaches out of its place: its parentheses are closed by
  itself, and no character of it ends a statement, a block or a line.  Nothing in it is
  free: its words are functions and literals of the language, and the variables that
  the head declares.  And nothing is lost: a fragment is built from one expression and
  one canvas only.
-/
import ArtGrammar.Proofs.Shader.Template

namespace ArtGrammar

open Shading

/-! ## §1. Nested parentheses. -/

/-- No closing parenthesis is without an opening one before it, and none is left open. -/
structure Shading.Nested (s : List Char) : Prop where
  never_below : ∀ front, front <+: s → front.count ')' ≤ front.count '('
  closed : s.count ')' = s.count '('

namespace Shading

/-- Whether a character is a parenthesis. -/
def isParenthesis (c : Char) : Bool := c == '(' || c == ')'

/-- A text without parentheses. -/
theorem nested_of_free {s : List Char} (h : s.any isParenthesis = false) : Nested s := by
  have hopen : s.count '(' = 0 := List.count_eq_zero.2 fun hc => List.any_eq_false.1 h _ hc rfl
  have hclose : s.count ')' = 0 := List.count_eq_zero.2 fun hc => List.any_eq_false.1 h _ hc rfl
  refine ⟨fun front hfront => ?_, hclose.trans hopen.symm⟩
  have hle := hfront.sublist.count_le ')'
  omega

/-- One nested text after the other. -/
theorem Nested.append {s t : List Char} (hs : Nested s) (ht : Nested t) : Nested (s ++ t) := by
  refine ⟨fun front hfront => ?_, ?_⟩
  · -- the front ends in the first text, or has all of it
    rcases List.prefix_or_prefix_of_prefix hfront (List.prefix_append s t) with h | ⟨rest, rfl⟩
    · exact hs.never_below front h
    · have hrest := ht.never_below rest ((List.prefix_append_right_inj s).1 hfront)
      have hclosed := hs.closed
      rw [List.count_append, List.count_append]
      omega
  · rw [List.count_append, List.count_append, hs.closed, ht.closed]

/-- A nested text in parentheses. -/
theorem Nested.parenthesized {s : List Char} (hs : Nested s) : Nested ('(' :: (s ++ [')'])) := by
  have hclosed := hs.closed
  have hcounts : ∀ front : List Char, ('(' :: front).count '(' = front.count '(' + 1
      ∧ ('(' :: front).count ')' = front.count ')' := by
    intro front
    exact ⟨List.count_cons_self, List.count_cons_of_ne (by decide)⟩
  have hwhole : (s ++ [')']).count '(' = s.count '(' ∧ (s ++ [')']).count ')' = s.count ')' + 1 := by
    rw [List.count_append, List.count_append]
    exact ⟨rfl, rfl⟩
  refine ⟨fun front hfront => ?_, ?_⟩
  · rcases List.prefix_cons_iff.1 hfront with rfl | ⟨front, rfl, hrest⟩
    · exact Nat.le_refl 0
    · rw [(hcounts front).1, (hcounts front).2]
      rcases List.prefix_concat_iff.1 hrest with rfl | hinner
      · omega
      · have hle := hs.never_below front hinner
        omega
  · rw [(hcounts _).1, (hcounts _).2]
    omega

/-- Words and numbers. -/
theorem nested_of_isAtomChar {s : List Char} (h : ∀ c ∈ s, isAtomChar c = true) : Nested s := by
  apply nested_of_free
  rw [List.any_eq_false]
  intro c hc hparenthesis
  have hatom := h c hc
  unfold isParenthesis at hparenthesis
  rw [Bool.or_eq_true, beq_iff_eq, beq_iff_eq] at hparenthesis
  rcases hparenthesis with rfl | rfl
  · exact absurd hatom (by decide)
  · exact absurd hatom (by decide)

theorem nested_word {w : String} (h : isWord w = true) : Nested w.toList :=
  nested_of_isAtomChar (isAtomChar_of_isWord h)

theorem nested_infixText {sign left right : String} (hsign : Nested sign.toList)
    (hleft : Nested left.toList) (hright : Nested right.toList) :
    Nested (infixText sign left right).toList := by
  have hspace : Nested [' '] := nested_of_free (by decide)
  have htext : (infixText sign left right).toList
      = '(' :: ((left.toList ++ [' '] ++ sign.toList ++ [' '] ++ right.toList) ++ [')']) := by
    simp [infixText]
  rw [htext]
  exact ((((hleft.append hspace).append hsign).append hspace).append hright).parenthesized

theorem nested_vectorText {d : Dialect} (hd : d.HasWords) {first second third : String}
    (hfirst : Nested first.toList) (hsecond : Nested second.toList) (hthird : Nested third.toList) :
    Nested (d.vectorText first second third).toList := by
  have hcomma : Nested [',', ' '] := nested_of_free (by decide)
  have htext : (d.vectorText first second third).toList
      = d.vectorConstructor.toList ++ '(' :: ((first.toList ++ [',', ' '] ++ second.toList
          ++ [',', ' '] ++ third.toList) ++ [')']) := by
    simp [Dialect.vectorText]
  rw [htext]
  exact (nested_word hd.vector).append
    ((((hfirst.append hcomma).append hsecond).append hcomma).append hthird).parenthesized

theorem nested_blendText {d : Dialect} (hd : d.HasWords) {test yes no : String}
    (htest : Nested test.toList) (hyes : Nested yes.toList) (hno : Nested no.toList) :
    Nested (d.blendText test yes no).toList := by
  have hcast := nested_word hd.cast
  have htimes : Nested [' ', '*', ' '] := nested_of_free (by decide)
  have hplus : Nested [' ', '+', ' '] := nested_of_free (by decide)
  have hbang : Nested ['!'] := nested_of_free (by decide)
  have hyesweighed : Nested (d.boolCast.toList ++ '(' :: (test.toList ++ [')']) ++ [' ', '*', ' ']
      ++ '(' :: (yes.toList ++ [')'])) :=
    ((hcast.append htest.parenthesized).append htimes).append hyes.parenthesized
  have hnoweighed : Nested (d.boolCast.toList
      ++ '(' :: (['!'] ++ '(' :: (test.toList ++ [')']) ++ [')']) ++ [' ', '*', ' ']
      ++ '(' :: (no.toList ++ [')'])) :=
    ((hcast.append (hbang.append htest.parenthesized).parenthesized).append htimes).append
      hno.parenthesized
  have hsum := ((hyesweighed.append hplus).append hnoweighed).parenthesized
  have htext : (d.blendText test yes no).toList
      = '(' :: ((d.boolCast.toList ++ '(' :: (test.toList ++ [')']) ++ [' ', '*', ' ']
          ++ '(' :: (yes.toList ++ [')']) ++ [' ', '+', ' ']
          ++ (d.boolCast.toList ++ '(' :: (['!'] ++ '(' :: (test.toList ++ [')']) ++ [')'])
            ++ [' ', '*', ' '] ++ '(' :: (no.toList ++ [')']))) ++ [')']) := by
    simp [Dialect.blendText]
  rw [htext]
  exact hsum

theorem compositional_nested {d : Dialect} (hd : d.HasWords) :
    Compositional d fun text => Nested text.toList where
  atom := nested_of_isAtomChar
  abs := by
    intro a ha
    have htext : ("abs(" ++ a ++ ")").toList = "abs".toList ++ '(' :: (a.toList ++ [')']) := by simp
    rw [htext]
    exact (nested_word (by decide)).append ha.parenthesized
  arith := fun op _ _ ha hb => nested_infixText (nested_of_free (by cases op <;> decide)) ha hb
  ge := fun ha hb => nested_infixText (nested_of_free (by decide)) ha hb
  vector := fun ha hb hc => nested_vectorText hd ha hb hc
  blend := fun htest hyes hno => nested_blendText hd htest hyes hno

end Shading

/-- **THE PARENTHESES OF A TEXT ARE NESTED.** -/
theorem Expr.nested_of_transcribe {d : Dialect} (hd : d.HasWords) (e : Expr) :
    ∀ text, e.transcribe d = .ok text → Nested text.toList :=
  (compositional_nested hd).of_transcribe hd e

/-! ## §2. Words. -/

namespace Dialect

/-- A word that an expression of the dialect can have: a function, a truth value or a
variable. -/
inductive IsWordOf (d : Dialect) : String → Prop
  | abs : IsWordOf d "abs"
  | vector : IsWordOf d d.vectorConstructor
  | cast : IsWordOf d d.boolCast
  | truth (b : Bool) : IsWordOf d (d.boolLiteral b)
  | name (v : Variable) : IsWordOf d (d.variableNames.name v)

end Dialect

/-- **THE WORDS OF A TREE ARE THOSE OF THE DIALECT.** -/
theorem Expr.isWordOf_of_mem_tokens {d : Dialect} {w : String} (e : Expr) :
    .word w ∈ e.tokens d → d.IsWordOf w := by
  induction e with
  | var v =>
      intro h
      obtain rfl : w = _ := by simpa [tokens] using h
      exact .name v
  | number v => simp [tokens]
  | boolean b =>
      intro h
      obtain rfl : w = _ := by simpa [tokens] using h
      exact .truth b
  | abs a iha =>
      intro h
      have hparts : w = "abs" ∨ .word w ∈ a.tokens d := by simpa [tokens] using h
      rcases hparts with rfl | ha
      · exact .abs
      · exact iha ha
  | arith op a b iha ihb =>
      intro h
      have hparts : .word w ∈ a.tokens d ∨ .word w ∈ b.tokens d := by
        simpa [tokens, infixTokens] using h
      exact hparts.elim iha ihb
  | ge a b iha ihb =>
      intro h
      have hparts : .word w ∈ a.tokens d ∨ .word w ∈ b.tokens d := by
        simpa [tokens, infixTokens] using h
      exact hparts.elim iha ihb
  | triple a b c iha ihb ihc =>
      intro h
      have hparts : w = d.vectorConstructor ∨ .word w ∈ a.tokens d ∨ .word w ∈ b.tokens d
          ∨ .word w ∈ c.tokens d := by
        simpa [tokens, Dialect.vectorTokens] using h
      rcases hparts with rfl | ha | hb | hc
      · exact .vector
      · exact iha ha
      · exact ihb hb
      · exact ihc hc
  | cond test yes no iha ihb ihc =>
      intro h
      have hparts : w = d.boolCast ∨ .word w ∈ test.tokens d ∨ .word w ∈ yes.tokens d
          ∨ w = d.boolCast ∨ .word w ∈ test.tokens d ∨ .word w ∈ no.tokens d := by
        simpa [tokens, Dialect.blendTokens] using h
      rcases hparts with rfl | htest | hyes | rfl | htest | hno
      · exact .cast
      · exact iha htest
      · exact ihb hyes
      · exact .cast
      · exact iha htest
      · exact ihc hno
  | random => simp [tokens]
  | rule name => simp [tokens]

/-- The words among the lexemes of tokens are the words among the tokens. -/
theorem Shading.mem_of_word_mem_lexemes {w : String} {ts : List Token}
    (h : .word w ∈ ts.flatMap Token.lexemes) : .word w ∈ ts := by
  obtain ⟨token, htoken, hw⟩ := List.mem_flatMap.1 h
  cases token with
  | word text =>
      obtain rfl : w = text := by simpa [Token.lexemes] using hw
      exact htoken
  | operator op =>
      cases op with
      | arith op => cases op <;> simp [Token.lexemes] at hw
      | ge => simp [Token.lexemes] at hw
  | _ => simp [Token.lexemes] at hw

/-- The lexemes of a text, with what its words can be. -/
theorem Expr.exists_lexemes_of_transcribe {language : ShadingLanguage} {e : Expr} {text : String}
    (h : e.transcribe language.dialect = .ok text) :
    ∃ lexemes, lexemes? text.toList = some lexemes
      ∧ ∀ w, .word w ∈ lexemes → language.dialect.IsWordOf w := by
  have htokens := (e.reads_of_transcribe language h).tokens?_eq
  refine ⟨_, lexemes?_of_tokens? _ _ htokens, fun w hw => ?_⟩
  exact e.isWordOf_of_mem_tokens (mem_of_word_mem_lexemes hw)

namespace ShadingLanguage

variable (language : ShadingLanguage)

/-- Both languages spell truth values alike. -/
theorem boolLiteral_eq (b : Bool) :
    language.dialect.boolLiteral b = "true" ∨ language.dialect.boolLiteral b = "false" := by
  cases language with
  | glsl => cases b <;> decide
  | wgsl => cases b <;> decide

/-- **THE VARIABLES ARE DECLARED BEFORE THE EXPRESSION.** -/
theorem declared?_head (canvas : Canvas) (v : Variable) :
    declared? language.scalarKeyword (language.dialect.variableNames.name v) (language.head canvas)
      = some (language.variableText canvas v) := by
  have hmem : v ∈ declarationOrder := by
    cases v <;> decide
  unfold declared? head
  rw [String.toList_append, String.toList_append, List.append_assoc,
    language.passedOver_opening (.inl rfl), toList_variableLines,
    language.valueBehind?_variableLines canvas v _ _ hmem, Option.map_some, String.ofList_toList]

/-! ## §3. Nothing is lost. -/

/-- A line tells the size in it, whatever follows. -/
theorem size_eq_of_line_eq {keyword name source : String} {size size' : UInt32} {s t : List Char}
    (h : (declarationLine keyword name (normalizedText source size)).toList ++ s
      = (declarationLine keyword name (normalizedText source size')).toList ++ t) :
    size = size' ∧ s = t := by
  have htext : ∀ (size : UInt32) (s : List Char),
      (declarationLine keyword name (normalizedText source size)).toList ++ s
        = ("    " ++ keyword ++ " " ++ name ++ " = " ++ source ++ " / ").toList
          ++ (Nat.toDigits 10 size.toNat ++ '.' :: ("0 * 2.0 - 1.0;\n".toList ++ s)) := by
    intro size s
    simp [declarationLine, normalizedText, sizeText, Text.natText]
  rw [htext, htext] at h
  have hdigits : ∀ n, ∀ c ∈ Nat.toDigits 10 n, c.isDigit = true :=
    fun n c hc => Numeral.isDigit_of_mem_toDigits hc
  obtain ⟨hsize, hrest⟩ := runs_eq_of_append_eq (by decide) (hdigits _) (hdigits _)
    (List.append_cancel_left h)
  refine ⟨UInt32.toNat_inj.1 ?_, List.append_cancel_left hrest⟩
  calc size.toNat = Numeral.valueOf (Nat.toDigits 10 size.toNat) :=
        (Numeral.valueOf_toDigits _).symm
    _ = Numeral.valueOf (Nat.toDigits 10 size'.toNat) := by rw [hsize]
    _ = size'.toNat := Numeral.valueOf_toDigits _

/-- **A FRAGMENT TELLS ITS EXPRESSION AND ITS CANVAS.** -/
theorem fragment_injective {expression expression' : String} {canvas canvas' : Canvas}
    (h : language.fragment expression canvas = language.fragment expression' canvas') :
    expression = expression' ∧ canvas = canvas' := by
  have hcanvas : canvas = canvas' := by
    have hlines := congrArg String.toList h
    rw [toList_fragment, toList_fragment] at hlines
    simp only [declarationOrder, List.flatMap_cons, List.append_assoc] at hlines
    -- the first two lines have the two sizes
    obtain ⟨hwidth, hrest⟩ := size_eq_of_line_eq (List.append_cancel_left hlines)
    obtain ⟨hheight, _⟩ := size_eq_of_line_eq hrest
    cases canvas
    cases canvas'
    exact congrArg₂ Canvas.mk hwidth hheight
  subst hcanvas
  unfold fragment at h
  have htext := congrArg String.toList h
  rw [String.toList_append, String.toList_append, String.toList_append, String.toList_append]
    at htext
  have hexpression := List.append_cancel_left (List.append_cancel_right htext)
  exact ⟨String.toList_injective hexpression, rfl⟩

end ShadingLanguage

/-! ## §4. Spliced expressions. -/

/-- The semicolon, the braces and all characters that break a line. -/
def Shading.breakers : List Char :=
  [';', '\x7b', '\x7d', '\n', '\x0b', '\x0c', '\r', '\u0085', '\u2028', '\u2029']

namespace Shader

variable {language : ShadingLanguage} {e : Expr} {canvas : Canvas} {shader : Shader}

/-- A shader that is made has the text of the tree in its place. -/
theorem fragment_of_ofExpr (h : ofExpr language e canvas = .ok shader) :
    ∃ expression, e.transcribe language.dialect = .ok expression
      ∧ shader.fragment = language.fragment expression canvas := by
  obtain ⟨expression, htext, hrest⟩ := bind_eq_ok.1 h
  obtain ⟨_, _, hshader⟩ := bind_eq_ok.1 hrest
  cases hshader
  exact ⟨expression, htext, rfl⟩

/-- **SPLICING IS SAFE, AND THE PROGRAM IS CLOSED.**  The fragment of a tree is its text between
a head of the language and the canvas and a tail of the language.  In the text parentheses
are balanced, no running count of them drops below zero, and nothing ends a statement, a
block or a line; its words are `abs`, the vector constructor, the cast, the truth values
and the variables, all of which are declared in the head.  A tree with the same fragment in
the same language has the same text, and is the same tree on the same canvas. -/
theorem splice_closed (language : ShadingLanguage) (e : Expr) (canvas : Canvas) (shader : Shader)
    (h : ofExpr language e canvas = .ok shader) :
    ∃ expression, e.transcribe language.dialect = .ok expression
      ∧ shader.fragment = language.head canvas ++ expression ++ language.tail
      ∧ (∀ front, front <+: expression.toList → front.count ')' ≤ front.count '(')
      ∧ expression.toList.count ')' = expression.toList.count '('
      ∧ (∀ c ∈ expression.toList, c ∉ breakers)
      ∧ (∃ lexemes, lexemes? expression.toList = some lexemes
          ∧ ∀ w, .word w ∈ lexemes →
              w = "abs" ∨ w = language.dialect.vectorConstructor ∨ w = language.dialect.boolCast
                ∨ w = "true" ∨ w = "false" ∨ ∃ v, w = language.dialect.variableNames.name v)
      ∧ (∀ v, declared? language.scalarKeyword (language.dialect.variableNames.name v)
          (language.head canvas) = some (language.variableText canvas v))
      ∧ ∀ e' canvas' shader', ofExpr language e' canvas' = .ok shader' →
          shader'.fragment = shader.fragment →
            e'.transcribe language.dialect = .ok expression ∧ e' = e ∧ canvas' = canvas := by
  obtain ⟨expression, htext, hfragment⟩ := fragment_of_ofExpr h
  have hnested := e.nested_of_transcribe language.hasWords expression htext
  have hchars := e.isExpressionText_of_transcribe language.hasWords expression htext
  obtain ⟨lexemes, hlexemes, hwords⟩ := Expr.exists_lexemes_of_transcribe htext
  refine ⟨expression, htext, hfragment, hnested.never_below, hnested.closed, ?_,
    ⟨lexemes, hlexemes, fun w hw => ?_⟩, language.declared?_head canvas, ?_⟩
  · intro c hc hbreak
    have hnone : breakers.any isExpressionChar = false := by decide
    exact List.any_eq_false.1 hnone c hbreak (hchars c hc)
  · cases hwords w hw with
    | abs => exact .inl rfl
    | vector => exact .inr (.inl rfl)
    | cast => exact .inr (.inr (.inl rfl))
    | truth b =>
        exact (language.boolLiteral_eq b).elim (fun ht => .inr (.inr (.inr (.inl ht))))
          fun hf => .inr (.inr (.inr (.inr (.inl hf))))
    | name v => exact .inr (.inr (.inr (.inr (.inr ⟨v, rfl⟩))))
  · intro e' canvas' shader' h' hsame
    obtain ⟨expression', htext', hfragment'⟩ := fragment_of_ofExpr h'
    rw [hfragment, hfragment'] at hsame
    obtain ⟨rfl, rfl⟩ := language.fragment_injective hsame
    have htree := (Expr.ofText?_of_transcribe htext').symm.trans (Expr.ofText?_of_transcribe htext)
    exact ⟨htext', Option.some.inj htree, rfl⟩

/-- A product with a literal that has an exponent. -/
def faint : Expr := .arith .mult (.var .mouseX) (.number (Single.ofRatio false 1 10000000))

/-- The exponent is part of the literal, so the one word is that of the variable, which the
head declares by the width.  On the canvas turned on its side the fragment is another. -/
theorem splice_closed_faint :
    ∃ shader, ofExpr .glsl faint ⟨640, 480⟩ = .ok shader
      ∧ shader.fragment = ShadingLanguage.glsl.head ⟨640, 480⟩ ++ "(mouse_x * 1e-7)"
          ++ ShadingLanguage.glsl.tail
      ∧ (∃ lexemes, lexemes? "(mouse_x * 1e-7)".toList = some lexemes
          ∧ ∀ w, .word w ∈ lexemes →
              w = "abs" ∨ w = "vec3" ∨ w = "float" ∨ w = "true" ∨ w = "false"
                ∨ ∃ v, w = Dialect.glsl.variableNames.name v)
      ∧ declared? "float" "mouse_x" (ShadingLanguage.glsl.head ⟨640, 480⟩)
          = some "mouse.x / 640.0 * 2.0 - 1.0"
      ∧ ∀ shader', ofExpr .glsl faint ⟨480, 640⟩ = .ok shader' →
          shader'.fragment ≠ shader.fragment := by
  have htext : faint.transcribe Dialect.glsl = .ok "(mouse_x * 1e-7)" := by decide +kernel
  have hcanvas : Canvas.validate ⟨640, 480⟩ = .ok () := by decide
  obtain ⟨shader, hshader, _⟩ := ofText_eq_ok hcanvas .glsl "(mouse_x * 1e-7)"
  have h : ofExpr .glsl faint ⟨640, 480⟩ = .ok shader := bind_eq_ok.2 ⟨_, htext, hshader⟩
  obtain ⟨expression, hexpression, hfragment, _, _, _, hwords, hdeclared, hunique⟩ :=
    splice_closed .glsl faint ⟨640, 480⟩ shader h
  obtain rfl : "(mouse_x * 1e-7)" = expression := Except.ok.inj (htext.symm.trans hexpression)
  refine ⟨shader, h, hfragment, hwords, hdeclared .mouseX, fun shader' h' hsame => ?_⟩
  exact absurd (hunique faint ⟨480, 640⟩ shader' h' hsame).2.2 (by decide)

end Shader

end ArtGrammar
