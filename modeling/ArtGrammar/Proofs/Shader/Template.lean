/-
  ArtGrammar.Proofs.Shader.Template
  ────────────────────────────────
  **TEMPLATES COMPUTE WHAT THE EVALUATOR IS GIVEN.**

  A fragment computes its variables from the places where a shading language puts
  the pixel, the pointer and the time, with the sizes of the canvas as literals:

      x        gl_FragCoord.x / 640.0 * 2.0 - 1.0
      y        gl_FragCoord.y / 480.0 * 2.0 - 1.0
      t        sin(time / 2.0)
      color    (expression + 1.0) * 0.5

  For every canvas these are the values of the viewpoint of the pixel, and the
  color of a vector before it is cut off at 0 and 1.
-/
import ArtGrammar.Proofs.Shader.Declaration
import ArtGrammar.Proofs.Shader.Formula
import ArtGrammar.Proofs.Shader.Recovery
import ArtGrammar.Value.Evaluation

namespace ArtGrammar

open Shading

/-! ## §1. Literals of whole numbers. -/

/-- A whole number with a fraction of zero. -/
def Numeral.pointed (n : Nat) : Numeral := ⟨Nat.toDigits 10 n, ['0'], none⟩

namespace Numeral

theorem proper_pointed (n : Nat) : (pointed n).Proper where
  whole_ne := Nat.toDigits_ne_nil
  whole := fun _ hc => isDigit_of_mem_toDigits hc
  fraction := by
    intro c hc
    rw [List.mem_singleton.1 hc]
    decide

theorem value_pointed (n : Nat) : (pointed n).decimal.value = n := by
  show (valueOf (Nat.toDigits 10 n ++ Decimal.zeros 1) : ℚ) * 10 ^ (-1 : Int) = n
  rw [valueOf_append_zeros, valueOf_toDigits]
  push_cast
  rw [zpow_neg_one, mul_assoc, mul_inv_cancel₀ (by norm_num), mul_one]

/-- The literal names what the number is rounded to. -/
theorem ofDecimal_pointed {n : Nat} (hn : n < 10 ^ 49) :
    Single.ofDecimal false (pointed n).decimal = Single.ofNat n :=
  Single.ofDecimal_of_value_eq_natCast false hn (value_pointed n)

theorem toList_sizeText (size : UInt32) :
    (sizeText size).toList = (pointed size.toNat).chars false := by
  simp [sizeText, Text.natText, chars, pointed, fractionChars, exponentChars]

end Numeral

namespace Shading

/-- A literal of a whole number is the lexeme of the number. -/
theorem lexemes?_pointed {n : Nat} (hn : n < 10 ^ 49) {rest : List Char} {more : List Lexeme}
    (hrest : Breaks rest) (hmore : lexemes? rest = some more) :
    lexemes? ((Numeral.pointed n).chars false ++ rest)
      = some (.number (Single.ofNat n) :: more) := by
  rw [← Numeral.ofDecimal_pointed hn]
  exact lexemes?_numeral (Numeral.proper_pointed n) hrest hmore

theorem lexemes?_one {rest : List Char} {more : List Lexeme} (hrest : Breaks rest)
    (hmore : lexemes? rest = some more) :
    lexemes? ('1' :: '.' :: '0' :: rest) = some (.number 1 :: more) :=
  lexemes?_pointed (by decide : 1 < 10 ^ 49) hrest hmore

theorem lexemes?_two {rest : List Char} {more : List Lexeme} (hrest : Breaks rest)
    (hmore : lexemes? rest = some more) :
    lexemes? ('2' :: '.' :: '0' :: rest) = some (.number 2 :: more) :=
  lexemes?_pointed (by decide : 2 < 10 ^ 49) hrest hmore

/-- The literal of one half. -/
def halfNumeral : Numeral := ⟨['0'], ['5'], none⟩

theorem proper_halfNumeral : halfNumeral.Proper where
  whole_ne := List.cons_ne_nil _ _
  whole := by
    intro c hc
    rw [List.mem_singleton.1 hc]
    decide
  fraction := by
    intro c hc
    rw [List.mem_singleton.1 hc]
    decide

theorem ofDecimal_halfNumeral :
    Single.ofDecimal false halfNumeral.decimal = Single.ofRatio false 1 2 := by
  decide +kernel

/-! ## §2. Reading the formulas of a template. -/

/-- A position of a size, as a formula. -/
def normalizedFormula (source : String) (size : Single) : Formula :=
  .binary .minus (.binary .times (.binary .over (.place source) (.number size)) (.number 2))
    (.number 1)

/-- The text of a position is read with its operations from the left. -/
theorem ofText?_normalizedText {source : String} (hsource : IsPlace source) (size : UInt32) :
    Formula.ofText? (normalizedText source size)
      = some (normalizedFormula source (Single.ofNat size.toNat)) := by
  obtain ⟨lexemes, hread, hrun⟩ := hsource
  have hsize : size.toNat < 10 ^ 49 := size.toNat_lt.trans (by decide)
  have htext : (normalizedText source size).toList
      = source.toList ++ ' ' :: '/' :: ' ' :: ((Numeral.pointed size.toNat).chars false
        ++ ' ' :: '*' :: ' ' :: '2' :: '.' :: '0' :: ' ' :: '-' :: ' ' :: '1' :: '.' :: '0'
          :: []) := by
    simp [normalizedText, Numeral.toList_sizeText]
  have hlexemes : lexemes? (normalizedText source size).toList
      = some (lexemes ++ [.sign '/', .number (Single.ofNat size.toNat), .sign '*', .number 2,
          .sign '-', .number 1]) := by
    rw [htext]
    apply hread _ _ (breaks_space _)
    apply lexemes?_space
    apply lexemes?_sign (by decide)
    apply lexemes?_space
    apply lexemes?_pointed hsize (breaks_space _)
    apply lexemes?_space
    apply lexemes?_sign (by decide)
    apply lexemes?_space
    apply lexemes?_two (breaks_space _)
    apply lexemes?_space
    -- a space keeps the minus sign apart from the number
    apply lexemes?_minus rfl
    apply lexemes?_space
    exact lexemes?_one breaks_nil lexemes?_nil
  unfold Formula.ofText?
  rw [hlexemes, Option.bind_some]
  unfold Formula.parse?
  rw [hrun]
  rfl

theorem ofText?_sine {source : String} (hsource : IsPlace source) :
    Formula.ofText? ("sin(" ++ source ++ " / 2.0)")
      = some (.sine (.binary .over (.place source) (.number 2))) := by
  obtain ⟨lexemes, hread, hrun⟩ := hsource
  have htext : ("sin(" ++ source ++ " / 2.0)").toList
      = "sin".toList ++ '(' :: (source.toList
        ++ ' ' :: '/' :: ' ' :: '2' :: '.' :: '0' :: ')' :: []) := by
    simp
  have hlexemes : lexemes? ("sin(" ++ source ++ " / 2.0)").toList
      = some (.word "sin" :: .sign '(' :: (lexemes ++ [.sign '/', .number 2, .sign ')'])) := by
    rw [htext]
    apply lexemes?_word (by decide) (breaks_sign (c := '(') rfl).isWordRest
    apply lexemes?_sign (by decide)
    apply hread _ _ (breaks_space _)
    apply lexemes?_space
    apply lexemes?_sign (by decide)
    apply lexemes?_space
    apply lexemes?_two (breaks_sign (c := ')') rfl)
    exact lexemes?_sign (by decide) lexemes?_nil
  have hparsed : Formula.run (.wants []) (.word "sin" :: .sign '('
      :: (lexemes ++ [.sign '/', .number 2, .sign ')']))
      = some (.holds (.sine (.binary .over (.place source) (.number 2))) []) := by
    apply Formula.run_cons rfl
    apply Formula.run_cons rfl
    rw [hrun]
    rfl
  unfold Formula.ofText?
  rw [hlexemes, Option.bind_some]
  unfold Formula.parse?
  rw [hparsed]
  rfl

/-- The color of a place, as a formula. -/
def colorFormula (place : String) : Formula :=
  .binary .times (.binary .plus (.place place) (.number 1)) (.number (Single.ofRatio false 1 2))

theorem ofText?_colorText {place : String} (hplace : IsPlace place) :
    Formula.ofText? (ShadingLanguage.colorText place) = some (colorFormula place) := by
  obtain ⟨lexemes, hread, hrun⟩ := hplace
  have htext : (ShadingLanguage.colorText place).toList
      = '(' :: (place.toList ++ ' ' :: '+' :: ' ' :: '1' :: '.' :: '0' :: ')' :: ' ' :: '*' :: ' '
        :: (halfNumeral.chars false ++ [])) := by
    simp [ShadingLanguage.colorText, halfNumeral, Numeral.chars, Numeral.fractionChars,
      Numeral.exponentChars]
  have hlexemes : lexemes? (ShadingLanguage.colorText place).toList
      = some (.sign '(' :: (lexemes ++ [.sign '+', .number 1, .sign ')', .sign '*',
          .number (Single.ofRatio false 1 2)])) := by
    rw [htext]
    apply lexemes?_sign (by decide)
    apply hread _ _ (breaks_space _)
    apply lexemes?_space
    apply lexemes?_sign (by decide)
    apply lexemes?_space
    apply lexemes?_one (breaks_sign (c := ')') rfl)
    apply lexemes?_sign (by decide)
    apply lexemes?_space
    apply lexemes?_sign (by decide)
    apply lexemes?_space
    rw [← ofDecimal_halfNumeral]
    exact lexemes?_numeral proper_halfNumeral breaks_nil lexemes?_nil
  -- the product stays open until the text ends
  have hparsed : Formula.run (.wants []) (.sign '(' :: (lexemes ++ [.sign '+', .number 1, .sign ')',
      .sign '*', .number (Single.ofRatio false 1 2)]))
      = some (.holds (.number (Single.ofRatio false 1 2))
          [.left (.binary .plus (.place place) (.number 1)) .times]) := by
    apply Formula.run_cons rfl
    rw [hrun]
    rfl
  unfold Formula.ofText?
  rw [hlexemes, Option.bind_some]
  unfold Formula.parse?
  rw [hparsed]
  rfl

/-- The color of an expression, as a term. -/
def colorTerm (a : Term) : Term :=
  .binary (.arith .mult) (.binary (.arith .add) a (.number 1)) (.number (Single.ofRatio false 1 2))

/-- The color of an expression is an expression. -/
theorem ofText?_colorText_of_transcribe {language : ShadingLanguage} {e : Expr} {text : String}
    (h : e.transcribe language.dialect = .ok text) :
    Term.ofText? language (ShadingLanguage.colorText text) = some (colorTerm e.term) := by
  have hconcrete := (e.concrete_finite_of_transcribe text h).1
  have hread := Expr.reads_of_transcribe language h
  have htext : (ShadingLanguage.colorText text).toList
      = '(' :: (text.toList ++ ' ' :: '+' :: ' ' :: ("1.0".toList ++ ')' :: ' ' :: '*' :: ' '
        :: ("0.5".toList ++ []))) := by
    simp [ShadingLanguage.colorText]
  have hone : Reads "1.0" [.number 1] := by
    have hread := reads_numeral (Numeral.proper_pointed 1) false
    rwa [Numeral.ofDecimal_pointed (by decide)] at hread
  have hhalf : Reads "0.5" [.number (Single.ofRatio false 1 2)] := by
    have hread := reads_numeral proper_halfNumeral false
    rwa [ofDecimal_halfNumeral] at hread
  have htokens : tokens? (ShadingLanguage.colorText text).toList
      = some (.opening :: (e.tokens language.dialect ++ [.operator (.arith .add), .number 1,
          .closing, .operator (.arith .mult), .number (Single.ofRatio false 1 2)])) := by
    rw [htext]
    apply tokens?_sign rfl
    apply hread _ _ (breaks_space _)
    apply tokens?_space
    apply tokens?_arithSign .add
    apply tokens?_space
    apply hone.closed
    apply tokens?_space
    apply tokens?_arithSign .mult
    apply tokens?_space
    exact hhalf _ _ breaks_nil tokens?_nil
  have hparsed : run language (.wants []) (.opening :: (e.tokens language.dialect
      ++ [.operator (.arith .add), .number 1, .closing, .operator (.arith .mult),
        .number (Single.ofRatio false 1 2)]))
      = some (.holds (.number (Single.ofRatio false 1 2))
          [.left (.binary (.arith .add) e.term (.number 1)) (.arith .mult)]) := by
    apply run_cons rfl
    apply (e.parses_tokens language hconcrete).run_append
    rfl
  unfold Term.ofText?
  rw [htokens, Option.bind_some]
  unfold parse?
  rw [hparsed]
  rfl

end Shading

/-! ## §3. The variables. -/

namespace ShadingLanguage

/-- The values that a fragment finds at its places. -/
def inputs (pixel mouse : Position) (time : Single) : ShadingLanguage → String → Option Value
  | .glsl, "gl_FragCoord.x" => some (.scalar pixel.x)
  | .glsl, "gl_FragCoord.y" => some (.scalar pixel.y)
  | .glsl, "mouse.x" => some (.scalar mouse.x)
  | .glsl, "mouse.y" => some (.scalar mouse.y)
  | .glsl, "time" => some (.scalar time)
  | .wgsl, "pos.x" => some (.scalar pixel.x)
  | .wgsl, "pos.y" => some (.scalar pixel.y)
  | .wgsl, "ctx.mouse_x" => some (.scalar mouse.x)
  | .wgsl, "ctx.mouse_y" => some (.scalar mouse.y)
  | .wgsl, "ctx.time" => some (.scalar time)
  | _, _ => none

variable (language : ShadingLanguage)

theorem isPlace_sources (v : Variable) : IsPlace (language.sources v) := by
  cases language with
  | glsl =>
      cases v with
      | x => exact isPlace_member "gl_FragCoord" "x" (by decide) (by decide) (by decide)
      | y => exact isPlace_member "gl_FragCoord" "y" (by decide) (by decide) (by decide)
      | t => exact isPlace_word (by decide) (by decide)
      | mouseX => exact isPlace_member "mouse" "x" (by decide) (by decide) (by decide)
      | mouseY => exact isPlace_member "mouse" "y" (by decide) (by decide) (by decide)
  | wgsl =>
      cases v with
      | x => exact isPlace_member "pos" "x" (by decide) (by decide) (by decide)
      | y => exact isPlace_member "pos" "y" (by decide) (by decide) (by decide)
      | t => exact isPlace_member "ctx" "time" (by decide) (by decide) (by decide)
      | mouseX => exact isPlace_member "ctx" "mouse_x" (by decide) (by decide) (by decide)
      | mouseY => exact isPlace_member "ctx" "mouse_y" (by decide) (by decide) (by decide)

/-- Each variable is declared with a formula, whose value is that of the viewpoint. -/
theorem exists_variable_formula (canvas : Canvas) (v : Variable) :
    ∃ f, Formula.ofText? (language.variableText canvas v) = some f
      ∧ ∀ pixel mouse time, f.value? (language.inputs pixel mouse time)
          = some (.scalar ((Viewpoint.ofPixel pixel canvas time mouse).value v)) := by
  have hplace := language.isPlace_sources v
  cases v with
  | x =>
      refine ⟨_, ofText?_normalizedText hplace canvas.width, fun pixel mouse time => ?_⟩
      cases language <;> rfl
  | y =>
      refine ⟨_, ofText?_normalizedText hplace canvas.height, fun pixel mouse time => ?_⟩
      cases language <;> rfl
  | t =>
      refine ⟨_, ofText?_sine hplace, fun pixel mouse time => ?_⟩
      cases language <;> rfl
  | mouseX =>
      refine ⟨_, ofText?_normalizedText hplace canvas.width, fun pixel mouse time => ?_⟩
      cases language <;> rfl
  | mouseY =>
      refine ⟨_, ofText?_normalizedText hplace canvas.height, fun pixel mouse time => ?_⟩
      cases language <;> rfl

/-- The variable of a name is declared under that name. -/
theorem name_of_variableNamed? {word : String} {v : Variable} (h : variableNamed? word = some v) :
    language.dialect.variableNames.name v = word := by
  unfold variableNamed? at h
  cases language <;> split at h <;> cases h <;> rfl

end ShadingLanguage

/-! ## §4. The color. -/

/-- A vector before it is cut off. -/
def Lanes.raised (v : Lanes) : Lanes := v.map fun a => (a + 1) * Single.ofRatio false 1 2

theorem Expr.shade_eq_of_evaluate {e : Expr} {p : Viewpoint} {v : Lanes}
    (h : e.evaluate p = .ok (.vector v)) : e.shade p = .ok (v.raised.map Single.clamp) := by
  unfold shade
  rw [h]
  rfl

theorem Shading.value?_colorFormula {places : String → Option Value} {place : String} {v : Lanes}
    (h : places place = some (.vector v)) :
    (colorFormula place).value? places = some (.vector v.raised) := by
  unfold colorFormula Formula.value? Formula.value? Formula.value?
  rw [h]
  rfl

theorem Shading.value?_colorTerm {p : Viewpoint} {a : Term} {v : Lanes}
    (h : a.value? p = some (.vector v)) : (colorTerm a).value? p = some (.vector v.raised) := by
  unfold colorTerm Term.value? Term.value?
  rw [h]
  rfl

namespace Shader

theorem ofText_eq_ok {canvas : Canvas} (hcanvas : canvas.validate = .ok ())
    (language : ShadingLanguage) (expression : String) :
    ∃ shader, ofText language expression canvas = .ok shader
      ∧ shader.fragment = language.fragment expression canvas := by
  unfold ofText
  rw [hcanvas]
  exact ⟨_, rfl, rfl⟩

/-- **TEMPLATES COMPUTE WHAT THE EVALUATOR IS GIVEN.**  For every canvas with pixels, in
both languages:  whatever expression a shader is built around, it declares each
variable with a formula whose value, at every pixel and pointer position and at
every time, is that of the viewpoint of the pixel.  The color around a word is a
formula which, if the word stands for the vector that a tree evaluates to, is a
vector whose lanes cut off at 0 and 1 are the shade of the tree; and the color
that the shader of a tree declares is an expression of that value. -/
theorem computes_viewpoint_and_shade (language : ShadingLanguage) (canvas : Canvas)
    (hcanvas : canvas.validate = .ok ()) :
    (∀ expression, ∃ shader, ofText language expression canvas = .ok shader
        ∧ ∀ word v, variableNamed? word = some v →
          ∃ f, (declared? language.scalarKeyword word shader.fragment).bind Formula.ofText? = some f
            ∧ ∀ pixel mouse time, f.value? (language.inputs pixel mouse time)
                = some (.scalar ((Viewpoint.ofPixel pixel canvas time mouse).value v)))
      ∧ (∀ word, isWord word = true → word ≠ "sin" →
          ∃ f, (declared? language.colorKeyword "color"
              (language.fragment word canvas)).bind Formula.ofText? = some f
            ∧ ∀ (e : Expr) p v places, e.evaluate p = .ok (.vector v) →
                places word = some (.vector v) →
                ∃ w, f.value? places = some (.vector w) ∧ e.shade p = .ok (w.map Single.clamp))
      ∧ ∀ e shader, ofExpr language e canvas = .ok shader →
          ∃ t, (declared? language.colorKeyword "color" shader.fragment).bind
              (Term.ofText? language) = some t
            ∧ ∀ p v, e.evaluate p = .ok (.vector v) →
                ∃ w, t.value? p = some (.vector w) ∧ e.shade p = .ok (w.map Single.clamp) := by
  refine ⟨fun expression => ?_, fun word hword hsine => ?_, fun e shader hshader => ?_⟩
  · obtain ⟨shader, hshader, hfragment⟩ := ofText_eq_ok hcanvas language expression
    refine ⟨shader, hshader, fun word v hv => ?_⟩
    obtain ⟨f, hf, hvalue⟩ := language.exists_variable_formula canvas v
    refine ⟨f, ?_, hvalue⟩
    rw [hfragment, ← language.name_of_variableNamed? hv, language.declared?_variable,
      Option.bind_some]
    exact hf
  · refine ⟨colorFormula word, ?_, fun e p v places he hplace => ?_⟩
    · rw [language.declared?_color (oneLine_of_isWord hword), Option.bind_some]
      exact ofText?_colorText (isPlace_word hword hsine)
    · exact ⟨v.raised, value?_colorFormula hplace, e.shade_eq_of_evaluate he⟩
  · obtain ⟨text, htext, hrest⟩ := bind_eq_ok.mp hshader
    obtain ⟨_, _, hfragment⟩ := bind_eq_ok.mp hrest
    cases hfragment
    have hline := (e.isExpressionText_of_transcribe language.hasWords text htext).oneLine
    refine ⟨colorTerm e.term, ?_, fun p v he => ?_⟩
    · show (declared? _ _ (language.fragment text canvas)).bind _ = _
      rw [language.declared?_color hline, Option.bind_some]
      exact ofText?_colorText_of_transcribe htext
    · have hterm := e.value?_term p (e.concrete_finite_of_transcribe text htext).1
      rw [he] at hterm
      exact ⟨v.raised, value?_colorTerm hterm, e.shade_eq_of_evaluate he⟩

/-- A color whose second channel moves. -/
def drifting : Expr := .triple (.var .x) (.arith .add (.var .y) (.var .t)) (.var .mouseX)

/-- On a canvas that is wider than it is high the second coordinate is measured by the
height; and at every viewpoint the color that is declared around a word, or for the tree
itself, is the shade of the tree. -/
theorem computes_viewpoint_and_shade_wide :
    Canvas.validate ⟨640, 480⟩ = .ok ()
      ∧ (∃ shader, ofText .glsl "vec3(x, y, t)" ⟨640, 480⟩ = .ok shader
          ∧ ∃ f, (declared? "float" "y" shader.fragment).bind Formula.ofText? = some f
            ∧ ∀ pixel mouse time, f.value? (ShadingLanguage.glsl.inputs pixel mouse time)
                = some (.scalar (pixel.y / 480 * 2 - 1)))
      ∧ (∃ f, (declared? "vec3" "color" (ShadingLanguage.glsl.fragment "tint" ⟨640, 480⟩)).bind
            Formula.ofText? = some f
          ∧ ∀ (p : Viewpoint) places,
              places "tint" = some (.vector ⟨p.x, p.y + p.t, p.mouseX⟩) →
              ∃ w, f.value? places = some (.vector w)
                ∧ drifting.shade p = .ok (w.map Single.clamp))
      ∧ ∃ shader t, ofExpr .glsl drifting ⟨640, 480⟩ = .ok shader
          ∧ (declared? "vec3" "color" shader.fragment).bind (Term.ofText? .glsl) = some t
          ∧ ∀ p, ∃ w, t.value? p = some (.vector w)
              ∧ drifting.shade p = .ok (w.map Single.clamp) := by
  have hcanvas : Canvas.validate ⟨640, 480⟩ = .ok () := by decide
  have hvalue : ∀ p : Viewpoint,
      drifting.evaluate p = .ok (.vector ⟨p.x, p.y + p.t, p.mouseX⟩) := fun _ => rfl
  obtain ⟨hvariables, hcolor, htree⟩ := computes_viewpoint_and_shade .glsl ⟨640, 480⟩ hcanvas
  obtain ⟨shader, hshader, hdeclared⟩ := hvariables "vec3(x, y, t)"
  obtain ⟨f, hf, hshade⟩ := hcolor "tint" (by decide) (by decide)
  have hcompiled : ofExpr .glsl drifting ⟨640, 480⟩ = .ok _ := rfl
  obtain ⟨t, ht, hterm⟩ := htree drifting _ hcompiled
  exact ⟨hcanvas, ⟨shader, hshader, hdeclared "y" .y rfl⟩,
    ⟨f, hf, fun p places hplace => hshade drifting p _ places (hvalue p) hplace⟩,
    _, t, hcompiled, ht, fun p => hterm p _ (hvalue p)⟩

end Shader

end ArtGrammar
