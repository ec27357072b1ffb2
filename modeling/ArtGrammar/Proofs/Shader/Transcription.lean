/-
  ArtGrammar.Proofs.Shader.Transcription
  ────────────────────────────────
  **TRANSCRIBED TEXT IS READ TOKEN BY TOKEN.**

  The tokens of a tree in a dialect are written down without their text; every
  part of the transcribed text is followed by a space, a comma, a parenthesis or
  nothing, so no two tokens of it run together:

      (left + right)                ( left + right )
      cast(!(test)) * (no)          cast ( ! ( test ) ) * ( no )
-/
import ArtGrammar.Proofs.Expr.Nodes
import ArtGrammar.Proofs.Shader.Token
import ArtGrammar.Shader.Template
import ArtGrammar.Shader.Transcription

namespace ArtGrammar

open Shading

/-! ## §1. Tokens of a tree. -/

/-- All spellings of the dialect are words. -/
structure Dialect.HasWords (d : Dialect) : Prop where
  names : ∀ v, isWord (d.variableNames.name v) = true
  truths : ∀ b, isWord (d.boolLiteral b) = true
  vector : isWord d.vectorConstructor = true
  cast : isWord d.boolCast = true

theorem ShadingLanguage.hasWords (language : ShadingLanguage) : language.dialect.HasWords := by
  cases language with
  | glsl =>
      refine ⟨?_, ?_, by decide, by decide⟩
      · intro v
        cases v <;> decide
      · intro b
        cases b <;> decide
  | wgsl =>
      refine ⟨?_, ?_, by decide, by decide⟩
      · intro v
        cases v <;> decide
      · intro b
        cases b <;> decide

/-- A binary operation in parentheses. -/
def Shading.infixTokens (op : Operator) (left right : List Token) : List Token :=
  .opening :: (left ++ .operator op :: (right ++ [.closing]))

/-- The vector of three scalars. -/
def Dialect.vectorTokens (d : Dialect) (first second third : List Token) : List Token :=
  .word d.vectorConstructor :: .opening ::
    (first ++ .comma :: (second ++ .comma :: (third ++ [.closing])))

/-- The blend that a truth value selects by. -/
def Dialect.blendTokens (d : Dialect) (test yes no : List Token) : List Token :=
  .opening :: .word d.boolCast :: .opening :: (test ++ .closing :: .operator (.arith .mult) ::
    .opening :: (yes ++ .closing :: .operator (.arith .add) ::
      .word d.boolCast :: .opening :: .bang :: .opening :: (test ++ .closing :: .closing ::
        .operator (.arith .mult) :: .opening :: (no ++ [.closing, .closing]))))

/-- The tokens of a tree in a dialect. -/
def Expr.tokens (d : Dialect) : Expr → List Token
  | .var v => [.word (d.variableNames.name v)]
  | .number v => [.number v]
  | .boolean b => [.word (d.boolLiteral b)]
  | .abs a => .word "abs" :: .opening :: (tokens d a ++ [.closing])
  | .arith op a b => infixTokens (.arith op) (tokens d a) (tokens d b)
  | .ge a b => infixTokens .ge (tokens d a) (tokens d b)
  | .triple a b c => d.vectorTokens (tokens d a) (tokens d b) (tokens d c)
  | .cond test yes no => d.blendTokens (tokens d test) (tokens d yes) (tokens d no)
  | .random => []
  | .rule _ => []

/-! ## §2. Reading the parts of a text. -/

namespace Shading

theorem breaks_sign {c : Char} {s : List Char} {token : Token} (h : sign? c = some token) :
    Breaks (c :: s) := by
  apply breaks_cons
  · rw [← Bool.not_eq_true]
    intro hrest
    rw [sign?_of_isWordRest hrest] at h
    cases h
  · rintro rfl
    cases h

theorem breaks_space (s : List Char) : Breaks (' ' :: s) := breaks_cons (by decide) (by decide)

/-- An operand in parentheses, or the one argument of a call. -/
theorem Reads.closed {text : String} {tokens more : List Token} {rest : List Char}
    (h : Reads text tokens) (hmore : tokens? rest = some more) :
    tokens? (text.toList ++ ')' :: rest) = some (tokens ++ .closing :: more) :=
  h _ _ (breaks_sign rfl) (tokens?_sign rfl hmore)

/-- An argument that is followed by another one. -/
theorem Reads.argument {text : String} {tokens more : List Token} {rest : List Char}
    (h : Reads text tokens) (hmore : tokens? rest = some more) :
    tokens? (text.toList ++ ',' :: ' ' :: rest) = some (tokens ++ .comma :: more) :=
  h _ _ (breaks_sign rfl) (tokens?_sign rfl (tokens?_space hmore))

/-- A call of the function that a word names. -/
theorem tokens?_call {w : String} (hw : isWord w = true) {s : List Char} {more : List Token}
    (hs : tokens? s = some more) :
    tokens? (w.toList ++ '(' :: s) = some (.word w :: .opening :: more) :=
  reads_word hw _ _ (breaks_sign rfl) (tokens?_sign rfl hs)

/-- The signs of the arithmetic operators. -/
theorem tokens?_arithSign (op : Arith) {s : List Char} {more : List Token}
    (hs : tokens? s = some more) :
    tokens? (op.sign.toList ++ s) = some (.operator (.arith op) :: more) := by
  cases op with
  | add => exact tokens?_sign (c := '+') rfl hs
  | mult => exact tokens?_sign (c := '*') rfl hs
  | mod => exact tokens?_sign (c := '%') rfl hs

theorem reads_infixText {sign : String} {op : Operator} {left right : String} {ts us : List Token}
    (hsign : ∀ s more, tokens? s = some more →
      tokens? (sign.toList ++ s) = some (.operator op :: more))
    (hleft : Reads left ts) (hright : Reads right us) :
    Reads (infixText sign left right) (infixTokens op ts us) := by
  intro rest more _ hmore
  have htext : (infixText sign left right).toList ++ rest
      = '(' :: (left.toList ++ ' ' :: (sign.toList ++ ' ' :: (right.toList ++ ')' :: rest))) := by
    simp [infixText]
  have htokens : infixTokens op ts us ++ more
      = .opening :: (ts ++ .operator op :: (us ++ .closing :: more)) := by
    simp [infixTokens]
  rw [htext, htokens]
  apply tokens?_sign rfl
  apply hleft _ _ (breaks_space _)
  apply tokens?_space
  apply hsign
  apply tokens?_space
  exact hright.closed hmore

theorem reads_vectorText {d : Dialect} (hd : d.HasWords) {first second third : String}
    {ts us vs : List Token} (hfirst : Reads first ts) (hsecond : Reads second us)
    (hthird : Reads third vs) :
    Reads (d.vectorText first second third) (d.vectorTokens ts us vs) := by
  intro rest more _ hmore
  have htext : (d.vectorText first second third).toList ++ rest
      = d.vectorConstructor.toList ++ '(' :: (first.toList ++ ',' :: ' ' ::
          (second.toList ++ ',' :: ' ' :: (third.toList ++ ')' :: rest))) := by
    simp [Dialect.vectorText]
  have htokens : d.vectorTokens ts us vs ++ more
      = .word d.vectorConstructor :: .opening ::
          (ts ++ .comma :: (us ++ .comma :: (vs ++ .closing :: more))) := by
    simp [Dialect.vectorTokens]
  rw [htext, htokens]
  apply tokens?_call hd.vector
  apply hfirst.argument
  apply hsecond.argument
  exact hthird.closed hmore

/-- A factor ends before a space and the sign of the product. -/
theorem tokens?_times {s : List Char} {more : List Token} (hs : tokens? s = some more) :
    tokens? (' ' :: '*' :: ' ' :: '(' :: s)
      = some (.operator (.arith .mult) :: .opening :: more) := by
  apply tokens?_space
  apply tokens?_sign rfl
  apply tokens?_space
  exact tokens?_sign rfl hs

theorem reads_blendText {d : Dialect} (hd : d.HasWords) {test yes no : String}
    {ts us vs : List Token} (htest : Reads test ts) (hyes : Reads yes us) (hno : Reads no vs) :
    Reads (d.blendText test yes no) (d.blendTokens ts us vs) := by
  intro rest more _ hmore
  have htext : (d.blendText test yes no).toList ++ rest
      = '(' :: (d.boolCast.toList ++ '(' :: (test.toList ++ ')' :: ' ' :: '*' :: ' ' :: '(' ::
          (yes.toList ++ ')' :: ' ' :: '+' :: ' ' :: (d.boolCast.toList ++ '(' :: '!' :: '(' ::
            (test.toList ++ ')' :: ')' :: ' ' :: '*' :: ' ' :: '(' ::
              (no.toList ++ ')' :: ')' :: rest)))))) := by
    simp [Dialect.blendText]
  have htokens : d.blendTokens ts us vs ++ more
      = .opening :: .word d.boolCast :: .opening :: (ts ++ .closing :: .operator (.arith .mult) ::
          .opening :: (us ++ .closing :: .operator (.arith .add) ::
            .word d.boolCast :: .opening :: .bang :: .opening :: (ts ++ .closing :: .closing ::
              .operator (.arith .mult) :: .opening :: (vs ++ .closing :: .closing :: more)))) := by
    simp [Dialect.blendTokens]
  rw [htext, htokens]
  -- cast(test) * (yes)
  apply tokens?_sign rfl
  apply tokens?_call hd.cast
  apply htest.closed
  apply tokens?_times
  apply hyes.closed
  -- the sign between the products
  apply tokens?_space
  apply tokens?_sign rfl
  apply tokens?_space
  -- cast(!(test)) * (no)
  apply tokens?_call hd.cast
  apply tokens?_sign rfl
  apply tokens?_sign rfl
  apply htest.closed
  apply tokens?_sign rfl
  apply tokens?_times
  apply hno.closed
  exact tokens?_sign rfl hmore

end Shading

/-! ## §3. Reading a tree. -/

/-- A dialect that leaves nothing out lets all kinds pass that can be
evaluated. -/
theorem Dialect.permit_eq_ok {d : Dialect} (h : d.unsupported = []) {kind : Kind}
    (hkind : kind.isGenerationOnly = false) : d.permit kind = .ok () := by
  unfold Dialect.permit Dialect.supports
  rw [hkind, h]
  rfl

/-- **A TRANSCRIBED TREE IS READ AS ITS TOKENS.** -/
theorem Expr.exists_text {d : Dialect} (hd : d.HasWords) (hall : d.unsupported = []) (e : Expr) :
    e.isConcrete = true → e.hasFiniteLiterals = true →
      ∃ text, e.transcribe d = .ok text ∧ Reads text (e.tokens d) := by
  induction e with
  | var v =>
      intro _ _
      refine ⟨d.variableNames.name v, ?_, reads_word (hd.names v)⟩
      unfold transcribe
      rw [Dialect.permit_eq_ok hall rfl]
      rfl
  | number v =>
      intro _ hfinite
      rw [hasFiniteLiterals_number] at hfinite
      obtain ⟨text, htext⟩ : ∃ text, d.numberStyle.spell? v = some text := by
        unfold NumberStyle.spell?
        rw [if_pos hfinite]
        cases d.numberStyle with
        | shortest => exact ⟨_, rfl⟩
        | decimal => exact ⟨_, rfl⟩
      refine ⟨text, ?_, reads_spell? htext⟩
      unfold transcribe Dialect.literal
      rw [Dialect.permit_eq_ok hall rfl, htext]
      rfl
  | boolean b =>
      intro _ _
      refine ⟨d.boolLiteral b, ?_, reads_word (hd.truths b)⟩
      unfold transcribe
      rw [Dialect.permit_eq_ok hall rfl]
      rfl
  | abs a iha =>
      intro hconcrete hfinite
      rw [isConcrete_abs] at hconcrete
      rw [hasFiniteLiterals_abs] at hfinite
      obtain ⟨text, htext, hread⟩ := iha hconcrete hfinite
      refine ⟨"abs(" ++ text ++ ")", ?_, ?_⟩
      · unfold transcribe
        rw [Dialect.permit_eq_ok hall rfl, htext]
        rfl
      · intro rest more _ hmore
        have hcall := tokens?_call (w := "abs") (by decide) (hread.closed hmore)
        simpa [Expr.tokens] using hcall
  | arith op a b iha ihb =>
      intro hconcrete hfinite
      rw [isConcrete_arith, Bool.and_eq_true] at hconcrete
      rw [hasFiniteLiterals_arith, Bool.and_eq_true] at hfinite
      obtain ⟨left, hleft, hreadl⟩ := iha hconcrete.1 hfinite.1
      obtain ⟨right, hright, hreadr⟩ := ihb hconcrete.2 hfinite.2
      refine ⟨infixText op.sign left right, ?_, ?_⟩
      · unfold transcribe
        rw [Dialect.permit_eq_ok hall rfl, hleft, hright]
        rfl
      · exact reads_infixText (fun _ _ hs => tokens?_arithSign op hs) hreadl hreadr
  | ge a b iha ihb =>
      intro hconcrete hfinite
      rw [isConcrete_ge, Bool.and_eq_true] at hconcrete
      rw [hasFiniteLiterals_ge, Bool.and_eq_true] at hfinite
      obtain ⟨left, hleft, hreadl⟩ := iha hconcrete.1 hfinite.1
      obtain ⟨right, hright, hreadr⟩ := ihb hconcrete.2 hfinite.2
      refine ⟨infixText ">=" left right, ?_, ?_⟩
      · unfold transcribe
        rw [Dialect.permit_eq_ok hall rfl, hleft, hright]
        rfl
      · exact reads_infixText (fun _ _ hs => tokens?_ge hs) hreadl hreadr
  | triple a b c iha ihb ihc =>
      intro hconcrete hfinite
      rw [isConcrete_triple, Bool.and_eq_true, Bool.and_eq_true] at hconcrete
      rw [hasFiniteLiterals_triple, Bool.and_eq_true, Bool.and_eq_true] at hfinite
      obtain ⟨first, hfirst, hread1⟩ := iha hconcrete.1 hfinite.1
      obtain ⟨second, hsecond, hread2⟩ := ihb hconcrete.2.1 hfinite.2.1
      obtain ⟨third, hthird, hread3⟩ := ihc hconcrete.2.2 hfinite.2.2
      refine ⟨d.vectorText first second third, ?_, reads_vectorText hd hread1 hread2 hread3⟩
      unfold transcribe
      rw [Dialect.permit_eq_ok hall rfl, hfirst, hsecond, hthird]
      rfl
  | cond test yes no iha ihb ihc =>
      intro hconcrete hfinite
      rw [isConcrete_cond, Bool.and_eq_true, Bool.and_eq_true] at hconcrete
      rw [hasFiniteLiterals_cond, Bool.and_eq_true, Bool.and_eq_true] at hfinite
      obtain ⟨first, hfirst, hread1⟩ := iha hconcrete.1 hfinite.1
      obtain ⟨second, hsecond, hread2⟩ := ihb hconcrete.2.1 hfinite.2.1
      obtain ⟨third, hthird, hread3⟩ := ihc hconcrete.2.2 hfinite.2.2
      refine ⟨d.blendText first second third, ?_, reads_blendText hd hread1 hread2 hread3⟩
      unfold transcribe
      rw [Dialect.permit_eq_ok hall rfl, hfirst, hsecond, hthird]
      rfl
  | random =>
      intro hconcrete
      rw [isConcrete_random] at hconcrete
      cases hconcrete
  | rule name =>
      intro hconcrete
      rw [isConcrete_rule] at hconcrete
      cases hconcrete

end ArtGrammar
