/-
  ArtGrammar.Proofs.Shader.Meaning
  ────────────────────────────────
  **SHADER TEXT MEANS WHAT THE EVALUATOR COMPUTES.**

  Read by the rules of its language, the text of a tree is a term of the same
  value at every viewpoint, and it is ill-typed exactly where evaluation fails:

      tree ──transcribe──▶ text ──tokens?──▶ tokens ──parse?──▶ term
        │                                                         │
        └──────── evaluate ────────▶ value ◀──────── value? ──────┘

  The term is the same in all languages.  A blend becomes a sum of two products
  with the cast truth value and its cast negation, which are the weights of the
  evaluator.
-/
import ArtGrammar.Proofs.Shader.Term
import ArtGrammar.Proofs.Shader.Transcription
import ArtGrammar.Proofs.Single.Weights
import ArtGrammar.Proofs.Value.Failure

namespace ArtGrammar

open Shading

/-! ## §1. The term of a tree. -/

/-- The blend of two terms by a truth value. -/
def Shading.blendTerm (test yes no : Term) : Term :=
  .binary (.arith .add) (.binary (.arith .mult) (.cast test) yes)
    (.binary (.arith .mult) (.cast (.not test)) no)

/-- The term that the text of a tree is. -/
def Expr.term : Expr → Term
  | .var v => .name (VariableNames.name {} v)
  | .number v => .number v
  | .boolean b => .truth b
  | .abs a => .abs (term a)
  | .arith op a b => .binary (.arith op) (term a) (term b)
  | .ge a b => .binary .ge (term a) (term b)
  | .triple a b c => .vector (term a) (term b) (term c)
  | .cond test yes no => blendTerm (term test) (term yes) (term no)
  | .random => .name "random"
  | .rule name => .name name

/-! ## §2. Parsing the tokens of a tree. -/

namespace Shading

variable {language : ShadingLanguage}

theorem builtin?_abs : language.builtin? "abs" = some .abs := by
  cases language with
  | glsl => rfl
  | wgsl => rfl

theorem builtin?_vector :
    language.builtin? language.dialect.vectorConstructor = some .vector := by
  cases language with
  | glsl => rfl
  | wgsl => rfl

theorem builtin?_cast : language.builtin? language.dialect.boolCast = some .cast := by
  cases language with
  | glsl => rfl
  | wgsl => rfl

theorem parses_infixTokens {op : Operator} {ts us : List Token} {a b : Term}
    (ha : Parses language ts a) (hb : Parses language us b) :
    Parses language (infixTokens op ts us) (.binary op a b) := by
  intro stack
  unfold infixTokens
  -- the parenthesis keeps what is open before it apart from the operator
  apply run_cons rfl
  apply ha.run_append
  apply run_cons rfl
  apply hb.run_append
  exact run_cons rfl rfl

theorem parses_vectorTokens {ts us vs : List Token} {a b c : Term}
    (ha : Parses language ts a) (hb : Parses language us b) (hc : Parses language vs c) :
    Parses language (language.dialect.vectorTokens ts us vs) (.vector a b c) := by
  intro stack
  unfold Dialect.vectorTokens
  apply run_call builtin?_vector
  apply ha.run_append
  apply run_cons rfl
  apply hb.run_append
  apply run_cons rfl
  apply hc.run_append
  exact run_cons rfl rfl

theorem parses_blendTokens {ts us vs : List Token} {a b c : Term}
    (ha : Parses language ts a) (hb : Parses language us b) (hc : Parses language vs c) :
    Parses language (language.dialect.blendTokens ts us vs) (blendTerm a b c) := by
  intro stack
  unfold Dialect.blendTokens
  -- ( cast ( test )
  apply run_cons rfl
  apply run_call_one builtin?_cast rfl ha
  -- * ( yes )
  apply run_cons rfl
  apply run_cons rfl
  apply hb.run_append
  apply run_cons rfl
  -- + cast ( ! ( test ) ), where the sum closes the product before it
  apply run_cons rfl
  apply run_call builtin?_cast
  apply run_cons rfl
  apply run_cons rfl
  apply ha.run_append
  apply run_cons rfl
  apply run_cons rfl
  -- * ( no ) ), where the second product stays over the sum until both are closed
  apply run_cons rfl
  apply run_cons rfl
  apply hc.run_append
  apply run_cons rfl
  exact run_cons rfl rfl

end Shading

/-- **THE TOKENS OF A TREE ARE PARSED TO ITS TERM.** -/
theorem Expr.parses_tokens (language : ShadingLanguage) (e : Expr) :
    e.isConcrete = true → Parses language (e.tokens language.dialect) e.term := by
  induction e with
  | var v =>
      intro _
      cases language with
      | glsl => cases v <;> exact parses_word rfl
      | wgsl => cases v <;> exact parses_word rfl
  | number v =>
      intro _ stack
      exact run_cons rfl rfl
  | boolean b =>
      intro _
      cases language with
      | glsl => cases b <;> exact parses_word rfl
      | wgsl => cases b <;> exact parses_word rfl
  | abs a iha =>
      intro h stack
      rw [isConcrete_abs] at h
      exact run_call_one builtin?_abs rfl (iha h) rfl
  | arith op a b iha ihb =>
      intro h
      rw [isConcrete_arith, Bool.and_eq_true] at h
      exact parses_infixTokens (iha h.1) (ihb h.2)
  | ge a b iha ihb =>
      intro h
      rw [isConcrete_ge, Bool.and_eq_true] at h
      exact parses_infixTokens (iha h.1) (ihb h.2)
  | triple a b c iha ihb ihc =>
      intro h
      rw [isConcrete_triple, Bool.and_eq_true, Bool.and_eq_true] at h
      exact parses_vectorTokens (iha h.1) (ihb h.2.1) (ihc h.2.2)
  | cond test yes no iha ihb ihc =>
      intro h
      rw [isConcrete_cond, Bool.and_eq_true, Bool.and_eq_true] at h
      exact parses_blendTokens (iha h.1) (ihb h.2.1) (ihc h.2.2)
  | random =>
      intro h
      rw [isConcrete_random] at h
      cases h
  | rule name =>
      intro h
      rw [isConcrete_rule] at h
      cases h

/-! ## §3. Values of terms. -/

/-- Both ways to combine values lane by lane agree. -/
theorem toOption_zip (kind : Kind) (f : Single → Single → Single) (v w : Value) :
    (Value.zip kind f v w).toOption = lanewise f v w := by
  cases v <;> cases w <;> rfl

theorem toOption_zip_arith (op : Arith) (v w : Value) :
    (Value.zip (.arith op) op.apply v w).toOption = Operator.result? (.arith op) v w := by
  rw [toOption_zip]
  cases op with
  | add => rfl
  | mult => rfl
  | mod => rfl

theorem variableNamed?_name (v : Variable) :
    variableNamed? (VariableNames.name {} v) = some v := by
  cases v <;> rfl

/-- **THE TERM OF A TREE HAS THE VALUE OF THE TREE.** -/
theorem Expr.value?_term (p : Viewpoint) (e : Expr) :
    e.isConcrete = true → e.term.value? p = (e.evaluate p).toOption := by
  induction e with
  | var v =>
      intro _
      unfold Expr.term Term.value?
      rw [variableNamed?_name]
      rfl
  | number v => exact fun _ => rfl
  | boolean b => exact fun _ => rfl
  | abs a iha =>
      intro h
      rw [isConcrete_abs] at h
      unfold Expr.term Term.value? evaluate
      rw [toOption_bind, ← iha h]
      rcases a.term.value? p with _ | ⟨_ | _ | _⟩ <;> rfl
  | arith op a b iha ihb =>
      intro h
      rw [isConcrete_arith, Bool.and_eq_true] at h
      unfold Expr.term Term.value? evaluate
      simp only [toOption_bind, ← iha h.1, ← ihb h.2, toOption_zip_arith]
  | ge a b iha ihb =>
      intro h
      rw [isConcrete_ge, Bool.and_eq_true] at h
      unfold Expr.term Term.value? evaluate
      simp only [toOption_bind, ← iha h.1, ← ihb h.2]
      rcases a.term.value? p with _ | ⟨_ | _ | _⟩ <;>
        rcases b.term.value? p with _ | ⟨_ | _ | _⟩ <;> rfl
  | triple a b c iha ihb ihc =>
      intro h
      rw [isConcrete_triple, Bool.and_eq_true, Bool.and_eq_true] at h
      unfold Expr.term Term.value? evaluate
      simp only [toOption_bind, ← iha h.1, ← ihb h.2.1, ← ihc h.2.2]
      rcases a.term.value? p with _ | ⟨_ | _ | _⟩ <;>
        rcases b.term.value? p with _ | ⟨_ | _ | _⟩ <;>
          rcases c.term.value? p with _ | ⟨_ | _ | _⟩ <;> rfl
  | cond test yes no iha ihb ihc =>
      intro h
      rw [isConcrete_cond, Bool.and_eq_true, Bool.and_eq_true] at h
      unfold Expr.term blendTerm evaluate
      simp only [toOption_bind, Term.value?, ← iha h.1, ← ihb h.2.1, ← ihc h.2.2, toOption_zip]
      rcases test.term.value? p with _ | ⟨_ | b | _⟩
      · rfl
      · rfl
      · -- only a truth value is a test; then both sides are the same weighted sum
        have htest : (Value.bool b).toTest.toOption = some b := rfl
        simp only [Option.bind_some, Option.bind_assoc, htest, one_sub_weight, Operator.result?]
      · rfl
  | random =>
      intro h
      rw [isConcrete_random] at h
      cases h
  | rule name =>
      intro h
      rw [isConcrete_rule] at h
      cases h

/-! ## §4. The text of a tree. -/

/-- Neither language leaves out kinds of nodes. -/
theorem ShadingLanguage.unsupported_dialect (language : ShadingLanguage) :
    language.dialect.unsupported = [] := by
  cases language with
  | glsl => rfl
  | wgsl => rfl

/-- What reads as the tokens of a tree is its term. -/
theorem Expr.ofText?_of_reads {language : ShadingLanguage} {e : Expr} {text : String}
    (hconcrete : e.isConcrete = true) (hread : Reads text (e.tokens language.dialect)) :
    Term.ofText? language text = some e.term := by
  unfold Term.ofText?
  rw [hread.tokens?_eq]
  show parse? language _ = _
  unfold parse?
  rw [e.parses_tokens language hconcrete []]
  rfl

/-- The text of a tree is its term. -/
theorem Expr.exists_text_ofText? (language : ShadingLanguage) {e : Expr}
    (hconcrete : e.isConcrete = true) (hfinite : e.hasFiniteLiterals = true) :
    ∃ text, e.transcribe language.dialect = .ok text
      ∧ Term.ofText? language text = some e.term := by
  obtain ⟨text, htext, hread⟩ :=
    e.exists_text language.hasWords language.unsupported_dialect hconcrete hfinite
  exact ⟨text, htext, ofText?_of_reads hconcrete hread⟩

/-- **THE TEXT OF A TREE MEANS WHAT THE EVALUATOR COMPUTES.**  A concrete tree of
finite literals is transcribed in every language; its text is a term whose value
at every viewpoint is that of the tree, and which is ill-typed exactly if
evaluation fails for a value of the wrong type. -/
theorem Expr.transcribe_means_evaluate (language : ShadingLanguage) (e : Expr)
    (hconcrete : e.isConcrete = true) (hfinite : e.hasFiniteLiterals = true) :
    ∃ text term, e.transcribe language.dialect = .ok text
      ∧ Term.ofText? language text = some term
      ∧ ∀ p, (∀ v, term.value? p = some v ↔ e.evaluate p = .ok v)
          ∧ (term.type? = none ↔ ∃ cause, e.evaluate p = .error (.evaluation cause)) := by
  obtain ⟨text, htext, hterm⟩ := e.exists_text_ofText? language hconcrete hfinite
  refine ⟨text, e.term, htext, hterm, fun p => ?_⟩
  have hvalue := e.value?_term p hconcrete
  have hfails := e.failsByType_evaluate p hconcrete
  rw [e.term.type?_eq p, hvalue]
  -- values and types are both read off the result of evaluation
  cases heval : e.evaluate p with
  | ok v =>
      constructor
      · intro w
        show some v = some w ↔ _
        rw [Option.some.injEq, Except.ok.injEq]
      · constructor
        · intro h
          cases h
        · rintro ⟨cause, h⟩
          cases h
  | error fault =>
      obtain ⟨cause, rfl⟩ := hfails fault heval
      constructor
      · intro w
        constructor
        · intro h
          cases h
        · intro h
          cases h
      · exact ⟨fun _ => ⟨cause, rfl⟩, fun _ => rfl⟩

/-- A tree with a blend, a remainder and a vector. -/
theorem Expr.transcribe_means_evaluate_cool :
    cool.isConcrete = true ∧ cool.hasFiniteLiterals = true
      ∧ ∃ text term, cool.transcribe Dialect.glsl = .ok text
          ∧ Term.ofText? .glsl text = some term
          ∧ ∀ v, term.value? {} = some v ↔ cool.evaluate {} = .ok v := by
  have hconcrete : cool.isConcrete = true := by decide
  have hfinite : cool.hasFiniteLiterals = true := by decide
  obtain ⟨text, term, htext, hterm, hmeans⟩ :=
    transcribe_means_evaluate .glsl cool hconcrete hfinite
  exact ⟨hconcrete, hfinite, text, term, htext, hterm, (hmeans {}).1⟩

end ArtGrammar
