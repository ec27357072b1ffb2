/-
  ArtGrammar.Proofs.Shader.Recovery
  ────────────────────────────────
  **A TREE IS RECOVERED FROM ITS TEXT.**

  Only trees whose text can be read back are transcribed at all, and each
  construct of the shading languages comes from one kind of node:

      name, number, truth value      a leaf
      abs(a), vec3(a, b, c)          a magnitude, a vector
      (a + b)  (a * b)  …  (a >= b)  an operation
      (cast(t) * (y) + cast(!(t)) * (n))     a blend

  A blend is a sum of products like others, but no other node has a cast in its
  text; so the cast tells it apart, and both of its tests have to be the same.
-/
import ArtGrammar.Proofs.Shader.Meaning

namespace ArtGrammar

open Shading

/-! ## §1. From terms to trees. -/

/-- The tree that a term is the text of. -/
def Shading.Term.tree? : Term → Option Expr
  | .name word => (variableNamed? word).map .var
  | .number v => some (.number v)
  | .truth b => some (.boolean b)
  | .abs a => do
    let a ← a.tree?
    return .abs a
  | .vector a b c => do
    let a ← a.tree?
    let b ← b.tree?
    let c ← c.tree?
    return .triple a b c
  | .binary (.arith .add) (.binary (.arith .mult) (.cast test) yes)
      (.binary (.arith .mult) (.cast (.not test')) no) =>
    if test = test' then do
      let test ← test.tree?
      let yes ← yes.tree?
      let no ← no.tree?
      return .cond test yes no
    else none
  | .binary (.arith op) a b => do
    let a ← a.tree?
    let b ← b.tree?
    return .arith op a b
  | .binary .ge a b => do
    let a ← a.tree?
    let b ← b.tree?
    return .ge a b
  | .cast _ => none
  | .not _ => none

/-- The tree that a text of a shading language is the text of. -/
def Expr.ofText? (language : ShadingLanguage) (text : String) : Option Expr :=
  (Term.ofText? language text).bind Term.tree?

/-- An operation is not taken for a blend if its left operand is no weighted
side. -/
theorem Shading.Term.tree?_arith (op : Arith) {a b : Term}
    (ha : ∀ test yes, a ≠ .binary (.arith .mult) (.cast test) yes) :
    (binary (.arith op) a b).tree?
      = a.tree?.bind fun t => b.tree?.bind fun u => some (.arith op t u) := by
  conv => lhs; unfold tree?
  split
  case h_6 h =>
    cases h
    exact absurd rfl (ha _ _)
  case h_7 h =>
    cases h
    rfl
  all_goals rename_i h; cases h

/-! ## §2. Recovering a tree from its term. -/

/-- No tree is a cast, -/
theorem Expr.term_ne_cast (e : Expr) (a : Term) : e.term ≠ .cast a := by
  cases e <;> simp [Expr.term, blendTerm]

/-- so none is a side that a cast weighs. -/
theorem Expr.term_ne_weighted (e : Expr) (test yes : Term) :
    e.term ≠ .binary (.arith .mult) (.cast test) yes := by
  intro h
  cases e with
  | arith op a b =>
      injection h with _ ha _
      exact a.term_ne_cast test ha
  | _ => cases h

/-- **A TREE IS RECOVERED FROM ITS TERM.** -/
theorem Expr.tree?_term (e : Expr) : e.isConcrete = true → e.term.tree? = some e := by
  induction e with
  | var v =>
      intro _
      unfold Expr.term Term.tree?
      rw [variableNamed?_name]
      rfl
  | number v => exact fun _ => rfl
  | boolean b => exact fun _ => rfl
  | abs a iha =>
      intro h
      rw [isConcrete_abs] at h
      simp [Expr.term, Term.tree?, iha h]
  | arith op a b iha ihb =>
      intro h
      rw [isConcrete_arith, Bool.and_eq_true] at h
      show (Term.binary (.arith op) a.term b.term).tree? = _
      rw [Term.tree?_arith op a.term_ne_weighted, iha h.1, ihb h.2]
      rfl
  | ge a b iha ihb =>
      intro h
      rw [isConcrete_ge, Bool.and_eq_true] at h
      simp [Expr.term, Term.tree?, iha h.1, ihb h.2]
  | triple a b c iha ihb ihc =>
      intro h
      rw [isConcrete_triple, Bool.and_eq_true, Bool.and_eq_true] at h
      simp [Expr.term, Term.tree?, iha h.1, ihb h.2.1, ihc h.2.2]
  | cond test yes no iha ihb ihc =>
      intro h
      rw [isConcrete_cond, Bool.and_eq_true, Bool.and_eq_true] at h
      simp [Expr.term, blendTerm, Term.tree?, iha h.1, ihb h.2.1, ihc h.2.2]
  | random =>
      intro h
      rw [isConcrete_random] at h
      cases h
  | rule name =>
      intro h
      rw [isConcrete_rule] at h
      cases h

/-! ## §3. Trees with a text. -/

/-- Only finite numbers are spelled. -/
theorem NumberStyle.isFinite_of_spell? {style : NumberStyle} {v : Single} {s : String}
    (h : style.spell? v = some s) : v.isFinite = true := by
  unfold NumberStyle.spell? at h
  split at h
  · assumption
  · cases h

theorem Dialect.isFinite_of_literal {d : Dialect} {v : Single} {s : String}
    (h : d.literal v = .ok s) : v.isFinite = true := by
  unfold Dialect.literal at h
  split at h
  · next hs => exact NumberStyle.isFinite_of_spell? hs
  · cases h

/-- **ONLY CONCRETE TREES OF FINITE LITERALS HAVE A TEXT.** -/
theorem Expr.concrete_finite_of_transcribe {d : Dialect} (e : Expr) :
    ∀ text, e.transcribe d = .ok text → e.isConcrete = true ∧ e.hasFiniteLiterals = true := by
  induction e with
  | var v => exact fun _ _ => ⟨rfl, rfl⟩
  | number v =>
      intro text h
      obtain ⟨_, _, h⟩ := bind_eq_ok.mp h
      rw [hasFiniteLiterals_number]
      exact ⟨rfl, Dialect.isFinite_of_literal h⟩
  | boolean b => exact fun _ _ => ⟨rfl, rfl⟩
  | abs a iha =>
      intro text h
      obtain ⟨_, _, h⟩ := bind_eq_ok.mp h
      obtain ⟨left, ha, _⟩ := bind_eq_ok.mp h
      rw [isConcrete_abs, hasFiniteLiterals_abs]
      exact iha left ha
  | arith op a b iha ihb =>
      intro text h
      obtain ⟨_, _, h⟩ := bind_eq_ok.mp h
      obtain ⟨left, ha, h⟩ := bind_eq_ok.mp h
      obtain ⟨right, hb, _⟩ := bind_eq_ok.mp h
      simp [iha left ha, ihb right hb]
  | ge a b iha ihb =>
      intro text h
      obtain ⟨_, _, h⟩ := bind_eq_ok.mp h
      obtain ⟨left, ha, h⟩ := bind_eq_ok.mp h
      obtain ⟨right, hb, _⟩ := bind_eq_ok.mp h
      simp [iha left ha, ihb right hb]
  | triple a b c iha ihb ihc =>
      intro text h
      obtain ⟨_, _, h⟩ := bind_eq_ok.mp h
      obtain ⟨first, ha, h⟩ := bind_eq_ok.mp h
      obtain ⟨second, hb, h⟩ := bind_eq_ok.mp h
      obtain ⟨third, hc, _⟩ := bind_eq_ok.mp h
      simp [iha first ha, ihb second hb, ihc third hc]
  | cond test yes no iha ihb ihc =>
      intro text h
      obtain ⟨_, _, h⟩ := bind_eq_ok.mp h
      obtain ⟨first, ha, h⟩ := bind_eq_ok.mp h
      obtain ⟨second, hb, h⟩ := bind_eq_ok.mp h
      obtain ⟨third, hc, _⟩ := bind_eq_ok.mp h
      simp [iha first ha, ihb second hb, ihc third hc]
  | random =>
      intro text h
      cases h
  | rule name =>
      intro text h
      cases h

/-- The text of a tree reads as the tokens of the tree. -/
theorem Expr.reads_of_transcribe (language : ShadingLanguage) {e : Expr} {text : String}
    (h : e.transcribe language.dialect = .ok text) : Reads text (e.tokens language.dialect) := by
  obtain ⟨hconcrete, hfinite⟩ := e.concrete_finite_of_transcribe text h
  obtain ⟨text', htext', hread⟩ :=
    e.exists_text language.hasWords language.unsupported_dialect hconcrete hfinite
  have hsame : text' = text := Except.ok.inj (htext'.symm.trans h)
  rwa [hsame] at hread

/-- The text of a tree is read as the tree. -/
theorem Expr.ofText?_of_transcribe {language : ShadingLanguage} {e : Expr} {text : String}
    (h : e.transcribe language.dialect = .ok text) : ofText? language text = some e := by
  have hconcrete := (e.concrete_finite_of_transcribe text h).1
  unfold ofText?
  rw [ofText?_of_reads hconcrete (reads_of_transcribe language h)]
  exact e.tree?_term hconcrete

/-- Exactly the concrete trees of finite literals have a text. -/
theorem Expr.exists_transcribe_iff (language : ShadingLanguage) (e : Expr) :
    (∃ text, e.transcribe language.dialect = .ok text)
      ↔ e.isConcrete = true ∧ e.hasFiniteLiterals = true := by
  constructor
  · rintro ⟨text, h⟩
    exact e.concrete_finite_of_transcribe text h
  · rintro ⟨hconcrete, hfinite⟩
    obtain ⟨text, htext, _⟩ := e.exists_text_ofText? language hconcrete hfinite
    exact ⟨text, htext⟩

/-- **TEXT IS UNAMBIGUOUS.**  In every language exactly the concrete trees of finite
literals have a text, and the text of a tree is read as the tree, to the bits of
its numbers; so no two trees have the same text. -/
theorem Expr.transcribe_unambiguous (language : ShadingLanguage) :
    (∀ e : Expr, (∃ text, e.transcribe language.dialect = .ok text)
        ↔ e.isConcrete = true ∧ e.hasFiniteLiterals = true)
      ∧ (∀ (e : Expr) (text : String), e.transcribe language.dialect = .ok text →
          ofText? language text = some e)
      ∧ ∀ (a b : Expr) (text : String), a.transcribe language.dialect = .ok text →
          b.transcribe language.dialect = .ok text → a = b := by
  refine ⟨exists_transcribe_iff language, fun e text h => ofText?_of_transcribe h, ?_⟩
  intro a b text ha hb
  have hsame : some a = some b :=
    (ofText?_of_transcribe ha).symm.trans (ofText?_of_transcribe hb)
  exact Option.some.inj hsame

/-- A blend is read back from its text, and the two zeros have different texts. -/
theorem Expr.transcribe_unambiguous_cool :
    ofText? .wgsl ("(f32(((x * y) >= 0)) * (vec3f(x, y, 1)) + "
        ++ "f32(!(((x * y) >= 0))) * (vec3f((x % y), (x % y), (x % y))))") = some cool
      ∧ (number 0).transcribe Dialect.wgsl = .ok "0"
      ∧ (number (-0)).transcribe Dialect.wgsl ≠ .ok "0" := by
  obtain ⟨_, hread, hinjective⟩ := transcribe_unambiguous .wgsl
  refine ⟨hread cool _ (by decide +kernel), by decide +kernel, ?_⟩
  intro h
  have hsame := hinjective (number 0) (number (-0)) "0" (by decide +kernel) h
  exact absurd hsame (by decide)

end ArtGrammar
