/-
  ArtGrammar.Proofs.Shader.Invariance
  ────────────────────────────────
  **THE SHADING LANGUAGES DIFFER IN SPELLING ALONE.**

  The texts of a tree in GLSL and in WGSL are made of the same lexemes in the
  same order, two words apart:

      GLSL   float   vec3
      WGSL   f32     vec3f

  Numbers are the same numbers, though they are spelled in different styles; and
  a tree that one of the languages refuses, the other refuses for the same fault.
-/
import ArtGrammar.Proofs.Shader.Lexeme
import ArtGrammar.Proofs.Shader.Recovery
import ArtGrammar.Proofs.Shader.Refusal

namespace ArtGrammar

open Shading

/-! ## §1. Refused trees. -/

/-- Without kinds left out, no dialect objects to more than another. -/
theorem Dialect.objection?_congr {d d' : Dialect} (h : d.unsupported = [])
    (h' : d'.unsupported = []) : d.objection? = d'.objection? := by
  funext node
  unfold Dialect.objection?
  rw [h, h']
  rfl

theorem Expr.transcribe_eq_error_congr {d d' : Dialect} (h : d.unsupported = [])
    (h' : d'.unsupported = []) {e : Expr} {fault : Fault} (he : e.transcribe d = .error fault) :
    e.transcribe d' = .error fault := by
  rw [transcribe_eq_error_iff] at he ⊢
  rw [Dialect.objection?_congr h' h]
  exact he

/-! ## §2. Renamed words. -/

/-- The lexeme with the words of GLSL for the vector and the scalar type replaced
by those of WGSL. -/
def Shading.Lexeme.toWgsl : Lexeme → Lexeme
  | .word "vec3" => .word "vec3f"
  | .word "float" => .word "f32"
  | lexeme => lexeme

/-- The lexemes of tokens, renamed. -/
def Shading.renamed (tokens : List Token) : List Lexeme :=
  (tokens.flatMap Token.lexemes).map Lexeme.toWgsl

theorem Shading.renamed_append (ts us : List Token) :
    renamed (ts ++ us) = renamed ts ++ renamed us := by
  unfold renamed
  rw [List.flatMap_append, List.map_append]

theorem Shading.renamed_cons (t : Token) (ts : List Token) :
    renamed (t :: ts) = t.lexemes.map Lexeme.toWgsl ++ renamed ts := by
  unfold renamed
  rw [List.flatMap_cons, List.map_append]

/-- **THE RENAMED LEXEMES OF A TREE IN GLSL ARE THOSE IN WGSL.** -/
theorem Expr.renamed_tokens (e : Expr) :
    renamed (e.tokens .glsl) = (e.tokens .wgsl).flatMap Token.lexemes := by
  induction e with
  | var v => cases v <;> rfl
  | number v => rfl
  | boolean b => cases b <;> rfl
  | abs a iha =>
      simp only [Expr.tokens, renamed_cons, renamed_append, iha, List.flatMap_cons,
        List.flatMap_append]
      rfl
  | arith op a b iha ihb =>
      simp only [Expr.tokens, infixTokens, renamed_cons, renamed_append, iha, ihb,
        List.flatMap_cons, List.flatMap_append]
      cases op <;> rfl
  | ge a b iha ihb =>
      simp only [Expr.tokens, infixTokens, renamed_cons, renamed_append, iha, ihb,
        List.flatMap_cons, List.flatMap_append]
      rfl
  | triple a b c iha ihb ihc =>
      simp only [Expr.tokens, Dialect.vectorTokens, renamed_cons, renamed_append, iha, ihb, ihc,
        List.flatMap_cons, List.flatMap_append]
      rfl
  | cond test yes no iha ihb ihc =>
      simp only [Expr.tokens, Dialect.blendTokens, renamed_cons, renamed_append, iha, ihb, ihc,
        List.flatMap_cons, List.flatMap_append]
      rfl
  | random => rfl
  | rule name => rfl

/-! ## §3. Both texts of a tree. -/

/-- **THE LANGUAGES TRANSCRIBE ALIKE.**  Either both refuse the tree for the same
fault, or both have a text for it, and the lexemes of one, with two words
renamed, are those of the other. -/
theorem Expr.transcribe_alike (e : Expr) :
    (∃ fault, e.transcribe .glsl = .error fault ∧ e.transcribe .wgsl = .error fault)
      ∨ ∃ text text' lexemes, e.transcribe .glsl = .ok text ∧ e.transcribe .wgsl = .ok text'
          ∧ lexemes? text.toList = some lexemes
          ∧ lexemes? text'.toList = some (lexemes.map Lexeme.toWgsl) := by
  cases hglsl : e.transcribe .glsl with
  | error fault =>
      left
      exact ⟨fault, rfl, transcribe_eq_error_congr rfl rfl hglsl⟩
  | ok text =>
      right
      have hread : Reads text (e.tokens .glsl) := reads_of_transcribe .glsl hglsl
      obtain ⟨hconcrete, hfinite⟩ := e.concrete_finite_of_transcribe text hglsl
      obtain ⟨text', htext', hread'⟩ :=
        e.exists_text (ShadingLanguage.hasWords .wgsl) rfl hconcrete hfinite
      refine ⟨text, text', (e.tokens .glsl).flatMap Token.lexemes, rfl, htext', ?_, ?_⟩
      · exact lexemes?_of_tokens? _ _ hread.tokens?_eq
      · rw [lexemes?_of_tokens? _ _ hread'.tokens?_eq]
        exact congrArg some (renamed_tokens e).symm

end ArtGrammar
