/-
  ArtGrammar.Proofs.Value.Failure
  ────────────────────────────────
  **HOW EVALUATION FAILS.**

  A concrete tree has a value, or an operation in it has an operand of the wrong
  type.  Each step of an evaluation is a sequence of steps that answer or find
  such an operand, and sequences keep that.
-/
import ArtGrammar.Proofs.Expr.Nodes
import ArtGrammar.Value.Evaluation

namespace ArtGrammar

/-! ## §1. Sequences and operations. -/

/-- What a sequence answers is what its parts answer. -/
theorem toOption_bind {α β : Type} (x : Except Fault α) (f : α → Except Fault β) :
    (x >>= f).toOption = x.toOption.bind fun a => (f a).toOption := by
  cases x with
  | error fault => rfl
  | ok a => rfl

/-- A sequence that answers has parts that answer. -/
theorem bind_eq_ok {ε α β : Type} {x : Except ε α} {f : α → Except ε β} {b : β} :
    x >>= f = .ok b ↔ ∃ a, x = .ok a ∧ f a = .ok b := by
  cases x with
  | error fault =>
      constructor
      · intro h
        cases h
      · rintro ⟨a, h, _⟩
        cases h
  | ok a =>
      constructor
      · intro h
        exact ⟨a, rfl, h⟩
      · rintro ⟨a', h, hb⟩
        cases h
        exact hb

/-- If it fails, then for an operand of the wrong type. -/
def FailsByType {α : Type} (x : Except Fault α) : Prop :=
  ∀ fault, x = .error fault → ∃ cause, fault = .evaluation cause

theorem failsByType_ok {α : Type} (a : α) : FailsByType (.ok a : Except Fault α) := by
  intro fault h
  cases h

theorem failsByType_evaluation {α : Type} (cause : EvaluationFault) :
    FailsByType (.error (.evaluation cause) : Except Fault α) := by
  intro fault h
  cases h
  exact ⟨cause, rfl⟩

theorem FailsByType.bind {α β : Type} {x : Except Fault α} {f : α → Except Fault β}
    (hx : FailsByType x) (hf : ∀ a, FailsByType (f a)) : FailsByType (x >>= f) := by
  cases x with
  | error cause =>
      intro fault h
      cases h
      exact hx cause rfl
  | ok a => exact hf a

theorem failsByType_zip (kind : Kind) (f : Single → Single → Single) (v w : Value) :
    FailsByType (Value.zip kind f v w) := by
  unfold Value.zip
  split
  · exact failsByType_ok _
  · exact failsByType_evaluation _

theorem failsByType_toScalar (kind : Kind) (v : Value) : FailsByType (v.toScalar kind) := by
  cases v with
  | scalar v => exact failsByType_ok v
  | bool b => exact failsByType_evaluation _
  | vector v => exact failsByType_evaluation _

theorem failsByType_toTest (v : Value) : FailsByType v.toTest := by
  cases v with
  | scalar v => exact failsByType_evaluation _
  | bool b => exact failsByType_ok b
  | vector v => exact failsByType_evaluation _

theorem failsByType_abs (v : Value) : FailsByType v.abs := by
  cases v with
  | scalar v => exact failsByType_ok _
  | bool b => exact failsByType_evaluation _
  | vector v => exact failsByType_ok _

/-! ## §2. Trees. -/

/-- Evaluating a concrete tree fails in no other way. -/
theorem Expr.failsByType_evaluate (p : Viewpoint) (e : Expr) :
    e.isConcrete = true → FailsByType (e.evaluate p) := by
  induction e with
  | var v => exact fun _ => failsByType_ok _
  | number v => exact fun _ => failsByType_ok _
  | boolean b => exact fun _ => failsByType_ok _
  | abs a iha =>
      intro h
      rw [isConcrete_abs] at h
      exact (iha h).bind fun v => failsByType_abs v
  | arith op a b iha ihb =>
      intro h
      rw [isConcrete_arith, Bool.and_eq_true] at h
      exact (iha h.1).bind fun v => (ihb h.2).bind fun w => failsByType_zip _ _ v w
  -- below, one step for each child and one for the check of its value, in
  -- the order of the evaluator
  | ge a b iha ihb =>
      intro h
      rw [isConcrete_ge, Bool.and_eq_true] at h
      exact (iha h.1).bind fun v => (failsByType_toScalar _ v).bind fun _ =>
        (ihb h.2).bind fun w => (failsByType_toScalar _ w).bind fun _ => failsByType_ok _
  | triple a b c iha ihb ihc =>
      intro h
      rw [isConcrete_triple, Bool.and_eq_true, Bool.and_eq_true] at h
      exact (iha h.1).bind fun u => (failsByType_toScalar _ u).bind fun _ =>
        (ihb h.2.1).bind fun v => (failsByType_toScalar _ v).bind fun _ =>
          (ihc h.2.2).bind fun w => (failsByType_toScalar _ w).bind fun _ => failsByType_ok _
  | cond test yes no iha ihb ihc =>
      intro h
      rw [isConcrete_cond, Bool.and_eq_true, Bool.and_eq_true] at h
      exact (iha h.1).bind fun u => (failsByType_toTest u).bind fun _ =>
        (ihb h.2.1).bind fun v => (failsByType_zip _ _ _ v).bind fun _ =>
          (ihc h.2.2).bind fun w => (failsByType_zip _ _ _ w).bind fun _ =>
            failsByType_zip _ _ _ _
  -- the nodes that fail otherwise are not concrete
  | random =>
      intro h
      rw [isConcrete_random] at h
      cases h
  | rule name =>
      intro h
      rw [isConcrete_rule] at h
      cases h

end ArtGrammar
