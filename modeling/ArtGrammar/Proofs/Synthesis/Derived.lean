/-
  ArtGrammar.Proofs.Synthesis.Derived
  ────────────────────────────────
  **WHAT DERIVED TREES ARE MADE OF.**

      nodes      those of templates, but no random node and no reference
      literals   those of templates, and the fractions k / 2^23

  So a derived tree is concrete, whatever the grammar; and as the fractions are
  finite, it has finite literals if all templates do.
-/
import ArtGrammar.Proofs.Grammar.Validity
import ArtGrammar.Proofs.Synthesis.Reachability

namespace ArtGrammar

/-! ## §1. Instances. -/

section
variable {Fills : String → Expr → Prop}

/-- Filled with concrete trees a template is a concrete tree. -/
theorem Expr.Instance.isConcrete (hfills : ∀ name u, Fills name u → u.isConcrete = true)
    {e t : Expr} (ht : e.Instance Fills t) : t.isConcrete = true := by
  induction ht with
  | var v => rfl
  | number v => rfl
  | boolean b => rfl
  | random k _ _ => rfl
  | rule ht => exact hfills _ _ ht
  | abs _ iha => simp [iha]
  | arith op _ _ iha ihb => simp [iha, ihb]
  | ge _ _ iha ihb => simp [iha, ihb]
  | triple _ _ _ iha ihb ihc => simp [iha, ihb, ihc]
  | cond _ _ _ iha ihb ihc => simp [iha, ihb, ihc]

/-- Filled with trees of finite literals a template of finite literals is one
again. -/
theorem Expr.Instance.hasFiniteLiterals
    (hfills : ∀ name u, Fills name u → u.hasFiniteLiterals = true) {e t : Expr}
    (ht : e.Instance Fills t) : e.hasFiniteLiterals = true → t.hasFiniteLiterals = true := by
  induction ht with
  | var v => exact id
  | number v => exact id
  | boolean b => exact id
  | random k hlow hhigh =>
      intro _
      rw [hasFiniteLiterals_number]
      exact isFinite_signedFraction k hlow hhigh
  | rule ht => exact fun _ => hfills _ _ ht
  | abs _ iha => simpa using iha
  | arith op _ _ iha ihb =>
      simp only [hasFiniteLiterals_arith, Bool.and_eq_true]
      exact fun h => ⟨iha h.1, ihb h.2⟩
  | ge _ _ iha ihb =>
      simp only [hasFiniteLiterals_ge, Bool.and_eq_true]
      exact fun h => ⟨iha h.1, ihb h.2⟩
  | triple _ _ _ iha ihb ihc =>
      simp only [hasFiniteLiterals_triple, Bool.and_eq_true]
      exact fun h => ⟨iha h.1, ihb h.2.1, ihc h.2.2⟩
  | cond _ _ _ iha ihb ihc =>
      simp only [hasFiniteLiterals_cond, Bool.and_eq_true]
      exact fun h => ⟨iha h.1, ihb h.2.1, ihc h.2.2⟩

end

/-! ## §2. Derived trees. -/

namespace Grammar

/-- Derived trees are concrete, whatever the grammar. -/
theorem Derives.isConcrete {g : Grammar} {rule : String} {t : Expr} (h : g.Derives rule t) :
    t.isConcrete = true :=
  h.induction (P := fun _ t => t.isConcrete = true)
    fun _ _ _ _ _ _ ht => ht.isConcrete fun _ _ h => h

/-- All literals of all templates are finite. -/
def HasFiniteLiterals (g : Grammar) : Prop :=
  ∀ r ∈ g.rules, ∀ b ∈ r.branches, b.template.hasFiniteLiterals = true

instance (g : Grammar) : Decidable g.HasFiniteLiterals :=
  inferInstanceAs (Decidable
    (∀ r ∈ g.rules, ∀ b ∈ r.branches, b.template.hasFiniteLiterals = true))

/-- **FINITE LITERALS STAY FINITE.** -/
theorem HasFiniteLiterals.derives {g : Grammar} (hg : g.HasFiniteLiterals) {rule : String}
    {t : Expr} (h : g.Derives rule t) : t.hasFiniteLiterals = true := by
  refine h.induction (P := fun _ t => t.hasFiniteLiterals = true) ?_
  intro rule branches b t hfind hb ht
  have hbranch := hg _ (find?_eq_some_iff.1 hfind) b hb
  exact ht.hasFiniteLiterals (fun _ _ h => h) hbranch

end Grammar

end ArtGrammar
