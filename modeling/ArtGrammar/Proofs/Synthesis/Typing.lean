/-
  ArtGrammar.Proofs.Synthesis.Typing
  ────────────────────────────────
  **TYPED GRAMMARS EXPAND TO TREES THAT CAN BE EVALUATED.**

  A grammar is typed if each rule has a type that all its templates have.  Trees
  that fill the references of a template by their types leave its type as it is,
  so a derived tree has the type of its rule, and a value of it everywhere:

      template : types r  ──expansion──▶  tree : types r  ──evaluate──▶  value : types r
-/
import ArtGrammar.Grammar.Classic
import ArtGrammar.Grammar.Quadrants
import ArtGrammar.Proofs.Grammar.Validity
import ArtGrammar.Proofs.Synthesis.Derived
import ArtGrammar.Proofs.Value.Typing

namespace ArtGrammar

/-! ## §1. Instances. -/

/-- **FILLING REFERENCES BY THEIR TYPES KEEPS THE TYPE.** -/
theorem Expr.HasType.instance {Fills : String → Expr → Prop} {types : String → ValueType}
    (hfills : ∀ name u, Fills name u → u.HasType types (types name)) {e t : Expr}
    (ht : e.Instance Fills t) : ∀ {s}, e.HasType types s → t.HasType types s := by
  induction ht with
  | var v => exact fun h => h
  | number v => exact fun h => h
  | boolean b => exact fun h => h
  | random k _ _ =>
      intro s h
      cases h
      exact .number _
  | rule ht =>
      intro s h
      cases h
      exact hfills _ _ ht
  | abs _ iha =>
      intro s h
      cases h with
      | abs ha hs => exact .abs (iha ha) hs
  | arith op _ _ iha ihb =>
      intro s h
      cases h with
      | arith _ ha hb hu => exact .arith op (iha ha) (ihb hb) hu
  | ge _ _ iha ihb =>
      intro s h
      cases h with
      | ge ha hb => exact .ge (iha ha) (ihb hb)
  | triple _ _ _ iha ihb ihc =>
      intro s h
      cases h with
      | triple ha hb hc => exact .triple (iha ha) (ihb hb) (ihc hc)
  | cond _ _ _ ihtest ihyes ihno =>
      intro s h
      cases h with
      | cond htest hyes hno hu => exact .cond (ihtest htest) (ihyes hyes) (ihno hno) hu

/-! ## §2. Derived trees. -/

namespace Grammar

/-- All templates of a rule have the type of the rule. -/
def WellTyped (g : Grammar) (types : String → ValueType) : Prop :=
  ∀ r ∈ g.rules, ∀ b ∈ r.branches, b.template.HasType types (types r.name)

instance (g : Grammar) (types : String → ValueType) : Decidable (g.WellTyped types) :=
  inferInstanceAs (Decidable
    (∀ r ∈ g.rules, ∀ b ∈ r.branches, b.template.HasType types (types r.name)))

/-- **A DERIVED TREE HAS THE TYPE OF ITS RULE.** -/
theorem WellTyped.hasType {g : Grammar} {types : String → ValueType} (hg : g.WellTyped types)
    {rule : String} {t : Expr} (h : g.Derives rule t) : t.HasType types (types rule) := by
  refine h.induction (P := fun rule t => t.HasType types (types rule)) ?_
  intro rule branches b t hfind hb ht
  have hbranch := hg _ (find?_eq_some_iff.1 hfind) b hb
  exact Expr.HasType.instance (fun _ _ h => h) ht hbranch

/-! ## §3. Typed grammars. -/

/-- The types of the rules of the classic and the quadrants grammar: `E` is a
color and `B` a comparison. -/
def artTypes : String → ValueType
  | "E" => .vector
  | "B" => .bool
  | _ => .scalar

/-- **A TYPED GRAMMAR EXPANDS TO TREES THAT CAN BE EVALUATED.**  Every tree that a
rule of it expands to, within whatever budget and limit and on whatever tape, has
a value of the type of the rule at every viewpoint, and a color unless that is a
truth value.  The classic and the quadrants grammar are typed, and their start
rule is a vector. -/
theorem wellTyped_expansion_yields :
    (∀ (g : Grammar) (types : String → ValueType), g.WellTyped types →
        ∀ (rule : String) (budget : Int) (tape : Tape) (i : Nat) (t : Expr) (j : Nat),
          ((g.expandRule rule budget).run tape i = (.ok t, j) → t.Yields (types rule))
            ∧ ∀ limit, (g.expandWithin limit rule budget).run tape i = (.ok t, j) →
                t.Yields (types rule))
      ∧ classic.WellTyped artTypes ∧ quadrants.WellTyped artTypes
      ∧ artTypes classicStart = .vector := by
  refine ⟨?_, by decide, by decide, by decide⟩
  intro g types hg rule budget tape i t j
  have hyields : ∀ limit, (g.expandWithin limit rule budget).run tape i = (.ok t, j) →
      t.Yields (types rule) := by
    intro limit hrun
    have hderives := g.derives_of_run_expandWithin limit rule budget t i j hrun
    exact (hg.hasType hderives).yields hderives.isConcrete
  exact ⟨hyields _, hyields⟩

/-- On the tape of zeros the start rule of the quadrants grammar expands to a
vector of three equal leaves. -/
theorem wellTyped_expansion_yields_quadrants :
    quadrants.WellTyped artTypes
      ∧ (quadrants.expandRule "E" 1).run (Tape.endless fun _ => 0) 0 = (.ok .gradient, 7)
      ∧ Expr.gradient.Yields .vector := by
  have htyped : quadrants.WellTyped artTypes := by decide
  have hrun : (quadrants.expandRule "E" 1).run (Tape.endless fun _ => 0) 0
      = (.ok .gradient, 7) := by decide +kernel
  have hyields := (wellTyped_expansion_yields.1 quadrants artTypes htyped "E" 1 _ 0 _ 7).1 hrun
  exact ⟨htyped, hrun, hyields⟩

end Grammar

end ArtGrammar
