/-
  ArtGrammar.Proofs.Synthesis.Derivation
  ────────────────────────────────
  **WHAT IS EXPANDED IS DERIVED.**

  A grammar derives trees from its rules, without budgets and draws:

      Instance   the template with its two kinds of holes filled:
                   random      a number k / 2^23,  -2^23 ≤ k < 2^23
                   rule name   a tree that is derived from the name
      Derives    an instance of some branch of the rule

  Every finished expansion is such a derivation, whatever the grammar, the
  budget, the limit and the tape.
-/
import ArtGrammar.Grammar.Classic
import ArtGrammar.Proofs.Draws.Numbers
import ArtGrammar.Proofs.Draws.Runs
import ArtGrammar.Proofs.Expr.Nodes
import ArtGrammar.Synthesis.Expansion

namespace ArtGrammar

/-! ## §1. Instances and derivations. -/

/-- The tree is the template with each `random` replaced by a fraction and each
reference by a tree that fills it; all other nodes stay in their places. -/
inductive Expr.Instance (Fills : String → Expr → Prop) : Expr → Expr → Prop
  | var (v : Variable) : Instance Fills (.var v) (.var v)
  | number (v : Single) : Instance Fills (.number v) (.number v)
  | boolean (b : Bool) : Instance Fills (.boolean b) (.boolean b)
  | random (k : Int) (hlow : -0x800000 ≤ k) (hhigh : k < 0x800000) :
      Instance Fills .random (.number (signedFraction k))
  | rule {name : String} {t : Expr} (ht : Fills name t) : Instance Fills (.rule name) t
  | abs {a t : Expr} (ha : Instance Fills a t) : Instance Fills (.abs a) (.abs t)
  | arith (op : Arith) {a b t u : Expr} (ha : Instance Fills a t) (hb : Instance Fills b u) :
      Instance Fills (.arith op a b) (.arith op t u)
  | ge {a b t u : Expr} (ha : Instance Fills a t) (hb : Instance Fills b u) :
      Instance Fills (.ge a b) (.ge t u)
  | triple {a b c t u v : Expr} (ha : Instance Fills a t) (hb : Instance Fills b u)
      (hc : Instance Fills c v) : Instance Fills (.triple a b c) (.triple t u v)
  | cond {a b c t u v : Expr} (ha : Instance Fills a t) (hb : Instance Fills b u)
      (hc : Instance Fills c v) : Instance Fills (.cond a b c) (.cond t u v)

/-- The tree is an instance of a branch of the rule, with derived trees for the
references. -/
inductive Grammar.Derives (g : Grammar) : String → Expr → Prop
  | branch {rule : String} {branches : List Branch} {b : Branch} {t : Expr}
      (hfind : g.find? rule = some branches) (hb : b ∈ branches)
      (ht : Expr.Instance (Grammar.Derives g) b.template t) : Grammar.Derives g rule t

/-- More ways to fill references give more instances. -/
theorem Expr.Instance.mono {Fills Fills' : String → Expr → Prop}
    (h : ∀ name t, Fills name t → Fills' name t) {e t : Expr} (ht : e.Instance Fills t) :
    e.Instance Fills' t := by
  induction ht with
  | var v => exact .var v
  | number v => exact .number v
  | boolean b => exact .boolean b
  | random k hlow hhigh => exact .random k hlow hhigh
  | rule ht => exact .rule (h _ _ ht)
  | abs _ iha => exact .abs iha
  | arith op _ _ iha ihb => exact .arith op iha ihb
  | ge _ _ iha ihb => exact .ge iha ihb
  | triple _ _ _ iha ihb ihc => exact .triple iha ihb ihc
  | cond _ _ _ iha ihb ihc => exact .cond iha ihb ihc

/-! ## §2. Finished runs. -/

/-- A drawn number is one of the fractions. -/
theorem exists_signedFraction_of_run {tape : Tape} {i j : Nat} {v : Single}
    (h : Drawing.signed.run tape i = (.ok v, j)) :
    ∃ k : Int, -0x800000 ≤ k ∧ k < 0x800000 ∧ v = signedFraction k := by
  obtain ⟨w, _, rfl, _⟩ := Drawing.run_signed_eq_ok.1 h
  have htop := topBits_lt w
  refine ⟨(w >>> 8).toNat - 0x800000, ?_, ?_, signedOfWord_eq w⟩
  · omega
  · omega

/-- A finished copy of a template is an instance of it. -/
theorem Expr.instance_of_run {Fills : String → Expr → Prop} {f : String → Drawing Expr}
    {tape : Tape} (h : ∀ name t i j, (f name).run tape i = (.ok t, j) → Fills name t)
    (e : Expr) :
    ∀ t i j, (e.instantiate f).run tape i = (.ok t, j) → e.Instance Fills t := by
  induction e with
  | var v =>
      intro t i j hrun
      obtain ⟨rfl, _⟩ := Drawing.run_pure_eq_ok.1 hrun
      exact .var v
  | number v =>
      intro t i j hrun
      obtain ⟨rfl, _⟩ := Drawing.run_pure_eq_ok.1 hrun
      exact .number v
  | boolean b =>
      intro t i j hrun
      obtain ⟨rfl, _⟩ := Drawing.run_pure_eq_ok.1 hrun
      exact .boolean b
  | random =>
      intro t i j hrun
      obtain ⟨v, _, hv, hrest⟩ := Drawing.run_bind_eq_ok.1 hrun
      obtain ⟨rfl, _⟩ := Drawing.run_pure_eq_ok.1 hrest
      obtain ⟨k, hlow, hhigh, rfl⟩ := exists_signedFraction_of_run hv
      exact .random k hlow hhigh
  | rule name =>
      intro t i j hrun
      exact .rule (h name t i j hrun)
  -- children are copied from left to right, each from where the last one ended
  | abs a iha =>
      intro t i j hrun
      obtain ⟨u, _, hu, hrest⟩ := Drawing.run_bind_eq_ok.1 hrun
      obtain ⟨rfl, _⟩ := Drawing.run_pure_eq_ok.1 hrest
      exact .abs (iha _ _ _ hu)
  | arith op a b iha ihb =>
      intro t i j hrun
      obtain ⟨u, _, hu, hrun⟩ := Drawing.run_bind_eq_ok.1 hrun
      obtain ⟨v, _, hv, hrest⟩ := Drawing.run_bind_eq_ok.1 hrun
      obtain ⟨rfl, _⟩ := Drawing.run_pure_eq_ok.1 hrest
      exact .arith op (iha _ _ _ hu) (ihb _ _ _ hv)
  | ge a b iha ihb =>
      intro t i j hrun
      obtain ⟨u, _, hu, hrun⟩ := Drawing.run_bind_eq_ok.1 hrun
      obtain ⟨v, _, hv, hrest⟩ := Drawing.run_bind_eq_ok.1 hrun
      obtain ⟨rfl, _⟩ := Drawing.run_pure_eq_ok.1 hrest
      exact .ge (iha _ _ _ hu) (ihb _ _ _ hv)
  | triple a b c iha ihb ihc =>
      intro t i j hrun
      obtain ⟨u, _, hu, hrun⟩ := Drawing.run_bind_eq_ok.1 hrun
      obtain ⟨v, _, hv, hrun⟩ := Drawing.run_bind_eq_ok.1 hrun
      obtain ⟨w, _, hw, hrest⟩ := Drawing.run_bind_eq_ok.1 hrun
      obtain ⟨rfl, _⟩ := Drawing.run_pure_eq_ok.1 hrest
      exact .triple (iha _ _ _ hu) (ihb _ _ _ hv) (ihc _ _ _ hw)
  | cond a b c iha ihb ihc =>
      intro t i j hrun
      obtain ⟨u, _, hu, hrun⟩ := Drawing.run_bind_eq_ok.1 hrun
      obtain ⟨v, _, hv, hrun⟩ := Drawing.run_bind_eq_ok.1 hrun
      obtain ⟨w, _, hw, hrest⟩ := Drawing.run_bind_eq_ok.1 hrun
      obtain ⟨rfl, _⟩ := Drawing.run_pure_eq_ok.1 hrest
      exact .cond (iha _ _ _ hu) (ihb _ _ _ hv) (ihc _ _ _ hw)

/-- Copying a concrete tree is no drawing at all. -/
theorem Expr.instantiate_of_isConcrete {f : String → Drawing Expr} (e : Expr) :
    e.isConcrete = true → e.instantiate f = pure e := by
  induction e with
  | var v => exact fun _ => rfl
  | number v => exact fun _ => rfl
  | boolean b => exact fun _ => rfl
  | random =>
      intro h
      rw [isConcrete_random] at h
      cases h
  | rule name =>
      intro h
      rw [isConcrete_rule] at h
      cases h
  | abs a iha =>
      intro h
      rw [isConcrete_abs] at h
      unfold instantiate
      rw [iha h]
      rfl
  | arith op a b iha ihb =>
      intro h
      rw [isConcrete_arith, Bool.and_eq_true] at h
      unfold instantiate
      rw [iha h.1, ihb h.2]
      rfl
  | ge a b iha ihb =>
      intro h
      rw [isConcrete_ge, Bool.and_eq_true] at h
      unfold instantiate
      rw [iha h.1, ihb h.2]
      rfl
  | triple a b c iha ihb ihc =>
      intro h
      rw [isConcrete_triple, Bool.and_eq_true, Bool.and_eq_true] at h
      unfold instantiate
      rw [iha h.1, ihb h.2.1, ihc h.2.2]
      rfl
  | cond a b c iha ihb ihc =>
      intro h
      rw [isConcrete_cond, Bool.and_eq_true, Bool.and_eq_true] at h
      unfold instantiate
      rw [iha h.1, ihb h.2.1, ihc h.2.2]
      rfl

/-- The branch that is taken is one of the rule. -/
theorem Branch.mem_of_run_select {rule : String} {branches : List Branch} {budget : Int}
    {tape : Tape} {i j : Nat} {b : Branch}
    (h : (Branch.select rule branches budget).run tape i = (.ok b, j)) : b ∈ branches := by
  unfold Branch.select at h
  split at h
  -- a spent budget takes the first branch, and draws nothing
  · cases branches with
    | nil => cases h
    | cons first rest =>
        obtain ⟨rfl, _⟩ := Drawing.run_pure_eq_ok.1 h
        exact List.mem_cons_self
  · obtain ⟨roll, _, _, hpick⟩ := Drawing.run_bind_eq_ok.1 h
    cases hb : pick? branches roll with
    | none =>
        rw [hb] at hpick
        cases hpick
    | some c =>
        rw [hb] at hpick
        obtain ⟨rfl, _⟩ := Drawing.run_pure_eq_ok.1 hpick
        unfold pick? at hb
        obtain ⟨index, _, hget⟩ := Option.bind_eq_some_iff.1 hb
        exact List.mem_of_getElem? hget

/-! ## §3. Expansions are derivations. -/

namespace Grammar

/-- A finished expansion has copied a branch of its rule, with finished expansions
for the references. -/
theorem instance_of_run_expandWithin (g : Grammar) {tape : Tape} {limit : Nat} {rule : String}
    {budget : Int} {t : Expr} {i j : Nat}
    (h : (g.expandWithin (limit + 1) rule budget).run tape i = (.ok t, j)) :
    ∃ branches, ∃ b ∈ branches, g.find? rule = some branches
      ∧ b.template.Instance
          (fun name u => ∃ left m n, (g.expandWithin limit name left).run tape m = (.ok u, n)) t := by
  unfold expandWithin at h
  cases hfind : g.find? rule with
  | none =>
      rw [hfind] at h
      cases h
  | some branches =>
      rw [hfind] at h
      obtain ⟨b, k, hselect, hcopy⟩ := Drawing.run_bind_eq_ok.1 h
      refine ⟨branches, b, Branch.mem_of_run_select hselect, rfl, ?_⟩
      -- a reference is a decay, which leaves no trace, and an expansion
      refine Expr.instance_of_run ?_ b.template t k j hcopy
      intro name u m n hrule
      obtain ⟨left, l, _, hinner⟩ := Drawing.run_bind_eq_ok.1 hrule
      exact ⟨left, l, n, hinner⟩

/-- A finished expansion within a limit is a derivation. -/
theorem derives_of_run_expandWithin (g : Grammar) {tape : Tape} :
    ∀ limit rule budget t i j,
      (g.expandWithin limit rule budget).run tape i = (.ok t, j) → g.Derives rule t := by
  -- on the limit, which bounds the nesting of the references
  intro limit
  induction limit with
  | zero =>
      intro rule budget t i j hrun
      cases hrun
  | succ limit ih =>
      intro rule budget t i j hrun
      obtain ⟨branches, b, hb, hfind, ht⟩ := g.instance_of_run_expandWithin hrun
      refine .branch hfind hb (ht.mono ?_)
      rintro name u ⟨left, m, n, hinner⟩
      exact ih name left u m n hinner

/-- **EVERY EXPANDED TREE IS A DERIVATION OF THE GRAMMAR.**  For every grammar
and every tape: a tree that a rule expands to is derived from the rule, a tree
that a template expands to is an instance of the template, and a concrete
template expands to itself without a draw. -/
theorem expansion_derives (g : Grammar) (tape : Tape) (i : Nat) (budget : Int) :
    (∀ limit rule t j,
        (g.expandWithin limit rule budget).run tape i = (.ok t, j) → g.Derives rule t)
      ∧ (∀ rule t j, (g.expandRule rule budget).run tape i = (.ok t, j) → g.Derives rule t)
      ∧ (∀ template t j, (g.expandTemplate template budget).run tape i = (.ok t, j) →
          template.Instance g.Derives t)
      ∧ ∀ template, template.isConcrete = true →
          (g.expandTemplate template budget).run tape i = (.ok template, i) := by
  refine ⟨?_, ?_, ?_, ?_⟩
  · intro limit rule t j hrun
    exact g.derives_of_run_expandWithin limit rule budget t i j hrun
  · intro rule t j hrun
    exact g.derives_of_run_expandWithin _ rule budget t i j hrun
  · intro template t j hrun
    refine Expr.instance_of_run ?_ template t i j hrun
    intro name u m n hrule
    obtain ⟨left, _, _, hinner⟩ := Drawing.run_bind_eq_ok.1 hrule
    exact g.derives_of_run_expandWithin _ name left u _ n hinner
  · intro template hconcrete
    unfold expandTemplate
    rw [template.instantiate_of_isConcrete hconcrete]
    rfl

/-- Words by which a channel of the classic grammar becomes a sum of two leaves, the first of
which is a drawn fraction. -/
def sumWords : List UInt32 :=
  [0xA0000000, 0xC0000000, 0x10000000, 0xC0000000, 0xFFFFFFFF, 0x40000000,
    0xC0000000, 0x40000000, 0xC0000000, 0]

/-- The sum is derived by the channel, and stands in for it in a template. -/
theorem expansion_derives_classic :
    ∃ t : Expr, t = .arith .add (.number (signedOfWord 0x40000000)) (.var .x)
      ∧ (classic.expandRule "C" 3).run (Tape.ofList sumWords) 0 = (.ok t, 10)
      ∧ classic.Derives "C" t
      ∧ (classic.expandTemplate (.abs (.rule "C")) 4).run
          (Tape.ofList (0xFFFFFFFF :: sumWords)) 0 = (.ok (.abs t), 11)
      ∧ (Expr.abs (.rule "C")).Instance classic.Derives (.abs t) := by
  have hrule : (classic.expandRule "C" 3).run (Tape.ofList sumWords) 0
      = (.ok (.arith .add (.number (signedOfWord 0x40000000)) (.var .x)), 10) := by
    decide +kernel
  -- the word in front is that of the decay, which leaves three of the budget
  have htemplate : (classic.expandTemplate (.abs (.rule "C")) 4).run
      (Tape.ofList (0xFFFFFFFF :: sumWords)) 0
        = (.ok (.abs (.arith .add (.number (signedOfWord 0x40000000)) (.var .x))), 11) := by
    decide +kernel
  obtain ⟨_, hderives, _, _⟩ := expansion_derives classic (Tape.ofList sumWords) 0 3
  obtain ⟨_, _, hinstance, _⟩ :=
    expansion_derives classic (Tape.ofList (0xFFFFFFFF :: sumWords)) 0 4
  exact ⟨_, rfl, hrule, hderives "C" _ 10 hrule, htemplate, hinstance _ _ 11 htemplate⟩

end Grammar

end ArtGrammar
