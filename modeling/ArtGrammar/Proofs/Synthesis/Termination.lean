/-
  ArtGrammar.Proofs.Synthesis.Termination
  ────────────────────────────────
  **A VALIDATED GRAMMAR ALWAYS EXPANDS TO A TREE.**

  How deep an expansion can nest is counted in two parts, one after the other:

      budget > 0    the budget; every reference has a smaller one
      budget ≤ 0    the depth to which the first branches of the rule nest

  `Affords` says that a limit covers both.  One reference keeps it, so the
  limit is never reached; and as every roll picks a branch and every reference
  names a rule, nothing else can stop an expansion either.
-/
import ArtGrammar.Proofs.Draws.Runs
import ArtGrammar.Proofs.Expr.Nodes
import ArtGrammar.Proofs.Grammar.Validity
import ArtGrammar.Proofs.Synthesis.Choice
import ArtGrammar.Proofs.Synthesis.Decay
import ArtGrammar.Synthesis.Configuration

namespace ArtGrammar

/-! ## §1. The decay and the choice of a branch. -/

section
variable {word : Nat → UInt32}

/-- A reference always has a smaller budget. -/
theorem delivers_decay (budget : Int) : (decay budget).Delivers word fun left => left < budget := by
  intro i
  obtain ⟨k, h⟩ := exists_leads (fun n => word (i + n)) (budget + 1).toNat
  exact ⟨_, _, h.run_decay fun _ _ => rfl, by omega⟩

/-- A sound rule always has a branch to take, the first one if the budget is
spent. -/
theorem Branch.delivers_select {isKnown : String → Bool} {rule : String}
    {branches : List Branch} (hrule : Rule.Sound isKnown ⟨rule, branches⟩) (budget : Int) :
    (Branch.select rule branches budget).Delivers word
      fun b => b ∈ branches ∧ (budget ≤ 0 → branches.head? = some b) := by
  unfold Branch.select
  split
  · -- the budget is spent
    cases branches with
    | nil => exact absurd rfl hrule.nonempty
    | cons b rest => exact Drawing.delivers_pure ⟨List.mem_cons_self, fun _ => rfl⟩
  next hbudget =>
    apply Drawing.delivers_unit.bind
    rintro roll ⟨w, rfl⟩
    obtain ⟨b, hb, hpick⟩ :=
      Branch.exists_pick hrule.probabilities hrule.total (unitOfWord_le_one w)
    rw [hpick]
    exact Drawing.delivers_pure ⟨hb, fun h => absurd h hbudget⟩

/-- A template becomes a concrete tree if all its references do, and is cut off if
one of them is: the references before that one are passed, and those behind it are
not reached. -/
theorem Expr.deliversUnless_instantiate {f : String → Drawing Expr} {cut : String → Prop}
    (e : Expr) :
    (∀ name ∈ e.references, (f name).DeliversUnless word (cut name) fun t => t.isConcrete = true) →
      (e.instantiate f).DeliversUnless word (∃ name ∈ e.references, cut name)
        fun t => t.isConcrete = true := by
  induction e with
  | var v =>
      intro _
      exact Drawing.Delivers.unless (Drawing.delivers_pure (isConcrete_var v)) (by simp)
  | number v =>
      intro _
      exact Drawing.Delivers.unless (Drawing.delivers_pure (isConcrete_number v)) (by simp)
  | boolean b =>
      intro _
      exact Drawing.Delivers.unless (Drawing.delivers_pure (isConcrete_boolean b)) (by simp)
  | random =>
      intro _
      refine Drawing.Delivers.unless ?_ (by simp)
      exact Drawing.delivers_signed.bind fun v _ => Drawing.delivers_pure (isConcrete_number v)
  | rule name =>
      intro hrefs
      exact (hrefs name (by simp)).congr (by simp)
  | abs a iha =>
      intro hrefs
      rw [references_abs] at hrefs ⊢
      refine (iha hrefs).bind_delivers fun t ht => ?_
      exact Drawing.delivers_pure (by rw [isConcrete_abs]; exact ht)
  | arith op a b iha ihb =>
      intro hrefs
      simp only [references_arith, List.forall_mem_append] at hrefs
      refine ((iha hrefs.1).bind fun t ht => (ihb hrefs.2).bind_delivers fun u hu =>
        ?_).congr (by simp [or_and_right, exists_or])
      exact Drawing.delivers_pure (by rw [isConcrete_arith, ht, hu]; rfl)
  | ge a b iha ihb =>
      intro hrefs
      simp only [references_ge, List.forall_mem_append] at hrefs
      refine ((iha hrefs.1).bind fun t ht => (ihb hrefs.2).bind_delivers fun u hu =>
        ?_).congr (by simp [or_and_right, exists_or])
      exact Drawing.delivers_pure (by rw [isConcrete_ge, ht, hu]; rfl)
  | triple a b c iha ihb ihc =>
      intro hrefs
      simp only [references_triple, List.forall_mem_append] at hrefs
      refine ((iha hrefs.1).bind fun t ht => (ihb hrefs.2.1).bind fun u hu =>
        (ihc hrefs.2.2).bind_delivers fun v hv => ?_).congr
          (by simp [or_and_right, exists_or])
      exact Drawing.delivers_pure (by rw [isConcrete_triple, ht, hu, hv]; rfl)
  | cond a b c iha ihb ihc =>
      intro hrefs
      simp only [references_cond, List.forall_mem_append] at hrefs
      refine ((iha hrefs.1).bind fun t ht => (ihb hrefs.2.1).bind fun u hu =>
        (ihc hrefs.2.2).bind_delivers fun v hv => ?_).congr
          (by simp [or_and_right, exists_or])
      exact Drawing.delivers_pure (by rw [isConcrete_cond, ht, hu, hv]; rfl)

theorem Expr.delivers_instantiate {f : String → Drawing Expr} (e : Expr)
    (h : ∀ name ∈ e.references, (f name).Delivers word fun t => t.isConcrete = true) :
    (e.instantiate f).Delivers word fun t => t.isConcrete = true := by
  have hnone : ∀ name ∈ e.references,
      (f name).DeliversUnless word False fun t => t.isConcrete = true :=
    fun name hname => (h name hname).unless not_false
  exact (e.deliversUnless_instantiate hnone).delivers (by simp)

end

/-! ## §2. Limits. -/

/-- A template is extended reference by reference. -/
theorem Expr.instantiate_extendedAt {stop : Halt} {tape : Tape} {f f' : String → Drawing Expr}
    (e : Expr) :
    (∀ name ∈ e.references, ∀ i, (f name).ExtendedAt stop tape i (f' name)) →
      ∀ i, (e.instantiate f).ExtendedAt stop tape i (e.instantiate f') := by
  induction e with
  | var v => exact fun _ i => Drawing.ExtendedAt.refl tape i _
  | number v => exact fun _ i => Drawing.ExtendedAt.refl tape i _
  | boolean b => exact fun _ i => Drawing.ExtendedAt.refl tape i _
  | random => exact fun _ i => Drawing.ExtendedAt.refl tape i _
  | rule name => exact fun h i => h name (List.mem_singleton_self name) i
  | abs a iha =>
      exact fun h i => (iha h i).bind fun _ j _ => Drawing.ExtendedAt.refl tape j _
  | arith op a b iha ihb =>
      intro h i
      simp only [references_arith, List.forall_mem_append] at h
      exact (iha h.1 i).bind fun _ j _ => (ihb h.2 j).bind fun _ k _ =>
        Drawing.ExtendedAt.refl tape k _
  | ge a b iha ihb =>
      intro h i
      simp only [references_ge, List.forall_mem_append] at h
      exact (iha h.1 i).bind fun _ j _ => (ihb h.2 j).bind fun _ k _ =>
        Drawing.ExtendedAt.refl tape k _
  | triple a b c iha ihb ihc =>
      intro h i
      simp only [references_triple, List.forall_mem_append] at h
      exact (iha h.1 i).bind fun _ j _ => (ihb h.2.1 j).bind fun _ k _ =>
        (ihc h.2.2 k).bind fun _ l _ => Drawing.ExtendedAt.refl tape l _
  | cond test yes no iha ihb ihc =>
      intro h i
      simp only [references_cond, List.forall_mem_append] at h
      exact (iha h.1 i).bind fun _ j _ => (ihb h.2.1 j).bind fun _ k _ =>
        (ihc h.2.2 k).bind fun _ l _ => Drawing.ExtendedAt.refl tape l _

theorem Expr.instantiate_extendedBy {stop : Halt} {f f' : String → Drawing Expr}
    (h : ∀ name, (f name).ExtendedBy stop (f' name)) (e : Expr) :
    (e.instantiate f).ExtendedBy stop (e.instantiate f') := fun tape i =>
  e.instantiate_extendedAt (fun name _ j => (h name).extendedAt tape j) i

namespace Grammar

section
variable {β : Type} (g : Grammar) (kind : Budgets β)

theorem expandVia_extendedBy_succ :
    ∀ limit rule budget,
      (g.expandVia kind limit rule budget).ExtendedBy .unfinished
        (g.expandVia kind (limit + 1) rule budget) := by
  intro limit
  induction limit with
  | zero =>
      intro rule budget
      exact Drawing.halt_extendedBy _
  | succ limit ih =>
      intro rule budget
      unfold expandVia
      cases g.find? rule with
      | none => exact Drawing.ExtendedBy.refl _
      | some branches =>
          refine (Drawing.ExtendedBy.refl _).bind fun branch => ?_
          apply Expr.instantiate_extendedBy
          intro name
          exact (Drawing.ExtendedBy.refl _).bind fun left => ih name left

/-- **A LARGER LIMIT CHANGES NOTHING BUT BEING CUT OFF**, whatever budgets are. -/
theorem expandVia_extendedBy (rule : String) (budget : β) {limit limit' : Nat}
    (h : limit ≤ limit') :
    (g.expandVia kind limit rule budget).ExtendedBy .unfinished
      (g.expandVia kind limit' rule budget) := by
  induction h with
  | refl => exact Drawing.ExtendedBy.refl _
  | step _ ih => exact ih.trans (g.expandVia_extendedBy_succ kind _ rule budget)

end

/-- Budgets without bounds are one kind of them. -/
theorem expandWithin_eq_expandVia (g : Grammar) :
    ∀ limit rule budget,
      g.expandWithin limit rule budget = g.expandVia .unbounded limit rule budget := by
  intro limit
  induction limit with
  | zero => exact fun _ _ => rfl
  | succ limit ih =>
      intro rule budget
      have hrest : g.expandWithin limit = g.expandVia .unbounded limit :=
        funext fun name => funext fun left => ih name left
      rw [expandWithin, expandVia, hrest]
      rfl

theorem expandWithin_extendedBy (g : Grammar) (rule : String) (budget : Int) {limit limit' : Nat}
    (h : limit ≤ limit') :
    (g.expandWithin limit rule budget).ExtendedBy .unfinished
      (g.expandWithin limit' rule budget) := by
  rw [expandWithin_eq_expandVia, expandWithin_eq_expandVia]
  exact g.expandVia_extendedBy .unbounded rule budget h

/-! ## §3. The measure. -/

/-- The limit covers the positive budget and then all rules, or with a spent
budget the nesting of first branches. -/
def Affords (g : Grammar) (limit : Nat) (rule : String) (budget : Int) : Prop :=
  if 0 < budget then budget.toNat + g.size ≤ limit else g.EndsWithin limit rule

/-- **One reference keeps the measure.** -/
theorem Affords.reference {g : Grammar} (hg : g.Trusted) {limit : Nat} {rule name : String}
    {budget left : Int} {branches : List Branch} {b : Branch}
    (h : g.Affords (limit + 1) rule budget) (hfind : g.find? rule = some branches)
    (hfirst : budget ≤ 0 → branches.head? = some b) (hname : name ∈ b.template.references)
    (hknown : g.contains name = true) (hleft : left < budget) : g.Affords limit name left := by
  unfold Affords at *
  by_cases hbudget : 0 < budget
  · -- the decayed budget is smaller by one at least
    rw [if_pos hbudget] at h
    by_cases hpos : 0 < left
    · rw [if_pos hpos]
      omega
    · -- the budget is spent on this reference: from here on first branches count
      rw [if_neg hpos]
      exact (hg.ends name hknown).mono (by omega)
  · rw [if_neg hbudget] at h
    rw [if_neg (by omega)]
    -- a spent budget stays spent, and the branch is the first one
    obtain ⟨first, rest, hbranches, hinner⟩ := h
    rw [hfind] at hbranches
    cases hbranches
    have hb := hfirst (by omega)
    cases hb
    exact hinner name hname

/-- The nesting limit suffices for every rule of the grammar. -/
theorem affords_nestingLimit {g : Grammar} (hg : g.Trusted) {rule : String}
    (hrule : g.contains rule = true) (budget : Int) :
    g.Affords (g.nestingLimit budget) rule budget := by
  unfold Affords nestingLimit
  split
  · omega
  · exact (hg.ends rule hrule).mono (by omega)

/-! ## §4. Every expansion ends. -/

/-- Within a limit that is afforded a rule expands to a concrete tree. -/
theorem delivers_expandWithin {g : Grammar} (hg : g.Trusted) (word : Nat → UInt32) :
    ∀ limit rule budget, g.contains rule = true → g.Affords limit rule budget →
      (g.expandWithin limit rule budget).Delivers word fun t => t.isConcrete = true := by
  intro limit
  induction limit with
  | zero =>
      intro rule budget hrule haffords
      unfold Affords at haffords
      split at haffords
      · omega
      · exact haffords.elim
  | succ limit ih =>
      intro rule budget hrule haffords
      obtain ⟨branches, hfind⟩ := contains_iff.1 hrule
      have hsound := hg.sound rule branches hfind
      unfold expandWithin
      rw [hfind]
      -- a sound rule has a branch for the roll, and known references in it
      refine (Branch.delivers_select hsound budget).bind fun b hb => ?_
      apply Expr.delivers_instantiate
      intro name hname
      have hknown : g.contains name = true := hsound.references b hb.1 name hname
      refine (delivers_decay budget).bind fun left hleft => ?_
      exact ih name left hknown (haffords.reference hg hfind hb.2 hname hknown hleft)

/-- After the checks a synthesis is the expansion of its start rule. -/
theorem synthesize_eq_expandRule {g : Grammar} (hg : g.validate = .ok ()) {config : Configuration}
    (hconfig : config.validate = .ok ()) (checked : Bool) :
    g.synthesize checked config = g.expandRule config.startRule config.depth.toInt := by
  unfold synthesize
  rw [hg, hconfig]
  cases checked with
  | false => rfl
  | true => rfl

/-- **SYNTHESIS FROM A VALIDATED GRAMMAR CANNOT FAIL AND ALWAYS ENDS.**  On
every endless tape, from every position, expanding a rule of the grammar
finishes with a concrete tree; no larger limit makes a difference, so it is not
the limit that ends it.  A configured synthesis gives the same tree. -/
theorem expandRule_total {g : Grammar} (hg : g.validate = .ok ()) {rule : String}
    (hrule : g.contains rule = true) (budget : Int) (word : Nat → UInt32) (i : Nat) :
    ∃ t j, t.isConcrete = true
      ∧ (g.expandRule rule budget).run (Tape.endless word) i = (.ok t, j)
      ∧ (∀ limit, g.nestingLimit budget ≤ limit →
          (g.expandWithin limit rule budget).run (Tape.endless word) i = (.ok t, j))
      ∧ ∀ (checked : Bool) (config : Configuration), config.validate = .ok () →
          config.startRule = rule → config.depth.toInt = budget →
          (g.synthesize checked config).run (Tape.endless word) i = (.ok t, j) := by
  have htrusted := trusted_of_validate hg
  -- the nesting limit is enough, and whatever is enough gives the same run
  obtain ⟨t, j, hrun, ht⟩ := delivers_expandWithin htrusted word _ rule budget hrule
    (affords_nestingLimit htrusted hrule budget) i
  refine ⟨t, j, ht, hrun, ?_, ?_⟩
  · intro limit hlimit
    exact (g.expandWithin_extendedBy rule budget hlimit).run_eq_ok hrun
  · rintro checked config hconfig rfl rfl
    rw [synthesize_eq_expandRule hg hconfig]
    exact hrun

/-- The classic grammar within its own depth, on the tape of zeros. -/
theorem expandRule_total_classic :
    classic.validate = .ok () ∧ classic.contains "E" = true
      ∧ ∃ t j, t.isConcrete = true
          ∧ (classic.expandRule "E" 30).run (Tape.endless fun _ => 0) 0 = (.ok t, j) := by
  have hvalid : classic.validate = .ok () := by decide +kernel
  have hrule : classic.contains "E" = true := by decide
  obtain ⟨t, j, ht, hrun, _⟩ := expandRule_total hvalid hrule 30 (fun _ => 0) 0
  exact ⟨hvalid, hrule, t, j, ht, hrun⟩

end Grammar

end ArtGrammar
