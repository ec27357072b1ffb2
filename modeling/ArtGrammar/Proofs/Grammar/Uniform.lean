/-
  ArtGrammar.Proofs.Grammar.Uniform
  ────────────────────────────────
  **RULES OF EQUALLY PROBABLE BRANCHES.**

  Each of `n` branches has the share of one that `1 / n` rounds to, so the total of the
  rule is the rounded sum of `n` shares:

      n ≤ 6916      the total is accepted, and every roll picks a branch
      n = 6917      the first total that is refused
      n = 7033      refused as well, and the largest roll picks no branch
      2 ^ 25 ≤ n    the sum does not pass one half

  Templates without references leave nothing else to refuse such a rule for.
-/
import ArtGrammar.Proofs.Grammar.Defect
import ArtGrammar.Proofs.Single.Shares
import ArtGrammar.Proofs.Synthesis.Calls
import ArtGrammar.Proofs.Synthesis.Intervals

namespace ArtGrammar

namespace Single

/-! ## §1. Adding one value again and again. -/

/-- One addition of magnitudes, by ranks. -/
theorem finite_add_rank {r c : Fin finiteRanks} (h : addRank (unitsAt c) r < finiteRanks) :
    finite false r + finite false c = finite false ⟨addRank (unitsAt c) r, h⟩ := by
  by_cases hzero : unitsAt r + unitsAt c = 0
  · have hsum : signed false (unitsAt r) + signed false (unitsAt c) = 0 := by
      show (unitsAt r : Int) + (unitsAt c : Int) = 0
      omega
    have hnone : (finite false r + finite false c).HasUnits false 0 :=
      HasUnits.add_of_zero ⟨r, rfl, rfl⟩ ⟨c, rfl, rfl⟩ hsum
    have hrank : addRank (unitsAt c) r = 0 := by
      unfold addRank
      rw [hzero]
      rfl
    have hunits : unitsAt (addRank (unitsAt c) r) = 0 := by rw [hrank, unitsAt_zero]
    exact hnone.unique ⟨⟨addRank (unitsAt c) r, h⟩, rfl, hunits⟩
  · rw [finite_add_finite hzero rfl]
    exact dif_pos h

/-- Many additions, by ranks. -/
theorem iterate_add {c : Fin finiteRanks} :
    ∀ k (h : (addRank (unitsAt c))^[k] 0 < finiteRanks),
      (fun sum => sum + finite false c)^[k] 0 = finite false ⟨(addRank (unitsAt c))^[k] 0, h⟩ := by
  intro k
  induction k with
  | zero =>
      intro h
      rw [Function.iterate_zero_apply, zero_eq]
      rfl
  | succ k ih =>
      intro h
      simp only [Function.iterate_succ_apply'] at h ⊢
      -- sums ascend, so this one is finite if the next is
      have hbefore := Nat.lt_of_le_of_lt (le_addRank (unitsAt c) _) h
      rw [ih hbefore]
      exact finite_add_rank (r := ⟨_, hbefore⟩) h

/-! ## §2. Verdicts on totals. -/

/-- Both zeros are refused. -/
theorem AgreesUpToZero.isUnitTotal_eq {a b : Single} (h : a.AgreesUpToZero b) :
    a.isUnitTotal = b.isUnitTotal := by
  rcases h with rfl | ⟨rfl, rfl⟩
  · rfl
  · decide

/-- The distance to one of a total above one. -/
theorem abs_sub_one_of_gt {r : Fin finiteRanks} (h : 2 ^ 149 < unitsAt r) :
    (finite false r - 1).abs = ofUnits false (unitsAt r - 2 ^ 149) 1 := by
  have htotal : signed false (unitsAt r) + signed true (unitsAt 0x3f800000)
      = ((unitsAt r - 2 ^ 149 : Nat) : Int) := by
    rw [unitsAt_one]
    show (unitsAt r : Int) + -((2 ^ 149 : Nat) : Int) = _
    omega
  have hdiff : finite false r - 1 = ofUnits false (unitsAt r - 2 ^ 149) 1 := by
    rw [one_eq]
    exact finite_add_finite (by omega) htotal
  rw [hdiff, abs_ofUnits]

/-- Rounding keeps units within the tolerance. -/
theorem ofUnits_le_tolerance {n : Nat} (h : n ≤ unitsAt 0x38d1b717) :
    ofUnits false n 1 ≤ tolerance := by
  have hrank : nearestRank n 1 ≤ 0x38d1b717 := by
    rw [← nearestRank_unitsAt 0x38d1b717 1 Nat.one_pos, Nat.mul_one]
    exact nearestRank_le_of_mul_le Nat.one_pos Nat.one_pos (Nat.mul_le_mul_right 1 h)
  unfold ofUnits
  rw [dif_pos (Nat.lt_of_le_of_lt hrank (by decide)), tolerance_eq]
  exact finite_le_finite.2 hrank

/-- **A TOTAL THAT DIFFERS FROM ONE BY THE TOLERANCE AT MOST IS ACCEPTED.** -/
theorem isUnitTotal_of_within {r : Fin finiteRanks}
    (h : Within (unitsAt 0x38d1b717) (unitsAt r) (2 ^ 149)) :
    (finite false r).isUnitTotal = true := by
  obtain ⟨habove, hbelow⟩ := h
  rw [isUnitTotal_iff Single.noConfusion]
  rcases Nat.lt_trichotomy (unitsAt r) (2 ^ 149) with hlt | heq | hgt
  · rw [abs_sub_one hlt]
    exact ofUnits_le_tolerance (by omega)
  · have hone : r = ⟨0x3f800000, by decide⟩ :=
      Fin.ext (unitsAt_strictMono.injective (heq.trans unitsAt_one.symm))
    rw [hone]
    decide
  · rw [abs_sub_one_of_gt hgt]
    exact ofUnits_le_tolerance (by omega)

/-! ## §3. The share of one as a value. -/

/-- One divided by `d` or more. -/
theorem exists_one_div_finite {r : Fin finiteRanks} {d : Nat} (hd : 0 < d)
    (h : d * 2 ^ 149 ≤ unitsAt r) :
    ∃ c : Fin finiteRanks, 1 / finite false r = finite false c
      ∧ c.val = nearestRank (2 ^ 149 * 2 ^ 149) (unitsAt r) ∧ c.val ≤ shareRank d := by
  have hpos : 0 < unitsAt r := Nat.lt_of_lt_of_le (Nat.mul_pos hd (Nat.two_pow_pos 149)) h
  have hne : r.val ≠ 0 := by
    intro hzero
    rw [hzero, unitsAt_zero] at hpos
    exact Nat.lt_irrefl 0 hpos
  have hle : nearestRank (2 ^ 149 * 2 ^ 149) (unitsAt r) ≤ shareRank d := by
    apply nearestRank_le_of_mul_le hpos hd
    rw [Nat.mul_assoc, Nat.mul_comm _ d]
    exact Nat.mul_le_mul_left _ h
  have hfinite : nearestRank (2 ^ 149 * 2 ^ 149) (unitsAt r) < finiteRanks := by
    have hone := shareRank_anti Nat.one_pos hd
    rw [shareRank_one] at hone
    unfold finiteRanks
    omega
  refine ⟨⟨_, hfinite⟩, ?_, rfl, hle⟩
  rw [one_eq]
  show Single.div _ _ = _
  unfold Single.div
  simp only
  rw [if_neg hne, unitsAt_one]
  exact dif_pos hfinite

/-- A share is finite, and no larger than it is for a smaller number. -/
theorem exists_one_div_ofNat {n d : Nat} (hd : 0 < d) (hmag : ∃ r, unitsAt r = d * 2 ^ 149)
    (hle : d ≤ n) :
    ∃ c : Fin finiteRanks, 1 / ofNat n = finite false c ∧ c.val ≤ shareRank d := by
  obtain ⟨s, hs⟩ := hmag
  by_cases hfinite : nearestRank (n * unitsPerOne) 1 < finiteRanks
  · have hdivisor : ofNat n = finite false ⟨_, hfinite⟩ := dif_pos hfinite
    have hunits : d * 2 ^ 149 ≤ unitsAt (nearestRank (n * unitsPerOne) 1) := by
      rw [← hs]
      apply unitsAt_strictMono.monotone
      apply le_nearestRank
      rw [hs]
      exact Nat.mul_le_mul_right _ hle
    obtain ⟨c, hc, _, hcd⟩ := exists_one_div_finite (r := ⟨_, hfinite⟩) hd hunits
    rw [hdivisor]
    exact ⟨c, hc, hcd⟩
  · have hdivisor : ofNat n = infinite false := dif_neg hfinite
    rw [hdivisor]
    exact ⟨⟨0, by decide⟩, rfl, Nat.zero_le _⟩

/-- Where the divisor is not rounded, the share is the rounded quotient. -/
theorem one_div_ofNat {n : Nat} (hpos : 0 < n) (hle : n ≤ 2 ^ 24) :
    ∃ c : Fin finiteRanks, 1 / ofNat n = finite false c ∧ c.val = shareRank n := by
  obtain ⟨r, hr, hunits⟩ := hasUnits_ofNat n hle
  obtain ⟨c, hc, hrank, hupper⟩ := exists_one_div_finite hpos (Nat.le_of_eq hunits.symm)
  rw [hr]
  refine ⟨c, hc, Nat.le_antisymm hupper ?_⟩
  rw [hrank, hunits]
  apply nearestRank_le_of_mul_le hpos (Nat.mul_pos hpos (Nat.two_pow_pos 149))
  rw [Nat.mul_assoc, Nat.mul_comm n]

end Single

/-! ## §4. Totals of equal shares. -/

namespace Branch

section
variable {templates : List Expr} {c : Fin finiteRanks}

theorem mem_uniform {b : Branch} (hne : templates ≠ []) (h : b ∈ uniform templates) :
    b.template ∈ templates ∧ b.probability = 1 / Single.ofNat templates.length := by
  obtain ⟨e, he, rfl⟩ := List.mem_map.1 h
  have hpos := List.length_pos_of_ne_nil hne
  exact ⟨he, by rw [Nat.max_eq_left hpos]⟩

theorem length_uniform (templates : List Expr) :
    (uniform templates).length = templates.length :=
  List.length_map _

/-- Every probability is a share, which is finite and not negative. -/
theorem isProbability_of_mem_uniform {b : Branch} (hne : templates ≠ [])
    (h : b ∈ uniform templates) : b.probability.isProbability = true := by
  have hone : ∃ r, unitsAt r = 1 * 2 ^ 149 := ⟨0x3f800000, by rw [unitsAt_one, Nat.one_mul]⟩
  obtain ⟨c, hc, _⟩ :=
    Single.exists_one_div_ofNat Nat.one_pos hone (List.length_pos_of_ne_nil hne)
  rw [(mem_uniform hne h).2, hc, Single.isProbability_iff]
  exact ⟨rfl, Single.finite_le_finite.2 (Nat.zero_le _)⟩

/-- The probabilities are added like any value that is added again and again. -/
theorem foldl_uniform (hne : templates ≠ [])
    (hc : 1 / Single.ofNat templates.length = .finite false c)
    (h : (addRank (unitsAt c))^[templates.length] 0 < finiteRanks) :
    (uniform templates).foldl (fun sum b => sum + b.probability) 0
      = .finite false ⟨(addRank (unitsAt c))^[templates.length] 0, h⟩ := by
  have hpos := List.length_pos_of_ne_nil hne
  unfold uniform
  rw [List.foldl_map, Nat.max_eq_left hpos, hc, ← Single.iterate_add templates.length h]
  exact List.foldl_const (fun sum => sum + Single.finite false c) 0 templates

/-- The sum of up to `2 ^ 24` shares. -/
theorem foldl_uniform_shares (hne : templates ≠ []) (hle : templates.length ≤ 2 ^ 24)
    (h : sharesRank templates.length templates.length < finiteRanks) :
    (uniform templates).foldl (fun sum b => sum + b.probability) 0
      = .finite false ⟨sharesRank templates.length templates.length, h⟩ := by
  obtain ⟨c, hc, hrank⟩ := Single.one_div_ofNat (List.length_pos_of_ne_nil hne) hle
  have hunits : share templates.length = unitsAt c := congrArg unitsAt hrank.symm
  have hfinite : (addRank (unitsAt c))^[templates.length] 0 < finiteRanks := by
    rw [← hunits]
    exact h
  rw [foldl_uniform hne hc hfinite]
  simp only [← hunits, sharesRank]

/-- A sum that is found by strides. -/
theorem foldl_uniform_of_strides {n r : Nat} (hlen : templates.length = n)
    (hn : 0 < n ∧ n ≤ 2 ^ 24) (hr : r < finiteRanks) (h : sharesByStrides n = some r) :
    (uniform templates).foldl (fun sum b => sum + b.probability) 0 = .finite false ⟨r, hr⟩ := by
  subst hlen
  have hrank := sharesRank_of_strides hn.1 h
  have hsum := foldl_uniform_shares (List.ne_nil_of_length_pos hn.1) hn.2
    (Nat.lt_of_le_of_lt (Nat.le_of_eq hrank) hr)
  simpa only [hrank] using hsum

/-- Up to 6916 equal shares are accepted. -/
theorem isUnitTotal_uniform (hne : templates ≠ []) (hle : templates.length ≤ 6916) :
    (total (uniform templates)).isUnitTotal = true := by
  have hwithin := shares_within_tolerance (List.length_pos_of_ne_nil hne) hle
  have hfinite : sharesRank templates.length templates.length < finiteRanks := by
    rw [← unitsAt_strictMono.lt_iff_lt, unitsAt_finiteRanks]
    exact Nat.lt_of_le_of_lt hwithin.1 (by decide)
  rw [(agreesUpToZero_total _).isUnitTotal_eq, foldl_uniform_shares hne (by omega) hfinite]
  exact Single.isUnitTotal_of_within hwithin

/-- A share of half a step below one half stops the sum there. -/
theorem isUnitTotal_uniform_of_large (hlarge : 2 ^ 25 ≤ templates.length) :
    (total (uniform templates)).isUnitTotal = false := by
  have hmag : ∃ r, unitsAt r = 2 ^ 25 * 2 ^ 149 := ⟨0x4c000000, by decide⟩
  obtain ⟨c, hc, hshare⟩ := Single.exists_one_div_ofNat (by decide) hmag hlarge
  have hunits : unitsAt c ≤ 2 ^ 124 := by
    have hbound : unitsAt (shareRank (2 ^ 25)) = 2 ^ 124 := by decide
    rw [← hbound]
    exact unitsAt_strictMono.monotone hshare
  have hhalf := iterate_addRank_le_half hunits templates.length
  have hfinite : (addRank (unitsAt c))^[templates.length] 0 < finiteRanks :=
    Nat.lt_of_le_of_lt hhalf (by decide)
  have hne : templates ≠ [] := List.ne_nil_of_length_pos (by omega)
  rw [(agreesUpToZero_total _).isUnitTotal_eq, foldl_uniform hne hc hfinite]
  by_contra haccepted
  have hreach := Single.le_unitsAt_add_tolerance (eq_true_of_ne_false haccepted)
  have hsum := unitsAt_strictMono.monotone hhalf
  have hshort : unitsAt 0x3f000000 + unitsAt 0x38d1b717 < 2 ^ 149 := by decide
  exact absurd (Nat.le_trans hreach (Nat.add_le_add_right hsum _)) (Nat.not_le_of_lt hshort)

/-- A sum that is found by strides is judged as it is. -/
theorem isUnitTotal_uniform_of_strides {n r : Nat} (hlen : templates.length = n)
    (hn : 0 < n ∧ n ≤ 2 ^ 24) (hr : r < finiteRanks) (h : sharesByStrides n = some r) :
    (total (uniform templates)).isUnitTotal = (Single.finite false ⟨r, hr⟩).isUnitTotal := by
  rw [(agreesUpToZero_total _).isUnitTotal_eq, foldl_uniform_of_strides hlen hn hr h]

theorem sharesByStrides_6917 : sharesByStrides 6917 = some 0x3f800350 := by decide +kernel

theorem sharesByStrides_7033 : sharesByStrides 7033 = some 0x3f7ff927 := by decide +kernel

/-- 6917 equal shares are more than one by more than the tolerance, and 7033 are less. -/
theorem isUnitTotal_uniform_of_refused (h : templates.length = 6917 ∨ templates.length = 7033) :
    (total (uniform templates)).isUnitTotal = false := by
  rcases h with hlen | hlen
  · rw [isUnitTotal_uniform_of_strides hlen (by decide) (by decide) sharesByStrides_6917]
    decide
  · rw [isUnitTotal_uniform_of_strides hlen (by decide) (by decide) sharesByStrides_7033]
    decide

/-! ## §5. Rolls past all shares. -/

/-- A roll that the tolerance does not bring the sum up to picks nothing. -/
theorem pick?_eq_none_of_lt {branches : List Branch} {roll : Single}
    (hall : ∀ b ∈ branches, b.probability.isProbability = true)
    (hlt : branches.foldl (fun sum b => sum + b.probability) 0 + tolerance < roll) :
    pick? branches roll = none := by
  rw [← runningTotals_getLastD] at hlt
  have hmag : ((runningTotals 0 branches).getLastD 0).IsMagnitude := by
    rw [runningTotals_getLastD]
    exact isMagnitude_foldl branches hall Single.isMagnitude_zero
  refine pick?_eq_none_iff.2 (pickIndex?_eq_none_iff.2 ⟨fun c hc hle => ?_, fun hle => ?_⟩)
  · -- no running total exceeds the last one
    have hlast : c ≤ (runningTotals 0 branches).getLastD 0 := by
      obtain ⟨i, hi, rfl⟩ := List.getElem_of_mem hc
      refine runningTotals_mono hall (List.getElem?_eq_getElem hi)
        (j := (runningTotals 0 branches).length - 1) ?_ (by omega)
      rw [List.getLastD_eq_getLast?, List.getLast?_eq_getElem?,
        List.getElem?_eq_getElem (by omega)]
      rfl
    have htolerance : tolerance.isProbability = true := by decide
    exact Single.not_le_of_lt hlt
      (Single.le_trans (Single.le_trans hle hlast) (hmag.le_add htolerance))
  · exact absurd hle (Single.not_le_of_lt hlt)

/-- 7033 equal shares and the tolerance do not come up to the largest roll. -/
theorem pick?_uniform_7033 (hlen : templates.length = 7033) {w : UInt32}
    (hw : w >>> 8 = 0xffffff) : pick? (uniform templates) (unitOfWord w) = none := by
  have hne : templates ≠ [] := List.ne_nil_of_length_pos (by omega)
  apply pick?_eq_none_of_lt fun b hb => isProbability_of_mem_uniform hne hb
  rw [foldl_uniform_of_strides hlen (by decide) (by decide) sharesByStrides_7033]
  unfold unitOfWord
  rw [hw]
  decide +kernel

end

end Branch

/-! ## §6. Grammars of such rules. -/

namespace Grammar

variable {g : Grammar}

/-- Every rule has equally probable branches, some at least, whose templates refer to no
rule. -/
def Uniform (g : Grammar) : Prop :=
  ∀ r ∈ g.rules, ∃ templates, r.branches = Branch.uniform templates ∧ templates ≠ []
    ∧ ∀ e ∈ templates, e.references = []

theorem Uniform.references_eq_nil (hg : g.Uniform) {r : Rule} (hr : r ∈ g.rules) {b : Branch}
    (hb : b ∈ r.branches) : b.template.references = [] := by
  obtain ⟨templates, hbranches, hne, hrefs⟩ := hg r hr
  rw [hbranches] at hb
  exact hrefs _ (Branch.mem_uniform hne hb).1

/-- The rule has branches, and nothing is wrong with any of them. -/
theorem Uniform.proper (hg : g.Uniform) {r : Rule} (hr : r ∈ g.rules) :
    r.branches ≠ [] ∧ ∀ b ∈ r.branches, b.Proper g.contains := by
  constructor
  · obtain ⟨templates, hbranches, hne, _⟩ := hg r hr
    rw [hbranches]
    exact fun hnil => hne (List.map_eq_nil_iff.1 hnil)
  · intro b hb
    refine Branch.proper_iff.2 ⟨?_, fun name hname => ?_⟩
    · obtain ⟨templates, hbranches, hne, _⟩ := hg r hr
      rw [hbranches] at hb
      exact Branch.isProbability_of_mem_uniform hne hb
    · rw [hg.references_eq_nil hr hb] at hname
      cases hname

/-- Only the total of such a rule can be wrong. -/
theorem Uniform.sound_iff (hg : g.Uniform) {r : Rule} (hr : r ∈ g.rules) :
    r.Sound g.contains ↔ (Branch.total r.branches).isUnitTotal = true := by
  obtain ⟨hne, hall⟩ := hg.proper hr
  refine ⟨fun h => h.total, fun htotal => ⟨hne, ?_, fun b hb => (hall b hb).known, htotal⟩⟩
  exact fun b hb => (Branch.proper_iff.1 (hall b hb)).1

/-- No first branch refers to a rule. -/
theorem Uniform.stuck_eq_nil (hg : g.Uniform) : g.stuck = [] := by
  apply List.eq_nil_iff_forall_not_mem.2
  intro name hmem
  obtain ⟨hcontains, hfounded⟩ := mem_stuck.1 hmem
  obtain ⟨branches, hfind⟩ := contains_iff.1 hcontains
  refine hfounded (.intro hfind fun inner hinner => ?_)
  obtain ⟨b, hb, href⟩ := exists_of_mem_firstReferences hinner
  rw [hg.references_eq_nil (find?_eq_some_iff.1 hfind) hb] at href
  cases href

theorem Uniform.validate_eq_ok_iff (hg : g.Uniform) :
    g.validate = .ok () ↔ ∀ r ∈ g.rules, (Branch.total r.branches).isUnitTotal = true := by
  rw [Grammar.validate_eq_ok_iff, defect?_eq_none_iff, and_iff_left hg.stuck_eq_nil]
  exact forall₂_congr fun r hr => hg.sound_iff hr

/-- Accepted totals, by their distance to one. -/
theorem Uniform.isUnitTotal_iff (hg : g.Uniform) {r : Rule} (hr : r ∈ g.rules) :
    (Branch.total r.branches).isUnitTotal = true
      ↔ (Branch.total r.branches - 1).abs ≤ tolerance :=
  Single.isUnitTotal_iff
    (Branch.total_ne_nan fun b hb => (Branch.proper_iff.1 ((hg.proper hr).2 b hb)).1)

/-- The one defect of such a rule is its total. -/
theorem Uniform.defect_iff (hg : g.Uniform) {r : Rule} (hr : r ∈ g.rules) {fault : Fault} :
    r.Defect g.contains fault
      ↔ ¬ (Branch.total r.branches - 1).abs ≤ tolerance
        ∧ fault = .grammar (.badTotal r.name (Branch.total r.branches)) := by
  obtain ⟨hne, hall⟩ := hg.proper hr
  constructor
  · intro h
    cases h with
    | empty hnil => exact absurd hnil hne
    | @branch before after b _ hsplit _ hdefect =>
        have hb : b ∈ r.branches := by
          rw [hsplit]
          exact List.mem_append_right before List.mem_cons_self
        have htold := Branch.defect?_eq_some_iff.2 hdefect
        rw [Branch.defect?_eq_none_iff.2 (Branch.proper_iff.1 (hall b hb))] at htold
        cases htold
    | total _ _ h => exact ⟨h, rfl⟩
  · rintro ⟨h, rfl⟩
    exact .total hne hall h

/-- Such a grammar is refused for the first total that is. -/
theorem Uniform.validate_eq_error_iff (hg : g.Uniform) {fault : Fault} :
    g.validate = .error fault ↔ ∃ r ∈ g.rules,
      (∀ s ∈ g.rules, s.name < r.name → (Branch.total s.branches - 1).abs ≤ tolerance)
        ∧ ¬ (Branch.total r.branches - 1).abs ≤ tolerance
        ∧ fault = .grammar (.badTotal r.name (Branch.total r.branches)) := by
  rw [Grammar.validate_eq_error_iff, defect?_eq_some_iff]
  constructor
  · intro h
    cases h with
    | @rule r _ hr hdefect hfirst =>
        obtain ⟨hbad, hfault⟩ := (hg.defect_iff hr).1 hdefect
        refine ⟨r, hr, fun s hs hlt => ?_, hbad, hfault⟩
        by_contra hother
        exact hfirst s hs hlt _ ((hg.defect_iff hs).2 ⟨hother, rfl⟩)
    | @endless hrules names hne _ hnames =>
        -- no name is stuck, so there are none to tell
        obtain ⟨name, hname⟩ := List.exists_mem_of_ne_nil names hne
        have hmem := (closed_of_forall_not_defect hrules).mem_stuck_iff.2 ((hnames name).1 hname)
        rw [hg.stuck_eq_nil] at hmem
        cases hmem
  · rintro ⟨r, hr, hbefore, hbad, hfault⟩
    refine .rule hr ((hg.defect_iff hr).2 ⟨hbad, hfault⟩) fun s hs hlt other hother => ?_
    exact ((hg.defect_iff hs).1 hother).1 (hbefore s hs hlt)

/-- **RULES OF EQUALLY PROBABLE BRANCHES ARE JUDGED BY THEIR TOTALS ALONE.**  The total
of up to 6916 such branches is always accepted, that of 6917 is not, nor that of 7033,
and from `2 ^ 25` on none is.  A grammar of such rules is valid exactly if all totals are accepted,
and is refused for the total of the first rule that has another.  Within a positive
budget every word picks a branch of a rule with an accepted total; of 7033 branches
the largest roll picks none. -/
theorem Uniform.judged_by_totals (hg : g.Uniform) :
    (∀ r ∈ g.rules, r.branches.length ≤ 6916 → (Branch.total r.branches - 1).abs ≤ tolerance)
      ∧ (∀ r ∈ g.rules,
          (r.branches.length = 6917 ∨ r.branches.length = 7033) ∨ 2 ^ 25 ≤ r.branches.length →
            ¬ (Branch.total r.branches - 1).abs ≤ tolerance)
      ∧ ((∀ r ∈ g.rules, r.branches.length ≤ 6916) → g.validate = .ok ())
      ∧ (g.validate = .ok () ↔ ∀ r ∈ g.rules, (Branch.total r.branches - 1).abs ≤ tolerance)
      ∧ (∀ fault, g.validate = .error fault ↔ ∃ r ∈ g.rules,
          (∀ s ∈ g.rules, s.name < r.name → (Branch.total s.branches - 1).abs ≤ tolerance)
            ∧ ¬ (Branch.total r.branches - 1).abs ≤ tolerance
            ∧ fault = .grammar (.badTotal r.name (Branch.total r.branches)))
      ∧ (∀ r ∈ g.rules, (Branch.total r.branches - 1).abs ≤ tolerance →
          ∀ word budget i, 0 < budget → ∃ b ∈ r.branches,
            (Branch.select r.name r.branches budget).run (Tape.endless word) i = (.ok b, i + 1))
      ∧ ∀ r ∈ g.rules, r.branches.length = 7033 → ∀ w : UInt32, w >>> 8 = 0xffffff →
          Branch.pick? r.branches (unitOfWord w) = none := by
  have hfew : ∀ r ∈ g.rules, r.branches.length ≤ 6916 →
      (Branch.total r.branches - 1).abs ≤ tolerance := by
    intro r hr hle
    rw [← hg.isUnitTotal_iff hr]
    obtain ⟨templates, hbranches, hne, _⟩ := hg r hr
    rw [hbranches, Branch.length_uniform] at hle
    rw [hbranches]
    exact Branch.isUnitTotal_uniform hne hle
  have hvalid : g.validate = .ok ()
      ↔ ∀ r ∈ g.rules, (Branch.total r.branches - 1).abs ≤ tolerance := by
    rw [hg.validate_eq_ok_iff]
    exact forall₂_congr fun r hr => hg.isUnitTotal_iff hr
  refine ⟨hfew, ?_, fun hall => hvalid.2 fun r hr => hfew r hr (hall r hr), hvalid, ?_, ?_, ?_⟩
  · intro r hr hlen
    rw [← hg.isUnitTotal_iff hr, Bool.not_eq_true]
    obtain ⟨templates, hbranches, _⟩ := hg r hr
    rw [hbranches, Branch.length_uniform] at hlen
    rw [hbranches]
    rcases hlen with h | h
    · exact Branch.isUnitTotal_uniform_of_refused h
    · exact Branch.isUnitTotal_uniform_of_large h
  · exact fun fault => hg.validate_eq_error_iff
  · intro r hr htotal word budget i hbudget
    have hsound := (hg.sound_iff hr).2 ((hg.isUnitTotal_iff hr).2 htotal)
    obtain ⟨b, hb, hpick⟩ :=
      Branch.exists_pick hsound.probabilities hsound.total (unitOfWord_le_one (word i))
    exact ⟨b, hb, Branch.run_select_of_pick? hbudget rfl hpick⟩
  · intro r hr hlen w hw
    obtain ⟨templates, hbranches, _⟩ := hg r hr
    rw [hbranches, Branch.length_uniform] at hlen
    rw [hbranches]
    exact Branch.pick?_uniform_7033 hlen hw

/-- A grammar with twelve equally probable branches. -/
def dozen : Grammar := ofList [("E", Branch.twelfths)]

theorem uniform_dozen : dozen.Uniform := by
  intro r hr
  have hrule : r = ⟨"E", Branch.twelfths⟩ := List.mem_singleton.1 hr
  rw [hrule]
  exact ⟨List.replicate 12 (.var .x), rfl, List.cons_ne_nil _ _,
    fun e he => by rw [List.eq_of_mem_replicate he]; rfl⟩

/-- Twelve equal shares make less than one, and are accepted; every word picks a
branch. -/
theorem judged_by_totals_dozen :
    dozen.Uniform ∧ dozen.validate = .ok ()
      ∧ ∀ r ∈ dozen.rules, ∀ w, ∃ b ∈ r.branches,
          (Branch.select r.name r.branches 3).run (Tape.endless fun _ => w) 0 = (.ok b, 1) := by
  obtain ⟨hfew, _, hvalid, _, _, hpick, _⟩ := uniform_dozen.judged_by_totals
  have hlen : ∀ r ∈ dozen.rules, r.branches.length ≤ 6916 := by decide
  refine ⟨uniform_dozen, hvalid hlen, fun r hr w => ?_⟩
  exact hpick r hr (hfew r hr (hlen r hr)) (fun _ => w) 3 0 (by decide)

/-- A grammar with one rule, of 7033 equally probable branches. -/
def crowd : Grammar := ofList [("A", Branch.uniform (List.replicate 7033 (.var .x)))]

/-- The grammar is refused, and the largest draw selects no branch of its rule. -/
theorem crowd_refused :
    crowd.Uniform ∧ crowd.validate ≠ .ok ()
      ∧ ∀ r ∈ crowd.rules, Branch.pick? r.branches (unitOfWord 0xffffffff) = none := by
  have hrule : ∀ r ∈ crowd.rules,
      r.branches = Branch.uniform (List.replicate 7033 (.var .x)) := fun r hr => by
    rw [List.mem_singleton.1 hr]
  have hlen : (List.replicate 7033 (Expr.var .x)).length = 7033 := List.length_replicate
  have hne : List.replicate 7033 (Expr.var .x) ≠ [] := List.ne_nil_of_length_pos (by omega)
  have huniform : crowd.Uniform := fun r hr =>
    ⟨_, hrule r hr, hne, fun e he => by rw [List.eq_of_mem_replicate he]; rfl⟩
  refine ⟨huniform, ?_, fun r hr => ?_⟩
  · intro hvalid
    have haccepted := huniform.validate_eq_ok_iff.1 hvalid
      ⟨"A", Branch.uniform (List.replicate 7033 (.var .x))⟩ (List.mem_singleton.2 rfl)
    have hrefused := Branch.isUnitTotal_uniform_of_refused (Or.inr hlen)
    exact absurd haccepted (Bool.eq_false_iff.1 hrefused)
  · rw [hrule r hr]
    exact Branch.pick?_uniform_7033 hlen (by decide)

end Grammar

end ArtGrammar
