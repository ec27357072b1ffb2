/-
  ArtGrammar.Proofs.Single.Shares
  ────────────────────────────────
  **ADDING UP EQUAL SHARES OF ONE.**

  One is divided among `n`, which rounds, and the shares are added one by one, which
  rounds again.  With `h = 2 ^ -25`, the step between neighbours from a quarter to a
  half of one:

      up to one half     no step is longer than `h`,     each share errs by `y₁ ≤ h / 2`
      from one half on   the step is `2 * h`,            each share errs by `y₀ ≤ h - y₁`

  One half is passed with half of the shares, so they err by half of `n * h` together
  (`shares_within`).  That is the tolerance for `n` a little past 6700.  Up to 6650
  the argument is enough; the sums from there to the first that is refused are found
  by strides.
-/
import ArtGrammar.Proofs.Single.Repeated

namespace ArtGrammar

/-! ## §1. Shares. -/

/-- The rank of one divided by `n`. -/
def shareRank (n : Nat) : Nat := nearestRank (2 ^ 149) n

/-- The units of a share. -/
def share (n : Nat) : Nat := unitsAt (shareRank n)

/-- The rank of the sum of `k` shares. -/
def sharesRank (n k : Nat) : Nat := (addRank (share n))^[k] 0

/-- The units of the sum of `k` shares. -/
def shares (n k : Nat) : Nat := unitsAt (sharesRank n k)

theorem sharesRank_succ (n k : Nat) : sharesRank n (k + 1) = addRank (share n) (sharesRank n k) :=
  Function.iterate_succ_apply' _ _ _

theorem shares_zero (n : Nat) : shares n 0 = 0 := unitsAt_zero

/-- The exponent of the step above a magnitude that is less than `2 ^ 24` such steps. -/
theorem exponentAt_le {r e : Nat} (h : unitsAt r < 2 ^ (e + 24)) : exponentAt r ≤ e := by
  by_contra hlt
  obtain ⟨m, _, hunits, _, hmin⟩ := exists_multiple r
  have hmul : 2 ^ 23 * 2 ^ (e + 1) ≤ m * 2 ^ exponentAt r :=
    Nat.mul_le_mul (hmin.resolve_left (by omega)) (Nat.pow_le_pow_right (by decide) (by omega))
  rw [← Nat.pow_add, ← hunits, show 23 + (e + 1) = e + 24 by omega] at hmul
  omega

/-- Of more shares each one is smaller, or as large. -/
theorem shareRank_anti {d n : Nat} (hd : 0 < d) (hle : d ≤ n) : shareRank n ≤ shareRank d :=
  nearestRank_le_of_mul_le (by omega) hd (Nat.mul_le_mul_left _ hle)

theorem shareRank_one : shareRank 1 = 0x3f800000 := by decide

/-- A share is at most one. -/
theorem share_le_one {n : Nat} (hpos : 0 < n) : share n ≤ 2 ^ 149 := by
  rw [← unitsAt_one, ← shareRank_one]
  exact unitsAt_strictMono.monotone (shareRank_anti Nat.one_pos hpos)

/-- **ALL SHARES TOGETHER ARE ONE, BUT FOR HALF A STEP EACH.** -/
theorem mul_share {n : Nat} (hpos : 0 < n) (hle : n ≤ 2 ^ 24) :
    Within (2 ^ 126) (n * share n) (2 ^ 149) := by
  have hupper := twice_le_nearestRank (2 ^ 149) n hpos
  have hlower := fun s => nearestRank_le_twice (2 ^ 149) n hpos (s := s)
  change 2 * 2 ^ 149 ≤ n * (share n + unitsAt (shareRank n + 1)) at hupper
  change ∀ s, s + 1 = shareRank n → n * (unitsAt s + share n) ≤ 2 * 2 ^ 149 at hlower
  -- the steps of all shares together are short
  have hstep : n * 2 ^ exponentAt (shareRank n) ≤ 2 ^ 24
      ∨ 2 ^ 23 * (n * 2 ^ exponentAt (shareRank n)) ≤ n * share n := by
    obtain ⟨m, _, hunits, _, hmin⟩ := exists_multiple (shareRank n)
    rw [← share] at hunits
    refine hmin.imp (fun hzero => ?_) (fun hlow => ?_)
    · rwa [hzero, Nat.pow_zero, Nat.mul_one]
    · rw [hunits, Nat.mul_left_comm]
      exact Nat.mul_le_mul_left n (Nat.mul_le_mul_right _ hlow)
  rw [unitsAt_succ, ← share, ← Nat.add_assoc, Nat.mul_add, Nat.mul_add] at hupper
  have hbelow : 2 * (n * share n) ≤ 2 * 2 ^ 149 + n * 2 ^ exponentAt (shareRank n) := by
    by_cases hzero : shareRank n = 0
    · rw [share, hzero, unitsAt_zero]
      omega
    · obtain ⟨s, hs⟩ : ∃ s, s + 1 = shareRank n := ⟨shareRank n - 1, by omega⟩
      have hbefore := hlower s hs
      have hlast : share n = unitsAt s + 2 ^ exponentAt s := by
        rw [share, ← hs, unitsAt_succ]
      have hmono : n * 2 ^ exponentAt s ≤ n * 2 ^ exponentAt (shareRank n) :=
        Nat.mul_le_mul_left n
          (Nat.pow_le_pow_right (by decide) (exponentAt_mono (by omega)))
      rw [Nat.mul_add] at hbefore
      have hscaled := congrArg (n * ·) hlast
      simp only [Nat.mul_add] at hscaled
      omega
  generalize n * share n = total at *
  generalize n * 2 ^ exponentAt (shareRank n) = steps at *
  unfold Within
  omega

/-- A number near a multiple of a step is near a multiple of the double step, or
between two of them. -/
theorem exists_near_multiples (c : Nat) {h : Nat} (hh : 0 < h) :
    ∃ a₁ a₀ y₁ y₀, h ∣ a₁ ∧ 2 * h ∣ a₀ ∧ Within y₁ a₁ c ∧ Within y₀ a₀ c
      ∧ y₀ + y₁ ≤ h ∧ 2 * y₁ ≤ h := by
  have hsplit := Nat.div_add_mod c (2 * h)
  have hrest := Nat.mod_lt c (show 0 < 2 * h by omega)
  have hlow : 2 * h ∣ 2 * h * (c / (2 * h)) := Nat.dvd_mul_right _ _
  have hhigh : 2 * h ∣ 2 * h * (c / (2 * h)) + 2 * h := hlow.add (Nat.dvd_refl _)
  have hhalf : h ∣ 2 * h := Nat.dvd_mul_left h 2
  generalize 2 * h * (c / (2 * h)) = low at *
  generalize c % (2 * h) = rest at *
  unfold Within
  by_cases hfirst : 2 * rest ≤ h
  · exact ⟨low, low, rest, rest, hhalf.trans hlow, hlow, by omega, by omega, by omega, by omega⟩
  by_cases hsecond : rest ≤ h
  · exact ⟨low + h, low, h - rest, rest, (hhalf.trans hlow).add (Nat.dvd_refl h), hlow,
      by omega, by omega, by omega, by omega⟩
  by_cases hthird : 2 * rest ≤ 3 * h
  · exact ⟨low + h, low + 2 * h, rest - h, 2 * h - rest, (hhalf.trans hlow).add (Nat.dvd_refl h),
      hhigh, by omega, by omega, by omega, by omega⟩
  · exact ⟨low + 2 * h, low + 2 * h, 2 * h - rest, 2 * h - rest, hhalf.trans hhigh, hhigh,
      by omega, by omega, by omega, by omega⟩

/-! ## §2. Up to one half, and on. -/

/-- An addition to a sum of one or less does not leave the second binade above. -/
theorem exponentAt_addRank_le {c r : Nat} (hc : c ≤ 2 ^ 149) (hr : unitsAt r ≤ 2 ^ 149) :
    exponentAt (addRank c r) ≤ 127 := by
  have hrank : r ≤ 0x3f800000 := by
    rw [← unitsAt_strictMono.le_iff_le, unitsAt_one]
    exact hr
  exact exponentAt_mono (addRank_mono hc hrank)

/-- Few shares are not small, compared with the step below one half. -/
theorem le_share {n : Nat} (hpos : 0 < n) (hle : n ≤ 6650) : 5000 * 2 ^ 124 ≤ share n := by
  by_contra hless
  have htotal := (mul_share hpos (by omega)).2
  have hmul : n * share n ≤ 6650 * (5000 * 2 ^ 124) := Nat.mul_le_mul hle (by omega)
  omega

section
variable {n : Nat}

/-- While sums are less than one half, their steps are short. -/
theorem shares_le_half {a y k : Nat} (ha : 2 ^ 124 ∣ a) (hy : Within y a (share n))
    (hhalf : ∀ j < k, shares n j < 2 ^ 148) :
    shares n k + 1 ≤ k * share n + k * y + 2 ^ exponentAt (sharesRank n k)
      ∧ k * share n + 1 ≤ shares n k + k * y + 2 ^ exponentAt (sharesRank n k) := by
  have h := drift ha hy 0 k fun j hj => exponentAt_le (hhalf j hj)
  rw [unitsAt_zero, show exponentAt 0 = 0 from rfl, Nat.pow_zero, Nat.zero_add] at h
  exact h

/-- While sums are less than one, their steps are twice as long at most. -/
theorem shares_le_one {a y p k : Nat} (ha : 2 ^ 125 ∣ a) (hy : Within y a (share n))
    (hone : ∀ j < p + k, shares n j < 2 ^ 149) :
    shares n (p + k) + 2 ^ exponentAt (sharesRank n p)
        ≤ shares n p + k * share n + k * y + 2 ^ exponentAt (sharesRank n (p + k))
      ∧ shares n p + k * share n + 2 ^ exponentAt (sharesRank n p)
        ≤ shares n (p + k) + k * y + 2 ^ exponentAt (sharesRank n (p + k)) := by
  have hiterate : ∀ j, sharesRank n (p + j) = (addRank (share n))^[j] (sharesRank n p) := by
    intro j
    rw [Nat.add_comm]
    exact Function.iterate_add_apply _ _ _ _
  have h := drift ha hy (sharesRank n p) k fun j hj => by
    rw [← hiterate]
    exact exponentAt_le (hone (p + j) (by omega))
  unfold shares
  rw [hiterate]
  exact h

variable (hpos : 0 < n) (hle : n ≤ 6650)
include hpos hle

/-- One half is passed with half of the shares. -/
theorem exists_half {a y : Nat} (ha : 2 ^ 124 ∣ a) (hy : Within y a (share n))
    (hshort : 2 * y ≤ 2 ^ 124) :
    ∃ p, n ≤ 2 * p + 1 ∧ 2 * p ≤ n + 3 ∧ p ≤ n ∧ ∀ j < p, shares n j < 2 ^ 148 := by
  have htotal := (mul_share hpos (by omega)).1
  have htotal' := (mul_share hpos (by omega)).2
  have hlarge := le_share hpos hle
  have herr : ∀ k ≤ n, 2 * (k * y) ≤ 6650 * 2 ^ 124 := fun k hk => by
    rw [Nat.mul_left_comm]
    exact Nat.mul_le_mul (by omega) hshort
  have hex : ∃ p, 2 ^ 148 ≤ shares n p ∧ p ≤ n := by
    by_contra hnone
    have hall : ∀ j ≤ n, shares n j < 2 ^ 148 := fun j hj =>
      Nat.lt_of_not_le fun hreach => hnone ⟨j, hreach, hj⟩
    have hend := (shares_le_half (k := n) ha hy fun j hj => hall j (by omega)).2
    have hstep : 2 ^ exponentAt (sharesRank n n) ≤ 2 ^ 124 :=
      Nat.pow_le_pow_right (by decide) (exponentAt_le (hall n (Nat.le_refl n)))
    have hlast := hall n (Nat.le_refl n)
    have hn := herr n (Nat.le_refl n)
    omega
  obtain ⟨hreach, hpn⟩ := Nat.find_spec hex
  have hbelow : ∀ j < Nat.find hex, shares n j < 2 ^ 148 := fun j hj =>
    Nat.lt_of_not_le fun hj' => Nat.find_min hex hj ⟨hj', by omega⟩
  generalize Nat.find hex = p at *
  cases p with
  | zero =>
      rw [shares_zero] at hreach
      omega
  | succ p =>
      have hbefore := hbelow p (Nat.lt_succ_self p)
      refine ⟨p + 1, ?_, ?_, hpn, hbelow⟩
      · -- two more shares than twice as many would be more than one
        by_contra hmany
        have hmul : (2 * (p + 1) + 2) * share n ≤ n * share n :=
          Nat.mul_le_mul_right _ (by omega)
        have hpast := (shares_le_half ha hy hbelow).1
        have hstep : 2 ^ exponentAt (sharesRank n (p + 1)) ≤ 2 ^ 127 := by
          rw [sharesRank_succ]
          exact Nat.pow_le_pow_right (by decide)
            (exponentAt_addRank_le (share_le_one hpos) (by rw [← shares]; omega))
        have hp := herr (p + 1) hpn
        rw [Nat.add_mul, Nat.mul_assoc] at hmul
        omega
      · -- two less would be less
        by_contra hfew
        have hmul : (n + 2) * share n ≤ 2 * p * share n := Nat.mul_le_mul_right _ (by omega)
        have hshare := (shares_le_half (k := p) ha hy fun j hj => hbelow j (by omega)).2
        have hstep : 2 ^ exponentAt (sharesRank n p) ≤ 2 ^ 124 :=
          Nat.pow_le_pow_right (by decide) (exponentAt_le hbefore)
        have hp := herr p (by omega)
        rw [Nat.add_mul, Nat.mul_assoc] at hmul
        omega

omit hpos in
/-- The distances of the shares to multiples of the steps, those below one half and
those above it, come to half of the number of shares. -/
theorem shares_past_half {a₁ a₀ y₁ y₀ p k : Nat} (ha₁ : 2 ^ 124 ∣ a₁) (ha₀ : 2 ^ 125 ∣ a₀)
    (hy₁ : Within y₁ a₁ (share n)) (hy₀ : Within y₀ a₀ (share n)) (hsum : y₀ + y₁ ≤ 2 ^ 124)
    (hlow : n ≤ 2 * p + 1) (hhigh : 2 * p ≤ n + 3) (hk : p + k ≤ n)
    (hhalf : ∀ j < p, shares n j < 2 ^ 148) (hone : ∀ j < p + k, shares n j < 2 ^ 149) :
    Within (3326 * 2 ^ 124 + 2 ^ exponentAt (sharesRank n (p + k))) (shares n (p + k))
      ((p + k) * share n) := by
  obtain ⟨hup, hdown⟩ := shares_le_half ha₁ hy₁ hhalf
  obtain ⟨hup', hdown'⟩ := shares_le_one ha₀ hy₀ hone
  have herr : p * y₁ + k * y₀ ≤ 3326 * 2 ^ 124 := by
    calc p * y₁ + k * y₀ ≤ 3326 * y₁ + 3326 * y₀ :=
          Nat.add_le_add (Nat.mul_le_mul_right y₁ (by omega)) (Nat.mul_le_mul_right y₀ (by omega))
      _ = 3326 * (y₀ + y₁) := by rw [← Nat.mul_add, Nat.add_comm]
      _ ≤ 3326 * 2 ^ 124 := Nat.mul_le_mul_left _ hsum
  rw [Nat.add_mul]
  unfold Within
  omega

/-- **UP TO 6650 SHARES OF ONE MAKE ONE, BUT FOR A TEN THOUSANDTH OF IT.** -/
theorem shares_within : Within (3338 * 2 ^ 124) (shares n n) (2 ^ 149) := by
  obtain ⟨a₁, a₀, y₁, y₀, ha₁, ha₀, hy₁, hy₀, hsum, hshort⟩ :=
    exists_near_multiples (share n) (Nat.two_pow_pos 124)
  obtain ⟨p, hlow, hhigh, hpn, hhalf⟩ := exists_half hpos hle ha₁ hy₁ hshort
  have htotal := mul_share hpos (by omega)
  have hlarge := le_share hpos hle
  have hstep : ∀ k, shares n k < 2 ^ 149 → 2 ^ exponentAt (sharesRank n (k + 1)) ≤ 2 ^ 127 := by
    intro k hk
    rw [sharesRank_succ]
    exact Nat.pow_le_pow_right (by decide)
      (exponentAt_addRank_le (share_le_one hpos) (Nat.le_of_lt hk))
  -- before the last share the sum is less than one
  have hone : ∀ k < n, shares n k < 2 ^ 149 := by
    intro k
    induction k using Nat.strongRecOn with
    | ind k ih =>
        intro hk
        by_cases hbelow : k < p
        · have := hhalf k hbelow
          omega
        obtain ⟨i, rfl⟩ : ∃ i, k = p + i := ⟨k - p, by omega⟩
        have hwithin := shares_past_half hle ha₁ ha₀ hy₁ hy₀ hsum hlow hhigh (by omega) hhalf
          fun j hj => ih j hj (by omega)
        have hmul : (p + i + 1) * share n ≤ n * share n := Nat.mul_le_mul_right _ hk
        rw [Nat.succ_mul] at hmul
        generalize p + i = k at *
        cases k with
        | zero =>
            rw [shares_zero]
            omega
        | succ k =>
            have hlast := hstep k (ih k (by omega) (by omega))
            unfold Within at *
            omega
  obtain ⟨k, hk⟩ : ∃ k, n = p + k := ⟨n - p, by omega⟩
  have hwithin := shares_past_half (k := k) hle ha₁ ha₀ hy₁ hy₀ hsum hlow hhigh (by omega) hhalf
    fun j hj => hone j (by omega)
  rw [← hk] at hwithin
  have hlast := hstep (n - 1) (hone (n - 1) (by omega))
  rw [Nat.sub_add_cancel hpos] at hlast
  unfold Within at *
  omega

end

/-! ## §3. Sums found by strides. -/

/-- The rank of the sum of `n` shares, in strides from the first share on. -/
def sharesByStrides (n : Nat) : Option Nat :=
  climb (share n) 100 (exponentAt (shareRank n))
    (shareRank n - exponentAt (shareRank n) * binade) (n - 1)

theorem sharesRank_of_strides {n r : Nat} (hpos : 0 < n) (h : sharesByStrides n = some r) :
    sharesRank n n = r := by
  have hfirst : addRank (share n) 0 = shareRank n := by
    have hkeep := nearestRank_unitsAt (shareRank n) 1 Nat.one_pos
    rw [Nat.mul_one, ← share, ← Nat.zero_add (share n), ← unitsAt_zero] at hkeep
    exact hkeep
  obtain ⟨n', rfl⟩ : ∃ n', n = n' + 1 := ⟨n - 1, by omega⟩
  obtain ⟨m, hr, hunits, hm, hmin⟩ := exists_multiple (shareRank (n' + 1))
  rw [← share] at hunits
  unfold sharesRank
  rw [Function.iterate_succ_apply, hfirst]
  unfold sharesByStrides at h
  rw [show shareRank (n' + 1) - exponentAt (shareRank (n' + 1)) * binade = m by omega] at h
  conv_lhs => rw [hr]
  refine iterate_addRank_of_climb _ _ _ m n' r (by omega) hmin ?_ h
  rw [hunits]
  exact Nat.mul_lt_mul_of_pos_right hm (Nat.two_pow_pos _)

set_option maxRecDepth 4000 in
/-- Past 6650 shares the sums are near one by chance, the first 266 of them. -/
theorem sharesByStrides_near :
    ∀ i < 266, (sharesByStrides (6651 + i)).any
      (fun r => decide (0x3f7ff973 ≤ r) && decide (r ≤ 0x3f800346)) = true := by
  decide +kernel

/-- The ranks of the magnitudes that differ from one by the tolerance at most. -/
theorem within_tolerance {r : Nat} (hlow : 0x3f7ff973 ≤ r) (hhigh : r ≤ 0x3f800346) :
    Within (unitsAt 0x38d1b717) (unitsAt r) (2 ^ 149) := by
  have hbelow := unitsAt_strictMono.monotone hlow
  have habove := unitsAt_strictMono.monotone hhigh
  have hends : 2 ^ 149 ≤ unitsAt 0x3f7ff973 + unitsAt 0x38d1b717
      ∧ unitsAt 0x3f800346 ≤ 2 ^ 149 + unitsAt 0x38d1b717 := by
    decide
  unfold Within
  omega

/-- **UP TO 6916 SHARES DIFFER FROM ONE BY THE TOLERANCE AT MOST.** -/
theorem shares_within_tolerance {n : Nat} (hpos : 0 < n) (hle : n ≤ 6916) :
    Within (unitsAt 0x38d1b717) (shares n n) (2 ^ 149) := by
  by_cases hfew : n ≤ 6650
  · have hwithin := shares_within hpos hfew
    have hbound : 3338 * 2 ^ 124 ≤ unitsAt 0x38d1b717 := by decide
    unfold Within at *
    omega
  · have hnear := sharesByStrides_near (n - 6651) (by omega)
    rw [Nat.add_sub_cancel' (by omega)] at hnear
    cases hr : sharesByStrides n with
    | none =>
        rw [hr] at hnear
        cases hnear
    | some r =>
        rw [hr, Option.any_some, Bool.and_eq_true, decide_eq_true_iff, decide_eq_true_iff] at hnear
        rw [shares, sharesRank_of_strides hpos hr]
        exact within_tolerance hnear.1 hnear.2

/-! ## §4. Sums that come to a halt. -/

/-- Shares of half a step below one half never add up to more than that. -/
theorem iterate_addRank_le_half {c : Nat} (hc : c ≤ 2 ^ 124) (k : Nat) :
    (addRank c)^[k] 0 ≤ 0x3f000000 := by
  have htop : addRank (2 ^ 124) 0x3f000000 = 0x3f000000 := by decide
  have hstays : addRank c 0x3f000000 ≤ addRank (2 ^ 124) 0x3f000000 :=
    addRank_mono hc (Nat.le_refl _)
  rw [htop] at hstays
  exact iterate_addRank_le (Nat.zero_le _) (Nat.le_antisymm hstays (le_addRank c _)) k

end ArtGrammar
