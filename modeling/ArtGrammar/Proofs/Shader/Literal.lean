/-
  ArtGrammar.Proofs.Shader.Literal
  ────────────────────────────────
  **NUMBER LITERALS.**

  A style lays out the shortest decimal of a finite number, behind a minus sign
  if the number has one:

      shortest    1   0.5   -0   1e15      decimal    1.0   0.5   -0.0   1e-7

  The literal denotes a rational to which the number is the nearest one.  In the
  decimal style it shows a point or an exponent; in the shortest one it is a
  whole number below 10 ^ 15 if it shows neither.
-/
import ArtGrammar.Proofs.Decimal.Writing
import ArtGrammar.Proofs.Single.Exact
import ArtGrammar.Shader.Dialect
import ArtGrammar.Single.Bits

namespace ArtGrammar

/-! ## §1. Signed numerals. -/

/-- A numeral behind its sign. -/
def Numeral.literal (neg : Bool) (n : Numeral) : String :=
  String.ofList (Single.signChars neg ++ n.chars false)

namespace Numeral

theorem mem_literal_of_fraction {neg : Bool} {n : Numeral} (h : n.fraction ≠ []) :
    '.' ∈ (n.literal neg).toList := by
  obtain ⟨c, s, hfraction⟩ := List.exists_cons_of_ne_nil h
  unfold literal chars
  rw [String.toList_ofList, hfraction]
  simp [fractionChars]

theorem mem_literal_of_exponent {neg : Bool} {n : Numeral} (h : n.exponent ≠ none) :
    'e' ∈ (n.literal neg).toList := by
  obtain ⟨power, hpower⟩ := Option.ne_none_iff_exists'.1 h
  unfold literal chars
  rw [String.toList_ofList, hpower]
  simp [exponentChars]

/-- Digits alone denote a whole number. -/
theorem value_of_isWhole {n : Numeral} (hfraction : n.fraction = [])
    (hexponent : n.exponent = none) : n.decimal.value = valueOf n.whole := by
  unfold decimal Decimal.value
  rw [hfraction, hexponent, List.append_nil]
  simp

/-- A signed numeral tells its sign and its parts. -/
theorem literal_injective {m n : Numeral} (hm : m.Proper) (hn : n.Proper) {s t : Bool}
    (h : m.literal s = n.literal t) : s = t ∧ m = n := by
  have hends : Ends [] := by
    intro c hc
    cases hc
  have hread : ∀ k : Numeral, k.Proper → read false (k.chars false) = some (k, []) := by
    intro k hk
    have hchars : read false (k.chars false ++ []) = some (k, []) := read_chars hk hends
    rwa [List.append_nil] at hchars
  -- no numeral begins with a minus sign
  have hminus : ∀ k : Numeral, k.Proper → ∀ rest, k.chars false ≠ '-' :: rest := by
    intro k hk rest hchars
    have hnone : read false ('-' :: rest) = none := rfl
    rw [← hchars, hread k hk] at hnone
    cases hnone
  have hchars := String.ofList_injective h
  cases s with
  | true =>
      cases t with
      | true =>
          have htail : m.chars false = n.chars false := List.tail_eq_of_cons_eq hchars
          have hsame := (hread m hm).symm.trans ((congrArg (read false) htail).trans (hread n hn))
          simp only [Option.some.injEq, Prod.mk.injEq, and_true] at hsame
          exact ⟨rfl, hsame⟩
      | false => exact absurd hchars.symm (hminus n hn _)
  | false =>
      cases t with
      | true => exact absurd hchars (hminus m hm _)
      | false =>
          have hsame := (hread m hm).symm.trans ((congrArg (read false) hchars).trans (hread n hn))
          simp only [Option.some.injEq, Prod.mk.injEq, and_true] at hsame
          exact ⟨rfl, hsame⟩

end Numeral

/-! ## §2. The numeral of a number. -/

/-- The shortest decimal is nearest to the magnitude, also to zero. -/
theorem Single.isNearest_decimalAt (rank : Fin finiteRanks) :
    IsNearest ((decimalAt rank).value * unitsPerOne) rank := by
  by_cases hrank : 0 < rank.val
  · exact Decimal.isNearest_shortest .up hrank
  · have hzero : rank.val = 0 := Nat.eq_zero_of_not_pos hrank
    have hvalue : (decimalAt rank).value = 0 := by
      rw [Decimal.value_eq_zero_iff]
      unfold decimalAt Decimal.shortest
      rw [if_pos hzero]
    have hself := isNearest_unitsAt 0
    rw [hvalue, zero_mul, hzero]
    rwa [unitsAt_zero, Nat.cast_zero] at hself

namespace NumberStyle

/-- How the style lays out a number. -/
def layout (style : NumberStyle) (v : Single) : Decimal → Numeral :=
  match style with
  | .shortest => if exponentFrom ≤ v.abs then Decimal.scientific else Decimal.positional false
  | .decimal => if v.isExtreme then Decimal.scientific else Decimal.positional true

/-- The numeral that a finite number is spelled with. -/
def numeral (style : NumberStyle) (neg : Bool) (rank : Fin finiteRanks) : Numeral :=
  style.layout (.finite neg rank) (Single.decimalAt rank)

/-- Exactly the finite numbers have a literal: the sign and the numeral. -/
theorem spell?_finite (style : NumberStyle) (neg : Bool) (rank : Fin finiteRanks) :
    style.spell? (.finite neg rank) = some ((style.numeral neg rank).literal neg) := by
  have hfinite : (Single.finite neg rank).isFinite = true := rfl
  unfold spell? numeral layout
  rw [if_pos hfinite]
  cases style with
  | shortest =>
      simp only
      split
      · rfl
      · rfl
  | decimal =>
      simp only
      unfold Single.marked
      split
      · rfl
      · rfl

theorem spell?_eq_none {style : NumberStyle} {v : Single} (h : v.isFinite = false) :
    style.spell? v = none := by
  unfold spell?
  rw [h]
  rfl

theorem layout_eq (style : NumberStyle) (v : Single) :
    style.layout v = Decimal.scientific
      ∨ ∃ pointed, style.layout v = Decimal.positional pointed := by
  unfold layout
  cases style with
  | shortest =>
      simp only
      split
      · exact .inl rfl
      · exact .inr ⟨false, rfl⟩
  | decimal =>
      simp only
      split
      · exact .inl rfl
      · exact .inr ⟨true, rfl⟩

theorem proper_numeral (style : NumberStyle) (neg : Bool) (rank : Fin finiteRanks) :
    (style.numeral neg rank).Proper := by
  unfold numeral
  rcases style.layout_eq (.finite neg rank) with h | ⟨pointed, h⟩
  · rw [h]
    exact Decimal.proper_scientific _
  · rw [h]
    exact Decimal.proper_positional pointed _

theorem value_numeral (style : NumberStyle) (neg : Bool) (rank : Fin finiteRanks) :
    (style.numeral neg rank).decimal.value = (Single.decimalAt rank).value := by
  unfold numeral
  rcases style.layout_eq (.finite neg rank) with h | ⟨pointed, h⟩
  · rw [h]
    exact Decimal.value_scientific _
  · rw [h]
    exact Decimal.value_positional pointed _

/-- The numeral denotes a rational to which the number is the nearest one. -/
theorem isNearest_numeral (style : NumberStyle) (neg : Bool) (rank : Fin finiteRanks) :
    IsNearest ((style.numeral neg rank).decimal.value * unitsPerOne) rank := by
  rw [style.value_numeral neg rank]
  exact Single.isNearest_decimalAt rank

/-! ## §3. Points and exponents. -/

/-- **THE DECIMAL STYLE SHOWS A POINT OR AN EXPONENT.** -/
theorem marked_numeral (neg : Bool) (rank : Fin finiteRanks) :
    (decimal.numeral neg rank).fraction ≠ [] ∨ (decimal.numeral neg rank).exponent ≠ none := by
  unfold numeral layout
  simp only
  split
  · exact .inr (Decimal.exponent_scientific _)
  · exact .inl (Decimal.fraction_positional_true _)

/-- From here on the shortest style writes an exponent; it is the number nearest
to 10 ^ 15, and a little less. -/
theorem exponentFrom_eq : exponentFrom = .finite false ⟨0x58635fa9, by decide⟩ := by decide

theorem unitsAt_exponentFrom_le : unitsAt 0x58635fa9 ≤ 10 ^ 15 * unitsPerOne := by decide

/-- **THE SHORTEST STYLE WRITES WHOLE NUMBERS BELOW 10 ^ 15 ONLY.** -/
theorem value_numeral_lt {neg : Bool} {rank : Fin finiteRanks}
    (hexponent : (shortest.numeral neg rank).exponent = none) :
    (shortest.numeral neg rank).decimal.value < 10 ^ 15 := by
  have hnear := isNearest_numeral shortest neg rank
  have hlt : rank.val < 0x58635fa9 := by
    unfold numeral layout at hexponent
    simp only at hexponent
    split at hexponent
    · exact absurd hexponent (Decimal.exponent_scientific _)
    next hsmall =>
      rw [exponentFrom_eq] at hsmall
      exact Nat.lt_of_not_le fun hle => hsmall (Single.finite_le_finite.2 hle)
  -- the value is below the midpoint to the next magnitude, which is no more than the limit
  have hup := hnear.le_upper
  have hself := unitsAt_lt_cast hlt
  have hnext : (unitsAt (rank + 1) : ℚ) ≤ unitsAt 0x58635fa9 := unitsAt_le_cast hlt
  have hlimit : (unitsAt 0x58635fa9 : ℚ) ≤ 10 ^ 15 * unitsPerOne := by
    exact_mod_cast unitsAt_exponentFrom_le
  have hunits : (0 : ℚ) < unitsPerOne := by exact_mod_cast Nat.two_pow_pos 149
  refine lt_of_mul_lt_mul_right ?_ hunits.le
  linarith

end NumberStyle

/-! ## §4. Literals. -/

/-- Of a finite number there is one word. -/
theorem Single.ofBits_injective {a b : UInt32} (ha : (ofBits a).isFinite = true)
    (h : ofBits a = ofBits b) : a = b := by
  unfold ofBits at ha h
  dsimp only at ha h
  by_cases hrank : a.toNat % 0x80000000 < finiteRanks
  · rw [dif_pos hrank] at h
    split at h
    · -- the sign is the top bit, and the rank all the others
      injection h with hneg hrest
      have hsame : a.toNat % 0x80000000 = b.toNat % 0x80000000 := Fin.mk.inj hrest
      rw [decide_eq_decide] at hneg
      have halt := a.toNat_lt
      have hblt := b.toNat_lt
      apply UInt32.toNat_inj.1
      omega
    · split at h
      · cases h
      · cases h
  · rw [dif_neg hrank] at ha
    split at ha
    · cases ha
    · cases ha

/-- Of two finite numbers no literal is the same. -/
theorem NumberStyle.spell?_injective {style : NumberStyle} {v w : Single} (hv : v.isFinite = true)
    (h : style.spell? v = style.spell? w) : v = w := by
  cases v with
  | nan => cases hv
  | infinite s => cases hv
  | finite s r =>
      cases w with
      | nan =>
          rw [spell?_finite, spell?_eq_none rfl] at h
          cases h
      | infinite t =>
          rw [spell?_finite, spell?_eq_none rfl] at h
          cases h
      -- two literals that agree have one sign and one numeral
      | finite t r' =>
          rw [spell?_finite, spell?_finite, Option.some.injEq] at h
          obtain ⟨rfl, hsame⟩ :=
            Numeral.literal_injective (proper_numeral ..) (proper_numeral ..) h
          -- one numeral is nearest to one magnitude
          have hnear := style.isNearest_numeral s r
          rw [hsame] at hnear
          rw [Fin.ext (hnear.unique (style.isNearest_numeral s r'))]

/-- **LITERALS DENOTE THEIR NUMBERS.**  In both styles exactly the finite numbers
have a literal.  It is made up of a sign, which is that of the number, digits,
a fraction if there is a point and a power of ten if there is an exponent; the
number is the nearest one to the rational that it denotes, ties to even.  No two
words of finite numbers have the same literal.  In the decimal style it shows a
point or an exponent, and in the shortest style it is a whole number below
10 ^ 15 if it shows neither. -/
theorem NumberStyle.spell?_denotes (style : NumberStyle) :
    (∀ v : Single, v.isFinite = false → style.spell? v = none)
      ∧ (∀ neg (rank : Fin finiteRanks), ∃ n : Numeral, n.Proper
          ∧ style.spell? (.finite neg rank) = some (n.literal neg)
          ∧ IsNearest (n.decimal.value * unitsPerOne) rank
          ∧ (style = .decimal → '.' ∈ (n.literal neg).toList ∨ 'e' ∈ (n.literal neg).toList)
          ∧ (style = .shortest → '.' ∉ (n.literal neg).toList → 'e' ∉ (n.literal neg).toList →
              ∃ k : Nat, k < 10 ^ 15 ∧ n.decimal.value = k))
      ∧ ∀ a b : UInt32, (Single.ofBits a).isFinite = true →
          style.spell? (Single.ofBits a) = style.spell? (Single.ofBits b) → a = b := by
  refine ⟨fun v => spell?_eq_none, fun neg rank => ?_, ?_⟩
  · refine ⟨style.numeral neg rank, style.proper_numeral neg rank, style.spell?_finite neg rank,
      style.isNearest_numeral neg rank, ?_, ?_⟩
    · rintro rfl
      rcases marked_numeral neg rank with h | h
      · exact .inl (Numeral.mem_literal_of_fraction h)
      · exact .inr (Numeral.mem_literal_of_exponent h)
    · rintro rfl hpoint hletter
      have hfraction : (shortest.numeral neg rank).fraction = [] :=
        Classical.byContradiction fun h => hpoint (Numeral.mem_literal_of_fraction h)
      have hexponent : (shortest.numeral neg rank).exponent = none :=
        Classical.byContradiction fun h => hletter (Numeral.mem_literal_of_exponent h)
      have hwhole := Numeral.value_of_isWhole hfraction hexponent
      have hlt := value_numeral_lt hexponent
      rw [hwhole] at hlt
      exact ⟨_, by exact_mod_cast hlt, hwhole⟩
  · intro a b ha h
    exact Single.ofBits_injective ha (spell?_injective ha h)

/-- The two zeros, whose words differ in the top bit alone, have two literals, and a
power of ten just below the limit has neither point nor exponent. -/
theorem NumberStyle.spell?_denotes_zero :
    NumberStyle.shortest.spell? (Single.ofBits 0x80000000) = some "-0"
      ∧ NumberStyle.shortest.spell? (Single.ofBits 0) ≠ some "-0"
      ∧ NumberStyle.decimal.spell? (.infinite true) = none
      ∧ ∃ n : Numeral, n.literal false = "100000000000000"
          ∧ ∃ k : Nat, k < 10 ^ 15 ∧ n.decimal.value = k := by
  obtain ⟨_, hshape, hwords⟩ := spell?_denotes .shortest
  have hzero : NumberStyle.shortest.spell? (Single.ofBits 0x80000000) = some "-0" := by
    decide +kernel
  refine ⟨hzero, ?_, (spell?_denotes .decimal).1 _ rfl, ?_⟩
  · intro h
    exact absurd (hwords 0x80000000 0 rfl (hzero.trans h.symm)) (by decide)
  · obtain ⟨n, _, hspell, _, _, hwhole⟩ := hshape false ⟨0x56b5e621, by decide⟩
    have htext : n.literal false = "100000000000000" := by
      have hvalue : NumberStyle.shortest.spell? (.finite false ⟨0x56b5e621, by decide⟩)
          = some "100000000000000" := by decide +kernel
      exact Option.some.inj (hspell.symm.trans hvalue)
    rw [htext] at hwhole
    exact ⟨n, htext, hwhole rfl (by decide) (by decide)⟩

end ArtGrammar
