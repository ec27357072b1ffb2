/-
  ArtGrammar.Proofs.Json.Number
  ────────────────────────────────
  **NUMBERS IN JSON ARE READ BACK.**

  A finite number is written with the shortest decimal that names it, and with a
  point or an exponent; an integer with digits alone:

      number     0.5   -0.0   3.4028235e+38      integer     640   -1

  A reader counts digits one by one up to a limit that no shortest decimal
  reaches, so it reads the decimal that was written, and rounds it to the number.
-/
import ArtGrammar.Json.Decoding
import ArtGrammar.Json.Encoding
import ArtGrammar.Proofs.Decimal.Shortest
import ArtGrammar.Proofs.Json.Text

namespace ArtGrammar

open JsonValue (LeadsPlainly Readable)

/-! ## §1. Leading digits. -/

/-- Only zero is written with a zero in front. -/
theorem Numeral.head?_toDigits (n : Nat) (hn : n ≠ 0) : (Nat.toDigits 10 n).head? ≠ some '0' := by
  induction n using Nat.strong_induction_on with
  | h n ih =>
      have hpos : (Nat.toDigits 10 (n / 10)) ≠ [] := Nat.toDigits_ne_nil
      rw [Nat.toDigits_eq_if (by decide)]
      split
      next hsmall =>
        have hdigit : ∀ d < 10, d ≠ 0 → [Nat.digitChar d].head? ≠ some '0' := by decide
        exact hdigit n hsmall hn
      next hlarge =>
        rw [List.head?_append_of_ne_nil _ hpos]
        exact ih (n / 10) (by omega) (by omega)

theorem JsonValue.leadsPlainly_toDigits (n : Nat) :
    LeadsPlainly { whole := Nat.toDigits 10 n } := by
  intro hzero
  by_cases hn : n = 0
  · subst hn
    rfl
  · exact absurd hzero (Numeral.head?_toDigits n hn)

namespace Decimal

open Numeral

theorem digits_eq_zero_of_head? {d : Decimal} (h : d.digitChars.head? = some '0') :
    d.digits = 0 := by
  by_contra hne
  exact head?_toDigits d.digits hne h

theorem head?_digitChars_append (d : Decimal) (s : List Char) :
    (d.digitChars ++ s).head? = d.digitChars.head? :=
  List.head?_append_of_ne_nil _ Nat.toDigits_ne_nil

/-! ## §2. The layout of a number. -/

theorem jsonLayout_eq (d : Decimal) :
    d.jsonLayout = d.positional true ∧ -5 ≤ d.pointPlace ∧ d.pointPlace ≤ 13
      ∨ d.jsonLayout = d.scientific := by
  unfold jsonLayout
  split
  next h => exact .inl ⟨rfl, h⟩
  next => exact .inr rfl

theorem proper_jsonLayout (d : Decimal) : d.jsonLayout.Proper := by
  rcases d.jsonLayout_eq with ⟨h, _⟩ | h
  · rw [h]
    exact proper_positional true d
  · rw [h]
    exact proper_scientific d

theorem value_jsonLayout (d : Decimal) : d.jsonLayout.decimal.value = d.value := by
  rcases d.jsonLayout_eq with ⟨h, _⟩ | h
  · rw [h]
    exact value_positional true d
  · rw [h]
    exact value_scientific d

/-- A number is never written like an integer. -/
theorem isWhole_jsonLayout (d : Decimal) : d.jsonLayout.isWhole = false := by
  unfold isWhole
  rw [Bool.and_eq_false_iff, List.isEmpty_eq_false_iff, Option.isNone_eq_false_iff,
    Option.isSome_iff_ne_none]
  rcases d.jsonLayout_eq with ⟨h, _⟩ | h
  · rw [h]
    exact .inl (fraction_positional_true d)
  · rw [h]
    exact .inr (exponent_scientific d)

/-- No zero is in front of other digits, unless all digits are zeros. -/
theorem leadsPlainly_jsonLayout {d : Decimal} (h : d.digits = 0 → d.exponent = 0) :
    LeadsPlainly d.jsonLayout := by
  have hzero : d.digitChars.head? = some '0' → d.digits = 0 ∧ d.exponent = 0 := by
    intro hhead
    have hdigits := digits_eq_zero_of_head? hhead
    exact ⟨hdigits, h hdigits⟩
  rcases d.jsonLayout_eq with ⟨hlayout, _⟩ | hlayout
  · rw [hlayout]
    unfold positional
    simp only
    split
    · intro hhead
      obtain ⟨hdigits, hexponent⟩ := hzero ((d.head?_digitChars_append _).symm.trans hhead)
      unfold digitChars
      rw [hdigits, hexponent]
      rfl
    next hneg =>
      split
      next hplace =>
        intro hhead
        rw [List.head?_take, if_neg (by omega)] at hhead
        exact absurd (hzero hhead).2 (by omega)
      · exact fun _ => rfl
  · rw [hlayout]
    intro hhead
    change (d.digitChars.take 1).head? = some '0' at hhead
    rw [List.head?_take, if_neg (by decide)] at hhead
    unfold scientific digitChars
    rw [(hzero hhead).1]
    rfl

/-- A layout has few digits more than the decimal. -/
theorem length_jsonLayout_le (d : Decimal) :
    (d.jsonLayout.whole ++ d.jsonLayout.fraction).length ≤ d.digitChars.length + 14 := by
  rcases d.jsonLayout_eq with ⟨h, hlow, hhigh⟩ | h
  · rw [h]
    unfold positional
    simp only
    split
    · unfold pointPlace at hhigh
      simp only [zeros, List.length_append, List.length_replicate, if_true, List.length_singleton]
      omega
    · split
      · simp only [List.take_append_drop]
        omega
      · simp only [zeros, List.length_append, List.length_replicate, List.length_singleton]
        omega
  · rw [h]
    unfold scientific
    simp only [List.take_append_drop]
    omega

end Decimal

/-! ## §3. What a numeral is read as. -/

namespace Numeral

/-- The fraction without its last zeros, and the zeros. -/
theorem exists_zeros_trimmed (n : Numeral) :
    ∃ k, n.fraction = n.trimmed.fraction ++ Decimal.zeros k := by
  have hzeros : ∀ c ∈ n.fraction.reverse.takeWhile (· = '0'), c = '0' := by
    intro c hc
    have hall := List.all_takeWhile (p := (· = '0')) (l := n.fraction.reverse)
    rw [List.all_eq_true] at hall
    exact of_decide_eq_true (hall c hc)
  have hsplit : n.fraction
      = n.trimmed.fraction ++ (n.fraction.reverse.takeWhile (· = '0')).reverse := by
    show n.fraction = (n.fraction.reverse.dropWhile (· = '0')).reverse
      ++ (n.fraction.reverse.takeWhile (· = '0')).reverse
    rw [← List.reverse_append, List.takeWhile_append_dropWhile, List.reverse_reverse]
  rw [List.eq_replicate_of_mem hzeros, List.reverse_replicate] at hsplit
  exact ⟨_, hsplit⟩

/-- Zeros behind the last digit do not change the value. -/
theorem value_trimmed (n : Numeral) : n.trimmed.decimal.value = n.decimal.value := by
  obtain ⟨k, hk⟩ := n.exists_zeros_trimmed
  have hten : (10 : ℚ) ^ k ≠ 0 := by positivity
  have hlength : n.fraction.length = n.trimmed.fraction.length + k := by
    conv => lhs; rw [hk, List.length_append]
    unfold Decimal.zeros
    rw [List.length_replicate]
  have hexponent : n.exponent.getD 0 - (n.trimmed.fraction.length : Int)
      = n.exponent.getD 0 - n.fraction.length + k := by
    omega
  have hdigits : valueOf (n.whole ++ n.fraction)
      = valueOf (n.whole ++ n.trimmed.fraction) * 10 ^ k := by
    conv => lhs; rw [hk, ← List.append_assoc, valueOf_append_zeros]
  show (valueOf (n.whole ++ n.trimmed.fraction) : ℚ)
      * 10 ^ (n.exponent.getD 0 - (n.trimmed.fraction.length : Int))
    = (valueOf (n.whole ++ n.fraction) : ℚ) * 10 ^ (n.exponent.getD 0 - (n.fraction.length : Int))
  rw [hdigits, hexponent, zpow_add₀ (by norm_num), zpow_natCast]
  push_cast
  ring

end Numeral

namespace JsonValue

/-- Of few digits all count. -/
theorem value_readAs {n : Numeral} (h : (n.whole ++ n.fraction).length ≤ digitLimit) :
    (readAs n).value = n.decimal.value := by
  have hshort : n.trimmed.significant.length ≤ digitLimit := by
    obtain ⟨k, hk⟩ := n.exists_zeros_trimmed
    have hdrop := (List.dropWhile_suffix (· = '0') (l := n.whole ++ n.trimmed.fraction)).length_le
    rw [hk] at h
    simp only [List.length_append] at h hdrop
    show ((n.whole ++ n.trimmed.fraction).dropWhile (· = '0')).length ≤ digitLimit
    omega
  unfold readAs
  simp only
  rw [if_pos hshort]
  exact n.value_trimmed

/-- What is not written like an integer is rounded from what it is read as. -/
theorem roundedFrom_of_isWhole {neg : Bool} {n : Numeral} (h : n.isWhole = false) :
    roundedFrom neg n = readAs n := by
  unfold roundedFrom
  simp [h]

end JsonValue

/-! ## §4. Numbers. -/

namespace Single

open JsonValue

theorem value_readAs_shortest (rank : Fin finiteRanks) :
    (readAs (Decimal.shortest .even rank).jsonLayout).value
      = (Decimal.shortest .even rank).value := by
  have hdigits := Decimal.length_digitChars_shortest_le .even rank.isLt
  have hlength := (Decimal.shortest .even rank).length_jsonLayout_le
  rw [value_readAs (by unfold digitLimit; omega), Decimal.value_jsonLayout]

/-- **A FINITE NUMBER IS READ BACK**, to the sign of a zero. -/
theorem toSingle?_toJson {v : Single} (hv : v.isFinite = true) : v.toJson.toSingle? = some v := by
  cases v with
  | nan => cases hv
  | infinite neg => cases hv
  | finite neg rank =>
      unfold toJson toSingle?
      simp only
      rw [roundedFrom_of_isWhole (Decimal.isWhole_jsonLayout _),
        ofDecimal_of_value_eq_shortest neg (value_readAs_shortest rank)]

theorem readable_toJson (v : Single) : Readable v.toJson := by
  cases v with
  | nan => exact .null
  | infinite neg => exact .null
  | finite neg rank =>
      refine .number neg (Decimal.proper_jsonLayout _) (Decimal.leadsPlainly_jsonLayout ?_)
      intro hdigits
      by_cases hrank : 0 < rank.val
      · exact absurd hdigits (Decimal.digits_shortest_ne_zero .even hrank)
      · unfold Decimal.shortest
        rw [if_pos (Nat.eq_zero_of_not_pos hrank)]

end Single

/-! ## §5. Integers. -/

namespace JsonValue

theorem readable_ofInt (i : Int) : Readable (ofInt i) := by
  refine .number _ ⟨Nat.toDigits_ne_nil, fun c hc => Numeral.isDigit_of_mem_toDigits hc, ?_⟩
    (leadsPlainly_toDigits i.natAbs)
  intro c hc
  cases hc

/-- **AN INTEGER IS READ BACK.** -/
theorem toInt?_ofInt (i : Int) : (ofInt i).toInt? = some i := by
  have hvalue := Numeral.valueOf_toDigits i.natAbs
  unfold ofInt toInt?
  simp only [hvalue]
  -- a minus sign before a zero would be refused
  show (if decide (i < 0) = true then
      if (i.natAbs : Int) = 0 then none else some (-(i.natAbs : Int))
    else some (i.natAbs : Int)) = some i
  by_cases hneg : i < 0
  · rw [if_pos (decide_eq_true hneg), if_neg (by omega), Option.some.injEq]
    omega
  · rw [if_neg (by simpa using hneg), Option.some.injEq]
    omega

theorem toUInt32?_ofInt (n : UInt32) : (ofInt n.toNat).toUInt32? = some n := by
  have hlt : (n.toNat : Int) < 0x100000000 := by exact_mod_cast n.toNat_lt
  unfold toUInt32? Text.toUInt32?
  rw [toInt?_ofInt, Option.bind_some, if_pos ⟨Int.natCast_nonneg _, hlt⟩, Int.toNat_natCast,
    UInt32.ofNat_toNat]

theorem toInt32?_ofInt (i : Int32) : (ofInt i.toInt).toInt32? = some i := by
  have hlow := i.le_toInt
  have hhigh := i.toInt_lt
  unfold toInt32? Text.toInt32?
  rw [toInt?_ofInt, Option.bind_some, if_pos ⟨by omega, by omega⟩, Int32.ofInt_toInt]

end JsonValue

end ArtGrammar
