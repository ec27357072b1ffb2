/-
  ArtGrammar.Proofs.Decimal.Writing
  ────────────────────────────────
  **WRITTEN DECIMALS ARE READ BACK.**

  Both layouts keep the number that a decimal is, and write it with digits on
  both sides of a point:

      decimal (layout d)   the same number as d
      read (chars n ++ s)  n, and s is left        s begins with no more of it

  So a layout is read back to a decimal of the same value wherever it stands.
-/
import ArtGrammar.Decimal.Layout
import ArtGrammar.Decimal.Scan
import ArtGrammar.Proofs.Decimal.Naming

namespace ArtGrammar

/-! ## §1. Runs of characters. -/

/-- A character of a class is none of those outside it. -/
theorem ne_of_class {p : Char → Bool} {c d : Char} (hc : p c = true) (hd : p d = false) :
    c ≠ d := by
  rintro rfl
  rw [hc] at hd
  cases hd

/-- A run of characters of a class ends where the class does. -/
theorem takeWhile_append_of_stop {p : Char → Bool} {s rest : List Char} (hs : ∀ c ∈ s, p c = true)
    (hrest : ∀ c ∈ rest.head?, p c = false) :
    (s ++ rest).takeWhile p = s ∧ (s ++ rest).dropWhile p = rest := by
  rw [List.takeWhile_append_of_pos hs, List.dropWhile_append_of_pos hs]
  cases rest with
  | nil => simp
  | cons c t =>
      have hc : ¬ p c = true := by
        rw [hrest c rfl]
        decide
      rw [List.takeWhile_cons_of_neg hc, List.dropWhile_cons_of_neg hc, List.append_nil]
      exact ⟨rfl, rfl⟩

/-! ## §2. Layouts keep the number. -/

namespace Numeral

theorem valueOf_append_zeros (digits : List Char) (n : Nat) :
    valueOf (digits ++ Decimal.zeros n) = valueOf digits * 10 ^ n := by
  unfold valueOf Decimal.zeros
  rw [Nat.ofDigitChars_append, Nat.ofDigitChars_replicate_zero, Nat.mul_comm]

theorem valueOf_zeros_append (digits : List Char) (n : Nat) :
    valueOf (Decimal.zeros n ++ digits) = valueOf digits := by
  unfold valueOf Decimal.zeros
  rw [Nat.ofDigitChars_append, Nat.ofDigitChars_replicate_zero, Nat.mul_zero]

theorem valueOf_toDigits (n : Nat) : valueOf (Nat.toDigits 10 n) = n :=
  Nat.ofDigitChars_ten_toDigits

end Numeral

namespace Decimal

open Numeral

/-- Scientific notation keeps the decimal. -/
theorem decimal_scientific (d : Decimal) : (scientific d).decimal = d := by
  have hpos : 0 < d.digitChars.length := Nat.length_toDigits_pos
  unfold scientific Numeral.decimal
  simp only [List.take_append_drop, Option.getD_some, List.length_drop]
  have hvalue : valueOf d.digitChars = d.digits := valueOf_toDigits d.digits
  have hexponent : d.pointPlace - 1 - ((d.digitChars.length - 1 : Nat) : Int) = d.exponent := by
    unfold pointPlace
    omega
  rw [hvalue, hexponent]

/-- Positional notation with a fraction keeps the decimal. -/
theorem decimal_positional_of_neg (pointed : Bool) {d : Decimal} (h : d.exponent < 0) :
    (positional pointed d).decimal = d := by
  have hvalue : valueOf d.digitChars = d.digits := valueOf_toDigits d.digits
  unfold positional
  simp only
  rw [if_neg (by omega)]
  -- the point stands among the digits, or zeros stand between the two
  by_cases hplace : 0 < d.pointPlace
  · have hexponent : (0 : Int) - ((d.digitChars.length - d.pointPlace.toNat : Nat) : Int)
        = d.exponent := by
      unfold pointPlace at *
      omega
    rw [if_pos hplace]
    unfold Numeral.decimal
    simp only [List.take_append_drop, Option.getD_none, List.length_drop]
    rw [hvalue, hexponent]
  · have hexponent : (0 : Int) - (((-d.pointPlace).toNat + d.digitChars.length : Nat) : Int)
        = d.exponent := by
      unfold pointPlace at *
      omega
    have hzeros : valueOf (['0'] ++ (zeros (-d.pointPlace).toNat ++ d.digitChars)) = d.digits := by
      show valueOf (zeros 1 ++ _) = _
      rw [valueOf_zeros_append, valueOf_zeros_append, hvalue]
    rw [if_neg hplace]
    unfold Numeral.decimal
    simp only [Option.getD_none, List.length_append]
    rw [hzeros]
    unfold zeros
    rw [List.length_replicate, hexponent]

/-- Positional notation writes the number out. -/
theorem value_positional (pointed : Bool) (d : Decimal) :
    (positional pointed d).decimal.value = d.value := by
  by_cases h : d.exponent < 0
  · rw [decimal_positional_of_neg pointed h]
  · obtain ⟨digits, exponent⟩ := d
    obtain ⟨n, rfl⟩ := Int.eq_ofNat_of_zero_le (Int.not_lt.1 h)
    have hvalue : valueOf (digitChars ⟨digits, n⟩) = digits := valueOf_toDigits digits
    unfold positional
    simp only
    rw [if_pos (Int.natCast_nonneg n), Int.toNat_natCast]
    cases pointed with
    | false =>
        unfold Numeral.decimal value
        simp only [Bool.false_eq_true, if_false, List.append_nil, Option.getD_none, List.length_nil]
        rw [valueOf_append_zeros, hvalue]
        push_cast
        rw [mul_one, zpow_natCast]
    | true =>
        have hzero : (['0'] : List Char) = zeros 1 := rfl
        unfold Numeral.decimal value
        simp only [if_true, Option.getD_none, List.length_singleton]
        rw [hzero, valueOf_append_zeros, valueOf_append_zeros, hvalue]
        push_cast
        rw [zpow_natCast, mul_assoc]
        norm_num

theorem value_scientific (d : Decimal) : (scientific d).decimal.value = d.value := by
  rw [decimal_scientific]

end Decimal

/-! ## §3. Numerals are read back. -/

namespace Numeral

/-- Digits on both sides of the point, and at least one before it. -/
structure Proper (n : Numeral) : Prop where
  whole_ne : n.whole ≠ []
  whole : ∀ c ∈ n.whole, c.isDigit = true
  fraction : ∀ c ∈ n.fraction, c.isDigit = true

/-- A numeral begins with a digit. -/
theorem exists_digit_chars {n : Numeral} (hn : n.Proper) (signed : Bool) :
    ∃ c t, n.chars signed = c :: t ∧ c.isDigit = true := by
  obtain ⟨c, s, hwhole⟩ := List.exists_cons_of_ne_nil hn.whole_ne
  refine ⟨c, s ++ fractionChars n.fraction ++ exponentChars signed n.exponent, ?_, ?_⟩
  · unfold chars
    rw [hwhole]
    rfl
  · apply hn.whole
    rw [hwhole]
    exact List.mem_cons_self

/-- No part of a numeral can begin the text. -/
def Ends (rest : List Char) : Prop :=
  ∀ c ∈ rest.head?, c.isDigit = false ∧ c ≠ '.' ∧ c ≠ 'e' ∧ c ≠ 'E'

theorem isDigit_of_mem_toDigits {n : Nat} {c : Char} (h : c ∈ Nat.toDigits 10 n) :
    c.isDigit = true :=
  Nat.isDigit_of_mem_toDigits (by decide) (by decide) h

theorem takeWhile_toDigits (n : Nat) {rest : List Char} (hrest : Ends rest) :
    (Nat.toDigits 10 n ++ rest).takeWhile Char.isDigit = Nat.toDigits 10 n
      ∧ (Nat.toDigits 10 n ++ rest).dropWhile Char.isDigit = rest :=
  takeWhile_append_of_stop (fun _ hc => isDigit_of_mem_toDigits hc) (fun c hc => (hrest c hc).1)

/-- An exponent without a sign is read back, -/
theorem readExponent_digits (n : Nat) {rest : List Char} (hrest : Ends rest) :
    readExponent ('e' :: (Nat.toDigits 10 n ++ rest)) = some (some (n : Int), rest) := by
  obtain ⟨c, t, hdigits⟩ := List.exists_cons_of_ne_nil (Nat.toDigits_ne_nil (n := n) (b := 10))
  have hc : c.isDigit = true := by
    apply isDigit_of_mem_toDigits (n := n)
    rw [hdigits]
    exact List.mem_cons_self
  have hminus : c ≠ '-' := ne_of_class hc (by decide)
  have hplus : c ≠ '+' := ne_of_class hc (by decide)
  obtain ⟨htake, hdrop⟩ := takeWhile_toDigits n hrest
  have hvalue := valueOf_toDigits n
  rw [hdigits] at htake hdrop hvalue ⊢
  rw [List.cons_append] at htake hdrop ⊢
  simp [readExponent, hminus, hplus, htake, hdrop, hvalue]

/-- and so is one with a sign. -/
theorem readExponent_sign (neg : Bool) (n : Nat) {rest : List Char} (hrest : Ends rest) :
    readExponent ('e' :: (if neg then '-' else '+') :: (Nat.toDigits 10 n ++ rest))
      = some (some (if neg then -(n : Int) else n), rest) := by
  obtain ⟨htake, hdrop⟩ := takeWhile_toDigits n hrest
  have hne : (Nat.toDigits 10 n).isEmpty = false := by
    rw [List.isEmpty_eq_false_iff]
    exact Nat.toDigits_ne_nil
  cases neg with
  | false =>
      simp only [Bool.false_eq_true, if_false]
      unfold readExponent
      simp only [true_or, if_true, htake, hdrop, hne, valueOf_toDigits, Bool.false_eq_true,
        if_false]
  | true =>
      simp only [if_true]
      unfold readExponent
      simp only [true_or, if_true, htake, hdrop, hne, valueOf_toDigits, Bool.false_eq_true,
        if_false]

/-- An exponent is read back. -/
theorem readExponent_exponentChars (signed : Bool) (exponent : Option Int) {rest : List Char}
    (hrest : Ends rest) :
    readExponent (exponentChars signed exponent ++ rest) = some (exponent, rest) := by
  cases exponent with
  | none =>
      show readExponent rest = _
      cases rest with
      | nil => rfl
      | cons c t =>
          obtain ⟨_, _, he, hE⟩ := hrest c rfl
          have hletter : ¬ (c = 'e' ∨ c = 'E') := by
            rintro (h | h)
            · exact he h
            · exact hE h
          unfold readExponent
          simp only
          rw [if_neg hletter]
  | some power =>
      cases power with
      | ofNat n =>
          cases signed with
          | false => exact readExponent_digits n hrest
          | true => exact readExponent_sign false n hrest
      | negSucc n =>
          -- a minus sign is written whether signs are asked for or not
          cases signed with
          | false => exact readExponent_sign true (n + 1) hrest
          | true => exact readExponent_sign true (n + 1) hrest

/-- Behind the digits of a numeral there is neither a digit nor a point. -/
theorem stop_exponentChars (signed : Bool) (exponent : Option Int) {rest : List Char}
    (hrest : Ends rest) :
    ∀ c ∈ (exponentChars signed exponent ++ rest).head?, c.isDigit = false ∧ c ≠ '.' := by
  cases exponent with
  | none =>
      intro c hc
      obtain ⟨hdigit, hpoint, _⟩ := hrest c hc
      exact ⟨hdigit, hpoint⟩
  | some power =>
      intro c hc
      cases hc
      exact ⟨by decide, by decide⟩

/-- **A PROPER NUMERAL IS READ BACK.** -/
theorem read_chars {signed : Bool} {n : Numeral} (hn : n.Proper) {rest : List Char}
    (hrest : Ends rest) : read false (n.chars signed ++ rest) = some (n, rest) := by
  obtain ⟨whole, fraction, exponent⟩ := n
  have hexponent := readExponent_exponentChars signed exponent hrest
  have hstop := stop_exponentChars signed exponent hrest
  have hwhole : whole.isEmpty = false := by
    rw [List.isEmpty_eq_false_iff]
    exact hn.whole_ne
  have hchars : chars signed ⟨whole, fraction, exponent⟩ ++ rest
      = whole ++ (fractionChars fraction ++ (exponentChars signed exponent ++ rest)) := by
    unfold chars
    rw [List.append_assoc, List.append_assoc]
  rw [hchars]
  -- of the exponent only what is read from it matters
  generalize exponentChars signed exponent ++ rest = tail at *
  cases fraction with
  | nil =>
      obtain ⟨htake, hdrop⟩ := takeWhile_append_of_stop hn.whole (fun c hc => (hstop c hc).1)
      show read false (whole ++ tail) = _
      unfold read
      simp only [htake, hdrop]
      -- the text goes on without a point
      split
      next t => exact absurd rfl (hstop '.' rfl).2
      next => simp [hwhole, hexponent]
  | cons c f =>
      obtain ⟨htake, hdrop⟩ : (whole ++ '.' :: (c :: f ++ tail)).takeWhile Char.isDigit = whole
          ∧ (whole ++ '.' :: (c :: f ++ tail)).dropWhile Char.isDigit = '.' :: (c :: f ++ tail) := by
        apply takeWhile_append_of_stop hn.whole
        intro d hd
        cases hd
        decide
      -- the point ends the first run of digits, the exponent the second
      obtain ⟨htake', hdrop'⟩ := takeWhile_append_of_stop hn.fraction (fun c hc => (hstop c hc).1)
      show read false (whole ++ '.' :: (c :: f ++ tail)) = _
      unfold read
      simp only [htake, hdrop, htake', hdrop', hwhole, hexponent]
      rfl

end Numeral

/-! ## §4. Layouts are proper. -/

namespace Decimal

theorem isDigit_of_mem_digitChars {d : Decimal} {c : Char} (h : c ∈ d.digitChars) :
    c.isDigit = true :=
  Numeral.isDigit_of_mem_toDigits h

theorem isDigit_of_mem_zeros {n : Nat} {c : Char} (h : c ∈ zeros n) : c.isDigit = true := by
  rw [List.eq_of_mem_replicate h]
  decide

theorem proper_positional (pointed : Bool) (d : Decimal) : (positional pointed d).Proper := by
  have hne : d.digitChars ≠ [] := Nat.toDigits_ne_nil
  unfold positional
  simp only
  split
  · refine ⟨?_, ?_, ?_⟩
    · exact fun h => hne (List.append_eq_nil_iff.1 h).1
    · intro c hc
      rcases List.mem_append.1 hc with hc | hc
      · exact isDigit_of_mem_digitChars hc
      · exact isDigit_of_mem_zeros hc
    · intro c hc
      cases pointed with
      | false => cases hc
      | true =>
          rw [List.mem_singleton.1 hc]
          decide
  · split
    next hplace =>
      refine ⟨?_, ?_, ?_⟩
      · intro h
        rcases List.take_eq_nil_iff.1 h with h | h
        · omega
        · exact hne h
      · exact fun c hc => isDigit_of_mem_digitChars (List.mem_of_mem_take hc)
      · exact fun c hc => isDigit_of_mem_digitChars (List.mem_of_mem_drop hc)
    next =>
      refine ⟨List.cons_ne_nil _ _, ?_, ?_⟩
      · intro c hc
        rw [List.mem_singleton.1 hc]
        decide
      · intro c hc
        rcases List.mem_append.1 hc with hc | hc
        · exact isDigit_of_mem_zeros hc
        · exact isDigit_of_mem_digitChars hc

theorem proper_scientific (d : Decimal) : (scientific d).Proper := by
  have hne : d.digitChars ≠ [] := Nat.toDigits_ne_nil
  refine ⟨?_, ?_, ?_⟩
  · intro h
    rcases List.take_eq_nil_iff.1 h with h | h
    · cases h
    · exact hne h
  · exact fun c hc => isDigit_of_mem_digitChars (List.mem_of_mem_take hc)
  · exact fun c hc => isDigit_of_mem_digitChars (List.mem_of_mem_drop hc)

/-- Positional notation that asks for a fraction has one, -/
theorem fraction_positional_true (d : Decimal) : (positional true d).fraction ≠ [] := by
  have hne : d.digitChars ≠ [] := Nat.toDigits_ne_nil
  unfold positional
  simp only
  split
  · exact List.cons_ne_nil _ _
  · split
    · -- the point stands before the last digit
      intro hnil
      rw [List.drop_eq_nil_iff] at hnil
      unfold pointPlace at *
      omega
    · exact fun hnil => hne (List.append_eq_nil_iff.1 hnil).2

/-- and scientific notation has an exponent. -/
theorem exponent_scientific (d : Decimal) : (scientific d).exponent ≠ none := Option.some_ne_none _

end Decimal

end ArtGrammar
