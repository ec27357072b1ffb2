/-
  ArtGrammar.Proofs.Value.Selection
  ────────────────────────────────
  **A BLEND SELECTS BY ITS TEST.**

  A blend has no branch: both sides are evaluated, and weighted by one and zero.
  In every lane, with scalars standing for vectors of equal lanes:

      test     weight of yes    weight of no    the sum is
      true     1                0               yes, if no is finite
      false    0                1               no, if yes is finite

  The side with weight zero disturbs the sum exactly if it is not finite, and then
  the sum has no value.
-/
import ArtGrammar.Proofs.Single.Weights
import ArtGrammar.Proofs.Value.Lanes

namespace ArtGrammar

/-! ## §1. Operands in a lane. -/

theorem ValueType.exists_join_of_ne_bool {s t : ValueType} (hs : s ≠ .bool) (ht : t ≠ .bool) :
    ∃ u, s.join? t = some u := by
  cases s <;> cases t <;> first
    | exact ⟨_, rfl⟩
    | contradiction

namespace Value

/-- What is combined lane by lane has a number in each lane, that of the two numbers
there. -/
theorem exists_lane_of_zip {kind : Kind} {f : Single → Single → Single} {v w r : Value}
    (h : zip kind f v w = .ok r) (i : Lane) :
    ∃ a c, v.lane i = .scalar a ∧ w.lane i = .scalar c ∧ r.lane i = .scalar (f a c) := by
  cases v <;> cases w <;> cases h <;> exact ⟨_, _, rfl, rfl, by cases i <;> rfl⟩

/-- Nothing combined is a truth value, and it is a vector if one of the operands is. -/
theorem type_of_zip {kind : Kind} {f : Single → Single → Single} {v w r : Value}
    (h : zip kind f v w = .ok r) :
    v.type ≠ .bool ∧ w.type ≠ .bool
      ∧ (r.type = .vector ↔ v.type = .vector ∨ w.type = .vector) := by
  cases v <;> cases w <;> cases h <;> simp [type]

/-- Only truth values pass as conditions. -/
theorem eq_bool_of_toTest {v : Value} {b : Bool} (h : v.toTest = .ok b) : v = .bool b := by
  cases v with
  | scalar x => cases h
  | bool c => exact congrArg Value.bool (Except.ok.inj h)
  | vector x => cases h

/-- **WEIGHTED SIDES SELECT IN EVERY LANE.** -/
theorem selects_lane {b : Bool} {y n y' n' v : Value}
    (hy : zip .cond (· * ·) (.scalar (if b then 1 else 0)) y = .ok y')
    (hn : zip .cond (· * ·) (.scalar (1 - if b then 1 else 0)) n = .ok n')
    (hv : zip .cond (· + ·) y' n' = .ok v) (i : Lane) :
    ∃ x taken other, v.lane i = .scalar x ∧ (if b then y else n).lane i = .scalar taken
      ∧ (if b then n else y).lane i = .scalar other ∧ x.Selects taken other := by
  obtain ⟨_, a, ⟨⟩, ha, hya⟩ := exists_lane_of_zip hy i
  obtain ⟨_, c, ⟨⟩, hc, hnc⟩ := exists_lane_of_zip hn i
  obtain ⟨a', c', ha', hc', hx⟩ := exists_lane_of_zip hv i
  -- the operands of the sum are the weighted sides
  obtain rfl : a' = _ := scalar.inj (ha'.symm.trans hya)
  obtain rfl : c' = _ := scalar.inj (hc'.symm.trans hnc)
  rw [one_sub_weight] at hx
  cases b with
  | true => exact ⟨_, a, c, hx, ha, hc, Single.selects_left a c⟩
  | false => exact ⟨_, c, a, hx, hc, ha, Single.selects_right c a⟩

end Value

/-! ## §2. Blends. -/

namespace Expr

variable {p : Viewpoint} {test yes no : Expr}

/-- The steps of a blend that has a value. -/
theorem exists_steps_of_evaluate_cond {v : Value} (h : (cond test yes no).evaluate p = .ok v) :
    ∃ b y n y' n', test.evaluate p = .ok (.bool b) ∧ yes.evaluate p = .ok y
      ∧ no.evaluate p = .ok n
      ∧ Value.zip .cond (· * ·) (.scalar (if b then 1 else 0)) y = .ok y'
      ∧ Value.zip .cond (· * ·) (.scalar (1 - if b then 1 else 0)) n = .ok n'
      ∧ Value.zip .cond (· + ·) y' n' = .ok v := by
  obtain ⟨t, htest, h⟩ := bind_eq_ok.1 h
  obtain ⟨b, hb, h⟩ := bind_eq_ok.1 h
  obtain ⟨y, hyes, h⟩ := bind_eq_ok.1 h
  obtain ⟨y', hy, h⟩ := bind_eq_ok.1 h
  obtain ⟨n, hno, h⟩ := bind_eq_ok.1 h
  obtain ⟨n', hn, hv⟩ := bind_eq_ok.1 h
  obtain rfl := Value.eq_bool_of_toTest hb
  exact ⟨b, y, n, y', n', htest, hyes, hno, hy, hn, hv⟩

/-- Sides that can be weighted make up a value. -/
theorem exists_evaluate_cond {b : Bool} {y n : Value} (htest : test.evaluate p = .ok (.bool b))
    (hyes : yes.evaluate p = .ok y) (hno : no.evaluate p = .ok n) (hy : y.type ≠ .bool)
    (hn : n.type ≠ .bool) : ∃ v, (cond test yes no).evaluate p = .ok v := by
  obtain ⟨y', hy', htypey⟩ :=
    Value.exists_weigh .cond (· * ·) (if b then 1 else 0) hy
  obtain ⟨n', hn', htypen⟩ :=
    Value.exists_weigh .cond (· * ·) (1 - if b then 1 else 0) hn
  obtain ⟨u, hu⟩ := ValueType.exists_join_of_ne_bool hy hn
  rw [← htypey, ← htypen] at hu
  obtain ⟨v, hv, _⟩ := Value.exists_zip .cond (· + ·) hu
  refine ⟨v, bind_eq_ok.2 ⟨_, htest, bind_eq_ok.2 ⟨b, rfl, ?_⟩⟩⟩
  exact bind_eq_ok.2 ⟨y, hyes, bind_eq_ok.2 ⟨y', hy', bind_eq_ok.2 ⟨n, hno, bind_eq_ok.2
    ⟨n', hn', hv⟩⟩⟩⟩

/-- **A BLEND SELECTS BY ITS TEST.**  It has a value exactly if its test is a truth value
and neither side is one; the value is a vector if one of the sides is.  In each lane,
a scalar being the same in all, the value is the number of the side taken, or both are
not-a-number, if the number of the other side is finite; and it is not-a-number if that
is infinite or not-a-number. -/
theorem evaluate_cond_selects (p : Viewpoint) (test yes no : Expr) :
    ((∃ v, (cond test yes no).evaluate p = .ok v) ↔
        ∃ b y n, test.evaluate p = .ok (.bool b) ∧ yes.evaluate p = .ok y
          ∧ no.evaluate p = .ok n ∧ y.type ≠ .bool ∧ n.type ≠ .bool)
      ∧ ∀ v, (cond test yes no).evaluate p = .ok v →
          ∃ b y n, test.evaluate p = .ok (.bool b) ∧ yes.evaluate p = .ok y
            ∧ no.evaluate p = .ok n ∧ (v.type = .vector ↔ y.type = .vector ∨ n.type = .vector)
            ∧ ∀ i, ∃ x taken other, v.lane i = .scalar x
                ∧ (if b then y else n).lane i = .scalar taken
                ∧ (if b then n else y).lane i = .scalar other
                ∧ (other.isFinite = true → x.numEq taken = true ∨ x = .nan ∧ taken = .nan)
                ∧ (other.isFinite = false → x = .nan) := by
  refine ⟨⟨?_, ?_⟩, ?_⟩
  · rintro ⟨v, h⟩
    obtain ⟨b, y, n, y', n', htest, hyes, hno, hy, hn, _⟩ := exists_steps_of_evaluate_cond h
    exact ⟨b, y, n, htest, hyes, hno, (Value.type_of_zip hy).2.1, (Value.type_of_zip hn).2.1⟩
  · rintro ⟨b, y, n, htest, hyes, hno, hy, hn⟩
    exact exists_evaluate_cond htest hyes hno hy hn
  · intro v h
    obtain ⟨b, y, n, y', n', htest, hyes, hno, hy, hn, hv⟩ := exists_steps_of_evaluate_cond h
    refine ⟨b, y, n, htest, hyes, hno, ?_, fun i => ?_⟩
    · -- the weights are scalars, so only the sides can be vectors
      have hyvector := (Value.type_of_zip hy).2.2
      have hnvector := (Value.type_of_zip hn).2.2
      rw [(Value.type_of_zip hv).2.2, hyvector, hnvector]
      simp [Value.type]
    · obtain ⟨x, taken, other, hx, htaken, hother, hselects⟩ := Value.selects_lane hy hn hv i
      exact ⟨x, taken, other, hx, htaken, hother, hselects.taken, hselects.disturbed⟩

/-- A blend of a scalar with a vector whose lanes are a remainder, an infinity and a
variable. -/
def disturbed : Expr :=
  .cond (.ge (.var .x) (.var .y)) (.var .x)
    (.triple (.arith .mod (.var .x) (.var .y)) (.number (.infinite true)) (.var .t))

/-- Where the second coordinate is zero the test holds and the remainder has no value:
the first two lanes of the vector disturb the scalar, and the third leaves it as it is. -/
theorem evaluate_cond_selects_disturbed :
    disturbed.evaluate { x := 1 } = .ok (.vector ⟨.nan, .nan, 1⟩)
      ∧ ∀ i, ∃ x taken other, (Value.vector ⟨.nan, .nan, 1⟩).lane i = .scalar x
          ∧ (Value.scalar 1).lane i = .scalar taken
          ∧ (Value.vector ⟨.nan, .infinite true, 0⟩).lane i = .scalar other
          ∧ (other.isFinite = true → x.numEq taken = true ∨ x = .nan ∧ taken = .nan)
          ∧ (other.isFinite = false → x = .nan) := by
  have hvalue : disturbed.evaluate { x := 1 } = .ok (.vector ⟨.nan, .nan, 1⟩) := rfl
  obtain ⟨b, y, n, htest, hyes, hno, _, hlanes⟩ :=
    (evaluate_cond_selects { x := 1 } _ _ _).2 _ hvalue
  obtain rfl : true = b := Value.bool.inj (Except.ok.inj htest)
  obtain rfl : Value.scalar 1 = y := Except.ok.inj hyes
  obtain rfl : Value.vector ⟨.nan, .infinite true, 0⟩ = n := Except.ok.inj hno
  exact ⟨hvalue, hlanes⟩

end Expr

end ArtGrammar
