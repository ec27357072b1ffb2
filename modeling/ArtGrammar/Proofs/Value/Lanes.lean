/-
  ArtGrammar.Proofs.Value.Lanes
  ────────────────────────────────
  **A VECTOR IS EVALUATED AS THREE SCALARS.**

  The lane of a tree is the tree with one of the three scalars in place of each
  vector.  It is passed on to the operands of lane-wise operations and to both
  sides of a blend, and stops at a vector, where it picks the scalar:

      triple a b c         a, b or c
      abs a                abs (lane a)
      arith op a b         arith op (lane a) (lane b)
      cond test yes no     cond test (lane yes) (lane no)
      all others           as they are

  A scalar operand is its own lane, which is what letting a scalar stand for a
  vector of equal lanes comes to.
-/
import ArtGrammar.Proofs.Value.Static

namespace ArtGrammar

/-! ## §1. Lanes. -/

/-- One of three lanes. -/
inductive Lane where
  | first
  | second
  | third
  deriving DecidableEq, Repr

/-- The one of three things that belongs to the lane. -/
def Lane.pick {α : Type} (a b c : α) : Lane → α
  | .first => a
  | .second => b
  | .third => c

/-- The number in a lane. -/
def Lanes.get (v : Lanes) (i : Lane) : Single := i.pick v.first v.second v.third

theorem Lanes.ext_get {v w : Lanes} (h : ∀ i, v.get i = w.get i) : v = w := by
  have hfirst : v.first = w.first := h .first
  have hsecond : v.second = w.second := h .second
  have hthird : v.third = w.third := h .third
  cases v
  cases w
  cases hfirst
  cases hsecond
  cases hthird
  rfl

namespace Value

/-- A lane of a vector; any other value is the same in all lanes. -/
def lane (i : Lane) : Value → Value
  | .vector v => .scalar (v.get i)
  | v => v

/-- **WHAT IS COMBINED LANE BY LANE IS COMBINED IN EACH LANE**, whichever of the
operands are vectors. -/
theorem zip_lane {kind : Kind} {f : Single → Single → Single} {v w r : Value}
    (h : zip kind f v w = .ok r) (i : Lane) : zip kind f (v.lane i) (w.lane i) = .ok (r.lane i) := by
  cases v <;> cases w <;> cases h <;> cases i <;> rfl

theorem abs_lane {v r : Value} (h : v.abs = .ok r) (i : Lane) :
    (v.lane i).abs = .ok (r.lane i) := by
  cases v <;> cases h <;> cases i <;> rfl

theorem eq_scalar_of_toScalar {kind : Kind} {v : Value} {x : Single} (h : v.toScalar kind = .ok x) :
    v = .scalar x := by
  cases v with
  | scalar y => exact congrArg Value.scalar (Except.ok.inj h)
  | bool b => cases h
  | vector y => cases h

theorem eq_vector_of_type {v : Value} (h : v.type = .vector) : ∃ x, v = .vector x := by
  cases v with
  | scalar x => cases h
  | bool b => cases h
  | vector x => exact ⟨x, rfl⟩

end Value

/-- Only scalars are joined to a scalar. -/
theorem ValueType.ne_vector_of_join? {s t u : ValueType} (h : s.join? t = some u)
    (hu : u ≠ .vector) : s ≠ .vector ∧ t ≠ .vector := by
  cases s <;> cases t <;> cases h <;> simp at hu ⊢

namespace Expr

/-- A lane of a tree. -/
def lane (i : Lane) : Expr → Expr
  | .triple a b c => i.pick a b c
  | .abs a => .abs (lane i a)
  | .arith op a b => .arith op (lane i a) (lane i b)
  | .cond test yes no => .cond test (lane i yes) (lane i no)
  | .var v => .var v
  | .number v => .number v
  | .boolean b => .boolean b
  | .ge a b => .ge a b
  | .random => .random
  | .rule name => .rule name

/-! ## §2. Trees without lanes. -/

/-- **WHAT IS NO VECTOR IS ITS OWN LANE.**  Vectors can stand only in what is compared
or tested there, and lanes are not passed on to it. -/
theorem HasType.lane_eq {types : String → ValueType} {e : Expr} {s : ValueType}
    (h : e.HasType types s) (i : Lane) : s ≠ .vector → e.lane i = e := by
  induction h with
  | var v => exact fun _ => rfl
  | number v => exact fun _ => rfl
  | boolean b => exact fun _ => rfl
  | random => exact fun _ => rfl
  | rule name => exact fun _ => rfl
  | abs _ _ iha =>
      intro hs
      rw [lane, iha hs]
  | arith op _ _ hjoin iha ihb =>
      intro hu
      obtain ⟨hs, ht⟩ := ValueType.ne_vector_of_join? hjoin hu
      rw [lane, iha hs, ihb ht]
  | ge _ _ => exact fun _ => rfl
  | triple _ _ _ => exact fun h => absurd rfl h
  | cond _ _ _ hjoin _ ihyes ihno =>
      intro hu
      obtain ⟨hs, ht⟩ := ValueType.ne_vector_of_join? hjoin hu
      rw [lane, ihyes hs, ihno ht]

theorem lane_eq_of_evaluate {p : Viewpoint} {e : Expr} {v : Value} (h : e.evaluate p = .ok v)
    (hv : v.type ≠ .vector) (i : Lane) : e.lane i = e :=
  (hasType_of_typeOf (fun _ => .scalar) e (typeOf_eq_ok_of_evaluate h)).2.lane_eq i hv

/-! ## §3. Evaluation in a lane. -/

/-- **THE LANE OF A TREE HAS THE LANE OF ITS VALUE.** -/
theorem evaluate_lane (p : Viewpoint) (i : Lane) (e : Expr) :
    ∀ {v}, e.evaluate p = .ok v → (e.lane i).evaluate p = .ok (v.lane i) := by
  induction e with
  | var v => rintro _ ⟨⟩; rfl
  | number v => rintro _ ⟨⟩; rfl
  | boolean b => rintro _ ⟨⟩; rfl
  | random => exact fun h => nomatch h
  | rule name => exact fun h => nomatch h
  | abs a iha =>
      intro r h
      obtain ⟨v, ha, hr⟩ := bind_eq_ok.1 h
      exact bind_eq_ok.2 ⟨v.lane i, iha ha, Value.abs_lane hr i⟩
  | arith op a b iha ihb =>
      intro r h
      obtain ⟨v, ha, h⟩ := bind_eq_ok.1 h
      obtain ⟨w, hb, hr⟩ := bind_eq_ok.1 h
      exact bind_eq_ok.2 ⟨v.lane i, iha ha, bind_eq_ok.2 ⟨w.lane i, ihb hb, Value.zip_lane hr i⟩⟩
  | ge a b _ _ =>
      -- a truth value, and the tree is left as it is
      intro r h
      obtain ⟨v, _, hrest⟩ := bind_eq_ok.1 h
      obtain ⟨x, _, hrest⟩ := bind_eq_ok.1 hrest
      obtain ⟨w, _, hrest⟩ := bind_eq_ok.1 hrest
      obtain ⟨y, _, hrest⟩ := bind_eq_ok.1 hrest
      cases hrest
      exact h
  | triple a b c _ _ _ =>
      intro r h
      obtain ⟨u, ha, h⟩ := bind_eq_ok.1 h
      obtain ⟨x, hx, h⟩ := bind_eq_ok.1 h
      obtain ⟨v, hb, h⟩ := bind_eq_ok.1 h
      obtain ⟨y, hy, h⟩ := bind_eq_ok.1 h
      obtain ⟨w, hc, h⟩ := bind_eq_ok.1 h
      obtain ⟨z, hz, h⟩ := bind_eq_ok.1 h
      obtain rfl := Value.eq_scalar_of_toScalar hx
      obtain rfl := Value.eq_scalar_of_toScalar hy
      obtain rfl := Value.eq_scalar_of_toScalar hz
      cases h
      -- the lane is a child, and what the child has for a value is the number there
      cases i with
      | first => exact ha
      | second => exact hb
      | third => exact hc
  | cond test yes no _ ihyes ihno =>
      intro r h
      obtain ⟨t, htest, h⟩ := bind_eq_ok.1 h
      obtain ⟨b, hb, h⟩ := bind_eq_ok.1 h
      obtain ⟨v, hyes, h⟩ := bind_eq_ok.1 h
      obtain ⟨y, hy, h⟩ := bind_eq_ok.1 h
      obtain ⟨w, hno, h⟩ := bind_eq_ok.1 h
      obtain ⟨n, hn, hr⟩ := bind_eq_ok.1 h
      -- the weights are scalars, so each of them is its own lane
      refine bind_eq_ok.2 ⟨t, htest, bind_eq_ok.2 ⟨b, hb, ?_⟩⟩
      refine bind_eq_ok.2 ⟨v.lane i, ihyes hyes, bind_eq_ok.2 ⟨y.lane i, Value.zip_lane hy i, ?_⟩⟩
      refine bind_eq_ok.2 ⟨w.lane i, ihno hno, bind_eq_ok.2 ⟨n.lane i, Value.zip_lane hn i, ?_⟩⟩
      exact Value.zip_lane hr i

/-- **A VECTOR IS EVALUATED AS THREE SCALARS.**  If a tree has a vector for a value,
each of its lanes has the number in that lane; a tree that has a scalar or a truth
value is its own lane.  For a tree whose type is vector, the values of the three lanes
are all there is to its value. -/
theorem evaluate_lane_by_lane (p : Viewpoint) (e : Expr) :
    (∀ v, e.evaluate p = .ok (.vector v) →
        ∀ i, (e.lane i).evaluate p = .ok (.scalar (v.get i)))
      ∧ (∀ x, e.evaluate p = .ok (.scalar x) → ∀ i, e.lane i = e)
      ∧ (∀ b, e.evaluate p = .ok (.bool b) → ∀ i, e.lane i = e)
      ∧ (e.typeOf = .ok .vector → ∀ v,
          (e.evaluate p = .ok (.vector v) ↔
            ∀ i, (e.lane i).evaluate p = .ok (.scalar (v.get i)))) := by
  refine ⟨fun v h i => evaluate_lane p i e h, fun x h => lane_eq_of_evaluate h nofun,
    fun b h => lane_eq_of_evaluate h nofun, fun htype v => ⟨fun h i => evaluate_lane p i e h, ?_⟩⟩
  -- the tree has some vector for a value, and two vectors with the same lanes are one
  intro hlanes
  obtain ⟨w, hw, hvector⟩ := exists_evaluate_of_typeOf htype p
  obtain ⟨w, rfl⟩ := Value.eq_vector_of_type hvector
  have hsame : w = v := by
    apply Lanes.ext_get
    intro i
    have hlane := (evaluate_lane p i e hw).symm.trans (hlanes i)
    exact Value.scalar.inj (Except.ok.inj hlane)
  rw [hw, hsame]

/-- A blend of two vectors, each combined with a scalar: on one side the scalar stands
on the left, on the other on the right. -/
def blended : Expr :=
  .cond (.ge (.var .x) (.var .y))
    (.arith .add (.number 1) (.triple (.var .x) (.var .y) (.var .t)))
    (.arith .mult (.abs (.triple (.var .y) (.var .t) (.var .x))) (.var .x))

/-- A viewpoint at which the test of the blend holds. -/
def rightOfCenter : Viewpoint :=
  { x := Single.ofRatio false 1 2, y := Single.ofRatio true 1 4, t := Single.ofRatio false 3 4 }

/-- The second lane of the blend has the second number of its value, and the lanes of
the blend are all there is to it; its test and a remainder of scalars are their own
lanes. -/
theorem evaluate_lane_by_lane_blended :
    blended.evaluate rightOfCenter
        = .ok (.vector ⟨Single.ofRatio false 3 2, Single.ofRatio false 3 4,
          Single.ofRatio false 7 4⟩)
      ∧ (blended.lane .second).evaluate rightOfCenter = .ok (.scalar (Single.ofRatio false 3 4))
      ∧ blended.typeOf = .ok .vector
      ∧ (∀ v, blended.evaluate rightOfCenter = .ok (.vector v) ↔
          ∀ i, (blended.lane i).evaluate rightOfCenter = .ok (.scalar (v.get i)))
      ∧ (ge (.var .x) (.var .y)).evaluate rightOfCenter = .ok (.bool true)
      ∧ (ge (.var .x) (.var .y)).lane .first = ge (.var .x) (.var .y)
      ∧ (arith .mod (.var .x) (.var .y)).evaluate rightOfCenter = .ok (.scalar 0)
      ∧ (arith .mod (.var .x) (.var .y)).lane .third = arith .mod (.var .x) (.var .y) := by
  have hvector : blended.evaluate rightOfCenter
      = .ok (.vector ⟨Single.ofRatio false 3 2, Single.ofRatio false 3 4,
        Single.ofRatio false 7 4⟩) := rfl
  have htest : (ge (.var .x) (.var .y)).evaluate rightOfCenter = .ok (.bool true) := rfl
  have hscalar : (arith .mod (.var .x) (.var .y)).evaluate rightOfCenter = .ok (.scalar 0) := rfl
  obtain ⟨hlanes, _, _, hall⟩ := evaluate_lane_by_lane rightOfCenter blended
  exact ⟨hvector, hlanes _ hvector .second, rfl, hall rfl, htest,
    (evaluate_lane_by_lane rightOfCenter _).2.2.1 _ htest .first, hscalar,
    (evaluate_lane_by_lane rightOfCenter _).2.1 _ hscalar .third⟩

end Expr

end ArtGrammar
