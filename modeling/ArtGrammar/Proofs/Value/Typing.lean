/-
  ArtGrammar.Proofs.Value.Typing
  ────────────────────────────────
  **THE TYPES OF TREES AND TEMPLATES.**

  A type is found from the leaves up, without any value; a reference has the type
  that is assumed of its rule:

      var, number, random       scalar
      boolean                   bool
      abs a                     that of a, if it has lanes
      arith op a b              scalar, or vector if a or b is one; no bool
      ge a b                    bool, of two scalars
      triple a b c              vector, of three scalars
      cond test yes no          as arith of yes and no, if test is bool

  A concrete tree that has a type has a value of it at every viewpoint.
-/
import ArtGrammar.Proofs.Expr.Nodes
import ArtGrammar.Value.Evaluation

namespace ArtGrammar

/-! ## §1. Types. -/

/-- The type of two operands combined lane by lane. -/
def ValueType.join? : ValueType → ValueType → Option ValueType
  | .scalar, .scalar => some .scalar
  | .scalar, .vector => some .vector
  | .vector, .scalar => some .vector
  | .vector, .vector => some .vector
  | _, _ => none

/-- Only types with lanes can be joined. -/
theorem ValueType.ne_bool_of_join? {s t u : ValueType} (h : s.join? t = some u) :
    s ≠ .bool ∧ t ≠ .bool := by
  cases s <;> cases t <;> cases h <;> simp

namespace Expr

/-- The tree has the type, if all rules have the types that are assumed. -/
inductive HasType (types : String → ValueType) : Expr → ValueType → Prop
  | var (v : Variable) : HasType types (.var v) .scalar
  | number (v : Single) : HasType types (.number v) .scalar
  | boolean (b : Bool) : HasType types (.boolean b) .bool
  | random : HasType types .random .scalar
  | rule (name : String) : HasType types (.rule name) (types name)
  | abs {a : Expr} {s : ValueType} (ha : HasType types a s) (hs : s ≠ .bool) :
      HasType types (.abs a) s
  | arith (op : Arith) {a b : Expr} {s t u : ValueType} (ha : HasType types a s)
      (hb : HasType types b t) (hu : s.join? t = some u) : HasType types (.arith op a b) u
  | ge {a b : Expr} (ha : HasType types a .scalar) (hb : HasType types b .scalar) :
      HasType types (.ge a b) .bool
  | triple {a b c : Expr} (ha : HasType types a .scalar) (hb : HasType types b .scalar)
      (hc : HasType types c .scalar) : HasType types (.triple a b c) .vector
  | cond {test yes no : Expr} {s t u : ValueType} (htest : HasType types test .bool)
      (hyes : HasType types yes s) (hno : HasType types no t) (hu : s.join? t = some u) :
      HasType types (.cond test yes no) u

/-- The type of a tree, if it has one. -/
def type? (types : String → ValueType) : Expr → Option ValueType
  | .var _ => some .scalar
  | .number _ => some .scalar
  | .boolean _ => some .bool
  | .random => some .scalar
  | .rule name => some (types name)
  | .abs a =>
    match type? types a with
    | some .bool => none
    | s => s
  | .arith _ a b => (type? types a).bind fun s => (type? types b).bind s.join?
  | .ge a b =>
    if type? types a = some .scalar ∧ type? types b = some .scalar then some .bool else none
  | .triple a b c =>
    if type? types a = some .scalar ∧ type? types b = some .scalar
        ∧ type? types c = some .scalar then
      some .vector
    else none
  | .cond test yes no =>
    if type? types test = some .bool then
      (type? types yes).bind fun s => (type? types no).bind s.join?
    else none

section
variable {types : String → ValueType}

theorem type?_of_hasType {e : Expr} {s : ValueType} (h : e.HasType types s) :
    e.type? types = some s := by
  induction h with
  | var v => rfl
  | number v => rfl
  | boolean b => rfl
  | random => rfl
  | rule name => rfl
  | @abs a s _ hs iha =>
      cases s with
      | scalar => simp [type?, iha]
      | bool => exact absurd rfl hs
      | vector => simp [type?, iha]
  | arith op _ _ hu iha ihb => simp [type?, iha, ihb, hu]
  | ge _ _ iha ihb => simp [type?, iha, ihb]
  | triple _ _ _ iha ihb ihc => simp [type?, iha, ihb, ihc]
  | cond _ _ _ hu ihtest ihyes ihno => simp [type?, ihtest, ihyes, ihno, hu]

theorem hasType_of_type? {e : Expr} :
    ∀ {s}, e.type? types = some s → e.HasType types s := by
  induction e with
  | var v => rintro s ⟨⟩; exact .var v
  | number v => rintro s ⟨⟩; exact .number v
  | boolean b => rintro s ⟨⟩; exact .boolean b
  | random => rintro s ⟨⟩; exact .random
  | rule name => rintro s ⟨⟩; exact .rule name
  | abs a iha =>
      intro s h
      unfold type? at h
      split at h
      · cases h
      next hbool =>
        refine .abs (iha h) ?_
        rintro rfl
        exact hbool h
  | arith op a b iha ihb =>
      intro u h
      obtain ⟨s, hs, h⟩ := Option.bind_eq_some_iff.1 h
      obtain ⟨t, ht, hu⟩ := Option.bind_eq_some_iff.1 h
      exact .arith op (iha hs) (ihb ht) hu
  | ge a b iha ihb =>
      intro u h
      obtain ⟨⟨ha, hb⟩, ⟨⟩⟩ := Option.ite_none_right_eq_some.1 h
      exact .ge (iha ha) (ihb hb)
  | triple a b c iha ihb ihc =>
      intro u h
      obtain ⟨⟨ha, hb, hc⟩, ⟨⟩⟩ := Option.ite_none_right_eq_some.1 h
      exact .triple (iha ha) (ihb hb) (ihc hc)
  | cond test yes no ihtest ihyes ihno =>
      intro u h
      obtain ⟨htest, h⟩ := Option.ite_none_right_eq_some.1 h
      obtain ⟨s, hs, h⟩ := Option.bind_eq_some_iff.1 h
      obtain ⟨t, ht, hu⟩ := Option.bind_eq_some_iff.1 h
      exact .cond (ihtest htest) (ihyes hs) (ihno ht) hu

/-- **THE TYPE IS COMPUTED.** -/
theorem hasType_iff {e : Expr} {s : ValueType} :
    e.HasType types s ↔ e.type? types = some s :=
  ⟨type?_of_hasType, hasType_of_type?⟩

instance (types : String → ValueType) (e : Expr) (s : ValueType) :
    Decidable (e.HasType types s) :=
  decidable_of_iff _ hasType_iff.symm

end

end Expr

/-! ## §2. Values of operations. -/

namespace Value

/-- Operands whose types can be joined are combined to a value of that type. -/
theorem exists_zip (kind : Kind) (f : Single → Single → Single) {v w : Value} {u : ValueType}
    (h : v.type.join? w.type = some u) : ∃ r, zip kind f v w = .ok r ∧ r.type = u := by
  cases v <;> cases w <;> cases h <;> exact ⟨_, rfl, rfl⟩

/-- Weighing a value by a scalar keeps its type. -/
theorem exists_weigh (kind : Kind) (f : Single → Single → Single) (weight : Single) {v : Value}
    (h : v.type ≠ .bool) : ∃ r, zip kind f (.scalar weight) v = .ok r ∧ r.type = v.type := by
  cases v with
  | scalar v => exact ⟨_, rfl, rfl⟩
  | bool b => exact absurd rfl h
  | vector v => exact ⟨_, rfl, rfl⟩

theorem exists_abs {v : Value} (h : v.type ≠ .bool) : ∃ r, v.abs = .ok r ∧ r.type = v.type := by
  cases v with
  | scalar v => exact ⟨_, rfl, rfl⟩
  | bool b => exact absurd rfl h
  | vector v => exact ⟨_, rfl, rfl⟩

theorem eq_scalar_of_type {v : Value} (h : v.type = .scalar) : ∃ x, v = .scalar x := by
  cases v with
  | scalar x => exact ⟨x, rfl⟩
  | bool b => cases h
  | vector x => cases h

theorem eq_bool_of_type {v : Value} (h : v.type = .bool) : ∃ b, v = .bool b := by
  cases v with
  | scalar x => cases h
  | bool b => exact ⟨b, rfl⟩
  | vector x => cases h

/-- All values but truth values have a color. -/
theorem exists_color_iff {v : Value} : (∃ color, v.color = .ok color) ↔ v.type ≠ .bool := by
  cases v <;> simp [color, type]

end Value

/-! ## §3. Values of trees. -/

/-- At every viewpoint the tree has a value of the type, and a color unless that
is a truth value. -/
structure Expr.Yields (t : Expr) (s : ValueType) : Prop where
  value : ∀ p, ∃ v, t.evaluate p = .ok v ∧ v.type = s
  color : ∀ p, (∃ color, t.shade p = .ok color) ↔ s ≠ .bool

/-- **A TYPED CONCRETE TREE HAS A VALUE OF ITS TYPE EVERYWHERE.** -/
theorem Expr.HasType.exists_evaluate {types : String → ValueType} {t : Expr} {s : ValueType}
    (h : t.HasType types s) (p : Viewpoint) :
    t.isConcrete = true → ∃ v, t.evaluate p = .ok v ∧ v.type = s := by
  induction h with
  | var v => exact fun _ => ⟨_, rfl, rfl⟩
  | number v => exact fun _ => ⟨_, rfl, rfl⟩
  | boolean b => exact fun _ => ⟨_, rfl, rfl⟩
  | random =>
      intro h
      rw [isConcrete_random] at h
      cases h
  | rule name =>
      intro h
      rw [isConcrete_rule] at h
      cases h
  | abs _ hs iha =>
      intro h
      rw [isConcrete_abs] at h
      obtain ⟨v, ha, rfl⟩ := iha h
      unfold evaluate
      rw [ha]
      exact Value.exists_abs hs
  | arith op _ _ hu iha ihb =>
      intro h
      rw [isConcrete_arith, Bool.and_eq_true] at h
      obtain ⟨v, ha, rfl⟩ := iha h.1
      obtain ⟨w, hb, rfl⟩ := ihb h.2
      unfold evaluate
      rw [ha, hb]
      exact Value.exists_zip _ _ hu
  | ge _ _ iha ihb =>
      intro h
      rw [isConcrete_ge, Bool.and_eq_true] at h
      obtain ⟨v, ha, hv⟩ := iha h.1
      obtain ⟨w, hb, hw⟩ := ihb h.2
      obtain ⟨x, rfl⟩ := Value.eq_scalar_of_type hv
      obtain ⟨y, rfl⟩ := Value.eq_scalar_of_type hw
      unfold evaluate
      rw [ha, hb]
      exact ⟨_, rfl, rfl⟩
  | triple _ _ _ iha ihb ihc =>
      intro h
      rw [isConcrete_triple, Bool.and_eq_true, Bool.and_eq_true] at h
      obtain ⟨u, ha, hu⟩ := iha h.1
      obtain ⟨v, hb, hv⟩ := ihb h.2.1
      obtain ⟨w, hc, hw⟩ := ihc h.2.2
      obtain ⟨x, rfl⟩ := Value.eq_scalar_of_type hu
      obtain ⟨y, rfl⟩ := Value.eq_scalar_of_type hv
      obtain ⟨z, rfl⟩ := Value.eq_scalar_of_type hw
      unfold evaluate
      rw [ha, hb, hc]
      exact ⟨_, rfl, rfl⟩
  | @cond test yes no s t u _ _ _ hjoin ihtest ihyes ihno =>
      intro h
      have hu := ValueType.ne_bool_of_join? hjoin
      rw [isConcrete_cond, Bool.and_eq_true, Bool.and_eq_true] at h
      obtain ⟨c, htest, hc⟩ := ihtest h.1
      obtain ⟨v, hyes, rfl⟩ := ihyes h.2.1
      obtain ⟨w, hno, rfl⟩ := ihno h.2.2
      obtain ⟨b, rfl⟩ := Value.eq_bool_of_type hc
      -- weighing a side by a scalar keeps its type, so the sides can still be joined
      obtain ⟨y, hy, hyv⟩ := Value.exists_weigh .cond (· * ·) (if b then 1 else 0) hu.1
      obtain ⟨n, hn, hnw⟩ := Value.exists_weigh .cond (· * ·) (1 - if b then 1 else 0) hu.2
      unfold evaluate
      rw [htest, hyes, hno]
      show ∃ r, (Value.zip .cond (· * ·) (.scalar (if b then 1 else 0)) v >>= fun y =>
        Value.zip .cond (· * ·) (.scalar (1 - if b then 1 else 0)) w >>= fun n =>
          Value.zip .cond (· + ·) y n) = .ok r ∧ r.type = u
      rw [hy, hn]
      exact Value.exists_zip _ _ (by rw [hyv, hnw]; exact hjoin)

/-- A typed concrete tree has a color, unless it is a truth value. -/
theorem Expr.HasType.yields {types : String → ValueType} {t : Expr} {s : ValueType}
    (h : t.HasType types s) (hconcrete : t.isConcrete = true) : t.Yields s := by
  refine ⟨fun p => h.exists_evaluate p hconcrete, fun p => ?_⟩
  obtain ⟨v, heval, rfl⟩ := h.exists_evaluate p hconcrete
  unfold shade
  rw [heval]
  exact Value.exists_color_iff

end ArtGrammar
