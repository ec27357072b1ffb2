/-
  ArtGrammar.Proofs.Value.Static
  ────────────────────────────────
  **WHETHER AND HOW AN EVALUATION FAILS IS WRITTEN IN THE TREE.**

  Every operation decides by the types of its operands alone whether it has a
  value, of which type, and otherwise what it fails for:

      Value.zip, Value.toScalar, Value.toTest, Value.abs       on values
      ValueType.zip, .needScalar, .needTest, .abs              on their types

  So a tree can be evaluated on types instead of values, in the same order, and
  without a viewpoint (`Expr.typeOf`).  Its outcome is that of the evaluation at
  every viewpoint, faults included.
-/
import ArtGrammar.Proofs.Value.Failure
import ArtGrammar.Proofs.Value.Typing

namespace ArtGrammar

/-! ## §1. Operations on types. -/

namespace ValueType

/-- The type of two operands combined lane by lane for a node of the given kind. -/
def zip (kind : Kind) (s t : ValueType) : Except Fault ValueType :=
  match s.join? t with
  | some u => .ok u
  | none => .error (.evaluation (.undefinedOn kind s t))

/-- Lets scalars pass as operands of a node of the given kind. -/
def needScalar (kind : Kind) : ValueType → Except Fault Unit
  | .scalar => .ok ()
  | s => .error (.evaluation (.needsScalar kind s))

/-- The type of a magnitude. -/
def abs : ValueType → Except Fault ValueType
  | .bool => .error (.evaluation .absOfBool)
  | s => .ok s

/-- Lets truth values pass as conditions. -/
def needTest : ValueType → Except Fault Unit
  | .bool => .ok ()
  | s => .error (.evaluation (.testNotBool s))

end ValueType

/-- The type of the value that a tree has, or the fault that its evaluation ends
with. -/
def Expr.typeOf : Expr → Except Fault ValueType
  | .var _ => .ok .scalar
  | .number _ => .ok .scalar
  | .boolean _ => .ok .bool
  | .abs a => do
    let s ← typeOf a
    s.abs
  | .arith op a b => do
    let s ← typeOf a
    let t ← typeOf b
    s.zip (.arith op) t
  | .ge a b => do
    let s ← typeOf a
    s.needScalar .ge
    let t ← typeOf b
    t.needScalar .ge
    return .bool
  | .triple a b c => do
    let s ← typeOf a
    s.needScalar .triple
    let t ← typeOf b
    t.needScalar .triple
    let u ← typeOf c
    u.needScalar .triple
    return .vector
  | .cond test yes no => do
    let r ← typeOf test
    r.needTest
    -- each side is first weighed by a scalar
    let s ← typeOf yes
    let s ← ValueType.zip .cond .scalar s
    let t ← typeOf no
    let t ← ValueType.zip .cond .scalar t
    s.zip .cond t
  | .random => .error (.notRuntime .random)
  | .rule _ => .error (.notRuntime .rule)

/-! ## §2. Values decide by their types. -/

/-- A sequence shows what its parts show, if the second part depends on no more of
the first than that shows. -/
theorem map_bind_congr {α β σ τ : Type} {f : α → σ} {g : β → τ} {x : Except Fault α}
    {y : Except Fault σ} {next : α → Except Fault β} {next' : σ → Except Fault τ}
    (hx : x.map f = y) (hnext : ∀ a, (next a).map g = next' (f a)) :
    (x >>= next).map g = y >>= next' := by
  subst hx
  cases x with
  | error fault => rfl
  | ok a => exact hnext a

namespace Value

theorem map_type_zip (kind : Kind) (f : Single → Single → Single) (v w : Value) :
    (zip kind f v w).map type = v.type.zip kind w.type := by
  cases v <;> cases w <;> rfl

theorem map_type_abs (v : Value) : v.abs.map type = v.type.abs := by
  cases v <;> rfl

theorem map_toScalar (kind : Kind) (v : Value) :
    (v.toScalar kind).map (fun _ => ()) = v.type.needScalar kind := by
  cases v <;> rfl

theorem map_toTest (v : Value) : v.toTest.map (fun _ => ()) = v.type.needTest := by
  cases v <;> rfl

end Value

/-! ## §3. Trees. -/

namespace Expr

/-- **THE OUTCOME OF AN EVALUATION, VALUES APART, IS THAT ON TYPES.** -/
theorem map_type_evaluate (p : Viewpoint) (e : Expr) : (e.evaluate p).map Value.type = e.typeOf := by
  induction e with
  | var v => rfl
  | number v => rfl
  | boolean b => rfl
  | random => rfl
  | rule name => rfl
  | abs a iha => exact map_bind_congr iha Value.map_type_abs
  | arith op a b iha ihb =>
      apply map_bind_congr iha
      intro v
      exact map_bind_congr ihb fun w => Value.map_type_zip _ _ v w
  -- a value that is only checked shows nothing of itself
  | ge a b iha ihb =>
      apply map_bind_congr iha
      intro v
      apply map_bind_congr (Value.map_toScalar .ge v)
      intro x
      apply map_bind_congr ihb
      intro w
      exact map_bind_congr (Value.map_toScalar .ge w) fun y => rfl
  | triple a b c iha ihb ihc =>
      apply map_bind_congr iha
      intro u
      apply map_bind_congr (Value.map_toScalar .triple u)
      intro x
      apply map_bind_congr ihb
      intro v
      apply map_bind_congr (Value.map_toScalar .triple v)
      intro y
      apply map_bind_congr ihc
      intro w
      exact map_bind_congr (Value.map_toScalar .triple w) fun z => rfl
  | cond test yes no ihtest ihyes ihno =>
      apply map_bind_congr ihtest
      intro r
      apply map_bind_congr (Value.map_toTest r)
      intro b
      apply map_bind_congr ihyes
      intro v
      -- the weight is a scalar, whichever it is
      apply map_bind_congr (Value.map_type_zip .cond _ (.scalar _) v)
      intro y
      apply map_bind_congr ihno
      intro w
      apply map_bind_congr (Value.map_type_zip .cond _ (.scalar _) w)
      intro n
      exact Value.map_type_zip .cond _ y n

theorem typeOf_eq_ok_of_evaluate {p : Viewpoint} {e : Expr} {v : Value}
    (h : e.evaluate p = .ok v) : e.typeOf = .ok v.type := by
  rw [← map_type_evaluate p, h]
  rfl

/-- A type that is found is found of a value at every viewpoint. -/
theorem exists_evaluate_of_typeOf {e : Expr} {s : ValueType} (h : e.typeOf = .ok s)
    (p : Viewpoint) : ∃ v, e.evaluate p = .ok v ∧ v.type = s := by
  rw [← map_type_evaluate p] at h
  cases hv : e.evaluate p with
  | error fault =>
      rw [hv] at h
      cases h
  | ok v =>
      rw [hv] at h
      exact ⟨v, rfl, Except.ok.inj h⟩

/-- A fault that is found is the fault at every viewpoint. -/
theorem evaluate_of_typeOf_eq_error {e : Expr} {fault : Fault} (h : e.typeOf = .error fault)
    (p : Viewpoint) : e.evaluate p = .error fault := by
  rw [← map_type_evaluate p] at h
  cases hv : e.evaluate p with
  | error cause =>
      rw [hv] at h
      exact congrArg Except.error (Except.error.inj h)
  | ok v =>
      rw [hv] at h
      cases h

end Expr

/-! ## §4. The trees that have a type. -/

namespace ValueType

theorem join?_of_zip {kind : Kind} {s t u : ValueType} (h : s.zip kind t = .ok u) :
    s.join? t = some u := by
  unfold zip at h
  split at h
  next v hv =>
    rw [hv, Except.ok.inj h]
  · cases h

/-- A scalar weight leaves a type as it is. -/
theorem eq_of_zip_scalar {kind : Kind} {s t : ValueType} (h : zip kind .scalar s = .ok t) :
    t = s := by
  have hjoin := join?_of_zip h
  cases s <;> cases hjoin <;> rfl

theorem eq_scalar_of_needScalar {kind : Kind} {s : ValueType} {u : Unit}
    (h : s.needScalar kind = .ok u) : s = .scalar := by
  cases s with
  | scalar => rfl
  | bool => cases h
  | vector => cases h

theorem eq_bool_of_needTest {s : ValueType} {u : Unit} (h : s.needTest = .ok u) : s = .bool := by
  cases s with
  | scalar => cases h
  | bool => rfl
  | vector => cases h

theorem of_abs_eq_ok {s t : ValueType} (h : s.abs = .ok t) : t = s ∧ s ≠ .bool := by
  cases s <;> cases h <;> exact ⟨rfl, nofun⟩

end ValueType

namespace Expr

/-- A tree that has a type is concrete, and the typing rules give it that type. -/
theorem hasType_of_typeOf (types : String → ValueType) (e : Expr) :
    ∀ {s}, e.typeOf = .ok s → e.isConcrete = true ∧ e.HasType types s := by
  -- each check that is passed leaves one type for its operand, the one the rule asks for
  induction e with
  | var v =>
      rintro s ⟨⟩
      exact ⟨rfl, .var v⟩
  | number v =>
      rintro s ⟨⟩
      exact ⟨rfl, .number v⟩
  | boolean b =>
      rintro s ⟨⟩
      exact ⟨rfl, .boolean b⟩
  | random => exact fun h => nomatch h
  | rule name => exact fun h => nomatch h
  | abs a iha =>
      intro s h
      obtain ⟨r, ha, hr⟩ := bind_eq_ok.1 h
      obtain ⟨rfl, hbool⟩ := ValueType.of_abs_eq_ok hr
      exact ⟨(iha ha).1, .abs (iha ha).2 hbool⟩
  | arith op a b iha ihb =>
      intro u h
      obtain ⟨s, ha, h⟩ := bind_eq_ok.1 h
      obtain ⟨t, hb, hu⟩ := bind_eq_ok.1 h
      refine ⟨?_, .arith op (iha ha).2 (ihb hb).2 (ValueType.join?_of_zip hu)⟩
      rw [isConcrete_arith, (iha ha).1, (ihb hb).1]
      rfl
  | ge a b iha ihb =>
      intro u h
      obtain ⟨s, ha, h⟩ := bind_eq_ok.1 h
      obtain ⟨_, hs, h⟩ := bind_eq_ok.1 h
      obtain ⟨t, hb, h⟩ := bind_eq_ok.1 h
      obtain ⟨_, ht, ⟨⟩⟩ := bind_eq_ok.1 h
      obtain rfl := ValueType.eq_scalar_of_needScalar hs
      obtain rfl := ValueType.eq_scalar_of_needScalar ht
      refine ⟨?_, .ge (iha ha).2 (ihb hb).2⟩
      rw [isConcrete_ge, (iha ha).1, (ihb hb).1]
      rfl
  | triple a b c iha ihb ihc =>
      intro u h
      obtain ⟨r, ha, h⟩ := bind_eq_ok.1 h
      obtain ⟨_, hr, h⟩ := bind_eq_ok.1 h
      obtain ⟨s, hb, h⟩ := bind_eq_ok.1 h
      obtain ⟨_, hs, h⟩ := bind_eq_ok.1 h
      obtain ⟨t, hc, h⟩ := bind_eq_ok.1 h
      obtain ⟨_, ht, ⟨⟩⟩ := bind_eq_ok.1 h
      obtain rfl := ValueType.eq_scalar_of_needScalar hr
      obtain rfl := ValueType.eq_scalar_of_needScalar hs
      obtain rfl := ValueType.eq_scalar_of_needScalar ht
      refine ⟨?_, .triple (iha ha).2 (ihb hb).2 (ihc hc).2⟩
      rw [isConcrete_triple, (iha ha).1, (ihb hb).1, (ihc hc).1]
      rfl
  | cond test yes no ihtest ihyes ihno =>
      intro u h
      obtain ⟨r, htest, h⟩ := bind_eq_ok.1 h
      obtain ⟨_, hr, h⟩ := bind_eq_ok.1 h
      obtain ⟨s, hyes, h⟩ := bind_eq_ok.1 h
      obtain ⟨s', hs, h⟩ := bind_eq_ok.1 h
      obtain ⟨t, hno, h⟩ := bind_eq_ok.1 h
      obtain ⟨t', ht, hu⟩ := bind_eq_ok.1 h
      obtain rfl := ValueType.eq_bool_of_needTest hr
      obtain rfl := ValueType.eq_of_zip_scalar hs
      obtain rfl := ValueType.eq_of_zip_scalar ht
      refine ⟨?_, .cond (ihtest htest).2 (ihyes hyes).2 (ihno hno).2 (ValueType.join?_of_zip hu)⟩
      rw [isConcrete_cond, (ihtest htest).1, (ihyes hyes).1, (ihno hno).1]
      rfl

/-- **THE TREES THAT HAVE A TYPE ARE THE CONCRETE ONES THAT THE TYPING RULES GIVE ONE.** -/
theorem typeOf_eq_ok_iff (types : String → ValueType) {e : Expr} {s : ValueType} :
    e.typeOf = .ok s ↔ e.isConcrete = true ∧ e.HasType types s := by
  constructor
  · exact e.hasType_of_typeOf types
  · rintro ⟨hconcrete, htype⟩
    -- any viewpoint will do, as none is looked at for the type
    obtain ⟨v, hv, rfl⟩ := htype.exists_evaluate {} hconcrete
    exact typeOf_eq_ok_of_evaluate hv

/-! ## §5. Every viewpoint. -/

/-- **WHETHER AND HOW AN EVALUATION FAILS IS A PROPERTY OF THE TREE.**  At every
viewpoint a tree has a value of its type, or its evaluation ends with its fault.
It has a type exactly if it is concrete and the typing rules give it one.  So a tree
that has a value somewhere is concrete, and has a value of the same type everywhere,
and one that fails somewhere fails everywhere in the same way. -/
theorem evaluate_decided_by_tree (e : Expr) :
    (∀ p s, e.typeOf = .ok s → ∃ v, e.evaluate p = .ok v ∧ v.type = s)
      ∧ (∀ p fault, e.typeOf = .error fault → e.evaluate p = .error fault)
      ∧ (∀ types s, e.typeOf = .ok s ↔ e.isConcrete = true ∧ e.HasType types s)
      ∧ (∀ p v, e.evaluate p = .ok v →
          e.isConcrete = true ∧ ∀ q, ∃ w, e.evaluate q = .ok w ∧ w.type = v.type)
      ∧ ∀ p fault, e.evaluate p = .error fault → ∀ q, e.evaluate q = .error fault := by
  refine ⟨fun p s h => exists_evaluate_of_typeOf h p,
    fun p fault h => evaluate_of_typeOf_eq_error h p, fun types s => typeOf_eq_ok_iff types,
    fun p v h => ?_, fun p fault h q => ?_⟩
  · have htype := typeOf_eq_ok_of_evaluate h
    have hconcrete := (hasType_of_typeOf (fun _ => .scalar) e htype).1
    exact ⟨hconcrete, fun q => exists_evaluate_of_typeOf htype q⟩
  · apply evaluate_of_typeOf_eq_error
    rw [← map_type_evaluate p, h]
    rfl

/-- A sum of two faulty sides: on the left a comparison with a vector, on the right a
reference. -/
def mismatched : Expr := .arith .add (.ge (.var .x) gradient) (.rule "E")

/-- Wherever the sum is evaluated, its left side fails first.  The switching tree has
a vector for a value where its remainders have none, and so it has one everywhere. -/
theorem evaluate_decided_by_tree_mismatched :
    mismatched.typeOf = .error (.evaluation (.needsScalar .ge .vector))
      ∧ (∀ p, mismatched.evaluate p = .error (.evaluation (.needsScalar .ge .vector)))
      ∧ cool.evaluate {} = .ok (.vector (Lanes.splat .nan))
      ∧ cool.isConcrete = true
      ∧ ∀ q, ∃ v, cool.evaluate q = .ok v ∧ v.type = .vector := by
  have hcool : cool.evaluate {} = .ok (.vector (Lanes.splat .nan)) := by rfl
  obtain ⟨hconcrete, heverywhere⟩ := (evaluate_decided_by_tree cool).2.2.2.1 {} _ hcool
  exact ⟨rfl, fun p => (evaluate_decided_by_tree mismatched).2.1 p _ rfl, hcool, hconcrete,
    heverywhere⟩

end Expr

end ArtGrammar
