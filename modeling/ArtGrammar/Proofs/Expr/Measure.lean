/-
  ArtGrammar.Proofs.Expr.Measure
  ────────────────────────────────
  **HOW MANY NODES A TREE OF A HEIGHT CAN HAVE.**

  A node has three children at most, so the nodes of a tree of height `h` are no
  more than those of the full ternary tree:

      1 + 3 + ⋯ + 3 ^ (h - 1)   =   (3 ^ h - 1) / 2
-/
import ArtGrammar.Expr.Basic
import Mathlib.Algebra.Group.Nat.Defs

namespace ArtGrammar.Expr

/-! ## §1. Node counts of children. -/

@[simp] theorem nodeCount_abs (a : Expr) : (abs a).nodeCount = a.nodeCount + 1 := rfl

@[simp] theorem nodeCount_arith (op : Arith) (a b : Expr) :
    (arith op a b).nodeCount = a.nodeCount + b.nodeCount + 1 := by
  show (a.preorder ++ b.preorder).length + 1 = _
  rw [List.length_append]
  rfl

@[simp] theorem nodeCount_ge (a b : Expr) :
    (ge a b).nodeCount = a.nodeCount + b.nodeCount + 1 :=
  nodeCount_arith .add a b

@[simp] theorem nodeCount_triple (a b c : Expr) :
    (triple a b c).nodeCount = a.nodeCount + (b.nodeCount + c.nodeCount) + 1 := by
  show (a.preorder ++ (b.preorder ++ c.preorder)).length + 1 = _
  rw [List.length_append, List.length_append]
  rfl

@[simp] theorem nodeCount_cond (a b c : Expr) :
    (cond a b c).nodeCount = a.nodeCount + (b.nodeCount + c.nodeCount) + 1 :=
  nodeCount_triple a b c

/-! ## §2. Heights. -/

theorem height_pos (e : Expr) : 0 < e.height := by
  cases e <;> simp only [height] <;> omega

/-- One level more has room for three trees of the levels below. -/
theorem three_lt_pow {a b c h j k : Nat} (ha : 2 * a < 3 ^ h) (hb : 2 * b < 3 ^ j)
    (hc : 2 * c < 3 ^ k) : 2 * (a + (b + c) + 1) < 3 ^ (1 + max h (max j k)) := by
  have hh : 3 ^ h ≤ 3 ^ max h (max j k) := Nat.pow_le_pow_right (by decide) (by omega)
  have hj : 3 ^ j ≤ 3 ^ max h (max j k) := Nat.pow_le_pow_right (by decide) (by omega)
  have hk : 3 ^ k ≤ 3 ^ max h (max j k) := Nat.pow_le_pow_right (by decide) (by omega)
  rw [Nat.pow_add]
  omega

theorem two_lt_pow {a b h j : Nat} (ha : 2 * a < 3 ^ h) (hb : 2 * b < 3 ^ j) :
    2 * (a + b + 1) < 3 ^ (1 + max h j) := by
  have h3 := three_lt_pow (c := 0) (k := 0) ha hb (by decide)
  rwa [Nat.max_zero, Nat.add_zero] at h3

/-- **THE NODES OF A TREE FIT INTO A FULL TERNARY TREE.** -/
theorem two_mul_nodeCount_lt (e : Expr) : 2 * e.nodeCount < 3 ^ e.height := by
  have hleaf : 2 * 1 < 3 ^ 1 := by decide
  induction e with
  | var v => exact hleaf
  | number v => exact hleaf
  | boolean b => exact hleaf
  | random => exact hleaf
  | rule name => exact hleaf
  | abs a iha =>
      rw [nodeCount_abs, height, Nat.pow_add]
      omega
  | arith op a b iha ihb =>
      rw [nodeCount_arith, height]
      exact two_lt_pow iha ihb
  | ge a b iha ihb =>
      rw [nodeCount_ge, height]
      exact two_lt_pow iha ihb
  | triple a b c iha ihb ihc =>
      rw [nodeCount_triple, height]
      exact three_lt_pow iha ihb ihc
  | cond test yes no iha ihb ihc =>
      rw [nodeCount_cond, height]
      exact three_lt_pow iha ihb ihc

theorem nodeCount_le (e : Expr) : e.nodeCount ≤ (3 ^ e.height - 1) / 2 := by
  have h := e.two_mul_nodeCount_lt
  omega

end ArtGrammar.Expr
