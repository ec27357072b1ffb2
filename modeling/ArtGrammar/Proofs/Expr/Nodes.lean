/-
  ArtGrammar.Proofs.Expr.Nodes
  ────────────────────────────────
  **QUESTIONS TO THE LIST OF NODES, ANSWERED CHILD BY CHILD.**

  References, concreteness and the finiteness of literals are read off the nodes
  in pre-order; a tree has those of its children, and a leaf has its own.
-/
import ArtGrammar.Expr.Basic

namespace ArtGrammar.Expr

/-- A node stands before the nodes of its children, child by child. -/
theorem preorder_eq_cons (e : Expr) : e.preorder = e :: e.children.flatMap preorder := by
  cases e <;> simp [preorder, children]

/-! ## §1. References. -/

@[simp] theorem references_var (v : Variable) : (var v).references = [] := rfl

@[simp] theorem references_number (v : Single) : (number v).references = [] := rfl

@[simp] theorem references_boolean (b : Bool) : (boolean b).references = [] := rfl

@[simp] theorem references_random : random.references = [] := rfl

@[simp] theorem references_abs (a : Expr) : (abs a).references = a.references := rfl

@[simp] theorem references_arith (op : Arith) (a b : Expr) :
    (arith op a b).references = a.references ++ b.references := by
  show (a.preorder ++ b.preorder).filterMap reference? = _
  rw [List.filterMap_append]
  rfl

@[simp] theorem references_ge (a b : Expr) :
    (ge a b).references = a.references ++ b.references :=
  references_arith .add a b

@[simp] theorem references_triple (a b c : Expr) :
    (triple a b c).references = a.references ++ (b.references ++ c.references) := by
  show (a.preorder ++ (b.preorder ++ c.preorder)).filterMap reference? = _
  rw [List.filterMap_append, List.filterMap_append]
  rfl

@[simp] theorem references_cond (a b c : Expr) :
    (cond a b c).references = a.references ++ (b.references ++ c.references) :=
  references_triple a b c

@[simp] theorem references_rule (name : String) : (rule name).references = [name] := rfl

/-! ## §2. Concreteness. -/

@[simp] theorem isConcrete_var (v : Variable) : (var v).isConcrete = true := rfl

@[simp] theorem isConcrete_number (v : Single) : (number v).isConcrete = true := rfl

@[simp] theorem isConcrete_boolean (b : Bool) : (boolean b).isConcrete = true := rfl

@[simp] theorem isConcrete_random : random.isConcrete = false := rfl

@[simp] theorem isConcrete_rule (name : String) : (rule name).isConcrete = false := rfl

@[simp] theorem isConcrete_abs (a : Expr) : (abs a).isConcrete = a.isConcrete := rfl

@[simp] theorem isConcrete_arith (op : Arith) (a b : Expr) :
    (arith op a b).isConcrete = (a.isConcrete && b.isConcrete) := by
  show (a.preorder ++ b.preorder).all _ = _
  rw [List.all_append]
  rfl

@[simp] theorem isConcrete_ge (a b : Expr) :
    (ge a b).isConcrete = (a.isConcrete && b.isConcrete) :=
  isConcrete_arith .add a b

@[simp] theorem isConcrete_triple (a b c : Expr) :
    (triple a b c).isConcrete = (a.isConcrete && (b.isConcrete && c.isConcrete)) := by
  show (a.preorder ++ (b.preorder ++ c.preorder)).all _ = _
  rw [List.all_append, List.all_append]
  rfl

@[simp] theorem isConcrete_cond (a b c : Expr) :
    (cond a b c).isConcrete = (a.isConcrete && (b.isConcrete && c.isConcrete)) :=
  isConcrete_triple a b c

/-! ## §3. Literals. -/

/-- Whether a node is no literal, or a finite one. -/
def isFiniteLiteral : Expr → Bool
  | .number v => v.isFinite
  | _ => true

/-- Whether all literals of the tree are finite. -/
def hasFiniteLiterals (e : Expr) : Bool := e.preorder.all isFiniteLiteral

@[simp] theorem hasFiniteLiterals_number (v : Single) :
    (number v).hasFiniteLiterals = v.isFinite :=
  Bool.and_true v.isFinite

@[simp] theorem hasFiniteLiterals_abs (a : Expr) :
    (abs a).hasFiniteLiterals = a.hasFiniteLiterals := rfl

@[simp] theorem hasFiniteLiterals_arith (op : Arith) (a b : Expr) :
    (arith op a b).hasFiniteLiterals = (a.hasFiniteLiterals && b.hasFiniteLiterals) := by
  show (a.preorder ++ b.preorder).all _ = _
  rw [List.all_append]
  rfl

@[simp] theorem hasFiniteLiterals_ge (a b : Expr) :
    (ge a b).hasFiniteLiterals = (a.hasFiniteLiterals && b.hasFiniteLiterals) :=
  hasFiniteLiterals_arith .add a b

@[simp] theorem hasFiniteLiterals_triple (a b c : Expr) :
    (triple a b c).hasFiniteLiterals
      = (a.hasFiniteLiterals && (b.hasFiniteLiterals && c.hasFiniteLiterals)) := by
  show (a.preorder ++ (b.preorder ++ c.preorder)).all _ = _
  rw [List.all_append, List.all_append]
  rfl

@[simp] theorem hasFiniteLiterals_cond (a b c : Expr) :
    (cond a b c).hasFiniteLiterals
      = (a.hasFiniteLiterals && (b.hasFiniteLiterals && c.hasFiniteLiterals)) :=
  hasFiniteLiterals_triple a b c

end ArtGrammar.Expr
