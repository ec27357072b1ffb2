/-
  ArtGrammar.Proofs.Expr.Substitution
  ────────────────────────────────
  **THE TWO KINDS OF HOLES, FILLED ONE AFTER THE OTHER.**

  A template has references and `random` nodes.  An expansion fills both while it
  walks over the template; here each kind is filled by itself:

      substitute       a tree for each reference
      trySubstitute    the same if there is a tree for each of them, and
                       otherwise what is wrong with the first that has none
      resolve          a number for each `random` node, in pre-order
-/
import ArtGrammar.Proofs.Expr.Nodes
import Mathlib.Tactic.Choose

namespace ArtGrammar.Expr

/-! ## §1. Numbers in place of random nodes. -/

/-- Whether a node stands for a number to be drawn. -/
def isRandom : Expr → Bool
  | .random => true
  | _ => false

/-- The number of `random` nodes. -/
def randomCount (e : Expr) : Nat := e.preorder.countP isRandom

@[simp] theorem randomCount_var (v : Variable) : (var v).randomCount = 0 := rfl

@[simp] theorem randomCount_number (v : Single) : (number v).randomCount = 0 := rfl

@[simp] theorem randomCount_boolean (b : Bool) : (boolean b).randomCount = 0 := rfl

@[simp] theorem randomCount_random : random.randomCount = 1 := rfl

@[simp] theorem randomCount_rule (name : String) : (rule name).randomCount = 0 := rfl

@[simp] theorem randomCount_abs (a : Expr) : (abs a).randomCount = a.randomCount := by
  show (abs a :: a.preorder).countP isRandom = _
  rw [List.countP_cons_of_neg (by simp [isRandom])]
  rfl

@[simp] theorem randomCount_arith (op : Arith) (a b : Expr) :
    (arith op a b).randomCount = a.randomCount + b.randomCount := by
  show (arith op a b :: (a.preorder ++ b.preorder)).countP isRandom = _
  rw [List.countP_cons_of_neg (by simp [isRandom]), List.countP_append]
  rfl

@[simp] theorem randomCount_ge (a b : Expr) :
    (ge a b).randomCount = a.randomCount + b.randomCount := by
  rw [← randomCount_arith .add]
  show (_ :: _).countP isRandom = (_ :: _).countP isRandom
  rw [List.countP_cons_of_neg (by simp [isRandom]), List.countP_cons_of_neg (by simp [isRandom])]

@[simp] theorem randomCount_triple (a b c : Expr) :
    (triple a b c).randomCount = a.randomCount + (b.randomCount + c.randomCount) := by
  show (triple a b c :: (a.preorder ++ (b.preorder ++ c.preorder))).countP isRandom = _
  rw [List.countP_cons_of_neg (by simp [isRandom]), List.countP_append, List.countP_append]
  rfl

@[simp] theorem randomCount_cond (a b c : Expr) :
    (cond a b c).randomCount = a.randomCount + (b.randomCount + c.randomCount) := by
  rw [← randomCount_triple]
  show (_ :: _).countP isRandom = (_ :: _).countP isRandom
  rw [List.countP_cons_of_neg (by simp [isRandom]), List.countP_cons_of_neg (by simp [isRandom])]

/-- A number in place of each `random` node: `number k` for the first in pre-order,
`number (k + 1)` for the second, and so on. -/
def resolve (number : Nat → Single) : Expr → Nat → Expr
  | .random, k => .number (number k)
  | .abs a, k => .abs (resolve number a k)
  | .arith op a b, k => .arith op (resolve number a k) (resolve number b (k + a.randomCount))
  | .ge a b, k => .ge (resolve number a k) (resolve number b (k + a.randomCount))
  | .triple a b c, k =>
    .triple (resolve number a k) (resolve number b (k + a.randomCount))
      (resolve number c (k + a.randomCount + b.randomCount))
  | .cond a b c, k =>
    .cond (resolve number a k) (resolve number b (k + a.randomCount))
      (resolve number c (k + a.randomCount + b.randomCount))
  | .var v, _ => .var v
  | .number v, _ => .number v
  | .boolean b, _ => .boolean b
  | .rule name, _ => .rule name

/-! ## §2. Trees in place of references. -/

/-- A tree in place of each reference. -/
def substitute (f : String → Expr) : Expr → Expr
  | .rule name => f name
  | .abs a => .abs (substitute f a)
  | .arith op a b => .arith op (substitute f a) (substitute f b)
  | .ge a b => .ge (substitute f a) (substitute f b)
  | .triple a b c => .triple (substitute f a) (substitute f b) (substitute f c)
  | .cond a b c => .cond (substitute f a) (substitute f b) (substitute f c)
  | .var v => .var v
  | .number v => .number v
  | .boolean b => .boolean b
  | .random => .random

/-- A tree in place of each reference, as far as there are trees: the first
reference from the left that has none ends the substitution. -/
def trySubstitute {ε : Type} (f : String → Except ε Expr) : Expr → Except ε Expr
  | .rule name => f name
  | .abs a => do return .abs (← trySubstitute f a)
  | .arith op a b => do
    let a ← trySubstitute f a
    return .arith op a (← trySubstitute f b)
  | .ge a b => do
    let a ← trySubstitute f a
    return .ge a (← trySubstitute f b)
  | .triple a b c => do
    let a ← trySubstitute f a
    let b ← trySubstitute f b
    return .triple a b (← trySubstitute f c)
  | .cond a b c => do
    let a ← trySubstitute f a
    let b ← trySubstitute f b
    return .cond a b (← trySubstitute f c)
  | .var v => .ok (.var v)
  | .number v => .ok (.number v)
  | .boolean b => .ok (.boolean b)
  | .random => .ok .random

section
variable {ε : Type} {f : String → Except ε Expr}

/-- With trees for all references it is the substitution of these trees. -/
theorem trySubstitute_of_ok {h : String → Expr} (e : Expr) :
    (∀ name ∈ e.references, f name = .ok (h name)) →
      e.trySubstitute f = .ok (e.substitute h) := by
  induction e with
  | var v => exact fun _ => rfl
  | number v => exact fun _ => rfl
  | boolean b => exact fun _ => rfl
  | random => exact fun _ => rfl
  | rule name => exact fun hrefs => hrefs name (List.mem_singleton_self name)
  | abs a iha =>
      intro hrefs
      rw [trySubstitute, iha hrefs]
      rfl
  | arith op a b iha ihb =>
      intro hrefs
      simp only [references_arith, List.forall_mem_append] at hrefs
      rw [trySubstitute, iha hrefs.1, ihb hrefs.2]
      rfl
  | ge a b iha ihb =>
      intro hrefs
      simp only [references_ge, List.forall_mem_append] at hrefs
      rw [trySubstitute, iha hrefs.1, ihb hrefs.2]
      rfl
  | triple a b c iha ihb ihc =>
      intro hrefs
      simp only [references_triple, List.forall_mem_append] at hrefs
      rw [trySubstitute, iha hrefs.1, ihb hrefs.2.1, ihc hrefs.2.2]
      rfl
  | cond a b c iha ihb ihc =>
      intro hrefs
      simp only [references_cond, List.forall_mem_append] at hrefs
      rw [trySubstitute, iha hrefs.1, ihb hrefs.2.1, ihc hrefs.2.2]
      rfl

end

/-! ## §3. Which references decide. -/

section
variable {ε α β : Type} {f f' : String → Except ε Expr}

/-- There is an answer if there are trees for all the names, and otherwise the error
of one of them. -/
def AnswersFor (f : String → Except ε Expr) (names : List String) (x : Except ε α) : Prop :=
  ((∃ a, x = .ok a) ∧ ∀ name ∈ names, ∃ t, f name = .ok t)
    ∨ ∃ stop, x = .error stop ∧ ∃ name ∈ names, f name = .error stop

theorem answersFor_ok (a : α) : AnswersFor f [] (.ok a) := Or.inl ⟨⟨a, rfl⟩, by simp⟩

theorem AnswersFor.bind {names names' : List String} {x : Except ε α} {next : α → Except ε β}
    (hx : AnswersFor f names x) (hnext : ∀ a, AnswersFor f names' (next a)) :
    AnswersFor f (names ++ names') (x >>= next) := by
  rcases hx with ⟨⟨a, rfl⟩, hnames⟩ | ⟨stop, rfl, name, hname, hf⟩
  · rcases hnext a with ⟨hb, hnames'⟩ | ⟨stop, hb, name, hname, hf⟩
    · exact Or.inl ⟨hb, List.forall_mem_append.2 ⟨hnames, hnames'⟩⟩
    · exact Or.inr ⟨stop, hb, name, List.mem_append_right names hname, hf⟩
  · exact Or.inr ⟨stop, rfl, name, List.mem_append_left names' hname, hf⟩

theorem AnswersFor.map {names : List String} {x : Except ε α} (hx : AnswersFor f names x)
    (g : α → β) : AnswersFor f names (x >>= fun a => .ok (g a)) := by
  have h := hx.bind fun a => answersFor_ok (g a)
  rwa [List.append_nil] at h

/-- **THE REFERENCES DECIDE WHETHER THERE IS A SUBSTITUTION.** -/
theorem answersFor_trySubstitute (e : Expr) : AnswersFor f e.references (e.trySubstitute f) := by
  induction e with
  | var v => exact answersFor_ok _
  | number v => exact answersFor_ok _
  | boolean b => exact answersFor_ok _
  | random => exact answersFor_ok _
  | rule name =>
      cases hf : f name with
      | ok t => exact Or.inl ⟨⟨t, hf⟩, by simp [hf]⟩
      | error stop => exact Or.inr ⟨stop, hf, by simp [hf]⟩
  | abs a iha => exact iha.map _
  | arith op a b iha ihb =>
      rw [references_arith]
      exact iha.bind fun u => ihb.map _
  | ge a b iha ihb =>
      rw [references_ge]
      exact iha.bind fun u => ihb.map _
  | triple a b c iha ihb ihc =>
      rw [references_triple]
      exact iha.bind fun u => ihb.bind fun v => ihc.map _
  | cond test yes no iha ihb ihc =>
      rw [references_cond]
      exact iha.bind fun u => ihb.bind fun v => ihc.map _

/-- A substitution that there is has a tree for each reference. -/
theorem exists_of_trySubstitute_eq_ok {e u : Expr} (h : e.trySubstitute f = .ok u) :
    ∃ g : String → Expr, (∀ name ∈ e.references, f name = .ok (g name)) ∧ u = e.substitute g := by
  rcases answersFor_trySubstitute (f := f) e with ⟨_, hnames⟩ | ⟨stop, herror, _⟩
  · have hexists : ∀ name, ∃ t, name ∈ e.references → f name = .ok t := by
      intro name
      by_cases hname : name ∈ e.references
      · obtain ⟨t, ht⟩ := hnames name hname
        exact ⟨t, fun _ => ht⟩
      · exact ⟨default, fun h => absurd h hname⟩
    choose g hg using hexists
    rw [trySubstitute_of_ok e hg] at h
    exact ⟨g, hg, (Except.ok.inj h).symm⟩
  · rw [h] at herror
    cases herror

/-- The second outcome is the first, unless that is the given error. -/
def Extended (cut : ε) (x x' : Except ε α) : Prop := x ≠ .error cut → x' = x

theorem Extended.refl {cut : ε} (x : Except ε α) : Extended cut x x := fun _ => rfl

theorem Extended.bind {cut : ε} {x x' : Except ε α} {next next' : α → Except ε β}
    (hx : Extended cut x x') (hnext : ∀ a, Extended cut (next a) (next' a)) :
    Extended cut (x >>= next) (x' >>= next') := by
  intro hcut
  cases x with
  | error stop =>
      have hx' : x' = .error stop := hx fun h => hcut (by rw [h]; rfl)
      rw [hx']
      rfl
  | ok a =>
      have hx' : x' = .ok a := hx (by simp)
      rw [hx']
      exact hnext a hcut

/-- A substitution is extended reference by reference. -/
theorem extended_trySubstitute {cut : ε} (e : Expr) :
    (∀ name ∈ e.references, Extended cut (f name) (f' name)) →
      Extended cut (e.trySubstitute f) (e.trySubstitute f') := by
  induction e with
  | var v => exact fun _ => Extended.refl _
  | number v => exact fun _ => Extended.refl _
  | boolean b => exact fun _ => Extended.refl _
  | random => exact fun _ => Extended.refl _
  | rule name => exact fun h => h name (List.mem_singleton_self name)
  | abs a iha => exact fun h => (iha h).bind fun _ => Extended.refl _
  | arith op a b iha ihb =>
      intro h
      simp only [references_arith, List.forall_mem_append] at h
      exact (iha h.1).bind fun _ => (ihb h.2).bind fun _ => Extended.refl _
  | ge a b iha ihb =>
      intro h
      simp only [references_ge, List.forall_mem_append] at h
      exact (iha h.1).bind fun _ => (ihb h.2).bind fun _ => Extended.refl _
  | triple a b c iha ihb ihc =>
      intro h
      simp only [references_triple, List.forall_mem_append] at h
      exact (iha h.1).bind fun _ => (ihb h.2.1).bind fun _ => (ihc h.2.2).bind fun _ =>
        Extended.refl _
  | cond test yes no iha ihb ihc =>
      intro h
      simp only [references_cond, List.forall_mem_append] at h
      exact (iha h.1).bind fun _ => (ihb h.2.1).bind fun _ => (ihc h.2.2).bind fun _ =>
        Extended.refl _

end

end ArtGrammar.Expr
