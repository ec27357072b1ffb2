/-
  ArtGrammar.Grammar.Basic
  ────────────────────────────────
  **GRAMMARS: NAMED RULES OF WEIGHTED TEMPLATES.**

  A rule has a name and an ordered list of branches; branch 0 is the one taken
  when the depth budget is spent.  A grammar has at most one rule of each name.
  It keeps its rules in ascending order of their names, so that two grammars
  with the same rules are the same grammar, in whatever order they were built:

      find? (insert g r) n   =   some r.branches   if n = r.name
                             =   find? g n         otherwise
-/
import ArtGrammar.Expr.Basic

namespace ArtGrammar

/-! ## §1. Branches. -/

/-- One alternative of a rule. -/
structure Branch where
  /-- The template that is expanded when the branch is picked. -/
  template : Expr
  /-- The share of rolls that pick the branch. -/
  probability : Single
  deriving DecidableEq, Repr

namespace Branch

/-- Branches of equal probability, one for each template. -/
def uniform (templates : List Expr) : List Branch :=
  let share : Single := 1 / Single.ofNat (max templates.length 1)
  templates.map fun e => ⟨e, share⟩

/-- Branches with the given probabilities. -/
def weighted (pairs : List (Expr × Single)) : List Branch :=
  pairs.map fun p => ⟨p.1, p.2⟩

/-- The probabilities added up from the first to the last, beginning at
negative zero, which is what a rule without branches has in total. -/
def total (branches : List Branch) : Single :=
  branches.foldl (fun sum b => sum + b.probability) (Single.zero true)

/-- Numeric equality of templates and probabilities. -/
def numEq (a b : Branch) : Bool :=
  a.template.numEq b.template && a.probability.numEq b.probability

end Branch

/-! ## §2. Rules in the order of their names. -/

/-- A named list of branches. -/
structure Rule where
  name : String
  branches : List Branch
  deriving DecidableEq, Repr

/-- The rule put in its place among rules in ascending order, instead of the
one of the same name if there is one. -/
def Rule.insertInto (r : Rule) : List Rule → List Rule
  | [] => [r]
  | s :: rest =>
    if r.name < s.name then r :: s :: rest
    else if r.name = s.name then r :: rest
    else s :: r.insertInto rest

/-- An inserted rule is the only addition. -/
theorem Rule.mem_insertInto {r t : Rule} {rules : List Rule} (h : t ∈ r.insertInto rules) :
    t = r ∨ t ∈ rules := by
  induction rules with
  | nil => simpa [insertInto] using h
  | cons s rest ih =>
    rw [insertInto] at h
    split at h
    · simpa using h
    · split at h
      · rcases List.mem_cons.1 h with h | h
        · exact .inl h
        · exact .inr (List.mem_cons_of_mem _ h)
      · rcases List.mem_cons.1 h with h | h
        · exact .inr (h ▸ List.mem_cons_self)
        · exact (ih h).imp id (List.mem_cons_of_mem _)

/-- Insertion keeps the order of names. -/
theorem Rule.pairwise_insertInto {r : Rule} {rules : List Rule}
    (h : rules.Pairwise fun a b => a.name < b.name) :
    (r.insertInto rules).Pairwise fun a b => a.name < b.name := by
  induction rules with
  | nil => simp [insertInto]
  | cons s rest ih =>
    obtain ⟨hs, hrest⟩ := List.pairwise_cons.1 h
    rw [insertInto]
    split
    · rename_i hlt
      refine List.pairwise_cons.2 ⟨fun t ht => ?_, h⟩
      rcases List.mem_cons.1 ht with rfl | ht
      · exact hlt
      · exact String.lt_trans hlt (hs t ht)
    · rename_i hlt
      split
      · rename_i heq
        exact List.pairwise_cons.2 ⟨fun t ht => heq ▸ hs t ht, hrest⟩
      · rename_i hne
        refine List.pairwise_cons.2 ⟨fun t ht => ?_, ih hrest⟩
        rcases mem_insertInto ht with rfl | ht
        · exact Decidable.by_contra fun h' =>
            hne (String.le_antisymm (String.not_lt.1 h') (String.not_lt.1 hlt))
        · exact hs t ht

/-! ## §3. Grammars. -/

/-- Rules in strictly ascending order of their names. -/
structure Grammar where
  rules : List Rule
  ascending : rules.Pairwise fun a b => a.name < b.name
  deriving DecidableEq, Repr

namespace Grammar

/-- The grammar without rules. -/
def empty : Grammar := ⟨[], .nil⟩

/-- Adds a rule, or replaces the one of its name. -/
def insert (g : Grammar) (name : String) (branches : List Branch) : Grammar :=
  ⟨Rule.insertInto ⟨name, branches⟩ g.rules, Rule.pairwise_insertInto g.ascending⟩

/-- The grammar of a list of rules; of several with one name the last counts. -/
def ofList (rules : List (String × List Branch)) : Grammar :=
  rules.foldl (fun g r => g.insert r.1 r.2) empty

/-- The branches of the rule of the given name. -/
def find? (g : Grammar) (name : String) : Option (List Branch) :=
  (g.rules.find? fun r => r.name == name).map Rule.branches

/-- Whether there is a rule of the given name. -/
def contains (g : Grammar) (name : String) : Bool := g.rules.any fun r => r.name == name

/-- The number of rules. -/
def size (g : Grammar) : Nat := g.rules.length

/-- The names of the rules, in ascending order. -/
def names (g : Grammar) : List String := g.rules.map Rule.name

/-- Numeric equality: the same names, and branches that are numerically equal
one by one. -/
def numEq (g h : Grammar) : Bool :=
  g.names == h.names && (g.rules.zip h.rules).all fun p =>
    p.1.branches.length == p.2.branches.length
      && (p.1.branches.zip p.2.branches).all fun q => q.1.numEq q.2

end Grammar

end ArtGrammar
