/-
  ArtGrammar.Grammar.Validity
  ────────────────────────────────
  **WHEN A GRAMMAR CAN BE TRUSTED.**

  Expansion trusts its grammar.  `Grammar.validate` accepts a grammar when

      every rule has a branch,
      every probability is finite and not negative,
      every reference names a rule,
      the probabilities of each rule add up to 1 within `tolerance`, and
      following references of first branches comes to an end everywhere,

  and otherwise tells the first defect: rules in the order of their names, in a
  rule the branches in order and the total last, and the first branches when no
  single rule is to blame.
-/
import ArtGrammar.Fault
import ArtGrammar.Grammar.Basic

namespace ArtGrammar

/-- The largest accepted distance between a total of probabilities and one. -/
def tolerance : Single := Single.ofRatio false 1 10000

/-! ## §1. Defects of one rule. -/

/-- Whether a probability is finite and not negative. -/
def Single.isProbability (p : Single) : Bool := p.isFinite && !decide (p < 0)

/-- What is wrong with the branch at `index` of a rule: its probability, or
else the first reference to a rule that is not known. -/
def Branch.defect? (isKnown : String → Bool) (rule : String) (b : Branch) (index : Nat) :
    Option Fault :=
  if b.probability.isProbability then
    (b.template.references.find? fun name => !isKnown name).map .unknownRule
  else
    some (.grammar (.badProbability rule index b.probability))

/-- Whether a total of probabilities is one, within the tolerance. -/
def Single.isUnitTotal (total : Single) : Bool := !decide (tolerance < (total - 1).abs)

/-- What is wrong with a rule by itself. -/
def Rule.defect? (isKnown : String → Bool) (r : Rule) : Option Fault :=
  if r.branches.isEmpty then some (.grammar (.noBranches r.name))
  else
    (r.branches.zipIdx.findSome? fun b => b.1.defect? isKnown r.name b.2).or <|
      let total := Branch.total r.branches
      if total.isUnitTotal then none else some (.grammar (.badTotal r.name total))

/-! ## §2. First branches. -/

/-- The references in the first branch of a rule. -/
def Rule.firstReferences (r : Rule) : List String :=
  match r.branches with
  | [] => []
  | b :: _ => b.template.references

/-- One pass over names with their references: a name joins the grounded ones
when all its references have. -/
def groundPass (rows : List (String × List String)) (grounded : List String) : List String :=
  rows.foldl
    (fun done row =>
      if !done.contains row.1 && row.2.all done.contains then row.1 :: done else done)
    grounded

/-- At most `n` passes, ending early after one that adds nothing. -/
def groundWithin (rows : List (String × List String)) : Nat → List String → List String
  | 0, done => done
  | n + 1, done =>
    let next := groundPass rows done
    if next.length = done.length then done else groundWithin rows n next

/-- The names from which references do not always come to an end, in ascending
order.  Each pass but the last grounds one more name, so as many passes as
there are names suffice. -/
def stuckNames (rows : List (String × List String)) : List String :=
  let grounded := groundWithin rows rows.length []
  ((rows.map (·.1)).filter fun name => !grounded.contains name).mergeSort
    fun a b => decide (a ≤ b)

namespace Grammar

/-- The rules whose first branches never come to an end. -/
def stuck (g : Grammar) : List String :=
  stuckNames (g.rules.map fun r => (r.name, r.firstReferences))

/-! ## §3. Validation. -/

/-- The first defect of the grammar. -/
def defect? (g : Grammar) : Option Fault :=
  (g.rules.findSome? (Rule.defect? g.contains)).or <|
    match g.stuck with
    | [] => none
    | names => some (.grammar (.unfounded names))

/-- Accepts the grammar, or tells its first defect. -/
def validate (g : Grammar) : Except Fault Unit :=
  match g.defect? with
  | none => .ok ()
  | some fault => .error fault

/-- Accepts the grammar if it also has the given start rule. -/
def validateFrom (g : Grammar) (start : String) : Except Fault Unit :=
  if g.contains start then g.validate else .error (.unknownRule start)

end Grammar

end ArtGrammar
