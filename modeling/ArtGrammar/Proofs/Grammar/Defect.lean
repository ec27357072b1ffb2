/-
  ArtGrammar.Proofs.Grammar.Defect
  ────────────────────────────────
  **VALIDATION ACCEPTS THE GOOD GRAMMARS AND TELLS ONE WELL-DETERMINED DEFECT.**

  What is wrong is said without the functions that look for it:

      Branch.Defect    a probability that is negative or not finite, or else the
                       first reference without a rule
      Rule.Defect      no branches, the first branch with a defect, or a total
                       too far from one
      Grammar.Refused  the defect of the first rule that has one, or if none
                       has, all names from which first branches go on forever

      validate g = ok        ↔   g.Good
      validate g = error f   ↔   g.Refused f                (`validate_exact`)

  A table that keeps its rules in any other order gets the same answer: names
  are sorted before the rules are looked at, and stuck names before they are
  told.
-/
import ArtGrammar.Proofs.Grammar.Descent
import ArtGrammar.Proofs.Grammar.Total
import Mathlib.Data.List.Sort

namespace ArtGrammar

/-! ## §1. Defects of branches. -/

/-- Nothing is wrong with the branch. -/
structure Branch.Proper (isKnown : String → Bool) (b : Branch) : Prop where
  finite : b.probability.isFinite = true
  nonneg : 0 ≤ b.probability
  known : ∀ name ∈ b.template.references, isKnown name = true

/-- What is wrong with the branch at an index of a rule. -/
inductive Branch.Defect (isKnown : String → Bool) (rule : String) (index : Nat) (b : Branch) :
    Fault → Prop
  | probability (h : ¬ (b.probability.isFinite = true ∧ 0 ≤ b.probability)) :
      Defect isKnown rule index b (.grammar (.badProbability rule index b.probability))
  /-- References are met in pre-order. -/
  | reference (hfinite : b.probability.isFinite = true) (hnonneg : 0 ≤ b.probability)
      {before after : List String} {missing : String}
      (hrefs : b.template.references = before ++ missing :: after)
      (hbefore : ∀ name ∈ before, isKnown name = true) (hmissing : isKnown missing = false) :
      Defect isKnown rule index b (.unknownRule missing)

section
variable {isKnown : String → Bool}

theorem Branch.defect?_eq_some_iff {rule : String} {index : Nat} {b : Branch} {fault : Fault} :
    b.defect? isKnown rule index = some fault ↔ b.Defect isKnown rule index fault := by
  unfold Branch.defect?
  by_cases hp : b.probability.isProbability = true
  · obtain ⟨hfinite, hnonneg⟩ := Single.isProbability_iff.1 hp
    rw [if_pos hp, Option.map_eq_some_iff]
    constructor
    · rintro ⟨missing, hfind, rfl⟩
      obtain ⟨hmissing, before, after, hrefs, hbefore⟩ := List.find?_eq_some_iff_append.1 hfind
      exact .reference hfinite hnonneg hrefs (by simpa using hbefore) (by simpa using hmissing)
    · intro h
      cases h with
      | probability h => exact absurd ⟨hfinite, hnonneg⟩ h
      | @reference _ _ before after missing hrefs hbefore hmissing =>
          refine ⟨missing, List.find?_eq_some_iff_append.2 ⟨?_, before, after, hrefs, ?_⟩, rfl⟩
          · simpa using hmissing
          · simpa using hbefore
  · rw [if_neg hp]
    have hbad := fun h => hp (Single.isProbability_iff.2 h)
    constructor
    · intro h
      cases h
      exact .probability hbad
    · intro h
      cases h with
      | probability _ => rfl
      | reference hfinite hnonneg => exact absurd ⟨hfinite, hnonneg⟩ hbad

theorem Branch.proper_iff {b : Branch} :
    b.Proper isKnown ↔ b.probability.isProbability = true
      ∧ ∀ name ∈ b.template.references, isKnown name = true := by
  rw [Single.isProbability_iff]
  constructor
  · rintro ⟨hfinite, hnonneg, hknown⟩
    exact ⟨⟨hfinite, hnonneg⟩, hknown⟩
  · rintro ⟨⟨hfinite, hnonneg⟩, hknown⟩
    exact ⟨hfinite, hnonneg, hknown⟩

/-! ## §2. Defects of rules. -/

/-- What is wrong with the rule by itself: the first thing in the order emptiness,
branches from the first on, total. -/
inductive Rule.Defect (isKnown : String → Bool) (r : Rule) : Fault → Prop
  | empty (h : r.branches = []) : Defect isKnown r (.grammar (.noBranches r.name))
  | branch {before after : List Branch} {b : Branch} {fault : Fault}
      (hsplit : r.branches = before ++ b :: after)
      (hbefore : ∀ c ∈ before, c.Proper isKnown)
      (hdefect : b.Defect isKnown r.name before.length fault) : Defect isKnown r fault
  | total (hne : r.branches ≠ []) (hall : ∀ b ∈ r.branches, b.Proper isKnown)
      (h : ¬ (Branch.total r.branches - 1).abs ≤ tolerance) :
      Defect isKnown r (.grammar (.badTotal r.name (Branch.total r.branches)))

theorem Branch.forall_defect?_eq_none_iff_proper {rule : String} {branches : List Branch} :
    (∀ b ∈ branches.zipIdx, b.1.defect? isKnown rule b.2 = none)
      ↔ ∀ b ∈ branches, b.Proper isKnown := by
  rw [Branch.forall_defect?_eq_none_iff]
  exact forall₂_congr fun b _ => Branch.proper_iff.symm

/-- The first branch with a defect tells it with its index. -/
theorem Branch.findSome?_defect?_eq_some_iff {rule : String} {branches : List Branch}
    {fault : Fault} :
    (branches.zipIdx.findSome? fun b => b.1.defect? isKnown rule b.2) = some fault
      ↔ ∃ before b after, branches = before ++ b :: after ∧ (∀ c ∈ before, c.Proper isKnown)
          ∧ b.Defect isKnown rule before.length fault := by
  rw [List.findSome?_eq_some_iff]
  constructor
  · rintro ⟨l₁, ⟨b, i⟩, l₂, hsplit, hfault, hnone⟩
    obtain ⟨before, rest, rfl, rfl, hrest⟩ := List.zipIdx_eq_append_iff.1 hsplit
    obtain ⟨_, after, rfl, heq, _⟩ := List.zipIdx_eq_cons_iff.1 hrest.symm
    cases heq
    rw [Nat.zero_add] at hfault
    exact ⟨before, b, after, rfl, Branch.forall_defect?_eq_none_iff_proper.1 hnone,
      Branch.defect?_eq_some_iff.1 hfault⟩
  · rintro ⟨before, b, after, rfl, hbefore, hdefect⟩
    refine ⟨before.zipIdx, (b, before.length), after.zipIdx (before.length + 1), ?_,
      Branch.defect?_eq_some_iff.2 hdefect, Branch.forall_defect?_eq_none_iff_proper.2 hbefore⟩
    rw [List.zipIdx_append, List.zipIdx_cons, Nat.zero_add]

/-- **A RULE TELLS ITS FIRST DEFECT.** -/
theorem Rule.defect?_eq_some_iff {r : Rule} {fault : Fault} :
    r.defect? isKnown = some fault ↔ r.Defect isKnown fault := by
  unfold Rule.defect?
  by_cases hempty : r.branches.isEmpty = true
  · have hnil := List.isEmpty_iff.1 hempty
    rw [if_pos hempty]
    constructor
    · intro h
      cases h
      exact .empty hnil
    · intro h
      cases h with
      | empty _ => rfl
      | branch hsplit => simp [hnil] at hsplit
      | total hne => exact absurd hnil hne
  · have hne : r.branches ≠ [] := fun h => hempty (List.isEmpty_iff.2 h)
    rw [if_neg hempty, Option.or_eq_some_iff, Branch.findSome?_defect?_eq_some_iff,
      List.findSome?_eq_none_iff, Branch.forall_defect?_eq_none_iff_proper]
    -- the total is looked at when all branches are proper, so it is a number
    have hunit : (∀ b ∈ r.branches, b.Proper isKnown) →
        ((Branch.total r.branches).isUnitTotal = true
          ↔ (Branch.total r.branches - 1).abs ≤ tolerance) := fun hall =>
      Single.isUnitTotal_iff
        (Branch.total_ne_nan fun b hb => (Branch.proper_iff.1 (hall b hb)).1)
    constructor
    · rintro (⟨before, b, after, hsplit, hbefore, hdefect⟩ | ⟨hall, htotal⟩)
      · exact .branch hsplit hbefore hdefect
      · simp only at htotal
        split at htotal
        · cases htotal
        next hnot =>
          cases htotal
          exact .total hne hall fun h => hnot ((hunit hall).2 h)
    · intro h
      cases h with
      | empty h => exact absurd h hne
      | branch hsplit hbefore hdefect => exact .inl ⟨_, _, _, hsplit, hbefore, hdefect⟩
      | total _ hall h =>
          refine .inr ⟨hall, ?_⟩
          rw [if_neg fun h' => h ((hunit hall).1 h')]

theorem Rule.defect?_eq_none_iff_forall {r : Rule} :
    r.defect? isKnown = none ↔ ∀ fault, ¬ r.Defect isKnown fault := by
  rw [Option.eq_none_iff_forall_ne_some]
  exact forall_congr' fun fault => not_congr Rule.defect?_eq_some_iff

end

/-! ## §3. Defects of grammars. -/

namespace Grammar

/-- What a grammar is accepted for. -/
structure Good (g : Grammar) : Prop where
  nonempty : ∀ r ∈ g.rules, r.branches ≠ []
  probabilities : ∀ r ∈ g.rules, ∀ b ∈ r.branches,
    b.probability.isFinite = true ∧ 0 ≤ b.probability
  references : ∀ r ∈ g.rules, ∀ b ∈ r.branches, ∀ name ∈ b.template.references,
    ∃ s ∈ g.rules, s.name = name
  totals : ∀ r ∈ g.rules, (Branch.total r.branches - 1).abs ≤ tolerance
  grounded : ¬ ∃ descent : Nat → String, ∀ i, g.LeadsTo (descent i) (descent (i + 1))

/-- What a grammar is refused for: the first defect of the rule of smallest name
that has one, or else all names of endless descents in ascending order. -/
inductive Refused (g : Grammar) : Fault → Prop
  | rule {r : Rule} {fault : Fault} (hr : r ∈ g.rules) (hdefect : r.Defect g.contains fault)
      (hfirst : ∀ s ∈ g.rules, s.name < r.name → ∀ other, ¬ s.Defect g.contains other) :
      Refused g fault
  | endless (hrules : ∀ r ∈ g.rules, ∀ fault, ¬ r.Defect g.contains fault)
      {names : List String} (hne : names ≠ []) (hasc : names.Pairwise (· < ·))
      (hnames : ∀ name, name ∈ names ↔ g.Endless name) :
      Refused g (.grammar (.unfounded names))

variable {g : Grammar}

/-- In a grammar the rules before one are those of smaller names. -/
theorem exists_split_iff {r : Rule} {P : Rule → Prop} (hr : r ∈ g.rules) :
    (∃ before after, g.rules = before ++ r :: after ∧ ∀ s ∈ before, P s)
      ↔ ∀ s ∈ g.rules, s.name < r.name → P s := by
  constructor
  · rintro ⟨before, after, hsplit, hbefore⟩ s hs hlt
    have hasc := g.ascending
    rw [hsplit] at hs hasc
    rcases List.mem_append.1 hs with h | h
    · exact hbefore s h
    · -- `r` and the rules behind it have no smaller names
      rcases List.mem_cons.1 h with rfl | h
      · exact absurd hlt (String.lt_irrefl _)
      · have hgt := (List.pairwise_cons.1 (List.pairwise_append.1 hasc).2.1).1 s h
        exact absurd (String.lt_trans hlt hgt) (String.lt_irrefl _)
  · intro h
    obtain ⟨before, after, hsplit⟩ := List.append_of_mem hr
    refine ⟨before, after, hsplit, fun s hs => h s ?_ ?_⟩
    · rw [hsplit]
      exact List.mem_append_left _ hs
    · have hasc := g.ascending
      rw [hsplit] at hasc
      exact (List.pairwise_append.1 hasc).2.2 s hs r List.mem_cons_self

/-- Ascending names are told by which they are. -/
theorem eq_of_ascending {names names' : List String} (hasc : names.Pairwise (· < ·))
    (hasc' : names'.Pairwise (· < ·)) (h : ∀ name, name ∈ names ↔ name ∈ names') :
    names = names' := by
  have : Std.Irrefl fun a b : String => a < b := ⟨String.lt_irrefl⟩
  have : Std.Antisymm fun a b : String => a < b :=
    ⟨fun a _ hab hba => absurd (String.lt_trans hab hba) (String.lt_irrefl a)⟩
  exact hasc.eq_of_mem_iff hasc' h

theorem closed_of_forall_not_defect (h : ∀ r ∈ g.rules, ∀ fault, ¬ r.Defect g.contains fault) :
    g.Closed :=
  fun r hr => (Rule.defect?_eq_none_iff.1 (Rule.defect?_eq_none_iff_forall.2 (h r hr))).references

/-- **A GRAMMAR TELLS ITS FIRST DEFECT.** -/
theorem defect?_eq_some_iff {fault : Fault} : g.defect? = some fault ↔ g.Refused fault := by
  unfold defect?
  rw [Option.or_eq_some_iff, List.findSome?_eq_some_iff, List.findSome?_eq_none_iff]
  simp only [Rule.defect?_eq_some_iff, Rule.defect?_eq_none_iff_forall]
  constructor
  · rintro (⟨before, r, after, hsplit, hdefect, hbefore⟩ | ⟨hrules, hstuck⟩)
    · have hr : r ∈ g.rules := by
        rw [hsplit]
        exact List.mem_append_right before List.mem_cons_self
      exact .rule hr hdefect ((exists_split_iff hr).1 ⟨before, after, hsplit, hbefore⟩)
    · cases hs : g.stuck with
      | nil =>
          rw [hs] at hstuck
          cases hstuck
      | cons name names =>
          rw [hs] at hstuck
          cases hstuck
          rw [← hs]
          exact .endless hrules (by rw [hs]; exact List.cons_ne_nil _ _) g.ascending_stuck
            fun _ => (closed_of_forall_not_defect hrules).mem_stuck_iff
  · intro h
    cases h with
    | @rule r _ hr hdefect hfirst =>
        obtain ⟨before, after, hsplit, hbefore⟩ := (exists_split_iff hr).2 hfirst
        exact .inl ⟨before, r, after, hsplit, hdefect, hbefore⟩
    | @endless hrules names hne hasc hnames =>
        refine .inr ⟨hrules, ?_⟩
        have hstuck : g.stuck = names := by
          refine eq_of_ascending g.ascending_stuck hasc fun name => ?_
          rw [(closed_of_forall_not_defect hrules).mem_stuck_iff, hnames]
        rw [hstuck]
        cases names with
        | nil => exact absurd rfl hne
        | cons name names => rfl

/-- **A GRAMMAR WITHOUT A DEFECT IS GOOD.** -/
theorem defect?_eq_none_iff_good : g.defect? = none ↔ g.Good := by
  rw [defect?_eq_none_iff]
  constructor
  · rintro ⟨hsound, hstuck⟩
    refine ⟨fun r hr => (hsound r hr).nonempty, ?_, ?_, ?_, ?_⟩
    · intro r hr b hb
      exact Single.isProbability_iff.1 ((hsound r hr).probabilities b hb)
    · intro r hr b hb name hname
      simpa [contains] using (hsound r hr).references b hb name hname
    · intro r hr
      exact (Single.isUnitTotal_iff (Branch.total_ne_nan (hsound r hr).probabilities)).1
        (hsound r hr).total
    · rintro ⟨descent, hlead⟩
      have hclosed : g.Closed := fun r hr => (hsound r hr).references
      have hmem := hclosed.mem_stuck_iff.2 ⟨descent, rfl, hlead⟩
      rw [hstuck] at hmem
      cases hmem
  · intro hgood
    have hprob : ∀ r ∈ g.rules, ∀ b ∈ r.branches, b.probability.isProbability = true :=
      fun r hr b hb => Single.isProbability_iff.2 (hgood.probabilities r hr b hb)
    have hclosed : g.Closed := by
      intro r hr b hb name hname
      simpa [contains] using hgood.references r hr b hb name hname
    constructor
    · intro r hr
      exact ⟨hgood.nonempty r hr, hprob r hr, hclosed r hr,
        (Single.isUnitTotal_iff (Branch.total_ne_nan (hprob r hr))).2 (hgood.totals r hr)⟩
    · apply List.eq_nil_iff_forall_not_mem.2
      intro name hmem
      obtain ⟨descent, _, hlead⟩ := hclosed.mem_stuck_iff.1 hmem
      exact hgood.grounded ⟨descent, hlead⟩

end Grammar

/-! ## §4. A table of rules in any order. -/

/-- The first defect of a table of rules.  The names are sorted, and each rule is
looked up under its name. -/
def tableDefect? (table : List Rule) : Option Fault :=
  let isKnown := fun name => table.any fun r => r.name == name
  let names := (table.map Rule.name).mergeSort fun a b => decide (a ≤ b)
  (names.findSome? fun name =>
      (table.find? fun r => r.name == name).bind (Rule.defect? isKnown)).or <|
    match stuckNames (firstRows table) with
    | [] => none
    | stuck => some (.grammar (.unfounded stuck))

/-- Accepts the table of rules, or tells its first defect. -/
def validateTable (table : List Rule) : Except Fault Unit :=
  match tableDefect? table with
  | none => .ok ()
  | some fault => .error fault

section
variable {g : Grammar} {table : List Rule}

/-- A rule is found under its name, wherever it is kept. -/
theorem find?_of_perm (htable : table.Perm g.rules) {r : Rule} (hr : r ∈ g.rules) :
    (table.find? fun s => s.name == r.name) = some r := by
  cases hfind : table.find? fun s => s.name == r.name with
  | none => simpa using List.find?_eq_none.1 hfind r (htable.symm.subset hr)
  | some s =>
      -- the one that is found has the same name, so it is the same rule
      have hs : s ∈ g.rules := htable.subset (List.mem_of_find?_eq_some hfind)
      have hname : s.name = r.name := by simpa using List.find?_some hfind
      have hbranches : g.find? s.name = some s.branches := Grammar.find?_eq_some_iff.2 hs
      rw [hname, Grammar.find?_eq_some_iff.2 hr] at hbranches
      cases s
      cases r
      cases hname
      cases hbranches
      rfl

/-- The rules looked up under the names in order are the rules in order. -/
theorem findSome?_names (htable : table.Perm g.rules) (f : Rule → Option Fault) :
    (g.names.findSome? fun name => (table.find? fun r => r.name == name).bind f)
      = g.rules.findSome? f := by
  have hlook : ∀ r ∈ g.rules, (table.find? fun s => s.name == r.name).bind f = f r := by
    intro r hr
    rw [find?_of_perm htable hr]
    rfl
  calc (g.names.findSome? fun name => (table.find? fun r => r.name == name).bind f)
      = (g.rules.map fun r => (table.find? fun s => s.name == r.name).bind f).findSome? id := by
        unfold Grammar.names
        rw [List.findSome?_map, List.findSome?_map]
        rfl
    _ = (g.rules.map f).findSome? id := by
        rw [List.map_congr_left hlook]
    _ = g.rules.findSome? f := by
        rw [List.findSome?_map]
        rfl

/-- **THE ORDER OF THE TABLE DOES NOT MATTER.** -/
theorem tableDefect?_eq (htable : table.Perm g.rules) : tableDefect? table = g.defect? := by
  have hknown : (fun name => table.any fun r => r.name == name) = g.contains := by
    funext name
    exact htable.any_eq
  have hnames : (table.map Rule.name).mergeSort (fun a b => decide (a ≤ b)) = g.names :=
    mergeSort_eq_of_perm (htable.map Rule.name) g.ascending_names
  unfold Grammar.defect?
  rw [← findSome?_names htable, ← hnames, ← hknown, Grammar.stuck_eq_stuckNames htable]
  rfl

theorem validateTable_eq (htable : table.Perm g.rules) : validateTable table = g.validate := by
  unfold Grammar.validate
  rw [← tableDefect?_eq htable]
  rfl

/-- **VALIDATION IS EXACT.**  A table of rules, kept in any order, is accepted if it
makes up a good grammar, and refused for the one defect that the grammar is refused
for. -/
theorem Grammar.validate_exact (htable : table.Perm g.rules) :
    validateTable table = g.validate
      ∧ (g.validate = .ok () ↔ g.Good)
      ∧ ∀ fault, g.validate = .error fault ↔ g.Refused fault := by
  refine ⟨validateTable_eq htable, ?_, fun fault => ?_⟩
  · rw [validate_eq_ok_iff, defect?_eq_none_iff_good]
  · rw [validate_eq_error_iff, defect?_eq_some_iff]

/-- A grammar with many defects: `B` refers to two rules that are missing and has a
negative probability, `C` has no branches and `D` is its own first branch. -/
def wanting : Grammar :=
  Grammar.ofList
    [("A", [⟨.var .x, 1⟩]),
     ("B", [⟨.ge (.rule "A") (.abs (.rule "Q")), 1⟩, ⟨.rule "P", -1⟩]),
     ("C", []),
     ("D", [⟨.rule "D", 1⟩])]

/-- Kept in descending order, the rules are refused for the first reference of `B` that
is missing. -/
theorem Grammar.validate_exact_wanting :
    wanting.rules.reverse.Perm wanting.rules
      ∧ validateTable wanting.rules.reverse = .error (.unknownRule "Q")
      ∧ wanting.Refused (.unknownRule "Q") ∧ ¬ wanting.Good := by
  have hperm := List.reverse_perm wanting.rules
  obtain ⟨htable, hok, herror⟩ := Grammar.validate_exact hperm
  have hrefused : wanting.validate = .error (.unknownRule "Q") := by decide +kernel
  refine ⟨hperm, htable.trans hrefused, (herror _).1 hrefused, fun hgood => ?_⟩
  rw [hok.2 hgood] at hrefused
  cases hrefused

end

end ArtGrammar
