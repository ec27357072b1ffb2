/-
  ArtGrammar.Proofs.Grammar.History
  ────────────────────────────────
  **A GRAMMAR IS WHAT WAS LAST ADDED UNDER EACH NAME.**

  A history lists additions, the first one first.  All that it leaves behind is the last
  addition of each name:

      find? (ofList history) name        =   lastAdded? history name
      ofList history = ofList history'   ↔   the last additions are the same

  The same additions can be kept in a table of rules that is in any order, and in another
  one after each addition (`Filled`).  The order of a table does not show in any answer
  (`Serves`): names are sorted, rules are looked up, and which names the passes over a table
  ground does not depend on what comes first.
-/
import ArtGrammar.Proofs.Grammar.Assembly
import ArtGrammar.Proofs.Grammar.Defect
import ArtGrammar.Synthesis.Expansion
import Mathlib.Data.Finset.Card
import Mathlib.Data.List.Forall2
import Mathlib.Data.List.Induction

namespace ArtGrammar

/-! ## §1. Names and number. -/

namespace Grammar

theorem mem_names_iff {g : Grammar} {name : String} :
    name ∈ g.names ↔ ∃ branches, g.find? name = some branches := by
  rw [mem_names, contains_iff]

/-- The names are those that something was added under. -/
theorem mem_names_ofList (history : List (String × List Branch)) (name : String) :
    name ∈ (ofList history).names ↔ name ∈ history.map Prod.fst := by
  induction history using List.reverseRecOn with
  | nil => rfl
  | append_singleton history addition ih =>
      rw [mem_names_iff] at ih ⊢
      rw [ofList_append_singleton, find?_insert, List.map_append, List.mem_append, ← ih]
      by_cases h : name = addition.1
      · simp [h]
      · simp [h]

/-- There are as many rules as names that something was added under. -/
theorem size_ofList (history : List (String × List Branch)) :
    (ofList history).size = (history.map Prod.fst).toFinset.card := by
  have hnames : (ofList history).names.toFinset = (history.map Prod.fst).toFinset := by
    ext name
    rw [List.mem_toFinset, List.mem_toFinset, mem_names_ofList]
  have hnodup : (ofList history).names.Nodup := nodup_names _
  rw [← hnames, List.toFinset_card_of_nodup hnodup]
  exact (List.length_map _).symm

end Grammar

/-! ## §2. Numeric equality. -/

/-- Lists of branches that are numerically equal one by one. -/
def Branch.AllEq : List Branch → List Branch → Prop :=
  List.Forall₂ fun a b => a.numEq b = true

/-- Rules of the same name and with numerically equal branches. -/
def Rule.Matches (r s : Rule) : Prop := r.name = s.name ∧ Branch.AllEq r.branches s.branches

/-- Among rules that match one by one, those of a name match. -/
theorem Rule.rel_find? {rules rules' : List Rule} (h : List.Forall₂ Rule.Matches rules rules')
    (name : String) :
    Option.Rel Branch.AllEq ((rules.find? fun r => r.name == name).map Rule.branches)
      ((rules'.find? fun r => r.name == name).map Rule.branches) := by
  induction h with
  | nil => exact .none
  | @cons r s rest rest' hmatch _ ih =>
      -- the rules at the head are both of this name, or both are not
      rw [List.find?_cons, List.find?_cons, hmatch.1]
      cases s.name == name with
      | true => exact .some hmatch.2
      | false => exact ih

theorem isSome_eq_of_rel {α : Type} {R : α → α → Prop} {a b : Option α} (h : Option.Rel R a b) :
    a.isSome = b.isSome := by
  cases h with
  | none => rfl
  | some _ => rfl

namespace Grammar

variable {g h : Grammar}

theorem names_eq_iff_forall₂ :
    g.names = h.names ↔ List.Forall₂ (fun r s => r.name = s.name) g.rules h.rules := by
  rw [← List.forall₂_eq_eq_eq, names, names, List.forall₂_map_left_iff, List.forall₂_map_right_iff]

/-- Numeric equality compares the rules in their order. -/
theorem numEq_iff_forall₂ : g.numEq h = true ↔ List.Forall₂ Rule.Matches g.rules h.rules := by
  have hall : ∀ a b : List Branch, (a.length == b.length
      && (a.zip b).all fun q => q.1.numEq q.2) = true ↔ Branch.AllEq a b := by
    intro a b
    rw [Branch.AllEq, List.forall₂_iff_zip, Bool.and_eq_true, beq_iff_eq, List.all_eq_true]
    simp
  unfold numEq
  rw [Bool.and_eq_true, beq_iff_eq, names_eq_iff_forall₂, List.all_eq_true, List.forall₂_iff_zip,
    List.forall₂_iff_zip]
  simp only [hall]
  constructor
  · rintro ⟨⟨hlength, hname⟩, hbranches⟩
    exact ⟨hlength, fun hmem => ⟨hname hmem, hbranches _ hmem⟩⟩
  · rintro ⟨hlength, hmatch⟩
    exact ⟨⟨hlength, fun hmem => (hmatch hmem).1⟩, fun p hmem => (hmatch hmem).2⟩

/-- **NUMERIC EQUALITY IS THAT OF THE BRANCHES UNDER EACH NAME.** -/
theorem numEq_iff_find? :
    g.numEq h = true ↔ ∀ name, Option.Rel Branch.AllEq (g.find? name) (h.find? name) := by
  rw [numEq_iff_forall₂]
  constructor
  · exact fun hrules name => Rule.rel_find? hrules name
  · intro hfind
    have hnames : g.names = h.names := by
      refine eq_of_ascending g.ascending_names h.ascending_names fun name => ?_
      rw [mem_names_iff, mem_names_iff, ← Option.isSome_iff_exists, ← Option.isSome_iff_exists,
        isSome_eq_of_rel (hfind name)]
    obtain ⟨hlength, hname⟩ := List.forall₂_iff_zip.1 (names_eq_iff_forall₂.1 hnames)
    refine List.forall₂_iff_zip.2 ⟨hlength, fun {r s} hmem => ⟨hname hmem, ?_⟩⟩
    -- both rules are found under their one name
    obtain ⟨hr, hs⟩ := List.of_mem_zip hmem
    have hrel := hfind r.name
    rw [find?_eq_some_iff.2 hr, hname hmem, find?_eq_some_iff.2 hs] at hrel
    cases hrel with
    | some hbranches => exact hbranches

end Grammar

/-! ## §3. Tables that are filled. -/

/-- What a history can leave in a table.  An addition takes the place of the rule of its
name, and after it the rules may stand in any other order. -/
inductive Filled : List (String × List Branch) → List Rule → Prop
  | empty : Filled [] []
  | add {history : List (String × List Branch)} {table table' : List Rule} (name : String)
      (branches : List Branch) (hfilled : Filled history table)
      (hadd : table'.Perm (⟨name, branches⟩ :: table.filter fun r => r.name != name)) :
      Filled (history ++ [(name, branches)]) table'

section
variable {g : Grammar} {history : List (String × List Branch)} {table : List Rule}

/-- **AN ADDITION TO A TABLE IS ONE TO THE GRAMMAR.** -/
theorem perm_insert (htable : table.Perm g.rules) (name : String) (branches : List Branch) :
    (⟨name, branches⟩ :: table.filter fun r => r.name != name).Perm
      (g.insert name branches).rules := by
  have hfilter : (table.filter fun r => r.name != name).Perm
      (g.rules.filter fun r => r.name != name) := htable.filter _
  have hnodup : (⟨name, branches⟩ :: g.rules.filter fun r => r.name != name).Nodup := by
    refine List.nodup_cons.2 ⟨fun hmem => ?_, g.nodup_rules.filter _⟩
    simpa using (List.mem_filter.1 hmem).2
  refine (hfilter.cons _).trans ((List.perm_ext_iff_of_nodup hnodup (Grammar.nodup_rules _)).2 ?_)
  intro r
  rw [List.mem_cons, List.mem_filter, Grammar.mem_insert, bne_iff_ne, and_comm]

/-- **A TABLE HAS THE RULES OF THE GRAMMAR**, whatever its order was in between. -/
theorem Filled.perm (h : Filled history table) : table.Perm (Grammar.ofList history).rules := by
  induction h with
  | empty => exact .nil
  | @add history table table' name branches _ hadd ih =>
      rw [Grammar.ofList_append_singleton]
      exact hadd.trans (perm_insert ih name branches)

/-- Any order of the rules can be reached. -/
theorem filled_of_perm (htable : table.Perm (Grammar.ofList history).rules) :
    Filled history table := by
  induction history using List.reverseRecOn generalizing table with
  | nil =>
      obtain rfl : table = [] := htable.eq_nil
      exact .empty
  | append_singleton history addition ih =>
      rw [Grammar.ofList_append_singleton] at htable
      exact .add addition.1 addition.2 (ih (.refl _))
        (htable.trans (perm_insert (.refl _) addition.1 addition.2).symm)

end

/-! ## §4. Answers of a table. -/

/-- The branches of the rule of the given name in a table. -/
def lookUp? (table : List Rule) (name : String) : Option (List Branch) :=
  (table.find? fun r => r.name == name).map Rule.branches

/-- Accepts the table of rules if it also has the given start rule. -/
def validateTableFrom (table : List Rule) (start : String) : Except Fault Unit :=
  if table.any fun r => r.name == start then validateTable table else .error (.unknownRule start)

/-- Expands a rule that is looked up in a table, with at most `limit` rules nested. -/
def expandTableWithin (table : List Rule) : Nat → String → Int → Drawing Expr
  | 0, _, _ => Drawing.halt .unfinished
  | limit + 1, rule, budget => do
    match lookUp? table rule with
    | none => Drawing.fail (.unknownRule rule)
    | some branches =>
      let branch ← Branch.select rule branches budget
      branch.template.instantiate fun name => do
        let left ← decay budget
        expandTableWithin table limit name left

/-- Expands a rule of a table within a budget. -/
def expandTable (table : List Rule) (rule : String) (budget : Int) : Drawing Expr :=
  expandTableWithin table (budget.toNat + table.length + 1) rule budget

/-- A table gives all the answers of a grammar. -/
structure Serves (table : List Rule) (g : Grammar) : Prop where
  find? : ∀ name, lookUp? table name = g.find? name
  size : table.length = g.size
  names : (table.map Rule.name).mergeSort (fun a b => decide (a ≤ b)) = g.names
  validate : validateTable table = g.validate
  validateFrom : ∀ start, validateTableFrom table start = g.validateFrom start
  expandRule : ∀ rule budget, expandTable table rule budget = g.expandRule rule budget

section
variable {g : Grammar} {table : List Rule}

theorem lookUp?_eq (htable : table.Perm g.rules) : lookUp? table = g.find? := by
  funext name
  apply Option.ext
  intro branches
  rw [Grammar.find?_eq_some_iff]
  constructor
  · intro h
    obtain ⟨r, hr, rfl⟩ := Option.map_eq_some_iff.1 h
    obtain rfl : r.name = name := by simpa using List.find?_some hr
    exact htable.subset (List.mem_of_find?_eq_some hr)
  · exact fun h => congrArg (Option.map Rule.branches) (find?_of_perm htable h)

theorem expandTableWithin_eq (htable : table.Perm g.rules) :
    ∀ limit, expandTableWithin table limit = g.expandWithin limit := by
  intro limit
  induction limit with
  | zero => rfl
  | succ limit ih =>
      funext rule budget
      have hlook : lookUp? table rule = g.find? rule := congrFun (lookUp?_eq htable) rule
      cases hfind : g.find? rule with
      | none => simp only [expandTableWithin, Grammar.expandWithin, hlook, hfind]
      | some branches => simp only [expandTableWithin, Grammar.expandWithin, hlook, hfind, ih]

/-- **THE ORDER OF A TABLE DOES NOT SHOW.** -/
theorem serves_of_perm (htable : table.Perm g.rules) : Serves table g where
  find? := fun name => congrFun (lookUp?_eq htable) name
  size := htable.length_eq
  names := mergeSort_eq_of_perm (htable.map Rule.name) g.ascending_names
  validate := validateTable_eq htable
  validateFrom := by
    intro start
    have hcontains : (table.any fun r => r.name == start) = g.contains start := htable.any_eq
    unfold validateTableFrom Grammar.validateFrom
    rw [hcontains, validateTable_eq htable]
  expandRule := by
    intro rule budget
    unfold expandTable Grammar.expandRule Grammar.nestingLimit
    rw [expandTableWithin_eq htable, htable.length_eq]
    rfl

end

/-! ## §5. Every history. -/

namespace Grammar

/-- **A GRAMMAR IS TOLD BY THE LAST ADDITIONS.**  After any history a name has the branches that
were added last under it, and none if there were none; there are as many rules as names
that were added, and these are listed in ascending order, each once.  A table of the rules,
in whatever order it was kept, answers as the grammar does.

Two histories lead to the same grammar exactly if the last additions are the same, and to
numerically equal ones exactly if these are numerically equal, not-a-number being equal to
nothing.  If they are the same, tables of the two, each in an order of its own, have the
same rules, are accepted or refused for the same fault, and expand every rule alike,
whatever is drawn. -/
theorem told_by_last_additions (history : List (String × List Branch)) :
    (∀ name, (ofList history).find? name = lastAdded? history name)
      ∧ (ofList history).size = (history.map Prod.fst).toFinset.card
      ∧ (ofList history).names.Pairwise (· < ·)
      ∧ (∀ name, name ∈ (ofList history).names ↔ name ∈ history.map Prod.fst)
      ∧ (∀ table, Filled history table → Serves table (ofList history))
      ∧ ∀ history',
          (ofList history = ofList history'
              ↔ ∀ name, lastAdded? history name = lastAdded? history' name)
            ∧ ((ofList history).numEq (ofList history') = true
              ↔ ∀ name, Option.Rel Branch.AllEq (lastAdded? history name)
                  (lastAdded? history' name))
            ∧ ((∀ name, lastAdded? history name = lastAdded? history' name) →
              ∀ table table', Filled history table → Filled history' table' →
                table.Perm table'
                  ∧ validateTable table = validateTable table'
                  ∧ (∀ start, validateTableFrom table start = validateTableFrom table' start)
                  ∧ ∀ rule budget tape i, (expandTable table rule budget).run tape i
                      = (expandTable table' rule budget).run tape i) := by
  have hserves : ∀ {history table}, Filled history table → Serves table (ofList history) :=
    fun h => serves_of_perm h.perm
  refine ⟨find?_ofList history, size_ofList history, ascending_names _, mem_names_ofList history,
    fun table h => hserves h, fun history' => ?_⟩
  have hsame : ofList history = ofList history'
      ↔ ∀ name, lastAdded? history name = lastAdded? history' name := by
    simp only [← find?_ofList]
    exact ⟨fun heq name => by rw [heq], ext_find?⟩
  refine ⟨hsame, ?_, fun hlast table table' h h' => ?_⟩
  · rw [numEq_iff_find?]
    simp only [find?_ofList]
  · -- both tables serve the one grammar
    have hgrammar := hsame.2 hlast
    have hperm := h.perm
    have hanswers := hserves h
    rw [hgrammar] at hperm hanswers
    have hanswers' := hserves h'
    refine ⟨hperm.trans h'.perm.symm, hanswers.validate.trans hanswers'.validate.symm,
      fun start => (hanswers.validateFrom start).trans (hanswers'.validateFrom start).symm,
      fun rule budget tape i => ?_⟩
    rw [hanswers.expandRule, hanswers'.expandRule]

/-- Additions some of which do not last, -/
def wavering : List (String × List Branch) :=
  [("D", []), ("C", [⟨.rule "D", 1⟩]), ("A", [⟨.rule "Q", -1⟩]), ("D", [⟨.rule "C", 1⟩]),
    ("A", [⟨.random, 1⟩])]

/-- those that do, in another order, -/
def decided : List (String × List Branch) :=
  [("A", [⟨.random, 1⟩]), ("D", [⟨.rule "C", 1⟩]), ("C", [⟨.rule "D", 1⟩])]

/-- a table of the rules in descending order, -/
def descending : List Rule :=
  [⟨"D", [⟨.rule "C", 1⟩]⟩, ⟨"C", [⟨.rule "D", 1⟩]⟩, ⟨"A", [⟨.random, 1⟩]⟩]

/-- and one with the first of them in the middle. -/
def shuffled : List Rule :=
  [⟨"C", [⟨.rule "D", 1⟩]⟩, ⟨"A", [⟨.random, 1⟩]⟩, ⟨"D", [⟨.rule "C", 1⟩]⟩]

/-- The first history leads to three rules by five additions.  Both tables are refused for
the same circle, its names sorted, and expand the one rule outside of it alike. -/
theorem told_by_last_additions_wavering :
    (∀ name, lastAdded? wavering name = lastAdded? decided name)
      ∧ Filled wavering descending ∧ Filled decided shuffled
      ∧ (ofList wavering).find? "D" = lastAdded? wavering "D"
      ∧ lastAdded? wavering "D" = some [⟨.rule "C", 1⟩]
      ∧ (ofList wavering).size = 3
      ∧ validateTable descending = .error (.grammar (.unfounded ["C", "D"]))
      ∧ validateTable descending = validateTable shuffled
      ∧ Option.Rel Branch.AllEq (lastAdded? wavering "D") (lastAdded? decided "D")
      ∧ ∀ tape i, (expandTable descending "A" 1).run tape i
          = (expandTable shuffled "A" 1).run tape i := by
  obtain ⟨hfind, hsize, _, _, hserves, hother⟩ := told_by_last_additions wavering
  obtain ⟨hsame, hnumEq, htables⟩ := hother decided
  have hlast : ∀ name, lastAdded? wavering name = lastAdded? decided name :=
    hsame.1 (by decide +kernel)
  have hdescending : Filled wavering descending := filled_of_perm (by decide +kernel)
  have hshuffled : Filled decided shuffled := filled_of_perm (by decide +kernel)
  have hstuck : (ofList wavering).stuck = ["C", "D"] :=
    mergeSort_eq_of_perm (by decide +kernel) (by decide)
  have hrefused : (ofList wavering).validate = .error (.grammar (.unfounded ["C", "D"])) := by
    rw [validate_eq_error_iff, defect?, hstuck]
    decide +kernel
  obtain ⟨_, hvalidate, _, hexpand⟩ := htables hlast _ _ hdescending hshuffled
  exact ⟨hlast, hdescending, hshuffled, hfind "D", by decide +kernel,
    hsize.trans (by decide +kernel), (hserves _ hdescending).validate.trans hrefused, hvalidate,
    hnumEq.1 (by decide +kernel) "D", hexpand "A" 1⟩

end Grammar

end ArtGrammar
