/-
  ArtGrammar.Proofs.Grammar.Descent
  ────────────────────────────────
  **WHERE FIRST BRANCHES LEAD, AND WHAT THE PASSES FIND OF IT.**

  A rule leads to every name that its first branch refers to.  Going on from
  name to name is a DESCENT:

      Founded g name   all descents from the name end at first branches that
                       refer to nothing
      Endless g name   some descent from it goes on forever
      Dangles g name   some descent from it comes to a name without a rule

      Founded  ↔  neither Endless nor Dangles            (`founded_iff`)

  The passes over a table of rules ground the founded names and no others.
  Their loop has no bound of its own (`Settles`); the bound that they are given
  is never the reason why they end, and the order of the table only matters for
  how many of them it takes:

      stuckNames_eq_filter   the stuck names are those that are not founded, in
                             whatever order the rules are passed over
-/
import ArtGrammar.Proofs.Grammar.Assembly
import Mathlib.Logic.Relation

namespace ArtGrammar

/-! ## §1. Descents. -/

namespace Grammar

/-- The first branch of the rule `name` refers to `inner`. -/
def LeadsTo (g : Grammar) (name inner : String) : Prop :=
  ∃ branches, g.find? name = some branches ∧ inner ∈ Rule.firstReferences ⟨name, branches⟩

/-- Some descent from the name goes on forever. -/
def Endless (g : Grammar) (name : String) : Prop :=
  ∃ descent : Nat → String,
    descent 0 = name ∧ ∀ i, g.LeadsTo (descent i) (descent (i + 1))

/-- Some descent from the name comes to a name without a rule. -/
def Dangles (g : Grammar) (name : String) : Prop :=
  ∃ missing, Relation.ReflTransGen g.LeadsTo name missing ∧ g.contains missing = false

/-- There is a rule, and all that its first branch refers to is founded. -/
inductive Founded (g : Grammar) : String → Prop
  | intro {name : String} {branches : List Branch} (hfind : g.find? name = some branches)
      (hinner : ∀ inner ∈ Rule.firstReferences ⟨name, branches⟩, Founded g inner) :
      Founded g name

/-- Every reference names a rule. -/
def Closed (g : Grammar) : Prop :=
  ∀ r ∈ g.rules, ∀ b ∈ r.branches, ∀ name ∈ b.template.references, g.contains name = true

variable {g : Grammar}

/-- First references are references of a branch. -/
theorem exists_of_mem_firstReferences {r : Rule} {name : String}
    (h : name ∈ r.firstReferences) : ∃ b ∈ r.branches, name ∈ b.template.references := by
  unfold Rule.firstReferences at h
  split at h
  · cases h
  next b rest hbranches => exact ⟨b, by rw [hbranches]; exact List.mem_cons_self, h⟩

theorem Founded.inner {name inner : String} (h : g.Founded name) (hlead : g.LeadsTo name inner) :
    g.Founded inner := by
  obtain ⟨branches, hfind, hmem⟩ := hlead
  cases h with
  | intro hfind' hinner =>
      rw [hfind] at hfind'
      cases hfind'
      exact hinner inner hmem

/-- A founded name has no endless descent: it would go on from a founded name
that comes earlier. -/
theorem Founded.not_endless {name : String} (h : g.Founded name) : ¬ g.Endless name := by
  induction h with
  | @intro name branches hfind hinner ih =>
      rintro ⟨descent, rfl, hlead⟩
      obtain ⟨branches', hfind', hmem⟩ := hlead 0
      rw [hfind] at hfind'
      cases hfind'
      exact ih (descent 1) hmem ⟨fun i => descent (i + 1), rfl, fun i => hlead (i + 1)⟩

theorem Founded.not_dangles {name : String} (h : g.Founded name) : ¬ g.Dangles name := by
  rintro ⟨missing, hreach, hmissing⟩
  -- all names on the way are founded, the last one too
  have hfounded : g.Founded missing := by
    clear hmissing
    induction hreach with
    | refl => exact h
    | tail _ hlead ih => exact ih.inner hlead
  cases hfounded with
  | intro hfind _ =>
      rw [contains_iff.2 ⟨_, hfind⟩] at hmissing
      cases hmissing

/-- If every reference names a rule, no descent from a rule dangles. -/
theorem Closed.not_dangles (hclosed : g.Closed) {name : String} (hname : g.contains name = true) :
    ¬ g.Dangles name := by
  rintro ⟨missing, hreach, hmissing⟩
  have hcontains : g.contains missing = true := by
    clear hmissing
    induction hreach with
    | refl => exact hname
    | tail _ hlead _ =>
        obtain ⟨branches, hfind, hmem⟩ := hlead
        obtain ⟨b, hb, href⟩ := exists_of_mem_firstReferences hmem
        exact hclosed _ (find?_eq_some_iff.1 hfind) b hb _ href
  rw [hcontains] at hmissing
  cases hmissing

/-- An endless descent begins at a rule. -/
theorem Endless.contains {name : String} (h : g.Endless name) : g.contains name = true := by
  obtain ⟨descent, rfl, hlead⟩ := h
  obtain ⟨branches, hfind, _⟩ := hlead 0
  exact contains_iff.2 ⟨branches, hfind⟩

/-- What is not founded, though no name is missing, leads to something else that
is not. -/
theorem exists_leadsTo {name : String} (hfounded : ¬ g.Founded name)
    (hdangles : ¬ g.Dangles name) :
    ∃ inner, g.LeadsTo name inner ∧ ¬ g.Founded inner ∧ ¬ g.Dangles inner := by
  have hcontains : g.contains name = true := by
    cases hc : g.contains name with
    | true => rfl
    | false => exact absurd ⟨name, .refl, hc⟩ hdangles
  obtain ⟨branches, hfind⟩ := contains_iff.1 hcontains
  by_contra hnone
  push Not at hnone
  apply hfounded
  refine .intro hfind fun inner hmem => ?_
  by_contra hinner
  obtain ⟨missing, hreach, hmissing⟩ := hnone inner ⟨branches, hfind, hmem⟩ hinner
  exact hdangles ⟨missing, .head ⟨branches, hfind, hmem⟩ hreach, hmissing⟩

/-- **A NAME IS FOUNDED UNLESS A DESCENT FROM IT IS ENDLESS OR DANGLES.** -/
theorem founded_iff {name : String} : g.Founded name ↔ ¬ g.Endless name ∧ ¬ g.Dangles name := by
  constructor
  · intro h
    exact ⟨h.not_endless, h.not_dangles⟩
  · rintro ⟨hendless, hdangles⟩
    by_contra hfounded
    -- each name that is not founded chooses the next one
    let Lost := { name : String // ¬ g.Founded name ∧ ¬ g.Dangles name }
    have hnext : ∀ lost : Lost, ∃ next : Lost, g.LeadsTo lost.1 next.1 := by
      intro lost
      obtain ⟨inner, hlead, hinner⟩ := exists_leadsTo lost.2.1 lost.2.2
      exact ⟨⟨inner, hinner⟩, hlead⟩
    choose next hlead using hnext
    let descent : Nat → Lost := Nat.rec ⟨name, hfounded, hdangles⟩ fun _ lost => next lost
    exact hendless ⟨fun i => (descent i).1, rfl, fun i => hlead (descent i)⟩

end Grammar

/-! ## §2. The passes. -/

/-- The passes from `done` on end with `final`: they go on until one adds
nothing, however many that takes. -/
inductive Settles (rows : List (String × List String)) : List String → List String → Prop
  | stop {done : List String} (hsame : (groundPass rows done).length = done.length) :
      Settles rows done done
  | again {done final : List String} (hmore : (groundPass rows done).length ≠ done.length)
      (hrest : Settles rows (groundPass rows done) final) : Settles rows done final

/-- A pass puts names in front of those that it finds. -/
theorem exists_append_groundPass (part : List (String × List String)) :
    ∀ done, ∃ new, groundPass part done = new ++ done := by
  induction part with
  | nil => exact fun done => ⟨[], rfl⟩
  | cons row part ih =>
      intro done
      rw [groundPass_cons]
      split
      · obtain ⟨new, hnew⟩ := ih (row.1 :: done)
        exact ⟨new ++ [row.1], by rw [List.append_assoc]; exact hnew⟩
      · exact ih done

/-- A pass that adds nothing in number adds nothing. -/
theorem groundPass_eq_of_length {rows : List (String × List String)} {done : List String}
    (h : (groundPass rows done).length = done.length) : groundPass rows done = done := by
  obtain ⟨new, hnew⟩ := exists_append_groundPass rows done
  rw [hnew, List.length_append] at h
  have hnil : new = [] := List.eq_nil_of_length_eq_zero (by omega)
  rw [hnew, hnil, List.nil_append]

/-- A pass grounds a name if all its references are grounded before. -/
theorem mem_groundPass {row : String × List String} (part : List (String × List String)) :
    ∀ done, row ∈ part → (∀ name ∈ row.2, name ∈ done) → row.1 ∈ groundPass part done := by
  induction part with
  | nil => simp
  | cons other part ih =>
      intro done hrow hrefs
      rw [groundPass_cons]
      rcases List.mem_cons.1 hrow with rfl | hrow
      · -- grounded now if not before, and kept to the end of the pass
        obtain ⟨new, hnew⟩ := exists_append_groundPass part _
        rw [hnew]
        apply List.mem_append_right
        by_cases hmem : row.1 ∈ done
        · simp [hmem]
        · have hall : row.2.all done.contains = true := by simpa using hrefs
          simp [hmem, hall]
      · apply ih _ hrow
        intro name hname
        split
        · exact List.mem_cons_of_mem _ (hrefs name hname)
        · exact hrefs name hname

/-- **THE PASSES END BY THEMSELVES.**  With as many of them as there are names
left, the last one has added nothing. -/
theorem settles_groundWithin {rows : List (String × List String)} (n : Nat) :
    ∀ done, Grounding rows done → rows.length ≤ done.length + n →
      Settles rows done (groundWithin rows n done) := by
  induction n with
  | zero =>
      intro done hdone hlen
      -- every name is grounded, and a pass cannot ground more than there are
      have hmore := (Grounding.groundPass rows (fun _ hr => hr) done hdone).length_le
      obtain ⟨new, hnew⟩ := exists_append_groundPass rows done
      apply Settles.stop
      rw [hnew, List.length_append] at hmore ⊢
      omega
  | succ n ih =>
      intro done hdone hlen
      have hnext := Grounding.groundPass rows (fun _ hr => hr) done hdone
      show Settles rows done (if _ then done else groundWithin rows n (groundPass rows done))
      by_cases hsame : (groundPass rows done).length = done.length
      · rw [if_pos hsame]
        exact Settles.stop hsame
      · rw [if_neg hsame]
        obtain ⟨new, hnew⟩ := exists_append_groundPass rows done
        have hgrow : done.length < (groundPass rows done).length := by
          rw [hnew, List.length_append] at hsame ⊢
          omega
        exact Settles.again hsame (ih _ hnext (by omega))

/-- What the passes end with they do not change any more. -/
theorem Settles.groundPass_eq {rows : List (String × List String)} {done final : List String}
    (h : Settles rows done final) : groundPass rows final = final := by
  induction h with
  | stop hsame => exact groundPass_eq_of_length hsame
  | again _ _ ih => exact ih

/-! ## §3. What a table of rules grounds. -/

/-- The names of a table of rules, each with the references of its first branch. -/
def firstRows (table : List Rule) : List (String × List String) :=
  table.map fun r => (r.name, r.firstReferences)

section
variable {g : Grammar} {table : List Rule}

/-- The rows are the rules of the grammar. -/
theorem mem_firstRows (htable : table.Perm g.rules) {row : String × List String} :
    row ∈ firstRows table
      ↔ ∃ branches, g.find? row.1 = some branches
          ∧ Rule.firstReferences ⟨row.1, branches⟩ = row.2 := by
  unfold firstRows
  rw [List.mem_map]
  constructor
  · rintro ⟨r, hr, rfl⟩
    exact ⟨r.branches, Grammar.find?_eq_some_iff.2 (htable.subset hr), rfl⟩
  · rintro ⟨branches, hfind, hrefs⟩
    exact ⟨⟨row.1, branches⟩, htable.symm.subset (Grammar.find?_eq_some_iff.1 hfind),
      Prod.ext rfl hrefs⟩

theorem founded_of_grounding (htable : table.Perm g.rules) {done : List String}
    (h : Grounding (firstRows table) done) : ∀ name ∈ done, g.Founded name := by
  induction h with
  | nil => simp
  | @cons row done hrow _ grounded _ ih =>
      intro name hname
      rcases List.mem_cons.1 hname with rfl | hname
      · -- the name that joined last leads to those that joined before
        obtain ⟨branches, hfind, hrefs⟩ := (mem_firstRows htable).1 hrow
        refine .intro hfind fun inner hinner => ih inner (grounded inner ?_)
        rw [← hrefs]
        exact hinner
      · exact ih name hname

theorem mem_of_founded (htable : table.Perm g.rules) {final : List String}
    (hfinal : groundPass (firstRows table) final = final) {name : String} (h : g.Founded name) :
    name ∈ final := by
  induction h with
  | @intro name branches hfind _ ih =>
      have hrow : (name, Rule.firstReferences ⟨name, branches⟩) ∈ firstRows table :=
        (mem_firstRows htable).2 ⟨branches, hfind, rfl⟩
      rw [← hfinal]
      exact mem_groundPass _ _ hrow ih

/-- The passes over a table come to an end. -/
theorem settles_firstRows (table : List Rule) :
    Settles (firstRows table) [] (groundWithin (firstRows table) (firstRows table).length []) :=
  settles_groundWithin _ [] .nil (by simp)

/-- **THE PASSES GROUND THE FOUNDED NAMES.** -/
theorem mem_groundWithin_iff (htable : table.Perm g.rules) {name : String} :
    name ∈ groundWithin (firstRows table) (firstRows table).length [] ↔ g.Founded name := by
  constructor
  · exact founded_of_grounding htable (Grounding.nil.groundWithin _) name
  · exact mem_of_founded htable (settles_firstRows table).groundPass_eq

/-! ## §4. Stuck names. -/

/-- Sorting names gives the one order in which they ascend. -/
theorem mergeSort_eq_of_perm {names sorted : List String} (hperm : names.Perm sorted)
    (hasc : sorted.Pairwise (· < ·)) : names.mergeSort (fun a b => decide (a ≤ b)) = sorted := by
  have hle : (names.mergeSort fun a b => decide (a ≤ b)).Pairwise
      fun a b => decide (a ≤ b) = true := by
    apply List.pairwise_mergeSort
    · intro a b c hab hbc
      simp only [decide_eq_true_eq] at *
      exact String.le_trans hab hbc
    · intro a b
      simpa using String.le_total a b
  have hle' : sorted.Pairwise fun a b => decide (a ≤ b) = true := by
    refine hasc.imp fun hlt => decide_eq_true ?_
    exact String.not_lt.1 fun hgt => String.lt_irrefl _ (String.lt_trans hlt hgt)
  refine List.Perm.eq_of_pairwise (fun a b _ _ hab hba => ?_) hle hle'
    ((List.mergeSort_perm names _).trans hperm)
  exact String.le_antisymm (of_decide_eq_true hab) (of_decide_eq_true hba)

theorem Grammar.ascending_names (g : Grammar) : g.names.Pairwise (· < ·) :=
  List.pairwise_map.2 g.ascending

theorem Grammar.mem_names {name : String} : name ∈ g.names ↔ g.contains name = true := by
  simp [names, contains]

open Classical in
/-- **THE STUCK NAMES ARE THOSE THAT ARE NOT FOUNDED**, in whatever order the rules
are passed over. -/
theorem stuckNames_eq_filter (htable : table.Perm g.rules) :
    stuckNames (firstRows table) = g.names.filter fun name => ¬ g.Founded name := by
  have hnames : (firstRows table).map (·.1) = table.map Rule.name := by
    unfold firstRows
    rw [List.map_map]
    rfl
  have hgrounded : ∀ name,
      (!(groundWithin (firstRows table) (firstRows table).length []).contains name)
        = decide (¬ g.Founded name) := by
    intro name
    rw [← mem_groundWithin_iff htable]
    simp
  unfold stuckNames
  simp only [hnames, hgrounded]
  exact mergeSort_eq_of_perm ((htable.map Rule.name).filter _) (g.ascending_names.filter _)

theorem Grammar.stuck_eq_stuckNames (htable : table.Perm g.rules) :
    g.stuck = stuckNames (firstRows table) := by
  rw [stuckNames_eq_filter htable]
  exact stuckNames_eq_filter (.refl g.rules)

theorem Grammar.mem_stuck {name : String} :
    name ∈ g.stuck ↔ g.contains name = true ∧ ¬ g.Founded name := by
  rw [stuck_eq_stuckNames (.refl g.rules), stuckNames_eq_filter (.refl g.rules)]
  simp [mem_names]

/-- If every reference names a rule, the stuck names are those of endless descents. -/
theorem Grammar.Closed.mem_stuck_iff (hclosed : g.Closed) {name : String} :
    name ∈ g.stuck ↔ g.Endless name := by
  rw [mem_stuck]
  constructor
  · rintro ⟨hcontains, hfounded⟩
    by_contra hendless
    exact hfounded (founded_iff.2 ⟨hendless, hclosed.not_dangles hcontains⟩)
  · exact fun h => ⟨h.contains, fun hfounded => hfounded.not_endless h⟩

/-- Stuck names are listed in ascending order, none of them twice. -/
theorem Grammar.ascending_stuck (g : Grammar) : g.stuck.Pairwise (· < ·) := by
  rw [stuck_eq_stuckNames (.refl g.rules), stuckNames_eq_filter (.refl g.rules)]
  exact g.ascending_names.filter _

end

end ArtGrammar
