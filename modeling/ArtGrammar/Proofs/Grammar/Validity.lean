/-
  ArtGrammar.Proofs.Grammar.Validity
  ────────────────────────────────
  **WHAT A VALIDATED GRAMMAR PROMISES.**

      every rule          `Rule.Sound`: a branch, probabilities, known
                          references and a total of one
      every first branch  `EndsWithin`: references of first branches come to
                          an end after no more rules than the grammar has

  The second is read off the order in which rules are grounded: each one joins
  after everything its first branch refers to (`Grounding`), so its place in
  that order bounds how deep its first branches nest.
-/
import ArtGrammar.Grammar.Validity
import Mathlib.Data.List.Perm.Subperm

namespace ArtGrammar

/-! ## §1. Looking rules up. -/

/-- A rule is found exactly under its name. -/
theorem Grammar.find?_eq_some_iff {g : Grammar} {name : String} {branches : List Branch} :
    g.find? name = some branches ↔ ⟨name, branches⟩ ∈ g.rules := by
  obtain ⟨rules, hasc⟩ := g
  unfold Grammar.find?
  induction rules with
  | nil => simp
  | cons r rest ih =>
      obtain ⟨hr, hrest⟩ := List.pairwise_cons.1 hasc
      by_cases hname : r.name = name
      · -- names ascend strictly, so no later rule has this one
        subst hname
        rw [List.find?_cons_of_pos (by simp)]
        constructor
        · intro h
          cases h
          exact List.mem_cons_self
        · intro h
          rcases List.mem_cons.1 h with h | h
          · rw [← h]
            rfl
          · exact absurd (hr _ h) (String.lt_irrefl _)
      · rw [List.find?_cons_of_neg (by simpa using hname), ih hrest, List.mem_cons]
        constructor
        · exact Or.inr
        · rintro (h | h)
          · exact absurd (congrArg Rule.name h.symm) hname
          · exact h

theorem Grammar.contains_iff {g : Grammar} {name : String} :
    g.contains name = true ↔ ∃ branches, g.find? name = some branches := by
  unfold Grammar.contains
  rw [List.any_eq_true]
  constructor
  · rintro ⟨r, hr, hname⟩
    rw [beq_iff_eq] at hname
    subst hname
    exact ⟨r.branches, Grammar.find?_eq_some_iff.2 hr⟩
  · rintro ⟨branches, h⟩
    exact ⟨_, Grammar.find?_eq_some_iff.1 h, beq_self_eq_true name⟩

/-! ## §2. Rules without a defect. -/

/-- Nothing is wrong with the rule by itself. -/
structure Rule.Sound (isKnown : String → Bool) (r : Rule) : Prop where
  nonempty : r.branches ≠ []
  probabilities : ∀ b ∈ r.branches, b.probability.isProbability = true
  references : ∀ b ∈ r.branches, ∀ name ∈ b.template.references, isKnown name = true
  total : (Branch.total r.branches).isUnitTotal = true

theorem Branch.defect?_eq_none_iff {isKnown : String → Bool} {rule : String} {b : Branch}
    {index : Nat} :
    b.defect? isKnown rule index = none
      ↔ b.probability.isProbability = true
        ∧ ∀ name ∈ b.template.references, isKnown name = true := by
  unfold Branch.defect?
  by_cases hp : b.probability.isProbability = true
  · simp [hp]
  · simp [hp]

/-- No branch has a defect: the indices only serve the messages. -/
theorem Branch.forall_defect?_eq_none_iff {isKnown : String → Bool} {rule : String}
    {branches : List Branch} :
    (∀ b ∈ branches.zipIdx, b.1.defect? isKnown rule b.2 = none)
      ↔ ∀ b ∈ branches, b.probability.isProbability = true
          ∧ ∀ name ∈ b.template.references, isKnown name = true := by
  constructor
  · intro h b hb
    obtain ⟨i, hi, rfl⟩ := List.getElem_of_mem hb
    have hmem : (branches[i], i) ∈ branches.zipIdx := by
      rw [List.mk_mem_zipIdx_iff_getElem?]
      exact List.getElem?_eq_getElem hi
    exact Branch.defect?_eq_none_iff.1 (h _ hmem)
  · rintro h ⟨b, i⟩ hmem
    have hb : b ∈ branches := List.mem_of_getElem? (List.mk_mem_zipIdx_iff_getElem?.1 hmem)
    exact Branch.defect?_eq_none_iff.2 (h b hb)

/-- A rule has no defect exactly if it is sound. -/
theorem Rule.defect?_eq_none_iff {isKnown : String → Bool} {r : Rule} :
    r.defect? isKnown = none ↔ r.Sound isKnown := by
  unfold Rule.defect?
  by_cases hempty : r.branches.isEmpty = true
  · rw [if_pos hempty]
    constructor
    · intro h
      cases h
    · intro h
      exact absurd (List.isEmpty_iff.1 hempty) h.nonempty
  · rw [if_neg hempty, Option.or_eq_none_iff, List.findSome?_eq_none_iff,
      Branch.forall_defect?_eq_none_iff]
    have hne : r.branches ≠ [] := fun h => hempty (List.isEmpty_iff.2 h)
    constructor
    · rintro ⟨hall, htotal⟩
      refine ⟨hne, fun b hb => (hall b hb).1, fun b hb => (hall b hb).2, ?_⟩
      by_cases hunit : (Branch.total r.branches).isUnitTotal = true
      · exact hunit
      · simp [hunit] at htotal
    · intro h
      exact ⟨fun b hb => ⟨h.probabilities b hb, h.references b hb⟩, by simp [h.total]⟩

/-! ## §3. The order in which rules are grounded. -/

/-- Names in the reverse of an order in which each one comes after all its
references. -/
inductive Grounding (rows : List (String × List String)) : List String → Prop
  | nil : Grounding rows []
  | cons {row : String × List String} {done : List String} (hrow : row ∈ rows)
      (fresh : row.1 ∉ done) (grounded : ∀ name ∈ row.2, name ∈ done)
      (hdone : Grounding rows done) : Grounding rows (row.1 :: done)

theorem groundPass_cons (row : String × List String) (part : List (String × List String))
    (done : List String) :
    groundPass (row :: part) done
      = groundPass part
          (if (!done.contains row.1 && row.2.all done.contains) = true then row.1 :: done
            else done) := rfl

/-- A pass keeps the order. -/
theorem Grounding.groundPass {rows : List (String × List String)} :
    ∀ (part : List (String × List String)), (∀ row ∈ part, row ∈ rows) →
      ∀ done, Grounding rows done → Grounding rows (groundPass part done)
  | [], _, done, h => h
  | row :: part, hpart, done, h => by
      have hrest := fun r hr => hpart r (List.mem_cons_of_mem row hr)
      rw [groundPass_cons]
      apply Grounding.groundPass part hrest
      split
      next hjoin =>
        simp only [Bool.and_eq_true, Bool.not_eq_true', List.contains_eq_mem, List.all_eq_true,
          decide_eq_true_eq, decide_eq_false_iff_not] at hjoin
        exact Grounding.cons (hpart row List.mem_cons_self) hjoin.1 hjoin.2 h
      next => exact h

/-- All passes keep the order. -/
theorem Grounding.groundWithin {rows : List (String × List String)} :
    ∀ n done, Grounding rows done → Grounding rows (groundWithin rows n done)
  | 0, _, h => h
  | n + 1, done, h => by
      unfold ArtGrammar.groundWithin
      simp only
      split
      · exact h
      · exact Grounding.groundWithin n _ (Grounding.groundPass rows (fun _ hr => hr) done h)

/-- No name is grounded twice, and none that has no row. -/
theorem Grounding.length_le {rows : List (String × List String)} {done : List String}
    (h : Grounding rows done) : done.length ≤ rows.length := by
  -- the grounded names are distinct and all of them are names of rows
  have hmem : done.Nodup ∧ ∀ name ∈ done, name ∈ rows.map (·.1) := by
    induction h with
    | nil => simp
    | cons hrow fresh _ _ ih =>
        refine ⟨List.nodup_cons.2 ⟨fresh, ih.1⟩, ?_⟩
        intro name hname
        rcases List.mem_cons.1 hname with rfl | hname
        · exact List.mem_map_of_mem hrow
        · exact ih.2 name hname
  rw [← List.length_map (fun row : String × List String => row.1)]
  exact (hmem.1.subperm hmem.2).length_le

/-- If no name is stuck, all are grounded. -/
theorem exists_grounding {rows : List (String × List String)} (h : stuckNames rows = []) :
    ∃ done, Grounding rows done ∧ ∀ row ∈ rows, row.1 ∈ done := by
  refine ⟨groundWithin rows rows.length [], Grounding.nil.groundWithin rows.length, ?_⟩
  intro row hrow
  have hperm := List.mergeSort_perm ((rows.map (·.1)).filter fun name =>
    !(groundWithin rows rows.length []).contains name) fun a b => decide (a ≤ b)
  unfold stuckNames at h
  rw [h] at hperm
  -- sorting keeps what is listed, so nothing was listed before it either
  have hnone := List.filter_eq_nil_iff.1 hperm.symm.eq_nil row.1 (List.mem_map_of_mem hrow)
  simpa using hnone

/-! ## §4. First branches come to an end. -/

namespace Grammar

/-- Taking first branches only, rules nest at most `n` deep below a name, itself
included. -/
def EndsWithin (g : Grammar) : Nat → String → Prop
  | 0, _ => False
  | n + 1, name => ∃ b rest, g.find? name = some (b :: rest)
      ∧ ∀ inner ∈ b.template.references, g.EndsWithin n inner

theorem EndsWithin.succ {g : Grammar} :
    ∀ {n : Nat} {name : String}, g.EndsWithin n name → g.EndsWithin (n + 1) name
  | 0, _, h => h.elim
  | _ + 1, _, ⟨b, rest, hfind, hinner⟩ =>
      ⟨b, rest, hfind, fun inner hmem => (hinner inner hmem).succ⟩

theorem EndsWithin.mono {g : Grammar} {n m : Nat} {name : String} (h : g.EndsWithin n name)
    (hle : n ≤ m) : g.EndsWithin m name := by
  induction hle with
  | refl => exact h
  | step _ ih => exact ih.succ

/-- The place of a name in the order bounds how deep its first branches nest. -/
theorem endsWithin_of_grounding {g : Grammar} {done : List String}
    (hne : ∀ r ∈ g.rules, r.branches ≠ [])
    (h : Grounding (g.rules.map fun r => (r.name, r.firstReferences)) done) :
    ∀ name ∈ done, g.EndsWithin done.length name := by
  induction h with
  | nil => simp
  | @cons row done hrow _ grounded _ ih =>
      intro name hname
      rcases List.mem_cons.1 hname with rfl | hname
      · -- the name that joined last nests one deeper than those it refers to
        obtain ⟨r, hr, rfl⟩ := List.mem_map.1 hrow
        obtain ⟨b, rest, hbranches⟩ := List.exists_cons_of_ne_nil (hne r hr)
        refine ⟨b, rest, ?_, ?_⟩
        · rw [← hbranches]
          exact find?_eq_some_iff.2 hr
        · intro inner hinner
          apply ih inner (grounded inner _)
          show inner ∈ r.firstReferences
          unfold Rule.firstReferences
          rw [hbranches]
          exact hinner
      · exact (ih name hname).succ

/-- Grounded names end within as many rules as there are. -/
theorem endsWithin_size_of_grounding {g : Grammar} {done : List String}
    (hne : ∀ r ∈ g.rules, r.branches ≠ [])
    (h : Grounding (g.rules.map fun r => (r.name, r.firstReferences)) done) {name : String}
    (hname : name ∈ done) : g.EndsWithin g.size name := by
  have hlen : done.length ≤ g.size := by
    have hle := h.length_le
    rwa [List.length_map] at hle
  exact (endsWithin_of_grounding hne h name hname).mono hlen

/-! ## §5. The promises together. -/

/-- What a validated grammar promises. -/
structure Trusted (g : Grammar) : Prop where
  sound : ∀ name branches, g.find? name = some branches → Rule.Sound g.contains ⟨name, branches⟩
  ends : ∀ name, g.contains name = true → g.EndsWithin g.size name

theorem validate_eq_error_iff {g : Grammar} {fault : Fault} :
    g.validate = .error fault ↔ g.defect? = some fault := by
  unfold validate
  cases g.defect? with
  | none => simp
  | some other => simp

theorem validate_eq_ok_iff {g : Grammar} : g.validate = .ok () ↔ g.defect? = none := by
  unfold validate
  cases g.defect? with
  | none => simp
  | some other => simp

/-- A grammar has no defect exactly if its rules are sound and none is stuck. -/
theorem defect?_eq_none_iff {g : Grammar} :
    g.defect? = none ↔ (∀ r ∈ g.rules, r.Sound g.contains) ∧ g.stuck = [] := by
  unfold defect?
  rw [Option.or_eq_none_iff, List.findSome?_eq_none_iff]
  refine and_congr (forall₂_congr fun r _ => Rule.defect?_eq_none_iff) ?_
  cases g.stuck with
  | nil => simp
  | cons name names => simp

/-- **VALIDATION KEEPS ITS PROMISES.** -/
theorem trusted_of_validate {g : Grammar} (h : g.validate = .ok ()) : g.Trusted := by
  obtain ⟨hsound, hnil⟩ := defect?_eq_none_iff.1 (validate_eq_ok_iff.1 h)
  obtain ⟨done, hdone, hall⟩ := exists_grounding hnil
  constructor
  · intro name branches hfind
    exact hsound _ (find?_eq_some_iff.1 hfind)
  · intro name hname
    obtain ⟨branches, hfind⟩ := contains_iff.1 hname
    have hmem := hall _ (List.mem_map_of_mem (find?_eq_some_iff.1 hfind))
    exact endsWithin_size_of_grounding (fun r hr => (hsound r hr).nonempty) hdone hmem

end Grammar

end ArtGrammar
