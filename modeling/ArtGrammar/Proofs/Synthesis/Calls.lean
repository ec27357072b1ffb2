/-
  ArtGrammar.Proofs.Synthesis.Calls
  ────────────────────────────────
  **WHICH CALLS AN EXPANSION MAKES.**

  A CALL is the expansion of a rule within a budget, from a position of the tape
  on.  It copies a branch from left to right, and for each reference that the
  copy comes to it makes an inner call, within the budget that the decay leaves:

      visits     the references that a copy comes to, with their positions
      Calls      one call made by another
      Nests      a call so many calls below another

  A copy depends on nothing but the references that it comes to, so no call is
  left out; and an expansion is a copy with expanded references, whatever the
  limits on nesting.
-/
import ArtGrammar.Proofs.Synthesis.Derivation
import ArtGrammar.Proofs.Synthesis.Termination

namespace ArtGrammar

/-! ## §1. References that a copy comes to. -/

/-- What comes after a finished run, from the position it has reached. -/
def Drawing.after {α β : Type} (d : Drawing α) (tape : Tape) (i : Nat) (next : Nat → List β) :
    List β :=
  match d.run tape i with
  | (.ok _, j) => next j
  | (.error _, _) => []

theorem Drawing.after_of_run {α β : Type} {d : Drawing α} {tape : Tape} {i j : Nat} {a : α}
    {next : Nat → List β} (h : d.run tape i = (.ok a, j)) : d.after tape i next = next j := by
  unfold after
  rw [h]

/-- What comes after a run comes from some position. -/
theorem Drawing.mem_append_after {α β : Type} {d : Drawing α} {tape : Tape} {i : Nat}
    {now : List β} {next : Nat → List β} {x : β} (h : x ∈ now ++ d.after tape i next) :
    x ∈ now ∨ ∃ j, x ∈ next j := by
  rcases List.mem_append.1 h with h | h
  · exact Or.inl h
  · unfold after at h
    split at h
    · exact Or.inr ⟨_, h⟩
    · cases h

/-- The references that a copy of the template comes to, each with the position
that the tape has reached there. -/
def Expr.visits (f : String → Drawing Expr) (tape : Tape) : Expr → Nat → List (String × Nat)
  | .rule name, i => [(name, i)]
  | .abs a, i => visits f tape a i
  | .arith _ a b, i => visits f tape a i ++ (a.instantiate f).after tape i (visits f tape b)
  | .ge a b, i => visits f tape a i ++ (a.instantiate f).after tape i (visits f tape b)
  | .triple a b c, i =>
    visits f tape a i ++ (a.instantiate f).after tape i fun j =>
      visits f tape b j ++ (b.instantiate f).after tape j (visits f tape c)
  | .cond a b c, i =>
    visits f tape a i ++ (a.instantiate f).after tape i fun j =>
      visits f tape b j ++ (b.instantiate f).after tape j (visits f tape c)
  | .var _, _ => []
  | .number _, _ => []
  | .boolean _, _ => []
  | .random, _ => []

section
variable {f f' : String → Drawing Expr} {tape : Tape}

/-- A copy comes to references of its template only. -/
theorem Expr.mem_references_of_mem_visits {e : Expr} {name : String} :
    ∀ {i j}, (name, j) ∈ e.visits f tape i → name ∈ e.references := by
  induction e with
  | var v => simp [visits]
  | number v => simp [visits]
  | boolean b => simp [visits]
  | random => simp [visits]
  | rule other => simp +contextual [visits]
  | abs a iha =>
      intro i j h
      rw [references_abs]
      exact iha h
  | arith op a b iha ihb =>
      intro i j h
      rw [references_arith, List.mem_append]
      rcases Drawing.mem_append_after h with h | ⟨k, h⟩
      · exact Or.inl (iha h)
      · exact Or.inr (ihb h)
  | ge a b iha ihb =>
      intro i j h
      rw [references_ge, List.mem_append]
      rcases Drawing.mem_append_after h with h | ⟨k, h⟩
      · exact Or.inl (iha h)
      · exact Or.inr (ihb h)
  | triple a b c iha ihb ihc =>
      intro i j h
      rw [references_triple, List.mem_append, List.mem_append]
      rcases Drawing.mem_append_after h with h | ⟨k, h⟩
      · exact Or.inl (iha h)
      · rcases Drawing.mem_append_after h with h | ⟨l, h⟩
        · exact Or.inr (Or.inl (ihb h))
        · exact Or.inr (Or.inr (ihc h))
  | cond test yes no iha ihb ihc =>
      intro i j h
      rw [references_cond, List.mem_append, List.mem_append]
      rcases Drawing.mem_append_after h with h | ⟨k, h⟩
      · exact Or.inl (iha h)
      · rcases Drawing.mem_append_after h with h | ⟨l, h⟩
        · exact Or.inr (Or.inl (ihb h))
        · exact Or.inr (Or.inr (ihc h))

/-- Sequences of equal parts run alike. -/
theorem Drawing.run_bind_congr {α β : Type} {d d' : Drawing α} {next next' : α → Drawing β}
    {i : Nat} (hd : d.run tape i = d'.run tape i)
    (hnext : ∀ a j, d.run tape i = (.ok a, j) → (next a).run tape j = (next' a).run tape j) :
    (d >>= next).run tape i = (d' >>= next').run tape i := by
  cases hrun : d.run tape i with
  | mk result j =>
      rw [hrun] at hd
      cases result with
      | error stop => rw [run_bind_of_error hrun, run_bind_of_error hd.symm]
      | ok a =>
          rw [run_bind_of_ok hrun, run_bind_of_ok hd.symm]
          exact hnext a j hrun

/-- **A COPY DEPENDS ON THE REFERENCES THAT IT COMES TO, AND ON NO OTHERS.** -/
theorem Expr.run_instantiate_congr {e : Expr} :
    ∀ {i}, (∀ name j, (name, j) ∈ e.visits f tape i → (f name).run tape j = (f' name).run tape j) →
      (e.instantiate f).run tape i = (e.instantiate f').run tape i := by
  induction e with
  | var v => exact fun _ => rfl
  | number v => exact fun _ => rfl
  | boolean b => exact fun _ => rfl
  | random => exact fun _ => rfl
  | rule name => exact fun h => h name _ (List.mem_singleton_self _)
  | abs a iha => exact fun h => Drawing.run_bind_congr (iha h) fun _ _ _ => rfl
  -- the later children are visited from where the earlier ones end
  | arith op a b iha ihb =>
      intro i h
      refine Drawing.run_bind_congr (iha fun name j hv => h name j (List.mem_append_left _ hv))
        fun t j ht => Drawing.run_bind_congr (ihb fun name k hv => h name k ?_) fun _ _ _ => rfl
      rw [visits, List.mem_append, Drawing.after_of_run ht]
      exact Or.inr hv
  | ge a b iha ihb =>
      intro i h
      refine Drawing.run_bind_congr (iha fun name j hv => h name j (List.mem_append_left _ hv))
        fun t j ht => Drawing.run_bind_congr (ihb fun name k hv => h name k ?_) fun _ _ _ => rfl
      rw [visits, List.mem_append, Drawing.after_of_run ht]
      exact Or.inr hv
  | triple a b c iha ihb ihc =>
      intro i h
      simp only [visits, List.mem_append] at h
      refine Drawing.run_bind_congr (iha fun name j hv => h name j (Or.inl hv)) fun t j ht => ?_
      simp only [Drawing.after_of_run ht, List.mem_append] at h
      refine Drawing.run_bind_congr (ihb fun name k hv => h name k (Or.inr (Or.inl hv)))
        fun u k hu => ?_
      simp only [Drawing.after_of_run hu] at h
      exact Drawing.run_bind_congr (ihc fun name l hv => h name l (Or.inr (Or.inr hv)))
        fun _ _ _ => rfl
  | cond test yes no iha ihb ihc =>
      intro i h
      simp only [visits, List.mem_append] at h
      refine Drawing.run_bind_congr (iha fun name j hv => h name j (Or.inl hv)) fun t j ht => ?_
      simp only [Drawing.after_of_run ht, List.mem_append] at h
      refine Drawing.run_bind_congr (ihb fun name k hv => h name k (Or.inr (Or.inl hv)))
        fun u k hu => ?_
      simp only [Drawing.after_of_run hu] at h
      exact Drawing.run_bind_congr (ihc fun name l hv => h name l (Or.inr (Or.inr hv)))
        fun _ _ _ => rfl

/-! ## §2. Decay and choice on any tape. -/

theorem le_of_run_decaySteps :
    ∀ {n i k j}, (decaySteps n).run tape i = (.ok k, j) → k ≤ n
  | 0, _, _, _, h => by
      obtain ⟨rfl, _⟩ := Drawing.run_pure_eq_ok.1 h
      exact Nat.le_refl 0
  | n + 1, i, k, j, h => by
      unfold decaySteps at h
      obtain ⟨roll, _, _, h⟩ := Drawing.run_bind_eq_ok.1 h
      split at h
      · obtain ⟨m, _, hm, h⟩ := Drawing.run_bind_eq_ok.1 h
        obtain ⟨rfl, _⟩ := Drawing.run_pure_eq_ok.1 h
        have hle := le_of_run_decaySteps hm
        omega
      · obtain ⟨rfl, _⟩ := Drawing.run_pure_eq_ok.1 h
        omega

/-- **A REFERENCE TAKES AT LEAST ONE FROM THE BUDGET**, and leaves no less than one
below the smaller of the budget and minus one. -/
theorem bounds_of_run_decay {budget left : Int} {i j : Nat}
    (h : (decay budget).run tape i = (.ok left, j)) :
    min budget (-1) - 1 ≤ left ∧ left < budget := by
  unfold decay at h
  obtain ⟨steps, k, hsteps, h⟩ := Drawing.run_bind_eq_ok.1 h
  obtain ⟨rfl, _⟩ := Drawing.run_pure_eq_ok.1 h
  have hle := le_of_run_decaySteps hsteps
  omega

/-- A spent budget takes the first branch. -/
theorem Branch.head?_of_run_select {rule : String} {branches : List Branch} {budget : Int}
    {i j : Nat} {b : Branch} (h : (Branch.select rule branches budget).run tape i = (.ok b, j))
    (hbudget : budget ≤ 0) : branches.head? = some b := by
  unfold Branch.select at h
  rw [if_pos hbudget] at h
  cases branches with
  | nil => cases h
  | cons first rest =>
      obtain ⟨rfl, _⟩ := Drawing.run_pure_eq_ok.1 h
      rfl

/-- A positive budget draws one word to take a branch. -/
theorem Branch.run_select_of_pick? {rule : String} {branches : List Branch} {budget : Int}
    {i : Nat} {w : UInt32} {b : Branch} (hbudget : 0 < budget) (htape : tape i = some w)
    (hpick : pick? branches (unitOfWord w) = some b) :
    (Branch.select rule branches budget).run tape i = (.ok b, i + 1) := by
  have hunit : Drawing.unit.run tape i = (.ok (unitOfWord w), i + 1) :=
    Drawing.run_bind_of_ok (Drawing.run_word_of_some htape)
  unfold Branch.select
  rw [if_neg (by omega), Drawing.run_bind_of_ok hunit, hpick]
  rfl

/-- A positive budget takes what the roll of the next word picks. -/
theorem Branch.exists_roll_of_run_select {rule : String} {branches : List Branch} {budget : Int}
    {i j : Nat} {b : Branch} (h : (Branch.select rule branches budget).run tape i = (.ok b, j))
    (hbudget : 0 < budget) : ∃ w, tape i = some w ∧ pick? branches (unitOfWord w) = some b := by
  unfold Branch.select at h
  rw [if_neg (by omega)] at h
  obtain ⟨roll, k, hroll, h⟩ := Drawing.run_bind_eq_ok.1 h
  obtain ⟨w, m, hword, hunit⟩ := Drawing.run_bind_eq_ok.1 hroll
  obtain ⟨htape, _⟩ := Drawing.run_word_eq_ok.1 hword
  obtain ⟨rfl, _⟩ := Drawing.run_pure_eq_ok.1 hunit
  cases hpick : pick? branches (unitOfWord w) with
  | none =>
      rw [hpick] at h
      cases h
  | some c =>
      rw [hpick] at h
      obtain ⟨rfl, _⟩ := Drawing.run_pure_eq_ok.1 h
      exact ⟨w, htape, hpick⟩

end

/-! ## §3. Calls. -/

/-- The expansion of a rule within a budget, from a position of the tape on. -/
structure Call where
  rule : String
  budget : Int
  position : Nat
  deriving DecidableEq, Repr

namespace Grammar

/-- What a reference that is met within a budget is replaced by. -/
def expandReference (g : Grammar) (budget : Int) (name : String) : Drawing Expr := do
  let left ← decay budget
  g.expandRule name left

/-- The outer call copies its branch up to a reference, and makes the inner call
for it after the decay of the budget. -/
def Calls (g : Grammar) (tape : Tape) (outer inner : Call) : Prop :=
  ∃ branches b i j, g.find? outer.rule = some branches
    ∧ (Branch.select outer.rule branches outer.budget).run tape outer.position = (.ok b, i)
    ∧ (inner.rule, j) ∈ b.template.visits (g.expandReference outer.budget) tape i
    ∧ (decay outer.budget).run tape j = (.ok inner.budget, inner.position)

/-- The second call stands in the first one, so many calls below it. -/
inductive Nests (g : Grammar) (tape : Tape) (outer : Call) : Nat → Call → Prop
  | self : Nests g tape outer 0 outer
  | call {depth : Nat} {middle inner : Call} (hmiddle : Nests g tape outer depth middle)
      (hcall : g.Calls tape middle inner) : Nests g tape outer (depth + 1) inner

/-- **AN EXPANSION IS A COPY OF ITS BRANCH WITH EXPANDED REFERENCES.**  The limits
on nesting, which differ from call to call, make no difference. -/
theorem run_expandRule_eq {g : Grammar} (hg : g.Trusted) {rule : String} {branches : List Branch}
    (hfind : g.find? rule = some branches) (budget : Int) (word : Nat → UInt32) (i : Nat) :
    (g.expandRule rule budget).run (Tape.endless word) i
      = (Branch.select rule branches budget >>= fun b =>
          b.template.instantiate (g.expandReference budget)).run (Tape.endless word) i := by
  unfold expandRule nestingLimit
  rw [expandWithin, hfind]
  refine Drawing.run_bind_congr rfl fun b j hselect => ?_
  apply Expr.run_instantiate_congr
  intro name k hvisit
  refine Drawing.run_bind_congr rfl fun left l hdecay => ?_
  -- the smaller of two limits suffices for the reference, so both give one run
  have hname := Expr.mem_references_of_mem_visits hvisit
  have hknown := (hg.sound rule branches hfind).references b (Branch.mem_of_run_select hselect)
    name hname
  have hleft := (bounds_of_run_decay hdecay).2
  obtain ⟨t, m, hrun, _⟩ := delivers_expandWithin hg word _ name left hknown
    (affords_nestingLimit hg hknown left) l
  have haffords : g.Affords (budget.toNat + g.size + 1) rule budget :=
    affords_nestingLimit hg (contains_iff.2 ⟨branches, hfind⟩) budget
  obtain ⟨u, n, hrun', _⟩ := delivers_expandWithin hg word _ name left hknown
    (haffords.reference hg hfind (Branch.head?_of_run_select hselect) hname hknown hleft) l
  unfold expandRule
  rcases Nat.le_total (g.nestingLimit left) (budget.toNat + g.size) with hle | hle
  · rw [hrun, (g.expandWithin_extendedBy name left hle).run_eq_ok hrun]
  · rw [hrun', (g.expandWithin_extendedBy name left hle).run_eq_ok hrun']

end Grammar

end ArtGrammar
