/-
  ArtGrammar.Proofs.Synthesis.Unfolding
  ────────────────────────────────
  **A SPENT BUDGET UNFOLDS FIRST BRANCHES, WHATEVER IS DRAWN.**

  The UNFOLDING of a rule is the template of its first branch with the unfoldings
  of the rules it refers to; `random` nodes stay.  A rule has at most one:

      Unfolds         the unfolding, by the rules of the grammar
      unfoldWithin    the unfolding up to a nesting limit, or what stops it
      FollowsAt       a run that ends as an outcome without draws says

  Either there is an unfolding, or a rule that is missing or empty stops it, or it
  goes on forever.  Which of these it is shows when one more rule is nested than
  the grammar has.  Within a spent budget an expansion follows the unfolding; what
  is drawn fills the `random` nodes, and otherwise only counts:

      budget < 0    one word for each `random` node of the unfolding, in pre-order
      budget = 0    the same, and one word for each reference of the first branch

  Within 32 bits this holds of every expansion that returns before a reference is met
  within the least budget.
-/
import ArtGrammar.Proofs.Expr.Substitution
import ArtGrammar.Proofs.Synthesis.Overflow

namespace ArtGrammar

namespace Grammar

/-! ## §1. Unfoldings. -/

/-- The tree is the template of the first branch of the rule, with the unfolding of
its rule in place of each reference. -/
inductive Unfolds (g : Grammar) : String → Expr → Prop
  | first {name : String} {b : Branch} {rest : List Branch} (f : String → Expr)
      (hfind : g.find? name = some (b :: rest))
      (hinner : ∀ inner ∈ b.template.references, Unfolds g inner (f inner)) :
      Unfolds g name (b.template.substitute f)

/-- The unfolding of a rule, with at most `limit` rules nested, or what stops it. -/
def unfoldWithin (g : Grammar) : Nat → String → Except Halt Expr
  | 0, _ => .error .unfinished
  | limit + 1, name =>
    match g.find? name with
    | none => .error (.fault (.unknownRule name))
    | some [] => .error (.fault (.grammar (.noBranches name)))
    | some (b :: _) => b.template.trySubstitute (g.unfoldWithin limit)

variable {g : Grammar}

theorem unfoldWithin_of_first {name : String} {b : Branch} {rest : List Branch}
    (hfind : g.find? name = some (b :: rest)) (limit : Nat) :
    g.unfoldWithin (limit + 1) name = b.template.trySubstitute (g.unfoldWithin limit) := by
  rw [unfoldWithin, hfind]

theorem unfoldWithin_extended_succ :
    ∀ limit name, Expr.Extended .unfinished (g.unfoldWithin limit name)
      (g.unfoldWithin (limit + 1) name) := by
  intro limit
  induction limit with
  | zero => exact fun name h => absurd rfl h
  | succ limit ih =>
      intro name
      unfold unfoldWithin
      split
      · exact Expr.Extended.refl _
      · exact Expr.Extended.refl _
      · exact Expr.extended_trySubstitute _ fun inner _ => ih inner

/-- A larger limit changes nothing but being cut off. -/
theorem unfoldWithin_extended {limit limit' : Nat} (h : limit ≤ limit') (name : String) :
    Expr.Extended .unfinished (g.unfoldWithin limit name) (g.unfoldWithin limit' name) := by
  induction h with
  | refl => exact Expr.Extended.refl _
  | step _ ih =>
      intro hcut
      have hsame := ih hcut
      rw [← hsame] at hcut
      exact (unfoldWithin_extended_succ _ name hcut).trans hsame

/-- What a limit finds is the unfolding. -/
theorem unfolds_of_unfoldWithin :
    ∀ limit name u, g.unfoldWithin limit name = .ok u → g.Unfolds name u := by
  intro limit
  induction limit with
  | zero =>
      intro name u h
      cases h
  | succ limit ih =>
      intro name u h
      unfold unfoldWithin at h
      split at h
      · cases h
      · cases h
      next b rest hfind =>
        obtain ⟨f, hf, rfl⟩ := Expr.exists_of_trySubstitute_eq_ok h
        exact .first f hfind fun inner hinner => ih inner _ (hf inner hinner)

/-- An unfolding is found within some limit. -/
theorem Unfolds.exists_limit {name : String} {u : Expr} (h : g.Unfolds name u) :
    ∃ limit, g.unfoldWithin limit name = .ok u := by
  induction h with
  | @first name b rest f hfind _ ih =>
      -- the greatest of the limits of the references is enough for all of them
      have hcommon : ∃ limit, ∀ inner ∈ b.template.references,
          g.unfoldWithin limit inner = .ok (f inner) := by
        generalize b.template.references = names at ih
        induction names with
        | nil => exact ⟨0, by simp⟩
        | cons inner names ihnames =>
            obtain ⟨n, hn⟩ := ih inner List.mem_cons_self
            obtain ⟨m, hm⟩ := ihnames fun other h => ih other (List.mem_cons_of_mem inner h)
            refine ⟨max n m, List.forall_mem_cons.2 ⟨?_, fun other h => ?_⟩⟩
            · rw [unfoldWithin_extended (Nat.le_max_left n m) inner (by simp [hn]), hn]
            · rw [unfoldWithin_extended (Nat.le_max_right n m) other (by simp [hm other h]),
                hm other h]
      obtain ⟨limit, hlimit⟩ := hcommon
      exact ⟨limit + 1, by
        rw [unfoldWithin_of_first hfind, Expr.trySubstitute_of_ok _ hlimit]⟩

/-- The unfolding of the name, or what stops it, needs exactly `depth` rules nested
below the name. -/
def SettlesAt (g : Grammar) (depth : Nat) (name : String) : Prop :=
  g.unfoldWithin depth name = .error .unfinished
    ∧ g.unfoldWithin (depth + 1) name ≠ .error .unfinished

theorem SettlesAt.unique {depth depth' : Nat} {name : String} (h : g.SettlesAt depth name)
    (h' : g.SettlesAt depth' name) : depth = depth' := by
  have hle : ∀ {n m : Nat}, g.SettlesAt n name → g.SettlesAt m name → m ≤ n := by
    intro n m hn hm
    by_contra hlt
    have hsame := unfoldWithin_extended (g := g) (show n + 1 ≤ m by omega) name hn.2
    exact hn.2 (by rw [← hsame, hm.1])
  exact Nat.le_antisymm (hle h' h) (hle h h')

/-- A name that needs rules below it has a first branch, and a reference there needs
one rule less. -/
theorem SettlesAt.exists_reference {depth : Nat} {name : String}
    (h : g.SettlesAt (depth + 1) name) :
    ∃ b rest, g.find? name = some (b :: rest)
      ∧ ∃ inner ∈ b.template.references, g.SettlesAt depth inner := by
  obtain ⟨hcut, hsettled⟩ := h
  match hfind : g.find? name with
  | none => simp [unfoldWithin, hfind] at hcut
  | some [] => simp [unfoldWithin, hfind] at hcut
  | some (b :: rest) =>
      refine ⟨b, rest, rfl, ?_⟩
      rw [unfoldWithin_of_first hfind] at hcut hsettled
      by_contra hnone
      -- otherwise the smaller limit does for all references what the larger one does
      have hsame : b.template.trySubstitute (g.unfoldWithin depth)
          = b.template.trySubstitute (g.unfoldWithin (depth + 1)) := by
        refine Expr.extended_trySubstitute b.template (fun inner hinner hne => ?_) hsettled
        have hearlier : g.unfoldWithin depth inner ≠ .error .unfinished :=
          fun hunfinished => hnone ⟨inner, hinner, hunfinished, hne⟩
        exact (unfoldWithin_extended_succ depth inner hearlier).symm
      exact hsettled (by rw [← hsame, hcut])

/-- Below a name that needs so many rules stand so many different ones. -/
theorem SettlesAt.exists_names :
    ∀ {depth : Nat} {name : String}, g.SettlesAt depth name →
      ∃ names : List String, names.length = depth ∧ names.Nodup
        ∧ ∀ other ∈ names, other ∈ g.names ∧ ∃ m ≤ depth, g.SettlesAt m other := by
  intro depth
  induction depth with
  | zero => exact fun _ => ⟨[], rfl, List.nodup_nil, by simp⟩
  | succ depth ih =>
      intro name h
      obtain ⟨b, rest, hfind, inner, _, hinner⟩ := h.exists_reference
      obtain ⟨names, hlength, hnodup, hnames⟩ := ih hinner
      refine ⟨name :: names, by rw [List.length_cons, hlength],
        List.nodup_cons.2 ⟨fun hmem => ?_, hnodup⟩, List.forall_mem_cons.2 ⟨⟨?_, ?_⟩, ?_⟩⟩
      · -- the names below need fewer rules
        obtain ⟨_, m, hm, hsettles⟩ := hnames name hmem
        have heq := hsettles.unique h
        omega
      · exact List.mem_map_of_mem (find?_eq_some_iff.1 hfind)
      · exact ⟨depth + 1, Nat.le_refl _, h⟩
      · intro other hother
        obtain ⟨hmem, m, hm, hsettles⟩ := hnames other hother
        exact ⟨hmem, m, by omega, hsettles⟩

theorem SettlesAt.le_size {depth : Nat} {name : String} (h : g.SettlesAt depth name) :
    depth ≤ g.size := by
  obtain ⟨names, rfl, hnodup, hnames⟩ := h.exists_names
  have hsub : names ⊆ g.names := fun other hother => (hnames other hother).1
  have hle := (hnodup.subperm hsub).length_le
  rwa [Grammar.names, List.length_map] at hle

/-- **NO LIMIT FINDS MORE THAN THAT OF ONE MORE RULE THAN THE GRAMMAR HAS.** -/
theorem unfoldWithin_extended_size (limit : Nat) (name : String) :
    Expr.Extended .unfinished (g.unfoldWithin limit name) (g.unfoldWithin (g.size + 1) name) := by
  induction limit with
  | zero => exact fun h => absurd rfl h
  | succ limit ih =>
      intro hsettled
      by_cases hcut : g.unfoldWithin limit name = .error .unfinished
      · have hle := SettlesAt.le_size ⟨hcut, hsettled⟩
        exact unfoldWithin_extended (by omega) name hsettled
      · rw [ih hcut, unfoldWithin_extended_succ limit name hcut]

theorem unfolds_iff {name : String} {u : Expr} :
    g.Unfolds name u ↔ g.unfoldWithin (g.size + 1) name = .ok u := by
  constructor
  · intro h
    obtain ⟨limit, hlimit⟩ := h.exists_limit
    rw [unfoldWithin_extended_size limit name (by simp [hlimit]), hlimit]
  · exact unfolds_of_unfoldWithin _ name u

/-- A rule has at most one unfolding. -/
theorem Unfolds.unique {name : String} {u u' : Expr} (h : g.Unfolds name u)
    (h' : g.Unfolds name u') : u = u' := by
  have heq := (unfolds_iff.1 h).symm.trans (unfolds_iff.1 h')
  exact Except.ok.inj heq

end Grammar

/-! ## §3. Runs that follow an outcome. -/

section
variable {α β γ δ : Type} {word : Nat → UInt32}

/-- From the position on, the computation ends as the outcome says: with an error of
the outcome, or with an answer that is related to that of the outcome. -/
def Drawing.FollowsAt (word : Nat → UInt32) (i : Nat) (d : Drawing α) (outcome : Except Halt β)
    (Related : β → α → Nat → Prop) : Prop :=
  match outcome with
  | .ok u => ∃ t j, d.run (Tape.endless word) i = (.ok t, j) ∧ Related u t j
  | .error stop => ∃ j, d.run (Tape.endless word) i = (.error stop, j)

theorem Drawing.followsAt_pure {i : Nat} {t : α} {u : β} {Related : β → α → Nat → Prop}
    (h : Related u t i) : (pure t : Drawing α).FollowsAt word i (.ok u) Related :=
  ⟨t, i, rfl, h⟩

theorem Drawing.followsAt_halt {i : Nat} {stop : Halt} {Related : β → α → Nat → Prop} :
    (halt stop : Drawing α).FollowsAt word i (.error stop) Related :=
  ⟨i, rfl⟩

/-- A sequence follows the sequence of the outcomes. -/
theorem Drawing.FollowsAt.bind {i : Nat} {d : Drawing α} {outcome : Except Halt β}
    {next : α → Drawing γ} {nextOutcome : β → Except Halt δ} {Related : β → α → Nat → Prop}
    {Related' : δ → γ → Nat → Prop} (hd : d.FollowsAt word i outcome Related)
    (hnext : ∀ u t j, Related u t j → (next t).FollowsAt word j (nextOutcome u) Related') :
    (d >>= next).FollowsAt word i (outcome >>= nextOutcome) Related' := by
  cases outcome with
  | error stop =>
      obtain ⟨j, hrun⟩ := hd
      exact ⟨j, run_bind_of_error hrun⟩
  | ok u =>
      obtain ⟨t, j, hrun, ht⟩ := hd
      have hrest := hnext u t j ht
      show FollowsAt word i (d >>= next) (nextOutcome u) Related'
      unfold FollowsAt at hrest ⊢
      rw [run_bind_of_ok hrun]
      exact hrest

/-- What is done before, and finishes, only moves the position. -/
theorem Drawing.FollowsAt.after {i j : Nat} {d : Drawing α} {a : α} {next : α → Drawing γ}
    {outcome : Except Halt δ} {Related : δ → γ → Nat → Prop}
    (hnext : (next a).FollowsAt word j outcome Related)
    (hrun : d.run (Tape.endless word) i = (.ok a, j)) :
    (d >>= next).FollowsAt word i outcome Related := by
  unfold FollowsAt at hnext ⊢
  rw [run_bind_of_ok hrun]
  exact hnext

theorem Drawing.FollowsAt.mono {i : Nat} {d : Drawing α} {outcome : Except Halt β}
    {Related Related' : β → α → Nat → Prop} (hd : d.FollowsAt word i outcome Related)
    (h : ∀ u t j, Related u t j → Related' u t j) : d.FollowsAt word i outcome Related' := by
  cases outcome with
  | error stop => exact hd
  | ok u =>
      obtain ⟨t, j, hrun, ht⟩ := hd
      exact ⟨t, j, hrun, h u t j ht⟩

/-- The errors are those of the outcome. -/
theorem Drawing.FollowsAt.error_iff {i : Nat} {d : Drawing α} {outcome : Except Halt β}
    {Related : β → α → Nat → Prop} (hd : d.FollowsAt word i outcome Related) (stop : Halt) :
    (d.run (Tape.endless word) i).1 = .error stop ↔ outcome = .error stop := by
  cases outcome with
  | error other =>
      obtain ⟨j, hrun⟩ := hd
      rw [hrun, Except.error.injEq, Except.error.injEq]
  | ok u =>
      obtain ⟨t, j, hrun, _⟩ := hd
      rw [hrun]
      simp

end

/-! ## §4. Templates. -/

/-- The tree has drawn fractions in place of the `random` nodes of the other, and so
many words more were drawn than it has such nodes; if none were, the words from the
position on stand in it in pre-order. -/
structure Expr.Filled (word : Nat → UInt32) (extra i : Nat) (u t : Expr) (j : Nat) : Prop where
  count : j = i + u.randomCount + extra
  fractions : u.Instance (fun _ _ => False) t
  exact : extra = 0 → t = u.resolve (fun k => signedOfWord (word k)) i

namespace Expr

variable {word : Nat → UInt32}

/-- Words passed before count as drawn in addition. -/
theorem Filled.of_later {passed i j : Nat} {u t : Expr} (h : Filled word 0 (i + passed) u t j) :
    Filled word passed i u t j := by
  refine ⟨by have := h.count; omega, h.fractions, fun hpassed => ?_⟩
  subst hpassed
  exact h.exact rfl

theorem Filled.end_eq {extra i j : Nat} {u t : Expr} (h : Filled word extra i u t j)
    (hextra : extra = 0) : j = i + u.randomCount := by
  rw [h.count, hextra, Nat.add_zero]

/-- **A COPY FOLLOWS THE SUBSTITUTION**, if expanded references follow their trees, each
with so many words in addition. -/
theorem followsAt_instantiate {f : String → Drawing Expr} {outcome : String → Except Halt Expr}
    {extra : Nat} (e : Expr) :
    (∀ name ∈ e.references, ∀ i,
        (f name).FollowsAt word i (outcome name) (Filled word extra i)) →
      ∀ i, (e.instantiate f).FollowsAt word i (e.trySubstitute outcome)
        (Filled word (extra * e.references.length) i) := by
  induction e with
  | var v => exact fun _ i => Drawing.followsAt_pure ⟨rfl, .var v, fun _ => rfl⟩
  | number v => exact fun _ i => Drawing.followsAt_pure ⟨rfl, .number v, fun _ => rfl⟩
  | boolean b => exact fun _ i => Drawing.followsAt_pure ⟨rfl, .boolean b, fun _ => rfl⟩
  | random =>
      intro _ i
      refine ⟨.number (signedOfWord (word i)), i + 1, rfl, rfl, ?_, fun _ => rfl⟩
      have htop := topBits_lt (word i)
      rw [signedOfWord_eq]
      exact .random _ (by omega) (by omega)
  | rule name =>
      intro hrefs i
      rw [references_rule, List.length_singleton, Nat.mul_one]
      exact hrefs name (List.mem_singleton_self name) i
  -- children are copied from left to right, each from where the last one ended
  | abs a iha =>
      intro hrefs i
      refine (iha hrefs i).bind fun u t j ht => Drawing.followsAt_pure ⟨?_, ?_, ?_⟩
      · rw [randomCount_abs]
        exact ht.count
      · exact .abs ht.fractions
      · intro hextra
        rw [ht.exact hextra]
        rfl
  | arith op a b iha ihb =>
      intro hrefs i
      simp only [references_arith, List.forall_mem_append] at hrefs
      rw [references_arith, List.length_append, Nat.mul_add]
      refine (iha hrefs.1 i).bind fun u t j ht => (ihb hrefs.2 j).bind fun v s k hs =>
        Drawing.followsAt_pure ⟨?_, ?_, ?_⟩
      · rw [randomCount_arith, hs.count, ht.count]
        omega
      · exact .arith op ht.fractions hs.fractions
      · intro hextra
        rw [ht.exact (by omega), hs.exact (by omega), ht.end_eq (by omega)]
        rfl
  | ge a b iha ihb =>
      intro hrefs i
      simp only [references_ge, List.forall_mem_append] at hrefs
      rw [references_ge, List.length_append, Nat.mul_add]
      refine (iha hrefs.1 i).bind fun u t j ht => (ihb hrefs.2 j).bind fun v s k hs =>
        Drawing.followsAt_pure ⟨?_, ?_, ?_⟩
      · rw [randomCount_ge, hs.count, ht.count]
        omega
      · exact .ge ht.fractions hs.fractions
      · intro hextra
        rw [ht.exact (by omega), hs.exact (by omega), ht.end_eq (by omega)]
        rfl
  | triple a b c iha ihb ihc =>
      intro hrefs i
      simp only [references_triple, List.forall_mem_append] at hrefs
      rw [references_triple, List.length_append, List.length_append, Nat.mul_add, Nat.mul_add]
      refine (iha hrefs.1 i).bind fun u t j ht => (ihb hrefs.2.1 j).bind fun v s k hs =>
        (ihc hrefs.2.2 k).bind fun w r l hr => Drawing.followsAt_pure ⟨?_, ?_, ?_⟩
      · rw [randomCount_triple, hr.count, hs.count, ht.count]
        omega
      · exact .triple ht.fractions hs.fractions hr.fractions
      · intro hextra
        rw [ht.exact (by omega), hs.exact (by omega), hr.exact (by omega), hs.end_eq (by omega),
          ht.end_eq (by omega)]
        rfl
  | cond test yes no iha ihb ihc =>
      intro hrefs i
      simp only [references_cond, List.forall_mem_append] at hrefs
      rw [references_cond, List.length_append, List.length_append, Nat.mul_add, Nat.mul_add]
      refine (iha hrefs.1 i).bind fun u t j ht => (ihb hrefs.2.1 j).bind fun v s k hs =>
        (ihc hrefs.2.2 k).bind fun w r l hr => Drawing.followsAt_pure ⟨?_, ?_, ?_⟩
      · rw [randomCount_cond, hr.count, hs.count, ht.count]
        omega
      · exact .cond ht.fractions hs.fractions hr.fractions
      · intro hextra
        rw [ht.exact (by omega), hs.exact (by omega), hr.exact (by omega), hs.end_eq (by omega),
          ht.end_eq (by omega)]
        rfl

end Expr

/-! ## §5. Rules within a spent budget. -/

section
variable {word : Nat → UInt32}

/-- Within a budget of zero a reference draws one word, and within a smaller one
none; in both cases a negative budget is left. -/
theorem exists_run_decay_of_spent (word : Nat → UInt32) {budget : Int} (hbudget : budget ≤ 0)
    (i : Nat) :
    ∃ left < 0, (decay budget).run (Tape.endless word) i
      = (.ok left, i + if budget < 0 then 0 else 1) := by
  obtain ⟨k, h⟩ := exists_leads (fun n => word (i + n)) (budget + 1).toNat
  have hrun : (decay budget).run (Tape.endless word) i = _ := h.run_decay fun _ _ => rfl
  -- one word is all that counts, whether or not it is a leading one
  have hdraws : (if k < (budget + 1).toNat then k + 1 else (budget + 1).toNat)
      = if budget < 0 then 0 else 1 := by
    have hle := h.le_most
    split <;> split <;> omega
  rw [hdraws] at hrun
  exact ⟨budget - 1 - k, by omega, hrun⟩

namespace Grammar

variable {g : Grammar}

/-- What the references in the first branch of a rule draw by themselves. -/
def decayDraws (g : Grammar) (name : String) (budget : Int) : Nat :=
  if budget < 0 then 0 else (Rule.firstReferences ⟨name, (g.find? name).getD []⟩).length

/-- **WITHIN A SPENT BUDGET AN EXPANSION FOLLOWS THE UNFOLDING.** -/
theorem followsAt_expandWithin (g : Grammar) (word : Nat → UInt32) :
    ∀ limit name budget, budget ≤ 0 → ∀ i,
      (g.expandWithin limit name budget).FollowsAt word i (g.unfoldWithin limit name)
        (Expr.Filled word (g.decayDraws name budget) i) := by
  intro limit
  induction limit with
  | zero => exact fun name budget _ i => Drawing.followsAt_halt
  | succ limit ih =>
      intro name budget hbudget i
      unfold expandWithin unfoldWithin
      cases hfind : g.find? name with
      | none => exact Drawing.followsAt_halt
      | some branches =>
          cases branches with
          | nil =>
              refine ⟨i, Drawing.run_bind_of_error ?_⟩
              unfold Branch.select
              rw [if_pos hbudget]
              rfl
          | cons b rest =>
              have hselect : (Branch.select name (b :: rest) budget).run (Tape.endless word) i
                  = (.ok b, i) := by
                unfold Branch.select
                rw [if_pos hbudget]
                rfl
              refine Drawing.FollowsAt.after ?_ hselect
              -- below the rule the budget is negative, so references draw nothing there
              have hreference : ∀ inner ∈ b.template.references, ∀ k,
                  (decay budget >>= fun left => g.expandWithin limit inner left).FollowsAt word k
                    (g.unfoldWithin limit inner)
                    (Expr.Filled word (if budget < 0 then 0 else 1) k) := by
                intro inner _ k
                obtain ⟨left, hleft, hrun⟩ := exists_run_decay_of_spent word hbudget k
                have hinner := ih inner left (by omega) (k + if budget < 0 then 0 else 1)
                have hnone : g.decayDraws inner left = 0 := if_pos hleft
                rw [hnone] at hinner
                exact (hinner.mono fun u t j ht => ht.of_later).after hrun
              have hcopy := Expr.followsAt_instantiate b.template hreference i
              have hdraws : (if budget < 0 then 0 else 1) * b.template.references.length
                  = g.decayDraws name budget := by
                unfold decayDraws
                rw [hfind]
                split
                · exact Nat.zero_mul _
                · exact Nat.one_mul _
              rw [hdraws] at hcopy
              exact hcopy

theorem nestingLimit_of_spent {budget : Int} (hbudget : budget ≤ 0) :
    g.nestingLimit budget = g.size + 1 := by
  unfold nestingLimit
  omega

/-- **A LIMIT CAN ONLY CUT OFF** an expansion within a spent budget. -/
theorem run_expandRule_of_spent {name : String} {budget : Int} (hbudget : budget ≤ 0)
    {limit i j : Nat} {result : Except Halt Expr}
    (hrun : (g.expandWithin limit name budget).run (Tape.endless word) i = (result, j))
    (hresult : result ≠ .error .unfinished) :
    (g.expandRule name budget).run (Tape.endless word) i = (result, j) := by
  have hcut := fun limit =>
    (followsAt_expandWithin g word limit name budget hbudget i).error_iff .unfinished
  unfold expandRule
  rcases Nat.le_total limit (g.nestingLimit budget) with hle | hle
  · exact ((g.expandWithin_extendedBy name budget hle).extendedAt _ i).run_eq_of_ne hrun hresult
  · -- the smaller limit settles the unfolding, so it does not cut off either
    rcases g.expandWithin_extendedBy name budget hle (Tape.endless word) i with h | h
    · rw [hcut, nestingLimit_of_spent hbudget] at h
      have hsettled : g.unfoldWithin limit name ≠ .error .unfinished := by
        rw [Ne, ← hcut, hrun]
        exact hresult
      rw [unfoldWithin_extended_size limit name hsettled] at h
      exact absurd h hsettled
    · rw [h, hrun]

/-! ## §6. Rules within a spent budget of 32 bits. -/

section
variable {name : String} {budget : Int32} {i j : Nat} {result : Except Halt Expr}

end

end Grammar

end

end ArtGrammar
