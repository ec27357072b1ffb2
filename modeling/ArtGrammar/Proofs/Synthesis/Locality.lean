/-
  ArtGrammar.Proofs.Synthesis.Locality
  ────────────────────────────────
  **AN EXPANSION DEPENDS ON THE RULES IT CAN REACH AND THE WORDS IT DRAWS.**

  Three independences, each of its own:

      words     a computation draws words one after the other, and another tape
                with these words gives the same run            (`Local`)
      rules     a rule that no chain of references from the start leads to is
                never looked up                                (`Refers`)
      limits    a limit can cut an expansion off, and does nothing else; so it
                makes no difference that another grammar has more or fewer rules
                and therefore another limit
-/
import ArtGrammar.Proofs.Grammar.Assembly
import ArtGrammar.Proofs.Synthesis.Unfolding
import Mathlib.Logic.Relation

namespace ArtGrammar

/-! ## §1. Words. -/

/-- From every position of an endless tape, the computation draws some number of
words, and does the same wherever these words stand. -/
def Drawing.Local {α : Type} (d : Drawing α) : Prop :=
  ∀ word i, ∃ k, (d.run (Tape.endless word) i).2 = i + k
    ∧ ∀ word' i', (∀ n < k, word' (i' + n) = word (i + n)) →
        d.run (Tape.endless word') i' = ((d.run (Tape.endless word) i).1, i' + k)

namespace Drawing

variable {α β : Type}

theorem local_pure (a : α) : (pure a : Drawing α).Local :=
  fun _ _ => ⟨0, rfl, fun _ _ _ => rfl⟩

theorem local_halt (stop : Halt) : (halt stop : Drawing α).Local :=
  fun _ _ => ⟨0, rfl, fun _ _ _ => rfl⟩

theorem local_word : word.Local := by
  intro word i
  refine ⟨1, rfl, fun word' i' hwords => ?_⟩
  have hword : word' i' = word i := hwords 0 Nat.one_pos
  show (Except.ok (word' i'), i' + 1) = _
  rw [hword]
  rfl

/-- **A SEQUENCE DRAWS THE WORDS OF ITS PARTS**, the second part from where the first
has ended. -/
theorem Local.bind {d : Drawing α} {next : α → Drawing β} (hd : d.Local)
    (hnext : ∀ a, (next a).Local) : (d >>= next).Local := by
  intro word i
  obtain ⟨k, hend, hd⟩ := hd word i
  cases hrun : d.run (Tape.endless word) i with
  | mk result j =>
      rw [hrun] at hend hd
      change j = i + k at hend
      subst hend
      cases result with
      | error stop =>
          rw [run_bind_of_error hrun]
          refine ⟨k, rfl, fun word' i' hwords => ?_⟩
          exact run_bind_of_error (hd word' i' hwords)
      | ok a =>
          rw [run_bind_of_ok hrun]
          obtain ⟨l, hend, hrest⟩ := hnext a word (i + k)
          refine ⟨k + l, by rw [hend, Nat.add_assoc], fun word' i' hwords => ?_⟩
          have hfirst := hd word' i' fun n hn => hwords n (by omega)
          have hsecond := hrest word' (i' + k) fun n hn => by
            have hword := hwords (k + n) (by omega)
            rwa [← Nat.add_assoc, ← Nat.add_assoc] at hword
          rw [run_bind_of_ok hfirst, hsecond, Nat.add_assoc]

theorem Local.map {d : Drawing α} (hd : d.Local) (f : α → β) :
    (d >>= fun a => pure (f a)).Local := hd.bind fun a => local_pure (f a)

theorem local_unit : unit.Local := local_word.map unitOfWord

theorem local_signed : signed.Local := local_word.map signedOfWord

end Drawing

theorem local_decaySteps : ∀ n, (decaySteps n).Local
  | 0 => Drawing.local_pure 0
  | n + 1 => by
      unfold decaySteps
      apply Drawing.local_unit.bind
      intro roll
      split
      · exact (local_decaySteps n).map (· + 1)
      · exact Drawing.local_pure 0

theorem local_decay (budget : Int) : (decay budget).Local := (local_decaySteps _).map _

theorem Branch.local_select (rule : String) (branches : List Branch) (budget : Int) :
    (Branch.select rule branches budget).Local := by
  unfold Branch.select
  split
  · cases branches with
    | nil => exact Drawing.local_halt _
    | cons b rest => exact Drawing.local_pure b
  · apply Drawing.local_unit.bind
    intro roll
    cases pick? branches roll with
    | none => exact Drawing.local_halt _
    | some b => exact Drawing.local_pure b

/-- A copy is local if the copies in place of its references are. -/
theorem Expr.local_instantiate {f : String → Drawing Expr} (h : ∀ name, (f name).Local)
    (e : Expr) : (e.instantiate f).Local := by
  induction e with
  | var v => exact Drawing.local_pure _
  | number v => exact Drawing.local_pure _
  | boolean b => exact Drawing.local_pure _
  | random => exact Drawing.local_signed.map _
  | rule name => exact h name
  | abs a iha => exact iha.map _
  | arith op a b iha ihb => exact iha.bind fun _ => ihb.map _
  | ge a b iha ihb => exact iha.bind fun _ => ihb.map _
  | triple a b c iha ihb ihc => exact iha.bind fun _ => ihb.bind fun _ => ihc.map _
  | cond a b c iha ihb ihc => exact iha.bind fun _ => ihb.bind fun _ => ihc.map _

namespace Grammar

variable {g h : Grammar}

/-- **AN EXPANSION IS LOCAL**: it depends on the words it draws, and on no others. -/
theorem local_expandWithin (g : Grammar) :
    ∀ limit rule budget, (g.expandWithin limit rule budget).Local := by
  intro limit
  induction limit with
  | zero => exact fun rule budget => Drawing.local_halt _
  | succ limit ih =>
      intro rule budget
      unfold expandWithin
      cases g.find? rule with
      | none => exact Drawing.local_halt _
      | some branches =>
          refine (Branch.local_select rule branches budget).bind fun b => ?_
          apply Expr.local_instantiate
          intro name
          exact (local_decay budget).bind fun left => ih name left

/-! ## §2. Rules. -/

/-- Some branch of the first rule refers to the second. -/
def Refers (g : Grammar) (rule inner : String) : Prop :=
  ∃ branches, g.find? rule = some branches ∧ ∃ b ∈ branches, inner ∈ b.template.references

/-- The other grammar has the same branches, or no rule either, under every name that
references lead to from the start. -/
def AgreesFrom (g : Grammar) (start : String) (h : Grammar) : Prop :=
  ∀ name, Relation.ReflTransGen g.Refers start name → h.find? name = g.find? name

theorem AgreesFrom.find?_eq {start : String} (hagree : g.AgreesFrom start h) :
    h.find? start = g.find? start := hagree start .refl

theorem AgreesFrom.reference {start inner : String} (hagree : g.AgreesFrom start h)
    (hrefers : g.Refers start inner) : g.AgreesFrom inner h :=
  fun name hname => hagree name (.head hrefers hname)

/-- **RULES THAT CANNOT BE REACHED MAKE NO DIFFERENCE.** -/
theorem AgreesFrom.run_expandWithin (tape : Tape) :
    ∀ limit start budget i, g.AgreesFrom start h →
      (h.expandWithin limit start budget).run tape i
        = (g.expandWithin limit start budget).run tape i := by
  intro limit
  induction limit with
  | zero => exact fun start budget i _ => rfl
  | succ limit ih =>
      intro start budget i hagree
      unfold expandWithin
      rw [hagree.find?_eq]
      cases hfind : g.find? start with
      | none => rfl
      | some branches =>
          refine Drawing.run_bind_congr rfl fun b j hselect => ?_
          apply Expr.run_instantiate_congr
          intro name k hvisit
          have hrefers : g.Refers start name :=
            ⟨branches, hfind, b, Branch.mem_of_run_select hselect,
              Expr.mem_references_of_mem_visits hvisit⟩
          exact Drawing.run_bind_congr rfl fun left l _ =>
            ih name left l (hagree.reference hrefers)

/-! ## §3. Limits. -/

/-- **A LIMIT CAN CUT AN EXPANSION OFF, AND DOES NOTHING ELSE.**  Whatever the limit,
an expansion that it does not cut off is the expansion of the rule. -/
theorem expandWithin_extendedAt_expandRule (g : Grammar) (word : Nat → UInt32) :
    ∀ limit rule budget i, (g.expandWithin limit rule budget).ExtendedAt .unfinished
      (Tape.endless word) i (g.expandRule rule budget) := by
  intro limit
  induction limit with
  | zero => exact fun rule budget i => Or.inl rfl
  | succ limit ih =>
      intro rule budget i
      by_cases hspent : budget ≤ 0
      · by_cases hcut : ((g.expandWithin (limit + 1) rule budget).run (Tape.endless word) i).1
            = .error .unfinished
        · exact Or.inl hcut
        · exact Or.inr (run_expandRule_of_spent hspent rfl hcut).symm
      · -- a reference has a smaller budget, so its limit is no more than what is left here
        unfold expandRule nestingLimit expandWithin
        cases g.find? rule with
        | none => exact Drawing.ExtendedAt.refl _ _ _
        | some branches =>
            refine (Drawing.ExtendedAt.refl _ _ _).bind fun b j _ => ?_
            refine b.template.instantiate_extendedAt (fun name _ k => ?_) j
            refine (Drawing.ExtendedAt.refl _ _ _).bind fun left l hdecay => ?_
            have hleft := (bounds_of_run_decay hdecay).2
            have hlimit : g.nestingLimit left ≤ budget.toNat + g.size := by
              unfold nestingLimit
              omega
            exact (ih name left l).trans
              ((g.expandWithin_extendedBy name left hlimit).extendedAt _ l)

/-- **AN EXPANSION DEPENDS ON THE RULES IT CAN REACH AND THE WORDS IT DRAWS.**  Let
another grammar agree on all rules that references lead to from the start.  An
expansion draws some number of words.  If it returns, within whatever limit, then
in the other grammar, and from every position of every endless tape at which the
same words stand, the start rule expands to the same tree or stops with the same
fault, and draws just as many. -/
theorem expansion_local {start : String} (hagree : g.AgreesFrom start h) (budget : Int)
    (word : Nat → UInt32) (i : Nat) :
    ∀ limit, ∃ k, ((g.expandWithin limit start budget).run (Tape.endless word) i).2 = i + k
      ∧ (((g.expandWithin limit start budget).run (Tape.endless word) i).1 ≠ .error .unfinished →
          ∀ word' i', (∀ n < k, word' (i' + n) = word (i + n)) →
            (h.expandRule start budget).run (Tape.endless word') i'
              = (((g.expandWithin limit start budget).run (Tape.endless word) i).1, i' + k)) := by
  intro limit
  obtain ⟨k, hend, hlocal⟩ := g.local_expandWithin limit start budget word i
  refine ⟨k, hend, fun hresult word' i' hwords => ?_⟩
  have hsame := hlocal word' i' hwords
  have hother := hagree.run_expandWithin (Tape.endless word') limit start budget i'
  rw [hsame] at hother
  rcases h.expandWithin_extendedAt_expandRule word' limit start budget i' with hcut | heq
  · rw [hother] at hcut
    exact absurd hcut hresult
  · rw [← heq, hother]

/-- A tape of words without much order. -/
def scattered (n : Nat) : UInt32 := UInt32.ofNat (n * 2654435761 + 4000000000)

/-- A channel does not depend on the rule for colors, so it does not matter that this
rule has lost its branches; nor does it what stands before and behind the ten words
that are drawn. -/
theorem expansion_local_channel :
    classic.AgreesFrom "C" (classic.insert "E" [])
      ∧ (classic.expandRule "C" 3).run (Tape.endless scattered) 0
          = (.ok (.arith .mult (.var .t) (.abs (.var .x))), 10)
      ∧ ∀ word, (∀ n < 10, word (4 + n) = scattered n) →
          ((classic.insert "E" []).expandRule "C" 3).run (Tape.endless word) 4
            = (.ok (.arith .mult (.var .t) (.abs (.var .x))), 14) := by
  have hnever : ∀ r ∈ classic.rules, ∀ b ∈ r.branches, "E" ∉ b.template.references := by
    decide +kernel
  have hagree : classic.AgreesFrom "C" (classic.insert "E" []) := by
    intro name hname
    rw [find?_insert, if_neg]
    intro heq
    subst heq
    -- no reference leads to the rule for colors
    rcases Relation.ReflTransGen.cases_tail hname with h | ⟨rule, _, branches, hfind, b, hb, href⟩
    · exact absurd h (by decide)
    · exact hnever _ (find?_eq_some_iff.1 hfind) b hb href
  have hrun : (classic.expandRule "C" 3).run (Tape.endless scattered) 0
      = (.ok (.arith .mult (.var .t) (.abs (.var .x))), 10) := by decide +kernel
  refine ⟨hagree, hrun, fun word hwords => ?_⟩
  obtain ⟨k, hend, hlocal⟩ := expansion_local hagree 3 scattered 0 (classic.nestingLimit 3)
  have hwithin : (classic.expandWithin (classic.nestingLimit 3) "C" 3).run
      (Tape.endless scattered) 0 = (.ok (.arith .mult (.var .t) (.abs (.var .x))), 10) := hrun
  rw [hwithin] at hend hlocal
  have hdraws : k = 10 := by
    rw [Nat.zero_add] at hend
    exact hend.symm
  subst hdraws
  exact hlocal (by simp) word 4 fun n hn => by rw [hwords n hn, Nat.zero_add]

end Grammar

end ArtGrammar
