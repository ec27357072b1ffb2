/-
  ArtGrammar.Proofs.Synthesis.Reachability
  ────────────────────────────────
  **WHAT CAN BE DERIVED IS EXPANDED BY SOME DRAWS.**

  A derivation that nests no deeper than the budget is expanded on the tape
  that says, in the order of the expansion,

      a rule         a word whose roll picks its branch
      a reference    a word too large to decay the budget any further
      a random node  a word with the fraction in its top bits

  so that the budget falls by one from rule to rule and stays positive.
-/
import ArtGrammar.Proofs.Synthesis.Decay
import ArtGrammar.Proofs.Synthesis.Derivation

namespace ArtGrammar

/-! ## §1. Derivations by depth. -/

/-- Some roll picks the branch at the index. -/
def Branch.Pickable (branches : List Branch) (index : Nat) : Prop :=
  ∃ w, Branch.pickIndex? branches (unitOfWord w) = some index

namespace Grammar

/-- A derivation in which rules nest at most so deep, and all branches are at
indices that are allowed. -/
def DerivesWithin (g : Grammar) (Allowed : List Branch → Nat → Prop) :
    Nat → String → Expr → Prop
  | 0, _, _ => False
  | depth + 1, rule, t => ∃ branches index b, g.find? rule = some branches
      ∧ branches[index]? = some b ∧ Allowed branches index
      ∧ b.template.Instance (g.DerivesWithin Allowed depth) t

section
variable {g : Grammar} {Allowed : List Branch → Nat → Prop}

theorem DerivesWithin.succ :
    ∀ {depth : Nat} {rule : String} {t : Expr}, g.DerivesWithin Allowed depth rule t →
      g.DerivesWithin Allowed (depth + 1) rule t
  | 0, _, _, h => h.elim
  | _ + 1, _, _, ⟨branches, index, b, hfind, hget, hallowed, ht⟩ =>
      ⟨branches, index, b, hfind, hget, hallowed, ht.mono fun _ _ h => h.succ⟩

theorem DerivesWithin.mono {depth depth' : Nat} {rule : String} {t : Expr}
    (h : g.DerivesWithin Allowed depth rule t) (hle : depth ≤ depth') :
    g.DerivesWithin Allowed depth' rule t := by
  induction hle with
  | refl => exact h
  | step _ ih => exact ih.succ

/-- Whatever is allowed, it is a derivation. -/
theorem DerivesWithin.derives :
    ∀ {depth : Nat} {rule : String} {t : Expr}, g.DerivesWithin Allowed depth rule t →
      g.Derives rule t
  | 0, _, _, h => h.elim
  | _ + 1, _, _, ⟨_, _, _, hfind, hget, _, ht⟩ =>
      .branch hfind (List.mem_of_getElem? hget) (ht.mono fun _ _ h => h.derives)

/-- A finished expansion within a limit is a derivation of that depth. -/
theorem derivesWithin_of_run_expandWithin (g : Grammar) {tape : Tape} :
    ∀ limit rule budget t i j, (g.expandWithin limit rule budget).run tape i = (.ok t, j) →
      g.DerivesWithin (fun _ _ => True) limit rule t := by
  intro limit
  induction limit with
  | zero =>
      intro rule budget t i j hrun
      cases hrun
  | succ limit ih =>
      intro rule budget t i j hrun
      obtain ⟨branches, b, hb, hfind, ht⟩ := g.instance_of_run_expandWithin hrun
      obtain ⟨index, hget⟩ := List.getElem?_of_mem hb
      refine ⟨branches, index, b, hfind, hget, trivial, ht.mono ?_⟩
      rintro name u ⟨left, m, n, hinner⟩
      exact ih name left u m n hinner

/-- An instance whose references have depths has one depth for all of them. -/
theorem exists_depth_of_instance {e t : Expr}
    (h : e.Instance (fun name u => ∃ depth, g.DerivesWithin Allowed depth name u) t) :
    ∃ depth, e.Instance (g.DerivesWithin Allowed depth) t := by
  induction h with
  | var v => exact ⟨0, .var v⟩
  | number v => exact ⟨0, .number v⟩
  | boolean b => exact ⟨0, .boolean b⟩
  | random k hlow hhigh => exact ⟨0, .random k hlow hhigh⟩
  | rule ht =>
      obtain ⟨n, hn⟩ := ht
      exact ⟨n, .rule hn⟩
  | abs _ iha =>
      obtain ⟨n, hn⟩ := iha
      exact ⟨n, .abs hn⟩
  | arith op _ _ iha ihb =>
      obtain ⟨n, hn⟩ := iha
      obtain ⟨m, hm⟩ := ihb
      exact ⟨max n m, .arith op (hn.mono fun _ _ h => h.mono (Nat.le_max_left n m))
        (hm.mono fun _ _ h => h.mono (Nat.le_max_right n m))⟩
  | ge _ _ iha ihb =>
      obtain ⟨n, hn⟩ := iha
      obtain ⟨m, hm⟩ := ihb
      exact ⟨max n m, .ge (hn.mono fun _ _ h => h.mono (Nat.le_max_left n m))
        (hm.mono fun _ _ h => h.mono (Nat.le_max_right n m))⟩
  | triple _ _ _ iha ihb ihc =>
      obtain ⟨n, hn⟩ := iha
      obtain ⟨m, hm⟩ := ihb
      obtain ⟨k, hk⟩ := ihc
      exact ⟨max n (max m k), .triple (hn.mono fun _ _ h => h.mono (by omega))
        (hm.mono fun _ _ h => h.mono (by omega)) (hk.mono fun _ _ h => h.mono (by omega))⟩
  | cond _ _ _ iha ihb ihc =>
      obtain ⟨n, hn⟩ := iha
      obtain ⟨m, hm⟩ := ihb
      obtain ⟨k, hk⟩ := ihc
      exact ⟨max n (max m k), .cond (hn.mono fun _ _ h => h.mono (by omega))
        (hm.mono fun _ _ h => h.mono (by omega)) (hk.mono fun _ _ h => h.mono (by omega))⟩

end

/-- **DERIVATIONS ARE THE DERIVATIONS OF SOME DEPTH.** -/
theorem derives_iff_exists_depth {g : Grammar} {rule : String} {t : Expr} :
    g.Derives rule t ↔ ∃ depth, g.DerivesWithin (fun _ _ => True) depth rule t := by
  constructor
  · intro h
    -- on both the derivation and the instances that stand in it
    refine @Derives.rec g
      (fun rule t _ => ∃ depth, g.DerivesWithin (fun _ _ => True) depth rule t)
      (fun e t _ => e.Instance
        (fun name u => ∃ depth, g.DerivesWithin (fun _ _ => True) depth name u) t)
      ?_ .var .number .boolean .random ?_ ?_ ?_ ?_ ?_ ?_ rule t h
    · intro rule branches b t hfind hb _ iht
      obtain ⟨index, hindex, rfl⟩ := List.getElem_of_mem hb
      obtain ⟨n, hn⟩ := exists_depth_of_instance iht
      exact ⟨n + 1, branches, index, branches[index], hfind, List.getElem?_eq_getElem hindex,
        trivial, hn⟩
    · exact fun _ ih => .rule ih
    · exact fun _ ih => .abs ih
    · exact fun op _ _ _ _ _ _ iha ihb => .arith op iha ihb
    · exact fun _ _ iha ihb => .ge iha ihb
    · exact fun _ _ _ iha ihb ihc => .triple iha ihb ihc
    · exact fun _ _ _ iha ihb ihc => .cond iha ihb ihc
  · rintro ⟨depth, h⟩
    exact h.derives

/-- What holds of a tree as soon as it holds of the trees that fill the references
of its branch holds of every derived tree. -/
theorem Derives.induction {g : Grammar} {P : String → Expr → Prop}
    (hbranch : ∀ rule branches b t, g.find? rule = some branches → b ∈ branches →
      b.template.Instance P t → P rule t)
    {rule : String} {t : Expr} (h : g.Derives rule t) : P rule t := by
  obtain ⟨depth, h⟩ := derives_iff_exists_depth.1 h
  induction depth generalizing rule t with
  | zero => exact h.elim
  | succ depth ih =>
      obtain ⟨branches, index, b, hfind, hget, _, ht⟩ := h
      refine hbranch rule branches b t hfind (List.mem_of_getElem? hget) (ht.mono ?_)
      intro name u hu
      exact ih hu.derives hu

end Grammar

/-! ## §2. The words of a derivation. -/

/-- The greatest word keeps the budget from decaying any further. -/
theorem spends_decay (depth : Nat) :
    (decay ((depth + 1 : Nat) : Int)).Spends [0xFFFFFFFF] (depth : Int) := by
  have hcount : (((depth + 1 : Nat) : Int) + 1).toNat = depth + 1 + 1 := by omega
  have hleft : ((depth + 1 : Nat) : Int) - 1 - ((0 : Nat) : Int) = depth := by omega
  have hleads : Leads (risingAt 0) (((depth + 1 : Nat) : Int) + 1).toNat 0 :=
    leads_risingAt (Nat.zero_le _)
  have hspends := hleads.spends_decay
  rw [hcount, decayWords_zero, hleft] at hspends
  exact hspends

/-- A picked branch costs the word of its roll. -/
theorem Branch.spends_select {rule : String} {branches : List Branch} {index : Nat} {b : Branch}
    {w : UInt32} {budget : Int} (hbudget : 0 < budget) (hget : branches[index]? = some b)
    (hpick : pickIndex? branches (unitOfWord w) = some index) :
    (Branch.select rule branches budget).Spends [w] b := by
  have hb : pick? branches (unitOfWord w) = some b := by
    unfold pick?
    rw [hpick]
    exact hget
  unfold Branch.select
  rw [if_neg (by omega)]
  refine (Drawing.spends_unit w).bind_nil ?_
  rw [hb]
  exact Drawing.spends_pure b

/-- An instance is copied from its template by the words of its parts. -/
theorem Expr.exists_spends_instantiate {Fills : String → Expr → Prop} {f : String → Drawing Expr}
    (h : ∀ name t, Fills name t → ∃ words, (f name).Spends words t) {e t : Expr}
    (ht : e.Instance Fills t) : ∃ words, (e.instantiate f).Spends words t := by
  induction ht with
  | var v => exact ⟨[], Drawing.spends_pure _⟩
  | number v => exact ⟨[], Drawing.spends_pure _⟩
  | boolean b => exact ⟨[], Drawing.spends_pure _⟩
  | random k hlow hhigh =>
      -- some word has the fraction in its top bits
      obtain ⟨w, hw⟩ := exists_signedOfWord_eq k hlow hhigh
      rw [← hw]
      exact ⟨[w], (Drawing.spends_signed w).map Expr.number⟩
  | rule ht => exact h _ _ ht
  | abs _ iha =>
      obtain ⟨ws, ha⟩ := iha
      exact ⟨ws, ha.map Expr.abs⟩
  | arith op _ _ iha ihb =>
      obtain ⟨ws, ha⟩ := iha
      obtain ⟨ws', hb⟩ := ihb
      exact ⟨ws ++ ws', ha.bind (hb.map _)⟩
  | ge _ _ iha ihb =>
      obtain ⟨ws, ha⟩ := iha
      obtain ⟨ws', hb⟩ := ihb
      exact ⟨ws ++ ws', ha.bind (hb.map _)⟩
  | triple _ _ _ iha ihb ihc =>
      obtain ⟨ws, ha⟩ := iha
      obtain ⟨ws', hb⟩ := ihb
      obtain ⟨ws'', hc⟩ := ihc
      exact ⟨ws ++ (ws' ++ ws''), ha.bind (hb.bind (hc.map _))⟩
  | cond _ _ _ iha ihb ihc =>
      obtain ⟨ws, ha⟩ := iha
      obtain ⟨ws', hb⟩ := ihb
      obtain ⟨ws'', hc⟩ := ihc
      exact ⟨ws ++ (ws' ++ ws''), ha.bind (hb.bind (hc.map _))⟩

/-! ## §3. Derivations are expansions. -/

namespace Grammar

/-- A derivation of some depth is expanded by some words within a budget and a
limit of that depth. -/
theorem exists_spends_expandWithin {g : Grammar} :
    ∀ (depth limit : Nat) (rule : String) (t : Expr), depth ≤ limit →
      g.DerivesWithin Branch.Pickable depth rule t →
      ∃ words, (g.expandWithin limit rule depth).Spends words t := by
  intro depth
  induction depth with
  | zero =>
      intro limit rule t _ h
      exact h.elim
  | succ depth ih =>
      intro limit rule t hlimit h
      obtain ⟨branches, index, b, hfind, hget, ⟨w, hpick⟩, ht⟩ := h
      cases limit with
      | zero => omega
      | succ limit =>
          -- the references have the depth that the decayed budget leaves them
          have href : ∀ name u, g.DerivesWithin Branch.Pickable depth name u →
              ∃ words, (decay ((depth + 1 : Nat) : Int) >>= g.expandWithin limit name).Spends
                words u := by
            intro name u hu
            obtain ⟨words, hwords⟩ := ih limit name u (by omega) hu
            exact ⟨[0xFFFFFFFF] ++ words, (spends_decay depth).bind hwords⟩
          obtain ⟨words, hwords⟩ := Expr.exists_spends_instantiate href ht
          refine ⟨[w] ++ words, ?_⟩
          unfold expandWithin
          rw [hfind]
          exact (Branch.spends_select (by omega) hget hpick).bind hwords

/-- **EVERY DERIVATION WITHIN THE BUDGET IS REACHED.**  Some list of words makes
the rule expand to the derived tree, and the expansion uses up the list. -/
theorem exists_draws_of_derivesWithin (g : Grammar) (rule : String) (depth : Nat) (t : Expr)
    (h : g.DerivesWithin Branch.Pickable depth rule t) :
    ∃ words, (g.expandRule rule depth).run (Tape.ofList words) 0 = (.ok t, words.length) := by
  have hlimit : depth ≤ g.nestingLimit depth := by
    unfold nestingLimit
    omega
  obtain ⟨words, hwords⟩ := exists_spends_expandWithin depth _ rule t hlimit h
  exact ⟨words, hwords.run_ofList⟩

/-- A random constant, the last branch of the leaves of the classic grammar, is
reached as a channel. -/
theorem exists_draws_of_derivesWithin_classic :
    classic.DerivesWithin Branch.Pickable 2 "C" (.number (signedFraction (-0x800000)))
      ∧ ∃ words, (classic.expandRule "C" 2).run (Tape.ofList words) 0
          = (.ok (.number (signedFraction (-0x800000))), words.length) := by
  have hleaf : classic.DerivesWithin Branch.Pickable 1 "A"
      (.number (signedFraction (-0x800000))) := by
    refine ⟨_, 5, ⟨.random, _⟩, rfl, rfl, ⟨0xFFFFFFFF, ?_⟩, ?_⟩
    · decide +kernel
    · exact .random (-0x800000) (by decide) (by decide)
  have hchannel : classic.DerivesWithin Branch.Pickable 2 "C"
      (.number (signedFraction (-0x800000))) := by
    refine ⟨_, 0, ⟨.rule "A", _⟩, rfl, rfl, ⟨0, ?_⟩, .rule hleaf⟩
    decide +kernel
  exact ⟨hchannel, exists_draws_of_derivesWithin classic "C" 2 _ hchannel⟩

end Grammar

end ArtGrammar
