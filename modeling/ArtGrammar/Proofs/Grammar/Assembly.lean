/-
  ArtGrammar.Proofs.Grammar.Assembly
  ────────────────────────────────
  **A GRAMMAR IS ITS RULES, IN WHATEVER ORDER THEY WERE ADDED.**

  Rules are kept in ascending order of their names, so the rules that a grammar
  has make up the grammar, and a name has what was added last under it:

      rule ∈ insert g r           ↔   rule = r,  or another name and rule ∈ g
      find? (ofList l) name       =   lastAdded? l name
      lastAdded? l name = some b  ↔   (name, b) ∈ l          for distinct names
-/
import ArtGrammar.Proofs.Grammar.Validity
import Mathlib.Data.List.Induction

namespace ArtGrammar

/-! ## §1. One rule. -/

/-- A rule takes the place of the one of its name. -/
theorem Rule.mem_insertInto_iff {r t : Rule} {rules : List Rule}
    (hasc : rules.Pairwise fun a b => a.name < b.name) :
    t ∈ r.insertInto rules ↔ t = r ∨ t.name ≠ r.name ∧ t ∈ rules := by
  induction rules with
  | nil => simp [insertInto]
  | cons s rest ih =>
      obtain ⟨hs, hrest⟩ := List.pairwise_cons.1 hasc
      unfold insertInto
      split
      next hlt =>
        -- all names from here on are greater
        have hname : ∀ u ∈ s :: rest, u.name ≠ r.name := by
          intro u hu heq
          rcases List.mem_cons.1 hu with rfl | hu
          · rw [heq] at hlt
            exact String.lt_irrefl _ hlt
          · have hgt := String.lt_trans hlt (hs u hu)
            rw [heq] at hgt
            exact String.lt_irrefl _ hgt
        rw [List.mem_cons]
        constructor
        · rintro (h | h)
          · exact .inl h
          · exact .inr ⟨hname t h, h⟩
        · rintro (h | h)
          · exact .inl h
          · exact .inr h.2
      next hlt =>
        split
        next heq =>
          have hname : ∀ u ∈ rest, u.name ≠ r.name := by
            intro u hu hsame
            have hgt := hs u hu
            rw [hsame, heq] at hgt
            exact String.lt_irrefl _ hgt
          rw [List.mem_cons, List.mem_cons]
          constructor
          · rintro (h | h)
            · exact .inl h
            · exact .inr ⟨hname t h, .inr h⟩
          · rintro (h | ⟨hne, rfl | h⟩)
            · exact .inl h
            · exact absurd heq.symm hne
            · exact .inr h
        next hne =>
          rw [List.mem_cons, ih hrest, List.mem_cons]
          constructor
          · rintro (rfl | h | ⟨hname, h⟩)
            · exact .inr ⟨fun heq => hne heq.symm, .inl rfl⟩
            · exact .inl h
            · exact .inr ⟨hname, .inr h⟩
          · rintro (h | ⟨hname, rfl | h⟩)
            · exact .inr (.inl h)
            · exact .inl rfl
            · exact .inr (.inr ⟨hname, h⟩)

namespace Grammar

theorem mem_insert {g : Grammar} {name : String} {branches : List Branch} {r : Rule} :
    r ∈ (g.insert name branches).rules
      ↔ r = ⟨name, branches⟩ ∨ r.name ≠ name ∧ r ∈ g.rules :=
  Rule.mem_insertInto_iff g.ascending

/-- What is found after a rule is added. -/
theorem find?_insert (g : Grammar) (name name' : String) (branches : List Branch) :
    (g.insert name branches).find? name'
      = if name' = name then some branches else g.find? name' := by
  apply Option.ext
  intro found
  rw [find?_eq_some_iff, mem_insert]
  by_cases hname : name' = name
  · subst hname
    rw [if_pos rfl]
    simp [eq_comm]
  · rw [if_neg hname, find?_eq_some_iff]
    simp [hname]

/-! ## §2. All rules. -/

/-- No two rules have the same name. -/
theorem nodup_names (g : Grammar) : (g.rules.map Rule.name).Nodup := by
  rw [List.Nodup, List.pairwise_map]
  refine g.ascending.imp fun hlt heq => ?_
  rw [heq] at hlt
  exact String.lt_irrefl _ hlt

theorem nodup_rules (g : Grammar) : g.rules.Nodup := by
  refine g.ascending.imp fun hlt heq => ?_
  rw [heq] at hlt
  exact String.lt_irrefl _ hlt

/-- **GRAMMARS OF THE SAME RULES ARE THE SAME.** -/
theorem eq_of_mem_iff {g h : Grammar} (hmem : ∀ r, r ∈ g.rules ↔ r ∈ h.rules) : g = h := by
  have hperm : g.rules.Perm h.rules :=
    (List.perm_ext_iff_of_nodup g.nodup_rules h.nodup_rules).2 hmem
  have hsame : g.rules = h.rules := by
    refine hperm.eq_of_pairwise (fun a b _ _ hab hba => ?_) g.ascending h.ascending
    exact absurd (String.lt_trans hab hba) (String.lt_irrefl _)
  obtain ⟨rules, _⟩ := g
  obtain ⟨rules', _⟩ := h
  cases hsame
  rfl

/-- **GRAMMARS WITH THE SAME BRANCHES UNDER ALL NAMES ARE THE SAME.** -/
theorem ext_find? {g h : Grammar} (hfind : ∀ name, g.find? name = h.find? name) : g = h := by
  apply eq_of_mem_iff
  intro r
  have hr := hfind r.name
  rw [Option.ext_iff] at hr
  exact find?_eq_some_iff.symm.trans ((hr r.branches).trans find?_eq_some_iff)

end Grammar

/-! ## §3. The last addition. -/

/-- The branches that were added last under a name. -/
def lastAdded? (history : List (String × List Branch)) (name : String) : Option (List Branch) :=
  history.reverse.lookup name

theorem lastAdded?_append_singleton (history : List (String × List Branch)) (name : String)
    (branches : List Branch) (other : String) :
    lastAdded? (history ++ [(name, branches)]) other
      = if other = name then some branches else lastAdded? history other := by
  unfold lastAdded?
  rw [List.reverse_append]
  show List.lookup other ((name, branches) :: history.reverse) = _
  rw [List.lookup_cons]
  by_cases h : other = name
  · rw [if_pos h, beq_iff_eq.2 h]
  · rw [if_neg h, beq_eq_false_iff_ne.2 h]

/-- Under distinct names all that was added lasts. -/
theorem lastAdded?_eq_some_iff {history : List (String × List Branch)} {name : String}
    {branches : List Branch} (hnodup : (history.map Prod.fst).Nodup) :
    lastAdded? history name = some branches ↔ (name, branches) ∈ history := by
  induction history using List.reverseRecOn with
  | nil => simp [lastAdded?]
  | append_singleton history addition ih =>
      rw [List.map_append, List.nodup_append] at hnodup
      obtain ⟨hhistory, _, hnew⟩ := hnodup
      rw [lastAdded?_append_singleton, List.mem_append, List.mem_singleton]
      by_cases h : name = addition.1
      · have hfresh : (name, branches) ∉ history := fun hmem =>
          hnew name (List.mem_map_of_mem hmem) addition.1 List.mem_cons_self h
        rw [if_pos h, or_iff_right hfresh, Option.some_inj, Prod.ext_iff]
        exact ⟨fun heq => ⟨h, heq.symm⟩, fun heq => heq.2.symm⟩
      · have hother : (name, branches) ≠ addition := fun heq => h (congrArg Prod.fst heq)
        rw [if_neg h, or_iff_left hother, ih hhistory]

namespace Grammar

theorem ofList_append_singleton (history : List (String × List Branch)) (name : String)
    (branches : List Branch) :
    ofList (history ++ [(name, branches)]) = (ofList history).insert name branches :=
  List.foldl_append

/-- **A NAME HAS WHAT WAS LAST ADDED UNDER IT.** -/
theorem find?_ofList (history : List (String × List Branch)) (name : String) :
    (ofList history).find? name = lastAdded? history name := by
  induction history using List.reverseRecOn with
  | nil => rfl
  | append_singleton history addition ih =>
      rw [ofList_append_singleton, find?_insert, lastAdded?_append_singleton, ih]

/-- **THE ORDER OF THE RULES DOES NOT MATTER.** -/
theorem ofList_eq_of_perm {g : Grammar} {rules : List Rule} (hperm : rules.Perm g.rules) :
    ofList (rules.map fun r => (r.name, r.branches)) = g := by
  have hnames : ((rules.map fun r => (r.name, r.branches)).map Prod.fst).Nodup := by
    rw [List.map_map]
    exact (hperm.map Rule.name).nodup_iff.2 g.nodup_names
  refine ext_find? fun name => Option.ext fun branches => ?_
  rw [find?_ofList, lastAdded?_eq_some_iff hnames, find?_eq_some_iff, List.mem_map]
  constructor
  · rintro ⟨r, hr, heq⟩
    obtain ⟨rfl, rfl⟩ := Prod.mk.inj heq
    exact hperm.subset hr
  · exact fun h => ⟨⟨name, branches⟩, hperm.symm.subset h, rfl⟩

end Grammar

end ArtGrammar
