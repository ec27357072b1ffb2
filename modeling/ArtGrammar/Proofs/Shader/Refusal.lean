/-
  ArtGrammar.Proofs.Shader.Refusal
  ────────────────────────────────
  **WHAT A TREE IS REFUSED FOR.**

  A dialect objects to a node that only exists during expansion, to one of a
  kind that it leaves out, and to a number without a literal, in this order.
  Transcription tells the first objection in pre-order:

      e.transcribe d = .error fault  ↔  the first of  d.objection? node  is fault

  So two dialects with the same objections refuse the same trees for the same
  fault.  The kinds that are left out decide whether there is a text, and have no
  part in what the text is.
-/
import ArtGrammar.Proofs.Expr.Nodes
import ArtGrammar.Shader.Transcription

namespace ArtGrammar

/-! ## §1. Objections. -/

/-- What the dialect has against a node, its children apart. -/
def Dialect.objection? (d : Dialect) (node : Expr) : Option Fault :=
  if node.kind.isGenerationOnly then some (.notRuntime node.kind)
  else if node.kind ∈ d.unsupported then some (.unsupported node.kind d.name)
  else
    match node with
    | .number v => if v.isFinite then none else some (.unspellable v)
    | _ => none

/-- The fault that a result tells, if it is one. -/
def told? {α : Type} : Except Fault α → Option Fault
  | .ok _ => none
  | .error fault => some fault

theorem told?_eq_some_iff {α : Type} {x : Except Fault α} {fault : Fault} :
    told? x = some fault ↔ x = .error fault := by
  cases x with
  | ok a =>
      constructor
      · intro h
        cases h
      · intro h
        cases h
  | error cause =>
      show some cause = some fault ↔ _
      rw [Option.some.injEq, Except.error.injEq]

/-- A sequence tells the first fault of its parts. -/
theorem told?_bind {α β : Type} {x : Except Fault α} {f : α → Except Fault β}
    {later : Option Fault} (h : ∀ a, told? (f a) = later) :
    told? (x >>= f) = (told? x).or later := by
  cases x with
  | ok a => exact h a
  | error fault => rfl

/-- What is permitted as a node of its kind. -/
theorem Dialect.told?_permit (d : Dialect) (kind : Kind) :
    told? (d.permit kind)
      = if kind.isGenerationOnly then some (.notRuntime kind)
        else if kind ∈ d.unsupported then some (.unsupported kind d.name)
        else none := by
  unfold Dialect.permit Dialect.supports
  rw [List.contains_eq_mem]
  by_cases hgen : kind.isGenerationOnly = true
  · rw [if_pos hgen, if_pos hgen]
    rfl
  rw [if_neg hgen, if_neg hgen]
  by_cases hkind : kind ∈ d.unsupported
  · simp [hkind, told?]
  · simp [hkind, told?]

theorem Dialect.told?_literal (d : Dialect) (v : Single) :
    told? (d.literal v) = if v.isFinite then none else some (.unspellable v) := by
  unfold Dialect.literal NumberStyle.spell?
  by_cases hfinite : v.isFinite = true
  · rw [if_pos hfinite, if_pos hfinite]
    cases d.numberStyle with
    | shortest => rfl
    | decimal => rfl
  · rw [if_neg hfinite, if_neg hfinite]
    rfl

/-! ## §2. The first objection. -/

/-- The first objection to a node before others. -/
theorem Dialect.findSome?_objection?_cons (d : Dialect) (node : Expr) (nodes : List Expr) :
    (node :: nodes).findSome? d.objection?
      = (d.objection? node).or (nodes.findSome? d.objection?) := by
  rw [List.findSome?_cons]
  cases d.objection? node with
  | none => rfl
  | some fault => rfl

/-- A node that is no number is objected to for its kind alone, and before what
follows it. -/
theorem Dialect.told?_permit_bind {α : Type} {d : Dialect} (node : Expr)
    (hkind : node.kind ≠ .number) {f : Unit → Except Fault α} {later : Option Fault}
    (hf : ∀ a, told? (f a) = later) :
    told? (d.permit node.kind >>= f) = (d.objection? node).or later := by
  have hpermit : told? (d.permit node.kind) = d.objection? node := by
    rw [Dialect.told?_permit]
    cases node with
    | number v => exact absurd rfl hkind
    | _ => rfl
  rw [told?_bind hf, hpermit]

/-- **TRANSCRIPTION TELLS THE FIRST OBJECTION.** -/
theorem Expr.told?_transcribe (d : Dialect) (e : Expr) :
    told? (e.transcribe d) = e.preorder.findSome? d.objection? := by
  -- the texts are put together without a fault
  have hpure : ∀ s : String, told? (pure s : Except Fault String) = none := fun _ => rfl
  induction e with
  | var v =>
      unfold Expr.preorder
      rw [Dialect.findSome?_objection?_cons]
      exact Dialect.told?_permit_bind (.var v) (by rintro ⟨⟩) fun _ => hpure _
  | number v =>
      -- the kind comes first, then the value
      show told? (d.permit .number >>= fun _ => d.literal v) = _
      unfold Expr.preorder
      rw [told?_bind (fun _ => d.told?_literal v), Dialect.told?_permit,
        Dialect.findSome?_objection?_cons, List.findSome?_nil, Option.or_none]
      unfold Dialect.objection?
      by_cases hkind : Kind.number ∈ d.unsupported
      · simp [Expr.kind, hkind, Kind.isGenerationOnly]
      · simp [Expr.kind, hkind, Kind.isGenerationOnly]
  | boolean b =>
      unfold Expr.preorder
      rw [Dialect.findSome?_objection?_cons]
      exact Dialect.told?_permit_bind (.boolean b) (by rintro ⟨⟩) fun _ => hpure _
  | abs a iha =>
      unfold Expr.preorder
      rw [Dialect.findSome?_objection?_cons, ← iha, ← Option.or_none (o := told? (a.transcribe d))]
      apply Dialect.told?_permit_bind (.abs a) (by rintro ⟨⟩)
      exact fun _ => told?_bind fun _ => hpure _
  | arith op a b iha ihb =>
      unfold Expr.preorder
      rw [Dialect.findSome?_objection?_cons, List.findSome?_append, ← iha, ← ihb,
        ← Option.or_none (o := told? (b.transcribe d))]
      apply Dialect.told?_permit_bind (.arith op a b) (by rintro ⟨⟩)
      exact fun _ => told?_bind fun _ => told?_bind fun _ => hpure _
  | ge a b iha ihb =>
      unfold Expr.preorder
      rw [Dialect.findSome?_objection?_cons, List.findSome?_append, ← iha, ← ihb,
        ← Option.or_none (o := told? (b.transcribe d))]
      apply Dialect.told?_permit_bind (.ge a b) (by rintro ⟨⟩)
      exact fun _ => told?_bind fun _ => told?_bind fun _ => hpure _
  | triple a b c iha ihb ihc =>
      unfold Expr.preorder
      rw [Dialect.findSome?_objection?_cons, List.findSome?_append, List.findSome?_append, ← iha,
        ← ihb, ← ihc, ← Option.or_none (o := told? (c.transcribe d))]
      apply Dialect.told?_permit_bind (.triple a b c) (by rintro ⟨⟩)
      exact fun _ => told?_bind fun _ => told?_bind fun _ => told?_bind fun _ => hpure _
  | cond a b c iha ihb ihc =>
      unfold Expr.preorder
      rw [Dialect.findSome?_objection?_cons, List.findSome?_append, List.findSome?_append, ← iha,
        ← ihb, ← ihc, ← Option.or_none (o := told? (c.transcribe d))]
      apply Dialect.told?_permit_bind (.cond a b c) (by rintro ⟨⟩)
      exact fun _ => told?_bind fun _ => told?_bind fun _ => told?_bind fun _ => hpure _
  | random => rfl
  | rule name => rfl

/-- The fault of a refused tree is the first objection to its nodes. -/
theorem Expr.transcribe_eq_error_iff {d : Dialect} {e : Expr} {fault : Fault} :
    e.transcribe d = .error fault ↔ e.preorder.findSome? d.objection? = some fault := by
  rw [← told?_eq_some_iff, Expr.told?_transcribe]

/-- There is a text if there is no objection. -/
theorem Expr.exists_text_iff {d : Dialect} {e : Expr} :
    (∃ text, e.transcribe d = .ok text) ↔ ∀ node ∈ e.preorder, d.objection? node = none := by
  rw [← List.findSome?_eq_none_iff, ← Expr.told?_transcribe]
  cases e.transcribe d with
  | ok text => exact ⟨fun _ => rfl, fun _ => ⟨text, rfl⟩⟩
  | error fault =>
      constructor
      · rintro ⟨text, h⟩
        cases h
      · intro h
        cases h

/-- What is told is an objection to some node, and there is none to the nodes before it. -/
theorem Expr.transcribe_eq_error_iff_exists {d : Dialect} {e : Expr} {fault : Fault} :
    e.transcribe d = .error fault ↔ ∃ before node after, e.preorder = before ++ node :: after
      ∧ (∀ earlier ∈ before, d.objection? earlier = none) ∧ d.objection? node = some fault := by
  rw [transcribe_eq_error_iff, List.findSome?_eq_some_iff]
  constructor
  · rintro ⟨before, node, after, hsplit, hnode, hbefore⟩
    exact ⟨before, node, after, hsplit, hbefore, hnode⟩
  · rintro ⟨before, node, after, hsplit, hbefore, hnode⟩
    exact ⟨before, node, after, hsplit, hnode, hbefore⟩

/-! ## §3. Kinds that are left out. -/

/-- The second result is the answer of the first, if that is one. -/
def AnswersToo {α : Type} (x x' : Except Fault α) : Prop := ∀ a, x = .ok a → x' = .ok a

theorem AnswersToo.refl {α : Type} (x : Except Fault α) : AnswersToo x x := fun _ h => h

theorem AnswersToo.bind {α β : Type} {x x' : Except Fault α} {f f' : α → Except Fault β}
    (hx : AnswersToo x x') (hf : ∀ a, AnswersToo (f a) (f' a)) :
    AnswersToo (x >>= f) (x' >>= f') := by
  intro b h
  cases x with
  | error fault => cases h
  | ok a =>
      rw [hx a rfl]
      exact hf a b h

section
variable {d : Dialect} {fewer : List Kind} (hfewer : fewer ⊆ d.unsupported)
include hfewer

theorem Dialect.answersToo_permit (kind : Kind) :
    AnswersToo (d.permit kind) (Dialect.permit { d with unsupported := fewer } kind) := by
  intro _ h
  unfold Dialect.permit Dialect.supports at h ⊢
  rw [List.contains_eq_mem] at h ⊢
  by_cases hgen : kind.isGenerationOnly = true
  · rw [if_pos hgen] at h
    cases h
  rw [if_neg hgen] at h ⊢
  by_cases hkind : kind ∈ d.unsupported
  · simp [hkind] at h
  · have hother : kind ∉ fewer := fun hmem => hkind (hfewer hmem)
    simp [hother]

/-- **A TEXT STAYS AS IT IS WHEN FEWER KINDS ARE LEFT OUT.** -/
theorem Expr.answersToo_transcribe (e : Expr) :
    AnswersToo (e.transcribe d) (e.transcribe { d with unsupported := fewer }) := by
  -- the two dialects differ in what they permit, and in nothing that is written
  have hnode := fun kind => Dialect.answersToo_permit hfewer kind
  induction e with
  | var v => exact (hnode _).bind fun _ => .refl _
  | number v => exact (hnode _).bind fun _ => .refl _
  | boolean b => exact (hnode _).bind fun _ => .refl _
  | abs a iha => exact (hnode _).bind fun _ => iha.bind fun _ => .refl _
  | arith op a b iha ihb =>
      exact (hnode _).bind fun _ => iha.bind fun _ => ihb.bind fun _ => .refl _
  | ge a b iha ihb =>
      exact (hnode _).bind fun _ => iha.bind fun _ => ihb.bind fun _ => .refl _
  | triple a b c iha ihb ihc =>
      exact (hnode _).bind fun _ => iha.bind fun _ => ihb.bind fun _ => ihc.bind fun _ => .refl _
  | cond test yes no ihtest ihyes ihno =>
      exact (hnode _).bind fun _ => ihtest.bind fun _ => ihyes.bind fun _ => ihno.bind fun _ =>
        .refl _
  | random => exact .refl _
  | rule name => exact .refl _

end

/-! ## §4. The first offender. -/

/-- **A TREE IS REFUSED FOR THE FIRST NODE THAT THE DIALECT OBJECTS TO.**  In every
dialect, whatever its spellings and whichever kinds it leaves out: a tree has a text
exactly if there is an objection to none of its nodes.  Otherwise it is refused for
the objection to the first node, in pre-order, to which there is one; pre-order is a
node, and behind it the nodes of its children, child by child.  And where there is a
text, it is the one that there is with no kind left out. -/
theorem Expr.refused_for_first_offender (d : Dialect) (e : Expr) :
    e.preorder = e :: e.children.flatMap preorder
      ∧ ((∃ text, e.transcribe d = .ok text) ↔ ∀ node ∈ e.preorder, d.objection? node = none)
      ∧ (∀ fault, e.transcribe d = .error fault ↔
          ∃ before node after, e.preorder = before ++ node :: after
            ∧ (∀ earlier ∈ before, d.objection? earlier = none)
            ∧ d.objection? node = some fault)
      ∧ ∀ text, e.transcribe d = .ok text →
          e.transcribe { d with unsupported := [] } = .ok text :=
  ⟨e.preorder_eq_cons, exists_text_iff, fun _ => transcribe_eq_error_iff_exists,
    answersToo_transcribe (List.nil_subset _) e⟩

/-- A tree with an offender of each sort: first a number without a literal, then a
remainder, a node to be drawn and a reference. -/
def Expr.offending : Expr :=
  .triple (.abs (.number .nan)) (.arith .mod (.var .x) .random) (.rule "E")

/-- Without remainders GLSL refuses the tree for the number, which comes first; the
gradient it still transcribes as before. -/
theorem Expr.refused_for_first_offender_offending :
    offending.transcribe (Dialect.glsl.withUnsupported (.arith .mod))
        = .error (.unspellable .nan)
      ∧ gradient.transcribe (Dialect.glsl.withUnsupported (.arith .mod)) = .ok "vec3(x, x, x)"
      ∧ gradient.transcribe Dialect.glsl = .ok "vec3(x, x, x)" := by
  have htext : gradient.transcribe (Dialect.glsl.withUnsupported (.arith .mod))
      = .ok "vec3(x, x, x)" := rfl
  obtain ⟨_, _, hfault, _⟩ :=
    refused_for_first_offender (Dialect.glsl.withUnsupported (.arith .mod)) offending
  obtain ⟨_, _, _, hkept⟩ :=
    refused_for_first_offender (Dialect.glsl.withUnsupported (.arith .mod)) gradient
  refine ⟨(hfault _).2 ⟨[offending, .abs (.number .nan)], .number .nan, _, rfl, ?_, rfl⟩, htext,
    hkept _ htext⟩
  decide

end ArtGrammar
