/-
  ArtGrammar.Proofs.Draws.Runs
  ────────────────────────────────
  **RUNS OF DRAWING COMPUTATIONS, FORWARD AND BACKWARD.**

  A finished run of `d >>= next` is a finished run of `d` followed by one of
  `next`, and a run of `d` that finishes leads on to a run of `next`:

      run_bind_eq_ok   taking a finished run apart
      Spends           putting the words of a run together
      Delivers         finishing on every endless tape
      CutOff           being cut off by a limit on every endless tape
      ExtendedBy       going on where a run was cut off
      Alike            ending alike, with related answers

  `d.Spends words a` says that `d` draws exactly `words` and answers `a`,
  whatever else stands on the tape.
-/
import ArtGrammar.Draws.Tape

namespace ArtGrammar

/-! ## §1. Taking finished runs apart. -/

namespace Drawing

/-- **A finished run has a finished run of each part.** -/
theorem run_bind_eq_ok {α β : Type} {d : Drawing α} {next : α → Drawing β} {tape : Tape}
    {i k : Nat} {b : β} :
    (d >>= next).run tape i = (.ok b, k)
      ↔ ∃ a j, d.run tape i = (.ok a, j) ∧ (next a).run tape j = (.ok b, k) := by
  cases hd : d.run tape i with
  | mk result j =>
      cases result with
      | error stop =>
          rw [run_bind_of_error hd]
          simp
      | ok a =>
          rw [run_bind_of_ok hd]
          constructor
          · intro h
            exact ⟨a, j, rfl, h⟩
          · rintro ⟨a', j', hrun, h⟩
            cases hrun
            exact h

theorem run_pure_eq_ok {α : Type} {a b : α} {tape : Tape} {i k : Nat} :
    (pure a : Drawing α).run tape i = (.ok b, k) ↔ a = b ∧ i = k := by
  simp

theorem run_word_eq_ok {tape : Tape} {i k : Nat} {w : UInt32} :
    word.run tape i = (.ok w, k) ↔ tape i = some w ∧ i + 1 = k := by
  cases htape : tape i with
  | none => simp [word, htape]
  | some v => simp [word, htape]

theorem run_signed_eq_ok {tape : Tape} {i k : Nat} {v : Single} :
    signed.run tape i = (.ok v, k) ↔ ∃ w, tape i = some w ∧ signedOfWord w = v ∧ i + 1 = k := by
  unfold signed
  rw [run_bind_eq_ok]
  constructor
  · rintro ⟨w, j, hw, hv⟩
    obtain ⟨htape, rfl⟩ := run_word_eq_ok.1 hw
    obtain ⟨rfl, rfl⟩ := run_pure_eq_ok.1 hv
    exact ⟨w, htape, rfl, rfl⟩
  · rintro ⟨w, htape, rfl, rfl⟩
    exact ⟨w, i + 1, run_word_of_some htape, rfl⟩

end Drawing

/-! ## §2. Words on a tape. -/

namespace Tape

/-- The words stand on the tape one after the other, from the position on. -/
def Holds (tape : Tape) : Nat → List UInt32 → Prop
  | _, [] => True
  | i, w :: words => tape i = some w ∧ Holds tape (i + 1) words

theorem holds_append {tape : Tape} (words words' : List UInt32) :
    ∀ i, tape.Holds i (words ++ words')
      ↔ tape.Holds i words ∧ tape.Holds (i + words.length) words' := by
  induction words with
  | nil =>
      intro i
      simp [Holds]
  | cons w words ih =>
      intro i
      -- the second part starts where the first ends, after `w` too
      have hpos : i + (w :: words).length = i + 1 + words.length := by
        rw [List.length_cons]
        omega
      show _ ∧ _ ↔ (_ ∧ _) ∧ _
      rw [hpos, and_assoc]
      exact and_congr_right fun _ => ih (i + 1)

/-- A tape of listed words holds them. -/
theorem holds_ofList (words : List UInt32) :
    ∀ before, (ofList (before ++ words)).Holds before.length words := by
  induction words with
  | nil =>
      intro before
      trivial
  | cons w words ih =>
      intro before
      refine ⟨by simp [ofList], ?_⟩
      -- `w` joins the words before the others
      have hrest := ih (before ++ [w])
      rw [List.append_assoc, List.length_append] at hrest
      exact hrest

end Tape

/-! ## §3. Putting runs together. -/

namespace Drawing

/-- The computation draws exactly the words and answers `a`. -/
def Spends {α : Type} (d : Drawing α) (words : List UInt32) (a : α) : Prop :=
  ∀ tape i, Tape.Holds tape i words → d.run tape i = (.ok a, i + words.length)

theorem spends_pure {α : Type} (a : α) : (pure a : Drawing α).Spends [] a := by
  intro tape i _
  rfl

/-- **The words of a sequence are those of its parts, in order.** -/
theorem Spends.bind {α β : Type} {d : Drawing α} {next : α → Drawing β}
    {words words' : List UInt32} {a : α} {b : β} (hd : d.Spends words a)
    (hnext : (next a).Spends words' b) : (d >>= next).Spends (words ++ words') b := by
  intro tape i htape
  obtain ⟨hfirst, hrest⟩ := (Tape.holds_append words words' i).1 htape
  rw [run_bind_of_ok (hd tape i hfirst), hnext tape _ hrest, List.length_append, Nat.add_assoc]

/-- What draws nothing adds no words. -/
theorem Spends.bind_nil {α β : Type} {d : Drawing α} {next : α → Drawing β}
    {words : List UInt32} {a : α} {b : β} (hd : d.Spends words a)
    (hnext : (next a).Spends [] b) : (d >>= next).Spends words b := by
  have h := hd.bind hnext
  rwa [List.append_nil] at h

/-- What is made of an answer costs no further words. -/
theorem Spends.map {α β : Type} {d : Drawing α} {words : List UInt32} {a : α}
    (hd : d.Spends words a) (f : α → β) :
    (d >>= fun x => pure (f x)).Spends words (f a) :=
  hd.bind_nil (spends_pure (f a))

theorem spends_word (w : UInt32) : word.Spends [w] w := by
  intro tape i htape
  exact run_word_of_some htape.1

theorem spends_unit (w : UInt32) : unit.Spends [w] (unitOfWord w) :=
  (spends_word w).map unitOfWord

theorem spends_signed (w : UInt32) : signed.Spends [w] (signedOfWord w) :=
  (spends_word w).map signedOfWord

/-- On the tape of its words a run uses the tape up. -/
theorem Spends.run_ofList {α : Type} {d : Drawing α} {words : List UInt32} {a : α}
    (hd : d.Spends words a) : d.run (Tape.ofList words) 0 = (.ok a, words.length) := by
  rw [hd (Tape.ofList words) 0 (Tape.holds_ofList words []), Nat.zero_add]

/-! ## §4. Endless tapes. -/

/-- From every position of the endless tape the computation finishes, with an
answer of the given kind. -/
def Delivers {α : Type} (word : Nat → UInt32) (d : Drawing α) (P : α → Prop) : Prop :=
  ∀ i, ∃ a j, d.run (Tape.endless word) i = (.ok a, j) ∧ P a

section
variable {α β : Type} {word : Nat → UInt32} {P : α → Prop} {Q : β → Prop}

theorem delivers_pure {a : α} (h : P a) : (pure a : Drawing α).Delivers word P := by
  intro i
  exact ⟨a, i, rfl, h⟩

/-- A sequence finishes if its parts do. -/
theorem Delivers.bind {d : Drawing α} {next : α → Drawing β} (hd : d.Delivers word P)
    (hnext : ∀ a, P a → (next a).Delivers word Q) : (d >>= next).Delivers word Q := by
  intro i
  obtain ⟨a, j, hrun, ha⟩ := hd i
  obtain ⟨b, k, hrest, hb⟩ := hnext a ha j
  refine ⟨b, k, ?_, hb⟩
  rw [run_bind_of_ok hrun]
  exact hrest

theorem delivers_unit : unit.Delivers word fun v => ∃ w, v = unitOfWord w := by
  intro i
  exact ⟨unitOfWord (word i), i + 1, rfl, word i, rfl⟩

theorem delivers_signed : signed.Delivers word fun _ => True := by
  intro i
  exact ⟨signedOfWord (word i), i + 1, rfl, trivial⟩

end

/-- From every position of the endless tape the computation is cut off. -/
def CutOff {α : Type} (word : Nat → UInt32) (d : Drawing α) : Prop :=
  ∀ i, ∃ j, d.run (Tape.endless word) i = (.error .unfinished, j)

/-- The computation finishes with an answer of the given kind; in the given case it
is cut off instead. -/
structure DeliversUnless {α : Type} (word : Nat → UInt32) (cut : Prop) (d : Drawing α)
    (P : α → Prop) : Prop where
  delivers : ¬ cut → d.Delivers word P
  cutOff : cut → d.CutOff word

section
variable {α β : Type} {word : Nat → UInt32} {cut cut' : Prop} {P : α → Prop} {Q : β → Prop}
  {d : Drawing α} {next : α → Drawing β}

theorem CutOff.bind (hd : d.CutOff word) : (d >>= next).CutOff word := by
  intro i
  obtain ⟨j, hrun⟩ := hd i
  exact ⟨j, run_bind_of_error hrun⟩

/-- A sequence is cut off in its second part if it comes to it. -/
theorem Delivers.bind_cutOff (hd : d.Delivers word P)
    (hnext : ∀ a, P a → (next a).CutOff word) : (d >>= next).CutOff word := by
  intro i
  obtain ⟨a, j, hrun, ha⟩ := hd i
  obtain ⟨k, hrest⟩ := hnext a ha j
  refine ⟨k, ?_⟩
  rw [run_bind_of_ok hrun]
  exact hrest

theorem Delivers.unless (hd : d.Delivers word P) (hcut : ¬ cut) : d.DeliversUnless word cut P :=
  ⟨fun _ => hd, fun h => absurd h hcut⟩

/-- **A SEQUENCE IS CUT OFF IF ONE OF ITS PARTS IS.** -/
theorem DeliversUnless.bind (hd : d.DeliversUnless word cut P)
    (hnext : ∀ a, P a → (next a).DeliversUnless word cut' Q) :
    (d >>= next).DeliversUnless word (cut ∨ cut') Q := by
  constructor
  · intro hnot
    have hfirst := hd.delivers fun h => hnot (.inl h)
    exact hfirst.bind fun a ha => (hnext a ha).delivers fun h => hnot (.inr h)
  · intro hcut
    by_cases hfirst : cut
    · exact (hd.cutOff hfirst).bind
    · have hsecond : cut' := hcut.resolve_left hfirst
      exact (hd.delivers hfirst).bind_cutOff fun a ha => (hnext a ha).cutOff hsecond

theorem DeliversUnless.congr (hd : d.DeliversUnless word cut P) (h : cut' ↔ cut) :
    d.DeliversUnless word cut' P := by
  rw [propext h]
  exact hd

theorem DeliversUnless.bind_delivers (hd : d.DeliversUnless word cut P)
    (hnext : ∀ a, P a → (next a).Delivers word Q) :
    (d >>= next).DeliversUnless word cut Q := by
  have hunless := hd.bind fun a ha => (hnext a ha).unless not_false
  exact hunless.congr (or_iff_left not_false).symm

end

/-! ## §5. Computations that were cut off. -/

/-- The second computation does what the first does, as far as the first does not stop for
the given reason. -/
def ExtendedBy {α : Type} (stop : Halt) (d d' : Drawing α) : Prop :=
  ∀ tape i, (d.run tape i).1 = .error stop ∨ d.run tape i = d'.run tape i

section
variable {α β : Type} {stop : Halt}

theorem ExtendedBy.refl (d : Drawing α) : d.ExtendedBy stop d := fun _ _ => Or.inr rfl

/-- What stops at once is extended by everything. -/
theorem halt_extendedBy (d : Drawing α) : (halt stop : Drawing α).ExtendedBy stop d :=
  fun _ _ => Or.inl rfl

/-- From the position on, the second computation does what the first does, as far as
the first does not stop for the given reason. -/
def ExtendedAt (stop : Halt) (tape : Tape) (i : Nat) (d d' : Drawing α) : Prop :=
  (d.run tape i).1 = .error stop ∨ d.run tape i = d'.run tape i

/-- A sequence is extended part by part: the second part from where the first ends. -/
theorem ExtendedAt.bind {tape : Tape} {i : Nat} {d d' : Drawing α} {next next' : α → Drawing β}
    (hd : d.ExtendedAt stop tape i d')
    (hnext : ∀ a j, d.run tape i = (.ok a, j) → (next a).ExtendedAt stop tape j (next' a)) :
    (d >>= next).ExtendedAt stop tape i (d' >>= next') := by
  rcases hd with hcut | heq
  · -- stopped in the first part, so stopped
    left
    obtain ⟨j, hrun⟩ : ∃ j, d.run tape i = (.error stop, j) := ⟨_, Prod.ext hcut rfl⟩
    rw [run_bind_of_error hrun]
  · cases hrun : d.run tape i with
    | mk result j =>
        cases result with
        | error other =>
            -- stopped in the first part of both, and the second is never run
            right
            rw [run_bind_of_error hrun, run_bind_of_error (heq.symm.trans hrun)]
        | ok a =>
            have hrest := hnext a j hrun
            unfold ExtendedAt at hrest ⊢
            rw [run_bind_of_ok hrun, run_bind_of_ok (heq.symm.trans hrun)]
            exact hrest

theorem ExtendedBy.extendedAt {d d' : Drawing α} (h : d.ExtendedBy stop d') (tape : Tape)
    (i : Nat) : d.ExtendedAt stop tape i d' := h tape i

theorem ExtendedAt.refl (tape : Tape) (i : Nat) (d : Drawing α) : d.ExtendedAt stop tape i d :=
  Or.inr rfl

theorem ExtendedAt.trans {tape : Tape} {i : Nat} {d d' d'' : Drawing α}
    (h : d.ExtendedAt stop tape i d') (h' : d'.ExtendedAt stop tape i d'') :
    d.ExtendedAt stop tape i d'' := by
  rcases h with hcut | heq
  · exact Or.inl hcut
  · unfold ExtendedAt at h' ⊢
    rw [heq]
    exact h'

/-- Nothing stops for two reasons at once. -/
theorem ExtendedAt.run_eq {other : Halt} {tape : Tape} {i : Nat} {d d' : Drawing α}
    (h : d.ExtendedAt stop tape i d') (h' : d.ExtendedAt other tape i d') (hne : stop ≠ other) :
    d.run tape i = d'.run tape i := by
  rcases h with hstop | heq
  · rcases h' with hother | heq
    · exact absurd (Except.error.inj (hstop.symm.trans hother)) hne
    · exact heq
  · exact heq

theorem ExtendedBy.trans {d d' d'' : Drawing α} (h : d.ExtendedBy stop d')
    (h' : d'.ExtendedBy stop d'') : d.ExtendedBy stop d'' := fun tape i =>
  (h.extendedAt tape i).trans (h'.extendedAt tape i)

/-- A sequence is extended part by part. -/
theorem ExtendedBy.bind {d d' : Drawing α} {next next' : α → Drawing β}
    (hd : d.ExtendedBy stop d') (hnext : ∀ a, (next a).ExtendedBy stop (next' a)) :
    (d >>= next).ExtendedBy stop (d' >>= next') := fun tape i =>
  (hd.extendedAt tape i).bind fun a j _ => (hnext a).extendedAt tape j

/-- A run that is not stopped for the reason is kept, -/
theorem ExtendedAt.run_eq_of_ne {tape : Tape} {i j : Nat} {d d' : Drawing α}
    {result : Except Halt α} (h : d.ExtendedAt stop tape i d')
    (hrun : d.run tape i = (result, j)) (hne : result ≠ .error stop) :
    d'.run tape i = (result, j) := by
  rcases h with hcut | heq
  · rw [hrun] at hcut
    exact absurd hcut hne
  · rw [← heq]
    exact hrun

/-- and so is a finished one. -/
theorem ExtendedBy.run_eq_ok {d d' : Drawing α} (h : d.ExtendedBy stop d') {tape : Tape}
    {i j : Nat} {a : α} (hrun : d.run tape i = (.ok a, j)) : d'.run tape i = (.ok a, j) :=
  (h.extendedAt tape i).run_eq_of_ne hrun nofun

/-! ## §6. Computations that end alike. -/

/-- Both runs stop for the same reason, or both answer, and the answers are related; and
both have drawn the same words. -/
inductive Alike (R : α → β → Prop) : Except Halt α × Nat → Except Halt β × Nat → Prop
  | stopped (reason : Halt) (j : Nat) : Alike R (.error reason, j) (.error reason, j)
  | answered {a : α} {b : β} (j : Nat) (h : R a b) : Alike R (.ok a, j) (.ok b, j)

section
variable {γ δ : Type} {R : α → β → Prop} {S : γ → δ → Prop} {x : Except Halt α × Nat}
  {y : Except Halt β × Nat} {tape : Tape} {i : Nat}

theorem Alike.mono {R' : α → β → Prop} (h : Alike R x y) (hR : ∀ a b, R a b → R' a b) :
    Alike R' x y := by
  cases h with
  | stopped reason j => exact .stopped reason j
  | answered j h => exact .answered j (hR _ _ h)

theorem alike_refl (x : Except Halt α × Nat) : Alike (· = ·) x x := by
  obtain ⟨result, j⟩ := x
  cases result with
  | error reason => exact .stopped reason j
  | ok a => exact .answered j rfl

/-- Sequences end alike if their parts do. -/
theorem Alike.bind {d : Drawing α} {d' : Drawing β} {next : α → Drawing γ} {next' : β → Drawing δ}
    (hd : Alike R (d.run tape i) (d'.run tape i))
    (hnext : ∀ a b j, R a b → Alike S ((next a).run tape j) ((next' b).run tape j)) :
    Alike S ((d >>= next).run tape i) ((d' >>= next').run tape i) := by
  generalize hrun : d.run tape i = x at hd
  generalize hrun' : d'.run tape i = y at hd
  cases hd with
  | stopped reason j =>
      rw [run_bind_of_error hrun, run_bind_of_error hrun']
      exact .stopped reason j
  | answered j h =>
      rw [run_bind_of_ok hrun, run_bind_of_ok hrun']
      exact hnext _ _ j h

/-- What is made of one of the answers draws nothing. -/
theorem Alike.map_right {d' : Drawing β} {R' : α → δ → Prop} {f : β → δ}
    (h : Alike R x (d'.run tape i)) (hf : ∀ a b, R a b → R' a (f b)) :
    Alike R' x ((d' >>= fun b => pure (f b)).run tape i) := by
  generalize hrun' : d'.run tape i = y at h
  cases h with
  | stopped reason j =>
      rw [run_bind_of_error hrun']
      exact .stopped reason j
  | answered j h =>
      rw [run_bind_of_ok hrun']
      exact .answered j (hf _ _ h)

/-- What follows related answers is extended if it is from each pair of them. -/
theorem Alike.bind_extendedAt {d : Drawing α} {d' : Drawing β} {next : α → Drawing γ}
    {next' : β → Drawing γ} (hd : Alike R (d.run tape i) (d'.run tape i))
    (hnext : ∀ a b j, R a b → (next a).ExtendedAt stop tape j (next' b)) :
    (d >>= next).ExtendedAt stop tape i (d' >>= next') := by
  generalize hrun : d.run tape i = x at hd
  generalize hrun' : d'.run tape i = y at hd
  cases hd with
  | stopped reason j =>
      right
      rw [run_bind_of_error hrun, run_bind_of_error hrun']
  | answered j h =>
      have hrest := hnext _ _ j h
      unfold ExtendedAt at hrest ⊢
      rw [run_bind_of_ok hrun, run_bind_of_ok hrun']
      exact hrest

/-- What stops in its first part is extended by everything. -/
theorem ExtendedAt.of_stopped {d : Drawing α} {next : α → Drawing γ} {d' : Drawing γ}
    (h : (d.run tape i).1 = .error stop) : (d >>= next).ExtendedAt stop tape i d' := by
  left
  obtain ⟨j, hrun⟩ : ∃ j, d.run tape i = (.error stop, j) := ⟨_, Prod.ext h rfl⟩
  rw [run_bind_of_error hrun]

end

end

end Drawing

end ArtGrammar
