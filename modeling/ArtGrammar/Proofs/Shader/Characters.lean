/-
  ArtGrammar.Proofs.Shader.Characters
  ────────────────────────────────
  **THE CHARACTERS OF TRANSCRIBED TEXT.**

  The text of a tree consists of words, numbers, operators, parentheses, commas
  and spaces:

      A … Z  a … z  0 … 9  _  .  ( )  ,  !  + - * %  > =  and the space

  So there is no line break in it, no semicolon and no brace, wherever it is put.
-/
import ArtGrammar.Proofs.Shader.Transcription
import ArtGrammar.Proofs.Value.Failure

namespace ArtGrammar

open Shading

/-! ## §1. Characters of an expression. -/

/-- Whether a character can stand in an expression. -/
def Shading.isExpressionChar (c : Char) : Bool :=
  isWordRest c || c ∈ ['.', '(', ')', ',', '!', '+', '-', '*', '%', '>', '=', ' ']

/-- All characters can stand in an expression. -/
def Shading.IsExpressionText (text : String) : Prop := ∀ c ∈ text.toList, isExpressionChar c = true

/-- Whether a character can stand in a word or a number. -/
def Shading.isAtomChar (c : Char) : Bool := isWordRest c || c ∈ ['.', '-']

instance (text : String) : Decidable (IsExpressionText text) :=
  decidable_of_iff (text.toList.all isExpressionChar = true) List.all_eq_true

namespace Shading

theorem isAtomChar_of_isDigit {c : Char} (h : c.isDigit = true) : isAtomChar c = true := by
  unfold isAtomChar
  rw [isWordRest_of_isDigit h, Bool.true_or]

theorem isExpressionChar_of_isAtomChar {c : Char} (h : isAtomChar c = true) :
    isExpressionChar c = true := by
  unfold isAtomChar at h
  unfold isExpressionChar
  rw [Bool.or_eq_true, decide_eq_true_iff] at h ⊢
  refine h.imp id fun hc => ?_
  rcases List.mem_pair.1 hc with rfl | rfl
  · decide
  · decide

theorem IsExpressionText.append {s t : String} (hs : IsExpressionText s) (ht : IsExpressionText t) :
    IsExpressionText (s ++ t) := by
  intro c hc
  rw [String.toList_append, List.mem_append] at hc
  exact hc.elim (hs c) (ht c)

theorem isAtomChar_of_isWord {w : String} (h : isWord w = true) :
    ∀ c ∈ w.toList, isAtomChar c = true := by
  intro c hc
  unfold isAtomChar
  rw [isWordRest_of_isWord h c hc, Bool.true_or]

theorem isAtomChar_of_literal {n : Numeral} (hn : n.Proper) (neg : Bool) :
    ∀ c ∈ (n.literal neg).toList, isAtomChar c = true := by
  have hdigits : ∀ k : Nat, ∀ c ∈ Nat.toDigits 10 k, isAtomChar c = true :=
    fun k c hc => isAtomChar_of_isDigit (Numeral.isDigit_of_mem_toDigits hc)
  intro c hc
  unfold Numeral.literal Numeral.chars at hc
  rw [String.toList_ofList, List.mem_append, List.mem_append, List.mem_append] at hc
  rcases hc with hc | (hc | hc) | hc
  · cases neg with
    | false => cases hc
    | true =>
        rw [List.mem_singleton.1 hc]
        decide
  · exact isAtomChar_of_isDigit (hn.whole c hc)
  · unfold Numeral.fractionChars at hc
    split at hc
    · cases hc
    · rcases List.mem_cons.1 hc with rfl | hc
      · decide
      · exact isAtomChar_of_isDigit (hn.fraction c hc)
  · unfold Numeral.exponentChars at hc
    split at hc
    · cases hc
    next power _ =>
      rcases List.mem_cons.1 hc with rfl | hc
      · decide
      -- an exponent has a minus sign at most
      change c ∈ Numeral.intChars power at hc
      unfold Numeral.intChars at hc
      split at hc
      · exact hdigits _ c hc
      · rcases List.mem_cons.1 hc with rfl | hc
        · decide
        · exact hdigits _ c hc

theorem isAtomChar_of_spell? {style : NumberStyle} {v : Single} {text : String}
    (h : style.spell? v = some text) : ∀ c ∈ text.toList, isAtomChar c = true := by
  cases v with
  | nan => cases h
  | infinite neg => cases h
  | finite neg rank =>
      rw [style.spell?_finite neg rank, Option.some.injEq] at h
      subst h
      exact isAtomChar_of_literal (style.proper_numeral neg rank) neg

theorem isExpressionText_of_isWord {w : String} (h : isWord w = true) : IsExpressionText w :=
  fun c hc => isExpressionChar_of_isAtomChar (isAtomChar_of_isWord h c hc)

/-! ## §2. Parts of a text. -/

theorem isExpressionText_sign (op : Arith) : IsExpressionText op.sign := by
  cases op with
  | add => decide
  | mult => decide
  | mod => decide

theorem IsExpressionText.infixText {sign left right : String} (hsign : IsExpressionText sign)
    (hleft : IsExpressionText left) (hright : IsExpressionText right) :
    IsExpressionText (infixText sign left right) := by
  have hspace : IsExpressionText " " := by decide
  unfold ArtGrammar.infixText
  have hbefore : IsExpressionText ("(" ++ left ++ " ") :=
    (IsExpressionText.append (by decide) hleft).append hspace
  exact (((hbefore.append hsign).append hspace).append hright).append (by decide)

theorem IsExpressionText.vectorText {d : Dialect} (hd : d.HasWords) {first second third : String}
    (hfirst : IsExpressionText first) (hsecond : IsExpressionText second)
    (hthird : IsExpressionText third) : IsExpressionText (d.vectorText first second third) := by
  have hcomma : IsExpressionText ", " := by decide
  have hopening : IsExpressionText (d.vectorConstructor ++ "(") :=
    (isExpressionText_of_isWord hd.vector).append (by decide)
  unfold Dialect.vectorText
  exact (((((hopening.append hfirst).append hcomma).append hsecond).append hcomma).append
    hthird).append (by decide)

theorem IsExpressionText.blendText {d : Dialect} (hd : d.HasWords) {test yes no : String}
    (htest : IsExpressionText test) (hyes : IsExpressionText yes) (hno : IsExpressionText no) :
    IsExpressionText (d.blendText test yes no) := by
  have hcast := isExpressionText_of_isWord hd.cast
  unfold Dialect.blendText
  have hfirst : IsExpressionText
      ("(" ++ d.boolCast ++ "(" ++ test ++ ") * (" ++ yes ++ ") + ") := by
    have hhead : IsExpressionText ("(" ++ d.boolCast ++ "(") :=
      (IsExpressionText.append (by decide) hcast).append (by decide)
    exact (((hhead.append htest).append (by decide)).append hyes).append (by decide)
  have hsecond := ((hfirst.append hcast).append (t := "(!(") (by decide)).append htest
  exact ((hsecond.append (t := ")) * (") (by decide)).append hno).append (by decide)

end Shading

/-! ## §3. Trees. -/

/-- The property holds of words and literals, and of all that is put together from texts
that have it. -/
structure Shading.Compositional (d : Dialect) (P : String → Prop) : Prop where
  atom : ∀ {text : String}, (∀ c ∈ text.toList, isAtomChar c = true) → P text
  abs : ∀ {a : String}, P a → P ("abs(" ++ a ++ ")")
  arith : ∀ (op : Arith) {a b : String}, P a → P b → P (infixText op.sign a b)
  ge : ∀ {a b : String}, P a → P b → P (infixText ">=" a b)
  vector : ∀ {a b c : String}, P a → P b → P c → P (d.vectorText a b c)
  blend : ∀ {test yes no : String}, P test → P yes → P no → P (d.blendText test yes no)

/-- **WHAT IS COMPOSITIONAL HOLDS OF ALL TEXTS OF TREES.** -/
theorem Shading.Compositional.of_transcribe {d : Dialect} {P : String → Prop}
    (hP : Compositional d P) (hd : d.HasWords) (e : Expr) :
    ∀ text, e.transcribe d = .ok text → P text := by
  induction e with
  | var v =>
      intro text h
      obtain ⟨_, _, ⟨⟩⟩ := bind_eq_ok.1 h
      exact hP.atom (isAtomChar_of_isWord (hd.names v))
  | number v =>
      intro text h
      obtain ⟨_, _, h⟩ := bind_eq_ok.1 h
      unfold Dialect.literal at h
      split at h
      next hs =>
        cases h
        exact hP.atom (isAtomChar_of_spell? hs)
      · cases h
  | boolean b =>
      intro text h
      obtain ⟨_, _, ⟨⟩⟩ := bind_eq_ok.1 h
      exact hP.atom (isAtomChar_of_isWord (hd.truths b))
  | abs a iha =>
      intro text h
      obtain ⟨_, _, h⟩ := bind_eq_ok.1 h
      obtain ⟨inner, ha, ⟨⟩⟩ := bind_eq_ok.1 h
      exact hP.abs (iha inner ha)
  | arith op a b iha ihb =>
      intro text h
      obtain ⟨_, _, h⟩ := bind_eq_ok.1 h
      obtain ⟨left, ha, h⟩ := bind_eq_ok.1 h
      obtain ⟨right, hb, ⟨⟩⟩ := bind_eq_ok.1 h
      exact hP.arith op (iha left ha) (ihb right hb)
  | ge a b iha ihb =>
      intro text h
      obtain ⟨_, _, h⟩ := bind_eq_ok.1 h
      obtain ⟨left, ha, h⟩ := bind_eq_ok.1 h
      obtain ⟨right, hb, ⟨⟩⟩ := bind_eq_ok.1 h
      exact hP.ge (iha left ha) (ihb right hb)
  | triple a b c iha ihb ihc =>
      intro text h
      obtain ⟨_, _, h⟩ := bind_eq_ok.1 h
      obtain ⟨first, ha, h⟩ := bind_eq_ok.1 h
      obtain ⟨second, hb, h⟩ := bind_eq_ok.1 h
      obtain ⟨third, hc, ⟨⟩⟩ := bind_eq_ok.1 h
      exact hP.vector (iha first ha) (ihb second hb) (ihc third hc)
  | cond test yes no iha ihb ihc =>
      intro text h
      obtain ⟨_, _, h⟩ := bind_eq_ok.1 h
      obtain ⟨first, ha, h⟩ := bind_eq_ok.1 h
      obtain ⟨second, hb, h⟩ := bind_eq_ok.1 h
      obtain ⟨third, hc, ⟨⟩⟩ := bind_eq_ok.1 h
      exact hP.blend (iha first ha) (ihb second hb) (ihc third hc)
  | random => exact fun _ h => nomatch h
  | rule name => exact fun _ h => nomatch h

theorem Shading.compositional_isExpressionText {d : Dialect} (hd : d.HasWords) :
    Compositional d IsExpressionText where
  atom := fun h c hc => isExpressionChar_of_isAtomChar (h c hc)
  abs := fun h => (IsExpressionText.append (by decide) h).append (by decide)
  arith := fun op _ _ ha hb => (isExpressionText_sign op).infixText ha hb
  ge := fun ha hb => IsExpressionText.infixText (by decide) ha hb
  vector := fun ha hb hc => .vectorText hd ha hb hc
  blend := fun htest hyes hno => .blendText hd htest hyes hno

/-- **A TEXT IS MADE OF THE CHARACTERS OF EXPRESSIONS ALONE.** -/
theorem Expr.isExpressionText_of_transcribe {d : Dialect} (hd : d.HasWords) (e : Expr) :
    ∀ text, e.transcribe d = .ok text → IsExpressionText text :=
  (compositional_isExpressionText hd).of_transcribe hd e

end ArtGrammar
