/-
  ArtGrammar.Proofs.Shader.Token
  ────────────────────────────────
  **THE TOKENS OF SHADER TEXT.**

  An expression of a shading language is a sequence of tokens, with white space
  between them of no account:

      word      a letter or `_`, then letters, digits and `_`
      number    an unsigned numeral, or one behind a minus sign
      signs     ( ) , ! + * % >=

  A word and a number go on as far as they can, so what is written behind them
  must break them off; a sign needs nothing of the kind.  Each number that a
  style can spell is read back as one token, of the same value.
-/
import ArtGrammar.Proofs.Shader.Literal

namespace ArtGrammar.Shading

/-! ## §1. Tokens. -/

/-- The binary operators. -/
inductive Operator where
  | arith (op : Arith)
  /-- Whether the left operand is at least the right one. -/
  | ge
  deriving DecidableEq, Repr

/-- The tokens of an expression. -/
inductive Token where
  | word (text : String)
  | number (value : Single)
  | opening
  | closing
  | comma
  | bang
  | operator (op : Operator)
  deriving DecidableEq, Repr

/-- The token that is a single sign. -/
def sign? : Char → Option Token
  | '(' => some .opening
  | ')' => some .closing
  | ',' => some .comma
  | '!' => some .bang
  | '+' => some (.operator (.arith .add))
  | '*' => some (.operator (.arith .mult))
  | '%' => some (.operator (.arith .mod))
  | _ => none

/-- Whether a word can begin with the character. -/
def isWordStart (c : Char) : Bool := c.isAlpha || c == '_'

/-- Whether a word can go on with the character. -/
def isWordRest (c : Char) : Bool := c.isAlphanum || c == '_'

/-- Whether the text is a word. -/
def isWord (w : String) : Bool :=
  match w.toList with
  | [] => false
  | c :: s => isWordStart c && s.all isWordRest

/-! ## §2. Reading tokens. -/

/-- Reads a numeral as a number of the given sign. -/
def readNumber (neg : Bool) (s : List Char) : Option (Token × List Char) :=
  (Numeral.read false s).map fun r => (.number (Single.ofDecimal neg r.1.decimal), r.2)

/-- Reads the token at the front of a text. -/
def readToken : List Char → Option (Token × List Char)
  | [] => none
  | c :: s =>
    match sign? c with
    | some token => some (token, s)
    | none =>
      if c = '>' then
        match s with
        | '=' :: s => some (.operator .ge, s)
        | _ => none
      else if c = '-' then readNumber true s
      else if c.isDigit then readNumber false (c :: s)
      else if isWordStart c then
        some (.word (String.ofList ((c :: s).takeWhile isWordRest)), (c :: s).dropWhile isWordRest)
      else none

/-- The tokens of a text, if it consists of tokens. -/
def tokens? : List Char → Option (List Token)
  | [] => some []
  | c :: s =>
    if c.isWhitespace then tokens? s
    else
      match readToken (c :: s) with
      | none => none
      | some (token, rest) =>
        if rest.length < (c :: s).length then (tokens? rest).map (token :: ·) else none
termination_by s => s.length
decreasing_by
  · exact Nat.lt_succ_self s.length
  · assumption

/-! ## §3. One token. -/

theorem tokens?_nil : tokens? [] = some [] := by
  unfold tokens?
  rfl

/-- A space is passed over. -/
theorem tokens?_space {s : List Char} {more : List Token} (hs : tokens? s = some more) :
    tokens? (' ' :: s) = some more := by
  unfold tokens?
  rw [if_pos (by decide)]
  exact hs

/-- A token stands before those of the rest. -/
theorem tokens?_of_readToken {c : Char} {s rest : List Char} {token : Token} {more : List Token}
    (hc : c.isWhitespace = false) (hread : readToken (c :: s) = some (token, rest))
    (hlt : rest.length < (c :: s).length) (hrest : tokens? rest = some more) :
    tokens? (c :: s) = some (token :: more) := by
  unfold tokens?
  rw [hc, hread]
  simp only [Bool.false_eq_true, if_false]
  rw [if_pos hlt, hrest]
  rfl

/-- No sign is white space. -/
theorem isWhitespace_of_sign? {c : Char} {token : Token} (h : sign? c = some token) :
    c.isWhitespace = false := by
  unfold sign? at h
  split at h
  all_goals first
    | decide
    | cases h

theorem tokens?_sign {c : Char} {s : List Char} {token : Token} {more : List Token}
    (h : sign? c = some token) (hs : tokens? s = some more) :
    tokens? (c :: s) = some (token :: more) := by
  apply tokens?_of_readToken (isWhitespace_of_sign? h) _ (Nat.lt_succ_self _) hs
  unfold readToken
  simp only [h]

theorem tokens?_ge {s : List Char} {more : List Token} (hs : tokens? s = some more) :
    tokens? ('>' :: '=' :: s) = some (.operator .ge :: more) := by
  apply tokens?_of_readToken (by decide) _ _ hs
  · rfl
  · show s.length < s.length + 2
    omega

/-! ## §4. Words and numbers. -/

/-- Neither a word nor a number goes on into the text. -/
def Breaks (rest : List Char) : Prop := ∀ c ∈ rest.head?, isWordRest c = false ∧ c ≠ '.'

theorem breaks_nil : Breaks [] := by
  intro c hc
  cases hc

theorem breaks_cons {c : Char} {s : List Char} (hc : isWordRest c = false) (hpoint : c ≠ '.') :
    Breaks (c :: s) := by
  intro d hd
  cases hd
  exact ⟨hc, hpoint⟩

/-- What breaks off a word ends a numeral. -/
theorem Breaks.ends {rest : List Char} (h : Breaks rest) : Numeral.Ends rest := by
  intro c hc
  obtain ⟨hrest, hpoint⟩ := h c hc
  refine ⟨?_, hpoint, ?_, ?_⟩
  · unfold isWordRest Char.isAlphanum at hrest
    rw [Bool.or_eq_false_iff, Bool.or_eq_false_iff] at hrest
    exact hrest.1.2
  · rintro rfl
    exact absurd hrest (by decide)
  · rintro rfl
    exact absurd hrest (by decide)

/-- The text is read as the tokens, wherever it is broken off. -/
def Reads (text : String) (tokens : List Token) : Prop :=
  ∀ rest more, Breaks rest → tokens? rest = some more →
    tokens? (text.toList ++ rest) = some (tokens ++ more)

/-- A text that is all there is. -/
theorem Reads.tokens?_eq {text : String} {tokens : List Token} (h : Reads text tokens) :
    tokens? text.toList = some tokens := by
  have hall := h [] [] breaks_nil tokens?_nil
  rwa [List.append_nil, List.append_nil] at hall

/-- The characters of words and numbers are neither signs nor white space. -/
theorem sign?_of_isWordRest {c : Char} (h : isWordRest c = true) : sign? c = none := by
  unfold sign?
  split
  all_goals first
    | rfl
    | exact absurd h (by decide)

theorem isWhitespace_of_isWordRest {c : Char} (h : isWordRest c = true) :
    c.isWhitespace = false := by
  rw [← Bool.not_eq_true]
  intro hspace
  unfold Char.isWhitespace at hspace
  simp only [Bool.or_eq_true, decide_eq_true_eq] at hspace
  rcases hspace with ((rfl | rfl) | rfl) | rfl
  all_goals exact absurd h (by decide)

theorem isWordRest_of_isDigit {c : Char} (h : c.isDigit = true) : isWordRest c = true := by
  unfold isWordRest Char.isAlphanum
  rw [h, Bool.or_true, Bool.true_or]

theorem isWordRest_of_isWordStart {c : Char} (h : isWordStart c = true) : isWordRest c = true := by
  unfold isWordStart at h
  unfold isWordRest Char.isAlphanum
  rw [Bool.or_eq_true] at h
  rcases h with h | h
  · rw [h, Bool.true_or, Bool.true_or]
  · rw [h, Bool.or_true]

/-- No word begins with a digit. -/
theorem isDigit_of_isWordStart {c : Char} (h : isWordStart c = true) : c.isDigit = false := by
  rw [← Bool.not_eq_true]
  intro hdigit
  unfold isWordStart at h
  rw [Bool.or_eq_true] at h
  rcases h with h | h
  · -- all letters have greater code points than the digits
    change (decide ('A'.val ≤ c.val ∧ c.val ≤ 'Z'.val)
      || (decide ('a'.val ≤ c.val) && decide (c.val ≤ 'z'.val))) = true at h
    change (decide ('0'.val ≤ c.val) && decide (c.val ≤ '9'.val)) = true at hdigit
    rw [Bool.or_eq_true, Bool.and_eq_true, decide_eq_true_iff, decide_eq_true_iff] at h
    rw [Bool.and_eq_true, decide_eq_true_iff, decide_eq_true_iff] at hdigit
    have hnine : c.val.toNat ≤ 57 := UInt32.le_iff_toNat_le.1 hdigit.2
    rcases h with h | h
    · have hupper : 65 ≤ c.val.toNat := UInt32.le_iff_toNat_le.1 h.1
      omega
    · have hlower : 97 ≤ c.val.toNat := UInt32.le_iff_toNat_le.1 h.1
      omega
  · rw [beq_iff_eq] at h
    subst h
    exact absurd hdigit (by decide)

/-- A word begins as one, and goes on as one. -/
theorem exists_of_isWord {w : String} (h : isWord w = true) :
    ∃ c s, w.toList = c :: s ∧ isWordStart c = true ∧ ∀ d ∈ c :: s, isWordRest d = true := by
  unfold isWord at h
  split at h
  · cases h
  next c s hw =>
    rw [Bool.and_eq_true, List.all_eq_true] at h
    refine ⟨c, s, hw, h.1, fun d hd => ?_⟩
    rcases List.mem_cons.1 hd with rfl | hd
    · exact isWordRest_of_isWordStart h.1
    · exact h.2 d hd

theorem isWordRest_of_isWord {w : String} (h : isWord w = true) :
    ∀ c ∈ w.toList, isWordRest c = true := by
  obtain ⟨c, s, hw, _, hall⟩ := exists_of_isWord h
  rwa [hw]

/-- **A WORD IS READ AS ITSELF.** -/
theorem reads_word {w : String} (h : isWord w = true) : Reads w [.word w] := by
  intro rest more hrest hmore
  obtain ⟨c, s, hw, hc, hall⟩ := exists_of_isWord h
  -- the word is the run up to the break
  obtain ⟨htake, hdrop⟩ := takeWhile_append_of_stop hall (fun d hd => (hrest d hd).1)
  have hread : readToken (c :: (s ++ rest)) = some (.word w, rest) := by
    have hgt : c ≠ '>' := ne_of_class hc (by decide)
    have hminus : c ≠ '-' := ne_of_class hc (by decide)
    rw [List.cons_append] at htake hdrop
    unfold readToken
    simp only [sign?_of_isWordRest (isWordRest_of_isWordStart hc)]
    rw [if_neg hgt, if_neg hminus, isDigit_of_isWordStart hc, hc, htake, hdrop, ← hw,
      String.ofList_toList]
    rfl
  rw [hw, List.cons_append]
  apply tokens?_of_readToken (isWhitespace_of_isWordRest (isWordRest_of_isWordStart hc)) hread _
    hmore
  rw [List.length_cons, List.length_append]
  omega

/-- A proper numeral is read as the number that it denotes, with its sign. -/
theorem reads_numeral {n : Numeral} (hn : n.Proper) (neg : Bool) :
    Reads (String.ofList (Single.signChars neg ++ n.chars false))
      [.number (Single.ofDecimal neg n.decimal)] := by
  intro rest more hrest hmore
  obtain ⟨c, t, hchars, hdigit⟩ := Numeral.exists_digit_chars hn false
  -- behind the sign there is a numeral in either case
  have hnumber : ∀ sign, readNumber sign (n.chars false ++ rest)
      = some (.number (Single.ofDecimal sign n.decimal), rest) := by
    intro sign
    unfold readNumber
    rw [Numeral.read_chars hn hrest.ends]
    rfl
  rw [String.toList_ofList]
  cases neg with
  | true =>
      show tokens? ('-' :: (n.chars false ++ rest)) = _
      apply tokens?_of_readToken (by decide) _ _ hmore
      · show readNumber true _ = _
        exact hnumber true
      · rw [List.length_cons, List.length_append]
        omega
  | false =>
      have hrestc := isWordRest_of_isDigit hdigit
      have hgt : c ≠ '>' := ne_of_class hdigit (by decide)
      have hminus : c ≠ '-' := ne_of_class hdigit (by decide)
      have hread := hnumber false
      show tokens? (n.chars false ++ rest) = _
      rw [hchars, List.cons_append] at hread ⊢
      apply tokens?_of_readToken (isWhitespace_of_isWordRest hrestc) _ _ hmore
      · unfold readToken
        simp only [sign?_of_isWordRest hrestc]
        rw [if_neg hgt, if_neg hminus, if_pos hdigit]
        exact hread
      · rw [List.length_cons, List.length_append]
        omega

/-- **A SPELLED NUMBER IS READ AS ITSELF.** -/
theorem reads_spell? {style : NumberStyle} {v : Single} {text : String}
    (h : style.spell? v = some text) : Reads text [.number v] := by
  cases v with
  | nan => cases h
  | infinite neg => cases h
  | finite neg rank =>
      rw [style.spell?_finite neg rank, Option.some.injEq] at h
      subst h
      have hread := reads_numeral (style.proper_numeral neg rank) neg
      rwa [Single.ofDecimal_of_value_eq_shortest neg (style.value_numeral neg rank)] at hread

end ArtGrammar.Shading
