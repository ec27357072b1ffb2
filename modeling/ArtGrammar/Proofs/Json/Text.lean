/-
  ArtGrammar.Proofs.Json.Text
  ────────────────────────────────
  **WRITTEN JSON IS READ BACK.**

  A value stands in a text before a comma, a closing bracket or nothing, which
  none of its numbers goes on into.  Read from there it is the same value, and
  what stands behind it is left:

      read (chars v ++ rest)  =  (v, rest)

  Strings are any texts; a number has digits on both sides of a point and no zero
  before its other digits.
-/
import ArtGrammar.Json.Reader
import ArtGrammar.Json.Writer
import ArtGrammar.Proofs.Decimal.Writing

namespace ArtGrammar.JsonValue

open Numeral (Ends)

/-! ## §1. Strings. -/

/-- The controls that have an escape of one letter. -/
def namedControls : List Char := ['\n', '\r', '\t', '\x08', '\x0c']

/-- What a written character is read as: a control without a name is a unit. -/
def pieceOf (c : Char) : Piece :=
  if c.toNat < 0x20 ∧ c ∉ namedControls then .unit c.toNat else .char c

theorem hexValue?_hexPair : ∀ n < 0x20, Text.hexValue? (Nat.digitChar (n / 16)) = some (n / 16)
    ∧ Text.hexValue? (Nat.digitChar (n % 16)) = some (n % 16) := by
  decide

/-- A written character is read as its piece. -/
theorem readPieces_stringChar (c : Char) (s : List Char) :
    readPieces (stringChar c ++ s) = (readPieces s).map fun r => (pieceOf c :: r.1, r.2) := by
  have hbind : ∀ piece : Piece, ((readPieces s).bind fun r => some (piece :: r.1, r.2))
      = (readPieces s).map fun r => (piece :: r.1, r.2) := by
    intro piece
    cases readPieces s with
    | none => rfl
    | some r => rfl
  unfold stringChar
  split
  -- the escapes of one letter
  iterate 7 exact hbind _
  next hquote hbackslash hnewline hreturn htab hback hfeed =>
    have hnamed : c ∉ namedControls := by
      intro hmem
      simp only [namedControls, List.mem_cons, List.not_mem_nil, or_false] at hmem
      rcases hmem with rfl | rfl | rfl | rfl | rfl
      · exact hnewline rfl
      · exact hreturn rfl
      · exact htab rfl
      · exact hback rfl
      · exact hfeed rfl
    split
    next hcontrol =>
      -- the two last digits of an escape by code point are the number itself
      obtain ⟨hhigh, hlow⟩ := hexValue?_hexPair c.toNat hcontrol
      have hzero : Text.hexValue? '0' = some 0 := by decide
      have hnumber : c.toNat / 16 * 16 + c.toNat % 16 = c.toNat := Nat.div_add_mod' _ _
      unfold pieceOf
      rw [if_pos ⟨hcontrol, hnamed⟩, ← hbind]
      show readPieces ('\\' :: 'u' :: '0' :: '0' :: Nat.digitChar (c.toNat / 16)
        :: Nat.digitChar (c.toNat % 16) :: s) = _
      conv => lhs; unfold readPieces
      simp only [hhigh, hlow, hzero, Option.bind_eq_bind, Option.bind_some, hnumber, Nat.zero_mul,
        Nat.zero_add]
      rfl
    next hplain =>
      unfold pieceOf
      rw [if_neg fun h => hplain h.1, ← hbind]
      show readPieces (c :: s) = _
      conv => lhs; unfold readPieces
      split
      next h => cases h
      next h => exact absurd (List.cons.inj h).1 hquote
      next h => exact absurd (List.cons.inj h).1 hbackslash
      next h => exact absurd (List.cons.inj h).1 hbackslash
      next h =>
        obtain ⟨rfl, rfl⟩ := List.cons.inj h
        rw [if_neg fun h => h.elim hplain hbackslash]
        rfl

theorem readPieces_written (rest : List Char) :
    ∀ s : List Char,
      readPieces (s.flatMap stringChar ++ '"' :: rest) = some (s.map pieceOf, rest) := by
  intro s
  induction s with
  | nil => rfl
  | cons c s ih =>
      rw [List.flatMap_cons, List.append_assoc, readPieces_stringChar, ih]
      rfl

/-- A unit that is no half of a pair is a character, whatever follows. -/
theorem joinPieces_unit {n : Nat} (hn : n < 0x20) (rest : List Piece) :
    joinPieces (.unit n :: rest) = (joinPieces rest).map (Char.ofNat n :: ·) := by
  have hhigh : isHighHalf n = false := by
    unfold isHighHalf
    rw [decide_eq_false (by omega), Bool.false_and]
  have hlow : isLowHalf n = false := by
    unfold isLowHalf
    rw [decide_eq_false (by omega), Bool.false_and]
  cases rest with
  | nil => simp [joinPieces, hhigh, hlow]
  | cons piece rest =>
      cases piece with
      | char c => simp [joinPieces, hhigh, hlow]
      | unit m => simp [joinPieces, hhigh, hlow]

/-- The pieces of a text are its characters. -/
theorem joinPieces_pieceOf (s : List Char) : joinPieces (s.map pieceOf) = some s := by
  induction s with
  | nil => rfl
  | cons c s ih =>
      by_cases h : c.toNat < 0x20 ∧ c ∉ namedControls
      · have hpiece : pieceOf c = .unit c.toNat := if_pos h
        rw [List.map_cons, hpiece, joinPieces_unit h.1, ih, Char.ofNat_toNat]
        rfl
      · have hpiece : pieceOf c = .char c := if_neg h
        rw [List.map_cons, hpiece]
        show (joinPieces (s.map pieceOf)).map (c :: ·) = _
        rw [ih]
        rfl

/-- **A STRING IS READ BACK**, also one without a text. -/
theorem readString_stringChars (t : Option String) (rest : List Char) :
    ∃ s, stringChars t = '"' :: s ∧ readString (s ++ rest) = some (t, rest) := by
  cases t with
  | none =>
      -- half of a pair alone is a string without a text
      refine ⟨['\\', 'u', 'd', '8', '0', '0', '"'], by decide, ?_⟩
      have hd : Text.hexValue? 'd' = some 13 := by decide
      have height : Text.hexValue? '8' = some 8 := by decide
      have hzero : Text.hexValue? '0' = some 0 := by decide
      have hhalf : joinPieces [.unit 0xd800] = none := by decide
      have hpieces : readPieces ('\\' :: 'u' :: 'd' :: '8' :: '0' :: '0' :: '"' :: rest)
          = some ([.unit 0xd800], rest) := by
        conv => lhs; unfold readPieces
        simp only [hd, height, hzero, Option.bind_eq_bind, Option.bind_some]
        rfl
      show readString ('\\' :: 'u' :: 'd' :: '8' :: '0' :: '0' :: '"' :: rest) = _
      unfold readString
      rw [hpieces, Option.bind_eq_bind, Option.bind_some]
      simp only [hhalf]
      rfl
  | some t =>
      refine ⟨_, rfl, ?_⟩
      unfold readString
      rw [List.append_assoc, List.singleton_append, readPieces_written, Option.bind_eq_bind,
        Option.bind_some]
      simp only [joinPieces_pieceOf, Option.map_some, String.ofList_toList]
      rfl

/-! ## §2. Numbers. -/

/-- No zero stands before the other digits. -/
def LeadsPlainly (n : Numeral) : Prop := n.whole.head? = some '0' → n.whole = ['0']

/-- A numeral is read back as a number. -/
theorem readNumber_chars (neg : Bool) {n : Numeral} (hn : n.Proper) (hplain : LeadsPlainly n)
    {rest : List Char} (hrest : Ends rest) :
    readNumber neg (n.chars true ++ rest) = some (.number neg n, rest) := by
  unfold readNumber
  rw [Numeral.read_chars hn hrest, Option.bind_eq_bind, Option.bind_some]
  dsimp only
  split
  next d digits hwhole =>
    -- a zero with a digit behind it is what the reader refuses
    have hzero := hplain (by rw [hwhole]; rfl)
    rw [hwhole] at hzero
    cases hzero
  next => rfl

/-! ## §3. Values. -/

/-- The values whose text is read back. -/
inductive Readable : JsonValue → Prop where
  | null : Readable .null
  | bool (b : Bool) : Readable (.bool b)
  | number (neg : Bool) {n : Numeral} (hn : n.Proper) (hplain : LeadsPlainly n) :
      Readable (.number neg n)
  | string (t : Option String) : Readable (.string t)
  | array {items : List JsonValue} (hitems : ∀ v ∈ items, Readable v) : Readable (.array items)
  | object {members : List (Option String × JsonValue)} (hmembers : ∀ m ∈ members, Readable m.2) :
      Readable (.object members)

/-- The text begins with a character that is neither blank nor closes anything. -/
def Opens (s : List Char) : Prop :=
  ∃ c t, s = c :: t ∧ isBlank c = false ∧ c ≠ ']' ∧ c ≠ '\x7d'

theorem skipBlanks_cons {c : Char} {s : List Char} (hc : isBlank c = false) :
    skipBlanks (c :: s) = c :: s := by
  unfold skipBlanks
  rw [List.dropWhile_cons_of_neg (by rw [hc]; decide)]

theorem isBlank_of_isDigit {c : Char} (hc : c.isDigit = true) : isBlank c = false := by
  have hspace : c ≠ ' ' := ne_of_class hc (by decide)
  have hnewline : c ≠ '\n' := ne_of_class hc (by decide)
  have htab : c ≠ '\t' := ne_of_class hc (by decide)
  have hreturn : c ≠ '\r' := ne_of_class hc (by decide)
  unfold isBlank
  simp [hspace, hnewline, htab, hreturn]

theorem opens_chars {v : JsonValue} (hv : Readable v) : Opens (chars v) := by
  cases hv with
  | null => exact ⟨_, _, rfl, by decide, by decide, by decide⟩
  | bool b =>
      cases b with
      | true => exact ⟨_, _, rfl, by decide, by decide, by decide⟩
      | false => exact ⟨_, _, rfl, by decide, by decide, by decide⟩
  | number neg hn hplain =>
      unfold chars
      cases neg with
      | true => exact ⟨_, _, rfl, by decide, by decide, by decide⟩
      | false =>
          obtain ⟨c, t, hchars, hc⟩ := Numeral.exists_digit_chars hn true
          exact ⟨c, t, hchars, isBlank_of_isDigit hc, ne_of_class hc (by decide),
            ne_of_class hc (by decide)⟩
  | string t =>
      obtain ⟨s, hs, _⟩ := readString_stringChars t []
      unfold chars
      exact ⟨_, _, hs, by decide, by decide, by decide⟩
  | @array items hitems =>
      cases items with
      | nil => exact ⟨_, _, rfl, by decide, by decide, by decide⟩
      | cons v items => exact ⟨_, _, rfl, by decide, by decide, by decide⟩
  | @object members hmembers =>
      cases members with
      | nil => exact ⟨_, _, rfl, by decide, by decide, by decide⟩
      | cons m members => exact ⟨_, _, rfl, by decide, by decide, by decide⟩

/-- No value is written with nothing. -/
theorem exists_eq_succ {v : JsonValue} (hv : Readable v) {n : Nat} (hn : (chars v).length ≤ n) :
    ∃ m, n = m + 1 := by
  obtain ⟨c, t, htext, _⟩ := opens_chars hv
  rw [htext, List.length_cons] at hn
  exact ⟨n - 1, by omega⟩

/-! ## §4. Lists. -/

/-- The character ends an array or an object. -/
def Closes (c : Char) : Prop := c = ']' ∨ c = '\x7d'

theorem Closes.isBlank {c : Char} (h : Closes c) : isBlank c = false := by
  rcases h with rfl | rfl
  · decide
  · decide

theorem Closes.ne_comma {c : Char} (h : Closes c) : c ≠ ',' := by
  rcases h with rfl | rfl
  · decide
  · decide

theorem Closes.ends {c : Char} (h : Closes c) (s : List Char) : Ends (c :: s) := by
  intro d hd
  cases hd
  rcases h with rfl | rfl
  · decide
  · decide

theorem ends_comma (s : List Char) : Ends (',' :: s) := by
  intro d hd
  cases hd
  decide

section
variable {α : Type} {item : List Char → Option (α × List Char)} {write : α → List Char}
  {close : Char}

/-- What follows the first item of a list, up to its end. -/
def following (write : α → List Char) (close : Char) (items : List α) : List Char :=
  items.flatMap (fun a => ',' :: write a) ++ [close]

/-- Items that are read back one by one are read back as a list. -/
theorem readItems_written (hclose : Closes close) (rest : List Char) (items : List α) :
    ∀ a n, items.length < n →
      (∀ b ∈ a :: items, ∀ s, Ends s → item (write b ++ s) = some (b, s)) →
      readItems item close n (write a ++ (following write close items ++ rest))
        = some (a :: items, rest) := by
  induction items with
  | nil =>
      intro a n hn hitem
      obtain ⟨n, rfl⟩ : ∃ m, n = m + 1 := ⟨n - 1, by omega⟩
      -- neither a comma nor a closing character goes on with the item before it
      have hfirst := hitem a List.mem_cons_self (close :: rest) (hclose.ends rest)
      show readItems item close (n + 1) (write a ++ close :: rest) = _
      unfold readItems
      rw [hfirst, Option.bind_eq_bind, Option.bind_some]
      simp only [skipBlanks_cons hclose.isBlank]
      rw [if_neg hclose.ne_comma]
      rfl
  | cons b items ih =>
      intro a n hn hitem
      obtain ⟨n, rfl⟩ : ∃ m, n = m + 1 := ⟨n - 1, by omega⟩
      have hfirst := hitem a List.mem_cons_self
        (',' :: (write b ++ (following write close items ++ rest))) (ends_comma _)
      have hmore := ih b n (Nat.lt_of_succ_lt_succ hn)
        (fun d hd => hitem d (List.mem_cons_of_mem a hd))
      have htext : following write close (b :: items) ++ rest
          = ',' :: (write b ++ (following write close items ++ rest)) := by
        unfold following
        simp
      rw [htext]
      unfold readItems
      rw [hfirst, Option.bind_eq_bind, Option.bind_some]
      simp only [skipBlanks_cons (c := ',') (by decide), if_true]
      rw [hmore]
      rfl

/-- A list that is not empty is read back behind its opening character. -/
theorem readList_written (hclose : Closes close) {a : α} {items : List α} {n : Nat}
    (hopens : Opens (write a)) (hn : items.length < n)
    (hitem : ∀ b ∈ a :: items, ∀ s, Ends s → item (write b ++ s) = some (b, s)) (rest : List Char) :
    readList item close n (write a ++ (following write close items ++ rest))
      = some (a :: items, rest) := by
  have hread := readItems_written hclose rest items a n hn hitem
  obtain ⟨c, t, htext, hblank, hbracket, hbrace⟩ := hopens
  have hne : c ≠ close := by
    rintro rfl
    rcases hclose with h | h
    · exact hbracket h
    · exact hbrace h
  rw [htext, List.cons_append] at hread ⊢
  unfold readList
  rw [skipBlanks_cons hblank]
  show (if c = close then _ else _) = _
  rw [if_neg hne]
  exact hread

/-- No item is longer than the list, and there are no more items than characters. -/
theorem length_le_length_following {a b : α} {items : List α} (hb : b ∈ a :: items) :
    (write b).length ≤ (write a ++ following write close items).length := by
  unfold following
  rcases List.mem_cons.1 hb with rfl | hb
  · rw [List.length_append]
    omega
  · obtain ⟨before, behind, rfl⟩ := List.append_of_mem hb
    simp only [List.flatMap_append, List.flatMap_cons, List.length_append, List.length_cons]
    omega

theorem length_lt_length_following (write : α → List Char) (close : Char) (items : List α) :
    items.length < (following write close items).length := by
  unfold following
  rw [List.length_append, List.length_singleton]
  induction items with
  | nil => exact Nat.lt_succ_self _
  | cons a items ih =>
      rw [List.flatMap_cons, List.length_append, List.length_cons, List.length_cons]
      omega

end

/-! ## §5. Values. -/

/-- A member of an object. -/
def memberText (m : Option String × JsonValue) : List Char := stringChars m.1 ++ ':' :: chars m.2

theorem itemChars_eq (items : List JsonValue) : itemChars items = following chars ']' items := by
  induction items with
  | nil => rfl
  | cons v items ih =>
      unfold itemChars
      rw [ih]
      unfold following
      simp

theorem memberChars_eq (members : List (Option String × JsonValue)) :
    memberChars members = following memberText '\x7d' members := by
  induction members with
  | nil => rfl
  | cons m members ih =>
      unfold memberChars
      rw [ih]
      unfold following memberText
      simp

/-- A member is read back if its value is. -/
theorem readMember_memberText {value : List Char → Option (JsonValue × List Char)}
    {m : Option String × JsonValue} {rest : List Char}
    (hvalue : value (chars m.2 ++ rest) = some (m.2, rest)) :
    readMember value (memberText m ++ rest) = some (m, rest) := by
  obtain ⟨s, hs, hname⟩ := readString_stringChars m.1 (':' :: (chars m.2 ++ rest))
  have htext : memberText m ++ rest = '"' :: (s ++ ':' :: (chars m.2 ++ rest)) := by
    unfold memberText
    rw [hs]
    simp
  rw [htext]
  unfold readMember
  rw [skipBlanks_cons (by decide)]
  simp only [hname, Option.bind_eq_bind, Option.bind_some]
  rw [skipBlanks_cons (by decide)]
  simp only [hvalue, Option.bind_some]
  rfl

/-- What opens a number opens nothing else. -/
theorem readValue_digit {n : Nat} {c : Char} {s : List Char} (hc : c.isDigit = true) :
    readValue (n + 1) (c :: s) = readNumber false (c :: s) := by
  unfold readValue
  rw [skipBlanks_cons (isBlank_of_isDigit hc)]
  split
  next h => exact absurd (List.cons.inj h).1 (ne_of_class hc (by decide))
  next h => exact absurd (List.cons.inj h).1 (ne_of_class hc (by decide))
  next h => exact absurd (List.cons.inj h).1 (ne_of_class hc (by decide))
  next h => exact absurd (List.cons.inj h).1 (ne_of_class hc (by decide))
  next h => exact absurd (List.cons.inj h).1 (ne_of_class hc (by decide))
  next h => exact absurd (List.cons.inj h).1 (ne_of_class hc (by decide))
  next h => exact absurd (List.cons.inj h).1 (ne_of_class hc (by decide))
  next => rfl

/-- The text of an array that is not empty. -/
theorem chars_array (v : JsonValue) (items : List JsonValue) :
    chars (.array (v :: items)) = '[' :: (chars v ++ following chars ']' items) := by
  conv => lhs; unfold chars
  rw [itemChars_eq]

/-- The text of an object that is not empty. -/
theorem chars_object (m : Option String × JsonValue) (members : List (Option String × JsonValue)) :
    chars (.object (m :: members))
      = '\x7b' :: (memberText m ++ following memberText '\x7d' members) := by
  obtain ⟨name, v⟩ := m
  conv => lhs; unfold chars
  rw [memberChars_eq]
  unfold memberText
  simp

section
variable {n : Nat} {rest : List Char}

/-- An array is read back if its items are. -/
theorem readValue_array {v : JsonValue} {items : List JsonValue} (hopens : Opens (chars v))
    (hn : (chars (.array (v :: items))).length ≤ n + 1)
    (hitem : ∀ b ∈ v :: items, (chars b).length ≤ n →
      ∀ s, Ends s → readValue n (chars b ++ s) = some (b, s)) :
    readValue (n + 1) (chars (.array (v :: items)) ++ rest) = some (.array (v :: items), rest) := by
  rw [chars_array] at hn ⊢
  have hlength : (chars v ++ following chars ']' items).length ≤ n := Nat.le_of_succ_le_succ hn
  have hcount : items.length < n := by
    have hlt := length_lt_length_following chars ']' items
    rw [List.length_append] at hlength
    omega
  have hlist := readList_written (.inl rfl) hopens hcount
    (fun b hb => hitem b hb ((length_le_length_following hb).trans hlength)) rest
  rw [← List.append_assoc] at hlist
  show (readList (readValue n) ']' n (chars v ++ following chars ']' items ++ rest)).bind _ = _
  rw [hlist]
  rfl

/-- An object is read back if the values of its members are. -/
theorem readValue_object {m : Option String × JsonValue}
    {members : List (Option String × JsonValue)}
    (hn : (chars (.object (m :: members))).length ≤ n + 1)
    (hmember : ∀ b ∈ m :: members, (chars b.2).length ≤ n →
      ∀ s, Ends s → readValue n (chars b.2 ++ s) = some (b.2, s)) :
    readValue (n + 1) (chars (.object (m :: members)) ++ rest)
      = some (.object (m :: members), rest) := by
  rw [chars_object] at hn ⊢
  have hlength : (memberText m ++ following memberText '\x7d' members).length ≤ n :=
    Nat.le_of_succ_le_succ hn
  have hcount : members.length < n := by
    have hlt := length_lt_length_following memberText '\x7d' members
    rw [List.length_append] at hlength
    omega
  have hopens : Opens (memberText m) := by
    obtain ⟨s, hs, _⟩ := readString_stringChars m.1 []
    unfold memberText
    rw [hs]
    exact ⟨_, _, rfl, by decide, by decide, by decide⟩
  -- the value of a member is shorter than the member
  have hread : ∀ b ∈ m :: members, ∀ s, Ends s →
      readMember (readValue n) (memberText b ++ s) = some (b, s) := by
    intro b hb s hs
    have hshort : (chars b.2).length ≤ (memberText b).length := by
      unfold memberText
      rw [List.length_append, List.length_cons]
      omega
    have hle := (hshort.trans (length_le_length_following hb)).trans hlength
    exact readMember_memberText (hmember b hb hle s hs)
  have hlist := readList_written (.inr rfl) hopens hcount hread rest
  rw [← List.append_assoc] at hlist
  show (readList (readMember (readValue n)) '\x7d' n
    (memberText m ++ following memberText '\x7d' members ++ rest)).bind _ = _
  rw [hlist]
  rfl

end

/-- **A WRITTEN VALUE IS READ BACK**, and what stands behind it is left. -/
theorem readValue_chars {v : JsonValue} (hv : Readable v) :
    ∀ n rest, (chars v).length ≤ n → Ends rest →
      readValue n (chars v ++ rest) = some (v, rest) := by
  -- values in a value are shorter than it, so its length is depth enough
  induction hv with
  | null =>
      intro n rest hn _
      obtain ⟨n, rfl⟩ := exists_eq_succ .null hn
      rfl
  | bool b =>
      intro n rest hn _
      obtain ⟨n, rfl⟩ := exists_eq_succ (.bool b) hn
      cases b with
      | true => rfl
      | false => rfl
  | @number neg m hm hplain =>
      intro n rest hn hrest
      obtain ⟨n, rfl⟩ := exists_eq_succ (.number neg hm hplain) hn
      have hread := readNumber_chars neg hm hplain hrest
      obtain ⟨c, t, hchars, hc⟩ := Numeral.exists_digit_chars hm true
      unfold chars
      cases neg with
      | true => exact hread
      | false =>
          show readValue (n + 1) (m.chars true ++ rest) = _
          rw [hchars, List.cons_append] at hread ⊢
          rw [readValue_digit hc]
          exact hread
  | string t =>
      intro n rest hn _
      obtain ⟨n, rfl⟩ := exists_eq_succ (.string t) hn
      obtain ⟨s, hs, hread⟩ := readString_stringChars t rest
      unfold chars
      rw [hs]
      show (readString (s ++ rest)).bind _ = _
      rw [hread]
      rfl
  | @array items hitems ih =>
      intro n rest hn _
      obtain ⟨n, rfl⟩ := exists_eq_succ (.array hitems) hn
      cases items with
      | nil => rfl
      | cons v items =>
          exact readValue_array (opens_chars (hitems v List.mem_cons_self)) hn
            fun b hb hle s hs => ih b hb n s hle hs
  | @object members hmembers ih =>
      intro n rest hn _
      obtain ⟨n, rfl⟩ := exists_eq_succ (.object hmembers) hn
      cases members with
      | nil => rfl
      | cons m members => exact readValue_object hn fun b hb hle s hs => ih b hb n s hle hs

/-- **A WRITTEN TEXT IS THE TEXT OF ITS VALUE.** -/
theorem parse?_render {v : JsonValue} (hv : Readable v) : parse? v.render = some v := by
  have hends : Ends [] := by
    intro c hc
    cases hc
  have hread := readValue_chars hv ((chars v).length + 1) [] (Nat.le_succ _) hends
  rw [List.append_nil] at hread
  unfold parse? render
  rw [String.length_ofList, String.toList_ofList, hread]
  rfl

end ArtGrammar.JsonValue
