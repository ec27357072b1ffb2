/-
  ArtGrammar.Proofs.Shader.Declaration
  ────────────────────────────────
  **THE DECLARATIONS OF A FRAGMENT.**

  A name is declared on a line of its own, the first that begins with its keyword
  and the name:

      ····keyword name = value;

  Whatever expression a fragment is built around, each of the five variables is
  declared with the value that the language gives it; and an expression that
  stays on its line is what the color is declared with.
-/
import ArtGrammar.Proofs.Shader.Characters
import ArtGrammar.Proofs.Shader.Term

namespace ArtGrammar.Shading

/-! ## §1. Reading declarations. -/

/-- What stands before the value in the line that declares a name. -/
def declarationHead (keyword name : String) : String := "    " ++ keyword ++ " " ++ name ++ " = "

/-- What a line declares behind its head. -/
def lineValue? (head line : List Char) : Option (List Char) :=
  (head.isPrefixOf? line).bind fun value => [';'].isSuffixOf? value

/-- What the first line with the head declares. -/
def valueBehind? (head source : List Char) : Option (List Char) :=
  (source.splitOn '\n').findSome? (lineValue? head)

/-- The text of the value that a source declares a name with. -/
def declared? (keyword name source : String) : Option String :=
  (valueBehind? (declarationHead keyword name).toList source.toList).map String.ofList

/-! ## §2. Lines. -/

/-- The text stays on one line. -/
def OneLine (s : String) : Prop := '\n' ∉ s.toList

instance (s : String) : Decidable (OneLine s) := inferInstanceAs (Decidable ('\n' ∉ s.toList))

theorem OneLine.append {s t : String} (hs : OneLine s) (ht : OneLine t) : OneLine (s ++ t) := by
  intro h
  rw [String.toList_append, List.mem_append] at h
  exact h.elim hs ht

theorem oneLine_of_isWord {w : String} (h : isWord w = true) : OneLine w := by
  intro hline
  exact absurd (isExpressionText_of_isWord h _ hline) (by decide)

theorem IsExpressionText.oneLine {text : String} (h : IsExpressionText text) : OneLine text := by
  intro hline
  exact absurd (h _ hline) (by decide)

theorem oneLine_declarationHead {keyword name : String} (hkeyword : isWord keyword = true)
    (hname : isWord name = true) : OneLine (declarationHead keyword name) := by
  have hspace : OneLine " " := by decide
  unfold declarationHead
  exact (((OneLine.append (by decide) (oneLine_of_isWord hkeyword)).append hspace).append
    (oneLine_of_isWord hname)).append (by decide)

/-- The lines of a source are looked at one after the other. -/
theorem valueBehind?_append (head s rest : List Char) :
    valueBehind? head (s ++ '\n' :: rest) = (valueBehind? head s).or (valueBehind? head rest) := by
  unfold valueBehind?
  rw [List.splitOn_append_cons_self, List.findSome?_append]

theorem valueBehind?_line {head line : List Char} (hline : '\n' ∉ line) :
    valueBehind? head line = lineValue? head line := by
  unfold valueBehind?
  rw [List.splitOn_eq_singleton hline]
  simp

/-! ## §3. One line. -/

theorem toList_declarationLine (keyword name value : String) :
    (declarationLine keyword name value).toList
      = ((declarationHead keyword name).toList ++ value.toList ++ [';']) ++ ['\n'] := by
  simp [declarationLine, declarationHead]

/-- A line declares its value. -/
theorem lineValue?_self (head value : List Char) :
    lineValue? head (head ++ value ++ [';']) = some value := by
  have hfront : head.isPrefixOf? (head ++ value ++ [';']) = some (value ++ [';']) := by
    rw [List.isPrefixOf?_eq_some_iff_append_eq, List.append_assoc]
  unfold lineValue?
  rw [hfront, Option.bind_some, List.isSuffixOf?_eq_some_iff_append_eq]

/-- Where two texts agree, so do their runs of characters of a class up to the first that
is none of it. -/
theorem runs_eq_of_append_eq {p : Char → Bool} {stop : Char} {u v s t : List Char}
    (hstop : p stop = false) (hu : ∀ c ∈ u, p c = true) (hv : ∀ c ∈ v, p c = true)
    (h : u ++ stop :: s = v ++ stop :: t) : u = v ∧ s = t := by
  have hends : ∀ r, ∀ c ∈ (stop :: r).head?, p c = false := by
    intro r c hc
    cases hc
    exact hstop
  obtain ⟨htake, hdrop⟩ := takeWhile_append_of_stop hu (hends s)
  obtain ⟨htake', hdrop'⟩ := takeWhile_append_of_stop hv (hends t)
  rw [h] at htake hdrop
  exact ⟨htake.symm.trans htake', List.tail_eq_of_cons_eq (hdrop.symm.trans hdrop')⟩

/-- A line declares no other name. -/
theorem lineValue?_eq_none {keyword keyword' name name' : String} (hkeyword : isWord keyword = true)
    (hkeyword' : isWord keyword' = true) (hname : isWord name = true) (hname' : isWord name' = true)
    (hne : name ≠ name') (rest : List Char) :
    lineValue? (declarationHead keyword name).toList
      ((declarationHead keyword' name').toList ++ rest) = none := by
  unfold lineValue?
  rw [Option.bind_eq_none_iff]
  intro value hfront
  rw [List.isPrefixOf?_eq_some_iff_append_eq] at hfront
  have hparts : ∀ k n : String, ∀ r, (declarationHead k n).toList ++ r
      = ' ' :: ' ' :: ' ' :: ' ' :: (k.toList ++ ' ' :: (n.toList ++ ' ' :: '=' :: ' ' :: r)) := by
    intro k n r
    simp [declarationHead]
  rw [hparts, hparts] at hfront
  simp only [List.cons.injEq, true_and] at hfront
  -- the keywords are the same, and then the names are
  obtain ⟨_, htail⟩ := runs_eq_of_append_eq (by decide) (isWordRest_of_isWord hkeyword)
    (isWordRest_of_isWord hkeyword') hfront
  obtain ⟨hsame, _⟩ := runs_eq_of_append_eq (by decide) (isWordRest_of_isWord hname)
    (isWordRest_of_isWord hname') htail
  exact absurd (String.toList_injective hsame) hne

section
variable {keyword name : String}

/-- The line that declares a name is found, -/
theorem valueBehind?_declarationLine {value : String}
    (hhead : OneLine (declarationHead keyword name)) (hvalue : OneLine value) (rest : List Char) :
    valueBehind? (declarationHead keyword name).toList
        ((declarationLine keyword name value).toList ++ rest)
      = some value.toList := by
  have hline : '\n' ∉ (declarationHead keyword name).toList ++ value.toList ++ [';'] := by
    rw [List.mem_append, List.mem_append]
    rintro ((h | h) | h)
    · exact hhead h
    · exact hvalue h
    · exact absurd h (by decide)
  rw [toList_declarationLine, List.append_assoc, List.singleton_append, valueBehind?_append,
    valueBehind?_line hline, lineValue?_self]
  rfl

/-- and the line of another name is passed over. -/
theorem valueBehind?_declarationLine_of_ne {keyword' name' value : String}
    (hkeyword : isWord keyword = true) (hkeyword' : isWord keyword' = true)
    (hname : isWord name = true) (hname' : isWord name' = true) (hne : name ≠ name')
    (hvalue : OneLine value) (rest : List Char) :
    valueBehind? (declarationHead keyword name).toList
        ((declarationLine keyword' name' value).toList ++ rest)
      = valueBehind? (declarationHead keyword name).toList rest := by
  have hline : '\n' ∉ (declarationHead keyword' name').toList ++ (value.toList ++ [';']) := by
    rw [List.mem_append, List.mem_append]
    rintro (h | h | h)
    · exact oneLine_declarationHead hkeyword' hname' h
    · exact hvalue h
    · exact absurd h (by decide)
  rw [toList_declarationLine, List.append_assoc, List.singleton_append, valueBehind?_append,
    List.append_assoc, valueBehind?_line hline,
    lineValue?_eq_none hkeyword hkeyword' hname hname' hne]
  rfl

end

/-- The text ends a line, and declares nothing with the keyword. -/
def PassedOver (keyword s : String) : Prop :=
  ∀ name rest, valueBehind? (declarationHead keyword name).toList (s.toList ++ rest)
    = valueBehind? (declarationHead keyword name).toList rest

theorem PassedOver.append {keyword s t : String} (hs : PassedOver keyword s)
    (ht : PassedOver keyword t) : PassedOver keyword (s ++ t) := by
  intro name rest
  rw [String.toList_append, List.append_assoc, hs, ht]

/-- A line without the keyword or without a semicolon is passed over. -/
theorem passedOver_line {keyword s : String} (hend : s.toList.getLast? = some '\n')
    (hline : '\n' ∉ s.toList.dropLast)
    (hno : ¬ ("    " ++ keyword ++ " ").toList <+: s.toList ∨ ¬ [';', '\n'] <:+ s.toList) :
    PassedOver keyword s := by
  intro name rest
  obtain ⟨line, hs⟩ := List.getLast?_eq_some_iff.1 hend
  rw [hs, List.dropLast_concat] at hline
  have hnone : lineValue? (declarationHead keyword name).toList line = none := by
    unfold lineValue?
    rw [Option.bind_eq_none_iff]
    intro value hvalue
    rw [List.isPrefixOf?_eq_some_iff_append_eq] at hvalue
    rw [Option.eq_none_iff_forall_ne_some]
    intro v hv
    rw [List.isSuffixOf?_eq_some_iff_append_eq] at hv
    rw [hs, ← hvalue, ← hv] at hno
    rcases hno with hno | hno
    · apply hno
      simp [declarationHead]
    · apply hno
      exact ⟨(declarationHead keyword name).toList ++ v, by simp⟩
  rw [hs, List.append_assoc, List.singleton_append, valueBehind?_append, valueBehind?_line hline,
    hnone]
  rfl

end ArtGrammar.Shading

namespace ArtGrammar

open Shading

/-! ## §4. The lines of a fragment. -/

namespace ShadingLanguage

/-- The keyword that declares the color. -/
def colorKeyword : ShadingLanguage → String
  | .glsl => "vec3"
  | .wgsl => "let"

/-- What the color is declared with, around an expression. -/
def colorText (expression : String) : String := "(" ++ expression ++ " + 1.0) * 0.5"

/-- What stands behind the declaration of the color. -/
def closing : ShadingLanguage → String
  | .glsl => "    gl_FragColor = vec4(color, 1.0);\n\x7d\n"
  | .wgsl => "    return vec4f(color, 1.0);\n\x7d\n"

/-- The order in which the variables are declared. -/
def declarationOrder : List Variable := [.x, .y, .mouseX, .mouseY, .t]

variable (language : ShadingLanguage)

theorem toList_variableLines (canvas : Canvas) :
    (language.variableLines canvas).toList
      = declarationOrder.flatMap fun v => (language.variableLine canvas v).toList := by
  simp [variableLines, declarationOrder]

theorem colorOpening_append (expression : String) :
    language.colorOpening ++ expression ++ language.tail
      = declarationLine language.colorKeyword "color" (colorText expression)
        ++ language.closing := by
  cases language with
  | glsl =>
      apply String.toList_injective
      simp [colorOpening, tail, declarationLine, colorKeyword, colorText, closing]
  | wgsl =>
      apply String.toList_injective
      simp [colorOpening, tail, declarationLine, colorKeyword, colorText, closing]

/-- A fragment is its opening, the lines of the variables, the line of the color
and its closing. -/
theorem toList_fragment (expression : String) (canvas : Canvas) :
    (language.fragment expression canvas).toList
      = language.opening.toList
        ++ ((declarationOrder.flatMap fun v => (language.variableLine canvas v).toList)
          ++ ((declarationLine language.colorKeyword "color" (colorText expression)).toList
            ++ language.closing.toList)) := by
  have hfragment : language.fragment expression canvas
      = language.opening ++ (language.variableLines canvas
        ++ (language.colorOpening ++ expression ++ language.tail)) := by
    simp [fragment, head, String.append_assoc]
  rw [hfragment, colorOpening_append, String.toList_append, String.toList_append,
    String.toList_append, toList_variableLines]

theorem isWord_scalarKeyword : isWord language.scalarKeyword = true := by
  cases language with
  | glsl => decide
  | wgsl => decide

theorem isWord_colorKeyword : isWord language.colorKeyword = true := by
  cases language with
  | glsl => decide
  | wgsl => decide

/-- **NOTHING BEFORE THE VARIABLES DECLARES A VALUE.** -/
theorem passedOver_opening {keyword : String}
    (hkeyword : keyword = language.scalarKeyword ∨ keyword = language.colorKeyword) :
    PassedOver keyword language.opening := by
  cases language with
  | glsl =>
      have hwords : keyword = "float" ∨ keyword = "vec3" := hkeyword
      unfold opening
      rcases hwords with rfl | rfl
      all_goals
        repeat' with_reducible apply PassedOver.append
        all_goals exact passedOver_line (by simp) (by simp) (.inl (by simp))
  | wgsl =>
      have hword : keyword = "let" := hkeyword.elim id id
      subst hword
      -- the corners of the picture are declared over several lines
      have hcorners : PassedOver "let" "    let pos = array(\n" :=
        passedOver_line (by simp) (by simp) (.inr (by decide))
      unfold opening
      repeat' with_reducible apply PassedOver.append
      all_goals first
        | with_reducible exact hcorners
        | exact passedOver_line (by simp) (by simp) (.inl (by simp))

/-! ## §5. The declarations of a fragment. -/

theorem name_injective {v w : Variable}
    (h : language.dialect.variableNames.name v = language.dialect.variableNames.name w) :
    v = w := by
  cases language with
  | glsl =>
      cases v <;> cases w <;> first
        | rfl
        | exact absurd h (by decide)
  | wgsl =>
      cases v <;> cases w <;> first
        | rfl
        | exact absurd h (by decide)

theorem name_ne_color (v : Variable) : "color" ≠ language.dialect.variableNames.name v := by
  cases language with
  | glsl => cases v <;> decide
  | wgsl => cases v <;> decide

theorem oneLine_sizeText (size : UInt32) : OneLine (sizeText size) := by
  unfold sizeText Text.natText
  refine OneLine.append ?_ (by decide)
  intro hline
  rw [String.toList_ofList] at hline
  exact absurd (Numeral.isDigit_of_mem_toDigits hline) (by decide)

theorem oneLine_sources (v : Variable) : OneLine (language.sources v) := by
  cases language with
  | glsl => cases v <;> decide
  | wgsl => cases v <;> decide

theorem oneLine_variableText (canvas : Canvas) (v : Variable) :
    OneLine (language.variableText canvas v) := by
  have hnormalized : ∀ size, OneLine (normalizedText (language.sources v) size) := by
    intro size
    unfold normalizedText
    exact (((language.oneLine_sources v).append (by decide)).append
      (oneLine_sizeText size)).append (by decide)
  have hsine : OneLine ("sin(" ++ language.sources .t ++ " / 2.0)") :=
    (OneLine.append (by decide) (language.oneLine_sources .t)).append (by decide)
  cases v with
  | x => exact hnormalized canvas.width
  | y => exact hnormalized canvas.height
  | t => exact hsine
  | mouseX => exact hnormalized canvas.width
  | mouseY => exact hnormalized canvas.height

/-- Of the lines of variables, that of a variable declares it, -/
theorem valueBehind?_variableLines (canvas : Canvas) (v : Variable) (rest : List Char) :
    ∀ vs : List Variable, v ∈ vs →
      valueBehind?
          (declarationHead language.scalarKeyword (language.dialect.variableNames.name v)).toList
          ((vs.flatMap fun w => (language.variableLine canvas w).toList) ++ rest)
        = some (language.variableText canvas v).toList := by
  have hkeyword := language.isWord_scalarKeyword
  have hname := language.hasWords.names
  intro vs
  induction vs with
  | nil =>
      intro h
      cases h
  | cons w vs ih =>
      intro h
      rw [List.flatMap_cons, List.append_assoc]
      -- the line of the variable is found, and the lines before it declare others
      by_cases hvw : v = w
      · subst hvw
        exact valueBehind?_declarationLine (oneLine_declarationHead hkeyword (hname v))
          (language.oneLine_variableText canvas v) _
      · unfold variableLine at ih ⊢
        rw [valueBehind?_declarationLine_of_ne hkeyword hkeyword (hname v) (hname w)
          (fun hsame => hvw (language.name_injective hsame))
          (language.oneLine_variableText canvas w)]
        exact ih ((List.mem_cons.1 h).resolve_left hvw)

/-- and none declares the color. -/
theorem valueBehind?_color_variableLines (canvas : Canvas) (rest : List Char) (vs : List Variable) :
    valueBehind? (declarationHead language.colorKeyword "color").toList
        ((vs.flatMap fun w => (language.variableLine canvas w).toList) ++ rest)
      = valueBehind? (declarationHead language.colorKeyword "color").toList rest := by
  induction vs with
  | nil => rfl
  | cons w vs ih =>
      rw [List.flatMap_cons, List.append_assoc]
      unfold variableLine at ih ⊢
      rw [valueBehind?_declarationLine_of_ne language.isWord_colorKeyword
        language.isWord_scalarKeyword (by decide) (language.hasWords.names w)
        (language.name_ne_color w) (language.oneLine_variableText canvas w)]
      exact ih

/-- **EACH VARIABLE IS DECLARED WITH ITS VALUE**, whatever the expression. -/
theorem declared?_variable (expression : String) (canvas : Canvas) (v : Variable) :
    declared? language.scalarKeyword (language.dialect.variableNames.name v)
        (language.fragment expression canvas)
      = some (language.variableText canvas v) := by
  have hmem : v ∈ declarationOrder := by
    cases v <;> decide
  unfold declared?
  rw [toList_fragment, language.passedOver_opening (.inl rfl),
    language.valueBehind?_variableLines canvas v _ _ hmem, Option.map_some, String.ofList_toList]

/-- **THE COLOR IS DECLARED WITH THE EXPRESSION.** -/
theorem declared?_color {expression : String} (hexpression : OneLine expression) (canvas : Canvas) :
    declared? language.colorKeyword "color" (language.fragment expression canvas)
      = some (colorText expression) := by
  -- a line break in the expression would end the line before the semicolon
  have hvalue : OneLine (colorText expression) :=
    (OneLine.append (by decide) hexpression).append (by decide)
  unfold declared?
  rw [toList_fragment, language.passedOver_opening (.inr rfl),
    language.valueBehind?_color_variableLines, valueBehind?_declarationLine
      (oneLine_declarationHead language.isWord_colorKeyword (by decide)) hvalue,
    Option.map_some, String.ofList_toList]

end ShadingLanguage

end ArtGrammar
