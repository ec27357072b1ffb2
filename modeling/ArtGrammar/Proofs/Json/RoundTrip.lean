/-
  ArtGrammar.Proofs.Json.RoundTrip
  ────────────────────────────────
  **EVERYTHING IS READ BACK FROM ITS JSON.**

      trees, branches, grammars      of finite numbers, nested within the limit
      kinds, styles, languages       by their tags
      names, dialects, canvases,     as records of their fields
      configurations

  A map is written in any order of its rules, and it is read back as the same
  map.
-/
import ArtGrammar.Proofs.Expr.Nodes
import ArtGrammar.Proofs.Grammar.Assembly
import ArtGrammar.Proofs.Json.Decoding

namespace ArtGrammar

open JsonValue

/-! ## §1. Choices. -/

theorem Kind.ofTag?_tag (k : Kind) : ofTag? k.tag = some k := by
  cases k with
  | var v => cases v <;> decide
  | arith op => cases op <;> decide
  | _ => decide

theorem NumberStyle.ofTag?_tag (s : NumberStyle) : ofTag? s.tag = some s := by
  cases s with
  | shortest => rfl
  | decimal => rfl

theorem ShadingLanguage.ofTag?_tag (l : ShadingLanguage) : ofTag? l.tag = some l := by
  cases l with
  | glsl => rfl
  | wgsl => rfl

/-! ## §2. Trees. -/

theorem Expr.readable_toJson (e : Expr) : Readable e.toJson := by
  induction e with
  | var v => exact readable_ofText _
  | random => exact readable_ofText _
  | number v => exact readable_tagged _ v.readable_toJson
  | boolean b => exact readable_tagged _ (.bool b)
  | rule name => exact readable_tagged _ (readable_ofText name)
  | abs a iha => exact readable_tagged _ iha
  | arith op a b iha ihb =>
      refine readable_tagged _ (.array ?_)
      simp [iha, ihb]
  | ge a b iha ihb =>
      refine readable_tagged _ (.array ?_)
      simp [iha, ihb]
  | triple a b c iha ihb ihc =>
      refine readable_tagged _ (.array ?_)
      simp [iha, ihb, ihc]
  | cond a b c iha ihb ihc =>
      refine readable_tagged _ (.array ?_)
      simp [iha, ihb, ihc]

/-- No tree is written as null. -/
theorem Expr.toJson_ne_null (e : Expr) : e.toJson ≠ .null := by
  cases e <;> exact JsonValue.noConfusion

/-- What is tagged needs room. -/
theorem exists_eq_succ_of_nesting_tagged {tag : String} {v : JsonValue} {room : Nat}
    (h : (tagged tag v).nesting ≤ room) : ∃ n, room = n + 1 ∧ v.nesting ≤ n := by
  have hlt := nesting_lt_tagged tag v
  exact ⟨room - 1, by omega, by omega⟩

/-- What stands in an array under a tag needs room twice. -/
theorem exists_eq_succ_succ_of_nesting_tagged {tag : String} {items : List JsonValue} {room : Nat}
    (h : (tagged tag (.array items)).nesting ≤ room) :
    ∃ n, room = n + 2 ∧ ∀ v ∈ items, v.nesting ≤ n := by
  obtain ⟨n, rfl, hn⟩ := exists_eq_succ_of_nesting_tagged h
  change itemsNesting items + 1 ≤ n at hn
  refine ⟨n - 1, by omega, fun v hv => ?_⟩
  have hle := nesting_le_itemsNesting hv
  omega

/-- **A TREE IS DECODED AS ITSELF** where there is room for what nests in it. -/
theorem Expr.ofJson?_toJson (e : Expr) :
    ∀ room, e.hasFiniteLiterals = true → e.toJson.nesting ≤ room →
      ofJson? room e.toJson = some e := by
  -- operands have less room than their node, so the room stays open in the induction
  induction e with
  | var v =>
      intro room _ _
      cases v <;> cases room <;> rfl
  | random =>
      intro room _ _
      cases room <;> rfl
  | number v =>
      intro room hfinite hroom
      obtain ⟨n, rfl, _⟩ := exists_eq_succ_of_nesting_tagged hroom
      rw [hasFiniteLiterals_number] at hfinite
      have hread := v.toSingle?_toJson hfinite
      cases v with
      | nan => cases hfinite
      | infinite neg => cases hfinite
      | finite neg rank =>
          show (Single.toJson (.finite neg rank)).toSingle?.map Expr.number = _
          rw [hread]
          rfl
  | boolean b =>
      intro room _ hroom
      obtain ⟨n, rfl, _⟩ := exists_eq_succ_of_nesting_tagged hroom
      rfl
  | rule name =>
      intro room _ hroom
      obtain ⟨n, rfl, _⟩ := exists_eq_succ_of_nesting_tagged hroom
      rfl
  | abs a iha =>
      intro room hfinite hroom
      obtain ⟨n, rfl, hn⟩ := exists_eq_succ_of_nesting_tagged hroom
      rw [hasFiniteLiterals_abs] at hfinite
      have hread := iha n hfinite hn
      have hnull := a.toJson_ne_null
      -- an operand that is null would be a choice without data
      show ofJson? (n + 1) (tagged "Abs" a.toJson) = _
      generalize a.toJson = v at hread hnull
      cases v with
      | null => exact absurd rfl hnull
      | _ =>
          show (ofJson? n _).map Expr.abs = _
          rw [hread]
          rfl
  | arith op a b iha ihb =>
      intro room hfinite hroom
      obtain ⟨n, rfl, hn⟩ := exists_eq_succ_succ_of_nesting_tagged hroom
      rw [hasFiniteLiterals_arith, Bool.and_eq_true] at hfinite
      have ha := iha n hfinite.1 (hn _ (by simp))
      have hb := ihb n hfinite.2 (hn _ (by simp))
      have hresult : ((ofJson? n a.toJson).bind fun a => (ofJson? n b.toJson).bind fun b =>
          some (Expr.arith op a b)) = some (.arith op a b) := by
        rw [ha, hb]
        rfl
      cases op with
      | add => exact hresult
      | mult => exact hresult
      | mod => exact hresult
  | ge a b iha ihb =>
      intro room hfinite hroom
      obtain ⟨n, rfl, hn⟩ := exists_eq_succ_succ_of_nesting_tagged hroom
      rw [hasFiniteLiterals_ge, Bool.and_eq_true] at hfinite
      show ((ofJson? n a.toJson).bind fun a => (ofJson? n b.toJson).bind fun b =>
        some (Expr.ge a b)) = _
      rw [iha n hfinite.1 (hn _ (by simp)), ihb n hfinite.2 (hn _ (by simp))]
      rfl
  | triple a b c iha ihb ihc =>
      intro room hfinite hroom
      obtain ⟨n, rfl, hn⟩ := exists_eq_succ_succ_of_nesting_tagged hroom
      rw [hasFiniteLiterals_triple, Bool.and_eq_true, Bool.and_eq_true] at hfinite
      show ((ofJson? n a.toJson).bind fun a => (ofJson? n b.toJson).bind fun b =>
        (ofJson? n c.toJson).bind fun c => some (Expr.triple a b c)) = _
      rw [iha n hfinite.1 (hn _ (by simp)), ihb n hfinite.2.1 (hn _ (by simp)),
        ihc n hfinite.2.2 (hn _ (by simp))]
      rfl
  | cond a b c iha ihb ihc =>
      intro room hfinite hroom
      obtain ⟨n, rfl, hn⟩ := exists_eq_succ_succ_of_nesting_tagged hroom
      rw [hasFiniteLiterals_cond, Bool.and_eq_true, Bool.and_eq_true] at hfinite
      show ((ofJson? n a.toJson).bind fun a => (ofJson? n b.toJson).bind fun b =>
        (ofJson? n c.toJson).bind fun c => some (Expr.cond a b c)) = _
      rw [iha n hfinite.1 (hn _ (by simp)), ihb n hfinite.2.1 (hn _ (by simp)),
        ihc n hfinite.2.2 (hn _ (by simp))]
      rfl

/-! ## §3. Grammars. -/

/-- All numbers of a branch are finite. -/
def Branch.IsFinite (b : Branch) : Prop :=
  b.template.hasFiniteLiterals = true ∧ b.probability.isFinite = true

instance (b : Branch) : Decidable b.IsFinite :=
  inferInstanceAs (Decidable (b.template.hasFiniteLiterals = true ∧ b.probability.isFinite = true))

theorem Branch.readable_toJson (b : Branch) : Readable b.toJson := by
  apply readable_record
  intro m hm
  simp only [List.mem_cons, List.not_mem_nil, or_false] at hm
  rcases hm with rfl | rfl
  · exact b.template.readable_toJson
  · exact b.probability.readable_toJson

theorem Branch.ofJson?_toJson {b : Branch} (hfinite : b.IsFinite) {room : Nat}
    (hroom : b.toJson.nesting ≤ room) : ofJson? room b.toJson = some b := by
  have htemplate : b.template.toJson.nesting < b.toJson.nesting :=
    nesting_lt_of_mem_record (m := ("node", b.template.toJson)) (by simp)
  obtain ⟨n, rfl⟩ : ∃ n, room = n + 1 := ⟨room - 1, by omega⟩
  unfold ofJson? toJson
  rw [toRecord?_record]
  · show ((Expr.ofJson? n b.template.toJson).bind fun e =>
      b.probability.toJson.toSingle?.bind fun p => some (Branch.mk e p)) = _
    rw [b.template.ofJson?_toJson n hfinite.1 (by omega), b.probability.toSingle?_toJson hfinite.2]
    rfl
  · rfl
  · decide

/-- Rules in the given order, as members of one object. -/
def Grammar.rulesJson (rules : List Rule) : JsonValue :=
  record (rules.map fun r => (r.name, .array (r.branches.map Branch.toJson)))

/-- A grammar with its rules in the given order. -/
def Grammar.jsonOf (rules : List Rule) : JsonValue := record [("rules", rulesJson rules)]

theorem Grammar.readable_jsonOf (rules : List Rule) : Readable (jsonOf rules) := by
  apply readable_record
  intro m hm
  rw [List.mem_singleton.1 hm]
  apply readable_record
  intro r hr
  obtain ⟨r, _, rfl⟩ := List.mem_map.1 hr
  exact readable_map fun b _ => b.readable_toJson

/-- The branches of a rule take one off the room of the rules. -/
theorem Grammar.nesting_lt_rulesJson {rules : List Rule} {r : Rule} (hr : r ∈ rules) :
    (JsonValue.array (r.branches.map Branch.toJson)).nesting < (rulesJson rules).nesting :=
  nesting_lt_of_mem_record (List.mem_map.2 ⟨r, hr, rfl⟩ :
    (r.name, JsonValue.array (r.branches.map Branch.toJson)) ∈ rules.map fun r =>
      (r.name, JsonValue.array (r.branches.map Branch.toJson)))

/-- The rules of a grammar are decoded one by one. -/
theorem Grammar.rulesOfJson?_rulesJson {rules : List Rule}
    (hfinite : ∀ r ∈ rules, ∀ b ∈ r.branches, b.IsFinite) {room : Nat}
    (hroom : (rulesJson rules).nesting ≤ room) :
    rulesOfJson? room (rulesJson rules) = some (rules.map fun r => (r.name, r.branches)) := by
  have hpos : 0 < (rulesJson rules).nesting := Nat.succ_pos _
  obtain ⟨n, rfl⟩ : ∃ n, room = n + 1 := ⟨room - 1, by omega⟩
  have hrule : ∀ r ∈ rules, (toList? Branch.ofJson? n (.array (r.branches.map Branch.toJson))).bind
      (fun branches => some (r.name, branches)) = some (r.name, r.branches) := by
    intro r hr
    have hlt := nesting_lt_rulesJson hr
    change itemsNesting (r.branches.map Branch.toJson) + 1 < _ at hlt
    obtain ⟨k, rfl⟩ : ∃ k, n = k + 1 := ⟨n - 1, by omega⟩
    rw [toList?_map]
    · rfl
    · intro b hb
      have hle := nesting_le_itemsNesting (List.mem_map_of_mem (f := Branch.toJson) hb)
      exact Branch.ofJson?_toJson (hfinite r hr b hb) (by omega)
  show ((namedMembers? _).bind fun members => members.mapM fun m =>
    (toList? Branch.ofJson? n m.2).bind fun branches => some (m.1, branches)) = _
  rw [namedMembers?_map, Option.bind_some]
  exact mapM_map_eq_some hrule

/-- **A GRAMMAR IS DECODED AS ITSELF**, in whatever order its rules are written. -/
theorem Grammar.ofJson?_jsonOf {g : Grammar} {rules : List Rule} (hperm : rules.Perm g.rules)
    (hfinite : ∀ r ∈ g.rules, ∀ b ∈ r.branches, b.IsFinite) {room : Nat}
    (hroom : (jsonOf rules).nesting ≤ room) : ofJson? room (jsonOf rules) = some g := by
  have hlt : (rulesJson rules).nesting < (jsonOf rules).nesting :=
    nesting_lt_of_mem_record (m := ("rules", rulesJson rules)) List.mem_cons_self
  obtain ⟨n, rfl⟩ : ∃ n, room = n + 1 := ⟨room - 1, by omega⟩
  unfold ofJson? jsonOf
  rw [toRecord?_record]
  · show (rulesOfJson? n (rulesJson rules)).map ofList = _
    rw [rulesOfJson?_rulesJson (fun r hr => hfinite r (hperm.subset hr)) (by omega),
      Option.map_some, ofList_eq_of_perm hperm]
  · rfl
  · decide

/-! ## §4. Records without numbers. -/

theorem VariableNames.readable_toJson (names : VariableNames) : Readable names.toJson := by
  apply readable_record
  simp [readable_ofText]

theorem VariableNames.ofJson?_toJson (names : VariableNames) (room : Nat) :
    ofJson? (room + 1) names.toJson = some names := by
  unfold ofJson? toJson
  rw [toRecord?_record]
  · rfl
  · rfl
  · decide

theorem Dialect.readable_toJson (d : Dialect) : Readable d.toJson := by
  have hkinds : Readable (.array (d.unsupported.map Kind.toJson)) :=
    readable_map fun k _ => readable_ofText k.tag
  apply readable_record
  simp [readable_ofText, hkinds, d.variableNames.readable_toJson, NumberStyle.toJson]

theorem Dialect.ofJson?_toJson (d : Dialect) (room : Nat) :
    ofJson? (room + 2) d.toJson = some d := by
  have hstyle : toChoice? NumberStyle.ofTag? (room + 1) d.numberStyle.toJson
      = some d.numberStyle := by
    unfold NumberStyle.toJson
    rw [toChoice?_ofText]
    exact d.numberStyle.ofTag?_tag
  have hkinds : toList? (toChoice? Kind.ofTag?) (room + 1) (.array (d.unsupported.map Kind.toJson))
      = some d.unsupported := by
    apply toList?_map
    intro k _
    unfold Kind.toJson
    rw [toChoice?_ofText]
    exact k.ofTag?_tag
  unfold ofJson? toJson
  rw [toRecord?_record]
  · simp only [List.map_cons, List.map_nil]
    show ((toChoice? NumberStyle.ofTag? (room + 1) d.numberStyle.toJson).bind fun style => _) = _
    rw [hstyle]
    show ((VariableNames.ofJson? (room + 1) d.variableNames.toJson).bind fun names =>
      (toList? (toChoice? Kind.ofTag?) (room + 1) (.array (d.unsupported.map Kind.toJson))).bind
        fun unsupported => some { d with variableNames := names, unsupported }) = _
    rw [d.variableNames.ofJson?_toJson, hkinds]
    rfl
  · rfl
  · decide

theorem Canvas.readable_toJson (c : Canvas) : Readable c.toJson := by
  apply readable_record
  simp [readable_ofInt]

theorem Canvas.ofJson?_toJson (c : Canvas) (room : Nat) :
    ofJson? (room + 1) c.toJson = some c := by
  unfold ofJson? toJson
  rw [toRecord?_record]
  · show ((ofInt c.width.toNat).toUInt32?.bind fun width =>
      (ofInt c.height.toNat).toUInt32?.bind fun height => some (Canvas.mk width height)) = _
    rw [toUInt32?_ofInt, toUInt32?_ofInt]
    rfl
  · rfl
  · decide

theorem Configuration.readable_toJson (c : Configuration) : Readable c.toJson := by
  apply readable_record
  simp [readable_ofInt, readable_ofText]

theorem Configuration.ofJson?_toJson (c : Configuration) (room : Nat) :
    ofJson? (room + 1) c.toJson = some c := by
  unfold ofJson? toJson
  rw [toRecord?_record]
  · show ((ofInt c.depth.toInt).toInt32?.bind fun depth =>
      some { startRule := c.startRule, depth : Configuration }) = _
    rw [toInt32?_ofInt]
    rfl
  · rfl
  · decide

/-! ## §5. Everything. -/

/-- **EVERYTHING IS READ BACK FROM ITS JSON TEXT.**  Trees, branches and grammars whose
numbers are finite, as far as the reader lets arrays and objects nest, and
grammars in whatever order their rules are written; all kinds, number styles,
shading languages, variable names, dialects, canvases and configurations. -/
theorem JsonValue.decode?_render_toJson :
    (∀ e : Expr, e.hasFiniteLiterals = true → e.toJson.nesting ≤ nestingLimit →
        decode? Expr.ofJson? e.toJson.render = some e)
      ∧ (∀ b : Branch, b.IsFinite → b.toJson.nesting ≤ nestingLimit →
          decode? Branch.ofJson? b.toJson.render = some b)
      ∧ (∀ g : Grammar, (∀ r ∈ g.rules, ∀ b ∈ r.branches, b.IsFinite) →
          (g.toJson.nesting ≤ nestingLimit → decode? Grammar.ofJson? g.toJson.render = some g)
            ∧ ∀ rules : List Rule, rules.Perm g.rules →
                (Grammar.jsonOf rules).nesting ≤ nestingLimit →
                decode? Grammar.ofJson? (Grammar.jsonOf rules).render = some g)
      ∧ (∀ k : Kind, decode? (toChoice? Kind.ofTag?) k.toJson.render = some k)
      ∧ (∀ s : NumberStyle, decode? (toChoice? NumberStyle.ofTag?) s.toJson.render = some s)
      ∧ (∀ l : ShadingLanguage,
          decode? (toChoice? ShadingLanguage.ofTag?) l.toJson.render = some l)
      ∧ (∀ names : VariableNames, decode? VariableNames.ofJson? names.toJson.render = some names)
      ∧ (∀ d : Dialect, decode? Dialect.ofJson? d.toJson.render = some d)
      ∧ (∀ c : Canvas, decode? Canvas.ofJson? c.toJson.render = some c)
      ∧ ∀ c : Configuration, decode? Configuration.ofJson? c.toJson.render = some c := by
  have hchoice : ∀ {α : Type} (ofTag? : String → Option α) (tag : String),
      decode? (toChoice? ofTag?) (ofText tag).render = ofTag? tag := by
    intro α ofTag? tag
    rw [decode?_render (readable_ofText tag), toChoice?_ofText]
  have hgrammar : ∀ (g : Grammar) (rules : List Rule), rules.Perm g.rules →
      (∀ r ∈ g.rules, ∀ b ∈ r.branches, b.IsFinite) →
      (Grammar.jsonOf rules).nesting ≤ nestingLimit →
      decode? Grammar.ofJson? (Grammar.jsonOf rules).render = some g := by
    intro g rules hperm hfinite hnesting
    rw [decode?_render (Grammar.readable_jsonOf rules)]
    exact Grammar.ofJson?_jsonOf hperm hfinite hnesting
  refine ⟨fun e hfinite hnesting => ?_, fun b hfinite hnesting => ?_,
    fun g hfinite => ⟨hgrammar g g.rules (List.Perm.refl _) hfinite,
      fun rules hperm => hgrammar g rules hperm hfinite⟩,
    fun k => ?_, fun s => ?_, fun l => ?_, fun names => ?_, fun d => ?_, fun c => ?_,
    fun c => ?_⟩
  · rw [decode?_render e.readable_toJson]
    exact e.ofJson?_toJson _ hfinite hnesting
  · rw [decode?_render b.readable_toJson]
    exact Branch.ofJson?_toJson hfinite hnesting
  · exact (hchoice Kind.ofTag? k.tag).trans k.ofTag?_tag
  · exact (hchoice NumberStyle.ofTag? s.tag).trans s.ofTag?_tag
  · exact (hchoice ShadingLanguage.ofTag? l.tag).trans l.ofTag?_tag
  · rw [decode?_render names.readable_toJson]
    exact names.ofJson?_toJson _
  · rw [decode?_render d.readable_toJson]
    exact d.ofJson?_toJson _
  · rw [decode?_render c.readable_toJson]
    exact c.ofJson?_toJson _
  · rw [decode?_render c.readable_toJson]
    exact c.ofJson?_toJson _

/-- A name of a quote, a control and a letter outside of ASCII, a negative zero beside
it, and the classic grammar with its rules in descending order. -/
theorem JsonValue.decode?_render_toJson_classic :
    decode? Expr.ofJson? (Expr.ge (.rule "\"\x01é") (.number (-0))).toJson.render
        = some (.ge (.rule "\"\x01é") (.number (-0)))
      ∧ decode? Grammar.ofJson? (Grammar.jsonOf Grammar.classic.rules.reverse).render
        = some Grammar.classic := by
  obtain ⟨htree, _, hgrammar, _⟩ := decode?_render_toJson
  have hfinite : ∀ r ∈ Grammar.classic.rules, ∀ b ∈ r.branches, b.IsFinite := by decide +kernel
  refine ⟨htree _ (by decide) (by decide), ?_⟩
  exact (hgrammar _ hfinite).2 _ (List.reverse_perm _) (by decide +kernel)

end ArtGrammar
