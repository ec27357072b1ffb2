/-
  ArtGrammar.Proofs.Shader.Term
  ────────────────────────────────
  **WHAT AN EXPRESSION OF A SHADING LANGUAGE MEANS.**

  The expression rules that the shading languages share, independent of how
  anything is transcribed:

      strength 3    *  %       prefix !, calls and parentheses bind tighter
      strength 2    +          all binary operators group to the left
      strength 1    >=

  Terms are read by a machine that takes one token at a time and keeps a stack
  of what is still open.  A term has a type or none, which no value enters into,
  and a value at a viewpoint: a number denotes itself, a cast truth value is one
  or zero, and a scalar stands beside a vector for the vector of equal lanes.
-/
import ArtGrammar.Proofs.Shader.Token
import ArtGrammar.Shader.Template
import ArtGrammar.Value.Viewpoint

namespace ArtGrammar

namespace Shading

/-! ## §1. Terms. -/

/-- The functions that an expression can call. -/
inductive Builtin where
  | abs
  /-- The vector of three scalars. -/
  | vector
  /-- The number of a truth value. -/
  | cast
  deriving DecidableEq, Repr

/-- Parsed expressions. -/
inductive Term where
  | name (word : String)
  | number (value : Single)
  | truth (value : Bool)
  | abs (inner : Term)
  | vector (first second third : Term)
  | cast (inner : Term)
  | not (inner : Term)
  | binary (op : Operator) (left right : Term)
  deriving DecidableEq, Repr

/-- The call of a function, if it has as many arguments as the function takes. -/
def Builtin.call? : Builtin → List Term → Option Term
  | .abs, [a] => some (.abs a)
  | .vector, [a, b, c] => some (.vector a b c)
  | .cast, [a] => some (.cast a)
  | _, _ => none

end Shading

/-- The function that a word names in a shading language. -/
def ShadingLanguage.builtin? : ShadingLanguage → String → Option Shading.Builtin
  | _, "abs" => some .abs
  | .glsl, "vec3" => some .vector
  | .glsl, "float" => some .cast
  | .wgsl, "vec3f" => some .vector
  | .wgsl, "f32" => some .cast
  | _, _ => none

namespace Shading

/-- The term of a word that names no function. -/
def wordTerm : String → Term
  | "true" => .truth true
  | "false" => .truth false
  | word => .name word

/-! ## §2. Parsing. -/

/-- The operator of greater strength takes its operands first. -/
def Operator.strength : Operator → Nat
  | .arith .mult => 3
  | .arith .mod => 3
  | .arith .add => 2
  | .ge => 1

/-- What is open until a term or a closing parenthesis comes. -/
inductive Frame where
  | group
  /-- A call with the arguments read so far. -/
  | call (f : Builtin) (args : List Term)
  | not
  /-- A binary operator with its left operand. -/
  | left (a : Term) (op : Operator)
  deriving DecidableEq, Repr

/-- Where the parser stands, above the frames that are open, the inmost first. -/
inductive State where
  /-- A term has to come. -/
  | wants (stack : List Frame)
  /-- The parenthesis of a call has to come. -/
  | called (f : Builtin) (stack : List Frame)
  /-- A term has been read. -/
  | holds (a : Term) (stack : List Frame)
  deriving DecidableEq, Repr

/-- Closes the operators that are at least as strong. -/
def settle (strength : Nat) : Term → List Frame → Term × List Frame
  | a, .not :: stack => settle strength (.not a) stack
  | a, .left b op :: stack =>
    if strength ≤ op.strength then settle strength (.binary op b a) stack
    else (a, .left b op :: stack)
  | a, stack => (a, stack)

/-- Ends an argument, and waits for the next. -/
def nextArgument (a : Term) (stack : List Frame) : Option State :=
  match settle 0 a stack with
  | (a, .call f args :: stack) => some (.wants (.call f (args ++ [a]) :: stack))
  | _ => none

/-- Closes a parenthesis. -/
def close (a : Term) (stack : List Frame) : Option State :=
  match settle 0 a stack with
  | (a, .group :: stack) => some (.holds a stack)
  | (a, .call f args :: stack) => (f.call? (args ++ [a])).map fun t => .holds t stack
  | _ => none

/-- Takes one token. -/
def step (language : ShadingLanguage) : State → Token → Option State
  | .wants stack, .opening => some (.wants (.group :: stack))
  | .wants stack, .bang => some (.wants (.not :: stack))
  | .wants stack, .number v => some (.holds (.number v) stack)
  | .wants stack, .word word =>
    match language.builtin? word with
    | some f => some (.called f stack)
    | none => some (.holds (wordTerm word) stack)
  | .called f stack, .opening => some (.wants (.call f [] :: stack))
  -- what is as strong as the operator takes the term first: to the left
  | .holds a stack, .operator op =>
    let (a, stack) := settle op.strength a stack
    some (.wants (.left a op :: stack))
  | .holds a stack, .comma => nextArgument a stack
  | .holds a stack, .closing => close a stack
  | _, _ => none

/-- Takes tokens one after the other. -/
def run (language : ShadingLanguage) : State → List Token → Option State
  | s, [] => some s
  | s, token :: tokens => (step language s token).bind fun s => run language s tokens

/-- The term that tokens make up. -/
def parse? (language : ShadingLanguage) (tokens : List Token) : Option Term :=
  match run language (.wants []) tokens with
  | some (.holds a stack) =>
    match settle 0 a stack with
    | (a, []) => some a
    | _ => none
  | _ => none

/-- The term that a text of a shading language is. -/
def Term.ofText? (language : ShadingLanguage) (text : String) : Option Term :=
  (tokens? text.toList).bind (parse? language)

/-! ## §3. Operands. -/

section
variable {language : ShadingLanguage}

/-- Tokens are taken part by part. -/
theorem run_append (tokens more : List Token) :
    ∀ s, run language s (tokens ++ more)
      = (run language s tokens).bind fun s => run language s more := by
  -- the first token moves the parser, so the state stays open in the induction
  induction tokens with
  | nil => intro s; rfl
  | cons token tokens ih =>
      intro s
      show (step language s token).bind (fun s => run language s (tokens ++ more))
        = ((step language s token).bind fun s => run language s tokens).bind
            fun s => run language s more
      rw [Option.bind_assoc]
      congr 1
      funext s'
      exact ih s'

/-- The tokens are an operand: whatever is open stays open under it. -/
def Parses (language : ShadingLanguage) (tokens : List Token) (a : Term) : Prop :=
  ∀ stack, run language (.wants stack) tokens = some (.holds a stack)

/-- The parser takes a token and goes on. -/
theorem run_cons {s s' : State} {token : Token} {tokens : List Token} {r : Option State}
    (hstep : step language s token = some s') (hrun : run language s' tokens = r) :
    run language s (token :: tokens) = r := by
  unfold run
  rw [hstep]
  exact hrun

/-- The parser takes an operand and goes on. -/
theorem Parses.run_append {tokens more : List Token} {a : Term} {stack : List Frame}
    {r : Option State} (h : Parses language tokens a)
    (hrun : run language (.holds a stack) more = r) :
    run language (.wants stack) (tokens ++ more) = r := by
  rw [Shading.run_append, h stack]
  exact hrun

/-- **OPERATORS GROUP BY STRENGTH, AND TO THE LEFT.**  Of two operators in
parentheses the first takes its operands first, unless the second is
stronger. -/
theorem parses_two_operators {ts us vs : List Token} {a b c : Term} (op op' : Operator)
    (ha : Parses language ts a) (hb : Parses language us b) (hc : Parses language vs c) :
    Parses language
      (.opening :: (ts ++ .operator op :: (us ++ .operator op' :: (vs ++ [.closing]))))
      (if op'.strength ≤ op.strength then .binary op' (.binary op a b) c
        else .binary op a (.binary op' b c)) := by
  intro stack
  apply run_cons rfl
  apply ha.run_append
  apply run_cons rfl
  apply hb.run_append
  by_cases h : op'.strength ≤ op.strength
  · -- the second operator closes the first
    have hsettle : settle op'.strength b (.left a op :: .group :: stack)
        = (.binary op a b, .group :: stack) := by
      unfold settle
      rw [if_pos h]
      rfl
    have hstep : step language (.holds b (.left a op :: .group :: stack)) (.operator op')
        = some (.wants (.left (.binary op a b) op' :: .group :: stack)) := by
      unfold step
      simp only [hsettle]
    rw [if_pos h]
    apply run_cons hstep
    apply hc.run_append
    exact run_cons rfl rfl
  · -- the first operator stays open under the second
    have hsettle : settle op'.strength b (.left a op :: .group :: stack)
        = (b, .left a op :: .group :: stack) := by
      unfold settle
      rw [if_neg h]
    have hstep : step language (.holds b (.left a op :: .group :: stack)) (.operator op')
        = some (.wants (.left b op' :: .left a op :: .group :: stack)) := by
      unfold step
      simp only [hsettle]
    rw [if_neg h]
    apply run_cons hstep
    apply hc.run_append
    exact run_cons rfl rfl

/-- A word that names no function is an operand. -/
theorem parses_word {word : String} (h : language.builtin? word = none) :
    Parses language [.word word] (wordTerm word) := by
  intro stack
  have hstep : step language (.wants stack) (.word word) = some (.holds (wordTerm word) stack) := by
    unfold step
    simp only [h]
  exact run_cons hstep rfl

/-- The name of a function and the parenthesis of its call. -/
theorem run_call {word : String} {f : Builtin} {tokens : List Token} {stack : List Frame}
    {r : Option State} (h : language.builtin? word = some f)
    (hrun : run language (.wants (.call f [] :: stack)) tokens = r) :
    run language (.wants stack) (.word word :: .opening :: tokens) = r := by
  have hstep : step language (.wants stack) (.word word) = some (.called f stack) := by
    unfold step
    simp only [h]
  exact run_cons hstep (run_cons rfl hrun)

/-- A call of one argument. -/
theorem run_call_one {word : String} {f : Builtin} {tokens more : List Token} {a b : Term}
    {stack : List Frame} {r : Option State} (h : language.builtin? word = some f)
    (hcall : f.call? [a] = some b) (ha : Parses language tokens a)
    (hrun : run language (.holds b stack) more = r) :
    run language (.wants stack) (.word word :: .opening :: (tokens ++ .closing :: more)) = r := by
  have hclose : step language (.holds a (.call f [] :: stack)) .closing = some (.holds b stack) := by
    show (f.call? [a]).map _ = _
    rw [hcall]
    rfl
  apply run_call h
  apply ha.run_append
  exact run_cons hclose hrun

end

/-! ## §4. Types. -/

/-- The variable of the given name. -/
def variableNamed? : String → Option Variable
  | "x" => some .x
  | "y" => some .y
  | "t" => some .t
  | "mouse_x" => some .mouseX
  | "mouse_y" => some .mouseY
  | _ => none

/-- The type of the result of a binary operator. -/
def Operator.type? : Operator → ValueType → ValueType → Option ValueType
  | .arith _, .scalar, .scalar => some .scalar
  | .arith _, .scalar, .vector => some .vector
  | .arith _, .vector, .scalar => some .vector
  | .arith _, .vector, .vector => some .vector
  | .ge, .scalar, .scalar => some .bool
  | _, _, _ => none

namespace Term

/-- The type of a term, if it is well-typed. -/
def type? : Term → Option ValueType
  | .name word => (variableNamed? word).map fun _ => .scalar
  | .number _ => some .scalar
  | .truth _ => some .bool
  | .abs a =>
    match a.type? with
    | some .scalar => some .scalar
    | some .vector => some .vector
    | _ => none
  | .vector a b c =>
    match a.type?, b.type?, c.type? with
    | some .scalar, some .scalar, some .scalar => some .vector
    | _, _, _ => none
  | .cast a => if a.type? = some .bool then some .scalar else none
  | .not a => if a.type? = some .bool then some .bool else none
  | .binary op a b => a.type?.bind fun s => b.type?.bind fun t => op.type? s t

end Term

/-! ## §5. Values. -/

/-- The lanes of a number or a vector. -/
def lanes? : Value → Option Lanes
  | .scalar v => some (Lanes.splat v)
  | .vector v => some v
  | .bool _ => none

/-- Applies an operation to two scalars, or lane by lane. -/
def lanewise (f : Single → Single → Single) : Value → Value → Option Value
  | .scalar a, .scalar b => some (.scalar (f a b))
  | a, b => (lanes? a).bind fun v => (lanes? b).map fun w => .vector (Lanes.zip f v w)

/-- The result of a binary operator. -/
def Operator.result? : Operator → Value → Value → Option Value
  | .arith .add, a, b => lanewise (· + ·) a b
  | .arith .mult, a, b => lanewise (· * ·) a b
  | .arith .mod, a, b => lanewise (· % ·) a b
  | .ge, .scalar a, .scalar b => some (.bool (decide (b ≤ a)))
  | .ge, _, _ => none

namespace Term

/-- The value of a term at a viewpoint. -/
def value? (p : Viewpoint) : Term → Option Value
  | .name word => (variableNamed? word).map fun v => .scalar (p.value v)
  | .number v => some (.scalar v)
  | .truth b => some (.bool b)
  | .abs a =>
    match a.value? p with
    | some (.scalar v) => some (.scalar v.abs)
    | some (.vector v) => some (.vector (v.map Single.abs))
    | _ => none
  | .vector a b c =>
    match a.value? p, b.value? p, c.value? p with
    | some (.scalar u), some (.scalar v), some (.scalar w) => some (.vector ⟨u, v, w⟩)
    | _, _, _ => none
  | .cast a =>
    match a.value? p with
    | some (.bool b) => some (.scalar (if b then 1 else 0))
    | _ => none
  | .not a =>
    match a.value? p with
    | some (.bool b) => some (.bool !b)
    | _ => none
  | .binary op a b => (a.value? p).bind fun v => (b.value? p).bind fun w => op.result? v w

end Term

/-! ## §6. Types and values. -/

theorem Operator.type?_eq (op : Operator) (v w : Value) :
    op.type? v.type w.type = (op.result? v w).map Value.type := by
  cases op with
  | ge => cases v <;> cases w <;> rfl
  | arith op => cases op <;> cases v <;> cases w <;> rfl

/-- **TYPES TELL WHICH TERMS HAVE VALUES, AND OF WHICH TYPE.** -/
theorem Term.type?_eq (p : Viewpoint) (t : Term) : t.type? = (t.value? p).map Value.type := by
  induction t with
  | name word =>
      unfold Term.type? Term.value?
      rw [Option.map_map]
      rfl
  | number v => rfl
  | truth b => rfl
  | abs a iha =>
      unfold Term.type? Term.value?
      rw [iha]
      rcases a.value? p with _ | ⟨_ | _ | _⟩ <;> rfl
  | vector a b c iha ihb ihc =>
      -- only three scalars make a vector: both sides look at each part alone
      unfold Term.type? Term.value?
      rw [iha, ihb, ihc]
      rcases a.value? p with _ | ⟨_ | _ | _⟩ <;> rcases b.value? p with _ | ⟨_ | _ | _⟩ <;>
        rcases c.value? p with _ | ⟨_ | _ | _⟩ <;> rfl
  | cast a iha =>
      unfold Term.type? Term.value?
      rw [iha]
      rcases a.value? p with _ | ⟨_ | _ | _⟩ <;> rfl
  | not a iha =>
      unfold Term.type? Term.value?
      rw [iha]
      rcases a.value? p with _ | ⟨_ | _ | _⟩ <;> rfl
  | binary op a b iha ihb =>
      unfold Term.type? Term.value?
      rw [iha, ihb]
      cases a.value? p with
      | none => rfl
      | some v =>
          cases b.value? p with
          | none => rfl
          | some w => exact op.type?_eq v w

end Shading

end ArtGrammar
