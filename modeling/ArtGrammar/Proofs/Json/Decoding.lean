/-
  ArtGrammar.Proofs.Json.Decoding
  ────────────────────────────────
  **DECODING WHAT WAS ENCODED.**

  A decoder gives a value back if it does so for the JSON value, which is what
  its text is read as:

      x  ──toJson──▶  v  ──render──▶  text  ──parse?──▶  v  ──ofJson? room──▶  x

  A record of fields with different names is decoded to its fields, a list to its
  items.  Room is needed for the arrays and objects that nest in the value, each
  of which takes one off.
-/
import ArtGrammar.Proofs.Json.Number

namespace ArtGrammar.JsonValue

/-! ## §1. Nesting. -/

mutual

/-- How deep arrays and objects nest. -/
def nesting : JsonValue → Nat
  | .array items => itemsNesting items + 1
  | .object members => membersNesting members + 1
  | _ => 0

/-- How deep they nest in one of the items. -/
def itemsNesting : List JsonValue → Nat
  | [] => 0
  | v :: rest => max (nesting v) (itemsNesting rest)

/-- How deep they nest in one of the members. -/
def membersNesting : List (Option String × JsonValue) → Nat
  | [] => 0
  | (_, v) :: rest => max (nesting v) (membersNesting rest)

end

theorem nesting_le_itemsNesting {v : JsonValue} {items : List JsonValue} (h : v ∈ items) :
    v.nesting ≤ itemsNesting items := by
  induction items with
  | nil => cases h
  | cons w items ih =>
      unfold itemsNesting
      rcases List.mem_cons.1 h with rfl | h
      · exact Nat.le_max_left _ _
      · exact (ih h).trans (Nat.le_max_right _ _)

theorem nesting_le_membersNesting {m : Option String × JsonValue}
    {members : List (Option String × JsonValue)} (h : m ∈ members) :
    m.2.nesting ≤ membersNesting members := by
  induction members with
  | nil => cases h
  | cons w members ih =>
      unfold membersNesting
      rcases List.mem_cons.1 h with rfl | h
      · exact Nat.le_max_left _ _
      · exact (ih h).trans (Nat.le_max_right _ _)

/-- A record takes one off the room of its fields. -/
theorem nesting_lt_of_mem_record {m : String × JsonValue} {members : List (String × JsonValue)}
    (h : m ∈ members) : m.2.nesting < (record members).nesting := by
  have hmem : (some m.1, m.2) ∈ members.map fun m => (some m.1, m.2) := List.mem_map.2 ⟨m, h, rfl⟩
  exact Nat.lt_succ_of_le (nesting_le_membersNesting hmem)

theorem nesting_lt_tagged (tag : String) (v : JsonValue) : v.nesting < (tagged tag v).nesting :=
  nesting_lt_of_mem_record (m := (tag, v)) List.mem_cons_self

/-! ## §2. Readable values. -/

theorem readable_ofText (s : String) : Readable (ofText s) := .string _

theorem readable_record {members : List (String × JsonValue)}
    (h : ∀ m ∈ members, Readable m.2) : Readable (record members) := by
  apply Readable.object
  intro m hm
  obtain ⟨member, hmember, rfl⟩ := List.mem_map.1 hm
  exact h member hmember

theorem readable_tagged (tag : String) {v : JsonValue} (h : Readable v) :
    Readable (tagged tag v) := by
  apply readable_record
  intro m hm
  rw [List.mem_singleton.1 hm]
  exact h

theorem readable_map {α : Type} {toJson : α → JsonValue} {items : List α}
    (h : ∀ a ∈ items, Readable (toJson a)) : Readable (array (items.map toJson)) := by
  apply Readable.array
  intro v hv
  obtain ⟨a, ha, rfl⟩ := List.mem_map.1 hv
  exact h a ha

/-- **A TEXT IS DECODED AS ITS VALUE IS.** -/
theorem decode?_render {α : Type} {decoder : Nat → JsonValue → Option α} {v : JsonValue}
    (hv : Readable v) : decode? decoder v.render = decoder nestingLimit v := by
  unfold decode?
  rw [parse?_render hv, Option.bind_some]

/-! ## §3. Choices and lists. -/

/-- A choice is told by its tag. -/
theorem toChoice?_ofText {α : Type} (ofTag? : String → Option α) (room : Nat) (tag : String) :
    toChoice? ofTag? room (ofText tag) = ofTag? tag := by
  unfold toChoice? ofText
  rfl

/-- What is decoded item by item is decoded as a list. -/
theorem mapM_map_eq_some {α β γ : Type} {f : α → β} {g : β → Option γ} {h : α → γ} {l : List α}
    (hl : ∀ a ∈ l, g (f a) = some (h a)) : (l.map f).mapM g = some (l.map h) := by
  induction l with
  | nil => rfl
  | cons a l ih =>
      have hhead := hl a List.mem_cons_self
      have htail := ih fun b hb => hl b (List.mem_cons_of_mem a hb)
      rw [List.map_cons, List.mapM_cons, hhead, htail]
      rfl

theorem toList?_map {α : Type} {item : Nat → JsonValue → Option α} {toJson : α → JsonValue}
    {room : Nat} {items : List α} (h : ∀ a ∈ items, item room (toJson a) = some a) :
    toList? item (room + 1) (array (items.map toJson)) = some items := by
  have hmap := mapM_map_eq_some (h := fun a => a) h
  rw [List.map_id'] at hmap
  exact hmap

/-! ## §4. Records. -/

theorem namedMembers?_map (members : List (String × JsonValue)) :
    namedMembers? (members.map fun m => (some m.1, m.2)) = some members := by
  have hmap := mapM_map_eq_some (l := members) (f := fun m => (some m.1, m.2))
    (g := fun m : Option String × JsonValue => m.1.map fun name => (name, m.2)) (h := fun m => m)
    fun _ _ => rfl
  rw [List.map_id'] at hmap
  exact hmap

/-- Among different names each is found. -/
theorem member?_of_mem {members : List (String × JsonValue)}
    (hnames : (members.map Prod.fst).Nodup) {m : String × JsonValue} (hm : m ∈ members) :
    member? members m.1 = some (some m.2) := by
  obtain ⟨before, behind, rfl⟩ := List.append_of_mem hm
  rw [List.map_append, List.map_cons, List.nodup_append, List.nodup_cons] at hnames
  obtain ⟨_, ⟨hbehind, _⟩, hbefore⟩ := hnames
  have hother : ∀ l : List (String × JsonValue), m.1 ∉ l.map Prod.fst →
      l.filter (fun d => d.1 == m.1) = [] := by
    intro l hl
    rw [List.filter_eq_nil_iff]
    intro d hd hname
    rw [beq_iff_eq] at hname
    exact hl (hname ▸ List.mem_map_of_mem hd)
  have hself : (m :: behind).filter (fun d => d.1 == m.1)
      = m :: behind.filter (fun d => d.1 == m.1) :=
    List.filter_cons_of_pos (beq_self_eq_true m.1)
  have hfilter : (before ++ m :: behind).filter (fun d => d.1 == m.1) = [m] := by
    rw [List.filter_append, hself,
      hother before fun h => hbefore _ h _ List.mem_cons_self rfl, hother behind hbehind]
    rfl
  unfold member?
  rw [hfilter]

/-- **A RECORD IS DECODED FROM ITS FIELDS.** -/
theorem toRecord?_record {α : Type} {build : Nat → List (Option JsonValue) → Option α} {room : Nat}
    {names : List String} {members : List (String × JsonValue)}
    (hnames : members.map Prod.fst = names) (hnodup : names.Nodup) :
    toRecord? names build (room + 1) (record members)
      = build room (members.map fun m => some m.2) := by
  subst hnames
  have hfields : (members.map Prod.fst).mapM (member? members)
      = some (members.map fun m => some m.2) :=
    mapM_map_eq_some fun m hm => member?_of_mem hnodup hm
  show ((namedMembers? (members.map fun m => (some m.1, m.2))).bind fun found =>
    (members.map Prod.fst).mapM (member? found)).bind (build room) = _
  rw [namedMembers?_map, Option.bind_some, hfields, Option.bind_some]

end ArtGrammar.JsonValue
