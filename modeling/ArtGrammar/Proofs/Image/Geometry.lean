/-
  ArtGrammar.Proofs.Image.Geometry
  ────────────────────────────────
  **WHERE THE PIXELS OF A PICTURE LIE.**

  The center of a pixel is half a step right of its column, and is divided by the size
  and mapped to `[-1, 1]`.  Five operations round on the way, and all of them keep the
  order, so the ends of the range decide:

      0          ≤  column + 1/2  ≤  size
      -1         ≤  coordinate    ≤  1

  The sum does not pass the size: as far as columns are exact it is rounded like a
  number that does not, and above 2 ^ 24 a half is too small to move a column at all.
-/
import ArtGrammar.Proofs.Image.Raster
import ArtGrammar.Proofs.Single.Repeated

namespace ArtGrammar

namespace Single

/-! ## §1. Columns and sizes. -/

theorem ofNat_eq_ofSigned (n : Nat) : ofNat n = ofSigned ((n * 2 ^ 149 : Nat) : Int) 1 := by
  have hsign : decide (((n * 2 ^ 149 : Nat) : Int) < 0) = false := decide_eq_false (by omega)
  unfold ofSigned
  rw [hsign, Int.natAbs_natCast]
  rfl

/-- Greater numbers are rounded to greater values. -/
theorem ofNat_mono {m n : Nat} (h : m ≤ n) : ofNat m ≤ ofNat n := by
  rw [ofNat_eq_ofSigned m, ofNat_eq_ofSigned n]
  exact ofSigned_mono Nat.one_pos (Int.ofNat_le.2 (Nat.mul_le_mul_right _ h))

/-- What lies between finite values is finite. -/
theorem isFinite_of_mem {a v b : Single} (ha : a.isFinite = true) (hb : b.isFinite = true)
    (hav : a ≤ v) (hvb : v ≤ b) : v.isFinite = true := by
  cases v with
  | nan => exact absurd rfl (ne_nan_of_le hav).2
  | infinite s =>
      cases s with
      | false =>
          rw [eq_of_infinite_false_le hvb] at hb
          exact hb
      | true =>
          rw [eq_of_le_infinite_true hav] at ha
          exact ha
  | finite s r => rfl

/-- A size is a magnitude, and not zero unless it is. -/
theorem exists_rank_ofNat {n : Nat} (hpos : 0 < n) (hn : n < 2 ^ 32) :
    ∃ q, ofNat n = finite false q ∧ q.val ≠ 0 := by
  have hone : 1 ≤ ofNat n := ofNat_mono hpos
  apply exists_rank_of_pos
  · exact isFinite_of_mem (b := ofNat (2 ^ 32)) rfl (by decide +kernel) hone (ofNat_mono hn.le)
  · refine lt_of_not_le (ne_nan_of_le hone).2 (by decide) fun h => ?_
    exact absurd (le_trans hone h) (by decide)

/-! ## §2. Centers. -/

theorem ofRatio_half : ofRatio false 1 2 = finite false ⟨0x3f000000, by decide⟩ := by decide

theorem unitsAt_half : unitsAt 0x3f000000 = 2 ^ 148 := by decide

/-- The center of a pixel is the rounded sum of magnitudes. -/
theorem place_add_half (r : Fin finiteRanks) :
    (finite false r + ofRatio false 1 2).place
      = (ofSigned ((unitsAt r + 2 ^ 148 : Nat) : Int) 1).place := by
  rw [ofRatio_half, place_finite_add_finite, unitsAt_half]
  rfl

/-- Above 2 ^ 24 a half is less than half a step. -/
theorem place_add_half_of_le {r : Fin finiteRanks} (h : 0x4b800000 ≤ r.val) :
    (finite false r + ofRatio false 1 2).place = (finite false r).place := by
  have hexponent : 150 ≤ exponentAt r := exponentAt_mono (r := 0x4b800000) h
  have hstep : 2 ^ 150 ≤ 2 ^ exponentAt r := Nat.pow_le_pow_right (by decide) hexponent
  have hstays : nearestRank (unitsAt r + 2 ^ 148) 1 = r :=
    addRank_eq_self (c := 2 ^ 148) (by omega)
  have hrounded : (finite false r + ofRatio false 1 2).place
      = (ofUnits false (unitsAt r + 2 ^ 148) 1).place :=
    (place_add_half r).trans (place_ofUnits_eq false _ Nat.one_pos).symm
  rw [hrounded, place_ofUnits, hstays, Nat.min_eq_right r.isLt.le]
  rfl

/-- **THE CENTER OF A PIXEL IS NOT PAST THE EDGE**, whether or not its column is exact. -/
theorem add_half_le {column size : Nat} (h : column < size) (hsize : size < 2 ^ 32) :
    ofNat column + ofRatio false 1 2 ≤ ofNat size := by
  by_cases hexact : column ≤ 2 * binade
  · -- the one rounding of the sum is of a number below the size
    obtain ⟨r, hr, hunits⟩ := hasUnits_ofNat column hexact
    rw [hr, ofNat_eq_ofSigned size, le_congr (place_add_half r) rfl, hunits]
    exact ofSigned_mono Nat.one_pos (Int.ofNat_le.2 (by omega))
  · -- the column is rounded, but as the size is, and the half is lost
    obtain ⟨r, hr, _⟩ := exists_rank_ofNat (n := column) (by omega) (by omega)
    have hlarge : finite false ⟨0x4b800000, by decide⟩ ≤ ofNat column := by
      have hpower : ofNat (2 * binade) = finite false ⟨0x4b800000, by decide⟩ := by decide +kernel
      rw [← hpower]
      exact ofNat_mono (by omega)
    rw [hr] at hlarge ⊢
    rw [le_congr (place_add_half_of_le (finite_le_finite.1 hlarge)) rfl, ← hr]
    exact ofNat_mono h.le

theorem le_add_half (column : Nat) : 0 ≤ ofNat column + ofRatio false 1 2 := by
  have hzero : ofNat 0 ≤ ofNat column := ofNat_mono (Nat.zero_le column)
  have hsum := add_le_add_right (c := ofRatio false 1 2) hzero rfl
  have hhalf : 0 ≤ ofNat 0 + ofRatio false 1 2 := by decide
  exact le_trans hhalf hsum

end Single

/-! ## §3. Coordinates. -/

namespace Viewpoint

variable {size : UInt32}

/-- Positions further on have coordinates further on. -/
theorem normalized_mono (hsize : 0 < size.toNat) {a b : Single} (h : a ≤ b) :
    normalized a size ≤ normalized b size := by
  obtain ⟨q, hq, hne⟩ := Single.exists_rank_ofNat hsize size.toNat_lt
  unfold normalized
  rw [hq]
  have hpos : 0 < Single.finite false q :=
    Single.finite_lt_finite (r := ⟨0, by decide⟩).2 (Nat.pos_of_ne_zero hne)
  have hratio := Single.div_le_div_right h rfl hpos
  have hdouble := Single.mul_le_mul_right (c := 2) hratio rfl (by decide)
  -- a difference is a sum with the negated operand
  exact Single.add_le_add_right (c := -1) hdouble rfl

theorem normalized_zero (hsize : 0 < size.toNat) : normalized 0 size = -1 := by
  obtain ⟨q, hq, hne⟩ := Single.exists_rank_ofNat hsize size.toNat_lt
  have hratio : 0 / Single.finite false q = 0 := by
    show (if q.val = 0 then if (0 : Nat) = 0 then Single.nan else .infinite false
      else Single.ofUnits false (unitsAt 0 * unitsPerOne) (unitsAt q)) = _
    have hzero := Single.ofUnits_unitsAt false ⟨0, by decide⟩ _ (Single.unitsAt_pos hne)
    rw [unitsAt_zero, Nat.zero_mul] at hzero
    rw [if_neg hne, unitsAt_zero, Nat.zero_mul]
    exact hzero
  unfold normalized
  rw [hq, hratio]
  decide

theorem normalized_size (hsize : 0 < size.toNat) :
    normalized (Single.ofNat size.toNat) size = 1 := by
  obtain ⟨q, hq, hne⟩ := Single.exists_rank_ofNat hsize size.toNat_lt
  have hratio : Single.finite false q / Single.finite false q = 1 := by
    show (if q.val = 0 then if q.val = 0 then Single.nan else .infinite false
      else Single.ofUnits false (unitsAt q * unitsPerOne) (unitsAt q)) = _
    have hself : Single.ofUnits false (2 ^ 149 * unitsAt q) (unitsAt q) = 1 := by
      rw [← unitsAt_one]
      exact Single.ofUnits_unitsAt false ⟨0x3f800000, by decide⟩ _ (Single.unitsAt_pos hne)
    rw [if_neg hne, Nat.mul_comm (unitsAt q)]
    exact hself
  unfold normalized
  rw [hq, hratio]
  decide

/-- The coordinate of the center of a column, or of a row from below. -/
def centered (n : Nat) (size : UInt32) : Single :=
  normalized (Single.ofNat n + Single.ofRatio false 1 2) size

/-- **CENTERS HAVE COORDINATES IN `[-1, 1]`.** -/
theorem centered_mem {n : Nat} (h : n < size.toNat) : -1 ≤ centered n size ∧ centered n size ≤ 1 := by
  have hsize : 0 < size.toNat := Nat.lt_of_le_of_lt (Nat.zero_le n) h
  constructor
  · rw [← normalized_zero hsize]
    exact normalized_mono hsize (Single.le_add_half n)
  · rw [← normalized_size hsize]
    exact normalized_mono hsize (Single.add_half_le h size.toNat_lt)

/-- **COORDINATES GROW WITH THE COLUMN.** -/
theorem centered_mono (hsize : 0 < size.toNat) {m n : Nat} (h : m ≤ n) :
    centered m size ≤ centered n size :=
  normalized_mono hsize (Single.add_le_add_right (Single.ofNat_mono h) rfl)

end Viewpoint

/-! ## §4. Variables that do not occur. -/

namespace Viewpoint

/-- The viewpoints give the same values to the variables of the tree. -/
def AgreeOn (p q : Viewpoint) (e : Expr) : Prop :=
  ∀ v, .var v ∈ e.preorder → p.value v = q.value v

theorem AgreeOn.child {p q : Viewpoint} {e a : Expr} (h : p.AgreeOn q e) (ha : a ∈ e.children) :
    p.AgreeOn q a := by
  intro v hv
  apply h
  rw [e.preorder_eq_cons]
  exact List.mem_cons_of_mem _ (List.mem_flatMap.2 ⟨a, ha, hv⟩)

end Viewpoint

namespace Expr

/-- **THE VALUE OF A TREE DEPENDS ON ITS VARIABLES ONLY.** -/
theorem evaluate_congr {p q : Viewpoint} (e : Expr) :
    p.AgreeOn q e → e.evaluate p = e.evaluate q := by
  induction e with
  | var v =>
      intro h
      exact congrArg (fun x => Except.ok (Value.scalar x)) (h v (List.mem_singleton.2 rfl))
  | number v => exact fun _ => rfl
  | boolean b => exact fun _ => rfl
  | random => exact fun _ => rfl
  | rule name => exact fun _ => rfl
  | abs a iha =>
      intro h
      unfold evaluate
      rw [iha (h.child (by simp [children]))]
  | arith op a b iha ihb =>
      intro h
      unfold evaluate
      rw [iha (h.child (by simp [children])), ihb (h.child (by simp [children]))]
  | ge a b iha ihb =>
      intro h
      unfold evaluate
      rw [iha (h.child (by simp [children])), ihb (h.child (by simp [children]))]
  | triple a b c iha ihb ihc =>
      intro h
      unfold evaluate
      rw [iha (h.child (by simp [children])), ihb (h.child (by simp [children])),
        ihc (h.child (by simp [children]))]
  | cond test yes no ihtest ihyes ihno =>
      intro h
      unfold evaluate
      rw [ihtest (h.child (by simp [children])), ihyes (h.child (by simp [children])),
        ihno (h.child (by simp [children]))]

theorem shade_congr {p q : Viewpoint} {e : Expr} (h : p.AgreeOn q e) : e.shade p = e.shade q := by
  unfold shade
  rw [e.evaluate_congr h]

/-- The horizontal coordinate as grey has its byte in every channel. -/
theorem get_of_shade_gradient {p : Viewpoint} {e : Expr} {color : Lanes}
    (he : e = .var .x ∨ e = .gradient) (h : e.shade p = .ok color) (i : Lane) :
    color.get i = p.x.toChannel := by
  rcases he with rfl | rfl
  · cases h
    cases i <;> rfl
  · cases h
    cases i <;> rfl

end Expr

/-! ## §5. Pictures. -/

namespace View

variable {view : View} {e : Expr} {rows : List (List Pixel)}

/-- The viewpoints of two pixels differ in the two coordinates alone. -/
theorem agreeOn_viewpoint (view : View) {column column' row row' : Nat}
    (hx : .var .x ∈ e.preorder → column = column') (hy : .var .y ∈ e.preorder → row = row') :
    (view.viewpoint column row).AgreeOn (view.viewpoint column' row') e := by
  intro v hv
  unfold viewpoint Viewpoint.ofPixel Viewpoint.value
  cases v with
  | x => simp only [center, hx hv]
  | y => simp only [center, hy hv]
  | t => simp only
  | mouseX => simp only
  | mouseY => simp only

/-- **WITHOUT THE VERTICAL COORDINATE ALL ROWS ARE ONE**, -/
theorem rows_eq_of_not_mem_y (h : view.render e = .ok rows) (hy : .var .y ∉ e.preorder) :
    ∀ line ∈ rows, ∀ other ∈ rows, line = other := by
  obtain ⟨_, _, color, hcolor, rfl⟩ := exists_color_of_render h
  intro line hline other hother
  obtain ⟨row, _, rfl⟩ := List.mem_map.1 hline
  obtain ⟨row', _, rfl⟩ := List.mem_map.1 hother
  apply List.map_congr_left
  intro column _
  have hagree : (view.viewpoint column row).AgreeOn (view.viewpoint column row') e :=
    view.agreeOn_viewpoint (fun _ => rfl) (fun hmem => absurd hmem hy)
  have hsame := Expr.shade_congr hagree
  rw [hcolor, hcolor] at hsame
  rw [Except.ok.inj hsame]

/-- **AND WITHOUT THE HORIZONTAL ONE ALL COLUMNS.** -/
theorem columns_eq_of_not_mem_x (h : view.render e = .ok rows) (hx : .var .x ∉ e.preorder)
    {i j : Nat} (hi : i < view.canvas.width.toNat) (hj : j < view.canvas.width.toNat) :
    rows.map (·[i]?) = rows.map (·[j]?) := by
  obtain ⟨_, _, color, hcolor, rfl⟩ := exists_color_of_render h
  apply List.map_congr_left
  intro line hline
  obtain ⟨row, _, rfl⟩ := List.mem_map.1 hline
  have hagree : (view.viewpoint i row).AgreeOn (view.viewpoint j row) e :=
    view.agreeOn_viewpoint (fun hmem => absurd hmem hx) (fun _ => rfl)
  have hsame := Expr.shade_congr hagree
  rw [hcolor, hcolor] at hsame
  rw [getElem?_line color row hi, getElem?_line color row hj, Except.ok.inj hsame]

/-- **A GRADIENT BRIGHTENS FROM LEFT TO RIGHT.** -/
theorem pairwise_of_gradient (he : e = .var .x ∨ e = .gradient) (h : view.render e = .ok rows) :
    ∀ line ∈ rows, line.Pairwise fun left right => ∀ i, left.get i ≤ right.get i := by
  obtain ⟨hwidth, _, color, hcolor, rfl⟩ := exists_color_of_render h
  intro line hline
  obtain ⟨row, _, rfl⟩ := List.mem_map.1 hline
  rw [line, List.pairwise_map]
  -- in a row of pixels positions are columns, in ascending order
  refine List.Pairwise.imp ?_ List.pairwise_lt_range
  intro left right hlt i
  rw [Lanes.get_toPixel, Lanes.get_toPixel, Expr.get_of_shade_gradient he (hcolor _),
    Expr.get_of_shade_gradient he (hcolor _)]
  exact Single.channelByte_mono (Viewpoint.centered_mono (UInt32.lt_iff_toNat_lt.1 hwidth) hlt.le)

/-- **THE GEOMETRY OF A PICTURE.**  Every pixel has coordinates in `[-1, 1]`; the horizontal one
does not fall from left to right, nor the vertical one rise from the top down, whatever
the size.  So in the picture of a tree that does not mention the vertical coordinate all
rows are equal, in that of a tree that does not mention the horizontal one all columns,
and the picture of a gradient has no byte that is less than one to its left. -/
theorem coordinates_govern_picture (view : View) :
    (∀ column row, column < view.canvas.width.toNat → row < view.canvas.height.toNat →
        -1 ≤ (view.viewpoint column row).x ∧ (view.viewpoint column row).x ≤ 1
          ∧ -1 ≤ (view.viewpoint column row).y ∧ (view.viewpoint column row).y ≤ 1)
      ∧ (∀ left right upper lower, left ≤ right → right < view.canvas.width.toNat →
          (view.viewpoint left upper).x ≤ (view.viewpoint right lower).x)
      ∧ (∀ left right upper lower, upper ≤ lower → lower < view.canvas.height.toNat →
          (view.viewpoint left lower).y ≤ (view.viewpoint right upper).y)
      ∧ (∀ e rows, view.render e = .ok rows → .var .y ∉ e.preorder →
          ∀ line ∈ rows, ∀ other ∈ rows, line = other)
      ∧ (∀ e rows, view.render e = .ok rows → .var .x ∉ e.preorder →
          ∀ i j, i < view.canvas.width.toNat → j < view.canvas.width.toNat →
            rows.map (·[i]?) = rows.map (·[j]?))
      ∧ ∀ e, e = .var .x ∨ e = .gradient →
          (0 < view.canvas.width → 0 < view.canvas.height → ∃ rows, view.render e = .ok rows)
            ∧ ∀ rows, view.render e = .ok rows →
                ∀ line ∈ rows, line.Pairwise fun left right => ∀ i, left.get i ≤ right.get i := by
  refine ⟨fun column row hcolumn hrow => ?_, fun left right upper lower hle hright => ?_,
    fun left right upper lower hle hlower => ?_, fun e rows h hy => rows_eq_of_not_mem_y h hy,
    fun e rows h hx i j hi hj => columns_eq_of_not_mem_x h hx hi hj,
    fun e he => ⟨fun hwidth hheight => ?_, fun rows h => pairwise_of_gradient he h⟩⟩
  · obtain ⟨hx, hx'⟩ := Viewpoint.centered_mem hcolumn
    have hbelow : view.canvas.height.toNat - 1 - row < view.canvas.height.toNat := by omega
    obtain ⟨hy, hy'⟩ := Viewpoint.centered_mem hbelow
    exact ⟨hx, hx', hy, hy'⟩
  · exact Viewpoint.centered_mono (Nat.lt_of_le_of_lt (Nat.zero_le right) hright) hle
  · exact Viewpoint.centered_mono (Nat.lt_of_le_of_lt (Nat.zero_le lower) hlower)
      (Nat.sub_le_sub_left hle _)
  · have hcolor : ∀ p, ∃ color, e.shade p = .ok color := by
      rcases he with rfl | rfl
      · exact fun p => ⟨_, rfl⟩
      · exact fun p => ⟨_, rfl⟩
    choose color h using hcolor
    exact ⟨_, render_of_color hwidth hheight h⟩

/-- A view of two rows of the greatest width. -/
def widest : View := { canvas := ⟨0xffffffff, 2⟩, time := 0, mouse := ⟨0, 0⟩ }

/-- A view of two by two pixels, -/
def square : View := { canvas := ⟨2, 2⟩, time := 0, mouse := ⟨0, 0⟩ }

/-- the grey of a coordinate of minus a half, -/
def darker : Pixel := ⟨64, 64, 64⟩

/-- and that of a half. -/
def lighter : Pixel := ⟨191, 191, 191⟩

/-- On the greatest width the last center is rounded to the edge and stays in the range, and
neighbours that are rounded to the same column are still in order.  Of four pixels the
gradient has two equal rows that brighten, and the vertical coordinate two equal columns. -/
theorem coordinates_govern_picture_widest :
    (widest.viewpoint 0xfffffffe 0).x = 1
      ∧ (-1 ≤ (widest.viewpoint 0xfffffffe 0).x ∧ (widest.viewpoint 0xfffffffe 0).x ≤ 1
          ∧ -1 ≤ (widest.viewpoint 0xfffffffe 0).y ∧ (widest.viewpoint 0xfffffffe 0).y ≤ 1)
      ∧ (widest.viewpoint 0x1000000 0).x ≤ (widest.viewpoint 0x1000001 1).x
      ∧ (widest.viewpoint 0 1).y ≤ (widest.viewpoint 0 0).y
      ∧ square.render .gradient = .ok [[darker, lighter], [darker, lighter]]
      ∧ (∀ line ∈ [[darker, lighter], [darker, lighter]],
          ∀ other ∈ [[darker, lighter], [darker, lighter]], line = other)
      ∧ (∀ line ∈ [[darker, lighter], [darker, lighter]],
          line.Pairwise fun left right => ∀ i, left.get i ≤ right.get i)
      ∧ square.render (.var .y) = .ok [[lighter, lighter], [darker, darker]]
      ∧ [[lighter, lighter], [darker, darker]].map (·[0]?)
          = [[lighter, lighter], [darker, darker]].map (·[1]?) := by
  have hgradient : square.render .gradient = .ok [[darker, lighter], [darker, lighter]] := by
    decide +kernel
  have hy : square.render (.var .y) = .ok [[lighter, lighter], [darker, darker]] := by
    decide +kernel
  obtain ⟨hrange, hright, hdown, _⟩ := coordinates_govern_picture widest
  obtain ⟨_, _, _, hrows, hcolumns, hbrightens⟩ := coordinates_govern_picture square
  exact ⟨by decide +kernel, hrange _ _ (by decide) (by decide),
    hright _ _ _ _ (by decide) (by decide), hdown _ _ _ _ (by decide) (by decide), hgradient,
    hrows _ _ hgradient (by decide), (hbrightens _ (Or.inr rfl)).2 _ hgradient, hy,
    hcolumns _ _ hy (by decide) 0 1 (by decide) (by decide)⟩

end View

end ArtGrammar
