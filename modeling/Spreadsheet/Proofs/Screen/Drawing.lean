import Spreadsheet.Proofs.Screen.Pointing

/-!
# Spreadsheet.Proofs.Screen.Drawing — what stands at a point of the drawn grid

Everything that is drawn stays in an area, and what it leaves at a point depends on what stood there
and on nothing else (`DrawsIn`).  The border, the column letters and the row numbers lie outside the
cells, and no point lies in two cells, since pointing there hits only one.  So the grid shows at every
point of a cell what drawing this cell alone would leave there.
-/

namespace Spreadsheet

/-- A point lies in an area. -/
structure Area.Contains (a : Area) (x y : Nat) : Prop where
  left : a.x ≤ x
  right : x < a.x + a.width
  top : a.y ≤ y
  bottom : y < a.y + a.height

namespace Canvas

/-- What is drawn stays in an area, and what it leaves at a point depends on what stood there. -/
structure DrawsIn (a : Area) (draw : Canvas → Canvas) : Prop where
  outside : ∀ (c : Canvas) {x y : Nat}, ¬ a.Contains x y → (draw c).glyph? x y = c.glyph? x y
  pointwise : ∀ {c c' : Canvas} {x y : Nat}, c.glyph? x y = c'.glyph? x y →
    (draw c).glyph? x y = (draw c').glyph? x y

variable {a b : Area} {draw draw' : Canvas → Canvas}

theorem drawsIn_nothing (a : Area) : DrawsIn a fun c => c := ⟨fun _ _ _ _ => rfl, id⟩

theorem DrawsIn.andThen (h : DrawsIn a draw) (h' : DrawsIn a draw') :
    DrawsIn a fun c => draw' (draw c) where
  outside c _ _ hout := (h'.outside (draw c) hout).trans (h.outside c hout)
  pointwise heq := h'.pointwise (h.pointwise heq)

theorem DrawsIn.mono (h : DrawsIn a draw) (hsub : ∀ x y, a.Contains x y → b.Contains x y) :
    DrawsIn b draw :=
  ⟨fun c _ _ hout => h.outside c fun hin => hout (hsub _ _ hin), h.pointwise⟩

theorem drawsIn_foldl {α : Type} {items : List α} (draw : α → Canvas → Canvas)
    (h : ∀ i ∈ items, DrawsIn a (draw i)) : DrawsIn a fun c => items.foldl (fun c i => draw i c) c := by
  induction items with
  | nil => exact drawsIn_nothing a
  | cons i items ih =>
    exact (h i List.mem_cons_self).andThen (ih fun j hj => h j (List.mem_cons_of_mem i hj))

theorem drawsIn_change (x y : Nat) (fs : List (Glyph → Glyph)) :
    DrawsIn ⟨x, y, fs.length, 1⟩ fun c => c.change x y fs where
  outside c x' y' hout := by
    rw [glyph?_change]
    split_ifs with hline
    · obtain ⟨rfl, hx⟩ := hline
      have hbehind : fs.length ≤ x' - x := Nat.le_of_not_lt fun hlt =>
        hout ⟨hx, by simp only; omega, Nat.le_refl _, Nat.lt_succ_self _⟩
      rw [List.getElem?_eq_none hbehind, Option.getD_none, Option.map_id_fun, id]
    · rfl
  pointwise heq := by rw [glyph?_change, glyph?_change, heq]

theorem drawsIn_write (x y : Nat) (symbols : List Symbol) (s : Style) :
    DrawsIn ⟨x, y, symbols.length, 1⟩ fun c => c.write x y symbols s := by
  have h := drawsIn_change x y (symbols.map fun symbol g => ⟨symbol, s.onto g.style⟩)
  rwa [List.length_map] at h

theorem drawsIn_tint (a : Area) (s : Style) : DrawsIn a fun c => c.tint a s := by
  refine drawsIn_foldl (fun y c => c.change a.x y _) fun y hy => ?_
  obtain ⟨htop, hbottom⟩ := List.mem_range'_1.1 hy
  refine (drawsIn_change _ _ _).mono fun x' y' hin => ?_
  obtain ⟨hleft, hright, htop', hbottom'⟩ := hin
  simp only [List.length_replicate] at *
  exact ⟨hleft, hright, by omega, by omega⟩

/-- A text is cut at the width of its area. -/
theorem drawsIn_writeIn (a : Area) (symbols : List Symbol) (align : Alignment) (s : Style) :
    DrawsIn a fun c => c.writeIn a symbols align s := by
  have hshift (spare : Nat) : align.shift spare ≤ spare := by
    cases align <;> simp only [Alignment.shift] <;> omega
  unfold writeIn
  split_ifs with hheight hfits
  · exact drawsIn_nothing a
  · refine (drawsIn_write _ _ _ _).mono fun x y hin => ?_
    obtain ⟨hleft, hright, htop, hbottom⟩ := hin
    have := hshift (a.width - symbols.length)
    constructor <;> simp only at * <;> omega
  · refine (drawsIn_write _ _ _ _).mono fun x y hin => ?_
    obtain ⟨hleft, hright, htop, hbottom⟩ := hin
    simp only [List.length_take, List.length_drop] at hright
    constructor <;> simp only at * <;> omega

/-! ### At one point -/

section Point

variable {α : Type} {items : List α} (draw : α → Canvas → Canvas) {x y : Nat}

theorem glyph?_foldl_of_forall (h : ∀ i ∈ items, ∀ c, (draw i c).glyph? x y = c.glyph? x y)
    (c : Canvas) : (items.foldl (fun c i => draw i c) c).glyph? x y = c.glyph? x y := by
  induction items generalizing c with
  | nil => rfl
  | cons i items ih =>
    rw [List.foldl_cons, ih fun j hj => h j (List.mem_cons_of_mem i hj)]
    exact h i List.mem_cons_self c

/-- Where only one of several things is drawn, the others make no difference. -/
theorem glyph?_foldl_of_mem {i : α} (hi : i ∈ items) (hnodup : items.Nodup)
    (hothers : ∀ j ∈ items, j ≠ i → ∀ c, (draw j c).glyph? x y = c.glyph? x y)
    (hpoint : ∀ c c' : Canvas, c.glyph? x y = c'.glyph? x y →
      (draw i c).glyph? x y = (draw i c').glyph? x y) (c : Canvas) :
    (items.foldl (fun c i => draw i c) c).glyph? x y = (draw i c).glyph? x y := by
  -- what is drawn before is drawn over, and what is drawn after lies elsewhere
  obtain ⟨before, after, rfl⟩ := List.append_of_mem hi
  obtain ⟨-, hafter, hbefore⟩ := List.nodup_append.1 hnodup
  have hnot : i ∉ after := (List.nodup_cons.1 hafter).1
  rw [List.foldl_append, List.foldl_cons, glyph?_foldl_of_forall draw fun j hj => ?_]
  · refine hpoint _ _ (glyph?_foldl_of_forall draw (fun j hj => ?_) c)
    exact hothers j (List.mem_append_left _ hj) (hbefore j hj i List.mem_cons_self)
  · exact hothers j (List.mem_append_right _ (List.mem_cons_of_mem i hj)) fun h => hnot (h ▸ hj)

theorem glyph?_write_of_not (c : Canvas) {x' y' : Nat} {symbols : List Symbol} {s : Style}
    (h : y ≠ y' ∨ x < x' ∨ x' + symbols.length ≤ x) :
    (c.write x' y' symbols s).glyph? x y = c.glyph? x y := by
  refine (drawsIn_write x' y' symbols s).outside c fun hin => ?_
  obtain ⟨hleft, hright, htop, hbottom⟩ := hin
  simp only at *
  omega

/-- A box leaves its inside alone. -/
theorem glyph?_box (c : Canvas) {a : Area} (title : List Symbol) (hleft : a.x < x)
    (hright : x + 1 < a.x + a.width) (htop : a.y < y) (hbottom : y + 1 < a.y + a.height) :
    (c.box a title).glyph? x y = c.glyph? x y := by
  have hdown (c : Canvas) {x' : Nat} (hx : x ≠ x') :
      ((List.range' a.y a.height).foldl (fun c y => c.write x' y [.char '│'] .plain) c).glyph? x y
        = c.glyph? x y :=
    glyph?_foldl_of_forall (fun y c => c.write x' y [.char '│'] .plain)
      (fun y' _ c => glyph?_write_of_not c (.inr (by simp only [List.length_singleton]; omega))) c
  have hacross (c : Canvas) {x' y' : Nat} {symbols : List Symbol} (hy : y ≠ y') :
      (c.write x' y' symbols .plain).glyph? x y = c.glyph? x y := glyph?_write_of_not c (.inl hy)
  unfold box
  rw [if_neg (by omega)]
  simp only
  rw [hacross _ (by omega), hacross _ (by omega), hacross _ (by omega), hacross _ (by omega),
    hacross _ (by omega), hdown _ (by omega), hdown _ (by omega), hacross _ (by omega),
    hacross _ (by omega)]

end Point

end Canvas

namespace Screen

open Canvas

variable {γ : Type} {w : Workspace γ} {width height x y : Nat} {p : Position}

theorem drawsIn_drawCell (area : Area) (symbols : List Symbol) (align : Alignment) (s : Style) :
    DrawsIn area (drawCell area symbols align s) :=
  (drawsIn_tint area s).andThen (drawsIn_writeIn area symbols align .plain)

/-- A cell that stands on another line, or beside the point, leaves the point alone. -/
theorem glyph?_drawCell_of_not (c : Canvas) {area : Area} {symbols : List Symbol} {align : Alignment}
    {s : Style} (h : ¬ area.Contains x y) :
    (drawCell area symbols align s c).glyph? x y = c.glyph? x y :=
  (drawsIn_drawCell area symbols align s).outside c h

/-- Column letters stand above all cells. -/
theorem glyph?_drawColumnLetters (c : Canvas) {area : Area} {cols : List Nat}
    (hy : y ≠ area.inner.y) : (drawColumnLetters w area cols c).glyph? x y = c.glyph? x y := by
  refine glyph?_foldl_of_forall (fun col c => drawCell _ _ _ _ c) (fun col _ c => ?_) c
  refine glyph?_drawCell_of_not c fun hin => hy ?_
  obtain ⟨-, -, htop, hbottom⟩ := hin
  simp only [columnArea] at htop hbottom
  omega

/-- A row is drawn on its line only. -/
theorem glyph?_drawRow_of_ne (c : Canvas) {area : Area} {cols : List Nat} {line row : Nat}
    (hy : y ≠ area.inner.y + line) :
    (drawRow w area cols line row c).glyph? x y = c.glyph? x y := by
  have hcell (c : Canvas) {a : Area} {symbols : List Symbol} {align : Alignment} {s : Style}
      (ha : a.y = area.inner.y + line) (hone : a.height = 1) :
      (drawCell a symbols align s c).glyph? x y = c.glyph? x y := by
    refine glyph?_drawCell_of_not c fun hin => hy ?_
    obtain ⟨-, -, htop, hbottom⟩ := hin
    omega
  unfold drawRow
  simp only
  rw [glyph?_foldl_of_forall (fun col c => drawCell _ _ _ _ c)
    (fun col _ c => hcell c rfl rfl), hcell c rfl rfl]

section Room

variable (hwidth : width < Word.shortSize) (hroom : w.columnWidth + 1 ≤ width - 7)
  (hheight : 8 ≤ height) (hshort : height < Word.shortSize) (hp : IsDrawn w width height p)
  (hin : (cellArea w width height p).Contains x y)

include hwidth hroom hheight hp hin

/-- Where a point of a cell lies on the screen. -/
theorem point_of_contains :
    7 ≤ x ∧ x + 1 < width ∧ y = 3 + (p.row - w.topRow) ∧ y + 4 < height := by
  have hoffset := columnOffset_le hwidth hroom hp
  obtain ⟨hleft, hright, htop, hbottom⟩ := hin
  obtain ⟨⟨hrow, hlast⟩, -⟩ := isDrawn_iff.1 hp
  have hline := (lt_windowEnd_iff.1 hlast).2.1
  rw [cellArea_eq hwidth hroom hp (by omega)] at hleft hright htop hbottom
  simp only [visibleRows, gridArea] at *
  omega

include hshort

/-- A point lies in no other cell. -/
theorem eq_of_contains {q : Position} (hq : IsDrawn w width height q)
    (hin' : (cellArea w width height q).Contains x y) : q = p := by
  obtain ⟨-, -, hy, -⟩ := point_of_contains hwidth hroom hheight hp hin
  obtain ⟨-, -, hy', -⟩ := point_of_contains hwidth hroom hheight hq hin'
  -- pointing there hits both cells, so they are one
  have hunder := cellUnder_of_isDrawn hwidth hroom hp hheight hshort hin.left hin.right
  have hunder' := cellUnder_of_isDrawn hwidth hroom hq hheight hshort hin'.left hin'.right
  rw [cellArea_eq hwidth hroom hp (by omega)] at hunder
  rw [cellArea_eq hwidth hroom hq (by omega)] at hunder'
  simp only [← hy, ← hy'] at hunder hunder'
  exact Option.some.inj (hunder'.symm.trans hunder)

/-- In its row a cell is drawn as if it were alone. -/
theorem glyph?_drawRow (c : Canvas) :
    (drawRow w (gridArea width height) (shownCols w width height) (p.row - w.topRow + 1) p.row
        c).glyph? x y = (drawValue w width height p c).glyph? x y := by
  obtain ⟨hx, -⟩ := point_of_contains hwidth hroom hheight hp hin
  rw [drawRow_eq, glyph?_foldl_of_mem (fun col => drawValue w width height ⟨p.row, col⟩) hp.2
    List.nodup_range' ?_ ?_]
  · -- the number of the row stands left of the cells
    refine (drawsIn_drawCell _ _ _ _).pointwise (glyph?_drawCell_of_not c fun hin => ?_)
    have := hin.right
    simp only [rowNumberArea, rowNumberWidth, Area.inner, gridArea] at this
    omega
  · intro col hcol hne c
    have hq : IsDrawn w width height ⟨p.row, col⟩ := ⟨hp.1, hcol⟩
    exact glyph?_drawCell_of_not c fun hin' =>
      hne (congrArg Position.col (eq_of_contains hwidth hroom hheight hshort hp hin hq hin'))
  · intro c c' heq
    exact (drawsIn_drawCell _ _ _ _).pointwise heq

/-- At a point of a cell that is drawn the grid shows what drawing this cell alone would leave. -/
theorem glyph?_drawGrid (c : Canvas) :
    (drawGrid w width height c).glyph? x y = (drawValue w width height p c).glyph? x y := by
  obtain ⟨hx, hx', hy, hy'⟩ := point_of_contains hwidth hroom hheight hp hin
  have hrow := (isDrawn_iff.1 hp).1.1
  have htop : (gridArea width height).inner.y = 2 := by
    simp only [Area.inner, gridArea]
    omega
  rw [drawGrid_eq, glyph?_foldl_of_mem (fun row => drawRow w (gridArea width height)
    (shownCols w width height) (row - w.topRow + 1) row) hp.1 List.nodup_range' ?_ ?_]
  · -- column letters and border lie outside the cells
    rw [glyph?_drawRow hwidth hroom hheight hshort hp hin]
    refine (drawsIn_drawCell _ _ _ _).pointwise ?_
    rw [glyph?_drawColumnLetters _ (by omega), glyph?_box]
    all_goals simp only [gridArea]; omega
  · intro row hmem hne c
    have := (List.mem_range'_1.1 hmem).1
    exact glyph?_drawRow_of_ne c (by omega)
  · intro c c' heq
    rw [glyph?_drawRow hwidth hroom hheight hshort hp hin,
      glyph?_drawRow hwidth hroom hheight hshort hp hin]
    exact (drawsIn_drawCell _ _ _ _).pointwise heq

end Room

end Screen

end Spreadsheet
