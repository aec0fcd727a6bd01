import Spreadsheet.Screen.Layout

/-!
# Spreadsheet.Screen.Canvas — drawing characters with styles

A canvas holds a symbol with a style for every point of a screen.  Drawing changes the points of an
area or of a piece of a line: a style that is laid over them changes only the properties it names,
and a symbol that is written keeps the properties that its style leaves open.  What lies outside the
canvas is not drawn.
-/

namespace Spreadsheet

/-- The colours in use. -/
inductive Color where
  | black | red | green | yellow | blue | magenta | cyan | white | darkGray | lightBlue
deriving DecidableEq, Repr

/-- The name of a colour. -/
def Color.name : Color → String
  | black => "Black"
  | red => "Red"
  | green => "Green"
  | yellow => "Yellow"
  | blue => "Blue"
  | magenta => "Magenta"
  | cyan => "Cyan"
  | white => "White"
  | darkGray => "DarkGray"
  | lightBlue => "LightBlue"

/-- The properties that a style names. -/
structure Style where
  foreground : Option Color
  background : Option Color
  underlined : Bool
deriving DecidableEq, Repr

namespace Style

/-- The style that names nothing. -/
def plain : Style := ⟨none, none, false⟩

/-- A style with a colour for the characters. -/
def ink (c : Color) : Style := ⟨some c, none, false⟩

/-- A style with a colour for the ground. -/
def ground (c : Color) : Style := ⟨none, some c, false⟩

/-- One style laid over another. -/
def onto (s below : Style) : Style :=
  ⟨s.foreground <|> below.foreground, s.background <|> below.background,
    s.underlined || below.underlined⟩

end Style

/-- What stands at a point. -/
inductive Symbol where
  | char (c : Char)
  /-- A carriage return with its line feed. -/
  | lineBreak
deriving DecidableEq, Repr

namespace Symbol

/-- The symbol of a point where nothing stands. -/
def blank : Symbol := char ' '

/-- The characters of a symbol. -/
def chars : Symbol → List Char
  | char c => [c]
  | lineBreak => ['\r', '\n']

/-- The symbols of a text on one line.  A line feed alone takes no place. -/
def ofText : List Char → List Symbol
  | [] => []
  | '\r' :: '\n' :: cs => lineBreak :: ofText cs
  | '\n' :: cs => ofText cs
  | c :: cs => char c :: ofText cs

end Symbol

/-- A symbol with a style. -/
structure Glyph where
  symbol : Symbol
  style : Style
deriving DecidableEq, Repr

/-- The glyph of a point where nothing stands. -/
def Glyph.blank : Glyph := ⟨Symbol.blank, Style.plain⟩

/-- Where a text that is shorter than its place stands, and which part of one that is longer is
shown. -/
inductive Alignment where
  | left | center | right
deriving DecidableEq, Repr

/-- The shift of a text of `length` characters in a place of `width`: how many columns stay free
before it, or how many of its characters are left out. -/
def Alignment.shift (a : Alignment) (spare : Nat) : Nat :=
  match a with
  | left => 0
  | center => spare / 2
  | right => spare

/-- The inside of a box. -/
def Area.inner (a : Area) : Area := ⟨a.x + 1, a.y + 1, a.width - 2, a.height - 2⟩

/-- The lines of a screen with the glyphs of each. -/
structure Canvas where
  lines : Array (Array Glyph)
deriving Inhabited, Repr

namespace Canvas

/-- A screen without anything on it. -/
def blank (width height : Nat) : Canvas := ⟨.replicate height (.replicate width Glyph.blank)⟩

/-- The glyph at a point, if the canvas has that point. -/
def glyph? (c : Canvas) (x y : Nat) : Option Glyph := c.lines[y]?.bind fun glyphs => glyphs[x]?

/-- Changes the glyphs of a line from column `x` on, the first one as the first change says. -/
def changeGlyphs (glyphs : Array Glyph) (x : Nat) : List (Glyph → Glyph) → Array Glyph
  | [] => glyphs
  | f :: fs => changeGlyphs (glyphs.modify x f) (x + 1) fs

/-- Changes a piece of a line that begins at a point. -/
def change (c : Canvas) (x y : Nat) (fs : List (Glyph → Glyph)) : Canvas :=
  ⟨c.lines.modify y fun glyphs => changeGlyphs glyphs x fs⟩

/-- Changes every glyph of an area alike. -/
def changeArea (c : Canvas) (a : Area) (f : Glyph → Glyph) : Canvas :=
  (List.range' a.y a.height).foldl (fun c y => c.change a.x y (List.replicate a.width f)) c

/-- Lays a style over an area. -/
def tint (c : Canvas) (a : Area) (s : Style) : Canvas :=
  c.changeArea a fun g => { g with style := s.onto g.style }

/-- Blanks an area, with no style. -/
def clear (c : Canvas) (a : Area) : Canvas := c.changeArea a fun _ => Glyph.blank

/-- Writes symbols from a point to the right. -/
def write (c : Canvas) (x y : Nat) (symbols : List Symbol) (s : Style) : Canvas :=
  c.change x y (symbols.map fun symbol g => ⟨symbol, s.onto g.style⟩)

/-- Writes symbols on the first line of an area, cut at its width. -/
def writeIn (c : Canvas) (a : Area) (symbols : List Symbol) (align : Alignment) (s : Style) :
    Canvas :=
  if a.height = 0 then c
  else if symbols.length ≤ a.width then
    c.write (a.x + align.shift (a.width - symbols.length)) a.y symbols s
  else c.write a.x a.y ((symbols.drop (align.shift (symbols.length - a.width))).take a.width) s

/-- Draws the border of a box with a title in it. -/
def box (c : Canvas) (a : Area) (title : List Symbol) : Canvas :=
  if a.width = 0 ∨ a.height = 0 then c
  else
    let right := a.x + a.width - 1
    let bottom := a.y + a.height - 1
    let put (c : Canvas) (x y : Nat) (symbol : Char) : Canvas := c.write x y [.char symbol] .plain
    let across (c : Canvas) (y : Nat) : Canvas :=
      c.write a.x y (List.replicate a.width (.char '─')) .plain
    let down (c : Canvas) (x : Nat) : Canvas :=
      (List.range' a.y a.height).foldl (fun c y => put c x y '│') c
    let c := down (down (across (across c a.y) bottom) a.x) right
    let c := put (put c a.x a.y '┌') right a.y '┐'
    let c := put (put c a.x bottom '└') right bottom '┘'
    c.write (a.x + 1) a.y (title.take (a.width - 2)) .plain

/-- Writes lines from the top of an area, cut at its width and height. -/
def writeLines (c : Canvas) (a : Area) (lines : List (List Symbol)) : Canvas :=
  (lines.take a.height).zipIdx.foldl
    (fun c l => c.writeIn ⟨a.x, a.y + l.2, a.width, 1⟩ l.1 .left .plain) c

/-- The glyphs of one line. -/
def line (c : Canvas) (y : Nat) : List Glyph := (c.lines[y]?.getD #[]).toList

/-! ### What a change does to a point -/

theorem getElem?_changeGlyphs (glyphs : Array Glyph) (x : Nat) (fs : List (Glyph → Glyph)) (i : Nat) :
    (changeGlyphs glyphs x fs)[i]? =
      if x ≤ i then glyphs[i]?.map (fs[i - x]?.getD id) else glyphs[i]? := by
  induction fs generalizing glyphs x with
  | nil => simp [changeGlyphs]
  | cons f fs ih =>
    rw [changeGlyphs, ih, Array.getElem?_modify]
    rcases Nat.lt_trichotomy i x with h | rfl | h
    · rw [if_neg (by omega), if_neg (by omega), if_neg (by omega)]
    · rw [if_neg (by omega), if_pos rfl, if_pos (Nat.le_refl i)]
      simp
    · obtain ⟨k, hk⟩ : ∃ k, i - x = k + 1 := ⟨i - x - 1, by omega⟩
      rw [if_pos (by omega), if_neg (by omega), if_pos (by omega), hk,
        show i - (x + 1) = k by omega]
      rfl

theorem glyph?_change (c : Canvas) (x y : Nat) (fs : List (Glyph → Glyph)) (x' y' : Nat) :
    (c.change x y fs).glyph? x' y' =
      if y' = y ∧ x ≤ x' then (c.glyph? x' y').map (fs[x' - x]?.getD id) else c.glyph? x' y' := by
  rw [glyph?, glyph?, change, Array.getElem?_modify]
  by_cases hy : y = y'
  · subst hy
    cases hl : c.lines[y]? with
    | none => simp
    | some glyphs => simp [getElem?_changeGlyphs]
  · rw [if_neg hy, if_neg fun h => hy h.1.symm]

end Canvas

/-- A run of equal styles in a line: where it begins, how long it is, and the style. -/
structure StyleRun where
  x : Nat
  length : Nat
  style : Style
deriving DecidableEq, Repr

/-- The maximal runs of equal styles in a line of which `x` characters have gone before. -/
def styleRuns (x : Nat) : List Glyph → List StyleRun
  | [] => []
  | g :: gs =>
    match styleRuns (x + 1) gs with
    | [] => [⟨x, 1, g.style⟩]
    | r :: rs => if r.style = g.style then ⟨x, r.length + 1, g.style⟩ :: rs else ⟨x, 1, g.style⟩ :: r :: rs

end Spreadsheet
