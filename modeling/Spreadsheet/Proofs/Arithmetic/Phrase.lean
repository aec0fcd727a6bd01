import Spreadsheet.Arithmetic.Parser
import Spreadsheet.Proofs.Results

/-!
# Spreadsheet.Proofs.Arithmetic.Phrase — the grammar of arithmetic

A phrase is a derivation in the usual grammar: an expression is a sum of terms, a term a product of
factors, a factor an operand, a phrase in parentheses or a signed factor.  Operands are of any kind,
and blanks may stand around every phrase.  `render` writes a phrase as characters or as tokens,
`mapM` replaces its operands from left to right, and `expr` is the syntax tree that it denotes.

A pass reads a text from left to right.  If it copies what stands between operands and replaces each
operand, it does to the text of a phrase what `mapM` does to the phrase.
-/

namespace Spreadsheet

/-- The character of an operation. -/
def Operation.symbol : Operation → Char
  | add => '+'
  | sub => '-'
  | mul => '*'
  | div => '/'

namespace Arithmetic

/-- The kinds of phrases. -/
inductive Category where
  | expression | term | factor

/-- A run of blanks. -/
abbrev Blanks := { cs : List Char // ∀ c ∈ cs, Text.isBlank c = true }

/-- Derivations in the grammar of arithmetic. -/
inductive Phrase (α : Type) : Category → Type
  | operand (a : α) : Phrase α .factor
  | group (s : Phrase α .expression) : Phrase α .factor
  | plus (s : Phrase α .factor) : Phrase α .factor
  | minus (s : Phrase α .factor) : Phrase α .factor
  | single (s : Phrase α .factor) : Phrase α .term
  | product (op : Operation) (h : op.isAdditive = false) (l : Phrase α .term)
      (r : Phrase α .factor) : Phrase α .term
  | alone (s : Phrase α .term) : Phrase α .expression
  | sum (op : Operation) (h : op.isAdditive = true) (l : Phrase α .expression)
      (r : Phrase α .term) : Phrase α .expression
  | spaced {c : Category} (before : Blanks) (s : Phrase α c) (after : Blanks) : Phrase α c

/-- What may stand between operands: blanks, operators and parentheses. -/
def isMark (c : Char) : Bool := Text.isBlank c || (Token.symbol? c).isSome

/-- Where an operand ends: at the end of the text or before a mark. -/
def Closed (cs : List Char) : Prop := ∀ c ∈ cs.head?, isMark c = true

namespace Phrase

variable {α β ω : Type}

/-- A phrase written down, its marks and its operands each in some way. -/
def render (mark : Char → List ω) (spell : α → List ω) : {c : Category} → Phrase α c → List ω
  | _, operand a => spell a
  | _, group s => mark '(' ++ s.render mark spell ++ mark ')'
  | _, plus s => mark '+' ++ s.render mark spell
  | _, minus s => mark '-' ++ s.render mark spell
  | _, single s => s.render mark spell
  | _, product op _ l r => l.render mark spell ++ mark op.symbol ++ r.render mark spell
  | _, alone s => s.render mark spell
  | _, sum op _ l r => l.render mark spell ++ mark op.symbol ++ r.render mark spell
  | _, spaced before s after =>
    before.1.flatMap mark ++ s.render mark spell ++ after.1.flatMap mark

/-- The text of a phrase. -/
def text (spell : α → List Char) {c : Category} (s : Phrase α c) : List Char :=
  s.render (fun c => [c]) spell

/-- The operands of a phrase, from left to right. -/
def operands : {c : Category} → Phrase α c → List α
  | _, operand a => [a]
  | _, group s => s.operands
  | _, plus s => s.operands
  | _, minus s => s.operands
  | _, single s => s.operands
  | _, product _ _ l r => l.operands ++ r.operands
  | _, alone s => s.operands
  | _, sum _ _ l r => l.operands ++ r.operands
  | _, spaced _ s _ => s.operands

/-- The phrase with its operands replaced, from left to right. -/
def mapM {m : Type → Type} [Monad m] (f : α → m β) : {c : Category} → Phrase α c → m (Phrase β c)
  | _, operand a => do return operand (← f a)
  | _, group s => do return group (← s.mapM f)
  | _, plus s => do return plus (← s.mapM f)
  | _, minus s => do return minus (← s.mapM f)
  | _, single s => do return single (← s.mapM f)
  | _, product op h l r => do
    let l ← l.mapM f
    let r ← r.mapM f
    return product op h l r
  | _, alone s => do return alone (← s.mapM f)
  | _, sum op h l r => do
    let l ← l.mapM f
    let r ← r.mapM f
    return sum op h l r
  | _, spaced before s after => do return spaced before (← s.mapM f) after

/-- The syntax tree that a phrase denotes.  A plus sign leaves no trace. -/
def expr (leaf : α → Expr) : {c : Category} → Phrase α c → Expr
  | _, operand a => leaf a
  | _, group s => s.expr leaf
  | _, plus s => s.expr leaf
  | _, minus s => .neg (s.expr leaf)
  | _, single s => s.expr leaf
  | _, product op _ l r => .binary op (l.expr leaf) (r.expr leaf)
  | _, alone s => s.expr leaf
  | _, sum op _ l r => .binary op (l.expr leaf) (r.expr leaf)
  | _, spaced _ s _ => s.expr leaf

section Text

variable (spell : α → List Char)

theorem text_group (s : Phrase α .expression) :
    (group s).text spell = '(' :: (s.text spell ++ [')']) := rfl

theorem text_plus (s : Phrase α .factor) : (plus s).text spell = '+' :: s.text spell := rfl

theorem text_minus (s : Phrase α .factor) : (minus s).text spell = '-' :: s.text spell := rfl

theorem text_single (s : Phrase α .factor) : (single s).text spell = s.text spell := rfl

theorem text_product (op : Operation) (h : op.isAdditive = false) (l : Phrase α .term)
    (r : Phrase α .factor) :
    (product op h l r).text spell = l.text spell ++ op.symbol :: r.text spell :=
  List.append_assoc ..

theorem text_alone (s : Phrase α .term) : (alone s).text spell = s.text spell := rfl

theorem text_sum (op : Operation) (h : op.isAdditive = true) (l : Phrase α .expression)
    (r : Phrase α .term) :
    (sum op h l r).text spell = l.text spell ++ op.symbol :: r.text spell :=
  List.append_assoc ..

theorem text_spaced {c : Category} (before : Blanks) (s : Phrase α c) (after : Blanks) :
    (spaced before s after).text spell = before.1 ++ (s.text spell ++ after.1) := by
  have h : ∀ cs : List Char, cs.flatMap (fun c => [c]) = cs := fun cs => by
    rw [List.flatMap_singleton']
  rw [text, render, h, h, List.append_assoc]
  rfl

end Text

/-- The phrase with its operands replaced. -/
def map (f : α → β) : {c : Category} → Phrase α c → Phrase β c
  | _, operand a => operand (f a)
  | _, group s => group (s.map f)
  | _, plus s => plus (s.map f)
  | _, minus s => minus (s.map f)
  | _, single s => single (s.map f)
  | _, product op h l r => product op h (l.map f) (r.map f)
  | _, alone s => alone (s.map f)
  | _, sum op h l r => sum op h (l.map f) (r.map f)
  | _, spaced before s after => spaced before (s.map f) after

theorem expr_map (leaf : β → Expr) (f : α → β) {c : Category} (s : Phrase α c) :
    (s.map f).expr leaf = s.expr fun a => leaf (f a) := by
  induction s with
  | operand a => rfl
  | group s ih => exact ih
  | plus s ih => exact ih
  | minus s ih => rw [map, expr, expr, ih]
  | single s ih => exact ih
  | product op h l r ihl ihr => rw [map, expr, expr, ihl, ihr]
  | alone s ih => exact ih
  | sum op h l r ihl ihr => rw [map, expr, expr, ihl, ihr]
  | spaced before s after ih => exact ih

theorem render_map (mark : Char → List ω) (spell : β → List ω) (f : α → β) {c : Category}
    (s : Phrase α c) : (s.map f).render mark spell = s.render mark fun a => spell (f a) := by
  induction s with
  | operand a => rfl
  | group s ih => rw [map, render, render, ih]
  | plus s ih => rw [map, render, render, ih]
  | minus s ih => rw [map, render, render, ih]
  | single s ih => exact ih
  | product op h l r ihl ihr => rw [map, render, render, ihl, ihr]
  | alone s ih => exact ih
  | sum op h l r ihl ihr => rw [map, render, render, ihl, ihr]
  | spaced before s after ih => rw [map, render, render, ih]

theorem operands_map (f : α → β) {c : Category} (s : Phrase α c) :
    (s.map f).operands = s.operands.map f := by
  induction s with
  | operand a => rfl
  | group s ih => exact ih
  | plus s ih => exact ih
  | minus s ih => exact ih
  | single s ih => exact ih
  | product op h l r ihl ihr => rw [map, operands, operands, ihl, ihr, List.map_append]
  | alone s ih => exact ih
  | sum op h l r ihl ihr => rw [map, operands, operands, ihl, ihr, List.map_append]
  | spaced before s after ih => exact ih

/-- Trees with the same leaves are equal. -/
theorem expr_congr {leaf leaf' : α → Expr} {c : Category} (s : Phrase α c)
    (h : ∀ a ∈ s.operands, leaf a = leaf' a) : s.expr leaf = s.expr leaf' := by
  induction s with
  | operand a => exact h a List.mem_cons_self
  | group s ih => exact ih h
  | plus s ih => exact ih h
  | minus s ih => rw [expr, expr, ih h]
  | single s ih => exact ih h
  | product op hop l r ihl ihr =>
    have h' := List.forall_mem_append.1 h
    rw [expr, expr, ihl h'.1, ihr h'.2]
  | alone s ih => exact ih h
  | sum op hop l r ihl ihr =>
    have h' := List.forall_mem_append.1 h
    rw [expr, expr, ihl h'.1, ihr h'.2]
  | spaced before s after ih => exact ih h

theorem mem_render {mark : Char → List ω} {spell : α → List ω} {c : Category} {s : Phrase α c} {a : α}
    (ha : a ∈ s.operands) {w : ω} (hw : w ∈ spell a) : w ∈ s.render mark spell := by
  induction s with
  | operand b => exact List.mem_singleton.1 ha ▸ hw
  | group s ih => exact List.mem_append_left _ (List.mem_append_right _ (ih ha))
  | plus s ih => exact List.mem_append_right _ (ih ha)
  | minus s ih => exact List.mem_append_right _ (ih ha)
  | single s ih => exact ih ha
  | product op h l r ihl ihr =>
    rcases List.mem_append.1 ha with ha | ha
    · exact List.mem_append_left _ (List.mem_append_left _ (ihl ha))
    · exact List.mem_append_right _ (ihr ha)
  | alone s ih => exact ih ha
  | sum op h l r ihl ihr =>
    rcases List.mem_append.1 ha with ha | ha
    · exact List.mem_append_left _ (List.mem_append_left _ (ihl ha))
    · exact List.mem_append_right _ (ihr ha)
  | spaced before s after ih => exact List.mem_append_left _ (List.mem_append_right _ (ih ha))

/-- Replacements that all succeed. -/
theorem mapM_eq_map {m : Type → Type} [Monad m] [LawfulMonad m] {f : α → m β} {g : α → β}
    {c : Category} (s : Phrase α c) (h : ∀ a ∈ s.operands, f a = pure (g a)) :
    s.mapM f = pure (s.map g) := by
  induction s with
  | operand a => simp [mapM, map, h a List.mem_cons_self]
  | group s ih => simp [mapM, map, ih h]
  | plus s ih => simp [mapM, map, ih h]
  | minus s ih => simp [mapM, map, ih h]
  | single s ih => simp [mapM, map, ih h]
  | product op hop l r ihl ihr =>
    have h' := List.forall_mem_append.1 h
    simp [mapM, map, ihl h'.1, ihr h'.2]
  | alone s ih => simp [mapM, map, ih h]
  | sum op hop l r ihl ihr =>
    have h' := List.forall_mem_append.1 h
    simp [mapM, map, ihl h'.1, ihr h'.2]
  | spaced before s after ih => simp [mapM, map, ih h]

/-- The operands of a phrase whose operands have been replaced. -/
theorem operands_mapM {m : Type → Type} [Monad m] [LawfulMonad m] (f : α → m β) {c : Category}
    (s : Phrase α c) : operands <$> s.mapM f = s.operands.mapM f := by
  induction s with
  | operand a => simp [mapM, operands]
  | group s ih => simp [mapM, operands, ← ih]
  | plus s ih => simp [mapM, operands, ← ih]
  | minus s ih => simp [mapM, operands, ← ih]
  | single s ih => simp [mapM, operands, ← ih]
  | product op h l r ihl ihr => simp [mapM, operands, ← ihl, ← ihr]
  | alone s ih => simp [mapM, operands, ← ih]
  | sum op h l r ihl ihr => simp [mapM, operands, ← ihl, ← ihr]
  | spaced before s after ih => simp [mapM, operands, ← ih]

/-- Two replacements, one after the other, that succeed for every operand. -/
theorem exists_mapM_mapM {ε γ : Type} {f : α → Except ε β} {g : β → Except ε γ} {k : α → γ}
    {c : Category} (s : Phrase α c) (h : ∀ a ∈ s.operands, f a >>= g = .ok (k a)) :
    ∃ t, s.mapM f = .ok t ∧ t.mapM g = .ok (s.map k) := by
  induction s with
  | operand a =>
    obtain ⟨b, hb, hg⟩ := exists_ok_of_bind_ok (h a List.mem_cons_self)
    exact ⟨operand b, by rw [mapM, hb]; rfl, by rw [mapM, hg]; rfl⟩
  | group s ih =>
    obtain ⟨t, ht, hg⟩ := ih h
    exact ⟨group t, by rw [mapM, ht]; rfl, by rw [mapM, hg]; rfl⟩
  | plus s ih =>
    obtain ⟨t, ht, hg⟩ := ih h
    exact ⟨plus t, by rw [mapM, ht]; rfl, by rw [mapM, hg]; rfl⟩
  | minus s ih =>
    obtain ⟨t, ht, hg⟩ := ih h
    exact ⟨minus t, by rw [mapM, ht]; rfl, by rw [mapM, hg]; rfl⟩
  | single s ih =>
    obtain ⟨t, ht, hg⟩ := ih h
    exact ⟨single t, by rw [mapM, ht]; rfl, by rw [mapM, hg]; rfl⟩
  | product op hop l r ihl ihr =>
    have h' := List.forall_mem_append.1 h
    obtain ⟨t, ht, hg⟩ := ihl h'.1
    obtain ⟨u, hu, hg'⟩ := ihr h'.2
    exact ⟨product op hop t u, by rw [mapM, ht, hu]; rfl, by rw [mapM, hg, hg']; rfl⟩
  | alone s ih =>
    obtain ⟨t, ht, hg⟩ := ih h
    exact ⟨alone t, by rw [mapM, ht]; rfl, by rw [mapM, hg]; rfl⟩
  | sum op hop l r ihl ihr =>
    have h' := List.forall_mem_append.1 h
    obtain ⟨t, ht, hg⟩ := ihl h'.1
    obtain ⟨u, hu, hg'⟩ := ihr h'.2
    exact ⟨sum op hop t u, by rw [mapM, ht, hu]; rfl, by rw [mapM, hg, hg']; rfl⟩
  | spaced before s after ih =>
    obtain ⟨t, ht, hg⟩ := ih h
    exact ⟨spaced before t after, by rw [mapM, ht]; rfl, by rw [mapM, hg]; rfl⟩

/-- Trees whose leaves have the same values have the same value. -/
theorem evaluate_expr_congr {leaf leaf' : α → Expr} {c : Category} (s : Phrase α c)
    (h : ∀ a ∈ s.operands, (leaf a).evaluate = (leaf' a).evaluate) :
    (s.expr leaf).evaluate = (s.expr leaf').evaluate := by
  induction s with
  | operand a => exact h a List.mem_cons_self
  | group s ih => exact ih h
  | plus s ih => exact ih h
  | minus s ih =>
    rw [expr, expr, Expr.evaluate, Expr.evaluate, ih h]
  | single s ih => exact ih h
  | product op hop l r ihl ihr =>
    have h' := List.forall_mem_append.1 h
    rw [expr, expr, Expr.evaluate, Expr.evaluate, ihl h'.1, ihr h'.2]
  | alone s ih => exact ih h
  | sum op hop l r ihl ihr =>
    have h' := List.forall_mem_append.1 h
    rw [expr, expr, Expr.evaluate, Expr.evaluate, ihl h'.1, ihr h'.2]
  | spaced before s after ih => exact ih h

/-- A tree with a value has values at its leaves. -/
theorem evaluate_leaf {leaf : α → Expr} {c : Category} {s : Phrase α c} {x : Float}
    (h : (s.expr leaf).evaluate = .ok x) {a : α} (ha : a ∈ s.operands) :
    ∃ y, (leaf a).evaluate = .ok y := by
  induction s generalizing x with
  | operand b => exact List.mem_singleton.1 ha ▸ ⟨x, h⟩
  | group s ih => exact ih h ha
  | plus s ih => exact ih h ha
  | minus s ih =>
    obtain ⟨y, hy, -⟩ := exists_ok_of_bind_ok h
    exact ih hy ha
  | single s ih => exact ih h ha
  | product op hop l r ihl ihr =>
    obtain ⟨y, hy, h⟩ := exists_ok_of_bind_ok h
    obtain ⟨z, hz, -⟩ := exists_ok_of_bind_ok h
    rcases List.mem_append.1 ha with ha | ha
    · exact ihl hy ha
    · exact ihr hz ha
  | alone s ih => exact ih h ha
  | sum op hop l r ihl ihr =>
    obtain ⟨y, hy, h⟩ := exists_ok_of_bind_ok h
    obtain ⟨z, hz, -⟩ := exists_ok_of_bind_ok h
    rcases List.mem_append.1 ha with ha | ha
    · exact ihl hy ha
    · exact ihr hz ha
  | spaced before s after ih => exact ih h ha

theorem mem_of_mapM_list {ε : Type} {f : α → Except ε β} {as : List α} {bs : List β}
    (h : as.mapM f = .ok bs) {b : β} (hb : b ∈ bs) : ∃ a ∈ as, f a = .ok b := by
  induction as generalizing bs with
  | nil =>
    cases h
    cases hb
  | cons a as ih =>
    rw [List.mapM_cons] at h
    obtain ⟨first, hfirst, h⟩ := exists_ok_of_bind_ok h
    obtain ⟨rest, hrest, h⟩ := exists_ok_of_bind_ok h
    cases h
    rcases List.mem_cons.1 hb with rfl | hb
    · exact ⟨a, List.mem_cons_self, hfirst⟩
    · obtain ⟨a', ha', hf⟩ := ih hrest hb
      exact ⟨a', List.mem_cons_of_mem a ha', hf⟩

/-- The operands that have been put in place come from operands. -/
theorem mem_of_mapM {ε : Type} {f : α → Except ε β} {c : Category} {s : Phrase α c}
    {t : Phrase β c} (h : s.mapM f = .ok t) {b : β} (hb : b ∈ t.operands) :
    ∃ a ∈ s.operands, f a = .ok b := by
  have hops := operands_mapM f s
  rw [h] at hops
  exact mem_of_mapM_list hops.symm hb

theorem mapM_list_cases {ε : Type} (f : α → Except ε β) (as : List α) :
    (∃ bs, as.mapM f = .ok bs ∧ ∀ a ∈ as, ∃ b, f a = .ok b) ∨
      ∃ e, as.mapM f = .error e ∧ ∃ a ∈ as, f a = .error e := by
  induction as with
  | nil => exact .inl ⟨[], rfl, fun a ha => absurd ha List.not_mem_nil⟩
  | cons a as ih =>
    rw [List.mapM_cons]
    cases ha : f a with
    | error e => exact .inr ⟨e, rfl, a, List.mem_cons_self, ha⟩
    | ok b =>
      rcases ih with ⟨bs, hbs, hok⟩ | ⟨e, he, a', ha', hfail⟩
      · rw [hbs]
        exact .inl ⟨b :: bs, rfl, List.forall_mem_cons.2 ⟨⟨b, ha⟩, hok⟩⟩
      · rw [he]
        exact .inr ⟨e, rfl, a', List.mem_cons_of_mem a ha', hfail⟩

/-- Either all operands can be replaced, or one of them has the error of the whole. -/
theorem mapM_cases {ε : Type} (f : α → Except ε β) {c : Category} (s : Phrase α c) :
    (∃ s', s.mapM f = .ok s' ∧ ∀ a ∈ s.operands, ∃ b, f a = .ok b) ∨
      ∃ e, s.mapM f = .error e ∧ ∃ a ∈ s.operands, f a = .error e := by
  have hops := operands_mapM f s
  rcases mapM_list_cases f s.operands with ⟨bs, hbs, hok⟩ | ⟨e, he, hfail⟩
  · cases hs : s.mapM f with
    | ok s' => exact .inl ⟨s', rfl, hok⟩
    | error e =>
      rw [hs, hbs] at hops
      cases hops
  · cases hs : s.mapM f with
    | ok s' =>
      rw [hs, he] at hops
      cases hops
    | error e' =>
      rw [hs, he] at hops
      cases hops
      exact .inr ⟨e, rfl, hfail⟩

theorem all_text {p : Char → Bool} (hp : ∀ c, isMark c = true → p c = true)
    (spell : α → List Char) {c : Category} (s : Phrase α c) :
    (s.text spell).all p = s.operands.all fun a => (spell a).all p := by
  have hsymbol : ∀ op : Operation, p op.symbol = true := fun op => hp _ (by cases op <;> rfl)
  have hblanks : ∀ b : Blanks, b.1.all p = true := fun b =>
    List.all_eq_true.2 fun c hc => hp c (by rw [isMark, b.2 c hc, Bool.true_or])
  induction s with
  | operand a => simp [text, render, operands]
  | group s ih => rw [text_group]; simp [ih, operands, hp '(' rfl, hp ')' rfl]
  | plus s ih => rw [text_plus]; simp [ih, operands, hp '+' rfl]
  | minus s ih => rw [text_minus]; simp [ih, operands, hp '-' rfl]
  | single s ih => exact ih
  | product op h l r ihl ihr => rw [text_product]; simp [ihl, ihr, operands, hsymbol]
  | alone s ih => exact ih
  | sum op h l r ihl ihr => rw [text_sum]; simp [ihl, ihr, operands, hsymbol]
  | spaced before s after ih =>
    rw [text_spaced, List.all_append, List.all_append, hblanks, hblanks, ih, operands,
      Bool.true_and, Bool.and_true]

end Phrase

/-! ### Marks -/

theorem isMark_of_isBlank {c : Char} (h : Text.isBlank c = true) : isMark c = true := by
  rw [isMark, h, Bool.true_or]

theorem isMark_cases {c : Char} (h : isMark c = true) :
    Text.isBlank c = true ∨ c = '+' ∨ c = '-' ∨ c = '*' ∨ c = '/' ∨ c = '(' ∨ c = ')' := by
  rw [isMark, Bool.or_eq_true] at h
  refine h.imp_right fun h => ?_
  unfold Token.symbol? at h
  split at h <;> simp at h ⊢

theorem isMark_symbol (op : Operation) : isMark op.symbol = true := by
  cases op <;> rfl

theorem closed_nil : Closed [] := fun _ h => by cases h

theorem closed_cons {c : Char} (h : isMark c = true) (cs : List Char) : Closed (c :: cs) := by
  rintro d ⟨⟩
  exact h

theorem closed_append {before cs : List Char} (h : ∀ c ∈ before, isMark c = true) (hcs : Closed cs) :
    Closed (before ++ cs) := by
  cases before with
  | nil => exact hcs
  | cons c before => exact closed_cons (h c List.mem_cons_self) _

/-! ### Passes -/

section Pass

variable {α β ω : Type} {m : Type → Type} [Monad m]

/-- A pass over a text that treats every mark by itself. -/
structure Pass (mark : Char → List ω) (pass : List Char → m (List ω)) : Prop where
  nil : pass [] = pure []
  cons : ∀ (c : Char) (cs : List Char), isMark c = true → pass (c :: cs) = (mark c ++ ·) <$> pass cs

variable [LawfulMonad m] {mark : Char → List ω} {pass : List Char → m (List ω)}

theorem Pass.marks (hp : Pass mark pass) {before : List Char} (h : ∀ c ∈ before, isMark c = true)
    (cs : List Char) : pass (before ++ cs) = (before.flatMap mark ++ ·) <$> pass cs := by
  induction before with
  | nil => simp
  | cons c before ih =>
    rw [List.cons_append, hp.cons c _ (h c List.mem_cons_self),
      ih fun d hd => h d (List.mem_cons_of_mem c hd)]
    simp [Functor.map_map]

theorem Pass.blanks (hp : Pass mark pass) (before : Blanks) (cs : List Char) :
    pass (before.1 ++ cs) = (before.1.flatMap mark ++ ·) <$> pass cs :=
  hp.marks (fun c hc => isMark_of_isBlank (before.2 c hc)) cs

/-- A pass that replaces every operand replaces the operands of a phrase. -/
theorem Pass.phrase (hp : Pass mark pass) (f : α → m β) (spell : α → List Char)
    (spell' : β → List ω) {c : Category} (s : Phrase α c)
    (hop : ∀ a ∈ s.operands, ∀ cs, Closed cs →
      pass (spell a ++ cs) = f a >>= fun b => (spell' b ++ ·) <$> pass cs)
    {cs : List Char} (hcs : Closed cs) :
    pass (s.text spell ++ cs) =
      s.mapM f >>= fun s' => (s'.render mark spell' ++ ·) <$> pass cs := by
  -- induction on the phrase: marks are passed on, and what follows an operand closes it
  induction s generalizing cs with
  | operand a =>
    simpa [Phrase.text, Phrase.render, Phrase.mapM] using hop a (by simp [Phrase.operands]) cs hcs
  | group s ih =>
    rw [Phrase.text_group, List.cons_append, List.append_assoc, List.singleton_append,
      hp.cons _ _ rfl, ih hop (closed_cons rfl cs), hp.cons _ _ rfl]
    simp [Phrase.render, Phrase.mapM, Functor.map_map]
  | plus s ih =>
    rw [Phrase.text_plus, List.cons_append, hp.cons _ _ rfl, ih hop hcs]
    simp [Phrase.render, Phrase.mapM, Functor.map_map]
  | minus s ih =>
    rw [Phrase.text_minus, List.cons_append, hp.cons _ _ rfl, ih hop hcs]
    simp [Phrase.render, Phrase.mapM, Functor.map_map]
  | single s ih =>
    rw [Phrase.text_single, ih hop hcs]
    simp [Phrase.render, Phrase.mapM]
  | product op h l r ihl ihr =>
    have hop' := List.forall_mem_append.1 hop
    rw [Phrase.text_product, List.append_assoc, List.cons_append,
      ihl hop'.1 (closed_cons (isMark_symbol op) _), hp.cons _ _ (isMark_symbol op),
      ihr hop'.2 hcs]
    simp [Phrase.render, Phrase.mapM, Functor.map_map]
  | alone s ih =>
    rw [Phrase.text_alone, ih hop hcs]
    simp [Phrase.render, Phrase.mapM]
  | sum op h l r ihl ihr =>
    have hop' := List.forall_mem_append.1 hop
    rw [Phrase.text_sum, List.append_assoc, List.cons_append,
      ihl hop'.1 (closed_cons (isMark_symbol op) _), hp.cons _ _ (isMark_symbol op),
      ihr hop'.2 hcs]
    simp [Phrase.render, Phrase.mapM, Functor.map_map]
  | spaced before s after ih =>
    have hafter := closed_append (fun c hc => isMark_of_isBlank (after.2 c hc)) hcs
    rw [Phrase.text_spaced, List.append_assoc, List.append_assoc, hp.blanks, ih hop hafter,
      hp.blanks]
    simp [Phrase.render, Phrase.mapM, Functor.map_map]

/-- A pass that rewrites every operand by itself. -/
theorem Pass.rewrites (hp : Pass mark pass) (spell : α → List Char) (spell' : α → List ω)
    {c : Category} (s : Phrase α c)
    (hop : ∀ a ∈ s.operands, ∀ cs, Closed cs →
      pass (spell a ++ cs) = (spell' a ++ ·) <$> pass cs)
    {cs : List Char} (hcs : Closed cs) :
    pass (s.text spell ++ cs) = (s.render mark spell' ++ ·) <$> pass cs := by
  have h := hp.phrase (fun a => pure (spell' a)) spell id s
    (fun a ha cs hcs => by rw [hop a ha cs hcs, pure_bind, id]) hcs
  rw [h, Phrase.mapM_eq_map s fun a _ => rfl, pure_bind, Phrase.render_map]
  rfl

end Pass

end Arithmetic
end Spreadsheet
