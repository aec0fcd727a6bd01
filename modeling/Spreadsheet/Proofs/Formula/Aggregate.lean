import Spreadsheet.Formula.Aggregate
import Spreadsheet.Proofs.Number.Nearest

/-!
# Spreadsheet.Proofs.Formula.Aggregate — aggregates of finite numbers are numbers

Adding a finite double to a number gives a number, be it infinite, and so does dividing one by a
finite double other than zero.  Hence the range functions, applied to finite doubles, never give what
is no number, as long as these can be counted in doubles.
-/

namespace Spreadsheet

namespace Binary64

open Float.Model Float.Model.UnpackedFloat

/-! ### Unpacked doubles -/

theorem isNaN_dite {p : Prop} [Decidable p] {f : p → UnpackedFloat} {g : ¬ p → UnpackedFloat}
    (hf : ∀ h, (f h).isNaN = false) (hg : ∀ h, (g h).isNaN = false) :
    (dite p f g).isNaN = false := by
  by_cases h : p
  · rw [dif_pos h]
    exact hf h
  · rw [dif_neg h]
    exact hg h

theorem isNaN_roundWithAccuracy (s : Sign) (m : Nat) (e : Int) (a : Accuracy) :
    (UnpackedFloat.roundWithAccuracy Format.binary64 s m e a).isNaN = false := by
  unfold UnpackedFloat.roundWithAccuracy
  exact isNaN_dite (fun _ => rfl) fun _ => rfl

theorem isNaN_normalize (m e : Int) (s : Sign) :
    (UnpackedFloat.normalize Format.binary64 m e s).isNaN = false := by
  unfold UnpackedFloat.normalize
  split
  · exact isNaN_roundWithAccuracy ..
  · rfl
  · exact isNaN_roundWithAccuracy ..

theorem isNaN_add_unpacked {f g : UnpackedFloat} (hf : f.isNaN = false) (hg : g.isFinite = true) :
    (UnpackedFloat.add Format.binary64 f g).isNaN = false := by
  cases g with
  | notANumber => cases hg
  | infinity => cases hg
  | zero =>
    cases f with
    | notANumber => cases hf
    | infinity => rfl
    | zero => exact isNaN_dite (fun _ => rfl) fun _ => rfl
    | finite => rfl
  | finite =>
    cases f with
    | notANumber => cases hf
    | infinity => rfl
    | zero => rfl
    | finite => exact isNaN_normalize ..

theorem isNaN_div_unpacked {f : UnpackedFloat} (hf : f.isNaN = false) (s : Sign) (m : Nat) (e : Int)
    (hm : 0 < m) : (UnpackedFloat.div Format.binary64 f (.finite s m e hm)).isNaN = false := by
  cases f with
  | notANumber => cases hf
  | infinity => rfl
  | zero => rfl
  | finite => exact isNaN_roundWithAccuracy ..

theorem isNaN_unpack_packComponents {s : Sign} {e : BitVec 11} {m : BitVec 52}
    (h : e ≠ -1#11 ∨ m = 0#52) :
    (UnpackedFloat.unpack Format.binary64 (packComponents Format.binary64 s e m)).isNaN = false := by
  dsimp only [UnpackedFloat.unpack]
  refine isNaN_dite (fun he => ?_) fun _ => isNaN_dite ?_ fun _ => rfl
  · rw [unpackExponent_packComponents] at he
    rw [unpackMantissa_packComponents, if_pos (h.resolve_left fun hne => hne he)]
    rfl
  · exact fun _ => isNaN_dite (fun _ => rfl) fun _ => rfl

/-- A number that is packed stays a number, even where it is too large for a double. -/
theorem isNaN_pack {f : UnpackedFloat} (h : f.isNaN = false) :
    (UnpackedFloat.unpack Format.binary64 (UnpackedFloat.pack Format.binary64 f)).isNaN = false := by
  cases f with
  | notANumber => cases h
  | infinity => exact isNaN_unpack_packComponents (.inr rfl)
  | zero => exact isNaN_unpack_packComponents (.inr rfl)
  | finite s m e hm =>
    unfold UnpackedFloat.pack
    dsimp only
    split
    · exact isNaN_unpack_packComponents (.inr rfl)
    · rename_i hexp
      split
      · refine isNaN_unpack_packComponents (.inl fun hones => hexp ?_)
        have hnat := congrArg BitVec.toNat hones
        rw [BitVec.toNat_ofNat, show (-1#11).toNat = 2 ^ 11 - 1 from rfl] at hnat
        show 2 ^ 11 ≤ _
        omega
      · exact isNaN_unpack_packComponents (.inl (by decide))

/-! ### Doubles -/

theorem isNaN_eq (x : Float) : x.isNaN = x.toModel.unpack.isNaN := rfl

theorem isNaN_iff (x : Float) : x.isNaN = true ↔ infinity < magnitude x := by
  rw [isNaN_eq, unpack_toModel]
  obtain ⟨h, hview⟩ | ⟨h, hview⟩ | ⟨h, hview⟩ | ⟨h, hview⟩ :=
    view_cases (isNegative x) (magnitude x)
  · rw [hview]
    exact iff_of_false Bool.false_ne_true (by omega)
  · rw [hview]
    exact iff_of_false Bool.false_ne_true (by omega)
  · rw [hview]
    exact iff_of_false Bool.false_ne_true (by omega)
  · rw [hview]
    exact iff_of_true rfl h

theorem isNaN_of_isFinite {x : Float} (h : x.isFinite = true) : x.isNaN = false := by
  rw [isFinite_iff] at h
  rw [← Bool.not_eq_true, isNaN_iff]
  omega

section Operations

variable {x y : Float}

theorem isNaN_add (hx : x.isNaN = false) (hy : y.isFinite = true) : (x + y).isNaN = false :=
  isNaN_pack (isNaN_add_unpacked hx hy)

theorem isNaN_div (hx : x.isNaN = false) (hy : y.isFinite = true) (h0 : 0 < magnitude y) :
    (x / y).isNaN = false := by
  have hview : y.toModel.unpack = .finite (signOf (isNegative y)) (significand (magnitude y))
      (exponent (magnitude y)) (significand_pos h0) := by
    rw [unpack_toModel, view, dif_pos ⟨h0, (isFinite_iff y).1 hy⟩]
  refine isNaN_pack ?_
  rw [hview]
  exact isNaN_div_unpacked hx ..

end Operations

/-! ### Natural numbers -/

theorem roundHalfEven_le (num den : Nat) : roundHalfEven num den ≤ num / den + 1 := by
  simp only [roundHalfEven]
  split <;> omega

/-- Natural numbers far below the largest double are finite, and only zero is zero. -/
theorem nearest_natural {n : Nat} (h0 : 0 < n) (h : n < 2 ^ 200) :
    0 < nearest n 1 ∧ nearest n 1 < infinity := by
  have hfits := fitsUnit_unit h0 Nat.one_pos
  rw [nearest_eq h0 Nat.one_pos hfits]
  obtain ⟨hleast, hbelow, hfull⟩ := hfits
  set e := unit n 1
  have hden : 0 < (scaled n 1 e).2 := scaled_snd_pos Nat.one_pos e
  have hquotient : (scaled n 1 e).1 / (scaled n 1 e).2 < 2 * exponentWeight :=
    (Nat.div_lt_iff_lt_mul hden).2 hbelow
  have hround := roundHalfEven_le (scaled n 1 e).1 (scaled n 1 e).2
  -- the quotient is full unless the unit is the least one, so the unit is no larger than the number
  have hexp : e < 200 := by
    by_contra hge
    have hsmall : (-e).toNat = 0 := by omega
    have hn : exponentWeight * 2 ^ e.toNat ≤ n := by
      have hfull := hfull.resolve_left (by omega)
      rwa [scaled_fst, scaled_snd, hsmall, Nat.one_mul, Nat.pow_zero, Nat.mul_one] at hfull
    have hpow : 2 ^ 200 ≤ exponentWeight * 2 ^ e.toNat := by
      calc 2 ^ 200
        _ ≤ 2 ^ e.toNat := Nat.pow_le_pow_right (by decide) (by omega)
        _ ≤ exponentWeight * 2 ^ e.toNat := Nat.le_mul_of_pos_left _ (by decide)
    omega
  have hpos : 0 < (e + 1074).toNat * exponentWeight
      + roundHalfEven (scaled n 1 e).1 (scaled n 1 e).2 := by
    rcases Nat.eq_zero_or_pos (e + 1074).toNat with hzero | hone
    · -- the least unit divides every natural number
      have hle : (scaled n 1 e).2 ≤ (scaled n 1 e).1 := by
        rw [scaled_fst, scaled_snd, show e.toNat = 0 by omega, Nat.pow_zero, Nat.mul_one]
        exact Nat.mul_pos h0 (Nat.two_pow_pos _)
      have := Nat.div_pos hle hden
      have := le_roundHalfEven (scaled n 1 e).1 (scaled n 1 e).2
      omega
    · simp only [exponentWeight]
      omega
  simp only [exponentWeight, infinity] at *
  omega

theorem ofNat_spec {n : Nat} (h0 : 0 < n) (h : n < 2 ^ 200) :
    (ofNat n).isFinite = true ∧ 0 < magnitude (ofNat n) := by
  obtain ⟨hpos, hfinite⟩ := nearest_natural h0 h
  rw [isFinite_iff, ofNat, magnitude_ofMagnitude (Nat.le_of_lt hfinite)]
  exact ⟨hfinite, hpos⟩

end Binary64

namespace Aggregate

open Binary64

/-! ### Aggregates -/

/-- Steps that keep numbers numbers make a number. -/
theorem isNaN_foldl {step : Float → Float → Float} {xs : List Float} (h : ∀ x ∈ xs, x.isFinite = true)
    (hstep : ∀ a x, a.isNaN = false → x.isFinite = true → (step a x).isNaN = false) {a : Float}
    (ha : a.isNaN = false) : (xs.foldl step a).isNaN = false := by
  induction xs generalizing a with
  | nil => exact ha
  | cons x xs ih =>
    obtain ⟨hx, hxs⟩ := List.forall_mem_cons.1 h
    exact ih hxs (hstep a x ha hx)

theorem isNaN_ofMagnitude {negative : Bool} {mag : Nat} (h : mag ≤ infinity) :
    (ofMagnitude negative mag).isNaN = false := by
  rw [← Bool.not_eq_true, isNaN_iff, magnitude_ofMagnitude h]
  omega

theorem isNaN_total {xs : List Float} (h : ∀ x ∈ xs, x.isFinite = true) :
    (total xs).isNaN = false := by
  have hzero : (-0.0 : Float).isNaN = false := by decide +kernel
  exact isNaN_foldl h (fun _ _ => isNaN_add) hzero

theorem isNaN_greater {a x : Float} (ha : a.isNaN = false) (hx : x.isFinite = true) :
    (greater a x).isNaN = false := by
  rw [greater]
  split
  · exact ha
  · exact isNaN_of_isFinite hx

theorem isNaN_smaller {a x : Float} (ha : a.isNaN = false) (hx : x.isFinite = true) :
    (smaller a x).isNaN = false := by
  rw [smaller]
  split
  · exact ha
  · exact isNaN_of_isFinite hx

/-- An aggregate of finite numbers is a number. -/
theorem isNaN_apply (f : Aggregate) {xs : List Float} (h : ∀ x ∈ xs, x.isFinite = true)
    (hlength : xs.length < 2 ^ 200) : (f.apply xs).isNaN = false := by
  unfold apply
  split
  · decide +kernel
  · rename_i hne
    have hpos : 0 < xs.length := List.length_pos_iff.2 fun h0 => hne (List.isEmpty_iff.2 h0)
    obtain ⟨hfinite, hmag⟩ := ofNat_spec hpos hlength
    cases f with
    | sum => exact isNaN_total h
    | average => exact isNaN_div (isNaN_total h) hfinite hmag
    | count => exact isNaN_of_isFinite hfinite
    | max => exact isNaN_foldl h (fun _ _ => isNaN_greater) (isNaN_ofMagnitude (Nat.le_refl _))
    | min => exact isNaN_foldl h (fun _ _ => isNaN_smaller) (isNaN_ofMagnitude (Nat.le_refl _))

end Aggregate

end Spreadsheet
