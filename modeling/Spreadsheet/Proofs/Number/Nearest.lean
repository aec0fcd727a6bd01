import Mathlib.Tactic.Ring
import Spreadsheet.Proofs.Number.Double

/-!
# Spreadsheet.Proofs.Number.Nearest — rounding depends on the quotient alone

`nearest num den` is computed from the binary digits of numerator and denominator.  The power of two
it settles on is the only one that `FitsUnit`, which speaks of the quotient alone; so equal quotients
have the same nearest double, a double is its own nearest, and what lies beyond the doubles rounds to
infinity or to zero.
-/

namespace Spreadsheet.Binary64

/-! ### Quotients in units of a power of two -/

theorem scaled_fst (num den : Nat) (e : Int) : (scaled num den e).1 = num * 2 ^ (-e).toNat :=
  Nat.shiftLeft_eq ..

theorem scaled_snd (num den : Nat) (e : Int) : (scaled num den e).2 = den * 2 ^ e.toNat :=
  Nat.shiftLeft_eq ..

theorem scaled_snd_pos {num den : Nat} (h : 0 < den) (e : Int) : 0 < (scaled num den e).2 := by
  rw [scaled_snd]
  exact Nat.mul_pos h (Nat.two_pow_pos _)

theorem scaled_mul_right (num den k : Nat) (e : Int) :
    scaled (num * k) (den * k) e = ((scaled num den e).1 * k, (scaled num den e).2 * k) := by
  simp only [scaled, Nat.shiftLeft_eq, Prod.mk.injEq]
  constructor <;> ring

/-- A unit that is `2 ^ d` times as large makes the quotient `2 ^ d` times as small. -/
theorem scaled_add (num den : Nat) (e : Int) (d : Nat) :
    (scaled num den e).1 * (scaled num den (e + d)).2 =
      (scaled num den (e + d)).1 * (scaled num den e).2 * 2 ^ d := by
  have hexp : (-e).toNat + (e + d).toNat = (-(e + d)).toNat + e.toNat + d := by omega
  simp only [scaled_fst, scaled_snd]
  calc num * 2 ^ (-e).toNat * (den * 2 ^ (e + d).toNat)
    _ = num * den * 2 ^ ((-e).toNat + (e + d).toNat) := by ring
    _ = num * 2 ^ (-(e + d)).toNat * (den * 2 ^ e.toNat) * 2 ^ d := by rw [hexp]; ring

/-- In these units the quotient has at most 53 binary digits before the point, and no fewer unless
the unit is the least. -/
structure FitsUnit (num den : Nat) (e : Int) : Prop where
  least : -1074 ≤ e
  below : (scaled num den e).1 < 2 * exponentWeight * (scaled num den e).2
  full : e = -1074 ∨ exponentWeight * (scaled num den e).2 ≤ (scaled num den e).1

section Unit

variable {num den : Nat}

theorem FitsUnit.not_lt {e e' : Int} (hd : 0 < den) (h : FitsUnit num den e)
    (h' : FitsUnit num den e') : ¬ e < e' := by
  intro hlt
  obtain ⟨d, rfl⟩ : ∃ d : Nat, e' = e + (d + 1 : Nat) := ⟨(e' - e - 1).toNat, by omega⟩
  have hfull := h'.full.resolve_left (by have := h.least; omega)
  have hcross := scaled_add num den e (d + 1)
  set s := scaled num den e
  set s' := scaled num den (e + (d + 1 : Nat))
  have hs' : 0 < s'.2 := scaled_snd_pos hd _
  have hlt' : s.1 * s'.2 < s.1 * s'.2 := by
    calc s.1 * s'.2
      _ < 2 * exponentWeight * s.2 * s'.2 := Nat.mul_lt_mul_of_pos_right h.below hs'
      _ = exponentWeight * s'.2 * s.2 * 2 := by ring
      _ ≤ s'.1 * s.2 * 2 := Nat.mul_le_mul_right _ (Nat.mul_le_mul_right _ hfull)
      _ ≤ s'.1 * s.2 * 2 ^ (d + 1) :=
        Nat.mul_le_mul_left _ (Nat.le_self_pow (Nat.succ_ne_zero d) 2)
      _ = s.1 * s'.2 := hcross.symm
  exact Nat.lt_irrefl _ hlt'

theorem FitsUnit.unique {e e' : Int} (hd : 0 < den) (h : FitsUnit num den e)
    (h' : FitsUnit num den e') : e = e' := by
  have := h.not_lt hd h'
  have := h'.not_lt hd h
  omega

/-- The first guess of `unit` is at most one too small. -/
theorem fitsUnit_unit (hn : 0 < num) (hd : 0 < den) : FitsUnit num den (unit num den) := by
  have hn1 := Nat.log2_self_le (Nat.pos_iff_ne_zero.1 hn)
  have hn2 : num < 2 ^ (num.log2 + 1) := Nat.lt_log2_self
  have hd1 := Nat.log2_self_le (Nat.pos_iff_ne_zero.1 hd)
  have hd2 : den < 2 ^ (den.log2 + 1) := Nat.lt_log2_self
  rw [unit]
  set e := max ((num.log2 : Int) - den.log2 - 53) (-1074) with he
  have hlow : -1074 ≤ e := by omega
  simp only [Nat.div_lt_iff_lt_mul (scaled_snd_pos hd e)]
  -- the first guess fits, or its unit is one too small
  split
  · rename_i hbelow
    refine ⟨hlow, hbelow, or_iff_not_imp_left.2 fun hne => ?_⟩
    have hexp : 52 + (den.log2 + 1) + e.toNat ≤ num.log2 + (-e).toNat := by omega
    rw [scaled_fst, scaled_snd]
    calc exponentWeight * (den * 2 ^ e.toNat)
      _ ≤ 2 ^ 52 * (2 ^ (den.log2 + 1) * 2 ^ e.toNat) :=
        Nat.mul_le_mul_left _ (Nat.mul_le_mul_right _ (Nat.le_of_lt hd2))
      _ = 2 ^ (52 + (den.log2 + 1) + e.toNat) := by ring
      _ ≤ 2 ^ (num.log2 + (-e).toNat) := Nat.pow_le_pow_right (by decide) hexp
      _ = 2 ^ num.log2 * 2 ^ (-e).toNat := by ring
      _ ≤ num * 2 ^ (-e).toNat := Nat.mul_le_mul_right _ hn1
  · rename_i hbelow
    have hexp : num.log2 + 1 + (-(e + 1)).toNat ≤ 53 + den.log2 + (e + 1).toNat := by omega
    refine ⟨by omega, ?_, .inr ?_⟩
    · rw [scaled_fst, scaled_snd]
      calc num * 2 ^ (-(e + 1)).toNat
        _ < 2 ^ (num.log2 + 1) * 2 ^ (-(e + 1)).toNat :=
          Nat.mul_lt_mul_of_pos_right hn2 (Nat.two_pow_pos _)
        _ = 2 ^ (num.log2 + 1 + (-(e + 1)).toNat) := by ring
        _ ≤ 2 ^ (53 + den.log2 + (e + 1).toNat) := Nat.pow_le_pow_right (by decide) hexp
        _ = 2 * exponentWeight * (2 ^ den.log2 * 2 ^ (e + 1).toNat) := by
          rw [show 2 * exponentWeight = 2 ^ 53 from rfl]; ring
        _ ≤ 2 * exponentWeight * (den * 2 ^ (e + 1).toNat) :=
          Nat.mul_le_mul_left _ (Nat.mul_le_mul_right _ hd1)
    · -- the quotient had more than 53 digits, so one less leaves at least 53
      have hcross := scaled_add num den e 1
      have hpos : 0 < (scaled num den e).2 := scaled_snd_pos hd e
      refine Nat.le_of_mul_le_mul_right ?_ (Nat.mul_pos hpos (by decide : 0 < 2))
      calc exponentWeight * (scaled num den (e + 1)).2 * ((scaled num den e).2 * 2)
        _ = 2 * exponentWeight * (scaled num den e).2 * (scaled num den (e + 1)).2 := by ring
        _ ≤ (scaled num den e).1 * (scaled num den (e + 1)).2 :=
          Nat.mul_le_mul_right _ (Nat.le_of_not_lt hbelow)
        _ = (scaled num den (e + 1)).1 * ((scaled num den e).2 * 2) := by
          rw [show ((1 : Nat) : Int) = 1 from rfl] at hcross
          rw [hcross]
          ring

theorem unit_eq_of_fitsUnit {e : Int} (hn : 0 < num) (hd : 0 < den) (h : FitsUnit num den e) :
    unit num den = e :=
  (fitsUnit_unit hn hd).unique hd h

theorem FitsUnit.mul_right {e : Int} {k : Nat} (hk : 0 < k) (h : FitsUnit num den e) :
    FitsUnit (num * k) (den * k) e := by
  obtain ⟨least, below, full⟩ := h
  refine ⟨least, ?_, full.imp_right fun hfull => ?_⟩
  · rw [scaled_mul_right, ← Nat.mul_assoc]
    exact Nat.mul_lt_mul_of_pos_right below hk
  · rw [scaled_mul_right, ← Nat.mul_assoc]
    exact Nat.mul_le_mul_right k hfull

end Unit

/-! ### The nearest double of a quotient -/

theorem roundHalfEven_mul_right (num den : Nat) {k : Nat} (hk : 0 < k) :
    roundHalfEven (num * k) (den * k) = roundHalfEven num den := by
  have hlt : den * k < 2 * (num % den * k) ↔ den < 2 * (num % den) := by
    rw [← Nat.mul_assoc, Nat.mul_lt_mul_right hk]
  have heq : 2 * (num % den * k) = den * k ↔ 2 * (num % den) = den := by
    rw [← Nat.mul_assoc, Nat.mul_left_inj (Nat.pos_iff_ne_zero.1 hk)]
  simp only [roundHalfEven, Nat.mul_div_mul_right _ _ hk, Nat.mul_mod_mul_right, hlt, heq]

theorem nearest_mul_right {num den k : Nat} (hn : 0 < num) (hd : 0 < den) (hk : 0 < k) :
    nearest (num * k) (den * k) = nearest num den := by
  have hunit : unit (num * k) (den * k) = unit num den :=
    unit_eq_of_fitsUnit (Nat.mul_pos hn hk) (Nat.mul_pos hd hk)
      ((fitsUnit_unit hn hd).mul_right hk)
  rw [nearest, nearest, if_neg (Nat.pos_iff_ne_zero.1 (Nat.mul_pos hn hk)),
    if_neg (Nat.pos_iff_ne_zero.1 hn)]
  simp only [hunit, scaled_mul_right, roundHalfEven_mul_right _ _ hk]

/-- Equal quotients have the same nearest double. -/
theorem nearest_congr {num den num' den' : Nat} (hn : 0 < num) (hd : 0 < den) (hn' : 0 < num')
    (hd' : 0 < den') (h : num * den' = num' * den) : nearest num den = nearest num' den' := by
  rw [← nearest_mul_right hn hd hd', ← nearest_mul_right hn' hd' hd, h, Nat.mul_comm den den']

theorem roundHalfEven_mul_self (n : Nat) {k : Nat} (hk : 0 < k) : roundHalfEven (n * k) k = n := by
  have h : ¬ (k < 2 * 0 ∨ 2 * 0 = k ∧ n % 2 = 1) := by omega
  simp only [roundHalfEven, Nat.mul_div_cancel _ hk, Nat.mul_mod_left, if_neg h]

theorem le_roundHalfEven (num den : Nat) : num / den ≤ roundHalfEven num den := by
  simp only [roundHalfEven]
  split <;> omega

/-- A quotient whose fitting unit is known. -/
theorem nearest_eq {num den : Nat} {e : Int} (hn : 0 < num) (hd : 0 < den)
    (h : FitsUnit num den e) :
    nearest num den = min ((e + 1074).toNat * exponentWeight
      + roundHalfEven (scaled num den e).1 (scaled num den e).2) infinity := by
  rw [nearest, if_neg (Nat.pos_iff_ne_zero.1 hn), unit_eq_of_fitsUnit hn hd h]

theorem fitsUnit_fraction (mag : Nat) :
    FitsUnit (fraction mag).1 (fraction mag).2 (exponent mag) := by
  have hs : significand mag < 2 * exponentWeight := by
    rw [significand]
    simp only [exponentWeight]
    split <;> omega
  refine ⟨by rw [exponent]; omega, ?_, or_iff_not_imp_left.2 fun hne => ?_⟩
  · simp only [scaled_fst, scaled_snd, fraction, Nat.shiftLeft_eq, Nat.one_mul]
    calc significand mag * 2 ^ (exponent mag).toNat * 2 ^ (-exponent mag).toNat
      _ = significand mag * (2 ^ (-exponent mag).toNat * 2 ^ (exponent mag).toNat) := by ring
      _ < _ := Nat.mul_lt_mul_of_pos_right hs
        (Nat.mul_pos (Nat.two_pow_pos _) (Nat.two_pow_pos _))
  · -- above the least unit a significand has all its digits
    have hfull : exponentWeight ≤ significand mag := by
      rw [exponent] at hne
      rw [significand, if_neg]
      · exact Nat.le_add_right ..
      · intro hlt
        rw [Nat.div_eq_of_lt hlt] at hne
        exact hne rfl
    simp only [scaled_fst, scaled_snd, fraction, Nat.shiftLeft_eq, Nat.one_mul]
    calc exponentWeight * (2 ^ (-exponent mag).toNat * 2 ^ (exponent mag).toNat)
      _ ≤ significand mag * (2 ^ (-exponent mag).toNat * 2 ^ (exponent mag).toNat) :=
        Nat.mul_le_mul_right _ hfull
      _ = _ := by ring

/-- A finite double is the one nearest to itself. -/
theorem nearest_fraction {mag : Nat} (h0 : 0 < mag) (h : mag < infinity) :
    nearest (fraction mag).1 (fraction mag).2 = mag := by
  have hn : 0 < (fraction mag).1 := by
    rw [fraction, Nat.shiftLeft_eq]
    exact Nat.mul_pos (significand_pos h0) (Nat.two_pow_pos _)
  have hd : 0 < (fraction mag).2 := by
    rw [fraction, Nat.one_shiftLeft]
    exact Nat.two_pow_pos _
  have hround : roundHalfEven (scaled (fraction mag).1 (fraction mag).2 (exponent mag)).1
      (scaled (fraction mag).1 (fraction mag).2 (exponent mag)).2 = significand mag := by
    rw [scaled_fst, scaled_snd, fraction]
    simp only [Nat.shiftLeft_eq, Nat.one_mul, Nat.mul_assoc]
    rw [Nat.mul_comm (2 ^ (exponent mag).toNat)]
    exact roundHalfEven_mul_self _ (Nat.mul_pos (Nat.two_pow_pos _) (Nat.two_pow_pos _))
  rw [nearest_eq hn hd (fitsUnit_fraction mag), hround, exponent, significand]
  simp only [exponentWeight, infinity] at *
  split <;> omega

/-! ### Beyond the doubles -/

theorem nearest_of_huge {num den k : Nat} (hd : 0 < den) (hk : 1024 ≤ k) (h : 2 ^ k * den ≤ num) :
    nearest num den = infinity := by
  have hn : 0 < num := Nat.lt_of_lt_of_le (Nat.mul_pos (Nat.two_pow_pos k) hd) h
  have hfits := fitsUnit_unit hn hd
  set e := unit num den
  -- with a smaller unit the quotient would have too many digits
  have he : 972 ≤ e := by
    by_contra hlt
    have hexp : 53 + e.toNat ≤ k + (-e).toNat := by omega
    have hbelow := hfits.below
    rw [scaled_fst, scaled_snd] at hbelow
    have hirrefl : num * 2 ^ (-e).toNat < num * 2 ^ (-e).toNat := by
      calc num * 2 ^ (-e).toNat
        _ < 2 * exponentWeight * (den * 2 ^ e.toNat) := hbelow
        _ = den * 2 ^ (53 + e.toNat) := by rw [show 2 * exponentWeight = 2 ^ 53 from rfl]; ring
        _ ≤ den * 2 ^ (k + (-e).toNat) :=
          Nat.mul_le_mul_left _ (Nat.pow_le_pow_right (by decide) hexp)
        _ = 2 ^ k * den * 2 ^ (-e).toNat := by ring
        _ ≤ num * 2 ^ (-e).toNat := Nat.mul_le_mul_right _ h
    exact Nat.lt_irrefl _ hirrefl
  have hround : exponentWeight ≤ roundHalfEven (scaled num den e).1 (scaled num den e).2 := by
    refine Nat.le_trans ?_ (le_roundHalfEven _ _)
    rw [Nat.le_div_iff_mul_le (scaled_snd_pos hd e)]
    exact hfits.full.resolve_left (by omega)
  rw [nearest_eq hn hd hfits]
  simp only [exponentWeight, infinity] at *
  omega

theorem nearest_of_tiny {num den k : Nat} (hk : 1075 ≤ k) (h : num * 2 ^ k < den) :
    nearest num den = 0 := by
  have hd : 0 < den := Nat.lt_of_le_of_lt (Nat.zero_le _) h
  rcases Nat.eq_zero_or_pos num with rfl | hn
  · rfl
  obtain ⟨j, rfl⟩ : ∃ j, k = j + 1 := ⟨k - 1, by omega⟩
  have h1 : (scaled num den (-1074)).1 ≤ num * 2 ^ j := by
    rw [scaled_fst]
    exact Nat.mul_le_mul_left _ (Nat.pow_le_pow_right (by decide) (by omega))
  have h2 : (scaled num den (-1074)).2 = den := (scaled_snd ..).trans (Nat.mul_one _)
  -- less than half of the least unit rounds to zero
  have hsmall : 2 * (scaled num den (-1074)).1 < den := by
    calc 2 * (scaled num den (-1074)).1
      _ ≤ 2 * (num * 2 ^ j) := Nat.mul_le_mul_left _ h1
      _ = num * 2 ^ (j + 1) := by ring
      _ < den := h
  have hfits : FitsUnit num den (-1074) := by
    refine ⟨le_rfl, ?_, .inl rfl⟩
    rw [h2]
    simp only [exponentWeight]
    omega
  rw [nearest_eq hn hd hfits, h2]
  set s := (scaled num den (-1074)).1
  have hlt : s < den := by omega
  have hup : ¬ (den < 2 * s ∨ 2 * s = den ∧ 0 % 2 = 1) := by omega
  rw [roundHalfEven, Nat.div_eq_of_lt hlt, Nat.mod_eq_of_lt hlt, if_neg hup]
  rfl

end Spreadsheet.Binary64
