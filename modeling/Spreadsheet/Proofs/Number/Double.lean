import Spreadsheet.Number.Binary64

/-!
# Spreadsheet.Proofs.Number.Double — doubles by sign and magnitude

Arithmetic on doubles goes through `UnpackedFloat`, the sheet reads and writes a double by its sign
and its magnitude.  `view` is the unpacked form of a sign and a magnitude.  Unpacking the bits gives
it, packing it gives the bits back, and so finiteness, negation and comparison with zero can be read
off sign and magnitude.
-/

namespace Spreadsheet.Binary64

open Float.Model Float.Model.UnpackedFloat

/-- The bits of a sign and a magnitude. -/
def bitsOf (negative : Bool) (mag : Nat) : Nat := if negative then mag + signWeight else mag

/-- The sign of an unpacked double. -/
def signOf (negative : Bool) : Sign := if negative then .negative else .positive

theorem significand_pos {mag : Nat} (h : 0 < mag) : 0 < significand mag := by
  rw [significand]
  simp only [exponentWeight]
  split <;> omega

/-- The unpacked form of a sign and a magnitude. -/
def view (negative : Bool) (mag : Nat) : UnpackedFloat :=
  if h : 0 < mag ∧ mag < infinity then
    .finite (signOf negative) (significand mag) (exponent mag) (significand_pos h.1)
  else if mag = 0 then .zero (signOf negative)
  else if mag = infinity then .infinity (signOf negative)
  else .notANumber

theorem view_cases (negative : Bool) (mag : Nat) :
    (∃ h : 0 < mag ∧ mag < infinity, view negative mag =
      .finite (signOf negative) (significand mag) (exponent mag) (significand_pos h.1)) ∨
    (mag = 0 ∧ view negative mag = .zero (signOf negative)) ∨
    (mag = infinity ∧ view negative mag = .infinity (signOf negative)) ∨
    (infinity < mag ∧ view negative mag = .notANumber) := by
  rw [view]
  by_cases hfinite : 0 < mag ∧ mag < infinity
  · exact .inl ⟨hfinite, dif_pos hfinite⟩
  rw [dif_neg hfinite]
  by_cases hzero : mag = 0
  · exact .inr (.inl ⟨hzero, if_pos hzero⟩)
  rw [if_neg hzero]
  by_cases hinf : mag = infinity
  · exact .inr (.inr (.inl ⟨hinf, if_pos hinf⟩))
  · exact .inr (.inr (.inr ⟨by omega, if_neg hinf⟩))

theorem bitsOf_lt {negative : Bool} {mag : Nat} (h : mag < signWeight) :
    bitsOf negative mag < UInt64.size := by
  rw [bitsOf]
  simp only [signWeight, UInt64.size] at *
  split <;> omega

theorem bitsOf_eq_add (negative : Bool) (mag : Nat) :
    bitsOf negative mag = (signOf negative).toBitVec.toNat * signWeight + mag := by
  have hsign : (signOf negative).toBitVec.toNat * signWeight = if negative then signWeight else 0 := by
    cases negative <;> rfl
  rw [hsign, bitsOf]
  split <;> omega

/-- Two finite forms are equal where their parts are. -/
theorem finite_congr {s s' : Sign} {m m' : Nat} {e e' : Int} (hs : s = s') (hm : m = m')
    (he : e = e') (h : 0 < m) (h' : 0 < m') :
    UnpackedFloat.finite s m e h = .finite s' m' e' h' := by
  subst hs hm he
  rfl

/-! ### Unpacking -/

section Fields

variable {b : BitVec Format.binary64.numBits} {negative : Bool} {mag : Nat}

theorem toNat_unpackMantissa (hb : b.toNat = bitsOf negative mag) :
    (unpackMantissa b).toNat = mag % exponentWeight := by
  have h : (unpackMantissa b).toNat = b.toNat % exponentWeight := by simp [unpackMantissa]
  rw [h, hb, bitsOf]
  simp only [exponentWeight, signWeight]
  split <;> omega

theorem toNat_unpackExponent (hm : mag < signWeight) (hb : b.toNat = bitsOf negative mag) :
    (unpackExponent b).toNat = mag / exponentWeight := by
  have h : (unpackExponent b).toNat = b.toNat / exponentWeight % 2048 := by
    simp [unpackExponent, Nat.shiftRight_eq_div_pow]
  rw [h, hb, bitsOf]
  simp only [exponentWeight, signWeight] at *
  split <;> omega

theorem unpackExponent_eq_iff (hm : mag < signWeight) (hb : b.toNat = bitsOf negative mag)
    (e : BitVec Format.binary64.exponentBits) :
    unpackExponent b = e ↔ mag / exponentWeight = e.toNat := by
  rw [← toNat_unpackExponent hm hb, BitVec.toNat_inj]

theorem unpackMantissa_eq_iff (hb : b.toNat = bitsOf negative mag)
    (m : BitVec Format.binary64.mantissaBitsWithoutImplicit) :
    unpackMantissa b = m ↔ mag % exponentWeight = m.toNat := by
  rw [← toNat_unpackMantissa hb, BitVec.toNat_inj]

theorem ofBitVec_unpackSign (hm : mag < signWeight) (hb : b.toNat = bitsOf negative mag) :
    Sign.ofBitVec (unpackSign b) = signOf negative := by
  have h : (unpackSign b).toNat = if negative then 1 else 0 := by
    have h : (unpackSign b).toNat = b.toNat / signWeight % 2 := by
      unfold unpackSign
      simp [Nat.shiftRight_eq_div_pow]
    rw [h, hb, bitsOf]
    simp only [signWeight] at *
    split <;> omega
  rw [Sign.ofBitVec, signOf]
  cases negative
  · rw [if_pos (BitVec.eq_of_toNat_eq h)]
    rfl
  · rw [if_neg fun h0 => by rw [h0] at h; simp at h]
    rfl

/-- The three fields of the bits are the parts of the unpacked form. -/
theorem unpack_eq (hm : mag < signWeight) (hb : b.toNat = bitsOf negative mag) :
    UnpackedFloat.unpack Format.binary64 b = view negative mag := by
  have hsign := ofBitVec_unpackSign hm hb
  have hexp := toNat_unpackExponent hm hb
  have hman := toNat_unpackMantissa hb
  have hones : unpackExponent b = -1#11 ↔ mag / exponentWeight = 2047 :=
    unpackExponent_eq_iff hm hb _
  have hexp0 : unpackExponent b = 0#11 ↔ mag / exponentWeight = 0 := unpackExponent_eq_iff hm hb _
  have hman0 : unpackMantissa b = 0#52 ↔ mag % exponentWeight = 0 := unpackMantissa_eq_iff hb _
  have hbias : (Format.binary64.exponentBias : Int)
      + Format.binary64.mantissaBitsWithoutImplicit = 1075 := rfl
  dsimp only [UnpackedFloat.unpack]
  rw [view]
  by_cases hinf : infinity ≤ mag
  · -- all bits of the exponent are set
    have h1 : mag / exponentWeight = 2047 := by
      simp only [exponentWeight, infinity, signWeight] at *
      omega
    have h2 : mag % exponentWeight = 0 ↔ mag = infinity := by
      simp only [exponentWeight, infinity, signWeight] at *
      omega
    have h3 : mag ≠ 0 := by
      rintro rfl
      exact absurd hinf (by decide)
    rw [if_pos (hones.2 h1), dif_neg (by omega), if_neg h3, hsign]
    simp only [hman0, h2]
  · have h1 : mag / exponentWeight ≠ 2047 := by
      simp only [exponentWeight, infinity] at *
      omega
    rw [if_neg (mt hones.1 h1)]
    -- below the least normal number no bit of the exponent is set
    by_cases hsub : mag < exponentWeight
    · have h2 : mag / exponentWeight = 0 := Nat.div_eq_of_lt hsub
      have h3 : mag % exponentWeight = mag := Nat.mod_eq_of_lt hsub
      rw [if_pos (hexp0.2 h2)]
      by_cases h0 : mag = 0
      · rw [dif_pos (hman0.2 (by rw [h3, h0])), dif_neg (by omega), if_pos h0, hsign]
      · rw [dif_neg (mt hman0.1 (by rwa [h3])), dif_pos (by omega)]
        refine finite_congr hsign ?_ ?_ _ _
        · rw [significand, if_pos hsub, hman, h3]
        · rw [exponent, hexp, h2, hbias]
          rfl
    · -- a normal number has a leading bit that is not stored
      have h2 : mag / exponentWeight ≠ 0 := by
        simp only [exponentWeight] at *
        omega
      rw [if_neg (mt hexp0.1 h2), dif_pos (by simp only [exponentWeight] at *; omega)]
      refine finite_congr hsign ?_ ?_ _ _
      · rw [significand, if_neg hsub, BitVec.toNat_append,
          ← Nat.shiftLeft_add_eq_or_of_lt (unpackMantissa b).isLt, hman]
        rfl
      · rw [exponent, hexp, hbias, Nat.max_eq_left (by omega)]

end Fields

/-! ### Packing -/

theorem toNat_packComponents (s : Sign) (e : BitVec Format.binary64.exponentBits)
    (m : BitVec Format.binary64.mantissaBitsWithoutImplicit) :
    (packComponents Format.binary64 s e m).toNat =
      s.toBitVec.toNat * signWeight + e.toNat * exponentWeight + m.toNat := by
  rw [packComponents, BitVec.toNat_append, BitVec.toNat_append,
    ← Nat.shiftLeft_add_eq_or_of_lt m.isLt, ← Nat.shiftLeft_add_eq_or_of_lt e.isLt,
    Nat.shiftLeft_eq, Nat.shiftLeft_eq]
  simp only [signWeight, exponentWeight]
  omega

theorem mantissaBits_binary64 : Format.binary64.mantissaBits = 53 := rfl

theorem exponent_add_significand {mag : Nat} (h : ¬ mag < exponentWeight) (h' : mag < infinity) :
    max (mag / exponentWeight) 1 % 2048 * exponentWeight
      + (exponentWeight + mag % exponentWeight) % exponentWeight = mag := by
  simp only [exponentWeight, infinity] at *
  omega

theorem toNat_pack_finite (negative : Bool) {mag : Nat} (h0 : 0 < mag) (h : mag < infinity) :
    (UnpackedFloat.pack Format.binary64
      (.finite (signOf negative) (significand mag) (exponent mag) (significand_pos h0))).toNat =
      bitsOf negative mag := by
  have hexp : (exponent mag + Format.binary64.exponentBias
      + Format.binary64.mantissaBitsWithoutImplicit).toNat = max (mag / exponentWeight) 1 := by
    rw [exponent]
    simp only [Format.exponentBias]
    omega
  rw [bitsOf_eq_add]
  unfold UnpackedFloat.pack
  dsimp only
  rw [hexp, if_neg (by simp only [infinity, exponentWeight] at *; omega)]
  -- the significand has its leading bit exactly for normal numbers
  by_cases hsub : mag < exponentWeight
  · have hmod : mag % 2 ^ Format.binary64.mantissaBitsWithoutImplicit = mag :=
      Nat.mod_eq_of_lt hsub
    have hlog : mag.log2 < 52 := (Nat.log2_lt (by omega)).2 hsub
    rw [significand, if_pos hsub, if_neg (by rw [mantissaBits_binary64]; omega),
      toNat_packComponents, BitVec.toNat_ofNat, BitVec.toNat_ofNat, hmod, Nat.zero_mod,
      Nat.zero_mul, Nat.add_zero]
  · have hlog : (exponentWeight + mag % exponentWeight).log2 = 52 := by
      refine (Nat.log2_eq_iff (by simp only [exponentWeight]; omega)).2 ?_
      simp only [exponentWeight]
      omega
    rw [significand, if_neg hsub, if_pos (by rw [hlog]; rfl), toNat_packComponents,
      BitVec.toNat_ofNat, BitVec.toNat_ofNat, Nat.add_assoc]
    exact congrArg _ (exponent_add_significand hsub h)

theorem toNat_pack {negative : Bool} {mag : Nat} (h : mag ≤ infinity) :
    (UnpackedFloat.pack Format.binary64 (view negative mag)).toNat = bitsOf negative mag := by
  obtain ⟨hm, hview⟩ | ⟨rfl, hview⟩ | ⟨rfl, hview⟩ | ⟨hm, -⟩ := view_cases negative mag
  · rw [hview]
    exact toNat_pack_finite negative hm.1 hm.2
  · rw [hview, bitsOf_eq_add]
    unfold UnpackedFloat.pack
    rw [packedZero, toNat_packComponents]
    simp
  · have hones : (-1#11 : BitVec 11).toNat = 2047 := rfl
    have hinf : infinity = 2047 * exponentWeight := rfl
    rw [hview, bitsOf_eq_add]
    unfold UnpackedFloat.pack
    rw [packedInfinity, toNat_packComponents, hones, hinf]
    exact Nat.add_zero _
  · omega

/-! ### Doubles -/

theorem magnitude_lt (x : Float) : magnitude x < signWeight := Nat.mod_lt _ (by decide)

theorem toNat_toBits (x : Float) : x.toBits.toNat = bitsOf (isNegative x) (magnitude x) := by
  have := x.toBits.toNat_lt
  rw [bitsOf, isNegative, magnitude]
  simp only [signWeight, decide_eq_true_eq] at *
  split <;> omega

theorem toBits_injective {x y : Float} (h : x.toBits.toNat = y.toBits.toNat) : x = y := by
  obtain ⟨⟨b, hb⟩⟩ := x
  obtain ⟨⟨c, hc⟩⟩ := y
  obtain rfl : b = c := UInt64.toNat_inj.1 h
  rfl

theorem unpack_toModel (x : Float) : x.toModel.unpack = view (isNegative x) (magnitude x) :=
  unpack_eq (magnitude_lt x) (toNat_toBits x)

section OfMagnitude

variable {negative : Bool} {mag : Nat}

theorem toNat_toBits_ofMagnitude (h : mag ≤ infinity) :
    (ofMagnitude negative mag).toBits.toNat = bitsOf negative mag := by
  have hlt : mag < signWeight := Nat.lt_of_le_of_lt h (by decide)
  have hbits : (UInt64.ofNat (bitsOf negative mag)).toBitVec.toNat = bitsOf negative mag :=
    Nat.mod_eq_of_lt (bitsOf_lt hlt)
  calc (ofMagnitude negative mag).toBits.toNat
    _ = (UnpackedFloat.pack Format.binary64 (UnpackedFloat.unpack Format.binary64
          (UInt64.ofNat (bitsOf negative mag)).toBitVec)).toNat := rfl
    _ = bitsOf negative mag := by rw [unpack_eq hlt hbits, toNat_pack h]

theorem isNegative_ofMagnitude (h : mag ≤ infinity) :
    isNegative (ofMagnitude negative mag) = negative := by
  rw [isNegative, toNat_toBits_ofMagnitude h, bitsOf]
  simp only [infinity, signWeight] at *
  cases negative
  · simp
    omega
  · simp

theorem magnitude_ofMagnitude (h : mag ≤ infinity) : magnitude (ofMagnitude negative mag) = mag := by
  rw [magnitude, toNat_toBits_ofMagnitude h, bitsOf]
  simp only [infinity, signWeight] at *
  cases negative
  · simp
    omega
  · simp
    omega

theorem ofMagnitude_magnitude {x : Float} (h : magnitude x ≤ infinity) :
    ofMagnitude (isNegative x) (magnitude x) = x := by
  apply toBits_injective
  rw [toNat_toBits_ofMagnitude h, toNat_toBits]

theorem neg_view (negative : Bool) (mag : Nat) : (view negative mag).neg = view (!negative) mag := by
  have hsign : -signOf negative = signOf !negative := by cases negative <;> rfl
  rw [view, view]
  by_cases hfinite : 0 < mag ∧ mag < infinity
  · rw [dif_pos hfinite, dif_pos hfinite]
    exact finite_congr hsign rfl rfl _ _
  · rw [dif_neg hfinite, dif_neg hfinite, ← hsign]
    split
    · rfl
    · split <;> rfl

theorem neg_ofMagnitude (h : mag ≤ infinity) :
    -ofMagnitude negative mag = ofMagnitude (!negative) mag := by
  apply toBits_injective
  rw [toNat_toBits_ofMagnitude h]
  calc (-ofMagnitude negative mag).toBits.toNat
    _ = (UnpackedFloat.pack Format.binary64
          (ofMagnitude negative mag).toModel.unpack.neg).toNat := rfl
    _ = bitsOf (!negative) mag := by
      rw [unpack_toModel, isNegative_ofMagnitude h, magnitude_ofMagnitude h, neg_view, toNat_pack h]

theorem isFinite_view : (view negative mag).isFinite = decide (mag < infinity) := by
  obtain ⟨h, hview⟩ | ⟨rfl, hview⟩ | ⟨rfl, hview⟩ | ⟨h, hview⟩ := view_cases negative mag
  · rw [hview]
    exact (decide_eq_true h.2).symm
  · rw [hview]
    rfl
  · rw [hview]
    rfl
  · rw [hview]
    exact (decide_eq_false (Nat.not_lt.2 (Nat.le_of_lt h))).symm

theorem lt_zero_view :
    (view negative mag).lt (.zero .positive) = true ↔
      negative = true ∧ 0 < mag ∧ mag ≤ infinity := by
  obtain ⟨h, hview⟩ | ⟨rfl, hview⟩ | ⟨rfl, hview⟩ | ⟨h, hview⟩ := view_cases negative mag
  · rw [hview]
    cases negative
    · exact iff_of_false Bool.false_ne_true fun hneg => Bool.false_ne_true hneg.1
    · exact iff_of_true rfl ⟨rfl, h.1, Nat.le_of_lt h.2⟩
  · rw [hview]
    exact iff_of_false Bool.false_ne_true fun hpos => Nat.lt_irrefl 0 hpos.2.1
  · rw [hview]
    cases negative
    · exact iff_of_false Bool.false_ne_true fun hneg => Bool.false_ne_true hneg.1
    · exact iff_of_true rfl ⟨rfl, by decide, Nat.le_refl _⟩
  · rw [hview]
    exact iff_of_false Bool.false_ne_true fun hle => Nat.not_lt.2 hle.2.2 h

end OfMagnitude

theorem isFinite_iff (x : Float) : x.isFinite = true ↔ magnitude x < infinity := by
  have h : x.isFinite = x.toModel.unpack.isFinite := rfl
  rw [h, unpack_toModel, isFinite_view, decide_eq_true_iff]

theorem zero_eq : (0 : Float) = ofMagnitude false 0 := by decide +kernel

theorem lt_zero_iff (x : Float) :
    x < 0 ↔ isNegative x = true ∧ 0 < magnitude x ∧ magnitude x ≤ infinity := by
  have h0 : (0 : Float).toModel.unpack = .zero .positive := by
    rw [zero_eq, unpack_toModel, isNegative_ofMagnitude (Nat.zero_le _),
      magnitude_ofMagnitude (Nat.zero_le _)]
    rfl
  rw [← lt_zero_view, ← unpack_toModel, ← h0]
  exact decide_eq_true_iff

/-! ### Division by zero -/

theorem isFinite_unpack_pack {f : UnpackedFloat} (h : f.isFinite = false) :
    (UnpackedFloat.unpack Format.binary64 (UnpackedFloat.pack Format.binary64 f)).isFinite =
      false := by
  cases f with
  | notANumber => decide +kernel
  | infinity s => cases s <;> decide +kernel
  | zero s => cases h
  | finite s m e hm => cases h

theorem unpack_of_beq_zero {x : Float} (h : (x == 0) = true) :
    ∃ s, x.toModel.unpack = .zero s := by
  have hbeq : x.toModel.unpack.beq (.zero .positive) = true := h
  cases hx : x.toModel.unpack with
  | notANumber => rw [hx] at hbeq; cases hbeq
  | infinity s => rw [hx] at hbeq; cases s <;> cases hbeq
  | zero s => exact ⟨s, rfl⟩
  | finite s m e hm => rw [hx] at hbeq; cases s <;> cases hbeq

theorem isFinite_div_unpacked_zero (f : UnpackedFloat) (s : Sign) :
    (UnpackedFloat.div Format.binary64 f (.zero s)).isFinite = false := by
  cases f <;> rfl

theorem isFinite_div_zero (x : Float) {y : Float} (h : (y == 0) = true) :
    (x / y).isFinite = false := by
  obtain ⟨s, hs⟩ := unpack_of_beq_zero h
  refine isFinite_unpack_pack ?_
  rw [hs]
  exact isFinite_div_unpacked_zero ..

end Spreadsheet.Binary64
