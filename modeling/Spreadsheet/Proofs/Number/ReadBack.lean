import Mathlib.Data.List.TakeWhile
import Spreadsheet.Arithmetic.Token
import Spreadsheet.Proofs.Number.Nearest
import Spreadsheet.Proofs.Text.Classes

/-!
# Spreadsheet.Proofs.Number.ReadBack — the text of a double reads back as the double

The magnitude of a decimal depends on its value alone, so that moving zeros between the digits and
the exponent changes nothing.  The search for the shortest decimal only takes one that reads back,
and falls back on all digits, which do; its text is a run of digits and points that says the same.
-/

namespace Spreadsheet

namespace Decimal

/-! ### The magnitude of a decimal depends on its value -/

theorem tenTo_pos (n : Nat) : 0 < tenTo n := Nat.pow_pos (by decide)

theorem tenTo_add (m n : Nat) : tenTo (m + n) = tenTo m * tenTo n := Nat.pow_add 10 m n

theorem fraction_fst_pos {d : Decimal} (h : d.digits ≠ 0) : 0 < d.fraction.1 :=
  Nat.mul_pos (Nat.pos_of_ne_zero h) (tenTo_pos _)

theorem fraction_snd_pos (d : Decimal) : 0 < d.fraction.2 := tenTo_pos _

theorem two_pow_le_tenTo (n : Nat) : 2 ^ (3 * n) ≤ tenTo n := by
  rw [Nat.pow_mul]
  exact Nat.pow_le_pow_left (show 8 ≤ 10 by decide) n

theorem nearest_fraction_of_huge {d : Decimal} (h : d.digits ≠ 0) (he : 400 < d.exponent) :
    Binary64.nearest d.fraction.1 d.fraction.2 = Binary64.infinity := by
  have hden : d.fraction.2 = 1 := by
    rw [fraction, show (-d.exponent).toNat = 0 by omega]
    rfl
  refine Binary64.nearest_of_huge (fraction_snd_pos d)
    (show 1024 ≤ 3 * d.exponent.toNat by omega) ?_
  calc 2 ^ (3 * d.exponent.toNat) * d.fraction.2
    _ = 2 ^ (3 * d.exponent.toNat) := by rw [hden, Nat.mul_one]
    _ ≤ tenTo d.exponent.toNat := two_pow_le_tenTo _
    _ ≤ d.fraction.1 := Nat.le_mul_of_pos_left _ (Nat.pos_of_ne_zero h)

theorem nearest_fraction_of_tiny {d : Decimal} (he : d.exponent + 400 + d.digits.log2 < 0) :
    Binary64.nearest d.fraction.1 d.fraction.2 = 0 := by
  obtain ⟨k, hk⟩ : ∃ k, (-d.exponent).toNat = d.digits.log2 + k :=
    ⟨(-d.exponent).toNat - d.digits.log2, by omega⟩
  have hnum : d.fraction.1 = d.digits := by
    rw [fraction, show d.exponent.toNat = 0 by omega]
    exact Nat.mul_one _
  refine Binary64.nearest_of_tiny (show 1075 ≤ 3 * k - 1 by omega) ?_
  calc d.fraction.1 * 2 ^ (3 * k - 1)
    _ < 2 ^ (d.digits.log2 + 1) * 2 ^ (3 * k - 1) := by
      rw [hnum]
      exact Nat.mul_lt_mul_of_pos_right Nat.lt_log2_self (Nat.two_pow_pos _)
    _ = 2 ^ d.digits.log2 * 2 ^ (3 * k) := by
      rw [← Nat.pow_add, ← Nat.pow_add]
      congr 1
      omega
    _ ≤ tenTo d.digits.log2 * tenTo k :=
      Nat.mul_le_mul (Nat.pow_le_pow_left (show 2 ≤ 10 by decide) _) (two_pow_le_tenTo k)
    _ = d.fraction.2 := by rw [← tenTo_add, ← hk, fraction]

/-- The exponents that are settled without raising ten to them are settled rightly. -/
theorem magnitude_eq_nearest {d : Decimal} (h : d.digits ≠ 0) :
    d.magnitude = Binary64.nearest d.fraction.1 d.fraction.2 := by
  rw [magnitude, if_neg h]
  split
  · rename_i hhuge
    exact (nearest_fraction_of_huge h hhuge).symm
  · split
    · rename_i htiny
      exact (nearest_fraction_of_tiny htiny).symm
    · rfl

/-- Zeros can be taken from the exponent to the digits. -/
theorem magnitude_mul_tenTo (n k : Nat) (e : Int) :
    magnitude ⟨n * tenTo k, e - k⟩ = magnitude ⟨n, e⟩ := by
  rcases Nat.eq_zero_or_pos n with rfl | hn
  · rw [Nat.zero_mul, magnitude, magnitude, if_pos rfl, if_pos rfl]
  have hn0 : n ≠ 0 := Nat.pos_iff_ne_zero.1 hn
  have hk0 : n * tenTo k ≠ 0 := Nat.pos_iff_ne_zero.1 (Nat.mul_pos hn (tenTo_pos k))
  rw [magnitude_eq_nearest (d := ⟨n * tenTo k, e - k⟩) hk0, magnitude_eq_nearest (d := ⟨n, e⟩) hn0]
  refine Binary64.nearest_congr (fraction_fst_pos (d := ⟨n * tenTo k, e - k⟩) hk0)
    (fraction_snd_pos _) (fraction_fst_pos (d := ⟨n, e⟩) hn0) (fraction_snd_pos _) ?_
  have hexp : k + (e - k).toNat + (-e).toNat = e.toNat + (-(e - k)).toNat := by omega
  simp only [fraction, Nat.mul_assoc, ← tenTo_add]
  rw [← hexp, Nat.add_assoc]

/-! ### The shortest decimal -/

theorem magnitude_withoutZeros (n : Nat) (d : Decimal) : (withoutZeros n d).magnitude = d.magnitude := by
  induction n generalizing d with
  | zero => rfl
  | succ n ih =>
    rw [withoutZeros]
    split
    · rename_i h
      have hd : (d.digits / 10) * tenTo 1 = d.digits := Nat.div_mul_cancel (Nat.dvd_of_mod_eq_zero h)
      rw [ih, ← magnitude_mul_tenTo _ 1, hd, show d.exponent + 1 - (1 : Nat) = d.exponent by omega]
    · rfl

theorem magnitude_exact {mag : Nat} (h0 : 0 < mag) (h : mag < Binary64.infinity) :
    (exact mag).magnitude = mag := by
  have hs := Binary64.significand_pos h0
  conv_rhs => rw [← Binary64.nearest_fraction h0 h]
  rw [exact]
  -- an integer needs no places
  split
  · rename_i he
    have hden : (Binary64.fraction mag).2 = 1 := by
      rw [Binary64.fraction, show (-Binary64.exponent mag).toNat = 0 by omega]
      rfl
    have hne : Binary64.significand mag <<< (Binary64.exponent mag).toNat ≠ 0 := by
      rw [Nat.shiftLeft_eq]
      exact Nat.pos_iff_ne_zero.1 (Nat.mul_pos hs (Nat.two_pow_pos _))
    rw [magnitude_eq_nearest hne, hden]
    simp only [fraction, Binary64.fraction]
    rw [show tenTo (0 : Int).toNat = 1 from rfl, Nat.mul_one]
    rfl
  · rename_i he
    -- five to the power of the places takes the place of the division by two
    set k := (-Binary64.exponent mag).toNat
    have hten : tenTo k = 5 ^ k * 2 ^ k := by
      rw [← Nat.mul_pow]
      rfl
    have hdigits : (Binary64.significand mag * tenTo k) >>> k = Binary64.significand mag * 5 ^ k := by
      rw [Nat.shiftRight_eq_div_pow, hten, ← Nat.mul_assoc, Nat.mul_div_cancel _ (Nat.two_pow_pos _)]
    have hpos : 0 < Binary64.significand mag * 5 ^ k := Nat.mul_pos hs (Nat.pow_pos (by decide))
    have hnum : (Binary64.fraction mag).1 = Binary64.significand mag := by
      rw [Binary64.fraction, show (Binary64.exponent mag).toNat = 0 by omega]
      rfl
    have hden : (Binary64.fraction mag).2 = 2 ^ k := Nat.one_shiftLeft _
    have hfrac : (⟨Binary64.significand mag * 5 ^ k, Binary64.exponent mag⟩ : Decimal).fraction =
        (Binary64.significand mag * 5 ^ k, 2 ^ k * 5 ^ k) := by
      rw [fraction, show (Binary64.exponent mag).toNat = 0 by omega, Nat.mul_comm (2 ^ k), ← hten]
      exact congrArg (·, _) (Nat.mul_one _)
    rw [hdigits, magnitude_eq_nearest (Nat.pos_iff_ne_zero.1 hpos), hfrac, hnum, hden]
    exact Binary64.nearest_mul_right hs (Nat.two_pow_pos _) (Nat.pow_pos (by decide))

theorem magnitude_of_neighbour? {mag : Nat} {e : Int} {d : Decimal} (h : neighbour? mag e = some d) :
    d.magnitude = mag := by
  rw [neighbour?] at h
  have hd := List.find?_some h
  exact of_decide_eq_true hd

/-- The shortest decimal of a double reads back as it. -/
theorem magnitude_shortest {mag : Nat} (h0 : 0 < mag) (h : mag < Binary64.infinity) :
    (shortest mag).magnitude = mag := by
  rw [shortest]
  cases hfound : (laterDigits mag).findSome? fun (n : Nat) =>
      neighbour? mag (decade (Binary64.fraction mag).1 (Binary64.fraction mag).2 - n) with
  | none => exact magnitude_exact h0 h
  | some d =>
    obtain ⟨n, -, hn⟩ := List.exists_of_findSome?_eq_some hfound
    exact (magnitude_withoutZeros 17 d).trans (magnitude_of_neighbour? hn)

/-! ### The text of a decimal -/

theorem parse?_of_digits {ds : List Char} (hne : ds ≠ []) (h : ∀ c ∈ ds, c.isDigit = true) :
    parse? ds = some ⟨Nat.ofDigitChars 10 ds 0, 0⟩ := by
  have htake : ds.takeWhile Char.isDigit = ds := List.takeWhile_eq_self_iff.2 h
  have hdrop : ds.dropWhile Char.isDigit = [] := List.dropWhile_eq_nil_iff.2 h
  have hemp : ds.isEmpty = false := by simpa using hne
  rw [parse?]
  simp only [htake, hdrop, hemp, Bool.false_and, Bool.false_eq_true, if_false, suffixExponent?,
    List.append_nil]
  rfl

theorem parse?_of_point {whole places : List Char} (hne : whole ++ places ≠ [])
    (hw : ∀ c ∈ whole, c.isDigit = true) (hp : ∀ c ∈ places, c.isDigit = true) :
    parse? (whole ++ '.' :: places) =
      some ⟨Nat.ofDigitChars 10 (whole ++ places) 0, 0 - places.length⟩ := by
  have htake : (whole ++ '.' :: places).takeWhile Char.isDigit = whole := by
    rw [List.takeWhile_append_of_pos hw, List.takeWhile_cons_of_neg (by decide), List.append_nil]
  have hdrop : (whole ++ '.' :: places).dropWhile Char.isDigit = '.' :: places := by
    rw [List.dropWhile_append_of_pos hw, List.dropWhile_cons_of_neg (by decide)]
  have htake' : places.takeWhile Char.isDigit = places := List.takeWhile_eq_self_iff.2 hp
  have hdrop' : places.dropWhile Char.isDigit = [] := List.dropWhile_eq_nil_iff.2 hp
  have hemp : (whole.isEmpty && places.isEmpty) = false := by
    rwa [← Bool.not_eq_true, Bool.and_eq_true, List.isEmpty_iff, List.isEmpty_iff,
      ← List.append_eq_nil_iff]
  rw [parse?]
  simp only [htake, hdrop, htake', hdrop', hemp, Bool.false_eq_true, if_false, suffixExponent?]
  rfl

theorem isDigit_of_mem_replicate {n : Nat} {c : Char} (h : c ∈ List.replicate n '0') :
    c.isDigit = true := by
  rw [List.eq_of_mem_replicate h]
  rfl

theorem withPoint_eq (ds : List Char) (places : Nat) :
    ∃ whole rest, whole ≠ [] ∧ withPoint ds places = whole ++ '.' :: rest ∧ rest.length = places
      ∧ Nat.ofDigitChars 10 (whole ++ rest) 0 = Nat.ofDigitChars 10 ds 0
      ∧ ∀ c ∈ whole ++ rest, c = '0' ∨ c ∈ ds := by
  rw [withPoint]
  -- with enough digits the point stands among them, otherwise zeros are put before them
  split
  · rename_i h
    refine ⟨_, _, ?_, rfl, ?_, ?_, ?_⟩
    · rw [ne_eq, List.take_eq_nil_iff]
      rintro (h' | rfl)
      · omega
      · simp at h
    · rw [List.length_drop]
      omega
    · rw [List.take_append_drop]
    · rw [List.take_append_drop]
      exact fun c hc => .inr hc
  · rename_i h
    refine ⟨['0'], _, List.cons_ne_nil _ _, rfl, ?_, ?_, ?_⟩
    · rw [List.length_append, List.length_replicate]
      omega
    · rw [← List.append_assoc, Nat.ofDigitChars_append]
      congr 1
      exact Nat.ofDigitChars_replicate_zero (n := places - ds.length + 1)
    · intro c hc
      rcases List.mem_append.1 hc with hc | hc
      · exact .inl (List.mem_singleton.1 hc)
      · exact (List.mem_append.1 hc).imp_left List.eq_of_mem_replicate

/-- The text of a decimal is a numeral, and it has the decimal's magnitude. -/
theorem parse?_text (d : Decimal) :
    ∃ d', parse? d.text = some d' ∧ d'.magnitude = d.magnitude := by
  obtain ⟨n, e⟩ := d
  have hvalue : Nat.ofDigitChars 10 (Nat.toDigits 10 n) 0 = n := Nat.ofDigitChars_ten_toDigits
  rw [text]
  simp only
  -- zeros are appended for a positive exponent, places are cut off for a negative one
  split
  · rename_i he
    have hdigits : ∀ c ∈ Nat.toDigits 10 n ++ List.replicate e.toNat '0', c.isDigit = true := by
      intro c hc
      exact (List.mem_append.1 hc).elim Text.isDigit_of_mem_toDigits isDigit_of_mem_replicate
    refine ⟨_, parse?_of_digits ?_ hdigits, ?_⟩
    · exact List.append_ne_nil_of_left_ne_nil Nat.toDigits_ne_nil _
    · rw [Nat.ofDigitChars_append, hvalue, Nat.ofDigitChars_replicate_zero, Nat.mul_comm,
        ← magnitude_mul_tenTo n e.toNat e, show e - (e.toNat : Int) = 0 by omega]
      rfl
  · rename_i he
    obtain ⟨whole, rest, hne, htext, hlen, hval, hmem⟩ :=
      withPoint_eq (Nat.toDigits 10 n) (-e).toNat
    have hdigits : ∀ c ∈ whole ++ rest, c.isDigit = true := fun c hc =>
      (hmem c hc).elim (fun h => h ▸ rfl) Text.isDigit_of_mem_toDigits
    refine ⟨⟨n, e⟩, ?_, rfl⟩
    rw [htext, parse?_of_point (List.append_ne_nil_of_left_ne_nil hne _)
      (fun c hc => hdigits c (List.mem_append_left _ hc))
      fun c hc => hdigits c (List.mem_append_right _ hc), hval, hvalue, hlen,
      show (0 : Int) - ((-e).toNat : Int) = e by omega]

theorem isNumeral_of_mem_text {d : Decimal} {c : Char} (h : c ∈ d.text) :
    Token.isNumeral c = true := by
  have hdigit : ∀ {c : Char}, c.isDigit = true → Token.isNumeral c = true := by
    intro c hc
    rw [Token.isNumeral, hc, Bool.true_or]
  rw [text] at h
  split at h
  · exact hdigit ((List.mem_append.1 h).elim Text.isDigit_of_mem_toDigits isDigit_of_mem_replicate)
  · obtain ⟨whole, rest, -, htext, -, -, hmem⟩ :=
      withPoint_eq (Nat.toDigits 10 d.digits) (-d.exponent).toNat
    have hdigits : ∀ c ∈ whole ++ rest, c.isDigit = true := fun c hc =>
      (hmem c hc).elim (fun h => h ▸ rfl) Text.isDigit_of_mem_toDigits
    rw [htext] at h
    rcases List.mem_append.1 h with h | h
    · exact hdigit (hdigits c (List.mem_append_left _ h))
    · rcases List.mem_cons.1 h with rfl | h
      · rfl
      · exact hdigit (hdigits c (List.mem_append_right _ h))

end Decimal

/-! ### Numerals -/

theorem toLower_of_isNumeral {c : Char} (h : Token.isNumeral c = true) : c.toLower = c := by
  refine dif_neg ?_
  rintro ⟨h1, h2⟩
  rw [Token.isNumeral, Bool.or_eq_true, beq_iff_eq] at h
  rcases h with h | rfl
  · rw [Char.isDigit_iff_toNat] at h
    have h1 : 65 ≤ c.toNat := h1
    have h3 : c.toNat ≤ 57 := h.2
    omega
  · exact absurd h1 (by decide)

/-- A run of digits and points has no sign and is none of the words for infinity and for no
number. -/
theorem readNumber?_of_isNumeral {cs : List Char} (h : ∀ c ∈ cs, Token.isNumeral c = true) :
    readNumber? cs = (Decimal.parse? cs).map fun d => Binary64.ofMagnitude false d.magnitude := by
  have hlower : cs.map Char.toLower = cs := by
    conv_rhs => rw [← List.map_id cs]
    exact List.map_congr_left fun c hc => toLower_of_isNumeral (h c hc)
  have hword : ∀ c ws, Token.isNumeral c = false → cs ≠ c :: ws := by
    rintro c ws hc rfl
    rw [h c List.mem_cons_self] at hc
    exact Bool.noConfusion hc
  have hmag : magnitude? cs = (Decimal.parse? cs).map Decimal.magnitude := by
    rw [magnitude?]
    simp only [hlower]
    rw [if_neg (by rw [not_or]; exact ⟨hword _ _ rfl, hword _ _ rfl⟩), if_neg (hword _ _ rfl)]
  rw [readNumber?, hmag, Option.map_map]
  · rfl
  · exact fun ws => hword _ ws rfl
  · exact fun ws => hword _ ws rfl

theorem isNumeral_of_mem_magnitudeText {mag : Nat} (h : mag < Binary64.infinity) {c : Char}
    (hc : c ∈ magnitudeText mag) : Token.isNumeral c = true := by
  rw [magnitudeText] at hc
  split at hc
  · rw [List.mem_singleton.1 hc]
    rfl
  · rw [if_neg (Nat.ne_of_lt h)] at hc
    exact Decimal.isNumeral_of_mem_text hc

theorem parse?_magnitudeText {mag : Nat} (h : mag < Binary64.infinity) :
    ∃ d, Decimal.parse? (magnitudeText mag) = some d ∧ d.magnitude = mag := by
  rw [magnitudeText]
  split
  · subst mag
    exact ⟨⟨0, 0⟩, rfl, rfl⟩
  · rename_i h0
    rw [if_neg (Nat.ne_of_lt h)]
    obtain ⟨d, hd, hmag⟩ := Decimal.parse?_text (Decimal.shortest mag)
    exact ⟨d, hd, hmag.trans (Decimal.magnitude_shortest (Nat.pos_of_ne_zero h0) h)⟩

theorem magnitudeText_ne_nil {mag : Nat} (h : mag < Binary64.infinity) : magnitudeText mag ≠ [] := by
  obtain ⟨d, hd, -⟩ := parse?_magnitudeText h
  intro hnil
  rw [hnil] at hd
  cases hd

/-- The text of a finite magnitude reads back as it. -/
theorem readNumber?_magnitudeText {mag : Nat} (h : mag < Binary64.infinity) :
    readNumber? (magnitudeText mag) = some (Binary64.ofMagnitude false mag) := by
  obtain ⟨d, hd, hmag⟩ := parse?_magnitudeText h
  rw [readNumber?_of_isNumeral fun c hc => isNumeral_of_mem_magnitudeText h hc, hd, Option.map_some,
    hmag]

end Spreadsheet
