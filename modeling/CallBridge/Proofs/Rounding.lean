import CallBridge.SinglePrecision

/-!
# Rounding twice

A single that narrowing made comes back when it is widened and narrowed again
(`narrow_widen_single`): a normal one keeps its significand, one below the smallest normal has it
moved up by widening and down by the same distance again, and infinities and quiet NaNs go through
as they are. So a value that is rounded on its way loses nothing more when it is narrowed at the end
(`narrow_round`).
-/

namespace CallBridge

/-- A multiple of the unit is its own rounding. -/
theorem roundShift_shiftLeft (quotient shift : Nat) :
    roundShift (quotient <<< shift) shift = quotient := by
  have hunit : 0 < 1 <<< shift := by
    rw [Nat.one_shiftLeft]
    exact Nat.two_pow_pos shift
  have hvalue : quotient <<< shift = quotient * 1 <<< shift := by
    rw [Nat.shiftLeft_eq, Nat.one_shiftLeft]
  rw [roundShift, hvalue, Nat.mul_div_cancel _ hunit, Nat.mul_mod_left, if_neg (by omega)]

namespace SinglePrecision

/-! ## Parts of a number -/

theorem double_fields (negative : Bool) {exponent fraction : Nat} (he : exponent < 2048)
    (hf : fraction < 0x10000000000000) :
    doubleExponent (double negative exponent fraction) = exponent ∧
      doubleFraction (double negative exponent fraction) = fraction ∧
      (double negative exponent fraction).msb = negative := by
  have hbits : (double negative exponent fraction).toNat =
      negative.toNat * 0x8000000000000000 + exponent * 0x10000000000000 + fraction := by
    rw [double, BitVec.toNat_ofNat]
    cases negative <;> simp only [Bool.toNat_true, Bool.toNat_false, Nat.shiftLeft_eq] <;> omega
  simp only [doubleExponent, doubleFraction, BitVec.msb_eq_decide, hbits, Nat.shiftRight_eq_div_pow]
  cases negative <;> simp only [Bool.toNat_true, Bool.toNat_false, decide_eq_true_eq,
    decide_eq_false_iff_not] <;> omega

theorem single_fields (negative : Bool) {magnitude : Nat} (h : magnitude < 0x80000000) :
    singleExponent (single negative magnitude) = magnitude / 0x800000 ∧
      singleFraction (single negative magnitude) = magnitude % 0x800000 ∧
      (single negative magnitude).msb = negative := by
  have hbits : (single negative magnitude).toNat =
      negative.toNat * 0x80000000 + magnitude := by
    rw [single, BitVec.toNat_ofNat]
    cases negative <;> simp only [Bool.toNat_true, Bool.toNat_false, Nat.shiftLeft_eq] <;> omega
  simp only [singleExponent, singleFraction, BitVec.msb_eq_decide, hbits,
    Nat.shiftRight_eq_div_pow]
  cases negative <;> simp only [Bool.toNat_true, Bool.toNat_false, decide_eq_true_eq,
    decide_eq_false_iff_not] <;> omega

/-- Narrowing by the parts of a number. -/
theorem narrow_double (negative : Bool) {exponent fraction : Nat} (he : exponent < 2048)
    (hf : fraction < 0x10000000000000) :
    narrow (double negative exponent fraction) = single negative
      (if exponent = 2047 then
        if fraction = 0 then infinity else infinity + quietBit + fraction >>> 29 % quietBit
      else narrowFinite exponent fraction) := by
  obtain ⟨hexponent, hfraction, hmsb⟩ := double_fields negative he hf
  simp only [narrow, hexponent, hfraction, hmsb]

/-! ## Singles that narrowing makes -/

/-- The magnitude bits of a number, of infinity or of a quiet NaN. -/
def Narrowed (magnitude : Nat) : Prop :=
  magnitude ≤ infinity ∨ ∃ payload < quietBit, magnitude = infinity + quietBit + payload

theorem narrow_eq_single (bits : DoubleWord) :
    ∃ magnitude, Narrowed magnitude ∧ narrow bits = single bits.msb magnitude := by
  refine ⟨_, ?_, rfl⟩
  by_cases hspecial : doubleExponent bits = 2047
  · rw [if_pos hspecial]
    by_cases hfraction : doubleFraction bits = 0
    · rw [if_pos hfraction]
      exact .inl (Nat.le_refl _)
    · rw [if_neg hfraction]
      exact .inr ⟨_, Nat.mod_lt _ (by decide), rfl⟩
  · rw [if_neg hspecial]
    exact .inl (Nat.min_le_right _ _)

theorem narrowFinite_normal {exponent fraction : Nat} (hpos : 1 ≤ exponent)
    (hlt : exponent < 255) (hf : fraction < 0x800000) :
    narrowFinite (exponent + 896) (fraction <<< 29) = exponent * 0x800000 + fraction := by
  have hsignificand : 1 <<< 52 + fraction <<< 29 = (0x800000 + fraction) <<< 29 := by
    simp only [Nat.shiftLeft_eq]
    omega
  have hshift : 29 + (897 - (exponent + 896)) = 29 := by omega
  rw [narrowFinite, if_neg (by omega), hshift, hsignificand, roundShift_shiftLeft]
  simp only [infinity, Nat.shiftLeft_eq]
  omega

/-- A fraction below the smallest normal, moved up to the highest bit and down again. -/
theorem narrowFinite_subnormal {fraction : Nat} (hpos : fraction ≠ 0) (hf : fraction < 0x800000) :
    fraction.log2 < 23 ∧ (fraction - 1 <<< fraction.log2) <<< (52 - fraction.log2) < 1 <<< 52 ∧
      narrowFinite (874 + fraction.log2)
        ((fraction - 1 <<< fraction.log2) <<< (52 - fraction.log2)) = fraction := by
  have htop : fraction.log2 < 23 := (Nat.log2_lt hpos).mpr hf
  have hlow : 1 <<< fraction.log2 ≤ fraction := by
    rw [Nat.one_shiftLeft]
    exact Nat.log2_self_le hpos
  have hhigh : fraction < 1 <<< fraction.log2 + 1 <<< fraction.log2 := by
    have hlt := Nat.lt_log2_self (n := fraction)
    rw [Nat.pow_succ] at hlt
    rw [Nat.one_shiftLeft]
    omega
  generalize fraction.log2 = top at htop hlow hhigh ⊢
  have hone : (1 <<< top) <<< (52 - top) = 1 <<< 52 := by
    rw [← Nat.shiftLeft_add, Nat.add_sub_cancel' (by omega)]
  have hsplit : 1 <<< 52 + (fraction - 1 <<< top) <<< (52 - top) = fraction <<< (52 - top) := by
    rw [← hone]
    simp only [Nat.shiftLeft_eq _ (52 - top)]
    rw [← Nat.add_mul, Nat.add_sub_cancel' hlow]
  have hshift : 29 + (897 - (874 + top)) = 52 - top := by omega
  refine ⟨htop, ?_, ?_⟩
  · rw [← hone]
    simp only [Nat.shiftLeft_eq _ (52 - top)]
    exact Nat.mul_lt_mul_of_pos_right (by omega) (Nat.two_pow_pos _)
  · rw [narrowFinite, if_neg (by omega), hshift, hsplit, roundShift_shiftLeft]
    have hexponent : 874 + top - 897 = 0 := by omega
    rw [hexponent, Nat.zero_shiftLeft, Nat.zero_add]
    exact Nat.min_eq_left (by simp only [infinity, Nat.shiftLeft_eq]; omega)

/-! ## There and back -/

/-- Widening by the parts of a number. -/
theorem widen_single (negative : Bool) {magnitude : Nat} (h : magnitude < 0x80000000) :
    widen (single negative magnitude) =
      if magnitude / 0x800000 = 255 then
        if magnitude % 0x800000 = 0 then double negative 2047 0
        else double negative 2047 ((quietBit + magnitude % 0x800000 % quietBit) <<< 29)
      else if magnitude / 0x800000 = 0 then
        if magnitude % 0x800000 = 0 then double negative 0 0
        else double negative (874 + (magnitude % 0x800000).log2)
          ((magnitude % 0x800000 - 1 <<< (magnitude % 0x800000).log2) <<<
            (52 - (magnitude % 0x800000).log2))
      else double negative (magnitude / 0x800000 + 896) ((magnitude % 0x800000) <<< 29) := by
  obtain ⟨hexponent, hfraction, hmsb⟩ := single_fields negative h
  simp only [widen, hexponent, hfraction, hmsb]

theorem infinity_eq : infinity = 255 * 0x800000 := by decide

theorem quietBit_eq : quietBit = 0x400000 := by decide

theorem narrow_widen_number (negative : Bool) {magnitude : Nat} (h : magnitude ≤ infinity) :
    narrow (widen (single negative magnitude)) = single negative magnitude := by
  have hinfinity := infinity_eq
  have hf : magnitude % 0x800000 < 0x800000 := Nat.mod_lt _ (by decide)
  have hparts : magnitude / 0x800000 * 0x800000 + magnitude % 0x800000 = magnitude := by omega
  rw [widen_single negative (by omega)]
  by_cases hinf : magnitude / 0x800000 = 255
  · have hzero : magnitude % 0x800000 = 0 := by omega
    have hmagnitude : infinity = magnitude := by omega
    rw [if_pos hinf, if_pos hzero, narrow_double negative (by decide) (by decide), if_pos rfl,
      if_pos rfl, hmagnitude]
  by_cases hsmall : magnitude / 0x800000 = 0
  · have hmagnitude : magnitude % 0x800000 = magnitude := by omega
    rw [if_neg hinf, if_pos hsmall]
    by_cases hzero : magnitude % 0x800000 = 0
    · rw [if_pos hzero, narrow_double negative (by decide) (by decide), ← hmagnitude, hzero]
      rfl
    · obtain ⟨htop, hbits, hnarrow⟩ := narrowFinite_subnormal hzero hf
      rw [if_neg hzero, narrow_double negative (by omega) (by simpa using hbits),
        if_neg (by omega), hnarrow, hmagnitude]
  · have hbits : (magnitude % 0x800000) <<< 29 < 0x10000000000000 := by
      rw [Nat.shiftLeft_eq]
      omega
    rw [if_neg hinf, if_neg hsmall, narrow_double negative (by omega) hbits, if_neg (by omega),
      narrowFinite_normal (by omega) (by omega) hf, hparts]

theorem narrow_widen_quiet (negative : Bool) {payload : Nat} (h : payload < quietBit) :
    narrow (widen (single negative (infinity + quietBit + payload))) =
      single negative (infinity + quietBit + payload) := by
  have hinfinity := infinity_eq
  have hquiet := quietBit_eq
  have hspecial : (infinity + quietBit + payload) / 0x800000 = 255 := by omega
  have hfraction : (infinity + quietBit + payload) % 0x800000 = quietBit + payload := by omega
  have hbits : (quietBit + payload) <<< 29 < 0x10000000000000 := by
    rw [Nat.shiftLeft_eq]
    omega
  have hne : (quietBit + payload) <<< 29 ≠ 0 := by
    rw [Nat.shiftLeft_eq]
    omega
  rw [widen_single negative (by omega), if_pos hspecial, hfraction, if_neg (by omega),
    Nat.add_mod_left, Nat.mod_eq_of_lt h, narrow_double negative (by decide) hbits, if_pos rfl,
    if_neg hne, Nat.shiftLeft_shiftRight, Nat.add_mod_left, Nat.mod_eq_of_lt h]

theorem narrow_widen_single (negative : Bool) {magnitude : Nat} (h : Narrowed magnitude) :
    narrow (widen (single negative magnitude)) = single negative magnitude := by
  rcases h with hle | ⟨payload, hpayload, rfl⟩
  · exact narrow_widen_number negative hle
  · exact narrow_widen_quiet negative hpayload

/-- Rounding first changes nothing. -/
theorem narrow_round (bits : DoubleWord) : narrow (round bits) = narrow bits := by
  obtain ⟨magnitude, hnarrowed, heq⟩ := narrow_eq_single bits
  rw [round, heq]
  exact narrow_widen_single _ hnarrowed

end SinglePrecision

end CallBridge
