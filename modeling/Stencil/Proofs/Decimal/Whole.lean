import Stencil.Proofs.Decimal.Parts
import Stencil.Value.Basic

/-!
# Whole numbers

Below `2 ^ 53` whole numbers are floating-point numbers exactly, so they come through the
conversions from and to integers.

* `wholePart_ofNat` and `floatOfInt_wholePart` are the two ways round; only the sign of zero is
  lost.
* `displayNumber_ofNat` is the text of a natural number.
-/

namespace Stencil

open Float.Model Float.Model.UnpackedFloat Binary

/-! ## Magnitudes -/

namespace Binary

variable {x : Float} {s : UnpackedFloat.Sign} {m : Nat} {e : Int}

theorem HasParts.isIntegral_iff (h : HasParts x s m e) (he : e ≤ 0) :
    (ofFloat x).isIntegral = true ↔ 2 ^ (-e).toNat ∣ m := by
  obtain ⟨hm, he'⟩ := h.magnitude
  rw [isIntegral, hm, he', Bool.or_eq_true, decide_eq_true_iff, beq_iff_eq, Nat.pow_eq,
    Nat.dvd_iff_mod_eq_zero]
  constructor
  · rintro (h0 | h0)
    · obtain rfl : e = 0 := by omega
      exact Nat.mod_one m
    · exact h0
  · exact .inr

theorem HasParts.truncated_eq (h : HasParts x s m e) (he : e ≤ 0) :
    (ofFloat x).truncated = m / 2 ^ (-e).toNat := by
  obtain ⟨hm, he'⟩ := h.magnitude
  rw [truncated, hm, he', Nat.pow_eq]
  split_ifs with h0
  · obtain rfl : e = 0 := by omega
    simp
  · rfl

/-- A whole number has a mantissa of 53 bits: the least numbers have fractions. -/
theorem HasParts.normal (h : HasParts x s m e) (hw : isWhole x = true) :
    m.log2 = 52 ∧ -1074 ≤ e ∧ e ≤ 971 := by
  have hm := h.mantissa_lt
  have hne : e ≠ -1074 := by
    rintro rfl
    have hdvd := (h.isIntegral_iff (by decide)).1 (Bool.and_eq_true_iff.1 hw).2
    have hle := Nat.le_of_dvd h.mantissa_pos hdvd
    have hpow : 2 ^ 53 ≤ 2 ^ (-(-1074 : Int)).toNat := Nat.pow_le_pow_right (by decide) (by decide)
    omega
  have hle := h.le_mantissa hne
  exact ⟨(Nat.log2_eq_iff (by omega)).2 ⟨hle, hm⟩, h.exponent_mem⟩

theorem truncated_of_mantissa_eq_zero {b : Binary} (h : b.mantissa = 0) : b.truncated = 0 := by
  rw [truncated, h]
  split_ifs
  · exact Nat.zero_mul _
  · exact Nat.zero_div _

theorem isIntegral_of_mantissa_eq_zero {b : Binary} (h : b.mantissa = 0) :
    b.isIntegral = true := by
  rw [isIntegral, h, Nat.zero_mod]
  exact Bool.or_true _

end Binary

/-! ## From natural numbers -/

section Nat

variable {n : Nat}

theorem truncated_ofNat (hlt : n < 2 ^ 53) :
    (ofFloat (Float.ofNat n)).truncated = n ∧ (ofFloat (Float.ofNat n)).isIntegral = true := by
  rcases eq_or_ne n 0 with rfl | hn
  · have hzero : (ofFloat (Float.ofNat 0)).mantissa = 0 := mantissa_of_zero (s := .positive) rfl
    exact ⟨truncated_of_mantissa_eq_zero hzero, isIntegral_of_mantissa_eq_zero hzero⟩
  · have hlog := log2_lt_of_lt hn hlt
    have h := hasParts_ofNat hn hlt
    have he : (-((n.log2 : Int) - 52)).toNat = 52 - n.log2 := by omega
    rw [h.truncated_eq (by omega), h.isIntegral_iff (by omega), he]
    exact ⟨Nat.mul_div_cancel _ (by positivity), dvd_mul_left _ _⟩

theorem isWhole_ofNat (hlt : n < 2 ^ 53) : isWhole (Float.ofNat n) = true := by
  have hfinite : (Float.ofNat n).isFinite = true := by
    rcases eq_or_ne n 0 with rfl | hn
    · rfl
    · exact (hasParts_ofNat hn hlt).isFinite
  rw [isWhole, hfinite, (truncated_ofNat hlt).2]
  rfl

theorem wholePart_ofNat (hlt : n < 2 ^ 53) : wholePart (Float.ofNat n) = n := by
  have hsign : isNegative (Float.ofNat n) = false := by
    rcases eq_or_ne n 0 with rfl | hn
    · rfl
    · rw [← Bool.not_eq_true, (hasParts_ofNat hn hlt).isNegative_iff]
      exact fun h => nomatch h
  rw [wholePart, hsign, (truncated_ofNat hlt).1]
  rfl

theorem hasParts_ten_pow_21 : HasParts 1e21 .positive 7629394531250000 17 := ⟨by decide, rfl⟩

/-- **The text of a natural number** below `2 ^ 53` is made of its decimal digits. -/
theorem displayNumber_ofNat (hlt : n < 2 ^ 53) :
    Value.displayNumber (Float.ofNat n) = String.ofList (Decimal.digitChars n) := by
  have hw := isWhole_ofNat hlt
  obtain ⟨hnan, hinf⟩ := isNaN_isInf_of_isFinite (Bool.and_eq_true_iff.1 hw).1
  have hsmall : (Float.ofNat n).abs < 1e21 := by
    rcases eq_or_ne n 0 with rfl | hn
    · rfl
    · have hparts := hasParts_ofNat hn hlt
      obtain ⟨hm, he, he'⟩ := hparts.normal hw
      have hlog := log2_lt_of_lt hn hlt
      exact ((hparts.abs hm he he').lt_iff hasParts_ten_pow_21).2 (.inl (by omega))
  have htext : Decimal.integer n = Decimal.digitChars n := by
    rw [Decimal.integer, if_neg (by omega), Int.natAbs_natCast]
  rw [Value.displayNumber, hnan, hinf, hw, wholePart_ofNat hlt, decide_eq_true hsmall, htext]
  rfl

end Nat

/-! ## To integers and back -/

variable {x : Float} {s : UnpackedFloat.Sign} {m : Nat} {e : Int}

theorem hasParts_two_pow_53 : HasParts 9007199254740992 .positive (2 ^ 52) 1 := ⟨by decide, rfl⟩

/-- The magnitude of a whole number below `2 ^ 53` is a natural number, with the same parts. -/
theorem Binary.HasParts.exists_ofNat (h : HasParts x s m e) (hw : isWhole x = true)
    (hlt : x.abs < 9007199254740992) :
    ∃ n, n ≠ 0 ∧ (ofFloat x).truncated = n ∧ HasParts (Float.ofNat n) .positive m e := by
  obtain ⟨hm, he, he'⟩ := h.normal hw
  have hmlt := h.mantissa_lt
  have hle : 2 ^ 52 ≤ m := hm ▸ Nat.log2_self_le (by rintro rfl; cases hm)
  have hnonpos : e ≤ 0 := by
    have := ((h.abs hm he he').lt_iff hasParts_two_pow_53).1 hlt
    omega
  obtain ⟨n, hn⟩ := (h.isIntegral_iff hnonpos).1 (Bool.and_eq_true_iff.1 hw).2
  have hpow : 0 < 2 ^ (-e).toNat := Nat.two_pow_pos _
  have hn0 : n ≠ 0 := by
    rintro rfl
    omega
  have hnlt : n < 2 ^ 53 := by
    refine (Nat.le_mul_of_pos_left n hpow).trans_lt ?_
    rwa [← hn]
  have hlog : n.log2 + (-e).toNat = 52 := by
    rw [← log2_mul_two_pow hn0, mul_comm, ← hn, hm]
  refine ⟨n, hn0, ?_, ?_⟩
  · rw [h.truncated_eq hnonpos, hn, Nat.mul_div_cancel_left _ hpow]
  · have hparts := hasParts_ofNat hn0 hnlt
    rwa [show 52 - n.log2 = (-e).toNat by omega, mul_comm, ← hn,
      show (n.log2 : Int) - 52 = e by omega] at hparts

theorem Binary.HasParts.floatOfInt_wholePart (h : HasParts x s m e) (hw : isWhole x = true)
    (hlt : x.abs < 9007199254740992) : floatOfInt (wholePart x) = x := by
  obtain ⟨n, hn, htruncated, hnat⟩ := h.exists_ofNat hw hlt
  rw [wholePart, htruncated]
  cases s with
  | positive =>
    rw [if_neg fun hx => nomatch h.isNegative_iff.1 hx]
    exact hnat.unique h
  | negative =>
    obtain ⟨hm, he, he'⟩ := h.normal hw
    rw [if_pos (h.isNegative_iff.2 rfl)]
    obtain ⟨k, rfl⟩ := Nat.exists_eq_succ_of_ne_zero hn
    exact (hnat.neg hm he he').unique h

/-- A zero of either sign is a whole number. -/
theorem whole_of_zero (h : x.toModel.unpack = .zero s) :
    isWhole x = true ∧ x.abs < 9007199254740992 ∧ wholePart x = 0 := by
  have hmantissa := mantissa_of_zero h
  have hfinite : x.isFinite = true := by
    change x.toModel.unpack.isFinite = true
    rw [h]
    rfl
  have habs : x.abs = ⟨Float.Model.pack (.zero .positive)⟩ := by
    change (⟨Float.Model.pack (UnpackedFloat.abs _)⟩ : Float) = _
    rw [h]
    rfl
  refine ⟨?_, ?_, ?_⟩
  · rw [isWhole, hfinite, isIntegral_of_mantissa_eq_zero hmantissa]
    rfl
  · rw [habs]
    rfl
  · rw [wholePart, truncated_of_mantissa_eq_zero hmantissa]
    split_ifs <;> rfl

/-- **A whole number below `2 ^ 53` comes back** from the integer that it is, negative zero as
zero. -/
theorem floatOfInt_wholePart (hw : isWhole x = true) (hlt : x.abs < 9007199254740992) :
    floatOfInt (wholePart x) = if x == 0 then 0 else x := by
  rcases zero_or_hasParts (Bool.and_eq_true_iff.1 hw).1 with ⟨s, hx⟩ | ⟨s, m, e, hx⟩
  · rw [(whole_of_zero hx).2.2, beq_zero_of_zero hx]
    rfl
  · rw [hx.floatOfInt_wholePart hw hlt, hx.beq_zero]
    rfl

/-- A finite number that is not both whole and small is not zero. -/
theorem beq_zero_of_not_whole (hfinite : x.isFinite = true)
    (h : ¬ (isWhole x = true ∧ x.abs < 9007199254740992)) : (x == 0) = false := by
  rcases zero_or_hasParts hfinite with ⟨s, hx⟩ | ⟨s, m, e, hx⟩
  · obtain ⟨hw, hlt, -⟩ := whole_of_zero hx
    exact absurd ⟨hw, hlt⟩ h
  · exact hx.beq_zero

end Stencil
