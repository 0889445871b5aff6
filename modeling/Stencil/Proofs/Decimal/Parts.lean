import Stencil.Decimal.Binary
import Mathlib

/-!
# Sign and magnitude of a number

A floating-point number that is finite and not zero is a sign, a mantissa and an exponent, and
`Binary.ofFloat` reads these off its bits.

* `Binary.HasParts x s m e` says that `x` is the number with the sign `s` and the magnitude
  `m * 2 ^ e`. The parts determine the number (`HasParts.unique`), and `HasParts.magnitude` and
  `HasParts.isNegative_iff` say that they are what is read off.
* Rounding leaves a mantissa of 53 bits as it is (`roundWithAccuracy_normal`), and so does storing
  it (`hasParts_pack`). So the parts of natural numbers below `2 ^ 53` are known
  (`hasParts_ofNat`), and what a sign and a comparison make of parts.
-/

namespace Stencil.Binary

open Float.Model Float.Model.UnpackedFloat

/-- The number is finite and not zero, with this sign and magnitude. -/
def HasParts (x : Float) (s : UnpackedFloat.Sign) (m : Nat) (e : Int) : Prop :=
  ∃ h, x.toModel.unpack = .finite s m e h

/-! ## Bits -/

section Bits

variable (b : BitVec Format.binary64.numBits)

theorem toNat_unpackExponent :
    (unpackExponent b).toNat = b.toNat / Nat.pow 2 52 % Nat.pow 2 11 := by
  simp [unpackExponent, BitVec.extractLsb, Nat.shiftRight_eq_div_pow]

theorem toNat_unpackMantissa : (unpackMantissa b).toNat = b.toNat % Nat.pow 2 52 := by
  simp [unpackMantissa, BitVec.extractLsb]

theorem toNat_unpackSign : (unpackSign b).toNat = b.toNat / Nat.pow 2 63 := by
  have hb : b.toNat < 2 ^ 64 := b.isLt
  simp [unpackSign, BitVec.extractLsb, Nat.shiftRight_eq_div_pow]
  omega

theorem toNat_append {v w : Nat} (a : BitVec v) (b : BitVec w) :
    (a ++ b).toNat = a.toNat * 2 ^ w + b.toNat := by
  rw [BitVec.toNat_append, ← Nat.shiftLeft_add_eq_or_of_lt b.isLt, Nat.shiftLeft_eq]

/-- The mantissa is stored without its leading one. -/
theorem toNat_hidden (m : BitVec 52) : (1#1 ++ m).toNat = 2 ^ 52 + m.toNat := by
  rw [toNat_append, BitVec.toNat_ofNat]
  omega

theorem ofBitVec_eq_negative_iff {b : BitVec 1} :
    UnpackedFloat.Sign.ofBitVec b = .negative ↔ 1 ≤ b.toNat := by
  rw [UnpackedFloat.Sign.ofBitVec, Nat.one_le_iff_ne_zero]
  split_ifs with h
  · simp [h]
  · exact iff_of_true rfl fun h0 => h (BitVec.eq_of_toNat_eq h0)

theorem ofBitVec_unpackSign_packComponents (s : UnpackedFloat.Sign) (exponent : BitVec 11)
    (mantissa : BitVec 52) :
    UnpackedFloat.Sign.ofBitVec
      (unpackSign (packComponents Format.binary64 s exponent mantissa)) = s := by
  have hsign : unpackSign (packComponents Format.binary64 s exponent mantissa) = s.toBitVec := by
    apply BitVec.eq_of_toNat_eq
    rw [toNat_unpackSign, packComponents, toNat_append, toNat_append, Nat.pow_eq]
    omega
  rw [hsign]
  cases s <;> rfl

end Bits

/-! ## What the parts are read off from -/

section Reading

variable {x y : Float} {s : UnpackedFloat.Sign} {m : Nat} {e : Int}

theorem HasParts.mantissa_pos (h : HasParts x s m e) : 0 < m := by
  obtain ⟨hm, -⟩ := h
  exact hm

theorem HasParts.isNegative_iff (h : HasParts x s m e) : isNegative x = true ↔ s = .negative := by
  obtain ⟨hm, h⟩ := h
  have hs : UnpackedFloat.Sign.ofBitVec (@unpackSign Format.binary64 x.toBits.toBitVec) = s := by
    change UnpackedFloat.unpack Format.binary64 x.toBits.toBitVec = _ at h
    rw [UnpackedFloat.unpack] at h
    split_ifs at h <;> injection h
  rw [← hs, ofBitVec_eq_negative_iff, toNat_unpackSign, isNegative, decide_eq_true_iff,
    Nat.le_div_iff_mul_le (by decide), one_mul]
  rfl

/-- The least exponent comes without a hidden one in front of the mantissa, all others with it. -/
theorem HasParts.bits (h : HasParts x s m e) :
    (x.toBits.toNat / Nat.pow 2 52 % Nat.pow 2 11 = 0 ∧ m = x.toBits.toNat % Nat.pow 2 52 ∧
      e = -1074) ∨
    ((x.toBits.toNat / Nat.pow 2 52 % Nat.pow 2 11 ≠ 0 ∧
      x.toBits.toNat / Nat.pow 2 52 % Nat.pow 2 11 ≠ 2047) ∧
      m = 2 ^ 52 + x.toBits.toNat % Nat.pow 2 52 ∧
      e = (x.toBits.toNat / Nat.pow 2 52 % Nat.pow 2 11 : Nat) - 1075) := by
  obtain ⟨hm, h⟩ := h
  change UnpackedFloat.unpack Format.binary64 x.toBits.toBitVec = _ at h
  have hexp := toNat_unpackExponent x.toBits.toBitVec
  have hman := toNat_unpackMantissa x.toBits.toBitVec
  rw [UInt64.toNat_toBitVec] at hexp hman
  rw [← hexp, ← hman]
  rw [UnpackedFloat.unpack] at h
  split_ifs at h with hi hmi hz hmz
  · injection h with _ hm he
    refine .inl ⟨by rw [hz]; rfl, hm.symm, ?_⟩
    rw [← he, hz]
    rfl
  · injection h with _ hm he
    refine .inr ⟨⟨fun h0 => hz (BitVec.eq_of_toNat_eq h0),
      fun h1 => hi (BitVec.eq_of_toNat_eq h1)⟩, ?_, ?_⟩
    · rw [← hm, toNat_hidden]
    · rw [← he]
      rfl

theorem HasParts.magnitude (h : HasParts x s m e) :
    (ofFloat x).mantissa = m ∧ (ofFloat x).exponent = e := by
  unfold Binary.ofFloat
  rcases h.bits with ⟨he, rfl, rfl⟩ | ⟨he, rfl, rfl⟩
  · simp only [he, if_true, and_self]
  · simp only [if_neg he.1, Nat.pow_eq, and_self]

/-- **The parts determine the number.** -/
theorem HasParts.unique (hx : HasParts x s m e) (hy : HasParts y s m e) : x = y := by
  have hbits : x.toBits.toNat = y.toBits.toNat := by
    have hsign : isNegative x = isNegative y :=
      Bool.eq_iff_iff.2 (hx.isNegative_iff.trans hy.isNegative_iff.symm)
    rw [isNegative, isNegative, decide_eq_decide] at hsign
    have hxlt : x.toBits.toNat < 2 ^ 64 := x.toBits.toNat_lt
    have hylt : y.toBits.toNat < 2 ^ 64 := y.toBits.toNat_lt
    have h := hx.bits
    have h' := hy.bits
    simp only [Nat.pow_eq] at h h' hsign
    omega
  obtain ⟨⟨bits, _⟩⟩ := x
  obtain ⟨⟨bits', _⟩⟩ := y
  obtain rfl : bits = bits' := UInt64.toNat_inj.1 hbits
  rfl

theorem HasParts.mantissa_lt (h : HasParts x s m e) : m < 2 ^ 53 := by
  rcases h.bits with ⟨-, rfl, -⟩ | ⟨-, rfl, -⟩ <;> rw [Nat.pow_eq] <;> omega

theorem HasParts.le_mantissa (h : HasParts x s m e) (he : e ≠ -1074) : 2 ^ 52 ≤ m := by
  rcases h.bits with ⟨-, -, rfl⟩ | ⟨-, rfl, -⟩
  · exact absurd rfl he
  · exact Nat.le_add_right _ _

theorem HasParts.exponent_mem (h : HasParts x s m e) : -1074 ≤ e ∧ e ≤ 971 := by
  rcases h.bits with ⟨-, -, rfl⟩ | ⟨he, -, rfl⟩
  · decide
  · rw [Nat.pow_eq, Nat.pow_eq] at he ⊢
    omega

theorem HasParts.isFinite (h : HasParts x s m e) : x.isFinite = true := by
  obtain ⟨_, h⟩ := h
  change x.toModel.unpack.isFinite = true
  rw [h]
  rfl

/-- A finite number is a zero, or else it has a sign and a magnitude. -/
theorem zero_or_hasParts (h : x.isFinite = true) :
    (∃ s, x.toModel.unpack = .zero s) ∨ ∃ s m e, HasParts x s m e := by
  change x.toModel.unpack.isFinite = true at h
  cases hx : x.toModel.unpack with
  | infinity | notANumber => rw [hx] at h; cases h
  | zero s => exact .inl ⟨s, rfl⟩
  | finite s m e hm => exact .inr ⟨s, m, e, hm, hx⟩

theorem isNaN_isInf_of_isFinite (h : x.isFinite = true) : x.isNaN = false ∧ x.isInf = false := by
  change x.toModel.unpack.isFinite = true at h
  change x.toModel.unpack.isNaN = false ∧ x.toModel.unpack.isInf = false
  cases hx : x.toModel.unpack with
  | infinity | notANumber => rw [hx] at h; cases h
  | zero | finite => exact ⟨rfl, rfl⟩

theorem mantissa_of_zero (h : x.toModel.unpack = .zero s) : (ofFloat x).mantissa = 0 := by
  change UnpackedFloat.unpack Format.binary64 x.toBits.toBitVec = _ at h
  have hexp := toNat_unpackExponent x.toBits.toBitVec
  have hman := toNat_unpackMantissa x.toBits.toBitVec
  rw [UInt64.toNat_toBitVec] at hexp hman
  rw [UnpackedFloat.unpack] at h
  split_ifs at h with hi hmi hz hmz
  rw [hz, BitVec.toNat_zero] at hexp
  rw [hmz, BitVec.toNat_zero] at hman
  rw [Binary.ofFloat, if_pos hexp.symm]
  exact hman.symm

end Reading

/-! ## Rounding and storing -/

section Rounding

variable {x y : Float} {s : UnpackedFloat.Sign} {m m' : Nat} {e e' : Int}

theorem log2_mul_two_pow (hm : m ≠ 0) (k : Nat) : (m * 2 ^ k).log2 = m.log2 + k := by
  obtain ⟨hle, hlt⟩ := (Nat.log2_eq_iff hm).1 rfl
  refine (Nat.log2_eq_iff (by positivity)).2 ⟨?_, ?_⟩
  · rw [Nat.pow_add]
    exact Nat.mul_le_mul_right _ hle
  · rw [Nat.add_right_comm, Nat.pow_add]
    exact Nat.mul_lt_mul_of_pos_right hlt (by positivity)

theorem shiftRight_mul_two_pow (m k : Nat) :
    (⟨m * 2 ^ k, false, false⟩ : ExtendedMantissa) >>> k = ⟨m, false, false⟩ := by
  change k.repeat ExtendedMantissa.shiftRightOne _ = _
  induction k generalizing m with
  | zero => simp [Nat.repeat]
  | succ k ih =>
    rw [Nat.repeat, show m * 2 ^ (k + 1) = m * 2 * 2 ^ k by ring, ih]
    simp [ExtendedMantissa.shiftRightOne]

theorem targetExponent_eq (m : Nat) (e : Int) :
    Format.binary64.targetExponent (totalExponent m e) = max (m.log2 + e - 52) (-1074) := by
  rw [totalExponent, Format.targetExponent, show Format.binary64.mantissaBits = 53 from rfl,
    show Format.binary64.minExponent = -1074 from rfl]
  omega

/-- Of a mantissa of 53 bits with zeros behind it only the zeros are shifted out. -/
theorem shiftToTargetExponent_normal (hm : m.log2 = 52) (he : -1074 ≤ e) (k : Nat) :
    shiftToTargetExponent Format.binary64 (m * 2 ^ k) (e - k) .exact = (⟨m, false, false⟩, e) := by
  have htarget : Format.binary64.targetExponent (totalExponent (m * 2 ^ k) (e - k)) = e := by
    rw [targetExponent_eq, log2_mul_two_pow (by rintro rfl; cases hm), hm]
    omega
  rw [shiftToTargetExponent, htarget, shiftToExponent, show (e - (e - k)).toNat = k by omega,
    sub_add_cancel]
  exact congrArg (·, e) (shiftRight_mul_two_pow m k)

theorem roundWithAccuracy_normal (s : UnpackedFloat.Sign) (hm : m.log2 = 52) (he : -1074 ≤ e)
    (k : Nat) :
    ∃ h, roundWithAccuracy Format.binary64 s (m * 2 ^ k) (e - k) .exact = .finite s m e h := by
  have hfirst := shiftToTargetExponent_normal hm he k
  have hsecond := shiftToTargetExponent_normal hm he 0
  rw [pow_zero, mul_one, Nat.cast_zero, sub_zero] at hsecond
  have hpos : m ≠ 0 := by rintro rfl; cases hm
  have hrounded : (⟨m, false, false⟩ : ExtendedMantissa).roundedMantissa = m := rfl
  refine ⟨by omega, ?_⟩
  rw [roundWithAccuracy, hfirst]
  simp only [hrounded, hsecond, dif_neg hpos]

/-- A mantissa of 53 bits is stored, and read off again. -/
theorem hasParts_pack (s : UnpackedFloat.Sign) (h : 0 < m) (hm : m.log2 = 52) (he : -1074 ≤ e)
    (he' : e ≤ 971) : HasParts ⟨Float.Model.pack (.finite s m e h)⟩ s m e := by
  obtain ⟨hle, hlt⟩ := (Nat.log2_eq_iff (by omega)).1 hm
  have hbiased : (e + (Format.binary64.exponentBias : Int) + (52 : Nat)).toNat =
      (e + 1075).toNat := by
    rw [show Format.binary64.exponentBias = 1023 from rfl]
    omega
  have hpack : UnpackedFloat.pack Format.binary64 (.finite s m e h) =
      packComponents Format.binary64 s (BitVec.ofNat 11 (e + 1075).toNat) (BitVec.ofNat 52 m) := by
    simp only [UnpackedFloat.pack, hbiased]
    rw [if_neg (by omega), if_pos (by rw [hm]; rfl)]
  have hexp : (BitVec.ofNat 11 (e + 1075).toNat).toNat = (e + 1075).toNat := by
    rw [BitVec.toNat_ofNat]
    exact Nat.mod_eq_of_lt (by omega)
  have hman : (1#1 ++ BitVec.ofNat 52 m).toNat = m := by
    rw [toNat_hidden, BitVec.toNat_ofNat]
    omega
  -- the exponent is neither that of infinities nor that of zeros
  have hfull : BitVec.ofNat 11 (e + 1075).toNat ≠ -1#11 := fun h => by
    have := congrArg BitVec.toNat h
    rw [hexp, show (-1#11).toNat = 2047 from rfl] at this
    omega
  have hzero : BitVec.ofNat 11 (e + 1075).toNat ≠ 0#11 := fun h => by
    have := congrArg BitVec.toNat h
    rw [hexp, show (0#11).toNat = 0 from rfl] at this
    omega
  refine ⟨h, ?_⟩
  change UnpackedFloat.unpack Format.binary64 (UnpackedFloat.pack Format.binary64 _) = _
  rw [hpack, UnpackedFloat.unpack]
  simp only [unpackExponent_packComponents, unpackMantissa_packComponents]
  rw [if_neg hfull, if_neg hzero]
  congr 1
  · exact ofBitVec_unpackSign_packComponents s _ _
  · rw [hexp, show Format.binary64.exponentBias = 1023 from rfl]
    omega

section Normal

variable (hm : m.log2 = 52) (he : -1074 ≤ e) (he' : e ≤ 971)

include hm he he'

theorem HasParts.neg (h : HasParts x s m e) : HasParts (-x) (-s) m e := by
  obtain ⟨hpos, h⟩ := h
  have hneg : -x = ⟨Float.Model.pack (.finite (-s) m e hpos)⟩ := by
    change (⟨Float.Model.pack (UnpackedFloat.neg _)⟩ : Float) = _
    rw [h]
    rfl
  rw [hneg]
  exact hasParts_pack (-s) hpos hm he he'

theorem HasParts.abs (h : HasParts x s m e) : HasParts x.abs .positive m e := by
  obtain ⟨hpos, h⟩ := h
  have habs : x.abs = ⟨Float.Model.pack (.finite .positive m e hpos)⟩ := by
    change (⟨Float.Model.pack (UnpackedFloat.abs _)⟩ : Float) = _
    rw [h]
    rfl
  rw [habs]
  exact hasParts_pack .positive hpos hm he he'

/-- A product with one is rounded to what it was. -/
theorem HasParts.mul_one (h : HasParts x .positive m e) :
    HasParts (x * Float.ofBits 0x3FF0000000000000) .positive m e := by
  obtain ⟨hpos, hround⟩ := roundWithAccuracy_normal .positive hm he 52
  obtain ⟨_, h⟩ := h
  have hone : (Float.ofBits 0x3FF0000000000000).toModel.unpack =
      .finite .positive (2 ^ 52) (-52) (by decide) := rfl
  have hmul : x * Float.ofBits 0x3FF0000000000000 =
      ⟨Float.Model.pack (.finite .positive m e hpos)⟩ := by
    rw [← hround]
    change (⟨Float.Model.pack (UnpackedFloat.mul _ _ _)⟩ : Float) = _
    rw [h, hone]
    rfl
  rw [hmul]
  exact hasParts_pack .positive hpos hm he he'

end Normal

theorem HasParts.lt_iff (hx : HasParts x .positive m e) (hy : HasParts y .positive m' e') :
    x < y ↔ e < e' ∨ e = e' ∧ m < m' := by
  obtain ⟨_, hx⟩ := hx
  obtain ⟨_, hy⟩ := hy
  change decide (x.toModel.unpack.lt y.toModel.unpack = true) = true ↔ _
  rw [hx, hy, decide_eq_true_iff, UnpackedFloat.lt, beq_iff_eq]
  change some ((compare e e').then (compare m m')) = some .lt ↔ _
  rw [Option.some_inj, Ordering.then_eq_lt, compare_lt_iff_lt, compare_lt_iff_lt, compare_eq_iff_eq]

theorem beq_zero_of_zero (h : x.toModel.unpack = .zero s) : (x == 0) = true := by
  change x.toModel.unpack.beq (.zero .positive) = true
  rw [h]
  rfl

theorem HasParts.beq_zero (h : HasParts x s m e) : (x == 0) = false := by
  obtain ⟨_, h⟩ := h
  change x.toModel.unpack.beq (.zero .positive) = false
  rw [h]
  cases s <;> rfl

end Rounding

/-! ## Natural numbers -/

section Nat

variable {n : Nat} (hn : n ≠ 0) (hlt : n < 2 ^ 53)

include hn hlt

theorem log2_lt_of_lt : n.log2 < 53 := (Nat.log2_lt hn).2 hlt

/-- The mantissa is filled up to 53 bits. -/
theorem log2_filled : (n * 2 ^ (52 - n.log2)).log2 = 52 := by
  have hlog := log2_lt_of_lt hn hlt
  rw [log2_mul_two_pow hn]
  omega

theorem ofNat_normal : ∃ h, UnpackedFloat.ofNat Format.binary64 n =
    .finite .positive (n * 2 ^ (52 - n.log2)) (n.log2 - 52) h := by
  have hlog := log2_lt_of_lt hn hlt
  have htarget : Format.binary64.targetExponent (totalExponent n 0) = n.log2 - 52 := by
    rw [targetExponent_eq]
    omega
  obtain ⟨h, hround⟩ :=
    roundWithAccuracy_normal (e := n.log2 - 52) .positive (log2_filled hn hlt) (by omega) 0
  rw [pow_zero, mul_one, Nat.cast_zero, sub_zero] at hround
  have hcompare : compare (n : Int) 0 = .gt := by
    rw [compare_gt_iff_gt]
    omega
  refine ⟨h, ?_⟩
  rw [UnpackedFloat.ofNat, UnpackedFloat.ofInt, UnpackedFloat.normalize, hcompare]
  simp only [UnpackedFloat.round, Int.toNat_natCast, htarget, decreaseExponent]
  rw [show (0 - ((n.log2 : Int) - 52)).toNat = 52 - n.log2 by omega, Nat.shiftLeft_eq,
    show (0 : Int) - (52 - n.log2 : Nat) = n.log2 - 52 by omega]
  exact hround

/-- **A natural number below `2 ^ 53` is a floating-point number exactly.** -/
theorem hasParts_ofNat :
    HasParts (Float.ofNat n) .positive (n * 2 ^ (52 - n.log2)) (n.log2 - 52) := by
  have hlog := log2_lt_of_lt hn hlt
  have hm := log2_filled hn hlt
  obtain ⟨h, hround⟩ := ofNat_normal hn hlt
  have hword : n.toUInt64.toFloat = ⟨Float.Model.pack (UnpackedFloat.ofNat Format.binary64 n)⟩ := by
    have htoNat : n.toUInt64.toNat = n := by
      rw [Nat.toUInt64, UInt64.toNat_ofNat']
      exact Nat.mod_eq_of_lt (by omega)
    rw [UInt64.toFloat, Float.Model.ofUInt64, UnpackedFloat.ofUInt64, htoNat]
  have hnat : Float.ofNat n = n.toUInt64.toFloat * Float.ofBits 0x3FF0000000000000 := by
    change Float.ofScientific n false 0 = _
    rw [Float.ofScientific, dif_pos ⟨hlt, by decide⟩]
    rfl
  rw [hnat]
  refine HasParts.mul_one hm (by omega) (by omega) ?_
  rw [hword, hround]
  exact hasParts_pack .positive h hm (by omega) (by omega)

end Nat

end Stencil.Binary
