import Mathlib
import SentenceWalk.Grammar

/-!
Floating-point numbers that are not negative: sums and products of them are numbers again, and not
negative. The arithmetic is that of the logical model of `Float`, which unpacks a number into sign,
mantissa and exponent, calculates, rounds and packs the result again.
-/

namespace SentenceWalk

open Float.Model UnpackedFloat

def IsNonneg : UnpackedFloat → Prop
  | .notANumber => False
  | .infinity sign => sign = .positive
  | .zero _ => True
  | .finite sign .. => sign = .positive

theorem nonneg_iff {number : Float} : 0 ≤ number ↔ IsNonneg number.toModel.unpack := by
  have hle : 0 ≤ number ↔ UnpackedFloat.le (.zero .positive) number.toModel.unpack = true :=
    decide_eq_true_iff
  rw [hle]
  rcases number.toModel.unpack with sign | _ | _ | sign
  · cases sign <;> simp [UnpackedFloat.le, UnpackedFloat.compare, IsNonneg]
  · simp [UnpackedFloat.le, UnpackedFloat.compare, IsNonneg]
  · simp [UnpackedFloat.le, UnpackedFloat.compare, IsNonneg]
  · cases sign <;> simp [UnpackedFloat.le, UnpackedFloat.compare, IsNonneg]

/-! ### Packing -/

theorem unpack_pack_zero (sign : Sign) : (Float.Model.pack (.zero sign)).unpack = .zero sign :=
  unpack_packedZero

theorem unpack_packComponents (sign : Sign) {exponent : BitVec 11} (mantissa : BitVec 52)
    (h : exponent ≠ -1#11) :
    let unpacked := UnpackedFloat.unpack .binary64 (packComponents .binary64 sign exponent mantissa)
    unpacked.isFinite = true ∧ (sign = .positive → IsNonneg unpacked) := by
  rw [UnpackedFloat.unpack]
  simp only [unpackMantissa_packComponents, unpackExponent_packComponents,
    unpackSign_packComponents, Sign.ofBitVec_toBitVec, if_neg h]
  split
  · split
    · exact ⟨rfl, fun _ => trivial⟩
    · exact ⟨rfl, id⟩
  · exact ⟨rfl, id⟩

/-- A finite number is packed as an infinity if its exponent is too large. -/
theorem unpack_pack_finite (sign : Sign) {m : Nat} (e : Int) (hm : 0 < m) :
    let unpacked := (Float.Model.pack (.finite sign m e hm)).unpack
    (e < 972 → unpacked.isFinite = true) ∧ (sign = .positive → IsNonneg unpacked) := by
  have hunpack : (Float.Model.pack (.finite sign m e hm)).unpack =
      UnpackedFloat.unpack .binary64 (UnpackedFloat.pack .binary64 (.finite sign m e hm)) := rfl
  have hbias : (e + (Format.binary64.exponentBias : Int) +
      (Format.binary64.mantissaBitsWithoutImplicit : Int)).toNat = (e + 1075).toNat := by
    change (e + 1023 + 52).toNat = _
    omega
  rw [hunpack, UnpackedFloat.pack]
  simp only [hbias]
  split
  · rename_i hlarge
    have hlarge : 2048 ≤ (e + 1075).toNat + 1 := hlarge
    refine ⟨fun _ => by omega, ?_⟩
    rintro rfl
    exact rfl
  · rename_i hfits
    have hfits : ¬ 2048 ≤ (e + 1075).toNat + 1 := hfits
    split
    · -- The bias brings the exponent to 2046 at most, and 2047 is the reserved one.
      have hexponent : BitVec.ofNat 11 (e + 1075).toNat ≠ -1#11 := fun hreserved => by
        have hvalue := congrArg BitVec.toNat hreserved
        change (e + 1075).toNat % 2048 = 2047 at hvalue
        omega
      exact (unpack_packComponents sign _ hexponent).imp_left fun hfinite _ => hfinite
    · exact (unpack_packComponents sign _ (by decide)).imp_left fun hfinite _ => hfinite

theorem IsNonneg.unpack_pack {number : UnpackedFloat} (h : IsNonneg number) :
    IsNonneg (Float.Model.pack number).unpack := by
  rcases number with sign | _ | sign | ⟨sign, m, e, hm⟩
  · cases h
    exact rfl
  · exact h
  · rw [unpack_pack_zero]
    trivial
  · exact (unpack_pack_finite sign e hm).2 h

/-! ### Rounding -/

theorem isNonneg_roundWithAccuracy (m : Nat) (e : Int) (accuracy : Accuracy) :
    IsNonneg (roundWithAccuracy .binary64 .positive m e accuracy) := by
  rw [roundWithAccuracy]
  dsimp only
  split
  · trivial
  · exact rfl

theorem isNonneg_normalize {m : Int} (h : 0 ≤ m) (e : Int) :
    IsNonneg (UnpackedFloat.normalize .binary64 m e .positive) := by
  rw [UnpackedFloat.normalize]
  split
  · rename_i hlt
    exact absurd (Int.compare_eq_lt.1 hlt) (by omega)
  · trivial
  · exact isNonneg_roundWithAccuracy _ _ _

theorem mantissa_shiftRight_le (extended : ExtendedMantissa) (shift : Nat) :
    (extended >>> shift).mantissa ≤ extended.mantissa := by
  induction shift with
  | zero => exact Nat.le_refl _
  | succ shift ih =>
    calc (extended >>> (shift + 1)).mantissa = (extended >>> shift).mantissa / 2 := rfl
      _ ≤ (extended >>> shift).mantissa := Nat.div_le_self _ _
      _ ≤ extended.mantissa := ih

theorem roundedMantissa_le (extended : ExtendedMantissa) :
    extended.roundedMantissa ≤ extended.mantissa + 1 := by
  obtain ⟨m, roundBit, stickyBit⟩ := extended
  cases roundBit <;> cases stickyBit <;>
    simp only [ExtendedMantissa.roundedMantissa, ExtendedMantissa.accuracy,
      Accuracy.roundToNearestEven] <;>
    omega

theorem mantissa_shiftToTargetExponent_le (m : Nat) (e : Int) (accuracy : Accuracy) :
    (shiftToTargetExponent .binary64 m e accuracy).1.mantissa ≤ m := by
  refine Nat.le_trans (mantissa_shiftRight_le _ _) ?_
  rcases accuracy with _ | (_ | _ | _) <;> exact Nat.le_refl _

theorem exponent_shiftToTargetExponent (m : Nat) (e : Int) (accuracy : Accuracy) :
    (shiftToTargetExponent .binary64 m e accuracy).2 = max e (max (m.log2 + e - 52) (-1074)) := by
  change e + ((max ((m.log2 : Int) + 1 + e - 53) (-1074) - e).toNat : Int) = _
  omega

theorem log2_le {n bits : Nat} (h : n < 2 ^ bits) : n.log2 ≤ bits := by
  rcases Nat.eq_zero_or_pos n with rfl | hpos
  · exact Nat.zero_le _
  · exact Nat.le_of_lt ((Nat.log2_lt (Nat.ne_of_gt hpos)).2 h)

/-- Rounding a mantissa of up to 200 bits leaves the exponent far below the largest one. -/
theorem isFinite_pack_roundWithAccuracy (sign : Sign) {m : Nat} {e : Int} (accuracy : Accuracy)
    (hm : m < 2 ^ 200) (he : e ≤ 200) :
    (Float.Model.pack (roundWithAccuracy .binary64 sign m e accuracy)).unpack.isFinite = true := by
  have hmantissa := mantissa_shiftToTargetExponent_le m e accuracy
  have hexponent := exponent_shiftToTargetExponent m e accuracy
  rw [roundWithAccuracy]
  generalize shiftToTargetExponent .binary64 m e accuracy = first at hmantissa hexponent
  obtain ⟨extended, e'⟩ := first
  dsimp only at hmantissa hexponent ⊢
  have hlog : m.log2 ≤ 200 := log2_le hm
  have hlog' : extended.roundedMantissa.log2 ≤ 201 := by
    have hrounded := roundedMantissa_le extended
    exact log2_le (by omega)
  split
  · rw [unpack_pack_zero]
    rfl
  · refine (unpack_pack_finite sign _ _).1 ?_
    rw [exponent_shiftToTargetExponent]
    omega

/-! ### Arithmetic -/

theorem IsNonneg.add {left right : UnpackedFloat} (hleft : IsNonneg left)
    (hright : IsNonneg right) : IsNonneg (left.add .binary64 right) := by
  rcases left with sign | _ | sign | ⟨sign, m, e, hm⟩
  · cases hleft
    rcases right with sign' | _ | _ | _
    · cases hright
      exact rfl
    · exact hright
    · exact rfl
    · exact rfl
  · exact hleft.elim
  · rcases right with _ | _ | sign' | _
    · exact hright
    · exact hright
    · cases sign <;> cases sign' <;> trivial
    · exact hright
  · cases hleft
    rcases right with _ | _ | _ | ⟨sign', m', e', hm'⟩
    · exact hright
    · exact hright
    · exact rfl
    · cases hright
      exact isNonneg_normalize (Int.add_nonneg (Int.natCast_nonneg _) (Int.natCast_nonneg _)) _

theorem IsNonneg.mul {left right : UnpackedFloat} (hleft : IsNonneg left)
    (hright : IsNonneg right) (hleftFinite : left.isFinite = true)
    (hrightFinite : right.isFinite = true) : IsNonneg (left.mul .binary64 right) := by
  rcases left with _ | _ | _ | ⟨sign, m, e, hm⟩
  · cases hleftFinite
  · cases hleftFinite
  · rcases right with _ | _ | _ | _
    · cases hrightFinite
    · cases hrightFinite
    · trivial
    · trivial
  · cases hleft
    rcases right with _ | _ | _ | ⟨sign', m', e', hm'⟩
    · cases hrightFinite
    · cases hrightFinite
    · trivial
    · cases hright
      exact isNonneg_roundWithAccuracy _ _ _

/-! ### Numbers -/

def IsAmount (number : Float) : Prop :=
  number.toModel.unpack.isFinite = true ∧ IsNonneg number.toModel.unpack

theorem isAmount_of_isWeight {weight : Float} (h : isWeight weight = true) : IsAmount weight := by
  rw [isWeight, Bool.and_eq_true, Bool.not_eq_true', decide_eq_false_iff_not] at h
  have hfinite : weight.toModel.unpack.isFinite = true := h.1
  have hlt : ¬ weight.toModel.unpack.lt (.zero .positive) = true :=
    fun hlt => h.2 (decide_eq_true hlt)
  refine ⟨hfinite, ?_⟩
  generalize weight.toModel.unpack = unpacked at hfinite hlt
  rcases unpacked with _ | _ | _ | sign
  · cases hfinite
  · cases hfinite
  · trivial
  · cases sign with
    | positive => exact rfl
    | negative => exact absurd rfl hlt

theorem isAmount_toFloat (number : UInt64) : IsAmount number.toFloat := by
  have hunpack : number.toFloat.toModel.unpack =
      (Float.Model.pack (UnpackedFloat.normalize .binary64 number.toNat 0 .positive)).unpack := rfl
  rw [IsAmount, hunpack]
  refine ⟨?_, (isNonneg_normalize (Int.natCast_nonneg _) 0).unpack_pack⟩
  rw [UnpackedFloat.normalize]
  split
  · rename_i hlt
    exact absurd (Int.compare_eq_lt.1 hlt) (by omega)
  · rfl
  · rw [UnpackedFloat.round, Int.toNat_natCast]
    -- A shift of 52 places at most fills the mantissa.
    let shift := (0 - Format.targetExponent .binary64 (totalExponent number.toNat 0)).toNat
    have hshift : shift ≤ 52 := by
      change (0 - max ((number.toNat.log2 : Int) + 1 + 0 - 53) (-1074)).toNat ≤ 52
      omega
    refine isFinite_pack_roundWithAccuracy .positive .exact ?_ ?_
    · change number.toNat <<< shift < 2 ^ 200
      calc number.toNat <<< shift = number.toNat * 2 ^ shift := Nat.shiftLeft_eq _ _
        _ ≤ number.toNat * 2 ^ 52 := Nat.mul_le_mul_left _ (Nat.pow_le_pow_right (by decide) hshift)
        _ < 2 ^ 200 := by have := number.toNat_lt; omega
    · change 0 - (shift : Int) ≤ 200
      omega

theorem add_nonneg_number {left right : Float} (hleft : 0 ≤ left) (hright : 0 ≤ right) :
    0 ≤ left + right :=
  nonneg_iff.2 ((nonneg_iff.1 hleft).add (nonneg_iff.1 hright)).unpack_pack

theorem IsAmount.nonneg {number : Float} (h : IsAmount number) : 0 ≤ number :=
  nonneg_iff.2 h.2

/-- The product may be infinite, but it is a number that is not negative. -/
theorem IsAmount.mul_nonneg {left right : Float} (hleft : IsAmount left) (hright : IsAmount right) :
    0 ≤ left * right :=
  nonneg_iff.2 (hleft.2.mul hright.2 hleft.1 hright.1).unpack_pack

theorem nonneg_cases {number : Float} (h : 0 ≤ number) :
    ((number == 0) = true ∧ number.isInf = false ∧ ¬ 0 < number) ∨
    ((number == 0) = false ∧ number.isInf = true ∧ number.isFinite = false) ∨
    ((number == 0) = false ∧ number.isInf = false ∧ 0 < number ∧ number.isFinite = true) := by
  have hnonneg := nonneg_iff.1 h
  have hlt : 0 < number ↔ UnpackedFloat.lt (.zero .positive) number.toModel.unpack = true :=
    decide_eq_true_iff
  have hbeq : (number == 0) = number.toModel.unpack.beq (.zero .positive) := rfl
  have hinf : number.isInf = number.toModel.unpack.isInf := rfl
  have hfinite : number.isFinite = number.toModel.unpack.isFinite := rfl
  rw [hlt, hbeq, hinf, hfinite]
  generalize number.toModel.unpack = unpacked at hnonneg
  rcases unpacked with sign | _ | _ | sign
  · cases hnonneg
    exact .inr (.inl ⟨rfl, rfl, rfl⟩)
  · exact hnonneg.elim
  · exact .inl ⟨rfl, rfl, Bool.false_ne_true⟩
  · cases hnonneg
    exact .inr (.inr ⟨rfl, rfl, rfl, rfl⟩)

end SentenceWalk
