/-
Doubles that stand for whole numbers.

- `Shifted m s em`: what an extended mantissa keeps of `m` without its last `s` bits. `shifted`: shifting one bit after the
  other keeps it. `Shifted.rounded`: it is enough to round by.
- `Means u z`: an unpacked double stands for the whole number `z`. `means_round`: so does what rounding gives.
  `Means.unpack_pack`: packing loses nothing of it. `Means.beq_iff`: two of them are equal as doubles exactly if they stand for
  the same number.
- `floatOfNat_small`, `floatOfNat_large`: both ways in which the double nearest to a number is made give one that stands for
  its first 53 bits. `floatOfInt_means`: so does the one nearest to a number with sign.
- `floatOfInt_beq_iff`: two numbers are equal as doubles exactly if they have the same nearest double.
-/
import Mathlib
import FieldSearch.Proofs.Decimal.Nearest

namespace FieldSearch

open Float.Model Float.Model.UnpackedFloat

/-! ## Rounding off bits -/

/-- what an extended mantissa keeps of a number without its last `s` bits: whether these are at least a half of `2^s`, and
whether they are anything but that half and zero -/
structure Shifted (m s : ℕ) (em : ExtendedMantissa) : Prop where
  mantissa : em.mantissa = m / 2 ^ s
  roundBit : em.roundBit = true ↔ 2 ^ s ≤ 2 * (m % 2 ^ s)
  stickyBit : em.stickyBit = true ↔ 2 * (m % 2 ^ s) ≠ 0 ∧ 2 * (m % 2 ^ s) ≠ 2 ^ s

variable {m s : ℕ} {em : ExtendedMantissa}

theorem Shifted.shiftRightOne (h : Shifted m s em) : Shifted m (s + 1) em.shiftRightOne := by
  have hrest : m % 2 ^ s < 2 ^ s := Nat.mod_lt m (Nat.two_pow_pos s)
  have hsplit : m % (2 ^ s * 2) = m % 2 ^ s + 2 ^ s * (m / 2 ^ s % 2) := Nat.mod_mul
  have hround := h.roundBit
  have hsticky := h.stickyBit
  obtain ⟨mantissa, roundBit, stickyBit⟩ := em
  have hmantissa : mantissa = m / 2 ^ s := h.mantissa
  refine ⟨?_, ?_, ?_⟩
  · rw [ExtendedMantissa.shiftRightOne, hmantissa, Nat.pow_succ, Nat.div_div_eq_div_mul]
  · simp only [ExtendedMantissa.shiftRightOne, Nat.pow_succ, hsplit, hmantissa, bne_iff_ne]
    rcases Nat.mod_two_eq_zero_or_one (m / 2 ^ s) with hbit | hbit <;> rw [hbit] <;> omega
  · simp only [ExtendedMantissa.shiftRightOne, Nat.pow_succ, hsplit, Bool.or_eq_true, hround, hsticky]
    rcases Nat.mod_two_eq_zero_or_one (m / 2 ^ s) with hbit | hbit <;> rw [hbit] <;> omega

/-- a mantissa that was exact keeps what rounding needs over any shift -/
theorem shifted (m s : ℕ) : Shifted m s (ExtendedMantissa.ofMantissaAndAccuracy m .exact >>> s) := by
  induction s with
  | zero =>
    have hsame : ExtendedMantissa.ofMantissaAndAccuracy m .exact >>> 0 = ⟨m, false, false⟩ := rfl
    rw [hsame]
    exact ⟨(Nat.div_one m).symm, by simp [Nat.mod_one], by simp [Nat.mod_one]⟩
  | succ s ih => exact ih.shiftRightOne

theorem Shifted.rounded (h : Shifted m s em) : em.roundedMantissa = roundedBy s m := by
  have hround := h.roundBit
  have hsticky := h.stickyBit
  obtain ⟨mantissa, roundBit, stickyBit⟩ := em
  have hmantissa : mantissa = m / 2 ^ s := h.mantissa
  subst hmantissa
  unfold roundedBy
  cases roundBit <;> cases stickyBit <;>
    simp only [Bool.false_eq_true, false_iff, true_iff, not_le, ne_eq, not_and, not_not] at hround hsticky <;>
    simp only [ExtendedMantissa.roundedMantissa, ExtendedMantissa.accuracy, Accuracy.roundToNearestEven] <;>
    split_ifs <;> omega

/-! ## Doubles that stand for whole numbers -/

/-- an unpacked double that is zero, or a significand of 53 bits times a power of two, stands for a whole number -/
inductive Means : UnpackedFloat → ℤ → Prop
  | zero (sign : Sign) : Means (.zero sign) 0
  | finite (sign : Sign) {m k v : ℕ} (positive : 0 < m) (lower : 2 ^ 52 ≤ m) (upper : m < 2 ^ 53)
      (value : m * 2 ^ k = v * 2 ^ 52) : Means (.finite sign m ((k : ℤ) - 52) positive) (sign.apply v)

theorem shift_target {e : ℤ} (h : m.log2 = 52 + s) (he : -1074 ≤ e) :
    shiftToTargetExponent .binary64 m e .exact = (ExtendedMantissa.ofMantissaAndAccuracy m .exact >>> s, e + s) := by
  have htarget : Format.binary64.targetExponent (totalExponent m e) = e + s := by
    simp only [Format.targetExponent, totalExponent, Format.mantissaBits, Format.minExponent]
    norm_num
    omega
  have hamount : (e + (s : ℤ) - e).toNat = s := by omega
  rw [shiftToTargetExponent, htarget, shiftToExponent, hamount]

/-- the double that a significand rounds to, as two shifts make it: the second one takes up a carry -/
theorem roundWithAccuracy_eq {e : ℤ} {t : ℕ} (h : m.log2 = 52 + s) (he : -1074 ≤ e)
    (ht : (roundedBy s m).log2 = 52 + t) (positive : 0 < roundedBy s m / 2 ^ t) :
    roundWithAccuracy .binary64 .positive m e .exact =
      .finite .positive (roundedBy s m / 2 ^ t) (e + s + t) positive := by
  have hfirst := (shifted m s).rounded
  have hsecond := (shifted (roundedBy s m) t).mantissa
  unfold roundWithAccuracy
  simp only [shift_target h he, hfirst, shift_target ht (by omega : -1074 ≤ e + s), hsecond]
  rw [dif_neg positive.ne']

/-- rounding to a double rounds to 53 bits -/
theorem means_round {e : ℤ} {k v : ℕ} (h : m.log2 = 52 + s) (he : e + s = (k : ℤ) - 52)
    (hmin : -1074 ≤ e) (hv : roundedBy s m * 2 ^ k = v * 2 ^ 52) :
    Means (roundWithAccuracy .binary64 .positive m e .exact) v := by
  obtain ⟨hlower, hupper⟩ := roundedBy_bounds h
  rcases hupper.lt_or_eq with hlt | heq
  · have hlog : (roundedBy s m).log2 = 52 + 0 := (Nat.log2_eq_iff (by omega)).2 ⟨hlower, hlt⟩
    have hpos : 0 < roundedBy s m / 2 ^ 0 := by rw [pow_zero, Nat.div_one]; omega
    have hexp : e + s + (0 : ℕ) = (k : ℤ) - 52 := by rw [he, Nat.cast_zero, add_zero]
    rw [roundWithAccuracy_eq h hmin hlog hpos, hexp]
    exact .finite .positive hpos (by rwa [pow_zero, Nat.div_one]) (by rwa [pow_zero, Nat.div_one])
      (by rwa [pow_zero, Nat.div_one])
  · have hlog : (roundedBy s m).log2 = 52 + 1 := by rw [heq, Nat.log2_two_pow]
    have hhalf : roundedBy s m / 2 ^ 1 = 2 ^ 52 := by rw [heq]; rfl
    have hpos : 0 < roundedBy s m / 2 ^ 1 := by rw [hhalf]; exact Nat.two_pow_pos 52
    have hexp : e + s + (1 : ℕ) = ((k + 1 : ℕ) : ℤ) - 52 := by omega
    rw [roundWithAccuracy_eq h hmin hlog hpos, hexp]
    refine .finite .positive hpos hhalf.ge (by rw [hhalf]; norm_num) ?_
    rw [heq] at hv
    rw [hhalf, ← hv, pow_succ 2 k, pow_succ 2 52]
    ring

/-- a number has one significand of 53 bits -/
theorem significand_unique {m k m' k' : ℕ} (hm : 2 ^ 52 ≤ m ∧ m < 2 ^ 53) (hm' : 2 ^ 52 ≤ m' ∧ m' < 2 ^ 53)
    (h : m * 2 ^ k = m' * 2 ^ k') : k = k' ∧ m = m' := by
  have hapart : ∀ {m k m' k' : ℕ}, m < 2 ^ 53 → 2 ^ 52 ≤ m' → k < k' → m * 2 ^ k < m' * 2 ^ k' := by
    intro m k m' k' hupper hlower hlt
    calc m * 2 ^ k < 2 ^ 53 * 2 ^ k := Nat.mul_lt_mul_of_pos_right hupper (Nat.two_pow_pos k)
      _ = 2 ^ 52 * 2 ^ (k + 1) := by rw [pow_succ 2 k, pow_succ 2 52]; ring
      _ ≤ m' * 2 ^ k' := Nat.mul_le_mul hlower (Nat.pow_le_pow_right (by decide) hlt)
  have hk : k = k' := by
    rcases lt_trichotomy k k' with hlt | heq | hgt
    · exact absurd h (hapart hm.2 hm'.1 hlt).ne
    · exact heq
    · exact absurd h (hapart hm'.2 hm.1 hgt).ne'
  subst hk
  exact ⟨rfl, Nat.eq_of_mul_eq_mul_right (Nat.two_pow_pos k) h⟩

/-- a significand of 53 bits stands for a number that is not zero -/
theorem pos_of_significand {m k v : ℕ} (lower : 2 ^ 52 ≤ m) (value : m * 2 ^ k = v * 2 ^ 52) : 0 < v := by
  have hpos : 0 < m * 2 ^ k := Nat.mul_pos (by omega) (Nat.two_pow_pos k)
  rw [value] at hpos
  exact Nat.pos_of_mul_pos_right hpos

/-- exponent and significand are the same exactly for the same number -/
theorem significand_eq_iff {m k v m' k' v' : ℕ} (h : 2 ^ 52 ≤ m ∧ m < 2 ^ 53) (h' : 2 ^ 52 ≤ m' ∧ m' < 2 ^ 53)
    (value : m * 2 ^ k = v * 2 ^ 52) (value' : m' * 2 ^ k' = v' * 2 ^ 52) :
    ((k : ℤ) - 52 = (k' : ℤ) - 52 ∧ m = m') ↔ v = v' := by
  constructor
  · rintro ⟨hk, rfl⟩
    obtain rfl : k = k' := by omega
    exact Nat.eq_of_mul_eq_mul_right (Nat.two_pow_pos 52) (value.symm.trans value')
  · rintro rfl
    obtain ⟨rfl, rfl⟩ := significand_unique h h' (value.trans value'.symm)
    exact ⟨rfl, rfl⟩

/-- two doubles are equal if they stand for the same number -/
theorem Means.beq_iff {u w : UnpackedFloat} {x y : ℤ} (hu : Means u x) (hw : Means w y) : u.beq w = true ↔ x = y := by
  cases hu with
  | zero s =>
    cases hw with
    | zero t => exact iff_of_true rfl rfl
    | @finite t m k v positive lower upper value =>
      have hv := pos_of_significand lower value
      cases t with
      | negative => exact iff_of_false Bool.false_ne_true (by simp only [Sign.apply]; omega)
      | positive => exact iff_of_false Bool.false_ne_true (by simp only [Sign.apply]; omega)
  | @finite s m k v positive lower upper value =>
    have hv := pos_of_significand lower value
    cases hw with
    | zero t =>
      cases s with
      | negative => exact iff_of_false Bool.false_ne_true (by simp only [Sign.apply]; omega)
      | positive => exact iff_of_false Bool.false_ne_true (by simp only [Sign.apply]; omega)
    | @finite t m' k' v' positive' lower' upper' value' =>
      have hv' := pos_of_significand lower' value'
      have hsame := significand_eq_iff ⟨lower, upper⟩ ⟨lower', upper'⟩ value value'
      cases s <;> cases t <;>
        simp only [UnpackedFloat.beq, UnpackedFloat.compare, Sign.apply, beq_iff_eq, Option.some.injEq,
          Ordering.swap_eq_eq, Ordering.then_eq_eq, compare_eq_iff_eq, hsame, reduceCtorEq, false_iff, neg_inj, Nat.cast_inj]
      · omega
      · omega

/-- the exponent field of a number of 64 bits, which is neither that of zero nor that of an infinity -/
theorem exponent_spec {k : ℕ} (hk : k ≤ 64) :
    (BitVec.ofNat 11 (k + 1023)).toNat = k + 1023 ∧ BitVec.ofNat 11 (k + 1023) ≠ 0#11 ∧
      BitVec.ofNat 11 (k + 1023) ≠ -1#11 := by
  have hexponent : (BitVec.ofNat 11 (k + 1023)).toNat = k + 1023 := by
    rw [BitVec.toNat_ofNat, Nat.mod_eq_of_lt (by omega)]
  refine ⟨hexponent, fun h0 => ?_, fun h0 => ?_⟩
  · have hnat := congrArg BitVec.toNat h0
    rw [hexponent] at hnat
    exact absurd hnat (Nat.succ_ne_zero _)
  · have hnat := congrArg BitVec.toNat h0
    rw [hexponent] at hnat
    have hmax : (-1#11).toNat = 2047 := rfl
    omega

/-- the bits of a significand behind the leading one -/
theorem mantissa_spec {m : ℕ} (lower : 2 ^ 52 ≤ m) (upper : m < 2 ^ 53) : (1#1 ++ BitVec.ofNat 52 m).toNat = m := by
  have hbits : (BitVec.ofNat 52 m).toNat = m - 2 ^ 52 := by
    rw [BitVec.toNat_ofNat, Nat.mod_eq_sub_mod lower, Nat.mod_eq_of_lt (by omega)]
  have hone : (1#1).toNat <<< 52 = 2 ^ 52 := rfl
  rw [BitVec.toNat_append, ← Nat.shiftLeft_add_eq_or_of_lt (BitVec.isLt _), hbits, hone]
  omega

/-- packing keeps a normal double -/
theorem unpack_pack_normal (sign : Sign) {m k : ℕ} (positive : 0 < m) (lower : 2 ^ 52 ≤ m) (upper : m < 2 ^ 53)
    (hk : k ≤ 64) :
    (Float.Model.pack (.finite sign m ((k : ℤ) - 52) positive)).unpack = .finite sign m ((k : ℤ) - 52) positive := by
  have hlog : m.log2 = 52 := (Nat.log2_eq_iff (by omega)).2 ⟨lower, upper⟩
  obtain ⟨hexponent, hnonzero, hfinite⟩ := exponent_spec hk
  have hbiased : ((k : ℤ) - 52 + (Format.binary64.exponentBias : ℤ) + (52 : ℕ)).toNat = k + 1023 := by
    have hbias : Format.binary64.exponentBias = 1023 := rfl
    rw [hbias]
    omega
  have hpack : UnpackedFloat.pack .binary64 (.finite sign m ((k : ℤ) - 52) positive) =
      packComponents .binary64 sign (BitVec.ofNat 11 (k + 1023)) (BitVec.ofNat 52 m) := by
    rw [UnpackedFloat.pack]
    simp only [hbiased, hlog]
    have hbitcount : Format.binary64.mantissaBits = 52 + 1 := rfl
    rw [if_neg (by omega), hbitcount, if_pos rfl]
  have hunpack : (Float.Model.pack (.finite sign m ((k : ℤ) - 52) positive)).unpack =
      UnpackedFloat.unpack .binary64 (UnpackedFloat.pack .binary64 (.finite sign m ((k : ℤ) - 52) positive)) := rfl
  rw [hunpack, hpack, UnpackedFloat.unpack]
  have hshown : (k + 1023 : ℕ) - ((Format.binary64.exponentBias : ℤ) + (52 : ℕ)) = (k : ℤ) - 52 := by
    have hbias : Format.binary64.exponentBias = 1023 := rfl
    rw [hbias]
    omega
  rw [if_neg (by rw [unpackExponent_packComponents]; exact hfinite),
    if_neg (by rw [unpackExponent_packComponents]; exact hnonzero)]
  simp only [unpackExponent_packComponents, unpackMantissa_packComponents, unpackSign_packComponents,
    Sign.ofBitVec_toBitVec, mantissa_spec lower upper, hexponent, hshown]

/-- packing keeps a double that stands for a number of 64 bits -/
theorem Means.unpack_pack {u : UnpackedFloat} {z : ℤ} (h : Means u z) (hz : z.natAbs ≤ 2 ^ 64) :
    (Float.Model.pack u).unpack = u := by
  cases h with
  | zero sign => cases sign <;> rfl
  | @finite sign m k v positive lower upper value =>
    have hv : v ≤ 2 ^ 64 := by cases sign <;> simpa [Sign.apply] using hz
    have hle : 2 ^ 52 * 2 ^ k ≤ 2 ^ 52 * 2 ^ 64 := by
      calc 2 ^ 52 * 2 ^ k ≤ m * 2 ^ k := Nat.mul_le_mul_right _ lower
        _ = v * 2 ^ 52 := value
        _ ≤ 2 ^ 64 * 2 ^ 52 := Nat.mul_le_mul_right _ hv
        _ = 2 ^ 52 * 2 ^ 64 := Nat.mul_comm _ _
    have hk : k ≤ 64 := (Nat.pow_le_pow_iff_right (by decide)).1 (Nat.le_of_mul_le_mul_left hle (Nat.two_pow_pos 52))
    exact unpack_pack_normal sign positive lower upper hk

theorem Means.neg {u : UnpackedFloat} {z : ℤ} (h : Means u z) : Means u.neg (-z) := by
  cases h with
  | zero sign => exact .zero (-sign)
  | @finite sign m k v positive lower upper value =>
    have hneg : -sign.apply v = (-sign).apply v := by
      cases sign
      · exact neg_neg _
      · rfl
    rw [hneg]
    exact .finite (-sign) positive lower upper value

/-! ## The double nearest to a whole number -/

/-- from `2^53` on a number is rounded to 53 bits -/
theorem floatOfNat_large {n : ℕ} (h : 2 ^ 53 ≤ n) (hmax : n < 2 ^ 64) :
    Means (floatOfNat n).toModel.unpack (nearestDouble n) := by
  have hn : n ≠ 0 := by omega
  have hlog : 53 ≤ n.log2 := (Nat.le_log2 hn).2 h
  have hslow : (floatOfNat n).toModel = Float.Model.ofScientific n 0 := by
    rw [floatOfNat, Float.ofScientific, dif_neg (by omega)]
    rfl
  have hround : UnpackedFloat.ofScientific .binary64 n 0 =
      roundWithAccuracy .binary64 .positive (n * 2 ^ 53) (-53) .exact := by
    have hwide : (0 : ℤ) < 2 ^ Format.binary64.exponentBits := by positivity
    have hdigits : n <<< Format.binary64.mantissaBits * 10 ^ Int.toNat 0 = n * 2 ^ 53 := by
      rw [Nat.shiftLeft_eq, Int.toNat_zero, pow_zero, mul_one]
      rfl
    rw [UnpackedFloat.ofScientific, dif_neg hn, if_neg (by omega), if_neg (by omega), if_pos le_rfl, UnpackedFloat.mul,
      hdigits]
    rfl
  have hmeans : Means (UnpackedFloat.ofScientific .binary64 n 0) (nearestDouble n) := by
    rw [hround]
    refine means_round (s := n.log2 - 52 + 53) (k := n.log2) ?_ ?_ (by norm_num) ?_
    · rw [log2_mul_two_pow hn]; omega
    · omega
    · rw [roundedBy_scale, nearestDouble, mul_assoc, ← pow_add, Nat.sub_add_cancel (by omega)]
  rw [hslow, Float.Model.ofScientific, hmeans.unpack_pack (by simpa using nearestDouble_le hmax)]
  exact hmeans

/-- a whole number of 53 bits is its own double -/
theorem ofNat_means {n : ℕ} (hpos : 0 < n) (h : n < 2 ^ 53) : Means (UnpackedFloat.ofNat .binary64 n) n := by
  have hlog : n.log2 < 53 := (Nat.log2_lt hpos.ne').2 h
  have hround : UnpackedFloat.ofNat .binary64 n = roundWithAccuracy .binary64 .positive (n * 2 ^ (52 - n.log2))
      ((n.log2 : ℤ) - 52) .exact := by
    have htarget : Format.binary64.targetExponent (totalExponent n 0) = (n.log2 : ℤ) - 52 := by
      simp only [Format.targetExponent, totalExponent, Format.mantissaBits, Format.minExponent]
      norm_num
      omega
    have hamount : (0 - ((n.log2 : ℤ) - 52)).toNat = 52 - n.log2 := by omega
    have hcompare : compare (n : ℤ) 0 = .gt := compare_gt_iff_gt.2 (by exact_mod_cast hpos)
    rw [UnpackedFloat.ofNat, UnpackedFloat.ofInt, UnpackedFloat.normalize, hcompare]
    simp only [Int.toNat_natCast, UnpackedFloat.round, htarget, decreaseExponent, hamount, Nat.shiftLeft_eq]
    congr 1
    omega
  rw [hround]
  refine means_round (s := 0) (k := n.log2) ?_ (by simp) (by omega) ?_
  · rw [log2_mul_two_pow hpos.ne']; omega
  · rw [roundedBy_zero, mul_assoc, ← pow_add, Nat.sub_add_cancel (by omega)]

/-- the double `1.0` -/
theorem unpack_one :
    (Float.Model.ofBits 0x3FF0000000000000).unpack = .finite .positive (2 ^ 52) (-52) (Nat.two_pow_pos 52) := by
  rfl

/-- times one a number stays the same -/
theorem ofNat_mul_one {n : ℕ} (hpos : 0 < n) (h : n < 2 ^ 53) :
    Means (UnpackedFloat.mul .binary64 (UnpackedFloat.ofNat .binary64 n) (Float.Model.ofBits 0x3FF0000000000000).unpack)
      n := by
  have hmeans := ofNat_means hpos h
  rw [unpack_one]
  generalize UnpackedFloat.ofNat .binary64 n = u at hmeans ⊢
  generalize hz : (n : ℤ) = z at hmeans ⊢
  cases hmeans with
  | zero sign => omega
  | @finite sign m k v positive lower upper value =>
    cases sign with
    | negative => simp only [Sign.apply] at hz; omega
    | positive =>
      have hlog : (m * 2 ^ 52).log2 = 52 + 52 := by
        rw [log2_mul_two_pow (by omega), (Nat.log2_eq_iff (by omega)).2 ⟨lower, upper⟩]
      have hexact : roundedBy 52 (m * 2 ^ 52) = m := by
        have hscale := roundedBy_scale 0 m 52
        rwa [Nat.zero_add, roundedBy_zero] at hscale
      refine means_round (k := k) hlog ?_ ?_ ?_
      · norm_num
      · omega
      · rw [hexact]; exact value

/-- below `2^53` a number is its own double, which is multiplied with one -/
theorem floatOfNat_small {n : ℕ} (hpos : 0 < n) (h : n < 2 ^ 53) : Means (floatOfNat n).toModel.unpack n := by
  have hword : n.toUInt64.toNat = n := Nat.mod_eq_of_lt (by omega)
  have hconvert : Float.Model.ofUInt64 n.toUInt64 = Float.Model.ofNat n := by
    rw [Float.Model.ofUInt64, UnpackedFloat.ofUInt64, hword]
    rfl
  have hfast : (floatOfNat n).toModel =
      Float.Model.pack (UnpackedFloat.mul .binary64 (Float.Model.ofNat n).unpack
        (Float.Model.ofBits 0x3FF0000000000000).unpack) := by
    rw [floatOfNat, Float.ofScientific, dif_pos ⟨h, by decide⟩, if_neg (by decide), ← hconvert]
    rfl
  have hbound : (n : ℤ).natAbs ≤ 2 ^ 64 := by omega
  have hmeans := ofNat_mul_one hpos h
  have hpacked : (Float.Model.ofNat n).unpack = UnpackedFloat.ofNat .binary64 n := (ofNat_means hpos h).unpack_pack hbound
  rw [hfast, hpacked, hmeans.unpack_pack hbound]
  exact hmeans

theorem floatOfNat_means {n : ℕ} (h : n < 2 ^ 64) : Means (floatOfNat n).toModel.unpack (nearestDouble n) := by
  rcases Nat.eq_zero_or_pos n with rfl | hpos
  · have hzero : (floatOfNat 0).toModel.unpack = .zero .positive := rfl
    rw [hzero, nearestDouble_small (by decide)]
    exact .zero .positive
  · rcases Nat.lt_or_ge n (2 ^ 53) with hsmall | hlarge
    · rw [nearestDouble_small hsmall]
      exact floatOfNat_small hpos hsmall
    · exact floatOfNat_large hlarge h

/-- the double nearest to a number stands for the nearest of the numbers that doubles stand for -/
theorem floatOfInt_means {n : ℤ} (h : n.natAbs < 2 ^ 64) : Means (floatOfInt n).toModel.unpack (nearestDoubleInt n) := by
  have hmeans := floatOfNat_means h
  unfold floatOfInt
  split_ifs with hneg
  · have hvalue : nearestDoubleInt n = -(nearestDouble n.natAbs : ℤ) := by
      rw [nearestDoubleInt, Int.sign_eq_neg_one_of_neg hneg, neg_one_mul]
    have hbound : (-(nearestDouble n.natAbs : ℤ)).natAbs ≤ 2 ^ 64 := by simpa using nearestDouble_le h
    have hpack : (-floatOfNat n.natAbs).toModel.unpack =
        (Float.Model.pack (floatOfNat n.natAbs).toModel.unpack.neg).unpack := rfl
    rw [hvalue, hpack, hmeans.neg.unpack_pack hbound]
    exact hmeans.neg
  · have hvalue : nearestDoubleInt n = nearestDouble n.natAbs := by
      rcases (not_lt.1 hneg).eq_or_lt with rfl | hpos
      · rfl
      · rw [nearestDoubleInt, Int.sign_eq_one_of_pos hpos, one_mul]
    rw [hvalue]
    exact hmeans

/-- **Two numbers are equal as doubles exactly if they have the same nearest double.** -/
theorem floatOfInt_beq_iff {m n : ℤ} (hm : m.natAbs < 2 ^ 64) (hn : n.natAbs < 2 ^ 64) :
    (floatOfInt m == floatOfInt n) = true ↔ nearestDoubleInt m = nearestDoubleInt n :=
  (floatOfInt_means hm).beq_iff (floatOfInt_means hn)

end FieldSearch
