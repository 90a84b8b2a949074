/-
The whole number nearest to another that fits into 53 bits and a power of two.

- `roundedBy s n`: how many times `2^s` goes into `n`, to the nearest, and to the even one of two that are equally near.
  `nearestDouble n`: `n` rounded to its first 53 bits.
- `nearestDouble_small`, `nearestDouble_multiple`: what has 53 bits is kept. `nearestDouble_block`: what `nearestDouble` makes
  of a number that is given by its first 53 bits and the rest.
- `nearestDouble_neighbour`: above `2^53` a number shares its nearest double with the one before or behind it, but for half
  of the even numbers up to `2^54`.
- `nearestDouble_unique_iff`: the numbers of 64 bits that share theirs with no other.
-/
import Mathlib.Tactic
import FieldSearch.Decimal.Reading

namespace FieldSearch

/-- how many times `2^s` goes into `n`, to the nearest; of two that are equally near to the even one -/
def roundedBy (s n : ℕ) : ℕ :=
  if 2 * (n % 2 ^ s) < 2 ^ s then n / 2 ^ s
  else if 2 * (n % 2 ^ s) = 2 ^ s then n / 2 ^ s + n / 2 ^ s % 2
  else n / 2 ^ s + 1

/-- the whole number that the double nearest to `n` stands for -/
def nearestDouble (n : ℕ) : ℕ := roundedBy (n.log2 - 52) n * 2 ^ (n.log2 - 52)

/-- the same for a number with sign -/
def nearestDoubleInt (n : ℤ) : ℤ := n.sign * nearestDouble n.natAbs

/-! ## Rounding -/

variable {m s : ℕ}

theorem leading_bounds (h : m.log2 = 52 + s) : 2 ^ 52 ≤ m / 2 ^ s ∧ m / 2 ^ s < 2 ^ 53 := by
  have hm : m ≠ 0 := by
    rintro rfl
    rw [Nat.log2_zero] at h
    omega
  constructor
  · rw [Nat.le_div_iff_mul_le (Nat.two_pow_pos s), ← Nat.pow_add, ← h]
    exact Nat.log2_self_le hm
  · rw [Nat.div_lt_iff_lt_mul (Nat.two_pow_pos s), ← Nat.pow_add, ← Nat.log2_lt hm, h]
    omega

/-- 53 bits of a number round to 53 bits, or to one more than all of them -/
theorem roundedBy_bounds (h : m.log2 = 52 + s) : 2 ^ 52 ≤ roundedBy s m ∧ roundedBy s m ≤ 2 ^ 53 := by
  obtain ⟨hlower, hupper⟩ := leading_bounds h
  unfold roundedBy
  split_ifs <;> omega

theorem log2_mul_two_pow {n : ℕ} (hn : n ≠ 0) (k : ℕ) : (n * 2 ^ k).log2 = n.log2 + k := by
  have hpos : n * 2 ^ k ≠ 0 := Nat.mul_ne_zero hn (Nat.two_pow_pos k).ne'
  rw [Nat.log2_eq_iff hpos]
  constructor
  · rw [pow_add]
    exact Nat.mul_le_mul_right _ (Nat.log2_self_le hn)
  · rw [Nat.add_right_comm, pow_add]
    exact Nat.mul_lt_mul_of_pos_right Nat.lt_log2_self (Nat.two_pow_pos k)

/-- zeros behind a number change nothing about its rounding -/
theorem roundedBy_scale (s n k : ℕ) : roundedBy (s + k) (n * 2 ^ k) = roundedBy s n := by
  have hk : 0 < 2 ^ k := Nat.two_pow_pos k
  have hmod : n * 2 ^ k % 2 ^ (s + k) = n % 2 ^ s * 2 ^ k := by rw [pow_add, Nat.mul_mod_mul_right]
  have hdiv : n * 2 ^ k / 2 ^ (s + k) = n / 2 ^ s := by rw [pow_add, Nat.mul_div_mul_right _ _ hk]
  have hlt : 2 * (n % 2 ^ s * 2 ^ k) < 2 ^ (s + k) ↔ 2 * (n % 2 ^ s) < 2 ^ s := by
    rw [pow_add, ← mul_assoc]
    exact Nat.mul_lt_mul_right hk
  have heq : 2 * (n % 2 ^ s * 2 ^ k) = 2 ^ (s + k) ↔ 2 * (n % 2 ^ s) = 2 ^ s := by
    rw [pow_add, ← mul_assoc]
    exact Nat.mul_left_inj hk.ne'
  simp only [roundedBy, hmod, hdiv, hlt, heq]

theorem roundedBy_zero (n : ℕ) : roundedBy 0 n = n := by
  rw [roundedBy, pow_zero, Nat.mod_one, if_pos (by decide), Nat.div_one]

theorem nearestDouble_small {n : ℕ} (h : n < 2 ^ 53) : nearestDouble n = n := by
  have hlog : n.log2 - 52 = 0 := by
    rcases Nat.eq_zero_or_pos n with rfl | hpos
    · rfl
    · have := (Nat.log2_lt hpos.ne').2 h
      omega
  rw [nearestDouble, hlog, roundedBy, pow_zero, Nat.mod_one, if_pos (by decide), Nat.div_one, mul_one]

theorem nearestDouble_le {n : ℕ} (h : n < 2 ^ 64) : nearestDouble n ≤ 2 ^ 64 := by
  rcases Nat.lt_or_ge n (2 ^ 53) with hsmall | hlarge
  · rw [nearestDouble_small hsmall]
    exact h.le
  · have hlog : n.log2 < 64 := (Nat.log2_lt (by omega)).2 h
    have hlog' : 52 ≤ n.log2 := (Nat.le_log2 (by omega)).2 (by omega)
    calc nearestDouble n ≤ 2 ^ 53 * 2 ^ (n.log2 - 52) := Nat.mul_le_mul_right _ (roundedBy_bounds (by omega)).2
      _ ≤ 2 ^ 53 * 2 ^ 11 := Nat.mul_le_mul_left _ (Nat.pow_le_pow_right (by decide) (by omega))
      _ = 2 ^ 64 := rfl

/-! ## Numbers with the same nearest double -/

theorem nearestDouble_large {n k : ℕ} (h : 2 ^ (52 + k) ≤ n) : 2 ^ (52 + k) ≤ nearestDouble n := by
  have hn : n ≠ 0 := (lt_of_lt_of_le (Nat.two_pow_pos _) h).ne'
  have hlog : 52 + k ≤ n.log2 := (Nat.le_log2 hn).2 h
  calc 2 ^ (52 + k) = 2 ^ 52 * 2 ^ k := pow_add 2 52 k
    _ ≤ roundedBy (n.log2 - 52) n * 2 ^ (n.log2 - 52) :=
      Nat.mul_le_mul (roundedBy_bounds (by omega)).1 (Nat.pow_le_pow_right (by decide) (by omega))

theorem nearestDouble_pos {n : ℕ} (h : 0 < n) : 0 < nearestDouble n := by
  rcases Nat.lt_or_ge n (2 ^ 53) with hsmall | hlarge
  · rwa [nearestDouble_small hsmall]
  · exact lt_of_lt_of_le (by decide) (nearestDouble_large (k := 1) hlarge)

theorem sign_nearestDoubleInt (n : ℤ) : (nearestDoubleInt n).sign = n.sign := by
  by_cases hn : n = 0
  · subst hn; rfl
  · have hpos := nearestDouble_pos (Int.natAbs_pos.2 hn)
    rw [nearestDoubleInt, Int.sign_mul, Int.sign_sign, Int.sign_natCast_of_ne_zero hpos.ne', mul_one]

theorem natAbs_nearestDoubleInt (n : ℤ) : (nearestDoubleInt n).natAbs = nearestDouble n.natAbs := by
  by_cases hn : n = 0
  · subst hn; rfl
  · rw [nearestDoubleInt, Int.natAbs_mul, Int.natAbs_sign_of_ne_zero hn, one_mul, Int.natAbs_natCast]

theorem nearestDoubleInt_inj {m n : ℤ} :
    nearestDoubleInt m = nearestDoubleInt n ↔ m.sign = n.sign ∧ nearestDouble m.natAbs = nearestDouble n.natAbs := by
  constructor
  · intro h
    rw [← sign_nearestDoubleInt m, ← sign_nearestDoubleInt n, ← natAbs_nearestDoubleInt, ← natAbs_nearestDoubleInt, h]
    exact ⟨rfl, rfl⟩
  · rintro ⟨hsign, hdouble⟩
    rw [nearestDoubleInt, nearestDoubleInt, hsign, hdouble]

/-- below `2^53` a number shares its nearest double with no other -/
theorem nearestDouble_small_unique {m n : ℕ} (hn : n < 2 ^ 53) (h : nearestDouble m = nearestDouble n) : m = n := by
  rw [nearestDouble_small hn] at h
  rcases Nat.lt_or_ge m (2 ^ 53) with hsmall | hlarge
  · rwa [nearestDouble_small hsmall] at h
  · have := nearestDouble_large (k := 1) hlarge
    omega

/-- the nearest double of a number given by its first 53 bits and what is behind them -/
theorem nearestDouble_block {q s r : ℕ} (lower : 2 ^ 52 ≤ q) (upper : q < 2 ^ 53) (hr : r < 2 ^ s) :
    nearestDouble (q * 2 ^ s + r) =
      (if 2 * r < 2 ^ s then q else if 2 * r = 2 ^ s then q + q % 2 else q + 1) * 2 ^ s := by
  have hp : 0 < 2 ^ s := Nat.two_pow_pos s
  have hlog : (q * 2 ^ s + r).log2 = 52 + s := by
    refine (Nat.log2_eq_iff (by have := Nat.mul_pos (by omega : 0 < q) hp; omega)).2 ⟨?_, ?_⟩
    · rw [pow_add]
      exact (Nat.mul_le_mul_right _ lower).trans (Nat.le_add_right _ _)
    · calc q * 2 ^ s + r < q * 2 ^ s + 2 ^ s := Nat.add_lt_add_left hr _
        _ = (q + 1) * 2 ^ s := (Nat.succ_mul q _).symm
        _ ≤ 2 ^ 53 * 2 ^ s := Nat.mul_le_mul_right _ upper
        _ = 2 ^ (52 + s + 1) := by rw [← pow_add]; congr 1; omega
  have hdiv : (q * 2 ^ s + r) / 2 ^ s = q := by
    rw [Nat.mul_comm, Nat.mul_add_div hp, Nat.div_eq_of_lt hr, Nat.add_zero]
  have hmod : (q * 2 ^ s + r) % 2 ^ s = r := by
    rw [Nat.mul_comm, Nat.mul_add_mod, Nat.mod_eq_of_lt hr]
  rw [nearestDouble, hlog, Nat.add_sub_cancel_left, roundedBy, hdiv, hmod]

/-- a multiple of a power of two with at most 53 bits in front is its own double -/
theorem nearestDouble_multiple {q s : ℕ} (lower : 2 ^ 52 ≤ q) (upper : q ≤ 2 ^ 53) :
    nearestDouble (q * 2 ^ s) = q * 2 ^ s := by
  have hp : ∀ t, 0 < 2 ^ t := Nat.two_pow_pos
  rcases upper.lt_or_eq with hlt | rfl
  · have hblock := nearestDouble_block (r := 0) lower hlt (hp s)
    rwa [Nat.add_zero, if_pos (hp s)] at hblock
  · have hblock := nearestDouble_block (q := 2 ^ 52) (s := s + 1) (r := 0) le_rfl (by decide) (hp (s + 1))
    rw [Nat.add_zero, if_pos (hp (s + 1))] at hblock
    have hsame : 2 ^ 53 * 2 ^ s = 2 ^ 52 * 2 ^ (s + 1) := by rw [pow_succ 2 52, pow_succ 2 s]; ring
    rw [hsame, hblock]

/-- a number shares its nearest double with the one before or behind it -/
def SharesDouble (n : ℕ) : Prop := nearestDouble (n - 1) = nearestDouble n ∨ nearestDouble (n + 1) = nearestDouble n

theorem nearestDouble_next {q : ℕ} (lower : 2 ^ 52 ≤ q) (upper : q < 2 ^ 53) (s : ℕ) :
    nearestDouble (q * 2 ^ s + 2 ^ s) = (q + 1) * 2 ^ s := by
  rw [← Nat.succ_mul]
  exact nearestDouble_multiple (by omega) upper

/-- one bit is cut off: an odd number goes to the multiple of four beside it, and takes the number behind or before with it -/
theorem shares_one_bit {q r : ℕ} (lower : 2 ^ 52 ≤ q) (upper : q < 2 ^ 53) (hr : r < 2) (hmod : (q * 2 + r) % 4 ≠ 2) :
    SharesDouble (q * 2 + r) := by
  have hblock : ∀ r, r < 2 ^ 1 → nearestDouble (q * 2 ^ 1 + r) = _ := fun _ => nearestDouble_block lower upper
  have hnext := nearestDouble_next lower upper 1
  rw [pow_one] at hblock hnext
  have hzero : nearestDouble (q * 2 + 0) = q * 2 := hblock 0 (by decide)
  have hone : nearestDouble (q * 2 + 1) = (q + q % 2) * 2 := hblock 1 (by decide)
  rcases Nat.mod_two_eq_zero_or_one q with heven | hodd
  · rw [heven, Nat.add_zero] at hone
    obtain rfl | rfl : r = 0 ∨ r = 1 := by omega
    · exact Or.inr (hone.trans hzero.symm)
    · exact Or.inl (hzero.trans hone.symm)
  · rw [hodd] at hone
    obtain rfl : r = 1 := by omega
    exact Or.inr (hnext.trans hone.symm)

/-- more bits are cut off: below the half and above it several numbers in a row go to the same double, and the half goes with
the number before or behind -/
theorem shares_more_bits {q r t : ℕ} (lower : 2 ^ 52 ≤ q) (upper : q < 2 ^ 53) (hr : r < 2 ^ (t + 2)) :
    SharesDouble (q * 2 ^ (t + 2) + r) := by
  have hblock : ∀ r, r < 2 ^ (t + 2) → nearestDouble (q * 2 ^ (t + 2) + r) = _ := fun _ => nearestDouble_block lower upper
  have hnext := nearestDouble_next lower upper (t + 2)
  have hp : 2 ^ (t + 2) = 4 * 2 ^ t := by rw [pow_succ, pow_succ]; ring
  have hpos : 0 < 2 ^ t := Nat.two_pow_pos t
  rw [hp] at hr hblock hnext ⊢
  unfold SharesDouble
  generalize 2 ^ t = g at hr hblock hnext hpos ⊢
  rcases Nat.lt_trichotomy r (2 * g) with hlt | rfl | hgt
  · have hdown : ∀ r, r < 2 * g → nearestDouble (q * (4 * g) + r) = q * (4 * g) := by
      intro r hr
      rw [hblock r (by omega), if_pos (by omega)]
    by_cases hstep : r + 1 < 2 * g
    · exact Or.inr ((hdown (r + 1) hstep).trans (hdown r hlt).symm)
    · have hsub : q * (4 * g) + r - 1 = q * (4 * g) + (r - 1) := by omega
      rw [hsub]
      exact Or.inl ((hdown (r - 1) (by omega)).trans (hdown r hlt).symm)
  · have htie := hblock (2 * g) hr
    rw [if_neg (by omega), if_pos (by omega)] at htie
    rcases Nat.mod_two_eq_zero_or_one q with heven | hodd
    · have hsub : q * (4 * g) + 2 * g - 1 = q * (4 * g) + (2 * g - 1) := by omega
      rw [htie, heven, Nat.add_zero, hsub, hblock (2 * g - 1) (by omega), if_pos (by omega)]
      exact Or.inl rfl
    · have hup := hblock (2 * g + 1) (by omega)
      rw [if_neg (by omega), if_neg (by omega)] at hup
      rw [htie, hodd]
      exact Or.inr hup
  · have hup : ∀ r, 2 * g < r → r < 4 * g → nearestDouble (q * (4 * g) + r) = (q + 1) * (4 * g) := by
      intro r hlow hhigh
      rw [hblock r hhigh, if_neg (by omega), if_neg (by omega)]
    by_cases hstep : 2 * g < r - 1
    · have hsub : q * (4 * g) + r - 1 = q * (4 * g) + (r - 1) := by omega
      rw [hsub]
      exact Or.inl ((hup (r - 1) hstep (by omega)).trans (hup r hgt hr).symm)
    · by_cases hlast : r + 1 < 4 * g
      · exact Or.inr ((hup (r + 1) (by omega) hlast).trans (hup r hgt hr).symm)
      · have hend : q * (4 * g) + r + 1 = q * (4 * g) + 4 * g := by omega
        rw [hend]
        exact Or.inr (hnext.trans (hup r hgt hr).symm)

/-- Above `2^53` a number shares its nearest double with the number before or behind it, unless it leaves 2 when divided by 4
and is below `2^54`. -/
theorem nearestDouble_neighbour {n : ℕ} (h : 2 ^ 53 ≤ n) (h' : n < 2 ^ 54 → n % 4 ≠ 2) : SharesDouble n := by
  have hlog : 53 ≤ n.log2 := (Nat.le_log2 (by omega)).2 h
  obtain ⟨t, ht⟩ : ∃ t, n.log2 = 52 + (t + 1) := ⟨n.log2 - 53, by omega⟩
  obtain ⟨lower, upper⟩ := leading_bounds ht
  -- `q` has the first 53 bits of `n` and `r` the rest, of which there is at least one
  obtain ⟨q, r, hq, hr, hn⟩ : ∃ q r, q = n / 2 ^ (t + 1) ∧ r < 2 ^ (t + 1) ∧ n = q * 2 ^ (t + 1) + r :=
    ⟨_, _, rfl, Nat.mod_lt n (Nat.two_pow_pos _), by rw [Nat.mul_comm, Nat.div_add_mod]⟩
  rw [← hq] at lower upper
  cases t with
  | zero =>
    rw [zero_add, pow_one] at hr hn
    rw [hn] at h' ⊢
    exact shares_one_bit lower upper hr (h' (by omega))
  | succ t =>
    rw [hn]
    exact shares_more_bits lower upper hr

/-- up to `2^54` a number that leaves 2 when divided by 4 shares its nearest double with no other -/
theorem nearestDouble_twice_odd_unique {m n : ℕ} (h : 2 ^ 53 ≤ n) (hlt : n < 2 ^ 54) (hmod : n % 4 = 2)
    (hmn : nearestDouble m = nearestDouble n) : m = n := by
  have hblock : ∀ q r, 2 ^ 52 ≤ q → q < 2 ^ 53 → r < 2 →
      nearestDouble (q * 2 + r) = (if 2 * r < 2 then q else if 2 * r = 2 then q + q % 2 else q + 1) * 2 :=
    fun q r hq hq' hr => nearestDouble_block (s := 1) hq hq' hr
  have hn : nearestDouble n = n := by
    have hsplit : n = n / 2 * 2 + 0 := by omega
    rw [hsplit, hblock (n / 2) 0 (by omega) (by omega) (by decide), if_pos (by decide), Nat.add_zero]
  rw [hn] at hmn
  rcases Nat.lt_or_ge m (2 ^ 53) with hsmall | hlarge
  · rwa [nearestDouble_small hsmall] at hmn
  · rcases Nat.lt_or_ge m (2 ^ 54) with hbelow | habove
    · -- an odd number goes to a multiple of four
      have hsplit : m = m / 2 * 2 + m % 2 := (Nat.div_add_mod' m 2).symm
      rw [hsplit, hblock (m / 2) (m % 2) (by omega) (by omega) (by omega)] at hmn
      split_ifs at hmn <;> omega
    · have := nearestDouble_large (k := 2) habove
      omega

/-- every other number of 63 bits shares its nearest double with one of them -/
theorem exists_same_double {n : ℕ} (h : 2 ^ 53 ≤ n) (h' : n ≤ 2 ^ 63) (hmod : n < 2 ^ 54 → n % 4 ≠ 2) :
    ∃ k, nearestDouble k = nearestDouble n ∧ k ≠ n ∧ 0 < k ∧ k < 2 ^ 63 := by
  by_cases hedge : n = 2 ^ 63 ∨ n = 2 ^ 63 - 1
  · rcases hedge with rfl | rfl
    · exact ⟨2 ^ 63 - 1, by decide +kernel, by decide, by decide, by decide⟩
    · exact ⟨2 ^ 63 - 2, by decide +kernel, by decide, by decide, by decide⟩
  · rcases nearestDouble_neighbour h hmod with heq | heq
    · exact ⟨n - 1, heq, by omega, by omega, by omega⟩
    · exact ⟨n + 1, heq, by omega, by omega, by omega⟩

/-- **A number of 64 bits shares its nearest double with no other one exactly if** it is below `2^53`, or below `2^54` and
leaves 2 when divided by 4, with or without a sign. -/
theorem nearestDouble_unique_iff {n : ℤ} (hmin : int64Min ≤ n) (hmax : n ≤ int64Max) :
    (∀ m, int64Min ≤ m → m ≤ int64Max → nearestDoubleInt m = nearestDoubleInt n → m = n) ↔
      n.natAbs < 2 ^ 53 ∨ n.natAbs < 2 ^ 54 ∧ n % 4 = 2 := by
  unfold int64Min at hmin ⊢
  unfold int64Max at hmax ⊢
  constructor
  · intro h
    by_contra hn
    obtain ⟨hlarge, hmod⟩ : 2 ^ 53 ≤ n.natAbs ∧ (n.natAbs < 2 ^ 54 → n.natAbs % 4 ≠ 2) := by omega
    -- another number in range: the one of the same size as `k` with the sign of `n`
    obtain ⟨k, hk, hne, hrange⟩ := exists_same_double hlarge (by omega) hmod
    rcases lt_trichotomy n 0 with hneg | rfl | hpos
    · have hsign : (-(k : ℤ)).sign = n.sign := by
        rw [Int.sign_eq_neg_one_of_neg hneg, Int.sign_eq_neg_one_of_neg (by omega)]
      have hsame := h (-k) (by omega) (by omega)
        (nearestDoubleInt_inj.2 ⟨hsign, by rwa [Int.natAbs_neg, Int.natAbs_natCast]⟩)
      omega
    · exact absurd hlarge (by decide)
    · have hsign : (k : ℤ).sign = n.sign := by
        rw [Int.sign_eq_one_of_pos hpos, Int.sign_eq_one_of_pos (by omega)]
      have hsame := h k (by omega) (by omega) (nearestDoubleInt_inj.2 ⟨hsign, by rwa [Int.natAbs_natCast]⟩)
      omega
  · intro h m _ _ hmn
    obtain ⟨hsign, hdouble⟩ := nearestDoubleInt_inj.1 hmn
    have habs : m.natAbs = n.natAbs := by
      rcases h with h | ⟨h, hmod⟩
      · exact nearestDouble_small_unique h hdouble
      · by_cases hsmall : n.natAbs < 2 ^ 53
        · exact nearestDouble_small_unique hsmall hdouble
        · exact nearestDouble_twice_odd_unique (by omega) h (by omega) hdouble
    rw [← Int.sign_mul_natAbs m, ← Int.sign_mul_natAbs n, hsign, habs]

end FieldSearch
