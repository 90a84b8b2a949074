/-
Whole numbers in digits read back.

- `digitChar_spec`: the digit of a value stands for it, and it is no blank.
- `natOfDigits_digitsOnto`: the digits of a number stand for it in front of whatever digits there are.
- `readInt_writeInt`, `readInt64_writeInt`: a number that was written is read as itself.
-/
import Mathlib.Tactic
import FieldSearch.Decimal.Reading
import FieldSearch.Text.Blank

namespace FieldSearch

theorem digitChar_spec {n : ℕ} (h : n < 10) :
    digitValue (digitChar n) = n ∧ (digitChar n).isDigit = true ∧ isBlank (digitChar n) = false := by
  have hall : ∀ k ∈ List.range 10,
      digitValue (digitChar k) = k ∧ (digitChar k).isDigit = true ∧ isBlank (digitChar k) = false := by decide
  exact hall n (List.mem_range.2 h)

theorem natOfDigits_cons (start : ℕ) (c : Char) (cs : List Char) :
    natOfDigits start (c :: cs) = natOfDigits (10 * start + digitValue c) cs := by
  rw [natOfDigits, List.foldl_cons, natOfDigits]

/-- the digits of a number stand for it in front of whatever digits there are -/
theorem natOfDigits_digitsOnto (n : ℕ) (behind : List Char) :
    natOfDigits 0 (digitsOnto n behind) = natOfDigits n behind := by
  fun_induction digitsOnto n behind with
  | case1 n behind h => rw [natOfDigits_cons, (digitChar_spec h).1, Nat.mul_zero, Nat.zero_add]
  | case2 n behind h ih =>
    rw [ih, natOfDigits_cons, (digitChar_spec (Nat.mod_lt n (by decide))).1, Nat.div_add_mod]

/-- what holds of every digit and of what is behind holds of the digits of a number -/
theorem mem_digitsOnto {P : Char → Prop} (hdigit : ∀ k < 10, P (digitChar k)) (n : ℕ) {behind : List Char}
    (hbehind : ∀ c ∈ behind, P c) : ∀ c ∈ digitsOnto n behind, P c := by
  fun_induction digitsOnto n behind with
  | case1 n behind h => exact List.forall_mem_cons.2 ⟨hdigit n h, hbehind⟩
  | case2 n behind h ih => exact ih (List.forall_mem_cons.2 ⟨hdigit _ (Nat.mod_lt n (by decide)), hbehind⟩)

theorem digitsOnto_ne_nil (n : ℕ) (behind : List Char) : digitsOnto n behind ≠ [] := by
  fun_induction digitsOnto n behind with
  | case1 => exact List.cons_ne_nil _ _
  | case2 _ _ _ ih => exact ih

theorem readNat_digits (n : ℕ) : readNat? (digitsOnto n []) = some n := by
  have hdigits : (digitsOnto n []).all Char.isDigit = true :=
    List.all_eq_true.2 (mem_digitsOnto (fun k hk => (digitChar_spec hk).2.1) n (by simp))
  rw [readNat?, hdigits, natOfDigits_digitsOnto]
  simp [digitsOnto_ne_nil, natOfDigits]

/-- a number that was written is read as itself -/
theorem readInt_writeInt (n : ℤ) : readInt? (writeInt n).toList = some n := by
  unfold writeInt
  split_ifs with hn
  · have hl : ("-" ++ writeNat n.natAbs).toList = '-' :: digitsOnto n.natAbs [] := by simp [writeNat]
    have hneg : -(n.natAbs : ℤ) = n := by omega
    rw [hl, readInt?, if_pos rfl, readNat_digits]
    exact congrArg some hneg
  · have hl : (writeNat n.natAbs).toList = digitsOnto n.natAbs [] := by simp [writeNat]
    rw [hl]
    obtain ⟨c, cs, hc⟩ := List.exists_cons_of_ne_nil (digitsOnto_ne_nil n.natAbs [])
    have hdigit : c.isDigit = true :=
      mem_digitsOnto (P := fun c => c.isDigit = true) (fun k hk => (digitChar_spec hk).2.1) n.natAbs
        (List.forall_mem_nil _) c (by rw [hc]; exact List.mem_cons_self)
    have hminus : c ≠ '-' := by rintro rfl; exact absurd hdigit (by decide)
    have hplus : c ≠ '+' := by rintro rfl; exact absurd hdigit (by decide)
    have hread := readNat_digits n.natAbs
    rw [hc] at hread ⊢
    have hpos : (n.natAbs : ℤ) = n := by omega
    rw [readInt?, if_neg hminus, if_neg hplus, hread]
    exact congrArg some hpos

/-- the digits of a number and its sign are no blanks -/
theorem writeInt_noBlank (n : ℤ) : ∀ c ∈ (writeInt n).toList, isBlank c = false := by
  have hdigits : ∀ c ∈ digitsOnto n.natAbs [], isBlank c = false :=
    mem_digitsOnto (fun k hk => (digitChar_spec hk).2.2) n.natAbs (by simp)
  unfold writeInt
  split_ifs
  · have hl : ("-" ++ writeNat n.natAbs).toList = '-' :: digitsOnto n.natAbs [] := by simp [writeNat]
    rw [hl]
    exact List.forall_mem_cons.2 ⟨by decide, hdigits⟩
  · have hl : (writeNat n.natAbs).toList = digitsOnto n.natAbs [] := by simp [writeNat]
    rw [hl]
    exact hdigits

theorem trim_of_noBlank {s : String} (h : ∀ c ∈ s.toList, isBlank c = false) : trim s = s := by
  have hkeep : ∀ cs : List Char, (∀ c ∈ cs, isBlank c = false) → dropBlanks cs = cs := by
    intro cs hcs
    cases cs with
    | nil => rfl
    | cons c cs => simp [dropBlanks, hcs c List.mem_cons_self]
  have hrev : ∀ c ∈ s.toList.reverse, isBlank c = false := fun c hc => h c (List.mem_reverse.1 hc)
  rw [trim, trimChars, hkeep _ h, hkeep _ hrev, List.reverse_reverse, String.ofList_toList]

/-- a number of 64 bits that was written is read as itself -/
theorem readInt64_writeInt {n : ℤ} (hmin : int64Min ≤ n) (hmax : n ≤ int64Max) :
    readInt64? (trim (writeInt n)) = some n := by
  rw [trim_of_noBlank (writeInt_noBlank n), readInt64?, readInt_writeInt, Option.bind_some, if_pos]
  rw [Bool.and_eq_true, decide_eq_true_iff, decide_eq_true_iff]
  exact ⟨hmin, hmax⟩

end FieldSearch
