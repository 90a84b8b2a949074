/-
Filters on whole numbers, and which of them are exact.

- `coerce_writeInt`: the digits of a number of 64 bits are taken for that number.
- `holds_matching_integer`: a filter on a whole number selects the numbers with the same nearest double. The comparison as
  whole numbers, which stands in front of the one as doubles, decides nothing.
- `integer_filter_exact_iff`: so a filter on `n` is exact if no other number shares the nearest double of `n`, which is so
  below `2^53`, and up to `2^54` for half of the even numbers.
- `integer_filter_confused_ids`: a filter on `2^53` selects the record of the number behind it.
-/
import FieldSearch.Proofs.Decimal.Digits
import FieldSearch.Proofs.Decimal.Doubles
import FieldSearch.Records.Evaluation

namespace FieldSearch

theorem coerce_writeInt {n : ℤ} (hmin : int64Min ≤ n) (hmax : n ≤ int64Max) :
    Constant.coerce (writeInt n) .integer = .integer n := by
  rw [Constant.coerce, readInt64_writeInt hmin hmax]
  rfl

/-- a number is equal to itself as a double, so only the comparison as doubles counts -/
theorem equalsConstant_integer {m n : ℤ} (hm : m.natAbs < 2 ^ 64) (hn : n.natAbs < 2 ^ 64) :
    equalsConstant (.integer n) (.int m) = true ↔ nearestDoubleInt m = nearestDoubleInt n := by
  rw [Json.int, equalsConstant]
  simp only [equalsScalar, Bool.or_eq_true, beq_iff_eq, floatOfInt_beq_iff hm hn]
  exact or_iff_right_of_imp (congrArg nearestDoubleInt)

variable {record : Json} {property : String} {m n : ℤ}

theorem natAbs_lt_of_int64 (hmin : int64Min ≤ n) (hmax : n ≤ int64Max) : n.natAbs < 2 ^ 64 := by
  unfold int64Min at hmin
  unfold int64Max at hmax
  omega

theorem holds_matching_integer (hmin : int64Min ≤ n) (hmax : n ≤ int64Max) (hm : m.natAbs < 2 ^ 64)
    (h : lookup record property = some (.int m)) :
    (Predicate.matching property .integer (writeInt n)).holds record = true ↔ nearestDoubleInt m = nearestDoubleInt n := by
  have hequals : Predicate.matching property .integer (writeInt n) = .equals property (.integer n) := by
    rw [← coerce_writeInt hmin hmax]
    rfl
  rw [hequals, Predicate.holds, h]
  exact equalsConstant_integer hm (natAbs_lt_of_int64 hmin hmax)

theorem holds_notMatching_integer (hmin : int64Min ≤ n) (hmax : n ≤ int64Max) (hm : m.natAbs < 2 ^ 64)
    (h : lookup record property = some (.int m)) :
    (Predicate.notMatching property .integer (writeInt n)).holds record = true ↔
      nearestDoubleInt m ≠ nearestDoubleInt n := by
  have hequals : Predicate.notMatching property .integer (writeInt n) = .notEquals property (.integer n) := by
    rw [← coerce_writeInt hmin hmax]
    rfl
  rw [hequals, Predicate.holds, h, Bool.not_eq_true', ← Bool.not_eq_true]
  exact not_congr (equalsConstant_integer hm (natAbs_lt_of_int64 hmin hmax))

/-- a record that is given by one number -/
def numbered (m : ℤ) : Json := .object [("id", .int m)]

theorem lookup_numbered (m : ℤ) : lookup (numbered m) "id" = some (.int m) := by
  have hkeys : pathKeys "id" = ["id"] := by decide
  rw [lookup, hkeys]
  rfl

/-- **Which filters on whole numbers are exact.** The digits of a number `n` of 64 bits give the constant `n`. The filter on
it selects the records whose number has the same nearest double, and its negation the others. So both are exact for all
records exactly if `n` is below `2^53`, or below `2^54` and leaves 2 when divided by 4, with or without a sign. -/
theorem integer_filter_exact_iff (hmin : int64Min ≤ n) (hmax : n ≤ int64Max) :
    Constant.coerce (writeInt n) .integer = .integer n ∧
      (∀ record property m, int64Min ≤ m → m ≤ int64Max → lookup record property = some (.int m) →
        ((Predicate.matching property .integer (writeInt n)).holds record = true ↔
            nearestDoubleInt m = nearestDoubleInt n) ∧
          ((Predicate.notMatching property .integer (writeInt n)).holds record = true ↔
            nearestDoubleInt m ≠ nearestDoubleInt n)) ∧
      ((∀ record property m, int64Min ≤ m → m ≤ int64Max → lookup record property = some (.int m) →
        ((Predicate.matching property .integer (writeInt n)).holds record = true ↔ m = n) ∧
          ((Predicate.notMatching property .integer (writeInt n)).holds record = true ↔ m ≠ n)) ↔
        n.natAbs < 2 ^ 53 ∨ n.natAbs < 2 ^ 54 ∧ n % 4 = 2) := by
  have hmatch : ∀ record property m, int64Min ≤ m → m ≤ int64Max → lookup record property = some (.int m) → _ :=
    fun record property m hm hm' h => holds_matching_integer hmin hmax (natAbs_lt_of_int64 hm hm') h
  have hnot : ∀ record property m, int64Min ≤ m → m ≤ int64Max → lookup record property = some (.int m) → _ :=
    fun record property m hm hm' h => holds_notMatching_integer hmin hmax
      (natAbs_lt_of_int64 hm hm') h
  refine ⟨coerce_writeInt hmin hmax, fun record property m hm hm' h =>
    ⟨hmatch record property m hm hm' h, hnot record property m hm hm' h⟩, ?_⟩
  rw [← nearestDouble_unique_iff hmin hmax]
  constructor
  · intro hexact m hm hm' hsame
    have hselected := (hmatch (numbered m) "id" m hm hm' (lookup_numbered m)).2 hsame
    exact (hexact (numbered m) "id" m hm hm' (lookup_numbered m)).1.1 hselected
  · intro hunique record property m hm hm' h
    have hiff : nearestDoubleInt m = nearestDoubleInt n ↔ m = n := ⟨hunique m hm hm', congrArg nearestDoubleInt⟩
    rw [hmatch record property m hm hm' h, hnot record property m hm hm' h, Ne, hiff]
    exact ⟨Iff.rfl, Iff.rfl⟩

/-- a filter two above `2^53` is exact: it does not select the number before it -/
theorem integer_filter_exact_ids :
    int64Min ≤ 9007199254740994 ∧ (9007199254740994 : ℤ) ≤ int64Max ∧ writeInt 9007199254740994 = "9007199254740994" ∧
      (Predicate.matching "id" .integer "9007199254740994").holds (numbered 9007199254740994) = true ∧
      (Predicate.matching "id" .integer "9007199254740994").holds (numbered 9007199254740993) = false := by
  have hmin : int64Min ≤ 9007199254740994 := by decide
  have hmax : (9007199254740994 : ℤ) ≤ int64Max := by decide
  have htext : writeInt 9007199254740994 = "9007199254740994" := by decide +kernel
  have hexact := (integer_filter_exact_iff hmin hmax).2.2.2 (Or.inr ⟨by decide, by decide⟩)
  rw [htext] at hexact
  refine ⟨hmin, hmax, htext, ?_, ?_⟩
  · exact (hexact _ _ _ hmin hmax (lookup_numbered _)).1.2 rfl
  · rw [← Bool.not_eq_true, (hexact _ _ 9007199254740993 (by decide) (by decide) (lookup_numbered _)).1]
    decide

/-- A filter on `2^53` selects the record of the number behind it, and its negation does not. -/
theorem integer_filter_confused_ids :
    int64Min ≤ 9007199254740992 ∧ (9007199254740993 : ℤ) ≤ int64Max ∧ (9007199254740993 : ℤ) ≠ 9007199254740992 ∧
      lookup (numbered 9007199254740993) "id" = some (.int 9007199254740993) ∧
      writeInt 9007199254740992 = "9007199254740992" ∧
      (Predicate.matching "id" .integer "9007199254740992").holds (numbered 9007199254740993) = true ∧
      (Predicate.notMatching "id" .integer "9007199254740992").holds (numbered 9007199254740993) = false := by
  have htext : writeInt 9007199254740992 = "9007199254740992" := by decide +kernel
  have hsame : nearestDoubleInt 9007199254740993 = nearestDoubleInt 9007199254740992 := by decide +kernel
  have hmin : int64Min ≤ 9007199254740992 := by decide
  have hmax : (9007199254740992 : ℤ) ≤ int64Max := by decide
  refine ⟨hmin, by decide, by decide, lookup_numbered _, htext, ?_, ?_⟩
  · rw [← htext, holds_matching_integer hmin hmax (by decide) (lookup_numbered _)]
    exact hsame
  · rw [← htext, ← Bool.not_eq_true, holds_notMatching_integer hmin hmax (by decide) (lookup_numbered _)]
    exact not_not_intro hsame

end FieldSearch
