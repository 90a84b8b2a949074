/-
The order by which a sort key compares values, and where it is one.

- `floatRank`: where a double stands among the others. `compareFloats_eq_cmp`: doubles compare by their ranks, so they are in
  a linear order, but for what is no number, which counts as equal to everything.
- `sortText`: the text by which all values compare that are not both numbers (`compareValues_text`).
- `Lawful`: a comparison that orders some values: turned around it is reversed, and it is transitive.
- `compareKeys_swap`: turned around, the comparison of a key is always reversed.
- `Crossed`: two numbers whose texts stand the other way round than the numbers do, and a value between the texts that is
  no number. Here 9 comes before 10 and 10 before "5", by number and by text, but "5" before 9.
- `compareKeys_lawful_iff`: the comparison of a key orders some values exactly if no such three are among them.
  `compareKeys_cycle_ranks`: over 9, 10 and "5" the outcome of a sort depends on the order of the records.
-/
import FieldSearch.Proofs.Records.Calls
import Mathlib

namespace FieldSearch

/-! ## Doubles -/

open Float.Model in
/-- where a double stands among the others: by sign and infinity, then by exponent, then by significand -/
def floatRank : UnpackedFloat → ℤ ×ₗ ℤ ×ₗ ℤ
  | .infinity .negative => toLex (-2, toLex (0, 0))
  | .finite .negative mantissa exponent _ => toLex (-1, toLex (-exponent, -(mantissa : ℤ)))
  | .zero _ => toLex (0, toLex (0, 0))
  | .finite .positive mantissa exponent _ => toLex (1, toLex (exponent, (mantissa : ℤ)))
  | .infinity .positive => toLex (2, toLex (0, 0))
  | .notANumber => toLex (0, toLex (0, 0))

open Float.Model in
/-- of two doubles that are numbers the one of lower rank is less -/
theorem compare_eq_lt_iff (u v : UnpackedFloat) :
    u.compare v = some .lt ↔ u.isNaN = false ∧ v.isNaN = false ∧ floatRank u < floatRank v := by
  have hsign : compare UnpackedFloat.Sign.negative UnpackedFloat.Sign.positive = .lt := rfl
  rcases u with (_ | _) | _ | _ | ⟨_ | _, m, e, hm⟩ <;> rcases v with (_ | _) | _ | _ | ⟨_ | _, n, f, hn⟩ <;>
    simp [UnpackedFloat.compare, UnpackedFloat.isNaN, floatRank, Prod.Lex.toLex_lt_toLex, Ordering.then_eq_lt,
      Ordering.then_eq_gt, compare_lt_iff_lt, compare_gt_iff_gt, hsign]

theorem float_lt_iff (x y : Float) :
    x < y ↔ x.isNaN = false ∧ y.isNaN = false ∧ floatRank x.toModel.unpack < floatRank y.toModel.unpack := by
  have hlt : x < y ↔ (x.toModel.unpack.compare y.toModel.unpack == some .lt) = true := decide_eq_true_iff
  rw [hlt, beq_iff_eq]
  exact compare_eq_lt_iff _ _

/-- two doubles are never less than each other -/
theorem float_lt_asymm {x y : Float} (h : x < y) : ¬y < x := by
  rw [float_lt_iff] at h ⊢
  rintro ⟨-, -, hyx⟩
  exact lt_asymm h.2.2 hyx

theorem compareFloats_swap (x y : Float) : compareFloats y x = (compareFloats x y).swap := by
  rw [compareFloats, compareFloats]
  by_cases hxy : x < y
  · rw [if_neg (float_lt_asymm hxy), if_pos hxy, if_pos hxy]
    rfl
  · rw [if_neg hxy, if_neg hxy]
    by_cases hyx : y < x
    · rw [if_pos hyx, if_pos hyx]
      rfl
    · rw [if_neg hyx, if_neg hyx]
      rfl

/-- doubles that are numbers compare by their ranks -/
theorem compareFloats_eq_cmp {x y : Float} (hx : x.isNaN = false) (hy : y.isNaN = false) :
    compareFloats x y = cmp (floatRank x.toModel.unpack) (floatRank y.toModel.unpack) := by
  have hxy : x < y ↔ floatRank x.toModel.unpack < floatRank y.toModel.unpack := by
    rw [float_lt_iff, and_iff_right hx, and_iff_right hy]
  have hyx : y < x ↔ floatRank y.toModel.unpack < floatRank x.toModel.unpack := by
    rw [float_lt_iff, and_iff_right hy, and_iff_right hx]
  rw [compareFloats, cmp, cmpUsing]
  simp only [hxy, hyx]

theorem compareFloats_trans {x y z : Float} (hx : x.isNaN = false) (hy : y.isNaN = false) (hz : z.isNaN = false)
    (hxy : compareFloats x y ≠ .gt) (hyz : compareFloats y z ≠ .gt) : compareFloats x z ≠ .gt := by
  rw [compareFloats_eq_cmp hx hy, Ne, cmp_eq_gt_iff, not_lt] at hxy
  rw [compareFloats_eq_cmp hy hz, Ne, cmp_eq_gt_iff, not_lt] at hyz
  rw [compareFloats_eq_cmp hx hz, Ne, cmp_eq_gt_iff, not_lt]
  exact le_trans hxy hyz

/-! ## Texts -/

/-- the text by which values compare that are not both numbers -/
def sortText (value : Json) : String := lowerCase (textOf value)

def Json.isNumber : Json → Bool
  | .number _ => true
  | _ => false

/-- two values are both numbers, or one of them is none -/
theorem Json.numbers_or (x y : Json) :
    (∃ m n, x = .number m ∧ y = .number n) ∨ x.isNumber = false ∨ y.isNumber = false := by
  cases x with
  | number m =>
    cases y with
    | number n => exact .inl ⟨m, n, rfl, rfl⟩
    | _ => exact .inr (.inr rfl)
  | _ => exact .inr (.inl rfl)

/-- values that are not both numbers compare by text; for truth values this is the order of their words -/
theorem compareValues_text {x y : Json} (h : x.isNumber = false ∨ y.isNumber = false) :
    compareValues x y = compare (sortText x) (sortText y) := by
  cases x with
  | number n =>
    cases y with
    | number m => simp [Json.isNumber] at h
    | _ => rfl
  | bool b =>
    cases y with
    | bool c => cases b <;> cases c <;> decide +kernel
    | _ => rfl
  | _ => cases y <;> rfl

theorem compareValues_swap (x y : Json) : compareValues y x = (compareValues x y).swap := by
  rcases Json.numbers_or x y with ⟨m, n, rfl, rfl⟩ | htext
  · exact compareFloats_swap m.toFloat n.toFloat
  · rw [compareValues_text htext, compareValues_text htext.symm]
    exact Std.OrientedCmp.eq_swap

theorem text_trans {a b c : String} (hab : compare a b ≠ .gt) (hbc : compare b c ≠ .gt) : compare a c ≠ .gt :=
  Ordering.isLE_iff_ne_gt.1 (Std.TransCmp.isLE_trans (Ordering.isLE_iff_ne_gt.2 hab) (Ordering.isLE_iff_ne_gt.2 hbc))

theorem text_ne_gt_of_gt {a b : String} (h : compare a b = .gt) : compare b a ≠ .gt := by
  have hswap : compare b a = (compare a b).swap := Std.OrientedCmp.eq_swap
  rw [hswap, h]
  decide

theorem text_antisymm {a b : String} (hab : compare a b ≠ .gt) (hba : compare b a ≠ .gt) : a = b := by
  have hswap : compare b a = (compare a b).swap := Std.OrientedCmp.eq_swap
  have heq : compare a b = .eq := by
    cases hcmp : compare a b with
    | lt => simp [hswap, hcmp] at hba
    | eq => rfl
    | gt => exact absurd hcmp hab
  exact Std.LawfulEqCmp.eq_of_compare heq

/-! ## Comparisons that are an order -/

/-- a comparison that orders some values -/
structure Lawful {α : Type} (cmp : α → α → Ordering) (values : Set α) : Prop where
  swap : ∀ a ∈ values, ∀ b ∈ values, cmp b a = (cmp a b).swap
  trans : ∀ a ∈ values, ∀ b ∈ values, ∀ c ∈ values, cmp a b ≠ .gt → cmp b c ≠ .gt → cmp a c ≠ .gt

/-- two numbers whose texts stand the other way round, and a value between the texts that is no number: `m` is at most `n`,
but the text of `n` is at most that of `t`, which is at most that of `m`. The numbers differ in one of the two orders. -/
structure Crossed (m n : JsonNumber) (t : Json) : Prop where
  noNumber : t.isNumber = false
  number_le : compareFloats m.toFloat n.toFloat ≠ .gt
  lower : compare (sortText (.number n)) (sortText t) ≠ .gt
  upper : compare (sortText t) (sortText (.number m)) ≠ .gt
  differ : compareFloats m.toFloat n.toFloat = .lt ∨ sortText (.number m) ≠ sortText (.number n)

/-- a crossing breaks transitivity -/
theorem Lawful.notCrossed {values : Set Json} (h : Lawful compareValues values) {m n : JsonNumber} {t : Json}
    (hm : .number m ∈ values) (hn : .number n ∈ values) (ht : t ∈ values) : ¬Crossed m n t := by
  intro hcross
  have hle : compareValues (.number m) (.number n) ≠ .gt := hcross.number_le
  have hlower : compareValues (.number n) t ≠ .gt := by
    rw [compareValues_text (.inr hcross.noNumber)]
    exact hcross.lower
  have hupper : compareValues t (.number m) ≠ .gt := by
    rw [compareValues_text (.inl hcross.noNumber)]
    exact hcross.upper
  rcases hcross.differ with hlt | htexts
  · have hback : compareFloats n.toFloat m.toFloat ≠ .gt := h.trans _ hn _ ht _ hm hlower hupper
    rw [compareFloats_swap, hlt] at hback
    exact hback rfl
  · have hmt : compareValues (.number m) t ≠ .gt := h.trans _ hm _ hn _ ht hle hlower
    have htn : compareValues t (.number n) ≠ .gt := h.trans _ ht _ hm _ hn hupper hle
    rw [compareValues_text (.inr hcross.noNumber)] at hmt
    rw [compareValues_text (.inl hcross.noNumber)] at htn
    exact htexts ((text_antisymm hmt hcross.upper).trans (text_antisymm htn hcross.lower))

/-- among values without a crossing the comparison is transitive -/
theorem compareValues_trans {values : Set Json} (hreal : ∀ n, .number n ∈ values → n.toFloat.isNaN = false)
    (hcross : ∀ m n t, .number m ∈ values → .number n ∈ values → t ∈ values → ¬Crossed m n t) {x y z : Json}
    (hx : x ∈ values) (hy : y ∈ values) (hz : z ∈ values) (hxy : compareValues x y ≠ .gt)
    (hyz : compareValues y z ≠ .gt) : compareValues x z ≠ .gt := by
  -- three numbers compare as doubles and values with at most one number by text; two numbers and a value that is none
  -- would cross, wherever the third value stands
  rcases Json.numbers_or x y with ⟨a, b, rfl, rfl⟩ | hxyText
  · rcases Json.numbers_or (.number b) z with ⟨-, c, -, rfl⟩ | hbzText
    · exact compareFloats_trans (hreal a hx) (hreal b hy) (hreal c hz) hxy hyz
    · have hzText : z.isNumber = false := hbzText.resolve_left Bool.noConfusion
      rw [compareValues_text hbzText] at hyz
      rw [compareValues_text (.inr hzText)]
      intro hgt
      refine hcross a b z hx hy hz ⟨hzText, hxy, hyz, text_ne_gt_of_gt hgt, .inr fun htexts => ?_⟩
      rw [htexts] at hgt
      exact hyz hgt
  · rw [compareValues_text hxyText] at hxy
    rcases Json.numbers_or y z with ⟨b, c, rfl, rfl⟩ | hyzText
    · have hxText : x.isNumber = false := hxyText.resolve_right Bool.noConfusion
      rw [compareValues_text (.inl hxText)]
      intro hgt
      refine hcross b c x hy hz hx ⟨hxText, hyz, text_ne_gt_of_gt hgt, hxy, .inr fun htexts => ?_⟩
      rw [htexts] at hxy
      exact hxy hgt
    · rw [compareValues_text hyzText] at hyz
      rcases Json.numbers_or x z with ⟨a, c, rfl, rfl⟩ | hxzText
      · have hyText : y.isNumber = false := hxyText.resolve_left Bool.noConfusion
        intro hgt
        have hlt : compareFloats c.toFloat a.toFloat = .lt := by
          rw [compareFloats_swap a.toFloat c.toFloat]
          exact congrArg Ordering.swap hgt
        have hle : compareFloats c.toFloat a.toFloat ≠ .gt := by rw [hlt]; decide
        exact hcross c a y hz hx hy ⟨hyText, hle, hxy, hyz, .inl hlt⟩
      · rw [compareValues_text hxzText]
        exact text_trans hxy hyz

/-! ## Keys -/

/-- turned around, the comparison of a key is reversed -/
theorem compareKeys_swap (direction : Direction) (a b : Option Json) :
    compareKeys direction b a = (compareKeys direction a b).swap := by
  cases a with
  | none => cases b <;> rfl
  | some x =>
    cases b with
    | none => rfl
    | some y =>
      cases direction with
      | ascending => exact compareValues_swap x y
      | descending => exact congrArg Ordering.swap (compareValues_swap x y)

/-- a descending key compares two values the other way round -/
theorem compareKeys_descending (x y : Json) : compareKeys .descending (some x) (some y) = compareValues y x :=
  (compareValues_swap x y).symm

/-- a key orders values exactly if their comparison orders those that are there: what is missing comes last anyway, and
descending keys only turn the order around -/
theorem lawful_compareKeys_iff (direction : Direction) (values : Set (Option Json)) :
    Lawful (compareKeys direction) values ↔ Lawful compareValues {x | some x ∈ values} := by
  constructor
  · intro h
    refine ⟨fun x _ y _ => compareValues_swap x y, fun x hx y hy z hz hxy hyz => ?_⟩
    cases direction with
    | ascending => exact h.trans _ hx _ hy _ hz hxy hyz
    | descending =>
      have htrans := h.trans (some z) hz (some y) hy (some x) hx
      simp only [compareKeys_descending] at htrans
      exact htrans hyz hxy
  · intro h
    refine ⟨fun a _ b _ => compareKeys_swap direction a b, fun a ha b hb c hc hab hbc => ?_⟩
    cases a with
    | none =>
      cases b with
      | none => exact hbc
      | some y => exact absurd rfl hab
    | some x =>
      cases c with
      | none => exact Ordering.noConfusion
      | some z =>
        cases b with
        | none => exact absurd rfl hbc
        | some y =>
          cases direction with
          | ascending => exact h.trans x ha y hb z hc hab hbc
          | descending =>
            rw [compareKeys_descending] at hab hbc ⊢
            exact h.trans z hc y hb x ha hbc hab

/-- **Where the comparison of a key is an order.** In either direction, turned around it is reversed, whatever the values.
It is an order of some values, missing ones among them or not, exactly if no two numbers among them cross at a third value
that is present and no number. The numbers are those of JSON texts, none of which is a NaN: that would be equal to all. -/
theorem compareKeys_lawful_iff (direction : Direction) {values : Set (Option Json)}
    (hreal : ∀ n, some (.number n) ∈ values → n.toFloat.isNaN = false) :
    (∀ a b, compareKeys direction b a = (compareKeys direction a b).swap) ∧
      (Lawful (compareKeys direction) values ↔
        ∀ m n t, some (.number m) ∈ values → some (.number n) ∈ values → some t ∈ values → ¬Crossed m n t) := by
  refine ⟨compareKeys_swap direction, ?_⟩
  rw [lawful_compareKeys_iff]
  constructor
  · intro h m n t hm hn ht
    exact h.notCrossed hm hn ht
  · intro hcross
    refine ⟨fun x _ y _ => compareValues_swap x y, fun x hx y hy z hz hxy hyz => ?_⟩
    exact compareValues_trans (fun n hn => hreal n hn) (fun m n t hm hn ht => hcross m n t hm hn ht) hx hy hz hxy hyz

/-- years, one of them missing, one between two others and one in words -/
def yearValues : Set (Option Json) :=
  {none, some (.int 1951), some (.int 1955), some (.number (.float 1951.5)), some (.string "Unknown")}

theorem compareKeys_lawful_years :
    (∀ n, some (.number n) ∈ yearValues → n.toFloat.isNaN = false) ∧ Lawful (compareKeys .descending) yearValues := by
  have hnumber : ∀ n, some (.number n) ∈ yearValues → n = .int 1951 ∨ n = .int 1955 ∨ n = .float 1951.5 := by
    intro n hn
    simpa [yearValues, Json.int] using hn
  have hreal : ∀ n, some (.number n) ∈ yearValues → n.toFloat.isNaN = false := by
    intro n hn
    rcases hnumber n hn with rfl | rfl | rfl <;> decide +kernel
  refine ⟨hreal, (compareKeys_lawful_iff .descending hreal).2.2 ?_⟩
  intro m n t hm _ ht hcross
  have hword : t = .string "Unknown" := by
    have hnone := hcross.noNumber
    rcases ht with ht | ht | ht | ht | ht
    · cases ht
    · cases ht; cases hnone
    · cases ht; cases hnone
    · cases ht; cases hnone
    · exact Option.some.inj ht
  have hupper := hcross.upper
  rw [hword] at hupper
  rcases hnumber m hm with rfl | rfl | rfl <;> exact hupper (by decide +kernel)

namespace Selection

/-- a record with a rank -/
def ranked (rank : Json) : Json := .object [("rank", rank)]

/-- 9 comes before 10, 10 before "5", and "5" before 9, so the outcome of a sort depends on the order of the records -/
theorem compareKeys_cycle_ranks :
    compareKeys .ascending (some (.int 9)) (some (.int 10)) ≠ .gt ∧
      compareKeys .ascending (some (.int 10)) (some (.string "5")) ≠ .gt ∧
      compareKeys .ascending (some (.int 9)) (some (.string "5")) = .gt ∧
      (after [ranked (.int 9), ranked (.int 10), ranked (.string "5")] [.orderBy .ascending "rank"]).sorted = [0, 1, 2] ∧
      (after [ranked (.int 10), ranked (.string "5"), ranked (.int 9)] [.orderBy .ascending "rank"]).sorted =
        [0, 1, 2] := by
  decide +kernel

end Selection

end FieldSearch
