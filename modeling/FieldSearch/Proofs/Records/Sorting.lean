/-
What the results of a selection are, and in which order.

- `stableSort_perm`: sorting loses nothing. `pairwise_stableSort`: if a transitive relation holds between any two elements,
  one way or the other as the test says, then the sorted list is in its order. Induction over what has been put in.
- `Lawful.thenBy`: two comparisons that order some values order them one after the other, the first one deciding.
  `lawful_compareBy`: so do the comparisons of several keys.
- `decisive?`: the first key that tells two records apart. `Ahead`: one place stands ahead of another by that key, or, where
  no key tells them apart, by standing there in front.
- `results_sorted`: the results are the selected records, each ahead of all behind it.
-/
import FieldSearch.Proofs.Records.Comparison

namespace FieldSearch

/-! ## Stable sorting -/

section StableSort

variable {α : Type} (before : α → α → Bool)

theorem insertFromEnd_perm (a : α) (reversed : List α) : (insertFromEnd before a reversed).Perm (a :: reversed) := by
  induction reversed with
  | nil => exact .refl [a]
  | cons b reversed ih =>
    rw [insertFromEnd]
    by_cases h : before a b = true
    · rw [if_pos h]
      exact (ih.cons b).trans (.swap a b reversed)
    · rw [if_neg h]

theorem foldl_insertFromEnd_perm (as reversed : List α) :
    (as.foldl (fun reversed a => insertFromEnd before a reversed) reversed).Perm (as ++ reversed) := by
  induction as generalizing reversed with
  | nil => exact .refl reversed
  | cons a as ih =>
    have hin : (as ++ insertFromEnd before a reversed).Perm (as ++ a :: reversed) :=
      (insertFromEnd_perm before a reversed).append_left as
    exact ((ih (insertFromEnd before a reversed)).trans hin).trans List.perm_middle

theorem stableSort_perm (as : List α) : (stableSort before as).Perm as := by
  have hfold := foldl_insertFromEnd_perm before as []
  rw [List.append_nil] at hfold
  exact (List.reverse_perm _).trans hfold

/-- what the test says of an element and an earlier one -/
def Placed (R : α → α → Prop) (earlier a : α) : Prop := if before a earlier = true then R a earlier else R earlier a

variable {before} {R : α → α → Prop} {values : Set α}

/-- putting an element in keeps the list in order, if it is later than all of them -/
theorem pairwise_insertFromEnd (htrans : ∀ x ∈ values, ∀ y ∈ values, ∀ z ∈ values, R x y → R y z → R x z) {a : α}
    (ha : a ∈ values) {reversed : List α} (hvalues : ∀ b ∈ reversed, b ∈ values)
    (hplaced : ∀ b ∈ reversed, Placed before R b a) (hsorted : reversed.Pairwise fun x y => R y x) :
    (insertFromEnd before a reversed).Pairwise fun x y => R y x := by
  induction reversed with
  | nil => exact List.pairwise_singleton _ a
  | cons b reversed ih =>
    obtain ⟨hb, hrest⟩ := List.forall_mem_cons.1 hvalues
    obtain ⟨hfirst, hplacedRest⟩ := List.forall_mem_cons.1 hplaced
    obtain ⟨hbehind, hsortedRest⟩ := List.pairwise_cons.1 hsorted
    rw [insertFromEnd]
    by_cases h : before a b = true
    · rw [if_pos h, List.pairwise_cons]
      rw [Placed, if_pos h] at hfirst
      refine ⟨fun c hc => ?_, ih hrest hplacedRest hsortedRest⟩
      rcases List.mem_cons.1 ((insertFromEnd_perm before a reversed).mem_iff.1 hc) with rfl | hc
      · exact hfirst
      · exact hbehind c hc
    · rw [if_neg h, List.pairwise_cons]
      rw [Placed, if_neg h] at hfirst
      refine ⟨fun c hc => ?_, hsorted⟩
      rcases List.mem_cons.1 hc with rfl | hc
      · exact hfirst
      · exact htrans c (hrest c hc) b hb a ha (hbehind c hc) hfirst

/-- **A sorted list is in order**, if what the test says of any two elements is a relation that is transitive. -/
theorem pairwise_stableSort (htrans : ∀ x ∈ values, ∀ y ∈ values, ∀ z ∈ values, R x y → R y z → R x z) {as : List α}
    (hvalues : ∀ a ∈ as, a ∈ values) (hplaced : as.Pairwise (Placed before R)) :
    (stableSort before as).Pairwise R := by
  have hfold : ∀ reversed : List α, (∀ b ∈ reversed, b ∈ values) → (∀ b ∈ reversed, ∀ a ∈ as, Placed before R b a) →
      (reversed.Pairwise fun x y => R y x) →
      (as.foldl (fun reversed a => insertFromEnd before a reversed) reversed).Pairwise fun x y => R y x := by
    induction as with
    | nil => exact fun reversed _ _ hsorted => hsorted
    | cons a as ih =>
      intro reversed hin hearlier hsorted
      obtain ⟨ha, hrest⟩ := List.forall_mem_cons.1 hvalues
      obtain ⟨hlater, hplacedRest⟩ := List.pairwise_cons.1 hplaced
      have hmem : ∀ b ∈ insertFromEnd before a reversed, b = a ∨ b ∈ reversed := fun b hb =>
        List.mem_cons.1 ((insertFromEnd_perm before a reversed).mem_iff.1 hb)
      refine ih hrest hplacedRest _ (fun b hb => ?_) (fun b hb c hc => ?_) ?_
      · rcases hmem b hb with rfl | hb
        · exact ha
        · exact hin b hb
      · rcases hmem b hb with rfl | hb
        · exact hlater c hc
        · exact hearlier b hb c (List.mem_cons_of_mem a hc)
      · exact pairwise_insertFromEnd htrans ha hin (fun b hb => hearlier b hb a List.mem_cons_self) hsorted
  rw [stableSort, List.pairwise_reverse]
  exact hfold [] (fun _ h => absurd h List.not_mem_nil) (fun _ h => absurd h List.not_mem_nil) .nil

end StableSort

/-! ## Comparisons one after the other -/

namespace Lawful

variable {α β : Type} {cmp next : α → α → Ordering} {values : Set α} {a b c : α}

theorem lt_of_lt_of_ne_gt (h : Lawful cmp values) (ha : a ∈ values) (hb : b ∈ values) (hc : c ∈ values)
    (hab : cmp a b = .lt) (hbc : cmp b c ≠ .gt) : cmp a c = .lt := by
  have hac : cmp a c ≠ .gt := h.trans a ha b hb c hc (by rw [hab]; decide) hbc
  cases hcase : cmp a c with
  | lt => rfl
  | gt => exact absurd hcase hac
  | eq =>
    have hca : cmp c a ≠ .gt := by rw [h.swap a ha c hc, hcase]; decide
    have hba := h.trans b hb c hc a ha hbc hca
    rw [h.swap a ha b hb, hab] at hba
    exact absurd rfl hba

theorem lt_of_ne_gt_of_lt (h : Lawful cmp values) (ha : a ∈ values) (hb : b ∈ values) (hc : c ∈ values)
    (hab : cmp a b ≠ .gt) (hbc : cmp b c = .lt) : cmp a c = .lt := by
  have hac : cmp a c ≠ .gt := h.trans a ha b hb c hc hab (by rw [hbc]; decide)
  cases hcase : cmp a c with
  | lt => rfl
  | gt => exact absurd hcase hac
  | eq =>
    have hca : cmp c a ≠ .gt := by rw [h.swap a ha c hc, hcase]; decide
    have hcb := h.trans c hc a ha b hb hca hab
    rw [h.swap b hb c hc, hbc] at hcb
    exact absurd rfl hcb

theorem eq_trans (h : Lawful cmp values) (ha : a ∈ values) (hb : b ∈ values) (hc : c ∈ values)
    (hab : cmp a b = .eq) (hbc : cmp b c = .eq) : cmp a c = .eq := by
  have hac : cmp a c ≠ .gt := h.trans a ha b hb c hc (by rw [hab]; decide) (by rw [hbc]; decide)
  cases hcase : cmp a c with
  | eq => rfl
  | gt => exact absurd hcase hac
  | lt =>
    have hbb : cmp b c = .lt := h.lt_of_ne_gt_of_lt hb ha hc (by rw [h.swap a ha b hb, hab]; decide) hcase
    rw [hbc] at hbb
    cases hbb

/-- values compared through what they are mapped to -/
theorem comap {cmp : β → β → Ordering} {f : α → β} {images : Set β} (h : Lawful cmp images)
    (hf : ∀ a ∈ values, f a ∈ images) : Lawful (fun a b => cmp (f a) (f b)) values :=
  ⟨fun a ha b hb => h.swap _ (hf a ha) _ (hf b hb),
    fun a ha b hb c hc => h.trans _ (hf a ha) _ (hf b hb) _ (hf c hc)⟩

theorem then_ne_gt_iff (first second : Ordering) :
    first.then second ≠ .gt ↔ first = .lt ∨ first = .eq ∧ second ≠ .gt := by
  cases first <;> simp

/-- **Two orders one after the other are an order**, where the second one decides what the first one leaves open. -/
theorem thenBy (h : Lawful cmp values) (hnext : Lawful next values) :
    Lawful (fun a b => (cmp a b).then (next a b)) values := by
  refine ⟨fun a ha b hb => ?_, fun a ha b hb c hc hab hbc => ?_⟩
  · rw [h.swap a ha b hb, hnext.swap a ha b hb, Ordering.swap_then]
  · rw [then_ne_gt_iff] at hab hbc ⊢
    rcases hab with hab | ⟨hab, hnextab⟩
    · have hle : cmp b c ≠ .gt := by
        rcases hbc with hbc | ⟨hbc, -⟩ <;> rw [hbc] <;> decide
      exact .inl (h.lt_of_lt_of_ne_gt ha hb hc hab hle)
    · rcases hbc with hbc | ⟨hbc, hnextbc⟩
      · exact .inl (h.lt_of_ne_gt_of_lt ha hb hc (by rw [hab]; decide) hbc)
      · exact .inr ⟨h.eq_trans ha hb hc hab hbc, hnext.trans a ha b hb c hc hnextab hnextbc⟩

end Lawful

namespace Selection

/-- the order of two records by one key -/
def compareOn (key : String × Direction) (a b : Json) : Ordering := compareKeys key.2 (lookup a key.1) (lookup b key.1)

theorem compareBy_cons (key : String × Direction) (keys : List (String × Direction)) (a b : Json) :
    compareBy (key :: keys) a b = (compareOn key a b).then (compareBy keys a b) := rfl

/-- several keys order records that each of them orders -/
theorem lawful_compareBy {records : Set Json} {keys : List (String × Direction)}
    (h : ∀ key ∈ keys, Lawful (compareOn key) records) : Lawful (compareBy keys) records := by
  induction keys with
  | nil => exact ⟨fun _ _ _ _ => rfl, fun _ _ _ _ _ _ _ _ => Ordering.noConfusion⟩
  | cons key keys ih =>
    obtain ⟨hkey, hkeys⟩ := List.forall_mem_cons.1 h
    exact hkey.thenBy (ih hkeys)

/-! ## Places in order -/

/-- the first key that tells two records apart -/
def decisive? (keys : List (String × Direction)) (a b : Json) : Option (String × Direction) :=
  keys.find? fun key => compareOn key a b != .eq

/-- the decisive key decides -/
theorem compareBy_eq (keys : List (String × Direction)) (a b : Json) :
    compareBy keys a b = (decisive? keys a b).elim .eq fun key => compareOn key a b := by
  induction keys with
  | nil => rfl
  | cons key keys ih =>
    rw [compareBy_cons, decisive?]
    by_cases h : compareOn key a b = .eq
    · rw [h, List.find?_cons_of_neg (by simp [h]), Ordering.eq_then]
      exact ih
    · rw [List.find?_cons_of_pos (by simp [h]), Option.elim_some]
      cases hcase : compareOn key a b with
      | eq => exact absurd hcase h
      | lt | gt => rfl

/-- whether a place stands ahead of another: by the first key that tells their records apart, else by its number -/
def Ahead (s : Selection) (i j : Nat) : Prop :=
  match decisive? s.order (s.record i) (s.record j) with
  | some key => compareOn key (s.record i) (s.record j) = .lt
  | none => i < j

variable {s : Selection} {i j k : Nat}

theorem ahead_iff : s.Ahead i j ↔ compareBy s.order (s.record i) (s.record j) = .lt ∨
    compareBy s.order (s.record i) (s.record j) = .eq ∧ i < j := by
  rw [Ahead, compareBy_eq]
  cases hkey : decisive? s.order (s.record i) (s.record j) with
  | none => simp
  | some key =>
    have hne : compareOn key (s.record i) (s.record j) ≠ .eq := by
      have hfound := List.find?_some hkey
      simpa using hfound
    simp [hne]

/-- the records that are selected -/
def selectedRecords (s : Selection) : Set Json := {record | ∃ i ∈ s.selected, s.record i = record}

theorem ahead_trans (h : Lawful (compareBy s.order) s.selectedRecords) (hi : i ∈ s.selected) (hj : j ∈ s.selected)
    (hk : k ∈ s.selected) (hij : s.Ahead i j) (hjk : s.Ahead j k) : s.Ahead i k := by
  have hri : s.record i ∈ s.selectedRecords := ⟨i, hi, rfl⟩
  have hrj : s.record j ∈ s.selectedRecords := ⟨j, hj, rfl⟩
  have hrk : s.record k ∈ s.selectedRecords := ⟨k, hk, rfl⟩
  rw [ahead_iff] at hij hjk ⊢
  rcases hij with hij | ⟨hij, hlt⟩
  · have hle : compareBy s.order (s.record j) (s.record k) ≠ .gt := by
      rcases hjk with hjk | ⟨hjk, -⟩ <;> rw [hjk] <;> decide
    exact .inl (h.lt_of_lt_of_ne_gt hri hrj hrk hij hle)
  · rcases hjk with hjk | ⟨hjk, hlt'⟩
    · exact .inl (h.lt_of_ne_gt_of_lt hri hrj hrk (by rw [hij]; decide) hjk)
    · exact .inr ⟨h.eq_trans hri hrj hrk hij hjk, lt_trans hlt hlt'⟩

/-- of two selected places the later one goes ahead only if its record comes before the other one -/
theorem placed_of_lt (h : Lawful (compareBy s.order) s.selectedRecords) (hi : i ∈ s.selected) (hj : j ∈ s.selected)
    (hlt : i < j) :
    Placed (fun i j => compareBy s.order (s.record i) (s.record j) == .lt) s.Ahead i j := by
  have hswap := h.swap (s.record j) ⟨j, hj, rfl⟩ (s.record i) ⟨i, hi, rfl⟩
  rw [Placed]
  cases hcase : compareBy s.order (s.record j) (s.record i) with
  | lt =>
    rw [if_pos (by decide), ahead_iff]
    exact .inl hcase
  | eq =>
    rw [if_neg (by decide), ahead_iff, hswap, hcase]
    exact .inr ⟨rfl, hlt⟩
  | gt =>
    rw [if_neg (by decide), ahead_iff, hswap, hcase]
    exact .inl rfl

/-- the places of a selection are sorted so that each one is ahead of all behind it -/
theorem pairwise_sorted (h : Lawful (compareBy s.order) s.selectedRecords) (hascending : s.selected.Pairwise (· < ·)) :
    s.sorted.Pairwise s.Ahead := by
  have hplaced : s.selected.Pairwise
      (Placed (fun i j => compareBy s.order (s.record i) (s.record j) == .lt) s.Ahead) :=
    hascending.imp_of_mem fun hi hj hlt => placed_of_lt h hi hj hlt
  have htrans : ∀ i ∈ {i | i ∈ s.selected}, ∀ j ∈ {i | i ∈ s.selected}, ∀ k ∈ {i | i ∈ s.selected},
      s.Ahead i j → s.Ahead j k → s.Ahead i k :=
    fun i hi j hj k hk hij hjk => ahead_trans h hi hj hk hij hjk
  exact pairwise_stableSort htrans (fun i hi => hi) hplaced

/-- what has no value at the primary key is ahead only of what has none either -/
theorem Ahead.missing (h : s.Ahead i j) {key : String × Direction} {keys : List (String × Direction)}
    (horder : s.order = key :: keys) (hi : lookup (s.record i) key.1 = none) : lookup (s.record j) key.1 = none := by
  cases hj : lookup (s.record j) key.1 with
  | none => rfl
  | some value =>
    have hgt : compareOn key (s.record i) (s.record j) = .gt := by rw [compareOn, hi, hj]; rfl
    have hkey : decisive? s.order (s.record i) (s.record j) = some key := by
      rw [horder, decisive?, List.find?_cons_of_pos (by simp [hgt])]
    rw [Ahead, hkey] at h
    exact absurd (hgt.symm.trans h) (by decide)

/-! ## The results of a search -/

/-- the values of the selected records at a property -/
def column (s : Selection) (property : String) : List (Option Json) :=
  s.selected.map fun i => lookup (s.record i) property

/-- keys that order their columns order the selected records -/
theorem lawful_selected (h : ∀ key ∈ s.order, Lawful (compareKeys key.2) {value | value ∈ s.column key.1}) :
    Lawful (compareBy s.order) s.selectedRecords := by
  apply lawful_compareBy
  intro key hkey
  apply (h key hkey).comap
  rintro record ⟨i, hi, rfl⟩
  exact List.mem_map.2 ⟨i, hi, rfl⟩

/-- **The results are sorted, and stably so.** After any calls on any records, if each sort key orders the values that the
selected records have there, the results are the selected records in an order in which each one is ahead of all behind it:
the first key that tells the two apart says that it comes before, or, where no key does, it stands before the other among
the records. What has no value at the primary key comes behind all that has one, in either direction. -/
theorem results_sorted (records : List Json) (calls : List (Call Empty))
    (h : ∀ key ∈ (after records calls).order,
      Lawful (compareKeys key.2) {value | value ∈ (after records calls).column key.1}) :
    (after records calls).results.Perm ((after records calls).selected.map (after records calls).record) ∧
      ∃ places : List Nat, places.Perm (after records calls).selected ∧
        (after records calls).results = places.map (after records calls).record ∧
        (∀ i ∈ places, records[i]? = some ((after records calls).record i)) ∧
        places.Pairwise (after records calls).Ahead ∧
        ∀ key keys, (after records calls).order = key :: keys → places.Pairwise fun i j =>
          lookup ((after records calls).record i) key.1 = none → lookup ((after records calls).record j) key.1 = none := by
  have hascending := after_ascending records calls
  have hrecords : (after records calls).records = records.toArray := (after_keeps records calls).records
  have hperm : (after records calls).sorted.Perm (after records calls).selected := stableSort_perm _ _
  have hahead := pairwise_sorted (lawful_selected h) hascending.pairwise
  refine ⟨hperm.map _, (after records calls).sorted, hperm, rfl, fun i hi => ?_, hahead, fun key keys horder => ?_⟩
  · have hlt := hascending.lt_size (hperm.mem_iff.1 hi)
    rw [hrecords, List.size_toArray] at hlt
    simp [Selection.record, hrecords, hlt]
  · exact hahead.imp fun hij hmissing => hij.missing horder hmissing

/-- books, two of them without a year, two of one year and two of one title -/
def libraryRecords : List Json :=
  [.object [("title", .string "Shore"), ("year", .int 1955)], .object [("title", .string "Wave")],
    .object [("title", .string "Dune"), ("year", .int 1951)], .object [("title", .string "Coast"), ("year", .int 1955)],
    .object [("title", .string "wave"), ("year", .null)], .object [("title", .string "Reef"), ("year", .int 1940)]]

/-- all books but one, the latest years first, then by title -/
def libraryCalls : List (Call Empty) :=
  [.orderBy .descending "year", .filter (.notContains "title" "reef"), .thenBy .ascending "title"]

theorem results_sorted_library :
    (∀ key ∈ (after libraryRecords libraryCalls).order,
        Lawful (compareKeys key.2) {value | value ∈ (after libraryRecords libraryCalls).column key.1}) ∧
      (after libraryRecords libraryCalls).sorted = [3, 0, 2, 1, 4] ∧
      (after libraryRecords libraryCalls).results.Perm
        ((after libraryRecords libraryCalls).selected.map (after libraryRecords libraryCalls).record) := by
  have htrans : ∀ key ∈ (after libraryRecords libraryCalls).order,
      ∀ a ∈ (after libraryRecords libraryCalls).column key.1, ∀ b ∈ (after libraryRecords libraryCalls).column key.1,
      ∀ c ∈ (after libraryRecords libraryCalls).column key.1,
        compareKeys key.2 a b ≠ .gt → compareKeys key.2 b c ≠ .gt → compareKeys key.2 a c ≠ .gt := by
    decide +kernel
  have hlawful : ∀ key ∈ (after libraryRecords libraryCalls).order,
      Lawful (compareKeys key.2) {value | value ∈ (after libraryRecords libraryCalls).column key.1} :=
    fun key hkey => ⟨fun a _ b _ => compareKeys_swap key.2 a b, htrans key hkey⟩
  exact ⟨hlawful, by decide +kernel, (results_sorted libraryRecords libraryCalls hlawful).1⟩

end Selection

end FieldSearch
