/-
How predicates narrow selections of records.

- `holds_conj`, `holds_disj`: joining predicates is joining what they mean, although the joined ones are flat.
- `placeSet_eq`: ascending places are the set of what is among them, since ascending lists with the same members are equal.
- `Ascending`: the places of the selected records ascend, each one once. Every narrowing keeps this.
- `any_eq_filter`, `all_eq_filter`: what branches select that narrow an ascending selection is the selection, filtered by
  whether some branch, or every branch, selects a place.
- `all_filter`, `any_filter`: two branches that each narrow by a predicate narrow together by the predicates joined, `all`
  by both, `any` by one of the two.
-/
import FieldSearch.Records.Selection
import Mathlib.Tactic

namespace FieldSearch

namespace Predicate

theorem allHold_eq (record : Json) (children : List Predicate) : allHold record children = children.all (holds record) := by
  induction children with
  | nil => rfl
  | cons p rest ih => rw [allHold, ih, List.all_cons]

theorem anyHolds_eq (record : Json) (children : List Predicate) :
    anyHolds record children = children.any (holds record) := by
  induction children with
  | nil => rfl
  | cons p rest ih => rw [anyHolds, ih, List.any_cons]

/-- a predicate holds where its conjuncts do -/
theorem all_conjuncts (record : Json) (p : Predicate) : p.conjuncts.all (holds record) = p.holds record := by
  cases p with
  | and children => rw [conjuncts, holds, allHold_eq]
  | _ => simp [conjuncts]

/-- a predicate holds where one of its disjuncts does -/
theorem any_disjuncts (record : Json) (p : Predicate) : p.disjuncts.any (holds record) = p.holds record := by
  cases p with
  | or children => rw [disjuncts, holds, anyHolds_eq]
  | _ => simp [disjuncts]

theorem holds_conj (record : Json) (left right : Predicate) :
    (left.conj right).holds record = (left.holds record && right.holds record) := by
  rw [conj, holds, allHold_eq, List.all_append, all_conjuncts, all_conjuncts]

theorem holds_disj (record : Json) (left right : Predicate) :
    (left.disj right).holds record = (left.holds record || right.holds record) := by
  rw [disj, holds, anyHolds_eq, List.any_append, any_disjuncts, any_disjuncts]

end Predicate

/-! ## Sets of places -/

theorem mem_insertPlace (i j : Nat) (places : List Nat) : j ∈ insertPlace i places ↔ j = i ∨ j ∈ places := by
  induction places with
  | nil => simp [insertPlace]
  | cons k places ih =>
    rw [insertPlace]
    split_ifs with hlt heq
    · rw [List.mem_cons]
    · simp [heq]
    · rw [List.mem_cons, ih, List.mem_cons, or_left_comm]

/-- a place is put in where the places in front of it are less and those behind it greater -/
theorem pairwise_insertPlace (i : Nat) {places : List Nat} (h : places.Pairwise (· < ·)) :
    (insertPlace i places).Pairwise (· < ·) := by
  induction places with
  | nil => simp [insertPlace]
  | cons j places ih =>
    obtain ⟨hfirst, hrest⟩ := List.pairwise_cons.1 h
    rw [insertPlace]
    split_ifs with hlt heq
    · refine List.pairwise_cons.2 ⟨?_, h⟩
      intro k hk
      rcases List.mem_cons.1 hk with rfl | hk
      · exact hlt
      · exact hlt.trans (hfirst k hk)
    · exact h
    · refine List.pairwise_cons.2 ⟨?_, ih hrest⟩
      intro k hk
      rcases (mem_insertPlace i k places).1 hk with rfl | hk
      · omega
      · exact hfirst k hk

theorem mem_placeSet (i : Nat) (places : List Nat) : i ∈ placeSet places ↔ i ∈ places := by
  induction places with
  | nil => rfl
  | cons j places ih => rw [placeSet, List.foldr_cons, mem_insertPlace, ← placeSet, ih, List.mem_cons]

theorem pairwise_placeSet (places : List Nat) : (placeSet places).Pairwise (· < ·) := by
  induction places with
  | nil => exact .nil
  | cons j places ih => exact pairwise_insertPlace j ih

/-- ascending places are the set of what is among them -/
theorem placeSet_eq {places set : List Nat} (hset : set.Pairwise (· < ·)) (hmem : ∀ i, i ∈ places ↔ i ∈ set) :
    placeSet places = set := by
  apply (pairwise_placeSet places).eq_of_mem_iff hset
  intro i
  rw [mem_placeSet, hmem]

namespace Selection

/-- the places of the selected records ascend, each one once -/
def Ascending (s : Selection) : Prop := ∃ kept : Nat → Bool, s.selected = (List.range s.records.size).filter kept

theorem ascending_ofRecords (records : List Json) : (ofRecords records).Ascending :=
  ⟨fun _ => true, by simp [ofRecords]⟩

/-- narrowing by a predicate keeps the places ascending -/
theorem Ascending.filter {s : Selection} (h : s.Ascending) (p : Predicate) : (s.filter p).Ascending := by
  obtain ⟨kept, hkept⟩ := h
  refine ⟨fun i => p.holds (s.record i) && kept i, ?_⟩
  rw [Selection.filter, hkept, List.filter_filter]

variable {s : Selection}

theorem Ascending.pairwise (h : s.Ascending) : s.selected.Pairwise (· < ·) := by
  obtain ⟨kept, hkept⟩ := h
  rw [hkept]
  exact List.pairwise_lt_range.filter _

theorem Ascending.lt_size (h : s.Ascending) {i : Nat} (hi : i ∈ s.selected) : i < s.records.size := by
  obtain ⟨kept, hkept⟩ := h
  rw [hkept] at hi
  exact List.mem_range.1 (List.mem_filter.1 hi).1

/-! ## Branches -/

/-- where all branches narrow the selection, `any` keeps the places that some branch selects -/
theorem any_eq_filter (h : s.Ascending) {branches : List (Selection → Selection)}
    (hnarrow : ∀ branch ∈ branches, (branch s).selected ⊆ s.selected) :
    s.any branches =
      { s with selected := s.selected.filter fun i => (branchSelections branches s).any (·.contains i) } := by
  have hselected : placeSet (branchSelections branches s).flatten =
      s.selected.filter fun i => (branchSelections branches s).any (·.contains i) := by
    refine placeSet_eq (h.pairwise.filter _) ?_
    intro i
    simp only [branchSelections, List.mem_flatten, List.mem_map, List.mem_filter, List.any_map, List.any_eq_true,
      Function.comp_apply, List.contains_iff_mem, exists_exists_and_eq_and]
    constructor
    · rintro ⟨branch, hbranch, hi⟩
      exact ⟨hnarrow branch hbranch hi, branch, hbranch, hi⟩
    · rintro ⟨-, branch, hbranch, hi⟩
      exact ⟨branch, hbranch, hi⟩
  rw [any, hselected]

/-- `all` starts from the places as they are, if they ascend -/
theorem all_eq_filter (h : s.Ascending) (branches : List (Selection → Selection)) :
    s.all branches =
      { s with selected := s.selected.filter fun i => (branchSelections branches s).all (·.contains i) } := by
  have hselected : placeSet s.selected = s.selected := placeSet_eq h.pairwise fun _ => Iff.rfl
  rw [all, hselected]

variable {left right : Selection → Selection} {p q : Predicate}

/-- what every one of two branches selects -/
theorem all_filter (h : s.Ascending) (hleft : left s = s.filter p) (hright : right s = s.filter q) :
    s.all [left, right] = s.filter (p.conj q) := by
  have hselected : s.selected.filter (fun i => (branchSelections [left, right] s).all (·.contains i)) =
      s.selected.filter fun i => (p.conj q).holds (s.record i) := by
    refine List.filter_congr fun i hi => ?_
    simp [branchSelections, hleft, hright, Selection.filter, hi, Predicate.holds_conj]
  rw [all_eq_filter h, hselected, Selection.filter]

/-- what one of two branches selects -/
theorem any_filter (h : s.Ascending) (hleft : left s = s.filter p) (hright : right s = s.filter q) :
    s.any [left, right] = s.filter (p.disj q) := by
  have hnarrow : ∀ branch ∈ [left, right], (branch s).selected ⊆ s.selected := by
    simp [hleft, hright, Selection.filter]
  have hselected : s.selected.filter (fun i => (branchSelections [left, right] s).any (·.contains i)) =
      s.selected.filter fun i => (p.disj q).holds (s.record i) := by
    refine List.filter_congr fun i hi => ?_
    simp [branchSelections, hleft, hright, Selection.filter, hi, Predicate.holds_disj]
  rw [any_eq_filter h hnarrow, hselected, Selection.filter]

end Selection

end FieldSearch
