/-
How merges chain: a merge of merges is the same however it is grouped, and a form submitted twice is submitted once.

- A list is known by its slots, the field of each filter and all of each other statement, and by the filters of each
  field: `eq_of_slots`.
- Slots merge by counting: the slots of the query, and behind them those of the form without one for each filter of the
  query (`slots_merge`). Filters merge by field, which `filtersOf_merge` says.
- `mergeStatements_assoc` compares both sides by their slots and by their filters; `Grouping` says what it means for longer
  chains.
-/
import FieldSearch.Proofs.Statement.Occurrences

namespace FieldSearch

open Statement

/-! ## Slots -/

/-- what stays of a statement when another filter of its field takes its place -/
inductive Slot where
  | field (key : String)
  | fixed (s : Statement)
deriving DecidableEq

def Slot.isField : Slot → Bool
  | .field _ => true
  | .fixed _ => false

def Statement.slot : Statement → Slot
  | .fieldFilter name _ => .field (nameKey name)
  | s => .fixed s

/-- the slots of a list that filters can take -/
def fieldSlots (l : List Statement) : List Slot := (l.map slot).filter Slot.isField

theorem isField_slot (s : Statement) : s.slot.isField = s.isFieldFilter := by
  cases s <;> rfl

theorem filtersField_iff_slot {name : String} {s : Statement} :
    s.filtersField name = true ↔ s.slot = .field (nameKey name) := by
  cases s with
  | fieldFilter other e =>
    simp only [filtersField, sameName, slot, beq_iff_eq, Slot.field.injEq]
    exact eq_comm
  | _ => simp [filtersField, slot]

theorem filtersField_of_slot {s t : Statement} (h : s.slot = t.slot) (name : String) :
    s.filtersField name = t.filtersField name := by
  rw [Bool.eq_iff_iff, filtersField_iff_slot, filtersField_iff_slot, h]

/-- statements of one slot are equal unless they filter a field -/
theorem eq_of_slot {s t : Statement} (h : s.slot = t.slot) (hs : s.isFieldFilter = false) : s = t := by
  cases s with
  | fieldFilter name e => simp [isFieldFilter] at hs
  | _ => cases t <;> simp_all [slot]

/-- **A list is known by its slots and by the filters of each field.** -/
theorem eq_of_slots {l r : List Statement} (hslots : l.map slot = r.map slot)
    (hfilters : ∀ name, filtersOf name l = filtersOf name r) : l = r := by
  induction l generalizing r with
  | nil =>
    rw [List.map_nil, eq_comm, List.map_eq_nil_iff] at hslots
    exact hslots.symm
  | cons s l ih =>
    cases r with
    | nil => simp at hslots
    | cons t r =>
      obtain ⟨hslot, hrest⟩ := List.cons.inj hslots
      have hst : s = t := by
        cases hs : s.isFieldFilter with
        | false => exact eq_of_slot hslot hs
        | true =>
          cases s with
          | fieldFilter name e =>
            have hself := filtersField_self name e
            have h := hfilters name
            rw [filtersOf_cons_of hself, filtersOf_cons_of ((filtersField_of_slot hslot name).symm.trans hself)] at h
            exact (List.cons.inj h).1
          | _ => simp [isFieldFilter] at hs
      subst hst
      have htail : l = r := by
        refine ih hrest fun name => ?_
        have h := hfilters name
        cases hs : s.filtersField name with
        | true =>
          rw [filtersOf_cons_of hs, filtersOf_cons_of hs] at h
          exact (List.cons.inj h).2
        | false => rwa [filtersOf_cons_other hs, filtersOf_cons_other hs] at h
      rw [htail]

theorem notMem_slots {name : String} {l : List Statement} (h : ∀ t ∈ l, t.filtersField name = false) :
    Slot.field (nameKey name) ∉ l.map slot := by
  intro hin
  obtain ⟨t, ht, hslot⟩ := List.mem_map.1 hin
  have hfalse := h t ht
  rw [filtersField_iff_slot.2 hslot] at hfalse
  exact absurd hfalse (by decide)

/-- a filter that is taken out takes the first slot of its field with it -/
theorem slots_taken {name : String} {form others : List Statement} {found : Statement}
    (h : takeFilter name form = some (found, others)) :
    others.map slot = (form.map slot).erase (.field (nameKey name)) := by
  obtain ⟨pre, post, rfl, rfl, hfound, hpre⟩ := takeFilter_spec h
  rw [List.map_append, List.map_append, List.map_cons, List.erase_append_right _ (notMem_slots hpre),
    filtersField_iff_slot.1 hfound, List.erase_cons_head]

theorem fieldSlots_cons_of {name : String} {s : Statement} (h : s.filtersField name = true) (l : List Statement) :
    fieldSlots (s :: l) = .field (nameKey name) :: fieldSlots l := by
  rw [fieldSlots, List.map_cons, filtersField_iff_slot.1 h]
  rfl

theorem fieldSlots_cons_other {s : Statement} (h : s.isFieldFilter = false) (l : List Statement) :
    fieldSlots (s :: l) = fieldSlots l := by
  rw [fieldSlots, List.map_cons, List.filter_cons_of_neg (by rw [isField_slot, h]; decide)]
  rfl

/-- an unmatched statement takes no slot of the form -/
theorem Unmatched.diff_fieldSlots {s : Statement} {form : List Statement} (h : Unmatched s form)
    (query : List Statement) :
    (form.map slot).diff (fieldSlots (s :: query)) = (form.map slot).diff (fieldSlots query) := by
  cases s with
  | fieldFilter name e =>
    have hself := filtersField_self name e
    have hnone := notMem_slots (filtersOf_eq_nil.1 (h name hself))
    rw [fieldSlots_cons_of hself, List.diff_cons, List.erase_of_not_mem hnone]
  | _ => rw [fieldSlots_cons_other rfl]

/-- the slots of a merge are those of the query, and those of the form without one for each filter of the query -/
theorem slots_merge (query form : List Statement) :
    (mergeStatements query form).map slot = query.map slot ++ (form.map slot).diff (fieldSlots query) := by
  induction query generalizing form with
  | nil => rfl
  | cons s query ih =>
    rcases mergeStatements_cons s query form with ⟨name, found, others, hs, htake, heq⟩ | ⟨hun, heq⟩
    · obtain ⟨-, -, -, -, hfound, -⟩ := takeFilter_spec htake
      have hslot : found.slot = s.slot := (filtersField_iff_slot.1 hfound).trans (filtersField_iff_slot.1 hs).symm
      rw [heq, List.map_cons, ih, slots_taken htake, ← List.diff_cons, ← fieldSlots_cons_of hs, hslot]
      rfl
    · rw [heq, List.map_cons, ih, hun.diff_fieldSlots]
      rfl

/-! ## Chains of merges -/

/-- what is left out of a list is left out of its front as far as the front has it -/
theorem append_diff {α : Type} [DecidableEq α] (l r out : List α) :
    (l ++ r).diff out = l.diff out ++ r.diff (out.diff l) := by
  induction l generalizing out with
  | nil => simp
  | cons a l ih =>
    by_cases ha : a ∈ out
    · rw [List.cons_append, List.cons_diff_of_mem ha, List.cons_diff_of_mem ha, List.diff_cons, ih]
    · rw [List.cons_append, List.cons_diff_of_not_mem ha, List.cons_diff_of_not_mem ha, List.diff_cons,
        List.erase_of_not_mem ha, ih]
      rfl

theorem count_fieldSlots (x : Slot) (l : List Statement) :
    (fieldSlots l).count x = if x.isField then (l.map slot).count x else 0 := by
  split_ifs with hx
  · exact List.count_filter hx
  · rw [List.count_eq_zero]
    intro hin
    exact hx (List.mem_filter.1 hin).2

/-- of each field a merge has as many filters as the list that has more of them -/
theorem fieldSlots_merge (query form : List Statement) :
    (fieldSlots (mergeStatements query form)).Perm (fieldSlots form ++ (fieldSlots query).diff (form.map slot)) := by
  rw [List.perm_iff_count]
  intro x
  simp only [List.count_append, List.count_diff, count_fieldSlots, slots_merge]
  split_ifs <;> omega

/-- merging twice is merging the merged forms -/
theorem mergeStatements_assoc (a b c : List Statement) :
    mergeStatements (mergeStatements a b) c = mergeStatements a (mergeStatements b c) := by
  refine eq_of_slots ?_ fun name => ?_
  · calc (mergeStatements (mergeStatements a b) c).map slot
        = a.map slot ++ (b.map slot).diff (fieldSlots a) ++ (c.map slot).diff (fieldSlots (mergeStatements a b)) := by
          rw [slots_merge, slots_merge]
      _ = a.map slot ++ (b.map slot).diff (fieldSlots a) ++
            (c.map slot).diff (fieldSlots b ++ (fieldSlots a).diff (b.map slot)) := by
          rw [List.Perm.diff_left _ (fieldSlots_merge a b)]
      _ = a.map slot ++ (b.map slot ++ (c.map slot).diff (fieldSlots b)).diff (fieldSlots a) := by
          rw [append_diff, List.diff_append, List.append_assoc]
      _ = (mergeStatements a (mergeStatements b c)).map slot := by rw [slots_merge, slots_merge]
  · -- what `b` keeps and what `c` takes from it leave as much of `a` as both take at once
    simp only [filtersOf_merge, List.length_append, List.length_drop, List.drop_append, List.drop_drop, List.append_assoc]
    congr 3
    omega

theorem mergeStatements_nil (l : List Statement) : mergeStatements l [] = l := by
  induction l with
  | nil => rfl
  | cons s l ih =>
    rcases mergeStatements_cons s l [] with ⟨_, _, _, _, htake, _⟩ | ⟨_, heq⟩
    · simp [takeFilter] at htake
    · rw [heq, ih]

/-- filters of fields merged into themselves stay as they are -/
theorem mergeStatements_self {form : List Statement} (h : ∀ s ∈ form, s.isFieldFilter = true) :
    mergeStatements form form = form := by
  refine eq_of_slots ?_ fun name => ?_
  · have hall : fieldSlots form = form.map slot := by
      refine List.filter_eq_self.2 fun x hx => ?_
      obtain ⟨s, hs, rfl⟩ := List.mem_map.1 hx
      exact (isField_slot s).trans (h s hs)
    have hnone : (form.map slot).diff (form.map slot) = [] := by
      rw [List.eq_nil_iff_forall_not_mem]
      intro x hx
      have hpos := List.count_pos_iff.2 hx
      rw [List.count_diff, Nat.sub_self] at hpos
      exact Nat.lt_irrefl 0 hpos
    rw [slots_merge, hall, hnone, List.append_nil]
  · rw [filtersOf_merge, List.drop_length, List.append_nil]

theorem foldr_merge_append (l r : List (List Statement)) :
    (l ++ r).foldr mergeStatements [] = mergeStatements (l.foldr mergeStatements []) (r.foldr mergeStatements []) := by
  induction l with
  | nil => rfl
  | cons a l ih => rw [List.cons_append, List.foldr_cons, ih, List.foldr_cons, mergeStatements_assoc]

/-- a way to merge several lists two at a time -/
inductive Grouping where
  | one (list : StatementList)
  | merged (query form : Grouping)

namespace Grouping

/-- the lists from left to right -/
def lists : Grouping → List StatementList
  | one list => [list]
  | merged query form => query.lists ++ form.lists

/-- the merge of all of them -/
def result : Grouping → StatementList
  | one list => list
  | merged query form => query.result.merge form.result

/-- every grouping is the merge from the right -/
theorem result_statements (g : Grouping) :
    g.result.statements = (g.lists.map StatementList.statements).foldr mergeStatements [] := by
  induction g with
  | one list => exact (mergeStatements_nil list.statements).symm
  | merged query form hq hf =>
    rw [lists, List.map_append, foldr_merge_append, ← hq, ← hf]
    rfl

end Grouping

namespace StatementList

/-- **Merges chain**: however a chain of merges is grouped, the statements are the same. The empty list changes nothing on
either side, and a form of field filters that is merged in again changes nothing. -/
theorem merge_chains (a b c : StatementList) :
    ((a.merge b).merge c).statements = (a.merge (b.merge c)).statements ∧
    (∀ g h : Grouping, g.lists = h.lists → g.result.statements = h.result.statements) ∧
    (({} : StatementList).merge a).statements = a.statements ∧ (a.merge {}).statements = a.statements ∧
    ((∀ s ∈ b.statements, s.isFieldFilter = true) → ((a.merge b).merge b).statements = (a.merge b).statements) := by
  refine ⟨mergeStatements_assoc _ _ _, ?_, rfl, mergeStatements_nil _, ?_⟩
  · intro g h hlists
    rw [Grouping.result_statements, Grouping.result_statements, hlists]
  · intro hfields
    calc ((a.merge b).merge b).statements
        = mergeStatements a.statements (mergeStatements b.statements b.statements) := mergeStatements_assoc _ _ _
      _ = (a.merge b).statements := by rw [mergeStatements_self hfields]; rfl

/-- a form that filters one field twice, under two spellings -/
def seaForm : StatementList where
  statements := [.fieldFilter "Title" (.matching "sea"), .fieldFilter "tag" (.matching "sun"),
    .fieldFilter "title" (.matching "sky")]

/-- the form is submitted again and changes nothing -/
theorem merge_chains_sea :
    (∀ s ∈ seaForm.statements, s.isFieldFilter = true) ∧
      ((beachQuery.merge seaForm).merge seaForm).statements =
        [.fieldFilter "Title" (.matching "sea"), .sort "date" .descending, .defaultFilter (.matching "sun"),
          .fieldFilter "tag" (.matching "sun"), .fieldFilter "title" (.matching "sky")] := by
  have hfields : ∀ s ∈ seaForm.statements, s.isFieldFilter = true := by decide
  have hagain := (merge_chains beachQuery seaForm sandForm).2.2.2.2 hfields
  exact ⟨hfields, hagain.trans (by decide)⟩

end StatementList

end FieldSearch
