/-
What the calls of a search mean for records.

- `Call.perform`, `Call.performAll`: calls made on a query, one after the other. The branches of `any` and `all` are calls
  again, to any depth. `performAll_trace`: a trace then records these very calls.
- `Call.holds`: what a call demands of a record. A predicate has to hold; of `any` some branch has to hold with all its
  calls, of `all` every branch has to; sort keys demand nothing.
- `Call.keysAfter`: the sort keys after a call. What branches do does not count.
- `Keeps`: a selection that keeps of another exactly the places whose records pass a test. `keeps_any`, `keeps_all`: so do
  the joins of branches that keep by tests.
- `perform_keeps`: one call keeps what it demands. Induction over the call and its branches; the places ascend throughout,
  as `any` and `all` put them into ascending order.
- `after_call`: what a call does to the selection that any calls have made of some records.
-/
import FieldSearch.Proofs.Records.Selection
import FieldSearch.Query.Trace

namespace FieldSearch

/-! ## Calls made again, and what they demand -/

namespace Call

section

variable {Q : Type} [Query Q]

mutual

/-- makes a call; there are no notes of builders among the calls -/
def perform : Call Empty → Q → Q
  | .filter predicate => Query.filter predicate
  | .orderBy direction property => Query.orderBy direction property
  | .thenBy direction property => Query.thenBy direction property
  | .any branches => Query.any (performEach branches)
  | .all branches => Query.all (performEach branches)

/-- makes calls one after the other -/
def performAll : List (Call Empty) → Q → Q
  | [] => id
  | call :: calls => fun q => performAll calls (call.perform q)

/-- makes the calls of each branch -/
def performEach : List (List (Call Empty)) → List (Q → Q)
  | [] => []
  | calls :: branches => performAll calls :: performEach branches

end

theorem performEach_eq (branches : List (List (Call Empty))) : performEach (Q := Q) branches = branches.map performAll := by
  induction branches with
  | nil => rfl
  | cons calls branches ih => rw [performEach, ih, List.map_cons]

theorem performAll_append (calls more : List (Call Empty)) (q : Q) :
    performAll (calls ++ more) q = performAll more (performAll calls q) := by
  induction calls generalizing q with
  | nil => rfl
  | cons call calls ih => exact ih (call.perform q)

end

mutual

/-- a trace records a call that is made again as it was -/
theorem perform_trace (call : Call Empty) (t : Trace Empty) : call.perform t = t.record call := by
  cases call with
  | filter predicate => rfl
  | orderBy direction property => rfl
  | thenBy direction property => rfl
  | any branches =>
    exact congrArg (fun calls => t.record (.any calls)) (performEach_trace branches)
  | all branches =>
    exact congrArg (fun calls => t.record (.all calls)) (performEach_trace branches)
  | note entry => exact entry.elim

theorem performAll_trace (calls : List (Call Empty)) (t : Trace Empty) : performAll calls t = ⟨t.calls ++ calls⟩ := by
  cases calls with
  | nil => rw [List.append_nil]; rfl
  | cons call calls =>
    calc performAll (call :: calls) t
        = performAll calls (call.perform t) := rfl
      _ = ⟨(t.calls ++ [call]) ++ calls⟩ := by rw [perform_trace call t, performAll_trace calls, Trace.record]
      _ = ⟨t.calls ++ call :: calls⟩ := by rw [List.append_assoc, List.singleton_append]

/-- and so it does with the calls of branches -/
theorem performEach_trace (branches : List (List (Call Empty))) :
    (performEach branches).map Trace.branchCalls = branches := by
  cases branches with
  | nil => rfl
  | cons calls branches =>
    rw [performEach, List.map_cons, performEach_trace branches, Trace.branchCalls, performAll_trace calls {}]
    rfl

end

mutual

/-- whether a record satisfies a call -/
def holds (record : Json) : Call Empty → Bool
  | .filter predicate => predicate.holds record
  | .orderBy .. => true
  | .thenBy .. => true
  | .any branches => someHold record branches
  | .all branches => eachHold record branches

/-- whether a record satisfies each of some calls -/
def allHold (record : Json) : List (Call Empty) → Bool
  | [] => true
  | call :: calls => call.holds record && allHold record calls

/-- whether a record satisfies all calls of some branch -/
def someHold (record : Json) : List (List (Call Empty)) → Bool
  | [] => false
  | calls :: branches => allHold record calls || someHold record branches

/-- whether a record satisfies all calls of every branch -/
def eachHold (record : Json) : List (List (Call Empty)) → Bool
  | [] => true
  | calls :: branches => allHold record calls && eachHold record branches

end

theorem allHold_eq (record : Json) (calls : List (Call Empty)) : allHold record calls = calls.all (holds record) := by
  induction calls with
  | nil => rfl
  | cons call calls ih => rw [allHold, ih, List.all_cons]

/-- `any` demands some branch with all its calls -/
theorem holds_any (record : Json) (branches : List (List (Call Empty))) :
    (Call.any branches).holds record = branches.any fun calls => calls.all (holds record) := by
  rw [holds]
  induction branches with
  | nil => rfl
  | cons calls branches ih => rw [someHold, ih, allHold_eq, List.any_cons]

/-- `all` demands every branch with all its calls -/
theorem holds_all (record : Json) (branches : List (List (Call Empty))) :
    (Call.all branches).holds record = branches.all fun calls => calls.all (holds record) := by
  rw [holds]
  induction branches with
  | nil => rfl
  | cons calls branches ih => rw [eachHold, ih, allHold_eq, List.all_cons]

/-- the sort keys after a call -/
def keysAfter (keys : List (String × Direction)) : Call Empty → List (String × Direction)
  | .orderBy direction property => [(property, direction)]
  | .thenBy direction property => keys ++ [(property, direction)]
  | .filter _ | .any _ | .all _ => keys

end Call

namespace Selection

/-! ## Selections that keep places by a test -/

/-- a selection that keeps of another exactly the places whose records pass a test -/
structure Keeps (test : Json → Bool) (s kept : Selection) : Prop where
  records : kept.records = s.records
  selected : kept.selected = s.selected.filter fun i => test (s.record i)

variable {s kept last : Selection} {test next : Json → Bool}

theorem Keeps.trans (h : Keeps test s kept) (hnext : Keeps next kept last) :
    Keeps (fun record => test record && next record) s last := by
  have hrecord : ∀ i, kept.record i = s.record i := fun i => by rw [record, record, h.records]
  refine ⟨hnext.records.trans h.records, ?_⟩
  rw [hnext.selected, h.selected, List.filter_filter]
  simp only [hrecord, Bool.and_comm]

theorem Keeps.ascending (h : Keeps test s kept) (hs : s.Ascending) : kept.Ascending := by
  obtain ⟨places, hplaces⟩ := hs
  refine ⟨fun i => test (s.record i) && places i, ?_⟩
  rw [h.selected, h.records, hplaces, List.filter_filter]

/-- sort keys keep all places -/
theorem keeps_order (s : Selection) (keys : List (String × Direction)) :
    Keeps (fun _ => true) s { s with order := keys } :=
  ⟨rfl, (List.filter_eq_self.2 fun _ _ => rfl).symm⟩

/-- a selection keeps all of its own places -/
theorem Keeps.refl (s : Selection) : Keeps (fun _ => true) s s := keeps_order s s.order

theorem keeps_filter (s : Selection) (predicate : Predicate) : Keeps (predicate.holds ·) s (s.filter predicate) := ⟨rfl, rfl⟩

section Branches

variable {ρ : Type} {runs : List ρ} {branch : ρ → Selection → Selection} {tests : ρ → Json → Bool}

/-- which of the selected places the branches select -/
theorem contains_branch (h : ∀ run ∈ runs, Keeps (tests run) s (branch run s)) {i : Nat} (hi : i ∈ s.selected) :
    ∀ run ∈ runs, (branch run s).selected.contains i = tests run (s.record i) := by
  intro run hrun
  rw [(h run hrun).selected, Bool.eq_iff_iff, List.contains_iff_mem, List.mem_filter, and_iff_right hi]

/-- `all` keeps the places that pass the test of every branch -/
theorem keeps_all (hs : s.Ascending) (h : ∀ run ∈ runs, Keeps (tests run) s (branch run s)) :
    Keeps (fun record => runs.all fun run => tests run record) s (s.all (runs.map branch)) := by
  rw [all_eq_filter hs]
  refine ⟨rfl, List.filter_congr fun i hi => ?_⟩
  rw [branchSelections, List.map_map, List.all_map, Bool.eq_iff_iff, List.all_eq_true, List.all_eq_true]
  refine forall₂_congr fun run hrun => ?_
  rw [Function.comp_apply, Function.comp_apply, contains_branch h hi run hrun]

/-- `any` keeps the places that pass the test of some branch -/
theorem keeps_any (hs : s.Ascending) (h : ∀ run ∈ runs, Keeps (tests run) s (branch run s)) :
    Keeps (fun record => runs.any fun run => tests run record) s (s.any (runs.map branch)) := by
  have hnarrow : ∀ b ∈ runs.map branch, (b s).selected ⊆ s.selected := by
    rintro _ hb
    obtain ⟨run, hrun, rfl⟩ := List.mem_map.1 hb
    rw [(h run hrun).selected]
    exact List.filter_subset_self _
  rw [any_eq_filter hs hnarrow]
  refine ⟨rfl, List.filter_congr fun i hi => ?_⟩
  rw [branchSelections, List.map_map, List.any_map, Bool.eq_iff_iff, List.any_eq_true, List.any_eq_true]
  refine exists_congr fun run => and_congr_right fun hrun => ?_
  rw [Function.comp_apply, Function.comp_apply, contains_branch h hi run hrun]

end Branches

/-! ## What calls keep -/

mutual

/-- **A call keeps what it demands.** -/
theorem perform_keeps (call : Call Empty) {s : Selection} (h : s.Ascending) :
    Keeps (fun record => call.holds record) s (call.perform s) := by
  cases call with
  | filter predicate => exact keeps_filter s predicate
  | orderBy direction property => exact keeps_order s _
  | thenBy direction property => exact keeps_order s _
  | any branches =>
    simp only [Call.holds_any, Call.perform, Call.performEach_eq]
    exact keeps_any h (performEach_keep branches h)
  | all branches =>
    simp only [Call.holds_all, Call.perform, Call.performEach_eq]
    exact keeps_all h (performEach_keep branches h)
  | note entry => exact entry.elim

/-- calls one after the other keep what each of them demands -/
theorem performAll_keeps (calls : List (Call Empty)) {s : Selection} (h : s.Ascending) :
    Keeps (fun record => calls.all (Call.holds record)) s (Call.performAll calls s) := by
  cases calls with
  | nil => exact .refl s
  | cons call calls =>
    have hcall := perform_keeps call h
    exact hcall.trans (performAll_keeps calls (hcall.ascending h))

/-- and so do the calls of each branch -/
theorem performEach_keep (branches : List (List (Call Empty))) {s : Selection} (h : s.Ascending) :
    ∀ calls ∈ branches, Keeps (fun record => calls.all (Call.holds record)) s (Call.performAll calls s) := by
  cases branches with
  | nil => exact fun _ hcalls => absurd hcalls List.not_mem_nil
  | cons calls branches => exact List.forall_mem_cons.2 ⟨performAll_keeps calls h, performEach_keep branches h⟩

end

/-- the sort keys after a call -/
theorem order_perform (call : Call Empty) (s : Selection) : (call.perform s).order = Call.keysAfter s.order call := by
  cases call with
  | note entry => exact entry.elim
  | _ => rfl

theorem order_performAll (calls : List (Call Empty)) (s : Selection) :
    (Call.performAll calls s).order = calls.foldl Call.keysAfter s.order := by
  induction calls generalizing s with
  | nil => rfl
  | cons call calls ih => rw [Call.performAll, ih, order_perform, List.foldl_cons]

/-! ## Searching records -/

/-- the selection of records after calls -/
def after (records : List Json) (calls : List (Call Empty)) : Selection := Call.performAll calls (ofRecords records)

variable (records : List Json) (calls : List (Call Empty))

/-- calls keep of all records those that satisfy each of them -/
theorem after_keeps : Keeps (fun record => calls.all (Call.holds record)) (ofRecords records) (after records calls) :=
  performAll_keeps calls (ascending_ofRecords records)

theorem after_ascending : (after records calls).Ascending :=
  (after_keeps records calls).ascending (ascending_ofRecords records)

theorem after_append (call : Call Empty) : after records (calls ++ [call]) = call.perform (after records calls) :=
  Call.performAll_append calls [call] _

/-- **Calls narrow a selection to what they demand.** After any calls on any records the selected places ascend, each one
once, and are places of records. One call more selects some of these places: exactly those whose records satisfy the
call, which `any` of no branches no record does and `all` of no branches every record. The sort keys are those that the
calls set themselves, whatever their branches do. -/
theorem after_call (call : Call Empty) :
    (after records calls).selected.Pairwise (· < ·) ∧
      (∀ i ∈ (after records calls).selected, i < records.length) ∧
      (after records (calls ++ [call])).selected.Sublist (after records calls).selected ∧
      (∀ i record, records[i]? = some record →
        (i ∈ (after records (calls ++ [call])).selected ↔
          i ∈ (after records calls).selected ∧ call.holds record = true)) ∧
      (after records calls).order = calls.foldl Call.keysAfter [] := by
  have hascending := after_ascending records calls
  have hrecords : (after records calls).records = records.toArray := (after_keeps records calls).records
  have hcall : Keeps (fun record => call.holds record) (after records calls) (after records (calls ++ [call])) := by
    rw [after_append]
    exact perform_keeps call hascending
  refine ⟨hascending.pairwise, fun i hi => ?_, ?_, fun i record hi => ?_, order_performAll calls _⟩
  · have hlt := hascending.lt_size hi
    rwa [hrecords, List.size_toArray] at hlt
  · rw [hcall.selected]
    exact List.filter_sublist
  · have hrecord : (after records calls).record i = record := by
      simp [Selection.record, hrecords, hi]
    rw [hcall.selected, List.mem_filter, hrecord]

/-- the orderings of a branch change neither the sort keys nor the order of the places -/
example :
    let wanted : Call Empty := .filter (.equals "kept" (.boolean true))
    let s := after [.object [("kept", .bool true)], .null, .object [("kept", .bool true)], .object []]
      [.orderBy .descending "year", .any [[wanted, .orderBy .ascending "kept"], [.all []], [.any []]], wanted]
    s.selected = [0, 2] ∧ s.order = [("year", .descending)] := by
  decide +kernel

end Selection

end FieldSearch
