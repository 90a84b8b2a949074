/-
Which statement of a form takes the place of which statement of a query.

- `withBefore`: each statement of a list with those in front of it. A filter is known by its field and by how many filters
  of that field stand in front of it, and this is all that a merge goes by: `replacement?`, `takesPlace`.
- `mergeStatements_cons`: the two things that a step of a merge can do. All that follows is by induction along the query
  with these two cases.
- `mergeStatements_eq`: a merge is the query with every replacement made, and behind it the form without the statements
  that take a place.
- `filtersOf_merge`, `unfiltered_merge`, `merge_perm`: what a merge is for each field and for the statements that filter no
  field, and that it neither loses nor repeats a statement of the form.
-/
import FieldSearch.Proofs.Statement.Merging

namespace FieldSearch

open Statement

/-! ## The filters of a field -/

/-- whether a statement filters some field -/
def Statement.isFieldFilter : Statement → Bool
  | .fieldFilter .. => true
  | _ => false

/-- the filters of a field in their order -/
def filtersOf (name : String) (l : List Statement) : List Statement := l.filter (filtersField name)

theorem filtersField_congr {m n : String} (h : sameName m n = true) : filtersField m = filtersField n := by
  funext s
  cases s with
  | fieldFilter other e => simp only [filtersField, sameName, beq_iff_eq.1 h]
  | _ => rfl

/-- a statement that filters a field filters that field only, under any spelling of its name -/
theorem filtersField_eq {name : String} {s : Statement} (h : s.filtersField name = true) (m : String) :
    s.filtersField m = sameName m name := by
  cases s with
  | fieldFilter other e =>
    have hname : nameKey name = nameKey other := beq_iff_eq.1 h
    simp only [filtersField, sameName, hname]
  | _ => simp [filtersField] at h

theorem filtersField_self (name : String) (e : FilterExpr) : (Statement.fieldFilter name e).filtersField name = true := by
  simp [filtersField, sameName]

theorem isFieldFilter_of_filtersField {name : String} {s : Statement} (h : s.filtersField name = true) :
    s.isFieldFilter = true := by
  cases s with
  | fieldFilter other e => rfl
  | _ => simp [filtersField] at h

@[simp] theorem filtersOf_nil (name : String) : filtersOf name [] = [] := rfl

@[simp] theorem filtersOf_append (name : String) (l r : List Statement) :
    filtersOf name (l ++ r) = filtersOf name l ++ filtersOf name r := List.filter_append ..

theorem filtersOf_cons_of {name : String} {s : Statement} (h : s.filtersField name = true) (l : List Statement) :
    filtersOf name (s :: l) = s :: filtersOf name l := List.filter_cons_of_pos h

theorem filtersOf_cons_other {name : String} {s : Statement} (h : s.filtersField name = false) (l : List Statement) :
    filtersOf name (s :: l) = filtersOf name l := List.filter_cons_of_neg (by simp [h])

theorem filtersOf_eq_nil {name : String} {l : List Statement} :
    filtersOf name l = [] ↔ ∀ s ∈ l, s.filtersField name = false := by
  simp only [filtersOf, List.filter_eq_nil_iff, Bool.not_eq_true]

theorem filtersOf_congr {m n : String} (h : sameName m n = true) (l : List Statement) : filtersOf m l = filtersOf n l := by
  rw [filtersOf, filtersOf, filtersField_congr h]

/-- a filter that is taken out is the first of its field, and no filter of another -/
theorem filtersOf_taken {name : String} {form others : List Statement} {found : Statement}
    (h : takeFilter name form = some (found, others)) (m : String) :
    filtersOf m form = if sameName m name then found :: filtersOf m others else filtersOf m others := by
  obtain ⟨pre, post, rfl, rfl, hfound, hpre⟩ := takeFilter_spec h
  rw [filtersOf_append, filtersOf_append]
  split_ifs with hm
  · have hnone : filtersOf m pre = [] := by
      rw [filtersOf_congr hm]
      exact filtersOf_eq_nil.2 hpre
    rw [hnone, filtersOf_cons_of ((filtersField_eq hfound m).trans hm), List.nil_append, List.nil_append]
  · rw [filtersOf_cons_other ((filtersField_eq hfound m).trans (Bool.eq_false_of_not_eq_true hm))]

/-- a statement whose field a form does not filter -/
def Unmatched (s : Statement) (form : List Statement) : Prop :=
  ∀ name, s.filtersField name = true → filtersOf name form = []

/-- a filter of a field that a list does not filter is unmatched in it -/
theorem unmatched_of_filtersField {name : String} {s : Statement} {l : List Statement}
    (hs : s.filtersField name = true) (hl : ∀ t ∈ l, t.filtersField name = false) : Unmatched s l := by
  intro m hm
  have hsame : sameName m name = true := (filtersField_eq hs m).symm.trans hm
  rw [filtersOf_congr hsame]
  exact filtersOf_eq_nil.2 hl

/-- an unmatched statement shares its field with none of the form -/
theorem Unmatched.apart {s : Statement} {form : List Statement} (h : Unmatched s form) :
    ∀ t ∈ form, ∀ m, t.filtersField m = true → s.filtersField m = false := by
  intro t ht m hm
  by_contra hs
  rw [Bool.not_eq_false] at hs
  rw [filtersOf_eq_nil.1 (h m hs) t ht] at hm
  exact absurd hm (by decide)

/-- a step of a merge: the first filter of the statement's field takes its place, or the form has none and it stays -/
theorem mergeStatements_cons (s : Statement) (query form : List Statement) :
    (∃ name found others, s.filtersField name = true ∧ takeFilter name form = some (found, others) ∧
      mergeStatements (s :: query) form = found :: mergeStatements query others) ∨
    (Unmatched s form ∧ mergeStatements (s :: query) form = s :: mergeStatements query form) := by
  cases s with
  | fieldFilter name e =>
    rw [mergeStatements]
    cases htake : takeFilter name form with
    | some taken => exact Or.inl ⟨name, taken.1, taken.2, filtersField_self name e, htake, rfl⟩
    | none =>
      have hun := unmatched_of_filtersField (filtersField_self name e) (takeFilter_eq_none.1 htake)
      exact Or.inr ⟨hun, rfl⟩
  | _ => exact Or.inr ⟨fun name h => by simp [filtersField] at h, rfl⟩

/-! ## Who takes whose place -/

/-- each statement of a list with those in front of it -/
def withBefore (l : List Statement) : List (List Statement × Statement) := l.mapIdx fun i s => (l.take i, s)

/-- the form statement that takes the place of a statement of the query: for the `k`-th filter of a field the `k`-th one
of the form -/
def replacement? (form before : List Statement) : Statement → Option Statement
  | .fieldFilter name _ => (filtersOf name form)[(filtersOf name before).length]?
  | _ => none

/-- whether a statement of the form takes a place in the query: the `k`-th filter of a field does where the query has
`k` of them -/
def takesPlace (query before : List Statement) : Statement → Bool
  | .fieldFilter name _ => decide ((filtersOf name before).length < (filtersOf name query).length)
  | _ => false

/-- the query with every replacement made -/
def replaced (query form : List Statement) : List Statement :=
  (withBefore query).map fun p => (replacement? form p.1 p.2).getD p.2

/-- the statements of the query that are not replaced -/
def kept (query form : List Statement) : List Statement :=
  ((withBefore query).filter fun p => (replacement? form p.1 p.2).isNone).map Prod.snd

/-- the statements of the form that take no place -/
def appended (query form : List Statement) : List Statement :=
  ((withBefore form).filter fun p => !takesPlace query p.1 p.2).map Prod.snd

theorem getElem?_withBefore (l : List Statement) (i : Nat) :
    (withBefore l)[i]? = l[i]?.map fun s => (l.take i, s) := by
  rw [withBefore, List.getElem?_mapIdx]

theorem withBefore_cons (s : Statement) (l : List Statement) :
    withBefore (s :: l) = ([], s) :: (withBefore l).map fun p => (s :: p.1, p.2) := by
  apply List.ext_getElem?
  intro i
  cases i with
  | zero => simp [getElem?_withBefore]
  | succ i => simp [getElem?_withBefore, Function.comp_def]

theorem withBefore_append (l r : List Statement) :
    withBefore (l ++ r) = withBefore l ++ (withBefore r).map fun p => (l ++ p.1, p.2) := by
  induction l with
  | nil => simp [withBefore]
  | cons s l ih => simp [withBefore_cons, ih]

theorem map_snd_withBefore (l : List Statement) : (withBefore l).map Prod.snd = l := by
  apply List.ext_getElem?
  intro i
  simp [getElem?_withBefore]

theorem mem_of_withBefore {l : List Statement} {p : List Statement × Statement} (h : p ∈ withBefore l) : p.2 ∈ l := by
  rw [← map_snd_withBefore l]
  exact List.mem_map_of_mem h

/-- the first filter of a field is replaced by the one that is taken out -/
theorem replacement?_first {name : String} {s found : Statement} {form others : List Statement}
    (hs : s.filtersField name = true) (h : takeFilter name form = some (found, others)) :
    replacement? form [] s = some found := by
  cases s with
  | fieldFilter m e =>
    have hm : sameName m name = true := by
      rw [← filtersField_eq hs]
      exact filtersField_self m e
    rw [replacement?, filtersOf_taken h, if_pos hm]
    rfl
  | _ => simp [filtersField] at hs

/-- behind a filter that was replaced, the replacements are those of a form without the one that was used -/
theorem replacement?_taken {name : String} {s found : Statement} {form others : List Statement}
    (hs : s.filtersField name = true) (h : takeFilter name form = some (found, others)) (before : List Statement)
    (t : Statement) : replacement? form (s :: before) t = replacement? others before t := by
  cases t with
  | fieldFilter m e =>
    rw [replacement?, replacement?, filtersOf_taken h]
    split_ifs with hm
    · rw [filtersOf_cons_of ((filtersField_eq hs m).trans hm), List.length_cons, List.getElem?_cons_succ]
    · rw [filtersOf_cons_other ((filtersField_eq hs m).trans (Bool.eq_false_of_not_eq_true hm))]
  | _ => rfl

/-- nothing takes the place of an unmatched statement -/
theorem Unmatched.replacement_none {s : Statement} {form : List Statement} (h : Unmatched s form)
    (before : List Statement) : replacement? form before s = none := by
  cases s with
  | fieldFilter name e =>
    rw [replacement?, h name (filtersField_self name e)]
    rfl
  | _ => rfl

/-- behind an unmatched statement the replacements are what they were -/
theorem Unmatched.replacement_behind {s : Statement} {form : List Statement} (h : Unmatched s form)
    (before : List Statement) (t : Statement) :
    replacement? form (s :: before) t = replacement? form before t := by
  cases t with
  | fieldFilter name e =>
    rw [replacement?, replacement?]
    cases hs : s.filtersField name with
    | true => rw [h name hs]; rfl
    | false => rw [filtersOf_cons_other hs]
  | _ => rfl

/-- the first filter of a field takes the first place of the field -/
theorem takesPlace_first {name : String} {s found : Statement} {pre : List Statement} (hs : s.filtersField name = true)
    (hfound : found.filtersField name = true) (hpre : ∀ t ∈ pre, t.filtersField name = false) (query : List Statement) :
    takesPlace (s :: query) pre found = true := by
  cases found with
  | fieldFilter m e =>
    have hm : sameName m name = true := by
      rw [← filtersField_eq hfound]
      exact filtersField_self m e
    rw [takesPlace, filtersOf_congr hm, filtersOf_congr hm, filtersOf_eq_nil.2 hpre, filtersOf_cons_of hs]
    exact decide_eq_true (Nat.zero_lt_succ _)
  | _ => simp [filtersField] at hfound

/-- a place of the query and the filter that takes it count for nothing behind them -/
theorem takesPlace_taken {name : String} {s found : Statement} (hs : s.filtersField name = true)
    (hfound : found.filtersField name = true) (query pre before : List Statement) (t : Statement) :
    takesPlace (s :: query) (pre ++ found :: before) t = takesPlace query (pre ++ before) t := by
  cases t with
  | fieldFilter m e =>
    rw [takesPlace, takesPlace, filtersOf_append, filtersOf_append]
    cases hm : sameName m name with
    | true =>
      rw [filtersOf_cons_of ((filtersField_eq hs m).trans hm), filtersOf_cons_of ((filtersField_eq hfound m).trans hm)]
      simp only [List.length_append, List.length_cons, ← Nat.add_assoc, Nat.add_lt_add_iff_right]
    | false =>
      rw [filtersOf_cons_other ((filtersField_eq hs m).trans hm),
        filtersOf_cons_other ((filtersField_eq hfound m).trans hm)]
  | _ => rfl

/-- an unmatched statement is no place for any statement of the list -/
theorem Unmatched.filter_takesPlace {s : Statement} {l : List Statement} (h : Unmatched s l) (query : List Statement) :
    ((withBefore l).filter fun p => !takesPlace (s :: query) p.1 p.2) =
      (withBefore l).filter fun p => !takesPlace query p.1 p.2 := by
  refine List.filter_congr fun p hp => ?_
  have hapart := h.apart p.2 (mem_of_withBefore hp)
  cases hp2 : p.2 with
  | fieldFilter name e =>
    rw [hp2] at hapart
    rw [takesPlace, takesPlace, filtersOf_cons_other (hapart name (filtersField_self name e))]
  | _ => rfl

/-- the filter that takes the first place of its field is left out, all others behave as in the rest of the query -/
theorem appended_taken {name : String} {s found : Statement} {form others : List Statement}
    (hs : s.filtersField name = true) (h : takeFilter name form = some (found, others)) (query : List Statement) :
    appended (s :: query) form = appended query others := by
  obtain ⟨pre, post, rfl, rfl, hfound, hpre⟩ := takeFilter_spec h
  have hfront := (unmatched_of_filtersField hs hpre).filter_takesPlace query
  have hfirst := takesPlace_first hs hfound hpre query
  simp only [appended, withBefore_append, withBefore_cons, List.filter_append, List.map_append, List.map_cons,
    List.map_map, List.filter_map, Function.comp_def, List.append_nil, hfront, List.filter_cons, hfirst, Bool.not_true,
    Bool.false_eq_true, if_false, takesPlace_taken hs hfound]

/-- an unmatched statement leaves the rest of the form as it is -/
theorem Unmatched.appended_cons {s : Statement} {form : List Statement} (h : Unmatched s form)
    (query : List Statement) : appended (s :: query) form = appended query form := by
  rw [appended, appended, h.filter_takesPlace]

/-- no statement takes a place in an empty query -/
theorem appended_nil (form : List Statement) : appended [] form = form := by
  have hnone : ∀ before s, takesPlace [] before s = false := by
    intro before s
    cases s <;> rfl
  simp only [appended, hnone, Bool.not_false, List.filter_true, map_snd_withBefore]

/-! ## A merge and its parts -/

/-- a merge is the query with every replacement made, and behind it what takes no place -/
theorem mergeStatements_eq (query form : List Statement) :
    mergeStatements query form = replaced query form ++ appended query form := by
  induction query generalizing form with
  | nil => rw [appended_nil]; rfl
  | cons s query ih =>
    rw [replaced, withBefore_cons, List.map_cons, List.map_map]
    rcases mergeStatements_cons s query form with ⟨name, found, others, hs, htake, heq⟩ | ⟨hun, heq⟩
    · rw [heq, ih others, appended_taken hs htake, replacement?_first hs htake]
      simp only [Function.comp_def, replacement?_taken hs htake]
      rfl
    · rw [heq, ih form, hun.appended_cons, hun.replacement_none]
      simp only [Function.comp_def, hun.replacement_behind]
      rfl

/-- a merge has every statement of the form once, and besides them the statements of the query that are not replaced -/
theorem merge_perm (query form : List Statement) : (mergeStatements query form).Perm (form ++ kept query form) := by
  induction query generalizing form with
  | nil => simp [mergeStatements, kept, withBefore]
  | cons s query ih =>
    rw [kept, withBefore_cons, List.filter_cons, List.filter_map]
    rcases mergeStatements_cons s query form with ⟨name, found, others, hs, htake, heq⟩ | ⟨hun, heq⟩
    · obtain ⟨pre, post, rfl, rfl, -, -⟩ := takeFilter_spec htake
      rw [heq, replacement?_first hs htake]
      simp only [Function.comp_def, replacement?_taken hs htake, Option.isNone_some, Bool.false_eq_true, if_false,
        List.map_map]
      have htail : (found :: mergeStatements query (pre ++ post)).Perm (found :: (pre ++ post ++ kept query (pre ++ post))) :=
        (ih (pre ++ post)).cons found
      have hplace : (found :: (pre ++ post ++ kept query (pre ++ post))).Perm
          (pre ++ found :: post ++ kept query (pre ++ post)) := by
        rw [List.append_assoc, List.append_assoc, List.cons_append]
        exact List.perm_middle.symm
      exact htail.trans hplace
    · rw [heq, hun.replacement_none]
      simp only [Function.comp_def, hun.replacement_behind, Option.isNone_none, if_true, List.map_cons, List.map_map]
      exact ((ih form).cons s).trans List.perm_middle.symm

/-- of each field a merge has the filters of the form, and behind them those of the query that have no counterpart -/
theorem filtersOf_merge (name : String) (query form : List Statement) :
    filtersOf name (mergeStatements query form) =
      filtersOf name form ++ (filtersOf name query).drop (filtersOf name form).length := by
  induction query generalizing form with
  | nil => simp [mergeStatements]
  | cons s query ih =>
    rcases mergeStatements_cons s query form with ⟨other, found, others, hs, htake, heq⟩ | ⟨hun, heq⟩
    · obtain ⟨-, -, -, -, hfound, -⟩ := takeFilter_spec htake
      have hs' := filtersField_eq hs name
      have hfound' := filtersField_eq hfound name
      rw [heq, filtersOf_taken htake]
      split_ifs with hname
      · rw [filtersOf_cons_of (hfound'.trans hname), filtersOf_cons_of (hs'.trans hname), ih]
        rfl
      · rw [Bool.not_eq_true] at hname
        rw [filtersOf_cons_other (hfound'.trans hname), filtersOf_cons_other (hs'.trans hname), ih]
    · rw [heq]
      cases hs : s.filtersField name with
      | true => rw [filtersOf_cons_of hs, filtersOf_cons_of hs, ih, hun name hs]; rfl
      | false => rw [filtersOf_cons_other hs, filtersOf_cons_other hs, ih]

/-- the statements that filter no field stay as they are, those of the query in front -/
theorem unfiltered_merge (query form : List Statement) :
    (mergeStatements query form).filter (fun s => !s.isFieldFilter) =
      query.filter (fun s => !s.isFieldFilter) ++ form.filter fun s => !s.isFieldFilter := by
  induction query generalizing form with
  | nil => rfl
  | cons s query ih =>
    rcases mergeStatements_cons s query form with ⟨name, found, others, hs, htake, heq⟩ | ⟨-, heq⟩
    · obtain ⟨pre, post, rfl, rfl, hfound, -⟩ := takeFilter_spec htake
      rw [heq]
      simpa [isFieldFilter_of_filtersField hs, isFieldFilter_of_filtersField hfound] using ih (pre ++ post)
    · rw [heq, List.filter_cons, List.filter_cons, ih]
      split_ifs <;> rfl

/-- **A merge goes by field and occurrence.** Each statement of the query stays in its place unless it is the `k`-th filter
of a field of which the form has `k`; the rest of the form follows in its order. So no statement of the form is lost or
repeated, and each field has the filters of the form in front of those that the query keeps. -/
theorem StatementList.merge_by_occurrence (query form : StatementList) :
    (query.merge form).statements.take query.statements.length = replaced query.statements form.statements ∧
    (∀ i : Fin query.statements.length, (query.merge form).statements[i.val]? =
      some ((replacement? form.statements (query.statements.take i) query.statements[i]).getD query.statements[i])) ∧
    (query.merge form).statements.drop query.statements.length = appended query.statements form.statements ∧
    (query.merge form).statements.Perm (form.statements ++ kept query.statements form.statements) ∧
    (∀ name, filtersOf name (query.merge form).statements = filtersOf name form.statements ++
      (filtersOf name query.statements).drop (filtersOf name form.statements).length) ∧
    (query.merge form).statements.filter (fun s => !s.isFieldFilter) =
      query.statements.filter (fun s => !s.isFieldFilter) ++ form.statements.filter fun s => !s.isFieldFilter := by
  have heq : (query.merge form).statements =
      replaced query.statements form.statements ++ appended query.statements form.statements :=
    mergeStatements_eq query.statements form.statements
  have hlength : (replaced query.statements form.statements).length = query.statements.length := by
    simp [replaced, withBefore]
  refine ⟨?_, ?_, ?_, merge_perm _ _, fun name => filtersOf_merge name _ _, unfiltered_merge _ _⟩
  · rw [heq, List.take_left' hlength]
  · intro i
    have hi : i.val < (replaced query.statements form.statements).length := hlength.symm ▸ i.isLt
    rw [heq, List.getElem?_append_left hi, replaced, List.getElem?_map, getElem?_withBefore,
      List.getElem?_eq_getElem i.isLt]
    rfl
  · rw [heq, List.drop_left' hlength]

end FieldSearch
