/-
Whether statements survive in an address, after index contexts have used them.

- `Use`: a call that an index context receives for a list. It puts a default sort into the list, or runs the list and
  notes in it whether a query has been sorted.
- `own`: the statements of the text itself, without default sorts. `own_apply`: one use keeps them. `own_applyAll`: so does
  any number of uses.
- `keptStatements_own`: what is written of a list depends on its own statements only.
- `decode_encode_uses`: the encoded form of a used list reads back as what the text said, its default filters behind the
  first one left out.
-/
import FieldSearch.Index.Execution
import FieldSearch.Proofs.Statement.Merging
import FieldSearch.Proofs.Text.Percent
import FieldSearch.Query.Trace

namespace FieldSearch

/-! ## Uses of a list -/

/-- a call that an index context receives for a list -/
inductive Use : Type 1 where
  /-- puts a default sort into the list; a refusal leaves it as it was -/
  | defaultSort {Q : Type} (ctx : IndexContext Q) (field : String) (direction : Direction)
  | execution {Q : Type} [Query Q] (ctx : IndexContext Q) (q : Q)

namespace StatementList

/-- the list after one use -/
def apply (list : StatementList) : Use → StatementList
  | .defaultSort ctx field direction =>
    match ctx.setDefaultSort list field direction with
    | .ok sorted => sorted
    | .error _ => list
  | @Use.execution _ _ ctx q => (ctx.execute list q).1

/-- the list after some uses, the first one first -/
def applyAll (list : StatementList) (uses : List Use) : StatementList := uses.foldl apply list

/-- the statements of the text itself -/
def own (list : StatementList) : List Statement := list.statements.filter fun s => !s.isDefaultSort

/-! ## What uses keep -/

theorem own_setDefaultSort {Q : Type} {ctx : IndexContext Q} {list sorted : StatementList} {field : String}
    {direction : Direction} (h : ctx.setDefaultSort list field direction = .ok sorted) : sorted.own = list.own := by
  rw [IndexContext.setDefaultSort] at h
  split_ifs at h
  have hsorted := (Except.ok.inj h).symm
  calc sorted.own
      = (list.own ++ [Statement.defaultSort field (.ofDirection direction)]).filter fun s => !s.isDefaultSort := by
        rw [hsorted]
        rfl
    _ = list.own.filter fun s => !s.isDefaultSort := by
        rw [List.filter_append]
        exact List.append_nil _
    _ = list.own := by
        rw [own, List.filter_filter]
        simp only [Bool.and_self]

/-- one use keeps the statements of the text itself -/
theorem own_apply (list : StatementList) (use : Use) : (list.apply use).own = list.own := by
  cases use with
  | defaultSort ctx field direction =>
    rw [apply]
    cases h : ctx.setDefaultSort list field direction with
    | error e => rfl
    | ok sorted => exact own_setDefaultSort h
  | execution ctx q => rfl

/-- any number of uses keeps the statements of the text itself -/
theorem own_applyAll (list : StatementList) (uses : List Use) : (list.applyAll uses).own = list.own := by
  induction uses generalizing list with
  | nil => rfl
  | cons use uses ih => exact (ih (list.apply use)).trans (own_apply list use)

/-- a list as it was read from a text has no statements but its own -/
theorem own_eq {list : StatementList} (h : list.WellShaped) : list.own = list.statements := by
  refine List.filter_eq_self.2 fun s hs => ?_
  cases s with
  | defaultSort field direction => exact absurd (h.each _ hs) id
  | _ => rfl

/-! ## What is written -/

theorem keptBehindDefault_filter (l : List Statement) :
    keptBehindDefault (l.filter fun s => !s.isDefaultSort) = keptBehindDefault l := by
  induction l with
  | nil => rfl
  | cons s rest ih =>
    cases s with
    | defaultSort => exact ih
    | defaultFilter => exact ih
    | fieldFilter | sort => exact congrArg (List.cons _) ih

theorem keptStatements_filter (l : List Statement) :
    keptStatements (l.filter fun s => !s.isDefaultSort) = keptStatements l := by
  induction l with
  | nil => rfl
  | cons s rest ih =>
    cases s with
    | defaultSort => exact ih
    | defaultFilter => exact congrArg (List.cons _) (keptBehindDefault_filter rest)
    | fieldFilter | sort => exact congrArg (List.cons _) ih

/-- what is written of a list is its own statements, with one default filter -/
theorem keptStatements_own (list : StatementList) : keptStatements list.statements = firstDefaultOnly list.own := by
  rw [← keptStatements_filter]
  refine keptStatements_eq fun s hs => ?_
  simpa using (List.mem_filter.1 hs).2

theorem serialize_eq (list : StatementList) :
    list.serialize = joinSpaced ((firstDefaultOnly list.own).map Statement.literal) := by
  rw [serialize, keptStatements_own]

theorem encode_applyAll (list : StatementList) (uses : List Use) : (list.applyAll uses).encode = list.encode := by
  rw [encode, serialize_eq, own_applyAll, ← serialize_eq, encode]

/-- a list without its default filters behind the first one reads back from what is written of it -/
theorem parse_serialize {list : StatementList} (h : list.WellShaped) :
    parse list.serialize = .ok { statements := firstDefaultOnly list.statements } := by
  have hkept : WellShaped { statements := firstDefaultOnly list.statements } :=
    ⟨fun s hs => h.each s (mem_firstDefaultOnly hs), isChain_firstDefaultOnly h.apart⟩
  rw [serialize_eq, own_eq h, ← parse_literal hkept, literal_eq hkept.each]

/-- **Statements survive in an address.** Whatever index contexts have done with a list that a text said, its encoded form
decodes to what the text said, the default filters behind the first one left out. The encoded form holds neither a blank
nor a `+`, and is the one from before all uses, so no default sort that they put in stands in it. -/
theorem decode_encode_uses {text : String} {list : StatementList} (h : parse text = .ok list) (uses : List Use) :
    decode (list.applyAll uses).encode = .ok { list with statements := firstDefaultOnly list.statements } ∧
      ' ' ∉ (list.applyAll uses).encode.toList ∧ '+' ∉ (list.applyAll uses).encode.toList ∧
      (list.applyAll uses).encode = list.encode ∧
      keptStatements (list.applyAll uses).statements = firstDefaultOnly list.statements ∧
      ∀ s ∈ firstDefaultOnly list.statements, s.isDefaultSort = false := by
  obtain ⟨hshape, horder⟩ := parse_shape h
  obtain ⟨hblank, hplus⟩ := Percent.encode_no_blank (list.applyAll uses).serialize
  have hkept : keptStatements (list.applyAll uses).statements = firstDefaultOnly list.statements := by
    rw [keptStatements_own, own_applyAll, own_eq hshape]
  refine ⟨?_, hblank, hplus, encode_applyAll list uses, hkept, fun s hs => ?_⟩
  · calc decode (list.applyAll uses).encode
        = (Percent.decode (Percent.encode list.serialize)).bind parse := by rw [encode_applyAll]; rfl
      _ = parse list.serialize := by rw [Percent.decode_encode]; rfl
      _ = .ok { list with statements := firstDefaultOnly list.statements } := by rw [parse_serialize hshape, ← horder]
  · have hown : s ∈ list.own := by
      rw [own_eq hshape]
      exact mem_firstDefaultOnly hs
    simpa using (List.mem_filter.1 hown).2

/-- an index with a sort by date -/
def datedIndex : IndexContext (Trace Unit) where
  sorts := { entries := [("date", "published")] }

/-- a list with signs in its values that an address treats in a way of its own -/
def percentList : StatementList where
  statements := [.defaultFilter (.matching "50%+ö"), .sort "size" (.ascending false), .defaultFilter (.matching "a&b\\c"),
    .fieldFilter "title" (.and (.group (.or (.matching "x") (.matching "y") "||")) (.notMatching "-" "") " ")]

/-- a default sort is put in, the list is run, and a sort that the index does not know is refused -/
def datedUses : List Use :=
  [.defaultSort datedIndex "date" .descending, .execution datedIndex {}, .defaultSort datedIndex "size" .ascending]

theorem decode_encode_uses_dated :
    parse "50%+ö sort:size \"a&b\\\\c\" title:(x || y) -\"\"" = .ok percentList ∧
      (percentList.applyAll datedUses).hasOrder = true ∧
      (percentList.applyAll datedUses).statements = percentList.statements ++ [.defaultSort "date" .descending] ∧
      (percentList.applyAll datedUses).encode =
        "50%25%2B%C3%B6%20sort%3Asize%20title%3A%28x%20%7C%7C%20y%29%20-%22%22" ∧
      decode (percentList.applyAll datedUses).encode = .ok { statements := [.defaultFilter (.matching "50%+ö"),
        .sort "size" (.ascending false),
        .fieldFilter "title" (.and (.group (.or (.matching "x") (.matching "y") "||")) (.notMatching "-" "") " ")] } := by
  have h : parse "50%+ö sort:size \"a&b\\\\c\" title:(x || y) -\"\"" = .ok percentList :=
    parse_of_literal (by decide) rfl (by decide)
  obtain ⟨hdecode, -⟩ := decode_encode_uses h datedUses
  exact ⟨h, by decide, by decide, by decide, hdecode⟩

end StatementList

end FieldSearch
