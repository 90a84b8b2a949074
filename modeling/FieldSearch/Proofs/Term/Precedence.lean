/-
What the value of a term for many values says, token by token.

- `parse_named`: a well-shaped operation behind the name of a term, in any case, is read as this one term with this
  operation. So its text fixes the tree: `AND` binds tighter than `OR` and `NOT`, which stand on one level, and all of them
  join from the left.
- `operation_exact`: well-shaped operations are all that is ever read as the value of such a term.
-/
import FieldSearch.Proofs.Term.Image
import FieldSearch.Proofs.Term.RoundTrip

namespace FieldSearch

namespace TermRegistry

variable {Q : Type} {r : TermRegistry Q}

/-- a name that leads to a term is an identifier, as the name of the term is -/
theorem identifier_of_get? (hr : r.Keyed) {name : String} {t : TermOption Q} (h : r.get? name = some t) :
    isIdentifier name = true := by
  obtain ⟨hkey, hid⟩ := hr _ (Registry.mem_of_lookup h)
  calc isIdentifier name
      = isIdentifier (nameKey name) := (isIdentifier_nameKey name).symm
    _ = isIdentifier t.name := by rw [show nameKey name = nameKey t.name from hkey, isIdentifier_nameKey]
    _ = true := hid

/-- a name and a well-shaped operation are read as a term -/
theorem readTerm_many (hr : r.Keyed) {name : String} {t : TermOption Q} (ht : r.get? name = some t)
    (hmany : t.builders.condition = .many) {n : Operation} (hn : n.WellShaped) {c : Cursor}
    (h : c.rest = (name ++ ":" ++ n.literal).toList) :
    (r.readTerm c).value = some (.named t.name n, c.advance (name ++ ":" ++ n.literal).length) := by
  have hrest : c.rest = name.toList ++ ':' :: n.literal.toList := by simp [h]
  have hvalue : (c.advance (name.length + 1)).rest = n.literal.toList := Cursor.rest_advance_name hrest
  have hskip : (c.advance (name.length + 1)).skipBlanks = c.advance (name.length + 1) :=
    Operation.skipBlanks_literal hn (hvalue.trans (List.append_nil _).symm)
  have hread := Operation.readMany_written hn hvalue
  have hlength : (name ++ ":" ++ n.literal).length = name.length + 1 + n.literal.length := by
    simp [← String.length_toList, Nat.add_assoc, Nat.add_comm 1]
  rw [readTerm, Cursor.termName_written (identifier_of_get? hr ht) hrest]
  simp only [ht, hmany, hskip, Operation.read]
  rw [Reply.value_map, hread, Cursor.advance_advance, hlength]
  rfl

/-- **A well-shaped operation is read as it is written** behind the name of a term for many values, in any case. -/
theorem parse_named (hr : r.Keyed) {name : String} {t : TermOption Q} (ht : r.get? name = some t)
    (hmany : t.builders.condition = .many) {n : Operation} (hn : n.WellShaped) :
    r.parse (name ++ ":" ++ n.literal) = .ok [.named t.name n] := by
  -- the only item is written as it stands in the text, where its name may have another case
  let write : Term → String := fun _ => name ++ ":" ++ n.literal
  have hsolid : ∀ a ∈ [Term.named t.name n], (write a).toList ≠ [] ∧ Solid (write a).toList := by
    intro a _
    have hlist : (write a).toList = name.toList ++ ':' :: n.literal.toList := by simp [write]
    rw [hlist]
    exact ⟨by simp, identifier_solid (identifier_of_get? hr ht) _⟩
  have htext : joinSpaced ([Term.named t.name n].map write) = name ++ ":" ++ n.literal := rfl
  rw [parse, ← htext]
  refine readAll_written (readTerm_advances hr) hsolid fun pre a post hitems c hc => ?_
  cases pre with
  | nil =>
    obtain ⟨rfl, rfl⟩ := List.cons.inj hitems
    exact readTerm_many hr ht hmany hn (hc.trans (List.append_nil _))
  | cons p pre => simp at hitems

/-- **The value of a term for many values is exactly what its text spells out.** Behind any name that leads to such a term,
the text of a well-shaped operation is read as this operation and nothing else, and no text is read as an operation of
another shape. -/
theorem operation_exact {options : List (TermOption Q)} (hr : ofTerms options = .ok r) :
    (∀ name t, r.get? name = some t → t.builders.condition = .many → ∀ n : Operation, n.WellShaped →
        r.parse (name ++ ":" ++ n.literal) = .ok [.named t.name n]) ∧
      ∀ text terms, r.parse text = .ok terms → ∀ t ∈ terms, r.conditionOf t.name = .many → t.operation.WellShaped := by
  have hkeyed := ofTerms_keyed hr
  refine ⟨fun name t ht hmany n hn => parse_named hkeyed ht hmany hn, fun text terms h t ht _ => ?_⟩
  exact ((parse_legible hkeyed h).1 t ht).shape

/-- keeps the values that are wanted -/
def wanted : Builder (List String) := fun _ value values => values ++ [value]

/-- drops a value -/
def unwanted : Builder (List String) := fun _ value values => values.erase value

/-- a term for many values whose name is a keyword -/
def topic : TermOption (List String) := ⟨"Not", true, .many wanted unwanted⟩

/-- its registry -/
def topicRegistry : TermRegistry (List String) := ⟨⟨[("not", topic)]⟩, some "not"⟩

/-- every operator and every token, and values that are keywords or empty -/
def mixedOperation : Operation :=
  .or (.not (.or (.and (.and (.unary "a") (.notUnary "!" "b c") "&&") (.group (.or (.unary "d") (.unary "e") " ")) "AND")
    (.notUnary "-" "OR") "||") "" "NOT") (.and (.unary "f") (.notUnary "NOT" "g") "AND") " "

theorem operation_exact_topic :
    ofTerms [topic] = .ok topicRegistry ∧ topicRegistry.get? "NOT" = some topic ∧ mixedOperation.WellShaped ∧
      topicRegistry.parse "NOT:a && !\"b c\" AND (d e) || -\"OR\" NOT \"\" f AND NOT g" =
        .ok [.named "Not" mixedOperation] ∧
      topicRegistry.parse "a NOT b c&&d" =
        .ok [.default "Not" (.or (.not (.unary "a") "b" "NOT") (.and (.unary "c") (.unary "d") "&&") " ")] ∧
      (Operation.or (.not (.unary "a") "b" "NOT") (.and (.unary "c") (.unary "d") "&&") " ").WellShaped := by
  have hr : ofTerms [topic] = .ok topicRegistry := rfl
  have hshape : mixedOperation.WellShaped := by decide
  obtain ⟨hread, hshaped⟩ := operation_exact hr
  have htext : "NOT" ++ ":" ++ mixedOperation.literal =
      "NOT:a && !\"b c\" AND (d e) || -\"OR\" NOT \"\" f AND NOT g" := by decide
  have hmixed := hread "NOT" topic rfl rfl mixedOperation hshape
  have hparse : topicRegistry.parse "a NOT b c&&d" =
      .ok [.default "Not" (.or (.not (.unary "a") "b" "NOT") (.and (.unary "c") (.unary "d") "&&") " ")] := by
    decide +kernel
  rw [htext] at hmixed
  exact ⟨hr, rfl, hshape, hmixed, hparse, hshaped _ _ hparse _ List.mem_cons_self rfl⟩

end TermRegistry

end FieldSearch
