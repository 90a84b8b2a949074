/-
Filters on text, and which of them find every occurrence.

- `occursIn_iff`: a text is looked for as a contiguous part.
- `holds_matching_text`: the filter on `v` selects a record whose text, or one of whose texts, has in lower case the lower
  case of `v` in it.
- `text_search_complete_iff`: it selects every record with `v` itself in such a text exactly if every `Σ` in `v` is settled.
  A `Σ` at the end of `v` is not, since its lower case depends on whether the word goes on behind it.
- `text_search_missed_streets`: a filter on a word with such an end does not select the record of a longer word.
-/
import FieldSearch.Proofs.Text.LowerCase
import FieldSearch.Records.Evaluation

namespace FieldSearch

theorem occursIn_iff {needle hay : List Char} : occursIn needle hay = true ↔ needle <:+: hay := by
  induction hay with
  | nil => rw [occursIn, List.isEmpty_iff, List.infix_nil]
  | cons c cs ih => rw [occursIn, Bool.or_eq_true, List.isPrefixOf_iff_prefix, ih, List.infix_cons_iff]

/-- the text that a value has, or one of the texts that it has -/
def HasString (value : Json) (t : String) : Prop := value = .string t ∨ ∃ items, value = .array items ∧ .string t ∈ items

theorem hasText_string (v t : String) :
    hasText v (.string t) = true ↔ lowerChars [] v.toList <:+: lowerChars [] t.toList := by
  rw [hasText, occursIn_iff, lowerCase, lowerCase, String.toList_ofList, String.toList_ofList, textOf]

/-- a record is selected for a text of its value that has the lower case of `v` in it -/
theorem holds_matching_text {record value : Json} {property v t : String} (h : lookup record property = some value)
    (ht : HasString value t) (hcontained : lowerChars [] v.toList <:+: lowerChars [] t.toList) :
    (Predicate.matching property .text v).holds record = true := by
  rw [Predicate.matching, Predicate.holds, h]
  rcases ht with rfl | ⟨items, rfl, hmem⟩
  · exact (hasText_string v t).2 hcontained
  · exact List.any_eq_true.2 ⟨.string t, hmem, (hasText_string v t).2 hcontained⟩

/-- a record that is given by one text -/
def titled (t : String) : Json := .object [("title", .string t)]

theorem lookup_titled (t : String) : lookup (titled t) "title" = some (.string t) := by
  have hkeys : pathKeys "title" = ["title"] := by decide
  rw [lookup, hkeys]
  rfl

/-- **Which filters on text find every occurrence.** The filter on `v` selects every record with a text around `v` as its
value, or as an item of its value, exactly if whether a `Σ` in `v` ends a word is settled within `v`. So it is for a text
without `Σ`. -/
theorem text_search_complete_iff (v : String) :
    ((∀ record property value t a b, lookup record property = some value → HasString value t → t = a ++ v ++ b →
        (Predicate.matching property .text v).holds record = true) ↔ settled v = true) ∧
      ('Σ' ∉ v.toList → settled v = true) := by
  refine ⟨?_, settled_of_noSigma⟩
  rw [settled, ← lowered_infix_iff]
  constructor
  · intro h a b
    have htext : (String.ofList a ++ v ++ String.ofList b).toList = a ++ v.toList ++ b := by simp
    have hselected := h (titled _) "title" _ _ _ _ (lookup_titled _) (Or.inl rfl)
      (rfl : String.ofList a ++ v ++ String.ofList b = _)
    rw [Predicate.matching, Predicate.holds, lookup_titled] at hselected
    rw [← htext]
    exact (hasText_string v _).1 hselected
  · rintro h record property value t a b hlookup hstring rfl
    refine holds_matching_text hlookup hstring ?_
    rw [String.toList_append, String.toList_append]
    exact h a.toList b.toList

/-- behind a blank the last `Σ` ends its word in every text -/
theorem text_search_complete_streets :
    settled "ΟΔΟΣ " = true ∧ (Predicate.matching "title" .text "ΟΔΟΣ ").holds (titled "Η ΟΔΟΣ ΜΑΣ") = true := by
  have hsettled : settled "ΟΔΟΣ " = true := by decide +kernel
  exact ⟨hsettled, (text_search_complete_iff "ΟΔΟΣ ").1.2 hsettled _ _ _ _ "Η " "ΜΑΣ" (lookup_titled _) (Or.inl rfl)
    (by decide)⟩

/-- A filter on a word that ends in `Σ` does not select the record of a word that starts with it. -/
theorem text_search_missed_streets :
    lookup (titled "ΟΔΟΣΗΜΑΝΣΗ") "title" = some (.string "ΟΔΟΣΗΜΑΝΣΗ") ∧ "ΟΔΟΣΗΜΑΝΣΗ" = "" ++ "ΟΔΟΣ" ++ "ΗΜΑΝΣΗ" ∧
      (Predicate.matching "title" .text "ΟΔΟΣ").holds (titled "ΟΔΟΣΗΜΑΝΣΗ") = false :=
  ⟨lookup_titled _, by decide, by decide +kernel⟩

end FieldSearch
