/-
Whether the literal text of terms reads back.

- `readMany_name_iff`, `readMany_value`, `readMany_value_and`: whether the value of a term that takes many ends in front of
  what is written behind it. It never ends in front of an unqualified value, which a blank joins to it, unless the name
  `AND` comes behind that value and spoils the join.
- `EndsBefore`, `Separate`: the same as a condition on terms, which can be decided.
- `readTerm_written_iff`: a legible term is read from its text exactly where its value ends.
- `literal_read_back_iff`: the literal text of terms that were read reads back exactly if they are separate.
-/
import FieldSearch.Proofs.Term.Image
import FieldSearch.Proofs.Term.RoundTrip

namespace FieldSearch

namespace Operation

/-- whether an operation excludes a value from what stands left of it -/
def isExclusion : Operation → Bool
  | .not .. => true
  | _ => false

variable {n : Operation} {c b : Cursor} {v : String} {tail : List Char}

/-! ## In front of a name -/

/-- an exclusion ends in front of every name that is neither `OR` nor `NOT` -/
theorem readMany_exclusion {left : Operation} {op name : String} {t : List Char} (hw : (Operation.not left v op).WellShaped)
    (hid : isIdentifier name = true) (ho : name ≠ "OR") (hn : name ≠ "NOT")
    (h : c.rest = (Operation.not left v op).literal.toList ++ ' ' :: (name.toList ++ ':' :: t)) :
    (readMany c).value = some (.not left v op, c.advance (Operation.not left v op).literal.length) := by
  rw [readMany_eq]
  exact (ReadsBack.links_not hw.2 (readsBack hw.1) h (ends_blank _)).ends
    (stopsLink_name hid ho hn _ (Cursor.rest_behind h))

/-- in front of the name `AND` the last operand of an `OR` cannot be read, and with it neither can the `OR` -/
theorem readMany_or_and {left right : Operation} {op : String} {t : List Char}
    (hw : (Operation.or left right op).WellShaped)
    (h : c.rest = (Operation.or left right op).literal.toList ++ ' ' :: ("AND".toList ++ ':' :: t)) :
    (readMany c).value ≠ some (.or left right op, b) := by
  obtain ⟨hlw, hrw, hrc, hop⟩ := hw
  intro hread
  rw [readMany_eq] at hread
  rw [literal] at h
  obtain ⟨h1, h2⟩ := rest_joined h
  rw [joinOperands_toList, List.append_assoc, List.append_assoc] at h
  have hleft := (readsBack hlw).links c _ h (ends_joiner op _) (stopsAnd_or hrw hrc hop (ends_blank _))
  have hright := readAnd_fails hrw hrc h2
  obtain htyped | ⟨rfl, hneg⟩ := or_assoc.2 hop
  · have hlink : (link (c.advance left.literal.length)).value = none := by
      rw [link_typed hrw htyped h1, Reply.map_eq_none]
      exact hright
    cases hread.symm.trans (hleft.fails hlink)
  · -- behind blanks nothing fails, but the value ends in front of them
    rw [writtenJoiner_blank] at h1 hright
    have hopens := opensOperand_literal hrw hrc hneg (c := (c.advance left.literal.length).advance 1)
      (by rw [Cursor.rest_advance, h1]; rfl) (ends_blank _)
    have hlink : (link (c.advance left.literal.length)).value = some (none, c.advance left.literal.length) := by
      rw [link_blank h1 hopens]
      exact Reply.orNone_of_none (Reply.map_eq_none.2 hright) _
    obtain ⟨heq, -⟩ := Prod.mk.inj (Option.some.inj (hread.symm.trans (hleft.ends hlink)))
    have := congrArg sizeOf heq
    simp only [or.sizeOf_spec] at this
    omega

/-- **A value ends in front of a name** exactly if the name is no keyword, or is `AND` behind an exclusion. -/
theorem readMany_name_iff {name : String} {t : List Char} (hw : n.WellShaped) (hid : isIdentifier name = true)
    (h : c.rest = n.literal.toList ++ ' ' :: (name.toList ++ ':' :: t)) :
    (readMany c).value = some (n, b) ↔
      (name ∉ keywords ∨ name = "AND" ∧ n.isExclusion = true) ∧ b = c.advance n.literal.length := by
  by_cases hk : name ∈ keywords
  · simp only [hk, not_true_eq_false, false_or]
    by_cases hna : name = "AND"
    · subst hna
      cases n with
      | not left v op =>
        rw [Reply.eq_some_iff (readMany_exclusion hw hid (by decide) (by decide) h)]
        simp [isExclusion]
      | or left right op => simp [isExclusion, readMany_or_and hw h]
      | _ => simp [isExclusion, readMany_fails hw hk (fun _ => rfl) h]
    · simp [hna, readMany_fails hw hk (fun h0 => absurd h0 hna) h]
  · have hkey := hk
    simp only [keywords, List.mem_cons, List.not_mem_nil, or_false, not_or] at hkey
    have hread := (readsBack hw).readMany h (ends_blank _) (stopsAnd_name hid hkey.1)
      (stopsLink_name hid hkey.2.1 hkey.2.2)
    rw [Reply.eq_some_iff hread]
    simp [hk]

/-! ## In front of an unqualified value -/

theorem stopsAnd_value (ht : Ends tail) : StopsAnd (' ' :: ((writeValue v).toList ++ tail)) := by
  have hvalue : (Operation.unary v).WellShaped := trivial
  have := stopsAnd_or hvalue rfl (Or.inr (Or.inr ⟨rfl, rfl⟩)) ht
  rwa [writtenJoiner_blank] at this

/-- in front of a blank and a value the links of an operation were read, and the blank joins -/
theorem links_before_value (hw : n.WellShaped) (h : c.rest = n.literal.toList ++ ' ' :: ((writeValue v).toList ++ tail))
    (ht : Ends tail) :
    Links n c (c.advance n.literal.length) ∧
      (c.advance n.literal.length).rest = ' ' :: ((writeValue v).toList ++ tail) ∧
        OpensOperand ((c.advance n.literal.length).advance 1) := by
  have hd := Cursor.rest_behind h
  exact ⟨(readsBack hw).links c _ h (ends_blank _) (stopsAnd_value ht), hd,
    opensOperand_written (by rw [Cursor.rest_advance, hd]; rfl) ht⟩

/-- what is joined to an operation makes it no smaller -/
theorem sizeOf_le_foldl_join (links : List Link) (x : Operation) : sizeOf x ≤ sizeOf (links.foldl join x) := by
  induction links generalizing x with
  | nil => exact le_rfl
  | cons found links ih =>
    have hstep : sizeOf x ≤ sizeOf (x.join found) := by
      cases found <;> simp only [join, or.sizeOf_spec, not.sizeOf_spec] <;> omega
    exact hstep.trans (ih (x.join found))

/-- **A value takes up an unqualified value behind it.** -/
theorem readMany_value (hw : n.WellShaped) (h : c.rest = n.literal.toList ++ ' ' :: ((writeValue v).toList ++ tail))
    (ht : Ends tail) (hand : StopsAnd tail) : (readMany c).value ≠ some (n, b) := by
  obtain ⟨hlinks, hd, hopens⟩ := links_before_value hw h ht
  intro hread
  rw [readMany_eq] at hread
  obtain ⟨d, hd'⟩ : ∃ d, d = c.advance n.literal.length := ⟨_, rfl⟩
  rw [← hd'] at hlinks hd hopens
  have hvalue : (d.advance 1).rest = (Operation.unary v).literal.toList ++ tail := by rw [Cursor.rest_advance, hd]; rfl
  have hright := (readsBack (n := .unary v) trivial).readAnd rfl hvalue ht hand
  have hstep : (link d).value =
      some (some (.or blankToken (.unary v)), (d.advance 1).advance (writeValue v).length) := by
    rw [link_blank hd hopens]
    exact Reply.orNone_of_some (Reply.map_eq_some.2 ⟨_, hright, rfl⟩) d
  have hshort := shorter_behind (writeValue_ne_nil v) hvalue
  -- whatever is read has the operation with the value joined to it at its start, so it is larger than the operation
  obtain ⟨links, heq⟩ := (hlinks.snoc hstep hshort).joined_behind hread
  have hgrows := sizeOf_le_foldl_join links (n.join (.or blankToken (.unary v)))
  rw [← heq] at hgrows
  simp only [join, or.sizeOf_spec] at hgrows
  omega

/-- unless that value cannot be joined, because the name `AND` comes behind it -/
theorem readMany_value_and {t : List Char} (hw : n.WellShaped)
    (h : c.rest = n.literal.toList ++ ' ' :: ((writeValue v).toList ++ ' ' :: ("AND".toList ++ ':' :: t))) :
    (readMany c).value = some (n, c.advance n.literal.length) := by
  obtain ⟨hlinks, hd, hopens⟩ := links_before_value hw h (ends_blank _)
  have hvalue : ((c.advance n.literal.length).advance 1).rest =
      (Operation.unary v).literal.toList ++ ' ' :: ("AND".toList ++ ':' :: t) := by
    rw [Cursor.rest_advance, hd]; rfl
  rw [readMany_eq]
  refine hlinks.ends ?_
  rw [link_blank hd hopens]
  exact Reply.orNone_of_none (Reply.map_eq_none.2 (readAnd_fails (n := .unary v) trivial rfl hvalue)) _

/-! ## In front of terms -/

/-- whether a value for many ends in front of the terms that are written behind it -/
def EndsBefore (n : Operation) : List Term → Prop
  | [] => True
  | .named name _ :: _ => name ∉ keywords ∨ name = "AND" ∧ n.isExclusion = true
  | .default .. :: .named name _ :: _ => name = "AND"
  | .default .. :: _ => False

instance decidableEndsBefore (n : Operation) : (post : List Term) → Decidable (n.EndsBefore post)
  | [] => inferInstanceAs (Decidable True)
  | .named .. :: _ => inferInstanceAs (Decidable (_ ∨ _))
  | [.default ..] => inferInstanceAs (Decidable False)
  | .default .. :: .named name _ :: _ => inferInstanceAs (Decidable (name = "AND"))
  | .default .. :: .default .. :: _ => inferInstanceAs (Decidable False)

theorem endsBefore_default {name : String} {x : Operation} {post : List Term} :
    n.EndsBefore (.default name x :: post) ↔ ∃ op later, post = .named "AND" op :: later := by
  cases post with
  | nil => simp [EndsBefore]
  | cons t post => cases t <;> simp [EndsBefore]

end Operation

namespace Term

/-- the term with another value -/
def withOperation : Term → Operation → Term
  | .named name _ => .named name
  | .default name _ => .default name

theorem withOperation_eq {t : Term} {n : Operation} : t.withOperation n = t ↔ n = t.operation := by
  cases t <;> simp [withOperation, operation]

end Term

namespace TermRegistry

variable {Q : Type} {r : TermRegistry Q} {s t : Term} {post terms : List Term} {c b : Cursor}

/-- terms each of which ends in front of those that are written behind it -/
def Separate (r : TermRegistry Q) : List Term → Prop
  | [] => True
  | t :: post => (r.conditionOf t.name = .many → t.operation.EndsBefore post) ∧ r.Separate post

instance decidableSeparate (r : TermRegistry Q) : (terms : List Term) → Decidable (r.Separate terms)
  | [] => inferInstanceAs (Decidable True)
  | t :: post =>
    have := decidableSeparate r post
    inferInstanceAs (Decidable ((r.conditionOf t.name = .many → t.operation.EndsBefore post) ∧ r.Separate post))

theorem separate_iff :
    r.Separate terms ↔ ∀ pre t post, terms = pre ++ t :: post →
      r.conditionOf t.name = .many → t.operation.EndsBefore post := by
  induction terms with
  | nil => simp [Separate]
  | cons s terms ih =>
    rw [Separate, ih]
    constructor
    · rintro ⟨hs, hterms⟩ pre t post heq
      cases pre with
      | nil =>
        obtain ⟨rfl, rfl⟩ := List.cons.inj heq
        exact hs
      | cons p pre => exact hterms pre t post (List.cons.inj heq).2
    · exact fun h => ⟨h [] s terms rfl, fun pre t post heq => h (s :: pre) t post (by rw [heq]; rfl)⟩

/-! ## Legible terms as they are written -/

theorem literal_solid (ht : r.Legible t) : t.literal.toList ≠ [] ∧ Solid t.literal.toList := by
  cases t with
  | named name n =>
    have hl : (Term.named name n).literal.toList = name.toList ++ ':' :: n.literal.toList := by simp [Term.literal]
    rw [hl]
    exact ⟨by simp, identifier_solid ht.bound.identifier _⟩
  | default name n => exact Operation.literal_solid ht.shape

theorem ends_behind (rest : List String) : Ends (writtenBehind rest) := by
  cases rest with
  | nil => exact ends_nil
  | cons s rest => exact ends_blank _

/-- a written term is read as its value is, from the place where the value stands -/
theorem readTerm_place (hr : r.Keyed) (ht : r.Legible t) {tail : List Char} (h : c.rest = t.literal.toList ++ tail)
    (htail : Ends tail) :
    ∃ k, k + t.operation.literal.length = t.literal.length ∧
      (c.advance k).rest = t.operation.literal.toList ++ tail ∧
        r.readTerm c = (Operation.read (r.conditionOf t.name) (c.advance k)).map t.withOperation := by
  cases t with
  | named name n =>
    have hrest : c.rest = name.toList ++ ':' :: (n.literal.toList ++ tail) := by rw [h]; simp [Term.literal]
    have hv := Cursor.rest_advance_name hrest
    have hskip := Operation.skipBlanks_literal ht.shape hv
    refine ⟨name.length + 1, by simp [Term.literal, Term.operation, ← String.length_toList]; omega, hv, ?_⟩
    rw [readTerm_named (Cursor.termName_written ht.bound.identifier hrest) ht.bound.spelled, Term.name, hskip]
    rfl
  | default name n =>
    obtain ⟨o, ho, rfl⟩ := ht.bare rfl
    have hname : c.termName = none := Cursor.termName_none.2 (Operation.noName_literal ht.shape h htail)
    refine ⟨0, by simp [Term.literal, Term.operation], h, ?_⟩
    simp only [readTerm, hname, ho, Term.name, conditionOf_default hr ho]
    rfl

/-- an unqualified term behind a term for many values is a single value -/
theorem single_behind {name : String} {n : Operation} (hs : r.conditionOf s.name = .many)
    (hnext : r.MayFollow s (.default name n)) (ht : r.Legible (.default name n)) :
    r.conditionOf name = .one ∧ ∃ v, n = .unary v := by
  have hone := hnext hs rfl
  exact ⟨hone, ht.bound.single hone⟩

/-- what is written behind a term with a name -/
theorem writtenBehind_named (name : String) (n : Operation) (post : List Term) :
    ∃ cs, writtenBehind ((Term.named name n :: post).map Term.literal) = ' ' :: (name.toList ++ ':' :: cs) := by
  refine ⟨n.literal.toList ++ writtenBehind (post.map Term.literal), ?_⟩
  rw [writtenBehind, List.map_cons, joinSpaced_cons]
  · simp [Term.literal]
  · simp

theorem writtenBehind_default (name v : String) (post : List Term) :
    writtenBehind ((Term.default name (.unary v) :: post).map Term.literal) =
      ' ' :: ((writeValue v).toList ++ writtenBehind (post.map Term.literal)) := by
  rw [writtenBehind, List.map_cons, joinSpaced_cons]
  · rfl
  · simp

/-- all unqualified terms are for the same term -/
theorem default_name_eq (hs : r.Legible s) (ht : r.Legible t) (hsd : s.isDefault = true) (htd : t.isDefault = true) :
    s.name = t.name := by
  obtain ⟨o, ho, hso⟩ := hs.bare hsd
  obtain ⟨o', ho', hto⟩ := ht.bare htd
  rw [ho, Option.some.injEq] at ho'
  rw [← hso, ← hto, ho']

/-- behind an unqualified single value an `AND` goes on only where a term of that name stands -/
theorem stopsAnd_behind {name v : String} (hs : r.Legible (.default name (.unary v)))
    (hone : r.conditionOf name = .one) (hpost : ∀ t ∈ post, r.Legible t)
    (hand : ¬∃ op later, post = .named "AND" op :: later) :
    Operation.StopsAnd (writtenBehind (post.map Term.literal)) := by
  cases post with
  | nil => exact Operation.stopsAnd_closes (by simp [Closes, writtenBehind])
  | cons t post =>
    have ht := hpost t List.mem_cons_self
    cases t with
    | named name' n =>
      obtain ⟨cs, hcs⟩ := writtenBehind_named name' n post
      rw [hcs]
      refine Operation.stopsAnd_name ht.bound.identifier ?_
      rintro rfl
      exact hand ⟨n, post, rfl⟩
    | default name' n =>
      obtain rfl : name = name' := default_name_eq hs ht rfl rfl
      obtain ⟨v', rfl⟩ : ∃ v', n = .unary v' := ht.bound.single hone
      rw [writtenBehind_default]
      exact Operation.stopsAnd_value (ends_behind _)

/-- in front of an unqualified single value an operation reads back exactly if the name `AND` comes behind that value -/
theorem readMany_default_iff {n : Operation} {name v : String} (hw : n.WellShaped)
    (hs : r.Legible (.default name (.unary v))) (hone : r.conditionOf name = .one) (hpost : ∀ t ∈ post, r.Legible t)
    (h : c.rest = n.literal.toList ++ writtenBehind ((Term.default name (.unary v) :: post).map Term.literal)) :
    (Operation.readMany c).value = some (n, b) ↔
      n.EndsBefore (.default name (.unary v) :: post) ∧ b = c.advance n.literal.length := by
  rw [writtenBehind_default] at h
  rw [Operation.endsBefore_default]
  by_cases hand : ∃ op later, post = .named "AND" op :: later
  · obtain ⟨op, later, rfl⟩ := hand
    obtain ⟨cs, hcs⟩ := writtenBehind_named "AND" op later
    rw [hcs] at h
    rw [Reply.eq_some_iff (Operation.readMany_value_and hw h)]
    simp
  · have hnever := Operation.readMany_value (b := b) hw h (ends_behind _) (stopsAnd_behind hs hone hpost hand)
    exact iff_of_false hnever fun hb => hand hb.1

/-- a value for many reads back in front of terms that may follow exactly if it ends before them -/
theorem readMany_behind_iff (ht : r.Legible t) (hmany : r.conditionOf t.name = .many) (hpost : ∀ s ∈ post, r.Legible s)
    (hnext : ∀ s ∈ post.head?, r.MayFollow t s)
    (h : c.rest = t.operation.literal.toList ++ writtenBehind (post.map Term.literal)) :
    (Operation.readMany c).value = some (t.operation, b) ↔
      t.operation.EndsBefore post ∧ b = c.advance t.operation.literal.length := by
  cases post with
  | nil =>
    have hrest : c.rest = t.operation.literal.toList := h.trans (List.append_nil _)
    rw [Reply.eq_some_iff (Operation.readMany_written ht.shape hrest)]
    simp [Operation.EndsBefore]
  | cons s post =>
    obtain ⟨hs, hlater⟩ := List.forall_mem_cons.1 hpost
    cases s with
    | named name n =>
      obtain ⟨cs, hcs⟩ := writtenBehind_named name n post
      rw [hcs] at h
      exact Operation.readMany_name_iff ht.shape hs.bound.identifier h
    | default name n =>
      obtain ⟨hone, v, rfl⟩ := single_behind hmany (hnext _ rfl) hs
      exact readMany_default_iff ht.shape hs hone hlater h

/-- **A legible term is read from its text** exactly if its value ends in front of the terms behind it. -/
theorem readTerm_written_iff (hr : r.Keyed) (ht : r.Legible t) (hpost : ∀ s ∈ post, r.Legible s)
    (hnext : ∀ s ∈ post.head?, r.MayFollow t s)
    (h : c.rest = t.literal.toList ++ writtenBehind (post.map Term.literal)) :
    (r.readTerm c).value = some (t, b) ↔
      (r.conditionOf t.name = .many → t.operation.EndsBefore post) ∧ b = c.advance t.literal.length := by
  obtain ⟨k, hlen, hrest, hread⟩ := readTerm_place hr ht h (ends_behind _)
  have hvalue : (r.readTerm c).value = some (t, b) ↔
      (Operation.read (r.conditionOf t.name) (c.advance k)).value = some (t.operation, b) := by
    simp only [hread, Reply.map_eq_some, Term.withOperation_eq, exists_eq_right]
  rw [hvalue, ← hlen, ← Cursor.advance_advance]
  cases hc : r.conditionOf t.name with
  | one =>
    obtain ⟨v, hv⟩ := ht.bound.single hc
    rw [hv] at hrest ⊢
    have hblank : ∀ a ∈ (writtenBehind (post.map Term.literal)).head?, isBlank a = true := by
      cases post with
      | nil => simp [writtenBehind]
      | cons s post =>
        intro a ha
        obtain rfl : ' ' = a := by simpa [writtenBehind] using ha
        decide
    have hone : (Operation.read .one (c.advance k)).value = _ := Operation.readOne_written hrest hblank
    rw [hone]
    simp [Operation.literal, eq_comm]
  | many =>
    simp only [Operation.read, readMany_behind_iff ht hc hpost hnext hrest, true_implies]

/-- **The literal text of terms reads back exactly if they are separate**: the value of each term for many ends in front of
the terms behind it. It does not in front of a name that is a keyword, except the name `AND` behind an exclusion, nor in
front of unqualified text, except where the name `AND` comes next. -/
theorem literal_read_back_iff {options : List (TermOption Q)} {text : String} (hr : ofTerms options = .ok r)
    (h : r.parse text = .ok terms) : r.parse (literalTerms terms) = .ok terms ↔ r.Separate terms := by
  have hkeyed := ofTerms_keyed hr
  obtain ⟨hlegible, hnext⟩ := parse_legible hkeyed h
  rw [separate_iff]
  refine readAll_written_iff (readTerm_advances hkeyed) (fun t ht => literal_solid (hlegible t ht)) ?_
  rintro pre t post rfl c b hc
  have hsuffix : t :: post <:+ pre ++ t :: post := List.suffix_append pre _
  exact readTerm_written_iff hkeyed (hlegible t (by simp)) (fun s hs => hlegible s (by simp [hs]))
    (List.isChain_cons.1 (hnext.suffix hsuffix)).1 hc

/-- collects values -/
def collected : Builder (List String) := fun _ value values => values ++ [value]

/-- a default term for one value, and a term for many -/
def titledTerms : List (TermOption (List String)) :=
  [⟨"name", true, .one collected⟩, ⟨"title", false, .many collected fun _ _ values => values⟩]

/-- their registry -/
def titledRegistry : TermRegistry (List String) := ⟨⟨[
  ("name", ⟨"name", true, .one collected⟩), ("title", ⟨"title", false, .many collected fun _ _ values => values⟩)]⟩,
  some "name"⟩

/-- the name `AND` does no harm behind an exclusion, and keeps unqualified text apart -/
theorem literal_read_back_titled :
    ofTerms titledTerms = .ok titledRegistry ∧
      titledRegistry.parse "TITLE:beach  NOT rock AND:x \"a b\" title:(c|| -d) sand AND:y (" = .ok [
        .named "title" (.not (.unary "beach") "rock" "NOT"), .named "AND" (.unary "x"), .default "name" (.unary "a b"),
        .named "title" (.group (.or (.unary "c") (.notUnary "-" "d") "||")), .default "name" (.unary "sand"),
        .named "AND" (.unary "y"), .default "name" (.unary "(")] ∧
      titledRegistry.parse "title:beach NOT rock AND:x \"a b\" title:(c || -d) sand AND:y \"(\"" = .ok [
        .named "title" (.not (.unary "beach") "rock" "NOT"), .named "AND" (.unary "x"), .default "name" (.unary "a b"),
        .named "title" (.group (.or (.unary "c") (.notUnary "-" "d") "||")), .default "name" (.unary "sand"),
        .named "AND" (.unary "y"), .default "name" (.unary "(")] := by
  have hr : ofTerms titledTerms = .ok titledRegistry := rfl
  have hp : titledRegistry.parse "TITLE:beach  NOT rock AND:x \"a b\" title:(c|| -d) sand AND:y (" = .ok [
      .named "title" (.not (.unary "beach") "rock" "NOT"), .named "AND" (.unary "x"), .default "name" (.unary "a b"),
      .named "title" (.group (.or (.unary "c") (.notUnary "-" "d") "||")), .default "name" (.unary "sand"),
      .named "AND" (.unary "y"), .default "name" (.unary "(")] := by decide +kernel
  exact ⟨hr, hp, (literal_read_back_iff hr hp).2 (by decide)⟩

/-- a keyword that was taken for a value behind an exclusion is quoted, and then taken up by the exclusion -/
theorem literal_absorbed_titled :
    ofTerms titledTerms = .ok titledRegistry ∧
      ∃ terms, titledRegistry.parse "title:beach NOT rock AND sand" = .ok terms ∧
        literalTerms terms = "title:beach NOT rock \"AND\" sand" ∧
        normalizedTerms terms = "title:(beach NOT rock) name:\"AND\" name:sand" ∧
        titledRegistry.parse (literalTerms terms) = .ok [.named "title" (.or (.or (.not (.unary "beach") "rock" "NOT")
          (.unary "AND") " ") (.unary "sand") " ")] ∧
        titledRegistry.parse (literalTerms terms) ≠ .ok terms ∧
        titledRegistry.normalize (literalTerms terms) = .ok "title:(((beach NOT rock) OR \"AND\") OR sand)" := by
  have hr : ofTerms titledTerms = .ok titledRegistry := rfl
  have hp : titledRegistry.parse "title:beach NOT rock AND sand" = .ok [
      .named "title" (.not (.unary "beach") "rock" "NOT"), .default "name" (.unary "AND"), .default "name" (.unary "sand")] := by
    decide +kernel
  have hl : titledRegistry.parse "title:beach NOT rock \"AND\" sand" = .ok [.named "title" (.or (.or
      (.not (.unary "beach") "rock" "NOT") (.unary "AND") " ") (.unary "sand") " ")] := by decide +kernel
  refine ⟨hr, _, hp, by decide, by decide, hl, fun h => ?_, ?_⟩
  · exact absurd (Except.ok.inj (hl.symm.trans h)) (by decide)
  · exact congrArg (Except.map normalizedTerms) hl

end TermRegistry

end FieldSearch
