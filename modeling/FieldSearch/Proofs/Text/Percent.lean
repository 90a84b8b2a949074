/-
Percent-encoded text reads back.

- `decodeUtf8_utf8Bytes`: the bytes of a character read back as that character, whatever bytes follow. `lead?_three` and
  `lead?_four` hold the two places where the range of the second byte depends on the first one.
- `bytes_encodeChar`: an encoded character stands for the bytes of the character, whatever follows it.
- `encode_plain`: an encoded text holds letters, digits, `-`, `_`, `.`, `~` and `%` only, so no blank and no `+` which
  decoding would take for one.
- `decode_encode`: what was encoded decodes to itself.
-/
import FieldSearch.Text.Percent
import Mathlib.Tactic

namespace FieldSearch

/-! ## Bytes of characters -/

/-- a character is no surrogate and stands below the end of Unicode -/
theorem toNat_valid (c : Char) : c.toNat < 0xD800 ∨ 0xDFFF < c.toNat ∧ c.toNat < 0x110000 := c.valid

/-- the first of three bytes allows the second one -/
theorem lead?_three {n : Nat} (hlow : 0x800 ≤ n) (hhigh : n < 0x10000) (hvalid : n < 0xD800 ∨ 0xDFFF < n) :
    ∃ lead, lead? (0xE0 + n / 0x1000) = some lead ∧ lead.follow = 2 ∧
      lead.low ≤ 0x80 + n / 0x40 % 0x40 ∧ 0x80 + n / 0x40 % 0x40 ≤ lead.high := by
  unfold lead?
  split_ifs
  all_goals first | omega | exact ⟨_, rfl, rfl, by dsimp only; omega, by dsimp only; omega⟩

/-- the first of four bytes allows the second one -/
theorem lead?_four {n : Nat} (hlow : 0x10000 ≤ n) (hhigh : n < 0x110000) :
    ∃ lead, lead? (0xF0 + n / 0x40000) = some lead ∧ lead.follow = 3 ∧
      lead.low ≤ 0x80 + n / 0x1000 % 0x40 ∧ 0x80 + n / 0x1000 % 0x40 ≤ lead.high := by
  unfold lead?
  split_ifs
  all_goals first | omega | exact ⟨_, rfl, rfl, by dsimp only; omega, by dsimp only; omega⟩

/-- six bits behind the mark of a following byte make one -/
theorem isFollowing_sextet (n : Nat) : isFollowing (0x80 + n % 0x40) = true := by
  simp only [isFollowing, Bool.and_eq_true, decide_eq_true_eq]
  omega

/-- **The bytes of a character read back as that character**, whatever bytes follow. -/
theorem decodeUtf8_utf8Bytes (c : Char) (start : Nat) (rest : List Nat) :
    decodeUtf8 start (utf8Bytes c ++ rest) =
      (decodeUtf8 (start + (utf8Bytes c).length) rest).map (c :: ·) := by
  have hvalid := toNat_valid c
  have hback : ∀ n, n = c.toNat → Char.ofNat n = c := fun n hn => hn ▸ Char.ofNat_toNat c
  unfold utf8Bytes
  dsimp only
  split_ifs with h1 h2 h3
  · conv_lhs => rw [List.cons_append, List.nil_append, decodeUtf8.eq_def]
    simp only [h1, if_true, hback _ rfl]
    rfl
  · -- every first byte from C2 on allows any second one
    have hlead : lead? (0xC0 + c.toNat / 0x40) = some ⟨1, 0x80, 0xBF⟩ := by
      rw [lead?, if_neg (by omega), if_pos (by omega)]
    simp only [List.cons_append, List.nil_append]
    conv_lhs => rw [decodeUtf8.eq_def]
    dsimp only
    rw [if_neg (by omega), hlead]
    simp only [Bool.or_eq_true, decide_eq_true_eq]
    rw [if_neg (by omega), if_pos trivial, hback _ (by omega)]
    rfl
  · obtain ⟨lead, hlead, hfollow, hlow, hhigh⟩ := lead?_three (by omega) h3 (by omega)
    simp only [List.cons_append, List.nil_append]
    conv_lhs => rw [decodeUtf8.eq_def]
    dsimp only
    rw [if_neg (by omega), hlead]
    simp only [Bool.or_eq_true, decide_eq_true_eq]
    rw [if_neg (by omega), if_neg (by omega), isFollowing_sextet, if_neg (by decide), if_pos hfollow,
      hback _ (by omega)]
    rfl
  · obtain ⟨lead, hlead, hfollow, hlow, hhigh⟩ := lead?_four (n := c.toNat) (by omega) (by omega)
    simp only [List.cons_append, List.nil_append]
    conv_lhs => rw [decodeUtf8.eq_def]
    dsimp only
    rw [if_neg (by omega), hlead]
    simp only [Bool.or_eq_true, decide_eq_true_eq]
    rw [if_neg (by omega), if_neg (by omega), isFollowing_sextet, if_neg (by decide), if_neg (by omega),
      isFollowing_sextet, if_neg (by decide), hback _ (by omega)]
    rfl

/-- the bytes of a text read back as that text -/
theorem decodeUtf8_flatMap (cs : List Char) (start : Nat) : decodeUtf8 start (cs.flatMap utf8Bytes) = .ok cs := by
  induction cs generalizing start with
  | nil => rw [List.flatMap_nil, decodeUtf8]
  | cons c cs ih =>
    rw [List.flatMap_cons, decodeUtf8_utf8Bytes, ih]
    rfl

/-- a byte has eight bits -/
theorem lt_of_mem_utf8Bytes {c : Char} {b : Nat} (h : b ∈ utf8Bytes c) : b < 256 := by
  have hvalid := toNat_valid c
  unfold utf8Bytes at h
  dsimp only at h
  split_ifs at h
  all_goals
    simp only [List.mem_cons, List.not_mem_nil, or_false] at h
    omega

namespace Hex

/-- a written digit reads back, and is a letter or a digit -/
theorem upperDigit_spec : ∀ n, n < 16 → value? (upperDigit n) = some n ∧ (upperDigit n).isAlphanum = true := by decide

end Hex

namespace Percent

/-! ## Encoded characters -/

/-- whether a character may stand in an encoded text -/
def isEncoded (c : Char) : Bool := isPlain c || c == '%'

theorem isEncoded_of_alphanum {c : Char} (h : c.isAlphanum = true) : isEncoded c = true := by
  simp [isEncoded, isPlain, h]

theorem encodeByte_encoded {b : Nat} (hb : b < 256) : ∀ a ∈ encodeByte b, isEncoded a = true := by
  obtain ⟨-, hhigh⟩ := Hex.upperDigit_spec (b / 16) (by omega)
  obtain ⟨-, hlow⟩ := Hex.upperDigit_spec (b % 16) (by omega)
  intro a ha
  simp only [encodeByte, List.mem_cons, List.not_mem_nil, or_false] at ha
  rcases ha with rfl | rfl | rfl
  · rfl
  · exact isEncoded_of_alphanum hhigh
  · exact isEncoded_of_alphanum hlow

theorem encodeChar_encoded (c : Char) : ∀ a ∈ encodeChar c, isEncoded a = true := by
  intro a ha
  rw [encodeChar] at ha
  split_ifs at ha with hc
  · rw [List.mem_singleton.1 ha, isEncoded, hc, Bool.true_or]
  · obtain ⟨b, hb, ha⟩ := List.mem_flatMap.1 ha
    exact encodeByte_encoded (lt_of_mem_utf8Bytes hb) a ha

/-- an encoded text holds plain characters and `%` only -/
theorem encode_plain (s : String) : ∀ a ∈ (encode s).toList, isEncoded a = true := by
  intro a ha
  rw [encode, String.toList_ofList] at ha
  obtain ⟨c, -, ha⟩ := List.mem_flatMap.1 ha
  exact encodeChar_encoded c a ha

/-- a blank and a `+` never stand in an encoded text -/
theorem encode_no_blank (s : String) : ' ' ∉ (encode s).toList ∧ '+' ∉ (encode s).toList :=
  ⟨fun h => absurd (encode_plain s _ h) (by decide), fun h => absurd (encode_plain s _ h) (by decide)⟩

/-! ## The way back -/

theorem bytes_cons {a : Char} (ha : a ≠ '%') (rest : List Char) : bytes (a :: rest) = utf8Bytes a ++ bytes rest := by
  match rest with
  | [] => simp [bytes]
  | [b] => simp [bytes]
  | b :: c :: r => rw [bytes, if_neg ha]

/-- an encoded byte stands for that byte -/
theorem bytes_encodeByte {b : Nat} (hb : b < 256) (rest : List Char) :
    bytes (encodeByte b ++ rest) = b :: bytes rest := by
  obtain ⟨hhigh, -⟩ := Hex.upperDigit_spec (b / 16) (by omega)
  obtain ⟨hlow, -⟩ := Hex.upperDigit_spec (b % 16) (by omega)
  have hjoin : 16 * (b / 16) + b % 16 = b := by omega
  simp only [encodeByte, List.cons_append, List.nil_append]
  rw [bytes, if_pos rfl, hhigh, hlow]
  dsimp only
  rw [hjoin]

theorem bytes_encodeBytes {bs : List Nat} (hbs : ∀ b ∈ bs, b < 256) (rest : List Char) :
    bytes (bs.flatMap encodeByte ++ rest) = bs ++ bytes rest := by
  induction bs with
  | nil => rfl
  | cons b bs ih =>
    obtain ⟨hb, hbs⟩ := List.forall_mem_cons.1 hbs
    rw [List.flatMap_cons, List.append_assoc, bytes_encodeByte hb, ih hbs, List.cons_append]

/-- **An encoded character stands for the bytes of that character**, whatever follows it. -/
theorem bytes_encodeChar (c : Char) (rest : List Char) : bytes (encodeChar c ++ rest) = utf8Bytes c ++ bytes rest := by
  rw [encodeChar]
  split_ifs with hc
  · have hpercent : c ≠ '%' := by
      rintro rfl
      exact absurd hc (by decide)
    exact bytes_cons hpercent rest
  · exact bytes_encodeBytes (fun b hb => lt_of_mem_utf8Bytes hb) rest

theorem bytes_encode (cs : List Char) : bytes (cs.flatMap encodeChar) = cs.flatMap utf8Bytes := by
  induction cs with
  | nil => rfl
  | cons c cs ih => rw [List.flatMap_cons, List.flatMap_cons, bytes_encodeChar, ih]

/-- **What was encoded decodes to itself.** -/
theorem decode_encode (s : String) : decode (encode s) = .ok s := by
  -- no `+` stands in an encoded text, so taking it for a blank changes nothing
  have hplus : (encode s).toList.map (fun c => if c = '+' then ' ' else c) = (encode s).toList := by
    obtain ⟨-, hno⟩ := encode_no_blank s
    refine (List.map_congr_left fun c hc => ?_).trans (List.map_id _)
    refine if_neg ?_
    rintro rfl
    exact hno hc
  have hbytes : bytes (encode s).toList = s.toList.flatMap utf8Bytes := by
    rw [encode, String.toList_ofList, bytes_encode]
  rw [decode, hplus, hbytes, decodeUtf8_flatMap]
  dsimp only
  rw [String.ofList_toList]

end Percent

end FieldSearch
