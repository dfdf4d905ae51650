import FullText.Proofs.ByteCodecs
import Mathlib.Data.Char
import Mathlib.Data.List.Lex

/-!
# The order of texts and of their bytes

Texts are compared by their code points. In UTF-8 the bytes of a greater code point are greater: a
longer encoding starts with a greater byte, and encodings of one length hold the digits of the code
point to the base 64, the most significant one first. So the order of texts is the lexicographic
order of their bytes.

## Main results

* `Text.utf8EncodeChar_append_lt` : the first character in which two texts differ decides.
* `Text.toUTF8_lt_iff` : texts are ordered as their bytes are.
* `Text.toList_prefix_of_toUTF8` : the beginnings of the bytes that are texts are beginnings of the
  text.
-/

namespace FullText.Text

/-- The bytes of a lesser character are less, whatever follows them. -/
theorem utf8EncodeChar_append_lt {c d : Char} (h : c < d) (u v : List UInt8) :
    String.utf8EncodeChar c ++ u < String.utf8EncodeChar d ++ v := by
  have hlt : c.val.toNat < d.val.toNat := h
  have hd : d.val.toNat < 0x110000 := by
    rcases d.valid with h | h <;> omega
  simp only [String.utf8EncodeChar]
  -- One case for each pair of lengths. No byte wraps around, so all is said by digits.
  split_ifs <;>
    simp (disch := omega) only [List.cons_append, List.nil_append, List.cons_lt_cons_iff,
      UInt8.lt_iff_toNat_lt, ← UInt8.toNat_inj, UInt8.toNat_ofNat', Nat.mod_eq_of_lt] <;>
    omega

theorem utf8EncodeChar_ne_nil (c : Char) : String.utf8EncodeChar c ≠ [] := by
  have hlength := String.length_utf8EncodeChar c
  intro hnil
  rw [hnil] at hlength
  exact absurd hlength (Nat.ne_of_lt c.utf8Size_pos)

theorem flatMap_utf8EncodeChar_lt {cs ds : List Char} (h : cs < ds) :
    cs.flatMap String.utf8EncodeChar < ds.flatMap String.utf8EncodeChar := by
  induction h with
  | @nil d ds =>
    rw [List.flatMap_cons, List.flatMap_nil]
    cases hd : String.utf8EncodeChar d with
    | nil => exact absurd hd (utf8EncodeChar_ne_nil d)
    | cons b bs => exact List.nil_lt_cons _ _
  | cons _ ih => exact List.append_left_lt ih
  | rel hlt => exact utf8EncodeChar_append_lt hlt _ _

theorem toUTF8_eq_flatMap (s : String) :
    s.toUTF8.toList = s.toList.flatMap String.utf8EncodeChar := by
  have hbytes : s.toUTF8 = (s.toList.flatMap String.utf8EncodeChar).toByteArray :=
    s.utf8Encode_toList.symm
  rw [hbytes, Bytes.toList_eq, List.data_toByteArray]

/-- **Texts are ordered as their bytes are.** -/
theorem toUTF8_lt_iff {s t : String} : s.toUTF8.toList < t.toUTF8.toList ↔ s < t := by
  rw [toUTF8_eq_flatMap, toUTF8_eq_flatMap, String.lt_iff_toList_lt]
  refine ⟨fun h => ?_, flatMap_utf8EncodeChar_lt⟩
  rcases lt_trichotomy s.toList t.toList with hlt | heq | hgt
  · exact hlt
  · rw [heq] at h
    exact absurd h (List.lt_irrefl _)
  · exact absurd h (List.lt_asymm (flatMap_utf8EncodeChar_lt hgt))

theorem compare_eq_lt_iff {s t : String} :
    compare s t = .lt ↔ s.toUTF8.toList < t.toUTF8.toList := by
  rw [toUTF8_lt_iff]
  exact compareOfLessAndEq_eq_lt

/-! ### Beginnings -/

/-- The character that bytes start with is decided by the bytes. -/
theorem utf8EncodeChar_append_inj {c d : Char} {u v : List UInt8}
    (h : String.utf8EncodeChar c ++ u = String.utf8EncodeChar d ++ v) : c = d ∧ u = v := by
  rcases lt_trichotomy c d with hlt | rfl | hgt
  · exact absurd (h ▸ utf8EncodeChar_append_lt hlt u v) (List.lt_irrefl _)
  · exact ⟨rfl, List.append_cancel_left h⟩
  · exact absurd (h ▸ utf8EncodeChar_append_lt hgt v u) (List.lt_irrefl _)

/-- **A text whose bytes the bytes of another text start with is the beginning of that text.** -/
theorem toList_prefix_of_toUTF8 {s t : String} (h : s.toUTF8.toList <+: t.toUTF8.toList) :
    s.toList <+: t.toList := by
  rw [toUTF8_eq_flatMap, toUTF8_eq_flatMap] at h
  generalize s.toList = cs at h ⊢
  generalize t.toList = ds at h ⊢
  induction cs generalizing ds with
  | nil => exact ⟨ds, rfl⟩
  | cons c cs ih =>
    obtain ⟨more, hmore⟩ := h
    rw [List.flatMap_cons, List.append_assoc] at hmore
    cases ds with
    | nil => exact absurd (List.append_eq_nil_iff.1 hmore).1 (utf8EncodeChar_ne_nil c)
    | cons d ds =>
      rw [List.flatMap_cons] at hmore
      obtain ⟨rfl, hrest⟩ := utf8EncodeChar_append_inj hmore
      exact List.cons_prefix_cons.2 ⟨rfl, ih ds ⟨more, hrest⟩⟩

theorem toUTF8_of_fromUTF8? {bytes : ByteArray} {s : String}
    (h : String.fromUTF8? bytes = some s) : s.toUTF8 = bytes := by
  rw [String.fromUTF8?] at h
  split at h
  · cases h
    rfl
  · cases h

end FullText.Text
