import FullText.Text.Blank
import Mathlib.Data.List.TakeWhile

/-!
# Words

The words of a text are its maximal runs of characters that are not white space. This is said
without reference to splitting, and shown of the splitting that queries are read with.

## Main definitions

* `Text.IsWordList` : the words of a text, in order.

## Main results

* `Text.isWordList_iff` : a text has exactly one list of words, the one that splitting finds.
* `Text.isWordList_words` : the same for strings.
-/

namespace FullText.Text

/-- The words of a text, in order. A word is not empty, holds no white space, and ends at white
space or at the end of the text. -/
inductive IsWordList : List Char → List (List Char) → Prop
  /-- The empty text has no words. -/
  | nil : IsWordList [] []
  /-- White space before the words does not count. -/
  | blank {c text ws} (hc : isBlank c = true) (h : IsWordList text ws) :
      IsWordList (c :: text) ws
  /-- A word in front. -/
  | word {w text ws} (hne : w ≠ []) (hw : ∀ c ∈ w, isBlank c = false)
      (hend : ∀ c ∈ text.head?, isBlank c = true) (h : IsWordList text ws) :
      IsWordList (w ++ text) (w :: ws)

/-- The pieces between white space that are not empty. -/
def wordPieces (text : List Char) : List (List Char) :=
  (splitWhere isBlank text).filter fun w => !w.isEmpty

theorem wordPieces_cons_of_blank {c : Char} (hc : isBlank c = true) (text : List Char) :
    wordPieces (c :: text) = wordPieces text := by
  rw [wordPieces, splitWhere_cons_of_pos hc, List.filter_cons_of_neg (by simp)]
  rfl

theorem wordPieces_append {w text : List Char} (hne : w ≠ [])
    (hw : ∀ c ∈ w, isBlank c = false) (hend : ∀ c ∈ text.head?, isBlank c = true) :
    wordPieces (w ++ text) = w :: wordPieces text := by
  have hsplit := splitWhere_eq_singleton hw
  cases text with
  | nil => simp [wordPieces, hsplit, hne]
  | cons c text =>
    have hc : isBlank c = true := hend c rfl
    rw [wordPieces_cons_of_blank hc, wordPieces, splitWhere_append_cons hc, hsplit,
      List.singleton_append, List.filter_cons_of_pos (by simp [hne])]
    rfl

/-- The words of a text are the pieces that splitting finds. -/
theorem IsWordList.eq_wordPieces {text : List Char} {ws : List (List Char)}
    (h : IsWordList text ws) : ws = wordPieces text := by
  induction h with
  | nil => rfl
  | blank hc _ ih => rw [wordPieces_cons_of_blank hc, ← ih]
  | word hne hw hend _ ih => rw [wordPieces_append hne hw hend, ← ih]

/-- The pieces that splitting finds are the words of the text. -/
theorem isWordList_wordPieces (text : List Char) : IsWordList text (wordPieces text) := by
  induction hn : text.length using Nat.strong_induction_on generalizing text with
  | _ n ih =>
    subst hn
    cases text with
    | nil => exact .nil
    | cons c text =>
      by_cases hc : isBlank c = true
      · rw [wordPieces_cons_of_blank hc]
        exact .blank hc (ih text.length (by simp) text rfl)
      · -- The word is as long as it can be, so that it ends where it must.
        have hword (a : Char) (ha : a ∈ (c :: text).takeWhile fun a => !isBlank a) :
            isBlank a = false := by simpa using List.mem_takeWhile_imp ha
        have hend (a : Char) (ha : a ∈ ((c :: text).dropWhile fun a => !isBlank a).head?) :
            isBlank a = true := by
          have := List.head?_dropWhile_not (fun a => !isBlank a) (c :: text)
          rw [Option.mem_def.1 ha] at this
          simpa using this
        have hne : (c :: text).takeWhile (fun a => !isBlank a) ≠ [] := by
          rw [List.takeWhile_cons_of_pos (by simpa using hc)]
          exact List.cons_ne_nil _ _
        have hshort : ((c :: text).dropWhile fun a => !isBlank a).length < (c :: text).length := by
          have happ := congrArg List.length
            (List.takeWhile_append_dropWhile (p := fun a => !isBlank a) (l := c :: text))
          have hpos := List.length_pos_iff.2 hne
          rw [List.length_append] at happ
          omega
        have hrest := ih _ hshort _ rfl
        have happ := List.takeWhile_append_dropWhile (p := fun a => !isBlank a) (l := c :: text)
        have h := IsWordList.word hne hword hend hrest
        rwa [← wordPieces_append hne hword hend, happ] at h

/-- **A text has exactly one list of words,** the one that splitting finds. -/
theorem isWordList_iff {text : List Char} {ws : List (List Char)} :
    IsWordList text ws ↔ ws = wordPieces text :=
  ⟨IsWordList.eq_wordPieces, fun h => h ▸ isWordList_wordPieces text⟩

theorem isWordList_words (s : String) :
    IsWordList s.toList ((words s).map String.toList) := by
  have hwords : (words s).map String.toList = wordPieces s.toList := by
    simp [words, wordPieces, Function.comp_def]
  exact isWordList_iff.2 hwords

end FullText.Text
