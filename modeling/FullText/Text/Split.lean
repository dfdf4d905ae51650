/-!
# Splitting at separators

A text is cut at every character of a class: `n` separators give `n + 1` pieces, any of which may
be empty. Splitting a query into words and a pattern into the literal runs between its stars are
both instances.

## Main definitions

* `splitWhere` : the pieces between the separators.

## Main results

* `splitWhere_append_cons` : a separator in the middle splits a text into independent halves.
* `intercalate_splitWhere` : when one character alone separates, putting it back between the
  pieces gives the text again.
* `forall_not_of_mem_splitWhere` : no piece holds a separator.
* `subset_of_mem_splitWhere`, `exists_mem_splitWhere` : the pieces hold everything else, and nothing
  besides.
-/

namespace FullText.Text

variable {α : Type}

/-- The pieces of a list between the elements that `p` calls separators. -/
def splitWhere (p : α → Bool) : List α → List (List α)
  | [] => [[]]
  | a :: as => if p a then [] :: splitWhere p as else (splitWhere p as).modifyHead (a :: ·)

@[simp] theorem splitWhere_nil (p : α → Bool) : splitWhere p [] = [[]] := rfl

theorem splitWhere_cons_of_pos {p : α → Bool} {a : α} (h : p a = true) (as : List α) :
    splitWhere p (a :: as) = [] :: splitWhere p as := by
  simp [splitWhere, h]

theorem splitWhere_cons_of_neg {p : α → Bool} {a : α} (h : p a = false) (as : List α) :
    splitWhere p (a :: as) = (splitWhere p as).modifyHead (a :: ·) := by
  simp [splitWhere, h]

/-- There is always a first piece. -/
theorem exists_splitWhere_eq_cons (p : α → Bool) (as : List α) :
    ∃ w ws, splitWhere p as = w :: ws := by
  induction as with
  | nil => exact ⟨[], [], rfl⟩
  | cons a as ih =>
    obtain ⟨w, ws, h⟩ := ih
    by_cases hp : p a = true
    · exact ⟨[], w :: ws, by rw [splitWhere_cons_of_pos hp, h]⟩
    · exact ⟨a :: w, ws, by rw [splitWhere_cons_of_neg (Bool.eq_false_iff.2 hp), h]; rfl⟩

/-- A text without separators is one piece. -/
theorem splitWhere_eq_singleton {p : α → Bool} {as : List α} (h : ∀ a ∈ as, p a = false) :
    splitWhere p as = [as] := by
  induction as with
  | nil => rfl
  | cons a as ih =>
    rw [splitWhere_cons_of_neg (h a List.mem_cons_self),
      ih fun b hb => h b (List.mem_cons_of_mem a hb)]
    rfl

/-- A separator in the middle splits a text into independent halves. -/
theorem splitWhere_append_cons {p : α → Bool} {c : α} (hc : p c = true) (as bs : List α) :
    splitWhere p (as ++ c :: bs) = splitWhere p as ++ splitWhere p bs := by
  induction as with
  | nil => simp [splitWhere_cons_of_pos hc]
  | cons a as ih =>
    by_cases hp : p a = true
    · rw [List.cons_append, splitWhere_cons_of_pos hp, splitWhere_cons_of_pos hp, ih]
      rfl
    · have hn := Bool.eq_false_iff.2 hp
      obtain ⟨w, ws, hw⟩ := exists_splitWhere_eq_cons p as
      rw [List.cons_append, splitWhere_cons_of_neg hn, splitWhere_cons_of_neg hn, ih, hw]
      rfl

/-- No piece holds a separator. -/
theorem forall_not_of_mem_splitWhere {p : α → Bool} {as w : List α}
    (hw : w ∈ splitWhere p as) : ∀ a ∈ w, p a = false := by
  induction as generalizing w with
  | nil =>
    obtain rfl : w = [] := by simpa using hw
    simp
  | cons a as ih =>
    by_cases hp : p a = true
    · rw [splitWhere_cons_of_pos hp, List.mem_cons] at hw
      rcases hw with rfl | hw
      · simp
      · exact ih hw
    · have hn := Bool.eq_false_iff.2 hp
      obtain ⟨v, vs, hv⟩ := exists_splitWhere_eq_cons p as
      rw [splitWhere_cons_of_neg hn, hv, List.modifyHead_cons, List.mem_cons] at hw
      rcases hw with rfl | hw
      · intro b hb
        rcases List.mem_cons.1 hb with rfl | hb
        · exact hn
        · exact ih (hv ▸ List.mem_cons_self) b hb
      · exact ih (hv ▸ List.mem_cons_of_mem v hw)

/-- The pieces hold nothing but what the text holds. -/
theorem subset_of_mem_splitWhere {p : α → Bool} {as w : List α} (hw : w ∈ splitWhere p as) :
    w ⊆ as := by
  induction as generalizing w with
  | nil =>
    obtain rfl : w = [] := by simpa using hw
    exact List.nil_subset _
  | cons a as ih =>
    by_cases hp : p a = true
    · rw [splitWhere_cons_of_pos hp, List.mem_cons] at hw
      rcases hw with rfl | hw
      · exact List.nil_subset _
      · exact List.subset_cons_of_subset a (ih hw)
    · obtain ⟨v, vs, hv⟩ := exists_splitWhere_eq_cons p as
      rw [splitWhere_cons_of_neg (Bool.eq_false_iff.2 hp), hv, List.modifyHead_cons,
        List.mem_cons] at hw
      rcases hw with rfl | hw
      · exact List.cons_subset_cons a (ih (hv ▸ List.mem_cons_self))
      · exact List.subset_cons_of_subset a (ih (hv ▸ List.mem_cons_of_mem v hw))

/-- Everything but the separators is in some piece. -/
theorem exists_mem_splitWhere {p : α → Bool} {as : List α} {a : α} (ha : a ∈ as)
    (hp : p a = false) : ∃ w ∈ splitWhere p as, a ∈ w := by
  induction as with
  | nil => cases ha
  | cons b as ih =>
    obtain ⟨v, vs, hv⟩ := exists_splitWhere_eq_cons p as
    by_cases hb : p b = true
    · rw [splitWhere_cons_of_pos hb]
      rcases List.mem_cons.1 ha with rfl | ha
      · rw [hp] at hb
        cases hb
      · obtain ⟨w, hw, haw⟩ := ih ha
        exact ⟨w, List.mem_cons_of_mem _ hw, haw⟩
    · rw [splitWhere_cons_of_neg (Bool.eq_false_iff.2 hb), hv, List.modifyHead_cons]
      rcases List.mem_cons.1 ha with rfl | ha
      · exact ⟨a :: v, List.mem_cons_self, List.mem_cons_self⟩
      · obtain ⟨w, hw, haw⟩ := ih ha
        rw [hv] at hw
        rcases List.mem_cons.1 hw with rfl | hw
        · exact ⟨b :: w, List.mem_cons_self, List.mem_cons_of_mem b haw⟩
        · exact ⟨w, List.mem_cons_of_mem _ hw, haw⟩

/-- There is one piece more than there are separators. -/
theorem length_splitWhere (p : α → Bool) (as : List α) :
    (splitWhere p as).length = as.countP p + 1 := by
  induction as with
  | nil => rfl
  | cons a as ih =>
    by_cases hp : p a = true
    · rw [splitWhere_cons_of_pos hp, List.length_cons, ih, List.countP_cons_of_pos hp]
    · rw [splitWhere_cons_of_neg (Bool.eq_false_iff.2 hp), List.length_modifyHead, ih,
        List.countP_cons_of_neg hp]

/-- Putting the separator back between the pieces gives the text again. -/
theorem intercalate_splitWhere [DecidableEq α] (c : α) (as : List α) :
    List.intercalate [c] (splitWhere (fun a => decide (a = c)) as) = as := by
  induction as with
  | nil => rfl
  | cons a as ih =>
    obtain ⟨w, ws, hw⟩ := exists_splitWhere_eq_cons (fun a => decide (a = c)) as
    by_cases ha : a = c
    · subst ha
      rw [splitWhere_cons_of_pos (by simp), hw, ← ih, hw]
      simp [List.intercalate, List.intersperse]
    · rw [splitWhere_cons_of_neg (by simpa using ha), hw, ← ih, hw]
      cases ws <;> simp [List.intercalate, List.intersperse, List.modifyHead]

end FullText.Text
