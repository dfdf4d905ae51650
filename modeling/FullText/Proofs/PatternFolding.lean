import FullText.Pipeline
import FullText.Proofs.GlobLanguage
import FullText.Proofs.LowerCase

/-!
# Folded patterns

Folding a pattern keeps its stars where they are and folds each literal run between them. No run
gains a star by that, so that a folded pattern falls into the folded runs again.

## Main results

* `Text.splitWhere_intercalate` : pieces without separators are found again after joining.
* `Pipeline.splitWhere_foldPattern` : the runs of a folded pattern are the folded runs.
* `Pipeline.star_mem_foldPattern_iff` : a folded pattern has a star iff the pattern has one.
-/

namespace FullText

/-- Pieces without separators are found again after joining them with a separator. -/
theorem Text.splitWhere_intercalate {α : Type} {p : α → Bool} {c : α} (hc : p c = true) :
    {pieces : List (List α)} → pieces ≠ [] → (∀ w ∈ pieces, ∀ a ∈ w, p a = false) →
    splitWhere p (List.intercalate [c] pieces) = pieces
  | [], hne, _ => absurd rfl hne
  | [w], _, hpieces => by
    rw [List.intercalate_singleton]
    exact splitWhere_eq_singleton (hpieces w List.mem_cons_self)
  | w :: v :: rest, _, hpieces => by
    have hrest := splitWhere_intercalate hc (List.cons_ne_nil v rest)
      fun u hu => hpieces u (List.mem_cons_of_mem _ hu)
    rw [List.intercalate_cons_cons, List.append_assoc, List.singleton_append,
      splitWhere_append_cons hc, hrest, splitWhere_eq_singleton (hpieces w List.mem_cons_self),
      List.singleton_append]

namespace Pipeline

/-- Folding a literal run brings in no star. -/
theorem star_notMem_foldLiteral (p : Pipeline) {s : String} (hs : '*' ∉ s.toList) :
    '*' ∉ (p.foldLiteral s).toList := by
  obtain ⟨tokenizer, filters⟩ := p
  rw [foldLiteral]
  induction filters generalizing s with
  | nil => exact hs
  | cons f rest ih =>
    refine ih fun hmem => ?_
    cases f with
    | lowercase =>
      rcases Text.small_or_mem_lowercase hmem with hsmall | ⟨hmem, -⟩
      · exact hsmall.notStar rfl
      · exact hs hmem
    | _ => exact hs hmem

/-- **The runs of a folded pattern are the folded runs of the pattern.** -/
theorem splitWhere_foldPattern (p : Pipeline) (pattern : String) :
    Text.splitWhere isStar (p.foldPattern pattern).toList =
      (Text.splitWhere isStar pattern.toList).map fun run =>
        (p.foldLiteral (String.ofList run)).toList := by
  have hstar : (fun c => decide (c = '*')) = isStar := rfl
  rw [foldPattern, String.toList_intercalate, List.map_map, hstar]
  refine Text.splitWhere_intercalate (c := '*') rfl (fun h => ?_) fun w hw c hc => ?_
  · obtain ⟨v, vs, hv⟩ := Text.exists_splitWhere_eq_cons isStar pattern.toList
    rw [hv, List.map_cons] at h
    exact List.cons_ne_nil _ _ h
  · obtain ⟨run, hrun, rfl⟩ := List.mem_map.1 hw
    refine Bool.eq_false_iff.2 fun hc' => ?_
    obtain rfl := isStar_iff.1 hc'
    refine p.star_notMem_foldLiteral (s := String.ofList run) ?_ hc
    rw [String.toList_ofList]
    exact fun hmem => absurd (Text.forall_not_of_mem_splitWhere hrun '*' hmem) (by decide)

/-- A folded pattern has as many stars as the pattern. -/
theorem countP_isStar_foldPattern (p : Pipeline) (pattern : String) :
    (p.foldPattern pattern).toList.countP isStar = pattern.toList.countP isStar := by
  have hlength := congrArg List.length (p.splitWhere_foldPattern pattern)
  rw [List.length_map, Text.length_splitWhere, Text.length_splitWhere] at hlength
  exact Nat.succ.inj hlength

/-- A folded pattern has a star exactly when the pattern has one. -/
theorem star_mem_foldPattern_iff (p : Pipeline) (pattern : String) :
    '*' ∈ (p.foldPattern pattern).toList ↔ '*' ∈ pattern.toList := by
  have hmem (text : List Char) : '*' ∈ text ↔ 0 < text.countP isStar := by
    rw [List.countP_pos_iff]
    exact ⟨fun h => ⟨'*', h, rfl⟩, fun ⟨c, hc, hstar⟩ => isStar_iff.1 hstar ▸ hc⟩
  rw [hmem, hmem, countP_isStar_foldPattern]

end Pipeline

end FullText
