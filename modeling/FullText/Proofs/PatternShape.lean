import FullText.Proofs.PlainTokens
import FullText.Proofs.StarPlacements
import FullText.Search.Expansion
import Mathlib

/-!
# The shape of folded patterns

Folding changes the characters of a pattern and even how many there are, but not its shape. The
folded pattern has as many stars as before, with the folded runs between them. No run gains a star
and none vanishes, and so the stars are placed as before, and the pattern starts with a literal head
exactly if it did before. The matches of the folded pattern are looked for among the terms that
start with the folded head.

## Main results

* `Text.head?_splitWhere` : the first piece of a text is what stands before the first separator.
* `StarPlacement.ofRuns_map` : runs that stay empty or not keep the placement of the stars.
* `Pipeline.literalHead_foldPattern` : the literal head of a folded pattern is the folded head.
* `Pipeline.foldPattern_keeps_shape` : **folding keeps the shape of a pattern.**
-/

namespace FullText

/-- The first piece of a text is what stands before the first separator. -/
theorem Text.head?_splitWhere {α : Type} (p : α → Bool) (as : List α) :
    (splitWhere p as).head? = some (as.takeWhile fun a => !p a) := by
  induction as with
  | nil => rfl
  | cons a as ih =>
    by_cases hp : p a = true
    · rw [splitWhere_cons_of_pos hp, List.head?_cons, List.takeWhile_cons_of_neg (by simp [hp])]
    · have hn := Bool.eq_false_iff.2 hp
      rw [splitWhere_cons_of_neg hn, List.head?_modifyHead, ih,
        List.takeWhile_cons_of_pos (by simp [hn])]
      rfl

/-- Runs that stay empty or not keep the placement of the stars between them. -/
theorem StarPlacement.ofRuns_map {f : List Char → List Char} (hf : ∀ run, f run = [] ↔ run = [])
    (runs : List (List Char)) : ofRuns (runs.map f) = ofRuns runs := by
  have hempty (run : List Char) : (f run).isEmpty = run.isEmpty := by
    rw [Bool.eq_iff_iff, List.isEmpty_iff, List.isEmpty_iff, hf]
  match runs with
  | [] | [_] => rfl
  | [first, last] => rw [List.map_cons, List.map_cons, List.map_nil, ofRuns, ofRuns, hempty, hempty]
  | [first, middle, last] =>
    simp only [List.map_cons, List.map_nil, ofRuns, hempty]
  | first :: second :: third :: fourth :: rest => rfl

namespace Pipeline

variable (p : Pipeline)

/-- A literal run vanishes only if nothing was there. -/
theorem foldLiteral_eq_nil_iff {s : String} : (p.foldLiteral s).toList = [] ↔ s.toList = [] := by
  refine ⟨fun h => by_contra fun hne => p.foldLiteral_ne_nil hne h, fun h => ?_⟩
  obtain rfl := String.toList_eq_nil_iff.1 h
  have hfold (f : Filter) : f.foldLiteral "" = "" := by cases f <;> rfl
  rw [foldLiteral]
  induction p.filters with
  | nil => rfl
  | cons f rest ih => rwa [List.foldl_cons, hfold]

/-- Folding keeps the placement of the stars. -/
theorem classify_foldPattern (pattern : String) :
    StarPlacement.classify (p.foldPattern pattern).toList = .classify pattern.toList := by
  rw [StarPlacement.classify_eq_ofRuns, StarPlacement.classify_eq_ofRuns, splitWhere_foldPattern]
  refine StarPlacement.ofRuns_map (fun run => ?_) _
  rw [foldLiteral_eq_nil_iff, String.toList_ofList]

/-- The literal head of a folded pattern is the folded literal head. -/
theorem literalHead_foldPattern (pattern : String) :
    (Glob.mk (p.foldPattern pattern).toList).literalHead =
      p.foldLiteral (Glob.mk pattern.toList).literalHead := by
  have hhead := congrArg List.head? (p.splitWhere_foldPattern pattern)
  rw [List.head?_map, Text.head?_splitWhere, Text.head?_splitWhere] at hhead
  rw [Glob.literalHead, Option.some.inj hhead, String.ofList_toList, Glob.literalHead]

/-- The matches of a folded pattern are looked for among the terms that start with the folded head,
or among all terms if the pattern has no literal head. -/
theorem select_foldPattern (pattern : String) (f : FieldIndex) :
    (TermFilter.pattern ⟨(p.foldPattern pattern).toList⟩).select f =
      (if (Glob.mk pattern.toList).literalHead.isEmpty then f.vocabulary
        else f.termsFrom (p.foldLiteral (Glob.mk pattern.toList).literalHead)).filter
          fun t => (Glob.mk (p.foldPattern pattern).toList).accepts t.toList := by
  have hempty : (p.foldLiteral (Glob.mk pattern.toList).literalHead).isEmpty =
      (Glob.mk pattern.toList).literalHead.isEmpty := by
    rw [Bool.eq_iff_iff, String.isEmpty_iff, String.isEmpty_iff, ← String.toList_eq_nil_iff,
      foldLiteral_eq_nil_iff, String.toList_eq_nil_iff]
  rw [TermFilter.select, literalHead_foldPattern, hempty]
  split <;> rfl

/-- **Folding keeps the shape of a pattern.** The folded pattern has the stars of the pattern, as
many as before, and between them its runs, each of them folded. The stars are placed as before. How
they are placed is told by the places at which they stand, and it is found in one pass over their
offsets. The literal head of the compiled pattern is the folded literal head, and matches are looked
for among the terms that start with it exactly if the pattern has a literal head. -/
theorem foldPattern_keeps_shape (pattern : String) :
    ((p.foldPattern pattern).toList.count '*' = pattern.toList.count '*' ∧
      Text.splitWhere isStar (p.foldPattern pattern).toList =
        (Text.splitWhere isStar pattern.toList).map fun run =>
          (p.foldLiteral (String.ofList run)).toList) ∧
    (StarPlacement.classify (p.foldPattern pattern).toList = .classify pattern.toList ∧
      StarPlacement.classify pattern.toList = .scan pattern.toList ∧
      ∀ k : StarPlacement, .classify pattern.toList = k ↔ k.Describes pattern.toList) ∧
    ∀ glob, Glob.compile (p.foldPattern pattern) = .ok glob →
      glob.literalHead = p.foldLiteral (Glob.mk pattern.toList).literalHead ∧
      ∀ f : FieldIndex, (TermFilter.pattern glob).select f =
        (if (Glob.mk pattern.toList).literalHead.isEmpty then f.vocabulary
          else f.termsFrom (p.foldLiteral (Glob.mk pattern.toList).literalHead)).filter
            fun t => glob.accepts t.toList := by
  refine ⟨⟨p.countP_isStar_foldPattern pattern, p.splitWhere_foldPattern pattern⟩,
    ⟨p.classify_foldPattern pattern, StarPlacement.classify_eq_scan _,
      fun k => StarPlacement.classify_eq_iff⟩, fun glob hglob => ?_⟩
  obtain rfl : glob = ⟨(p.foldPattern pattern).toList⟩ :=
    congrArg Glob.mk (Glob.chars_of_compile hglob)
  exact ⟨p.literalHead_foldPattern pattern, p.select_foldPattern pattern⟩

/-- A pattern that has more characters after folding, and more bytes. -/
theorem foldPattern_keeps_shape_sample :
    ∃ glob, Glob.compile (english.foldPattern "İΣ*") = .ok glob ∧
      glob.literalHead = "i\u0307ς" ∧
      StarPlacement.classify (english.foldPattern "İΣ*").toList = .trailing := by
  obtain ⟨-, ⟨hclassify, -, -⟩, hhead⟩ := english.foldPattern_keeps_shape "İΣ*"
  refine ⟨_, rfl, (hhead _ rfl).1.trans ?_, hclassify.trans rfl⟩
  decide +kernel

end Pipeline

end FullText
