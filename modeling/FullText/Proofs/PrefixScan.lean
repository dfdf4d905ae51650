import FullText.Proofs.ByteOrder
import FullText.Proofs.LineFeeds
import FullText.Proofs.VocabularyRange

/-!
# Scanning a range of the vocabulary

The terms that start with a text are read off the vocabulary from the first term that is not less
than the text, up to the first one that does not start with it. The order is that of the bytes, and
a text starts with another one exactly if its bytes do, so that the range is the same whether it is
told by characters or by bytes. Looking for the matches of a pattern in the range of its literal
head gives the same list as looking through the whole vocabulary.

## Main results

* `Text.toUTF8_prefix_iff` : the beginnings of texts and of their bytes.
* `Glob.filter_termsFrom` : the matches of a pattern are found in the range of its literal head.
* `FieldIndex.rangeScan_eq_fullScan` : **scanning a range is scanning the vocabulary.**
-/

namespace FullText

/-- **A text starts with another one exactly if its bytes do.** -/
theorem Text.toUTF8_prefix_iff {s t : String} :
    s.toUTF8.toList <+: t.toUTF8.toList ↔ s.toList <+: t.toList := by
  refine ⟨toList_prefix_of_toUTF8, ?_⟩
  rintro ⟨rest, hrest⟩
  rw [toUTF8_eq_flatMap, toUTF8_eq_flatMap, ← hrest, List.flatMap_append]
  exact List.prefix_append _ _

namespace FieldIndex

variable (f : FieldIndex) (head : String)

theorem mem_termsFrom_iff {t : String} :
    t ∈ f.termsFrom head ↔ t ∈ f.vocabulary ∧ head.toUTF8.toList <+: t.toUTF8.toList := by
  rw [termsFrom_eq_filter, List.mem_filter, startsWith_iff, Text.toUTF8_prefix_iff]

/-- The range keeps the order of the vocabulary. -/
theorem pairwise_termsFrom : (f.termsFrom head).Pairwise (· < ·) := by
  rw [termsFrom_eq_filter]
  exact f.pairwise_vocabulary.filter _

end FieldIndex

/-- **The matches of a pattern are found in the range of its literal head,** all of them and in the
same order. -/
theorem Glob.filter_termsFrom (g : Glob) (f : FieldIndex) :
    ((f.termsFrom g.literalHead).filter fun t => g.accepts t.toList) =
      f.vocabulary.filter fun t => g.accepts t.toList := by
  rw [FieldIndex.termsFrom_eq_filter, List.filter_filter]
  refine List.filter_congr fun t _ => ?_
  rw [Bool.and_eq_left_iff_imp]
  exact startsWith_literalHead

/-- **Scanning a range is scanning the vocabulary.** The range of a text holds exactly the terms
whose bytes start with those of the text, each once, in the ascending order of their bytes. For a
pattern that compiles, the matches in the range of its literal head are those in the whole
vocabulary, in the same order, and these are the terms that are selected. -/
theorem FieldIndex.rangeScan_eq_fullScan (f : FieldIndex) :
    (∀ head : String,
      (∀ t, t ∈ f.termsFrom head ↔
        t ∈ f.vocabulary ∧ head.toUTF8.toList <+: t.toUTF8.toList) ∧
      (f.termsFrom head).Nodup ∧
      (f.termsFrom head).Pairwise fun s t => s.toUTF8.toList < t.toUTF8.toList) ∧
    ∀ pattern glob, Glob.compile pattern = .ok glob →
      glob.literalHead.toList = pattern.toList.takeWhile (fun c => !isStar c) ∧
      ((f.termsFrom glob.literalHead).filter fun t => glob.accepts t.toList) =
        f.vocabulary.filter (fun t => glob.accepts t.toList) ∧
      (TermFilter.pattern glob).select f = f.vocabulary.filter fun t => glob.accepts t.toList := by
  refine ⟨fun head => ⟨fun t => f.mem_termsFrom_iff head, ?_, ?_⟩, fun pattern glob hglob => ?_⟩
  · exact (f.pairwise_termsFrom head).imp fun hlt => ne_of_lt hlt
  · exact (f.pairwise_termsFrom head).imp Text.toUTF8_lt_iff.2
  · have hscan := glob.filter_termsFrom f
    refine ⟨?_, hscan, ?_⟩
    · rw [Glob.literalHead, String.toList_ofList, Glob.chars_of_compile hglob]
    · rw [TermFilter.select]
      split
      · rfl
      · exact hscan

/-- The index of a field with four terms, in which characters of one, two and three bytes follow a
common beginning. -/
def Sample.accented : FieldIndex where
  terms := .ofList (["caf€", "cafés", "cafe", "café"].map fun term => (term, .empty))
  lengths := .empty
  totalLength := 0

theorem FieldIndex.rangeScan_eq_fullScan_sample :
    ∃ glob, Glob.compile "café*" = .ok glob ∧
      (TermFilter.pattern glob).select Sample.accented = ["café", "cafés"] := by
  refine ⟨⟨"café*".toList⟩, rfl, ?_⟩
  rw [(Sample.accented.rangeScan_eq_fullScan.2 "café*" _ rfl).2.2]
  decide +kernel

end FullText
