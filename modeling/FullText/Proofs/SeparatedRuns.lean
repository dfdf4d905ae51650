import FullText.Tokenizer
import Mathlib.Data.List.Basic

/-!
# Runs between separators

A tokenizer of gaps looks for separators, and what it yields are the runs of characters between
them. That is said here without segments: a relation walks through the text, over a separator or
over a run that is as long as can be, and numbers the runs. Two texts with a separator between them
are walked through one after the other.

A pattern that matches the empty text is left out: it cuts a run into its characters.

## Main definitions

* `Tokenizer.Runs` : the runs of a text, as tokens.
* `Tokenizer.MaximalRun` : a run that is as long as can be.

## Main results

* `Tokenizer.runs_iff` : the runs of a text are its tokens.
* `Tokenizer.Runs.append_cons` : a separator in the middle keeps the runs of both sides apart.
* `Tokenizer.exists_token_iff` : **the tokens are precisely the maximal runs.**
-/

namespace FullText

open TokenPattern (Segment)

namespace TokenPattern

variable {p : TokenPattern}

theorem emptyMatch_eq_nil (hp : p.quantifier ≠ .anyNumber) (afterMatch : Bool) :
    emptyMatch p.quantifier afterMatch = [] := by
  simp [emptyMatch, hp]

/-- Without empty matches it does not count whether a match ends where the text begins. -/
theorem segmentsFrom_eq (hp : p.quantifier ≠ .anyNumber) (afterMatch : Bool) (text : List Char) :
    p.segmentsFrom afterMatch text = p.segments text := by
  cases text with
  | nil => rw [segments, segmentsFrom, segmentsFrom, emptyMatch_eq_nil hp, emptyMatch_eq_nil hp]
  | cons c text =>
    rw [segments, segmentsFrom, segmentsFrom, emptyMatch_eq_nil hp, emptyMatch_eq_nil hp]

/-- A text that begins with a separator, or is empty, does not begin with a gap. -/
theorem extendGap_segments (hp : p.quantifier ≠ .anyNumber) (c : Char) {text : List Char}
    (hhead : ∀ d ∈ text.head?, p.charClass.contains d = true) :
    extendGap c (p.segments text) = ⟨false, [c]⟩ :: p.segments text := by
  cases text with
  | nil =>
    rw [segments, segmentsFrom, emptyMatch_eq_nil hp]
    rfl
  | cons d text =>
    rw [segments, segmentsFrom, if_pos (hhead d rfl)]
    cases p.quantifier with
    | one => rfl
    | oneOrMore | anyNumber =>
      rw [addMatched, extendMatch.eq_def]
      split <;> rfl

/-- A run that ends at a separator or at the end of the text is one gap. -/
theorem segments_run (hp : p.quantifier ≠ .anyNumber) {w text : List Char} (hne : w ≠ [])
    (hw : ∀ c ∈ w, p.charClass.contains c = false)
    (hend : ∀ c ∈ text.head?, p.charClass.contains c = true) :
    p.segments (w ++ text) = ⟨false, w⟩ :: p.segments text := by
  have hstep {c : Char} (hc : p.charClass.contains c = false) (text : List Char) :
      p.segments (c :: text) = extendGap c (p.segments text) := by
    rw [segments, segmentsFrom, if_neg (by simp [hc]), emptyMatch_eq_nil hp]
    rfl
  induction w with
  | nil => exact absurd rfl hne
  | cons c w ih =>
    obtain ⟨hc, hw⟩ := List.forall_mem_cons.1 hw
    rw [List.cons_append, hstep hc]
    by_cases hnil : w = []
    · subst hnil
      exact extendGap_segments hp c hend
    · rw [ih hnil hw]
      rfl

end TokenPattern

namespace Tokenizer

/-- The runs of characters between separators, as tokens, given the number of the next token and
the offset of the next byte. A run holds something and ends at a separator or at the end of the
text. -/
inductive Runs (p : TokenPattern) : Nat → Nat → List Char → List Token → Prop
  /-- The empty text has no runs. -/
  | nil (position start : Nat) : Runs p position start [] []
  /-- A separator does not count. -/
  | separator {position start c text ts} (hc : p.charClass.contains c = true)
      (h : Runs p position (start + c.utf8Size) text ts) : Runs p position start (c :: text) ts
  /-- A run in front. -/
  | run {position start w text ts} (hne : w ≠ []) (hw : ∀ c ∈ w, p.charClass.contains c = false)
      (hend : ∀ c ∈ text.head?, p.charClass.contains c = true)
      (h : Runs p (position + 1) (start + byteLength w) text ts) :
      Runs p position start (w ++ text)
        (⟨String.ofList w, position, start, start + byteLength w⟩ :: ts)

variable {p : TokenPattern} {position start : Nat} {a b text : List Char} {ts us : List Token}

/-! ### Runs and tokens -/

theorem place_addMatched (q : Quantifier) (c : Char) (ss : List Segment) :
    place .gaps position start (TokenPattern.addMatched q c ss) =
      place .gaps position (start + c.utf8Size) ss := by
  have hfront (cs : List Char) (rest : List Segment) :
      place .gaps position start (⟨true, cs⟩ :: rest) =
        place .gaps position (start + byteLength cs) rest := rfl
  have hextend : place .gaps position start (TokenPattern.extendMatch c ss) =
      place .gaps position (start + c.utf8Size) ss := by
    rw [TokenPattern.extendMatch.eq_def]
    split
    · rw [hfront, byteLength_cons, ← Nat.add_assoc]
      rfl
    · exact hfront [c] ss
  cases q with
  | one => exact hfront [c] ss
  | oneOrMore => exact hextend
  | anyNumber => exact hextend

theorem place_gap (ss : List Segment) {w : List Char} (hne : w ≠ []) :
    place .gaps position start (⟨false, w⟩ :: ss) =
      ⟨String.ofList w, position, start, start + byteLength w⟩ ::
        place .gaps (position + 1) (start + byteLength w) ss :=
  if_pos (by simp [Extraction.selects, hne])

/-- The runs of a text are its tokens. -/
theorem Runs.eq_place (hp : p.quantifier ≠ .anyNumber) (h : Runs p position start text ts) :
    ts = place .gaps position start (p.segments text) := by
  induction h with
  | nil position start =>
    rw [TokenPattern.segments, TokenPattern.segmentsFrom, TokenPattern.emptyMatch_eq_nil hp]
    rfl
  | separator hc _ ih =>
    rw [TokenPattern.segments, TokenPattern.segmentsFrom, if_pos hc, place_addMatched,
      TokenPattern.segmentsFrom_eq hp, ih]
  | run hne hw hend _ ih => rw [TokenPattern.segments_run hp hne hw hend, place_gap _ hne, ih]

/-- Every text can be walked through. -/
theorem exists_runs (p : TokenPattern) (position start : Nat) (text : List Char) :
    ∃ ts, Runs p position start text ts := by
  induction text generalizing position start with
  | nil => exact ⟨[], .nil position start⟩
  | cons c text ih =>
    by_cases hc : p.charClass.contains c = true
    · obtain ⟨ts, hts⟩ := ih position (start + c.utf8Size)
      exact ⟨ts, .separator hc hts⟩
    · have hc := Bool.eq_false_iff.2 hc
      by_cases hhead : ∀ d ∈ text.head?, p.charClass.contains d = true
      · obtain ⟨ts, hts⟩ := ih (position + 1) (start + byteLength [c])
        exact ⟨_, .run (List.cons_ne_nil c []) (by simpa using hc) hhead hts⟩
      · -- The text goes on with a run, which begins one character earlier.
        obtain ⟨ts, hts⟩ := ih position (start + c.utf8Size)
        cases hts with
        | nil => exact absurd nofun hhead
        | separator hd => exact absurd (by simpa using hd) hhead
        | run hne hw hend h =>
          rw [Nat.add_assoc, ← byteLength_cons] at h
          exact ⟨_, .run (List.cons_ne_nil c _) (by simpa using ⟨hc, hw⟩) hend h⟩

/-- **The runs of a text are its tokens.** -/
theorem runs_iff (hp : p.quantifier ≠ .anyNumber) :
    Runs p position start text ts ↔ ts = place .gaps position start (p.segments text) := by
  refine ⟨Runs.eq_place hp, ?_⟩
  rintro rfl
  obtain ⟨ts, hts⟩ := exists_runs p position start text
  exact hts.eq_place hp ▸ hts

/-- A separator in the middle keeps the runs of both sides apart. -/
theorem Runs.append_cons {c : Char} (hc : p.charClass.contains c = true)
    (ha : Runs p position start a ts)
    (hb : Runs p (position + ts.length) (start + byteLength a + c.utf8Size) b us) :
    Runs p position start (a ++ c :: b) (ts ++ us) := by
  induction ha with
  | nil position start => exact .separator hc hb
  | separator hd _ ih =>
    rw [byteLength_cons, ← Nat.add_assoc] at hb
    exact .separator hd (ih hb)
  | @run position start w text ts hne hw hend _ ih =>
    rw [byteLength_append, ← Nat.add_assoc, List.length_cons, Nat.add_comm ts.length,
      ← Nat.add_assoc] at hb
    rw [List.append_assoc]
    refine .run hne hw (fun d hd => ?_) (ih hb)
    cases text with
    | nil => rwa [← Option.some.inj hd]
    | cons e text => exact hend d hd

/-! ### Maximal runs -/

/-- A run of characters that do not separate, which is as long as can be. -/
structure MaximalRun (separates : Char → Bool) (before run after : List Char) : Prop where
  /-- The run holds something. -/
  nonempty : run ≠ []
  /-- It holds no separator. -/
  inside : ∀ c ∈ run, separates c = false
  /-- A separator stands before it, if anything does. -/
  left : ∀ c ∈ before.getLast?, separates c = true
  /-- A separator stands behind it, if anything does. -/
  right : ∀ c ∈ after.head?, separates c = true

/-- A token is a maximal run. -/
theorem Runs.exists_maximalRun (h : Runs p position start text ts) {t : Token} (ht : t ∈ ts) :
    ∃ before after, text = before ++ t.text.toList ++ after ∧
      t.start = start + byteLength before ∧ t.stop = t.start + byteLength t.text.toList ∧
      MaximalRun p.charClass.contains before t.text.toList after := by
  induction h with
  | nil => cases ht
  | @separator position start c text ts hc _ ih =>
    obtain ⟨before, after, rfl, hstart, hstop, hrun⟩ := ih ht
    refine ⟨c :: before, after, rfl, ?_, hstop, hrun.nonempty, hrun.inside, fun d hd => ?_,
      hrun.right⟩
    · rw [hstart, byteLength_cons, Nat.add_assoc]
    · cases before with
      | nil => rwa [← Option.some.inj hd]
      | cons e before => exact hrun.left d hd
  | @run position start w text ts hne hw hend _ ih =>
    rcases List.mem_cons.1 ht with rfl | ht
    · rw [String.toList_ofList]
      exact ⟨[], text, rfl, rfl, rfl, hne, hw, nofun, hend⟩
    · obtain ⟨before, after, rfl, hstart, hstop, hrun⟩ := ih ht
      -- The rest begins with a separator, so that a later run does not begin right there.
      have hbefore : before ≠ [] := by
        rintro rfl
        obtain ⟨c, run, hcons⟩ := List.exists_cons_of_ne_nil hrun.nonempty
        have hc := hrun.inside c (hcons ▸ List.mem_cons_self)
        rw [hend c (by rw [hcons]; rfl)] at hc
        cases hc
      refine ⟨w ++ before, after, by simp, ?_, hstop, hrun.nonempty, hrun.inside, ?_, hrun.right⟩
      · rw [hstart, byteLength_append, Nat.add_assoc]
      · rw [List.getLast?_append_of_ne_nil _ hbefore]
        exact hrun.left

/-- A maximal run is a token. -/
theorem MaximalRun.exists_mem {before run after : List Char}
    (h : MaximalRun p.charClass.contains before run after) (position start : Nat) :
    ∃ ts, Runs p position start (before ++ run ++ after) ts ∧
      ∃ t ∈ ts, t.text.toList = run ∧ t.start = start + byteLength before ∧
        t.stop = t.start + byteLength run := by
  have hrun (position start : Nat) :
      ∃ ts, Runs p position start (run ++ after)
        (⟨String.ofList run, position, start, start + byteLength run⟩ :: ts) := by
    obtain ⟨ts, hts⟩ := exists_runs p (position + 1) (start + byteLength run) after
    exact ⟨ts, .run h.nonempty h.inside h.right hts⟩
  rcases List.eq_nil_or_concat' before with rfl | ⟨front, c, rfl⟩
  · obtain ⟨ts, hts⟩ := hrun position start
    exact ⟨_, hts, _, List.mem_cons_self, String.toList_ofList, rfl, rfl⟩
  · have hc : p.charClass.contains c = true := h.left c (by simp)
    obtain ⟨ts, hts⟩ := exists_runs p position start front
    obtain ⟨us, hus⟩ := hrun (position + ts.length) (start + byteLength front + c.utf8Size)
    have htext := hts.append_cons hc hus
    rw [List.append_cons, ← List.append_assoc] at htext
    refine ⟨_, htext, _, List.mem_append_right ts List.mem_cons_self, String.toList_ofList, ?_, rfl⟩
    simp [Nat.add_assoc]

/-- **The tokens are precisely the maximal runs** of characters that are no separators. -/
theorem exists_token_iff (hp : p.quantifier ≠ .anyNumber) {text : String} {run : List Char}
    {start stop : Nat} :
    (∃ t ∈ (ofPattern p .gaps).tokens text, t.text.toList = run ∧ t.start = start ∧
        t.stop = stop) ↔
      ∃ before after, text.toList = before ++ run ++ after ∧ start = byteLength before ∧
        stop = start + byteLength run ∧ MaximalRun p.charClass.contains before run after := by
  constructor
  · rintro ⟨t, ht, rfl, rfl, rfl⟩
    obtain ⟨before, after, htext, hstart, hstop, hrun⟩ := ((runs_iff hp).2 rfl).exists_maximalRun ht
    exact ⟨before, after, htext, by rw [hstart, Nat.zero_add], hstop, hrun⟩
  · rintro ⟨before, after, htext, rfl, rfl, hrun⟩
    obtain ⟨ts, hts, t, ht, hmem, hstart, hstop⟩ := hrun.exists_mem 0 0
    rw [← htext, runs_iff hp] at hts
    subst hts
    rw [Nat.zero_add] at hstart
    exact ⟨t, ht, hmem, hstart, by rw [hstop, hstart]⟩

end Tokenizer

end FullText
