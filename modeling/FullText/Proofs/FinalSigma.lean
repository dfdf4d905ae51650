import FullText.Text.Case
import Mathlib

/-!
# Capital sigmas

Lower case gives every character but one a form of its own, so it makes no difference where a text
is cut. The exception is the capital sigma: it becomes a final sigma if a letter comes before it and
none after it, and whoever cuts a text there hides what comes before and after.

What lower case makes of a stretch of a text depends on the text around it only by two answers:
whether the text before it, and the text after it, continues a word. A run of characters is open on
one side if the form of one of its sigmas hangs on the answer of that side. The runs of a text that
is cut are settled if they are open only to the two ends of the whole, where nothing is hidden.

## Main definitions

* `Text.lowerWithin` : the lower-case form of a stretch of a text.
* `Text.OpenBefore`, `Text.OpenAfter` : runs in which a sigma hangs on the text around them.
* `Text.SettledSigmas` : runs in which no sigma hangs on what the stars stand for.

## Main results

* `Text.lowercase_eq` : the shorter way for ASCII texts makes no difference.
* `Text.lowerWithin_congr` : what a stretch becomes depends on two answers.
* `Text.lowerWithin_eq_lowerChars` : when a run becomes what it would become on its own.
* `Text.exists_open_of_not_settledSigmas` : where runs that are not settled are open.
-/

namespace FullText

namespace Text

/-! ### ASCII texts -/

theorem lowerChar_of_ascii {c : Char} (hc : c.toNat < 128) :
    c ≠ capitalSigma ∧ lowerChar c = [c.toLower] := by
  have hall : ∀ n < 128, Char.ofNat n ≠ capitalSigma ∧
      lowerChar (Char.ofNat n) = [(Char.ofNat n).toLower] := by
    decide +kernel
  simpa using hall c.toNat hc

theorem lowerFrom_of_isAscii (before : List Char) {s : List Char} (hs : isAscii s = true) :
    lowerFrom before s = s.map Char.toLower := by
  induction s generalizing before with
  | nil => rfl
  | cons c rest ih =>
    rw [isAscii, List.all_cons, Bool.and_eq_true, decide_eq_true_iff] at hs
    obtain ⟨hne, hlower⟩ := lowerChar_of_ascii hs.1
    rw [lowerFrom, if_neg hne, hlower, ih _ hs.2, List.map_cons, List.singleton_append]

/-- The shorter way for ASCII texts makes no difference. -/
theorem lowercase_eq (s : String) : lowercase s = String.ofList (lowerChars s.toList) := by
  rw [lowercase]
  split
  · next hs => rw [lowerChars, lowerFrom_of_isAscii [] hs]
  · rfl

/-! ### The text around a stretch -/

theorem continuesWord_append_of_all {u : List Char} (hu : ∀ c ∈ u, isCaseIgnorable c = true)
    (v : List Char) : continuesWord (u ++ v) = continuesWord v := by
  rw [continuesWord, continuesWord, List.dropWhile_append_of_pos hu]

/-- The nearest character that does not ignore case decides. -/
theorem continuesWord_append_of_exists {u : List Char}
    (hu : ∃ c ∈ u, isCaseIgnorable c = false) (v : List Char) :
    continuesWord (u ++ v) = continuesWord u := by
  obtain ⟨c, hc, hignored⟩ := hu
  have hne : (u.dropWhile isCaseIgnorable).isEmpty = false := by
    rw [List.isEmpty_eq_false_iff, ne_eq, List.dropWhile_eq_nil_iff]
    exact fun hall => absurd (hall c hc) (by simp [hignored])
  rw [continuesWord, continuesWord, List.dropWhile_append, hne, if_neg Bool.false_ne_true]
  cases hdrop : u.dropWhile isCaseIgnorable with
  | nil => simp [hdrop] at hne
  | cons a rest => rfl

theorem all_or_exists (u : List Char) :
    (∀ c ∈ u, isCaseIgnorable c = true) ∨ ∃ c ∈ u, isCaseIgnorable c = false := by
  by_cases h : ∀ c ∈ u, isCaseIgnorable c = true
  · exact .inl h
  · push Not at h
    simpa using Or.inr h

theorem continuesWord_eq_false_of_all {u : List Char}
    (hu : ∀ c ∈ u, isCaseIgnorable c = true) : continuesWord u = false := by
  have happend := continuesWord_append_of_all hu []
  rwa [List.append_nil] at happend

theorem exists_of_continuesWord {u : List Char} (hu : continuesWord u = true) :
    ∃ c ∈ u, isCaseIgnorable c = false := by
  rcases all_or_exists u with hall | hexists
  · rw [continuesWord_eq_false_of_all hall] at hu
    cases hu
  · exact hexists

/-- The text beyond counts only by whether it continues a word. -/
theorem continuesWord_append_congr (u : List Char) {v v' : List Char}
    (h : continuesWord v = continuesWord v') :
    continuesWord (u ++ v) = continuesWord (u ++ v') := by
  rcases all_or_exists u with hall | hexists
  · rw [continuesWord_append_of_all hall, continuesWord_append_of_all hall, h]
  · rw [continuesWord_append_of_exists hexists, continuesWord_append_of_exists hexists]

theorem continuesWord_sigma (v : List Char) : continuesWord (capitalSigma :: v) = true := by
  have hsigma : isCaseIgnorable capitalSigma = false ∧ isCased capitalSigma = true := by
    decide +kernel
  rw [continuesWord, List.dropWhile_cons_of_neg (by simp [hsigma.1])]
  exact hsigma.2

theorem sigma_notMem_of_all {u : List Char} (hu : ∀ c ∈ u, isCaseIgnorable c = true) :
    capitalSigma ∉ u := fun hmem => absurd (hu _ hmem) (by decide +kernel)

/-! ### Stretches -/

/-- The form of a capital sigma, given the characters before it, the nearest first, and those after
it. -/
def sigmaForm (before after : List Char) : Char :=
  if continuesWord before && !continuesWord after then '\u03C2' else '\u03C3'

/-- The lower-case form of a stretch of a text, given the characters before it, the nearest first,
and those after it. -/
def lowerWithin (before : List Char) : List Char → List Char → List Char
  | [], _ => []
  | c :: rest, after =>
    (if c = capitalSigma then [sigmaForm before (rest ++ after)] else lowerChar c) ++
      lowerWithin (c :: before) rest after

/-- The lower-case form of a text is that of a stretch after which nothing comes. -/
theorem lowerFrom_eq_lowerWithin (before s : List Char) :
    lowerFrom before s = lowerWithin before s [] := by
  induction s generalizing before with
  | nil => rfl
  | cons c rest ih =>
    rw [lowerFrom, lowerWithin, ih, List.append_nil, sigmaForm]
    congr 2
    split <;> rfl

theorem lowerWithin_append (before u v after : List Char) :
    lowerWithin before (u ++ v) after =
      lowerWithin before u (v ++ after) ++ lowerWithin (u.reverse ++ before) v after := by
  induction u generalizing before with
  | nil => rfl
  | cons c rest ih =>
    rw [List.cons_append, lowerWithin, lowerWithin, ih, List.append_assoc rest, List.reverse_cons,
      List.append_assoc, List.append_assoc, List.singleton_append]

/-- Two halves of a text, each in the sight of the other. -/
theorem lowerFrom_append (before u v : List Char) :
    lowerFrom before (u ++ v) = lowerWithin before u v ++ lowerFrom (u.reverse ++ before) v := by
  rw [lowerFrom_eq_lowerWithin, lowerWithin_append, List.append_nil, lowerFrom_eq_lowerWithin]

/-- Three parts of a text, each in the sight of the others. -/
theorem lowerChars_between (u stretch v : List Char) :
    lowerChars (u ++ stretch ++ v) =
      lowerWithin [] u (stretch ++ v) ++
        (lowerWithin u.reverse stretch v ++ lowerWithin (stretch.reverse ++ u.reverse) v []) := by
  rw [lowerChars, List.append_assoc, lowerFrom_append, lowerFrom_append, lowerFrom_eq_lowerWithin,
    List.append_nil]

/-- **What a stretch becomes** depends on the text around it only by whether a word is continued on
either side. -/
theorem lowerWithin_congr {before before' after after' : List Char}
    (hbefore : continuesWord before = continuesWord before')
    (hafter : continuesWord after = continuesWord after') (s : List Char) :
    lowerWithin before s after = lowerWithin before' s after' := by
  induction s generalizing before before' with
  | nil => rfl
  | cons c rest ih =>
    have hnext : continuesWord (c :: before) = continuesWord (c :: before') :=
      continuesWord_append_congr [c] hbefore
    rw [lowerWithin, lowerWithin, sigmaForm, sigmaForm, hbefore,
      continuesWord_append_congr rest hafter, ih hnext]

/-- Without a capital sigma there is nothing to depend on. -/
theorem lowerWithin_of_notMem {s : List Char} (hs : capitalSigma ∉ s) (before after : List Char) :
    lowerWithin before s after = s.flatMap lowerChar := by
  induction s generalizing before with
  | nil => rfl
  | cons c rest ih =>
    rw [List.mem_cons, not_or] at hs
    rw [lowerWithin, if_neg (Ne.symm hs.1), ih hs.2, List.flatMap_cons]

theorem lowerWithin_sigma (before u v after : List Char) :
    lowerWithin before (u ++ capitalSigma :: v) after =
      lowerWithin before u (capitalSigma :: v ++ after) ++
        sigmaForm (u.reverse ++ before) (v ++ after) ::
          lowerWithin (capitalSigma :: (u.reverse ++ before)) v after := by
  rw [lowerWithin_append, lowerWithin, if_pos rfl, List.singleton_append]

/-! ### Open runs -/

/-- A run in which the form of a sigma hangs on what comes before the run. -/
def OpenBefore (run : List Char) : Prop :=
  ∃ u v, run = u ++ capitalSigma :: v ∧ (∀ c ∈ u, isCaseIgnorable c = true) ∧
    continuesWord v = false

/-- A run in which the form of a sigma hangs on what comes after the run. -/
def OpenAfter (run : List Char) : Prop :=
  ∃ u v, run = u ++ capitalSigma :: v ∧ continuesWord u.reverse = true ∧
    ∀ c ∈ v, isCaseIgnorable c = true

/-- A sigma of a run takes the form that it would take if the run stood on its own, if on each side
either the text beyond does not continue a word, or the run is not open. -/
theorem sigmaForm_append {before u v after : List Char}
    (hbefore : continuesWord before = false ∨ ¬ OpenBefore (u ++ capitalSigma :: v))
    (hafter : continuesWord after = false ∨ ¬ OpenAfter (u ++ capitalSigma :: v)) :
    sigmaForm (u.reverse ++ before) (v ++ after) = sigmaForm u.reverse v := by
  rw [sigmaForm, sigmaForm]
  -- the run itself decides on a side where it has a character that does not ignore case
  rcases all_or_exists u with hall | hexists
  · have hall' : ∀ c ∈ u.reverse, isCaseIgnorable c = true := by simpa using hall
    rw [continuesWord_append_of_all hall', continuesWord_eq_false_of_all hall']
    rcases hbefore with hbefore | hopen
    · rw [hbefore]
      rfl
    · have hv : continuesWord v = true :=
        Bool.of_not_eq_false fun hv => hopen ⟨u, v, rfl, hall, hv⟩
      rw [continuesWord_append_of_exists (exists_of_continuesWord hv), hv]
      simp
  · have hexists' : ∃ c ∈ u.reverse, isCaseIgnorable c = false := by simpa using hexists
    rw [continuesWord_append_of_exists hexists']
    rcases all_or_exists v with hall | hmore
    · rw [continuesWord_append_of_all hall, continuesWord_eq_false_of_all hall]
      rcases hafter with hafter | hopen
      · rw [hafter]
      · have hword : continuesWord u.reverse = false :=
          Bool.eq_false_iff.2 fun hword => hopen ⟨u, v, rfl, hword, hall⟩
        rw [hword]
        rfl
    · rw [continuesWord_append_of_exists hmore]

/-- **When a run becomes what it would become on its own**: on each side either the text beyond does
not continue a word, or the run is not open. -/
theorem lowerWithin_eq_lowerChars {before run after : List Char}
    (hbefore : continuesWord before = false ∨ ¬ OpenBefore run)
    (hafter : continuesWord after = false ∨ ¬ OpenAfter run) :
    lowerWithin before run after = lowerChars run := by
  -- what has been read of the run is carried along, since it takes part in the decision
  suffices hsuffices : ∀ u v, run = u ++ v →
      lowerWithin (u.reverse ++ before) v after = lowerWithin u.reverse v [] by
    rw [lowerChars, lowerFrom_eq_lowerWithin]
    exact hsuffices [] run rfl
  intro u v hrun
  induction v generalizing u with
  | nil => rfl
  | cons c rest ih =>
    have htail := ih (u ++ [c]) (by simp [hrun])
    rw [List.reverse_append] at htail
    rw [lowerWithin, lowerWithin, List.append_nil]
    by_cases hc : c = capitalSigma
    · subst hc hrun
      rw [if_pos rfl, if_pos rfl, sigmaForm_append hbefore hafter]
      exact congrArg _ htail
    · rw [if_neg hc, if_neg hc]
      exact congrArg _ htail

/-- Runs in which no sigma hangs on what stands between them. -/
structure SettledSigmas (runs : List (List Char)) : Prop where
  /-- No run but the first one is open before it. -/
  before : ∀ run ∈ runs.tail, ¬ OpenBefore run
  /-- No run but the last one is open after it. -/
  after : ∀ run ∈ runs.dropLast, ¬ OpenAfter run

/-- Runs without a capital sigma are settled. -/
theorem SettledSigmas.of_notMem {runs : List (List Char)}
    (h : ∀ run ∈ runs, capitalSigma ∉ run) : SettledSigmas runs where
  before run hrun := by
    rintro ⟨u, v, rfl, -, -⟩
    exact h _ (List.mem_of_mem_tail hrun) (by simp)
  after run hrun := by
    rintro ⟨u, v, rfl, -, -⟩
    exact h _ (List.mem_of_mem_dropLast hrun) (by simp)

theorem settledSigmas_cons_cons {run next : List Char} {runs : List (List Char)} :
    SettledSigmas (run :: next :: runs) ↔
      ¬ OpenAfter run ∧ ¬ OpenBefore next ∧ SettledSigmas (next :: runs) := by
  constructor
  · rintro ⟨hbefore, hafter⟩
    rw [List.tail_cons, List.forall_mem_cons] at hbefore
    rw [List.dropLast_cons_cons, List.forall_mem_cons] at hafter
    exact ⟨hafter.1, hbefore.1, hbefore.2, hafter.2⟩
  · rintro ⟨hafter, hbefore, hrest⟩
    refine ⟨?_, ?_⟩
    · rw [List.tail_cons, List.forall_mem_cons]
      exact ⟨hbefore, hrest.before⟩
    · rw [List.dropLast_cons_cons, List.forall_mem_cons]
      exact ⟨hafter, hrest.after⟩

/-- Where settled runs fail: two neighbours, the first open after it or the second before it. -/
theorem exists_open_of_not_settledSigmas {runs : List (List Char)} (h : ¬ SettledSigmas runs) :
    ∃ init run next rest, runs = init ++ run :: next :: rest ∧
      (OpenAfter run ∨ OpenBefore next) := by
  induction runs with
  | nil => exact absurd ⟨by simp, by simp⟩ h
  | cons run runs ih =>
    cases runs with
    | nil => exact absurd ⟨by simp, by simp⟩ h
    | cons next rest =>
      by_cases hopen : OpenAfter run ∨ OpenBefore next
      · exact ⟨[], run, next, rest, rfl, hopen⟩
      · rw [not_or] at hopen
        obtain ⟨init, run', next', rest', heq, hopen'⟩ := ih fun hrest =>
          h (settledSigmas_cons_cons.2 ⟨hopen.1, hopen.2, hrest⟩)
        exact ⟨run :: init, run', next', rest', by rw [heq, List.cons_append], hopen'⟩

end Text

end FullText
