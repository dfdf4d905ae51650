import FullText.Glob

/-!
# The texts that a pattern matches

A pattern falls into literal runs with a star between each two of them. It matches the texts in
which the runs stand in order, the first at the start and the last at the end, with stretches
between them that hold no line feed. For a text without a line feed this is the usual meaning of
stars: each stands for any text at all.

The rows of the matcher are related to a matching relation that follows the pattern character by
character, and that relation to the runs.

## Main definitions

* `Glob.Matches` : the matching relation, character by character.
* `Glob.SpannedBy` : literal runs with stretches of some kind between them.
* `Glob.Spanned` : literal runs with arbitrary stretches between them.

## Main results

* `StarPlacement.classify_eq_none_iff` : a text has no placement of stars iff it has no star.
* `Glob.chars_of_compile` : compiling a pattern changes none of its characters.
* `Glob.accepts_iff_matches` : the rows compute the matching relation.
* `Glob.matches_iff_spannedBy` : the meaning of a pattern in terms of its runs.
* `Glob.accepts_iff_spanned` : the same for texts without a line feed.
-/

namespace FullText

/-! ### Where the stars are -/

theorem isStar_iff {c : Char} : isStar c = true ↔ c = '*' := decide_eq_true_iff

theorem any_isStar_iff {text : List Char} : text.any isStar = true ↔ '*' ∈ text := by
  simp [isStar]

namespace StarPlacement

theorem ofFlags_eq_none_iff {first last inside : Bool} :
    ofFlags first last inside = none ↔ first = false ∧ last = false ∧ inside = false := by
  cases first <;> cases last <;> cases inside <;> decide

/-- A text has no placement of stars exactly when it has no star. -/
theorem classify_eq_none_iff {text : List Char} : classify text = none ↔ '*' ∉ text := by
  rw [← any_isStar_iff]
  cases text with
  | nil => simp [classify]
  | cons c rest =>
    rw [classify, ofFlags_eq_none_iff, List.any_cons]
    rcases List.eq_nil_or_concat rest with rfl | ⟨init, last, rfl⟩
    · simp
    · rw [List.concat_eq_append]
      simp only [List.getLast?_concat, List.dropLast_concat, Option.any_some, List.any_append,
        List.any_cons, List.any_nil, Bool.or_false, Bool.or_eq_true, not_or, Bool.not_eq_true]
      exact and_congr_right fun _ => and_comm

end StarPlacement

namespace Glob

/-- A pattern that compiles keeps its characters. -/
theorem chars_of_compile {pattern : String} {g : Glob} (hg : compile pattern = .ok g) :
    g.chars = pattern.toList := by
  rw [compile] at hg
  split at hg
  · cases hg
  · rw [← Except.ok.inj hg]

/-! ### The matching relation -/

/-- Whether a pattern matches a text, character by character. A star stands for nothing, or takes
one more character that is not a line feed. -/
inductive Matches : List Char → List Char → Prop
  /-- The empty pattern matches the empty text. -/
  | nil : Matches [] []
  /-- A literal character matches itself. -/
  | literal {a p t} (ha : isStar a = false) (h : Matches p t) : Matches (a :: p) (a :: t)
  /-- A star stands for nothing. -/
  | starEnd {p t} (h : Matches p t) : Matches ('*' :: p) t
  /-- A star takes one more character. -/
  | starStep {c p t} (hc : c ≠ '\n') (h : Matches ('*' :: p) t) : Matches ('*' :: p) (c :: t)

theorem matches_nil_iff {t : List Char} : Matches [] t ↔ t = [] := by
  constructor
  · rintro ⟨⟩
    rfl
  · rintro rfl
    exact .nil

theorem matches_literal_nil_iff {a : Char} (ha : isStar a = false) (p : List Char) :
    ¬ Matches (a :: p) [] := by
  intro h
  cases h
  exact absurd ha (by decide)

theorem matches_literal_cons_iff {a c : Char} (ha : isStar a = false) {p t : List Char} :
    Matches (a :: p) (c :: t) ↔ a = c ∧ Matches p t := by
  constructor
  · intro h
    cases h with
    | literal _ h => exact ⟨rfl, h⟩
    | starEnd => exact absurd ha (by decide)
    | starStep => exact absurd ha (by decide)
  · rintro ⟨rfl, h⟩
    exact .literal ha h

theorem matches_star_nil_iff {p : List Char} : Matches ('*' :: p) [] ↔ Matches p [] := by
  constructor
  · intro h
    cases h with
    | starEnd h => exact h
  · exact .starEnd

theorem matches_star_cons_iff {c : Char} {p t : List Char} :
    Matches ('*' :: p) (c :: t) ↔ Matches p (c :: t) ∨ c ≠ '\n' ∧ Matches ('*' :: p) t := by
  constructor
  · intro h
    cases h with
    | literal ha => exact absurd ha (by decide)
    | starEnd h => exact Or.inl h
    | starStep hc h => exact Or.inr ⟨hc, h⟩
  · rintro (h | ⟨hc, h⟩)
    · exact .starEnd h
    · exact .starStep hc h

/-! ### Rows -/

/-- The row of a pattern holds the answer for the whole text, and then the row for the text without
its first character. -/
theorem row_spec (p : List Char) : (t : List Char) →
    ∃ here, (here = true ↔ Matches p t) ∧
      row t p = here :: match t with
        | [] => []
        | _ :: rest => row rest p := by
  induction p with
  | nil =>
    rintro (_ | ⟨c, t⟩)
    · exact ⟨true, by simp [matches_nil_iff], rfl⟩
    · exact ⟨false, by simp [matches_nil_iff], rfl⟩
  | cons a p ih =>
    by_cases ha : isStar a = true
    · obtain rfl := isStar_iff.1 ha
      intro t
      induction t with
      | nil =>
        obtain ⟨here, hm, hrow⟩ := ih []
        refine ⟨here, hm.trans matches_star_nil_iff.symm, ?_⟩
        simp only [row, ha, if_true, hrow, starRow]
      | cons c t iht =>
        obtain ⟨here, hm, hrow⟩ := ih (c :: t)
        obtain ⟨below, hb, hbelow⟩ := iht
        refine ⟨here || (decide (c ≠ '\n') && below), ?_, ?_⟩
        · rw [Bool.or_eq_true, Bool.and_eq_true, decide_eq_true_iff, hm, hb,
            matches_star_cons_iff]
        · have hstar : starRow t (row t p) = row t ('*' :: p) := by simp only [row, ha, if_true]
          have hhead : (row t ('*' :: p)).headD false = below := by rw [hbelow]; rfl
          simp only [row, ha, if_true, hrow, starRow]
          rw [hstar, hhead]
    · have hlit := Bool.eq_false_iff.2 ha
      rintro (_ | ⟨c, t⟩)
      · refine ⟨false, ⟨fun h => absurd h (by decide), fun h => ?_⟩, ?_⟩
        · exact absurd h (matches_literal_nil_iff hlit p)
        · simp only [row, if_neg ha, literalRow]
      · obtain ⟨here, -, hrow⟩ := ih (c :: t)
        obtain ⟨next, hn, hnext⟩ := ih t
        refine ⟨decide (a = c) && next, ?_, ?_⟩
        · rw [Bool.and_eq_true, decide_eq_true_iff, hn, matches_literal_cons_iff hlit]
        · have hhead : (row t p).headD false = next := by rw [hnext]; rfl
          simp only [row, if_neg ha, hrow, literalRow, hhead]

/-- The rows compute the matching relation. -/
theorem accepts_iff_matches {g : Glob} {text : List Char} :
    g.accepts text = true ↔ Matches g.chars text := by
  obtain ⟨here, hm, hrow⟩ := row_spec g.chars text
  rw [accepts, hrow, List.headD_cons, hm]

/-! ### Runs and stretches -/

/-- Literal runs in order, the first at the start of the text and the last at its end, with
stretches between them whose characters are all of some kind. -/
def SpannedBy (allowed : Char → Prop) : List (List Char) → List Char → Prop
  | [], t => t = []
  | [run], t => t = run
  | run :: next :: runs, t =>
    ∃ stretch rest, t = run ++ stretch ++ rest ∧ (∀ c ∈ stretch, allowed c) ∧
      SpannedBy allowed (next :: runs) rest

/-- Literal runs in order, the first at the start of the text and the last at its end, with
arbitrary stretches between them. -/
def Spanned : List (List Char) → List Char → Prop := SpannedBy fun _ => True

theorem spannedBy_modifyHead {allowed : Char → Prop} (a : Char) (w : List Char)
    (ws : List (List Char)) (t : List Char) :
    SpannedBy allowed ((a :: w) :: ws) t ↔ ∃ u, t = a :: u ∧ SpannedBy allowed (w :: ws) u := by
  cases ws with
  | nil => simp [SpannedBy]
  | cons v vs =>
    constructor
    · rintro ⟨stretch, rest, rfl, hs, h⟩
      exact ⟨w ++ stretch ++ rest, rfl, stretch, rest, rfl, hs, h⟩
    · rintro ⟨-, rfl, stretch, rest, rfl, hs, h⟩
      exact ⟨stretch, rest, rfl, hs, h⟩

theorem spannedBy_nil_cons {allowed : Char → Prop} (w : List Char) (ws : List (List Char))
    (t : List Char) :
    SpannedBy allowed ([] :: w :: ws) t ↔
      ∃ stretch rest, t = stretch ++ rest ∧ (∀ c ∈ stretch, allowed c) ∧
        SpannedBy allowed (w :: ws) rest := Iff.rfl

/-- A star matches a stretch without a line feed, and then the rest of the pattern matches. -/
theorem matches_star_iff {p t : List Char} :
    Matches ('*' :: p) t ↔
      ∃ stretch rest, t = stretch ++ rest ∧ (∀ c ∈ stretch, c ≠ '\n') ∧ Matches p rest := by
  induction t with
  | nil =>
    rw [matches_star_nil_iff]
    constructor
    · exact fun h => ⟨[], [], rfl, List.forall_mem_nil _, h⟩
    · rintro ⟨stretch, rest, happ, -, h⟩
      obtain ⟨-, rfl⟩ := List.append_eq_nil_iff.1 happ.symm
      exact h
  | cons c t ih =>
    rw [matches_star_cons_iff, ih]
    constructor
    · rintro (h | ⟨hc, stretch, rest, rfl, hs, h⟩)
      · exact ⟨[], c :: t, rfl, List.forall_mem_nil _, h⟩
      · exact ⟨c :: stretch, rest, rfl, List.forall_mem_cons.2 ⟨hc, hs⟩, h⟩
    · rintro ⟨_ | ⟨a, stretch⟩, rest, happ, hs, h⟩
      · exact Or.inl (by rw [happ]; exact h)
      · obtain ⟨rfl, rfl⟩ := List.cons.inj happ
        exact Or.inr ⟨hs _ List.mem_cons_self, stretch, rest, rfl,
          fun b hb => hs b (List.mem_cons_of_mem _ hb), h⟩

/-- **The meaning of a pattern.** A pattern matches the texts that its literal runs span with
stretches without a line feed. -/
theorem matches_iff_spannedBy {p t : List Char} :
    Matches p t ↔ SpannedBy (· ≠ '\n') (Text.splitWhere isStar p) t := by
  induction p generalizing t with
  | nil => rw [matches_nil_iff]; rfl
  | cons a p ih =>
    obtain ⟨w, ws, hw⟩ := Text.exists_splitWhere_eq_cons isStar p
    by_cases ha : isStar a = true
    · obtain rfl := isStar_iff.1 ha
      rw [Text.splitWhere_cons_of_pos ha, hw, spannedBy_nil_cons, matches_star_iff]
      simp only [ih, hw]
    · have hlit := Bool.eq_false_iff.2 ha
      rw [Text.splitWhere_cons_of_neg hlit, hw, List.modifyHead_cons, spannedBy_modifyHead, ← hw]
      simp only [← ih]
      constructor
      · intro h
        cases h with
        | literal _ h => exact ⟨_, rfl, h⟩
        | starEnd => exact absurd hlit (by decide)
        | starStep => exact absurd hlit (by decide)
      · rintro ⟨u, rfl, h⟩
        exact .literal hlit h

theorem SpannedBy.mono {allowed allowed' : Char → Prop} : (runs : List (List Char)) →
    {t : List Char} → (∀ c ∈ t, allowed c → allowed' c) → SpannedBy allowed runs t →
    SpannedBy allowed' runs t
  | [], _, _, h => h
  | [_], _, _, h => h
  | run :: next :: runs, t, himp, ⟨stretch, rest, ht, hs, h⟩ =>
    ⟨stretch, rest, ht, fun c hc => himp c (by simp [ht, hc]) (hs c hc),
      SpannedBy.mono (next :: runs) (fun c hc => himp c (by simp [ht, hc])) h⟩

/-- A text without a line feed is matched when the runs span it with any stretches. -/
theorem accepts_iff_spanned {g : Glob} {text : List Char} (htext : '\n' ∉ text) :
    g.accepts text = true ↔ Spanned (Text.splitWhere isStar g.chars) text := by
  rw [accepts_iff_matches, matches_iff_spannedBy]
  exact ⟨SpannedBy.mono _ fun _ _ _ => trivial,
    SpannedBy.mono _ fun c hc _ => ne_of_mem_of_not_mem hc htext⟩

end Glob

end FullText
