import FullText.Clause.Parser
import FullText.Proofs.GlobLanguage
import FullText.Proofs.Words
import Mathlib.Data.List.Forall2
import Mathlib.Data.List.TakeWhile

/-!
# The grammar of queries

The notation of a word of a query, given as a grammar that does not mention the reader: a field
name with a colon, which may be missing, a term, and at most one modifier of each kind. The reader
accepts exactly the words of the grammar and gives each the clause that the grammar assigns to it;
every other word is refused together with the whole word. A query is read word by word, and the
first word outside the grammar decides about the error.

## Main definitions

* `Clause.SpellsDistance`, `Clause.SpellsBoost` : the values of the two modifiers.
* `Clause.SpellsModifiers` : at most one modifier of each kind, in either order.
* `Clause.Spells` : the words of the grammar with their clauses.

## Main results

* `Clause.splitField_append`, `Clause.splitModifiers_append` : the two splits undo concatenation.
* `Clause.exists_term_of_read` : what is read before the clause is checked.
* `Clause.parse_eq_ok_iff` : the reader accepts exactly the grammar.
* `Clause.parse_grammar` : words and queries, with all errors.
-/

namespace FullText.Clause

/-! ### The grammar -/

/-- The value of an edit distance: digits, at least one, for a number of 32 bits. -/
structure SpellsDistance (value : List Char) (d : UInt32) : Prop where
  /-- There is a digit. -/
  ne_nil : value ≠ []
  /-- There are only digits. -/
  isDigit : ∀ c ∈ value, c.isDigit = true
  /-- The digits denote the distance, which has 32 bits. -/
  digitsValue : Numeral.digitsValue value = d.toNat

/-- The number that digits with a point among them denote. The digits after the point give the
place of the last one. -/
def pointedValue (value : List Char) : Binary64 :=
  Numeral.toBinary64 ⟨false, value.filter Char.isDigit,
    -((value.dropWhile fun c => decide (c ≠ '.')).length - 1 : Nat)⟩

/-- The value of a boost: digits, at least one, and at most one point among them, for a finite
number greater than zero. -/
structure SpellsBoost (value : List Char) (boost : Binary64) : Prop where
  /-- There are only digits and points. -/
  isDigit_or : ∀ c ∈ value, c.isDigit = true ∨ c = '.'
  /-- There is at most one point. -/
  count_point : value.count '.' ≤ 1
  /-- There is a digit. -/
  exists_digit : ∃ c ∈ value, c.isDigit = true
  /-- The boost is the number that is written. -/
  eq_pointedValue : boost = pointedValue value
  /-- The boost is finite and greater than zero. -/
  isPositiveFinite : boost.isPositiveFinite = true

/-- The modifiers of a word: each kind at most once, in either order. -/
inductive SpellsModifiers : List Char → Option UInt32 → Option Binary64 → Prop
  /-- There is no modifier. -/
  | none : SpellsModifiers [] none none
  /-- An edit distance alone. -/
  | distance {v d} (hd : SpellsDistance v d) : SpellsModifiers ('~' :: v) (some d) none
  /-- A boost alone. -/
  | boost {w b} (hb : SpellsBoost w b) : SpellsModifiers ('^' :: w) none (some b)
  /-- An edit distance before a boost. -/
  | distanceBoost {v d w b} (hd : SpellsDistance v d) (hb : SpellsBoost w b) :
      SpellsModifiers ('~' :: v ++ '^' :: w) (some d) (some b)
  /-- A boost before an edit distance. -/
  | boostDistance {v d w b} (hd : SpellsDistance v d) (hb : SpellsBoost w b) :
      SpellsModifiers ('^' :: w ++ '~' :: v) (some d) (some b)

/-- The start of a word: nothing, or the non-empty name of a configured field and a colon. -/
inductive SpellsField (config : Config) : List Char → Option String → Prop
  /-- There is no field name. -/
  | none : SpellsField config [] none
  /-- A field name and a colon. The name itself has no colon. -/
  | name {name : String} (hne : name ≠ "") (hcolon : ':' ∉ name.toList)
      (hfield : (config.field? name).isSome = true) :
      SpellsField config (name.toList ++ [':']) (some name)

/-- The term of a word: it is not empty, has no colon and starts no modifier, and has other
characters than stars. -/
structure IsTerm (term : List Char) : Prop where
  /-- There is a term. -/
  ne_nil : term ≠ []
  /-- There is no sign of the notation in it. -/
  not_mem : ':' ∉ term ∧ '~' ∉ term ∧ '^' ∉ term
  /-- It is not made of stars only. -/
  exists_ne_star : ∃ c ∈ term, c ≠ '*'

/-- The words of the grammar: a field part, a term and modifiers. The clause asks for the term in
the named field, with the given distance and boost; a term with a star has no distance. -/
def Spells (config : Config) (word : List Char) (c : Clause) : Prop :=
  ∃ start term modifiers boost,
    word = start ++ term ++ modifiers ∧
    SpellsField config start c.field ∧ IsTerm term ∧ SpellsModifiers modifiers c.distance boost ∧
    (c.distance ≠ none → '*' ∉ term) ∧
    c.term = String.ofList term ∧ c.stars = .classify term ∧
    c.boost = boost.getD .one ∧ c.presence = .optional

/-! ### The two splits -/

theorem splitField_of_notMem {word : List Char} (h : ':' ∉ word) :
    splitField word = (none, word) := by
  induction word with
  | nil => rfl
  | cons c rest ih =>
    obtain ⟨hc, hrest⟩ := not_or.1 (mt List.mem_cons.2 h)
    simp only [splitField, if_neg (Ne.symm hc), ih hrest]

theorem splitField_append {name : List Char} (h : ':' ∉ name) (rest : List Char) :
    splitField (name ++ ':' :: rest) = (some name, rest) := by
  induction name with
  | nil => rfl
  | cons c name ih =>
    obtain ⟨hc, hname⟩ := not_or.1 (mt List.mem_cons.2 h)
    simp only [List.cons_append, splitField, if_neg (Ne.symm hc), ih hname]

/-- The text of a list of modifiers. -/
def spellModifiers (modifiers : List (Char × List Char)) : List Char :=
  modifiers.flatMap fun m => m.1 :: m.2

/-- Whether no modifier starts in a text. -/
def IsPlain (text : List Char) : Prop := ∀ c ∈ text, isModifier c = false

theorem isModifier_iff {c : Char} : isModifier c = true ↔ c = '~' ∨ c = '^' := by
  simp [isModifier]

theorem isPlain_iff {text : List Char} : IsPlain text ↔ '~' ∉ text ∧ '^' ∉ text := by
  constructor
  · exact fun h => ⟨fun hm => absurd (h _ hm) (by decide), fun hm => absurd (h _ hm) (by decide)⟩
  · rintro ⟨htilde, hcaret⟩ c hc
    refine Bool.eq_false_iff.2 fun hm => ?_
    rcases isModifier_iff.1 hm with rfl | rfl
    · exact htilde hc
    · exact hcaret hc

theorem isPlain_of_digits {value : List Char}
    (h : ∀ c ∈ value, c.isDigit = true ∨ c = '.') : IsPlain value := by
  intro c hc
  refine Bool.eq_false_iff.2 fun hm => ?_
  rcases isModifier_iff.1 hm with rfl | rfl <;> exact absurd (h _ hc) (by decide)

theorem splitModifiers_append {text : List Char} (htext : IsPlain text)
    {modifiers : List (Char × List Char)}
    (hm : ∀ m ∈ modifiers, isModifier m.1 = true ∧ IsPlain m.2) :
    splitModifiers (text ++ spellModifiers modifiers) = (text, modifiers) := by
  induction text with
  | cons c text ih =>
    have ht : splitModifiers (text ++ spellModifiers modifiers) = (text, modifiers) :=
      ih fun a ha => htext a (List.mem_cons_of_mem c ha)
    simp [splitModifiers, ht, htext c List.mem_cons_self]
  | nil =>
    clear htext
    induction modifiers with
    | nil => rfl
    | cons m modifiers ih =>
      obtain ⟨hfirst, hvalue⟩ := hm m List.mem_cons_self
      have hrest := ih fun a ha => hm a (List.mem_cons_of_mem m ha)
      have hsplit : splitModifiers (m.2 ++ spellModifiers modifiers) = (m.2, modifiers) := by
        generalize m.2 = value at hvalue
        induction value with
        | nil => exact hrest
        | cons c value ih =>
          have ht := ih fun a ha => hvalue a (List.mem_cons_of_mem c ha)
          simp [splitModifiers, ht, hvalue c List.mem_cons_self]
      have hspell : spellModifiers (m :: modifiers) = m.1 :: (m.2 ++ spellModifiers modifiers) :=
        rfl
      rw [List.nil_append, hspell]
      simp only [splitModifiers, hsplit, hfirst, if_true]

/-- Splitting off the modifiers takes a text apart into pieces that make it up again. -/
theorem spell_splitModifiers (text : List Char) :
    text = (splitModifiers text).1 ++ spellModifiers (splitModifiers text).2 ∧
      IsPlain (splitModifiers text).1 ∧
      ∀ m ∈ (splitModifiers text).2, isModifier m.1 = true ∧ IsPlain m.2 := by
  induction text with
  | nil => exact ⟨rfl, List.forall_mem_nil _, List.forall_mem_nil _⟩
  | cons c rest ih =>
    obtain ⟨heq, hplain, hms⟩ := ih
    by_cases hc : isModifier c = true
    · simp only [splitModifiers, hc, if_true]
      refine ⟨?_, List.forall_mem_nil _, ?_⟩
      · exact congrArg (c :: ·) heq
      · rintro m hm
        rcases List.mem_cons.1 hm with rfl | hm
        · exact ⟨hc, hplain⟩
        · exact hms m hm
    · simp only [splitModifiers, hc]
      refine ⟨congrArg (c :: ·) heq, ?_, hms⟩
      rintro a ha
      rcases List.mem_cons.1 ha with rfl | ha
      · exact Bool.eq_false_iff.2 hc
      · exact hplain a ha

/-! ### The values of modifiers -/

theorem readDistance_eq_ok_iff {value : List Char} {d : UInt32} :
    readDistance value = .ok d ↔ SpellsDistance value d := by
  constructor
  · intro h
    simp only [readDistance] at h
    split at h
    · exact absurd h (by simp)
    · next hv =>
      simp only [Bool.or_eq_true, not_or, List.isEmpty_iff, Bool.not_eq_true', Bool.not_eq_false,
        List.all_eq_true] at hv
      split at h
      · next hlt =>
        obtain rfl := Except.ok.inj h
        exact ⟨hv.1, hv.2, (UInt32.toNat_ofNat_of_lt' hlt).symm⟩
      · exact absurd h (by simp)
  · rintro ⟨hne, hdigit, hvalue⟩
    have hguard : (value.isEmpty || !value.all Char.isDigit) = false := by
      simp only [Bool.or_eq_false_iff, List.isEmpty_eq_false_iff, Bool.not_eq_false',
        List.all_eq_true]
      exact ⟨hne, hdigit⟩
    have hlt : Numeral.digitsValue value < UInt32.size := hvalue ▸ d.toNat_lt
    rw [readDistance, hguard, if_neg Bool.false_ne_true, if_pos hlt, hvalue, UInt32.ofNat_toNat]

/-- Digits with at most one point among them fall into a whole part and, if there is a point, a
fraction. -/
theorem exists_whole_fraction {value : List Char}
    (h : ∀ c ∈ value, c.isDigit = true ∨ c = '.') (hcount : value.count '.' ≤ 1) :
    (∀ c ∈ value, c.isDigit = true) ∨
      ∃ whole fraction, value = whole ++ '.' :: fraction ∧
        (∀ c ∈ whole, c.isDigit = true) ∧ ∀ c ∈ fraction, c.isDigit = true := by
  by_cases hp : '.' ∈ value
  · obtain ⟨whole, fraction, rfl, hwhole⟩ := List.eq_append_cons_of_mem hp
    have hfraction : '.' ∉ fraction := by
      refine List.count_eq_zero.1 ?_
      simp only [List.count_append, List.count_cons_self] at hcount
      omega
    refine Or.inr ⟨whole, fraction, rfl, fun c hc => ?_, fun c hc => ?_⟩
    · exact (h c (by simp [hc])).resolve_right (ne_of_mem_of_not_mem hc hwhole)
    · exact (h c (by simp [hc])).resolve_right (ne_of_mem_of_not_mem hc hfraction)
  · exact Or.inl fun c hc => (h c hc).resolve_right (ne_of_mem_of_not_mem hc hp)

/-- The numeral of digits without a point. -/
theorem parseNumeral?_digits {value : List Char} (h : ∀ c ∈ value, c.isDigit = true)
    (hne : value ≠ []) :
    Binary64.parseNumeral? false value = some ⟨false, value, 0⟩ := by
  simp [Binary64.parseNumeral?, List.takeWhile_eq_self_iff.2 h, List.dropWhile_eq_nil_iff.2 h,
    Binary64.splitFraction, Binary64.parseExponent?, hne]

/-- The numeral of digits with a point among them. -/
theorem parseNumeral?_point {whole fraction : List Char}
    (hw : ∀ c ∈ whole, c.isDigit = true) (hf : ∀ c ∈ fraction, c.isDigit = true)
    (hne : whole ≠ [] ∨ fraction ≠ []) :
    Binary64.parseNumeral? false (whole ++ '.' :: fraction) =
      some ⟨false, whole ++ fraction, -fraction.length⟩ := by
  have hpoint : ('.' : Char).isDigit = false := by decide
  have htake : (whole ++ '.' :: fraction).takeWhile Char.isDigit = whole := by
    rw [List.takeWhile_append_of_pos hw, List.takeWhile_cons_of_neg (by simp [hpoint]),
      List.append_nil]
  have hdrop : (whole ++ '.' :: fraction).dropWhile Char.isDigit = '.' :: fraction := by
    rw [List.dropWhile_append_of_pos hw, List.dropWhile_cons_of_neg (by simp [hpoint])]
  simp only [Binary64.parseNumeral?, htake, hdrop, Binary64.splitFraction,
    List.takeWhile_eq_self_iff.2 hf, List.dropWhile_eq_nil_iff.2 hf, Binary64.parseExponent?]
  rw [if_neg (fun h => hne.elim (· h.1) (· h.2))]
  simp

theorem dropWhile_isDigit {value : List Char}
    (hchars : ∀ c ∈ value, c.isDigit = true ∨ c = '.') :
    value.dropWhile Char.isDigit = [] ∨
      ∃ rest, value.dropWhile Char.isDigit = '.' :: rest := by
  rcases hdrop : value.dropWhile Char.isDigit with _ | ⟨p, rest⟩
  · exact .inl rfl
  · have hmem : p ∈ value := (List.dropWhile_sublist _).mem (hdrop ▸ List.mem_cons_self)
    have hhead := List.head?_dropWhile_not Char.isDigit value
    rw [hdrop] at hhead
    obtain rfl : p = '.' := (hchars p hmem).resolve_left (by simpa using hhead)
    exact .inr ⟨rest, rfl⟩

/-- A text of digits and points that is read as a numeral is made of digits, or of digits on either
side of a point. -/
theorem exists_parts_of_parseNumeral? {value : List Char} {n : Numeral}
    (hchars : ∀ c ∈ value, c.isDigit = true ∨ c = '.')
    (h : Binary64.parseNumeral? false value = some n) :
    (value ≠ [] ∧ ∀ c ∈ value, c.isDigit = true) ∨
      ∃ whole fraction, value = whole ++ '.' :: fraction ∧ (∀ c ∈ whole, c.isDigit = true) ∧
        (∀ c ∈ fraction, c.isDigit = true) ∧ (whole ≠ [] ∨ fraction ≠ []) := by
  have happ := List.takeWhile_append_dropWhile (p := Char.isDigit) (l := value)
  have hdigits (l : List Char) (c : Char) (hc : c ∈ l.takeWhile Char.isDigit) :
      c.isDigit = true := List.mem_takeWhile_imp hc
  obtain hdrop | ⟨rest, hdrop⟩ := dropWhile_isDigit hchars
  · rw [hdrop, List.append_nil] at happ
    refine .inl ⟨?_, ?_⟩
    · rintro rfl
      simp [Binary64.parseNumeral?, Binary64.splitFraction] at h
    · intro c hc
      rw [← happ] at hc
      exact hdigits value c hc
  · have hrest (c : Char) (hc : c ∈ rest) : c.isDigit = true ∨ c = '.' :=
      hchars c ((List.dropWhile_sublist _).mem (hdrop ▸ List.mem_cons_of_mem _ hc))
    obtain hlast | ⟨others, hlast⟩ := dropWhile_isDigit hrest
    · have hfraction := List.takeWhile_append_dropWhile (p := Char.isDigit) (l := rest)
      rw [hlast, List.append_nil] at hfraction
      refine .inr ⟨value.takeWhile Char.isDigit, rest, ?_, hdigits value, ?_, ?_⟩
      · rw [← hdrop, happ]
      · intro c hc
        rw [← hfraction] at hc
        exact hdigits rest c hc
      · by_contra hempty
        rw [not_or, not_not, not_not] at hempty
        obtain ⟨hwhole, rfl⟩ := hempty
        simp [Binary64.parseNumeral?, hdrop, hwhole, Binary64.splitFraction] at h
    · -- What follows the fraction would be an exponent, and no point starts one.
      simp [Binary64.parseNumeral?, hdrop, Binary64.splitFraction, hlast,
        Binary64.parseExponent?] at h

/-- A text of digits and points that is read as a numeral has a digit, and at most one point. -/
theorem exists_digit_of_parseNumeral? {value : List Char} {n : Numeral}
    (hchars : ∀ c ∈ value, c.isDigit = true ∨ c = '.')
    (h : Binary64.parseNumeral? false value = some n) :
    value.count '.' ≤ 1 ∧ ∃ c ∈ value, c.isDigit = true := by
  have hnopoint {l : List Char} (hl : ∀ c ∈ l, c.isDigit = true) : l.count '.' = 0 :=
    List.count_eq_zero.2 fun hm => absurd (hl _ hm) (by decide)
  obtain ⟨hne, hdigits⟩ | ⟨whole, fraction, rfl, hwhole, hfraction, hne⟩ :=
    exists_parts_of_parseNumeral? hchars h
  · obtain ⟨c, hc⟩ := List.exists_mem_of_ne_nil value hne
    exact ⟨by rw [hnopoint hdigits]; omega, c, hc, hdigits c hc⟩
  · refine ⟨?_, ?_⟩
    · rw [List.count_append, List.count_cons_self, hnopoint hwhole, hnopoint hfraction]
    · rcases hne with hne | hne
      · obtain ⟨c, hc⟩ := List.exists_mem_of_ne_nil whole hne
        exact ⟨c, by simp [hc], hwhole c hc⟩
      · obtain ⟨c, hc⟩ := List.exists_mem_of_ne_nil fraction hne
        exact ⟨c, by simp [hc], hfraction c hc⟩

/-- Digits, at least one, with at most one point are read as the number that they denote. -/
theorem exists_parseNumeral? {value : List Char}
    (hchars : ∀ c ∈ value, c.isDigit = true ∨ c = '.') (hcount : value.count '.' ≤ 1)
    (hdigit : ∃ c ∈ value, c.isDigit = true) :
    ∃ n, Binary64.parseNumeral? false value = some n ∧ n.toBinary64 = pointedValue value := by
  obtain ⟨c, hc, hd⟩ := hdigit
  rcases exists_whole_fraction hchars hcount with hv | ⟨whole, fraction, rfl, hw, hf⟩
  · refine ⟨_, parseNumeral?_digits hv (List.ne_nil_of_mem hc), ?_⟩
    have hpoint : value.dropWhile (fun c => decide (c ≠ '.')) = [] :=
      List.dropWhile_eq_nil_iff.2 fun a ha =>
        decide_eq_true fun h : a = '.' => absurd (hv a ha) (h ▸ by decide)
    rw [pointedValue, List.filter_eq_self.2 hv, hpoint]
    rfl
  · have hne : whole ≠ [] ∨ fraction ≠ [] := by
      by_contra hnot
      obtain ⟨rfl, rfl⟩ : whole = [] ∧ fraction = [] := by simpa using hnot
      obtain rfl : c = '.' := by simpa using hc
      exact absurd hd (by decide)
    refine ⟨_, parseNumeral?_point hw hf hne, ?_⟩
    have hpoint : (whole ++ '.' :: fraction).dropWhile (fun c => decide (c ≠ '.')) =
        '.' :: fraction := by
      have hw' (a : Char) (ha : a ∈ whole) : decide (a ≠ '.') = true :=
        decide_eq_true fun h : a = '.' => absurd (hw a ha) (h ▸ by decide)
      rw [List.dropWhile_append_of_pos hw', List.dropWhile_cons_of_neg (by simp)]
    have hfilter : (whole ++ '.' :: fraction).filter Char.isDigit = whole ++ fraction := by
      rw [List.filter_append, List.filter_cons_of_neg (by decide), List.filter_eq_self.2 hw,
        List.filter_eq_self.2 hf]
    rw [pointedValue, hfilter, hpoint]
    simp

theorem readBoost_eq_ok_iff {value : List Char} {b : Binary64} :
    readBoost value = .ok b ↔
      (∀ c ∈ value, c.isDigit = true ∨ c = '.') ∧ value.count '.' ≤ 1 ∧
      (∃ c ∈ value, c.isDigit = true) ∧ b = pointedValue value ∧ Binary64.zero.less b = true := by
  have hall : (value.all fun c => c.isDigit || c = '.') = true ↔
      ∀ c ∈ value, c.isDigit = true ∨ c = '.' := by
    simp only [List.all_eq_true, Bool.or_eq_true, decide_eq_true_eq]
  constructor
  · intro h
    simp only [readBoost] at h
    split at h
    · next hchars =>
      have hchars := hall.1 hchars
      split at h
      · next n hnum =>
        obtain ⟨hcount, hdigit⟩ := exists_digit_of_parseNumeral? hchars hnum
        obtain ⟨n', hn', hvalue⟩ := exists_parseNumeral? hchars hcount hdigit
        obtain rfl := Option.some.inj (hnum.symm.trans hn')
        split at h
        · next hless =>
          obtain rfl := Except.ok.inj h
          exact ⟨hchars, hcount, hdigit, hvalue, hless⟩
        · exact absurd h (by simp)
      · exact absurd h (by simp)
    · exact absurd h (by simp)
  · rintro ⟨hchars, hcount, hdigit, rfl, hless⟩
    obtain ⟨n, hnum, hvalue⟩ := exists_parseNumeral? hchars hcount hdigit
    rw [readBoost, if_pos (hall.2 hchars), hnum]
    simp only [hvalue, hless, if_true]

/-- The reader of boosts leaves it to the check of the clause to refuse infinity. -/
theorem spellsBoost_iff {value : List Char} {b : Binary64} :
    SpellsBoost value b ↔ readBoost value = .ok b ∧ b.isPositiveFinite = true := by
  rw [readBoost_eq_ok_iff]
  constructor
  · rintro ⟨hchars, hcount, hdigit, hvalue, hpos⟩
    exact ⟨⟨hchars, hcount, hdigit, hvalue, (Bool.and_eq_true_iff.1 hpos).2⟩, hpos⟩
  · rintro ⟨⟨hchars, hcount, hdigit, hvalue, -⟩, hpos⟩
    exact ⟨hchars, hcount, hdigit, hvalue, hpos⟩

/-! ### Lists of modifiers -/

/-- With both modifiers read there is room for no other. -/
theorem readModifiers_some_some {d : UInt32} {b : Binary64} {ms : List (Char × List Char)}
    {r : Option UInt32 × Option Binary64} (h : readModifiers (some d) (some b) ms = .ok r) :
    ms = [] ∧ r = (some d, some b) := by
  cases ms with
  | nil => exact ⟨rfl, (Except.ok.inj h).symm⟩
  | cons m ms =>
    simp only [readModifiers, Option.isSome_some, if_true] at h
    split at h <;> exact absurd h (by simp)

/-- After an edit distance there may be a boost. -/
theorem readModifiers_some_none {d : UInt32} {ms : List (Char × List Char)}
    (hm : ∀ m ∈ ms, isModifier m.1 = true) {r : Option UInt32 × Option Binary64}
    (h : readModifiers (some d) none ms = .ok r) :
    (ms = [] ∧ r = (some d, none)) ∨
      ∃ w b, ms = [('^', w)] ∧ readBoost w = .ok b ∧ r = (some d, some b) := by
  cases ms with
  | nil => exact Or.inl ⟨rfl, (Except.ok.inj h).symm⟩
  | cons m ms =>
    obtain ⟨c, w⟩ := m
    rcases isModifier_iff.1 (hm _ List.mem_cons_self) with rfl | rfl
    · simp [readModifiers] at h
    · cases hb : readBoost w with
      | error e => simp [readModifiers, hb] at h
      | ok b =>
        simp only [readModifiers, hb] at h
        obtain ⟨rfl, rfl⟩ := readModifiers_some_some (by simpa using h)
        exact Or.inr ⟨w, b, rfl, hb, rfl⟩

/-- After a boost there may be an edit distance. -/
theorem readModifiers_none_some {b : Binary64} {ms : List (Char × List Char)}
    (hm : ∀ m ∈ ms, isModifier m.1 = true) {r : Option UInt32 × Option Binary64}
    (h : readModifiers none (some b) ms = .ok r) :
    (ms = [] ∧ r = (none, some b)) ∨
      ∃ v d, ms = [('~', v)] ∧ readDistance v = .ok d ∧ r = (some d, some b) := by
  cases ms with
  | nil => exact Or.inl ⟨rfl, (Except.ok.inj h).symm⟩
  | cons m ms =>
    obtain ⟨c, v⟩ := m
    rcases isModifier_iff.1 (hm _ List.mem_cons_self) with rfl | rfl
    · cases hd : readDistance v with
      | error e => simp [readModifiers, hd] at h
      | ok d =>
        simp only [readModifiers, hd] at h
        obtain ⟨rfl, rfl⟩ := readModifiers_some_some (by simpa using h)
        exact Or.inr ⟨v, d, rfl, hd, rfl⟩
    · simp [readModifiers] at h

/-- The modifiers that are read, with a boost that passes the check, are those of the grammar. -/
theorem spellsModifiers_of_read {ms : List (Char × List Char)}
    (hm : ∀ m ∈ ms, isModifier m.1 = true) {distance : Option UInt32} {boost : Option Binary64}
    (h : readModifiers none none ms = .ok (distance, boost))
    (hpos : (boost.getD .one).isPositiveFinite = true) :
    SpellsModifiers (spellModifiers ms) distance boost := by
  cases ms with
  | nil =>
    obtain ⟨rfl, rfl⟩ := Prod.mk.inj (Except.ok.inj h)
    exact .none
  | cons m ms =>
    obtain ⟨c, v⟩ := m
    have hms (m) (hmem : m ∈ ms) := hm m (List.mem_cons_of_mem _ hmem)
    rcases isModifier_iff.1 (hm _ List.mem_cons_self) with rfl | rfl
    · cases hd : readDistance v with
      | error e => simp [readModifiers, hd] at h
      | ok d =>
        have hspell := readDistance_eq_ok_iff.1 hd
        simp only [readModifiers, hd] at h
        rcases readModifiers_some_none hms (by simpa using h) with
          ⟨rfl, hr⟩ | ⟨w, b, rfl, hb, hr⟩
        · obtain ⟨rfl, rfl⟩ := Prod.mk.inj hr
          simpa [spellModifiers] using SpellsModifiers.distance hspell
        · obtain ⟨rfl, rfl⟩ := Prod.mk.inj hr
          simpa [spellModifiers] using
            SpellsModifiers.distanceBoost hspell (spellsBoost_iff.2 ⟨hb, hpos⟩)
    · cases hb : readBoost v with
      | error e => simp [readModifiers, hb] at h
      | ok b =>
        simp only [readModifiers, hb] at h
        rcases readModifiers_none_some hms (by simpa using h) with
          ⟨rfl, hr⟩ | ⟨v', d, rfl, hd, hr⟩
        · obtain ⟨rfl, rfl⟩ := Prod.mk.inj hr
          simpa [spellModifiers] using SpellsModifiers.boost (spellsBoost_iff.2 ⟨hb, hpos⟩)
        · obtain ⟨rfl, rfl⟩ := Prod.mk.inj hr
          simpa [spellModifiers] using
            SpellsModifiers.boostDistance (readDistance_eq_ok_iff.1 hd)
              (spellsBoost_iff.2 ⟨hb, hpos⟩)

/-- The modifiers of the grammar are read, and a boost among them passes the check. -/
theorem exists_read_of_spellsModifiers {text : List Char} {distance : Option UInt32}
    {boost : Option Binary64} (h : SpellsModifiers text distance boost) :
    (boost.getD .one).isPositiveFinite = true ∧
    ∃ ms, text = spellModifiers ms ∧ (∀ m ∈ ms, isModifier m.1 = true ∧ IsPlain m.2) ∧
      readModifiers none none ms = .ok (distance, boost) := by
  have hplain {v d} (hd : SpellsDistance v d) : IsPlain v :=
    isPlain_of_digits fun c hc => Or.inl (hd.isDigit c hc)
  have hplain' {w b} (hb : SpellsBoost w b) : IsPlain w := isPlain_of_digits hb.isDigit_or
  cases h with
  | none => exact ⟨by decide, [], rfl, List.forall_mem_nil _, rfl⟩
  | @distance v d hd =>
    refine ⟨by decide, [('~', v)], by simp [spellModifiers], ?_, ?_⟩
    · simpa [isModifier] using hplain hd
    · simp [readModifiers, readDistance_eq_ok_iff.2 hd]
  | @boost w b hb =>
    refine ⟨hb.isPositiveFinite, [('^', w)], by simp [spellModifiers], ?_, ?_⟩
    · simpa [isModifier] using hplain' hb
    · simp [readModifiers, (spellsBoost_iff.1 hb).1]
  | @distanceBoost v d w b hd hb =>
    refine ⟨hb.isPositiveFinite, [('~', v), ('^', w)], by simp [spellModifiers], ?_, ?_⟩
    · simpa [isModifier] using And.intro (hplain hd) (hplain' hb)
    · simp [readModifiers, readDistance_eq_ok_iff.2 hd, (spellsBoost_iff.1 hb).1]
  | @boostDistance v d w b hd hb =>
    refine ⟨hb.isPositiveFinite, [('^', w), ('~', v)], by simp [spellModifiers], ?_, ?_⟩
    · simpa [isModifier] using And.intro (hplain' hb) (hplain hd)
    · simp [readModifiers, readDistance_eq_ok_iff.2 hd, (spellsBoost_iff.1 hb).1]

theorem SpellsModifiers.colon_notMem {text : List Char} {distance : Option UInt32}
    {boost : Option Binary64} (h : SpellsModifiers text distance boost) : ':' ∉ text := by
  have hv {v d} (hd : SpellsDistance v d) : ':' ∉ v := fun hm =>
    absurd (hd.isDigit _ hm) (by decide)
  have hw {w b} (hb : SpellsBoost w b) : ':' ∉ w := fun hm =>
    absurd (hb.isDigit_or _ hm) (by decide)
  cases h with
  | none => simp
  | distance hd => simp [hv hd]
  | boost hb => simp [hw hb]
  | distanceBoost hd hb => simp [hv hd, hw hb]
  | boostDistance hd hb => simp [hv hd, hw hb]

/-! ### The check of a clause -/

/-- A clause whose term tells where its stars are is a pattern iff it has one. -/
theorem isPattern_iff {c : Clause} (h : c.stars = .classify c.term.toList) :
    c.isPattern = true ↔ '*' ∈ c.term.toList := by
  rw [isPattern, decide_eq_true_iff, h, ne_eq, StarPlacement.classify_eq_none_iff, not_not]

/-- What it means for a clause to fit a configuration. -/
theorem fault?_eq_none_iff {config : Config} {c : Clause} :
    c.fault? config = none ↔
      (∃ a ∈ c.term.toList, a ≠ '*') ∧
      (∀ name, c.field = some name → (config.field? name).isSome = true) ∧
      c.boost.isPositiveFinite = true ∧ (c.distance ≠ none → c.isPattern = false) := by
  have hterm : c.term.toList.all isStar = true ↔ ¬ ∃ a ∈ c.term.toList, a ≠ '*' := by
    simp [isStar]
  have hfield : (c.field.bind fun name =>
      if (config.field? name).isNone then some name else none) = none ↔
        ∀ name, c.field = some name → (config.field? name).isSome = true := by
    cases c.field <;> simp [Option.isSome_iff_ne_none]
  simp only [fault?]
  split
  · next hall => exact ⟨fun h => absurd h (by simp), fun h => absurd h.1 (hterm.1 hall)⟩
  · next hall =>
    have hterm := not_not.1 (mt hterm.2 hall)
    split
    · next hbind =>
      refine ⟨fun h => absurd h (by simp), fun h => ?_⟩
      exact absurd ((hfield.2 h.2.1).symm.trans hbind) (by simp)
    · next hbind =>
      have hfield := hfield.1 hbind
      by_cases hpos : c.boost.isPositiveFinite = true
      · rw [hpos]
        cases hd : c.distance <;> cases hp : c.isPattern <;> simp_all
      · rw [Bool.eq_false_iff.2 hpos]
        simp

/-! ### Words -/

/-- The start of a word is split off at its colon. -/
theorem SpellsField.splitField_append {config : Config} {start : List Char}
    {field : Option String} (h : SpellsField config start field) {rest : List Char}
    (hrest : ':' ∉ rest) :
    splitField (start ++ rest) = (field.map String.toList, rest) ∧
      field.map String.toList ≠ some [] := by
  cases h with
  | none => exact ⟨splitField_of_notMem hrest, nofun⟩
  | name hne hcolon hfield =>
    refine ⟨?_, by simpa using hne⟩
    rw [List.append_assoc]
    exact Clause.splitField_append hcolon rest

/-- What is split off starts a word if it is not empty and names a field. -/
theorem exists_spellsField {config : Config} (word : List Char)
    (hne : (splitField word).1 ≠ some [])
    (hknown : ∀ name, (splitField word).1.map String.ofList = some name →
      (config.field? name).isSome = true) :
    ∃ start, word = start ++ (splitField word).2 ∧
      SpellsField config start ((splitField word).1.map String.ofList) := by
  by_cases h : ':' ∈ word
  · obtain ⟨name, rest, rfl, hname⟩ := List.eq_append_cons_of_mem h
    rw [splitField_append hname] at hne hknown ⊢
    have hnonempty : String.ofList name ≠ "" := by
      rw [ne_eq, String.ofList_eq_empty_iff]
      rintro rfl
      exact hne rfl
    have hstart := SpellsField.name hnonempty (by simpa using hname) (hknown _ rfl)
    rw [String.toList_ofList] at hstart
    exact ⟨name ++ [':'], (List.append_cons name ':' rest), hstart⟩
  · rw [splitField_of_notMem h]
    exact ⟨[], rfl, .none⟩

/-- What the reader makes of the text after the field name. -/
theorem exists_term_of_read {word : List Char} {c : Clause} (h : read word = .ok c) :
    (splitField word).1 ≠ some [] ∧ c.field = (splitField word).1.map String.ofList ∧
      c.presence = .optional ∧
      ∃ term ms boost, (splitField word).2 = term ++ spellModifiers ms ∧ IsPlain term ∧
        (∀ m ∈ ms, isModifier m.1 = true) ∧ ':' ∉ term ∧ term ≠ [] ∧
        readModifiers none none ms = .ok (c.distance, boost) ∧
        c.term = String.ofList term ∧ c.stars = .classify term ∧ c.boost = boost.getD .one := by
  obtain ⟨hspell, hplain, hms⟩ := spell_splitModifiers (splitField word).2
  generalize hfield : splitField word = split at hspell hplain hms ⊢
  obtain ⟨field, rest⟩ := split
  generalize hmods : splitModifiers rest = split at hspell hplain hms
  obtain ⟨term, ms⟩ := split
  simp only [read, hfield, hmods] at h
  split at h
  · exact absurd h (by simp)
  · next hne =>
    split at h
    · exact absurd h (by simp)
    · next hcolon =>
      split at h
      · exact absurd h (by simp)
      · next hempty =>
        split at h
        · exact absurd h (by simp)
        · next distance boost hread =>
          obtain rfl := Except.ok.inj h
          exact ⟨hne, rfl, rfl, term, ms, boost, hspell, hplain, fun m hm => (hms m hm).1, hcolon,
            by simpa using hempty, hread, rfl, by simp [ofTerm], rfl⟩

/-- **The reader accepts only the grammar.** -/
theorem spells_of_parse {config : Config} {word : String} {c : Clause}
    (h : parse config word = .ok c) : Spells config word.toList c := by
  simp only [parse] at h
  split at h
  · exact absurd h (by simp)
  · next clause hread =>
    split at h
    · exact absurd h (by simp)
    · next hfault =>
      obtain rfl := Except.ok.inj h
      obtain ⟨hne, hfield, hpresence, term, ms, boost, hrest, hplain, hms, hcolon, hterm,
        hread, htext, hstars, hboost⟩ := exists_term_of_read hread
      obtain ⟨hstar, hknown, hpos, hdistance⟩ := fault?_eq_none_iff.1 hfault
      have hlist : clause.term.toList = term := by rw [htext, String.toList_ofList]
      rw [hlist] at hstar
      have hpattern := isPattern_iff (hlist.symm ▸ hstars)
      have hbody : IsTerm term := ⟨hterm, ⟨hcolon, isPlain_iff.1 hplain⟩, hstar⟩
      have hmods := spellsModifiers_of_read hms hread (hboost ▸ hpos)
      have hnostar (hd : clause.distance ≠ none) : '*' ∉ term := fun hmem =>
        absurd (hpattern.2 (hlist.symm ▸ hmem)) (by simp [hdistance hd])
      rw [hfield] at hknown
      obtain ⟨start, hword, hstart⟩ := exists_spellsField word.toList hne hknown
      rw [← hfield] at hstart
      refine ⟨start, term, spellModifiers ms, boost, ?_, hstart, hbody, hmods, hnostar, htext,
        hstars, hboost, hpresence⟩
      rw [List.append_assoc, ← hrest]
      exact hword

/-- **The reader accepts all of the grammar.** -/
theorem parse_of_spells {config : Config} {word : String} {c : Clause}
    (h : Spells config word.toList c) : parse config word = .ok c := by
  obtain ⟨start, term, modifiers, boost, hword, hstart, hbody, hmods, hnostar, htext, hstars,
    hboost, hpresence⟩ := h
  have hmodcolon := hmods.colon_notMem
  obtain ⟨hpos, ms, rfl, hms, hread⟩ := exists_read_of_spellsModifiers hmods
  obtain ⟨hne, ⟨hcolon, hmod⟩, hstar⟩ := hbody
  have hlist : c.term.toList = term := by rw [htext, String.toList_ofList]
  have hsplit := splitModifiers_append (isPlain_iff.2 hmod) hms
  have hfault : c.fault? config = none := by
    refine fault?_eq_none_iff.2 ⟨hlist.symm ▸ hstar, ?_, hboost ▸ hpos, fun hd => ?_⟩
    · intro name hname
      rw [hname] at hstart
      cases hstart with
      | name _ _ hfield => exact hfield
    · refine Bool.eq_false_iff.2 fun hp => hnostar hd ?_
      exact hlist ▸ (isPattern_iff (hlist.symm ▸ hstars)).1 hp
  have hclause : read word.toList = .ok c := by
    have hc : c = { ofTerm (String.ofList term) with
        field := c.field, distance := c.distance, boost := boost.getD .one } := by
      obtain ⟨text, field, stars, distance, boost', presence⟩ := c
      simp only [ofTerm, String.toList_ofList] at htext hstars hboost hpresence ⊢
      rw [htext, hstars, hboost, hpresence]
    obtain ⟨hsplitField, hnamed⟩ :=
      hstart.splitField_append (show ':' ∉ term ++ spellModifiers ms by simp [hcolon, hmodcolon])
    rw [← List.append_assoc, ← hword] at hsplitField
    have hfield : (c.field.map String.toList).map String.ofList = c.field := by
      simp [Option.map_map, Function.comp_def]
    rw [hc]
    simp only [read, hsplitField, hsplit, hread, hfield]
    simp [hcolon, hne, hnamed]
  simp only [parse, hclause, hfault]

/-- **The reader accepts exactly the grammar.** -/
theorem parse_eq_ok_iff {config : Config} {word : String} {c : Clause} :
    parse config word = .ok c ↔ Spells config word.toList c :=
  ⟨spells_of_parse, parse_of_spells⟩

/-- Whatever is wrong with a word, the error names the whole word. -/
theorem exists_fault_of_parse_error {config : Config} {word : String} {e : Error}
    (h : parse config word = .error e) : ∃ fault, e = .query fault word := by
  simp only [parse] at h
  split at h
  · next fault _ => exact ⟨fault, (Except.error.inj h).symm⟩
  · split at h
    · next fault _ => exact ⟨fault, (Except.error.inj h).symm⟩
    · exact absurd h (by simp)

/-! ### Queries -/

theorem parseWords_cons (config : Config) (word : String) (rest : List String) :
    parseWords config (word :: rest) =
      (parse config word).bind fun c => (parseWords config rest).map (c :: ·) := rfl

theorem parseWords_eq_ok_iff {config : Config} {words : List String} {cs : List Clause} :
    parseWords config words = .ok cs ↔
      List.Forall₂ (fun word c => parse config word = .ok c) words cs := by
  induction words generalizing cs with
  | nil =>
    rw [List.forall₂_nil_left_iff]
    exact ⟨fun h => (Except.ok.inj h).symm, fun h => h ▸ rfl⟩
  | cons word rest ih =>
    rw [List.forall₂_cons_left_iff, parseWords_cons]
    simp only [← ih]
    constructor
    · intro h
      cases hc : parse config word with
      | error e => simp [hc, Except.bind] at h
      | ok c =>
        cases hcs : parseWords config rest with
        | error e => simp [hc, hcs, Except.bind, Except.map] at h
        | ok cs' =>
          simp only [hc, hcs, Except.bind, Except.map, Except.ok.injEq] at h
          exact ⟨c, cs', rfl, rfl, h.symm⟩
    · rintro ⟨c, cs', hc, hcs, rfl⟩
      rw [hc, hcs]
      rfl

/-- Words are read up to the first that is refused, and its error is reported. -/
theorem exists_word_of_parseWords_error {config : Config} {words : List String} {e : Error}
    (h : parseWords config words = .error e) :
    ∃ before word after, words = before ++ word :: after ∧
      (∀ w ∈ before, ∃ c, parse config w = .ok c) ∧ parse config word = .error e := by
  induction words with
  | nil => exact absurd h (by simp [parseWords])
  | cons word rest ih =>
    rw [parseWords_cons] at h
    cases hc : parse config word with
    | error e' =>
      obtain rfl : e' = e := by simpa [hc, Except.bind] using h
      exact ⟨[], word, rest, rfl, List.forall_mem_nil _, hc⟩
    | ok c =>
      cases hcs : parseWords config rest with
      | ok cs => simp [hc, hcs, Except.bind, Except.map] at h
      | error e' =>
        obtain rfl : e' = e := by simpa [hc, hcs, Except.bind, Except.map] using h
        obtain ⟨before, w, after, rfl, hbefore, hw⟩ := ih hcs
        exact ⟨word :: before, w, after, rfl,
          List.forall_mem_cons.2 ⟨⟨c, hc⟩, hbefore⟩, hw⟩

/-- The reader refuses the words outside the grammar, and names them. -/
theorem exists_fault_iff {config : Config} {word : String} :
    (∃ fault, parse config word = .error (.query fault word)) ↔
      ¬ ∃ c, Spells config word.toList c := by
  simp only [← parse_eq_ok_iff]
  constructor
  · rintro ⟨fault, hf⟩ ⟨c, hc⟩
    exact absurd (hf.symm.trans hc) (by simp)
  · intro h
    cases hp : parse config word with
    | ok c => exact absurd ⟨c, hp⟩ h
    | error e =>
      obtain ⟨fault, rfl⟩ := exists_fault_of_parse_error hp
      exact ⟨fault, rfl⟩

/-- **The notation of queries.** The reader of words accepts exactly the grammar, with the clauses
that the grammar assigns, and reports the whole word otherwise. A query stands for one clause for
each of its words, in order, if all of them are in the grammar; otherwise the error is that of the
first word outside. -/
theorem parse_grammar (config : Config) :
    (∀ word c, parse config word = .ok c ↔ Spells config word.toList c) ∧
    (∀ word, (¬ ∃ c, Spells config word.toList c) ↔
      ∃ fault, parse config word = .error (.query fault word)) ∧
    (∀ query, Text.IsWordList query.toList ((Text.words query).map String.toList)) ∧
    (∀ query cs, parseQuery config query = .ok cs ↔
      List.Forall₂ (fun word c => Spells config word.toList c) (Text.words query) cs) ∧
    ∀ query, (¬ ∃ cs, parseQuery config query = .ok cs) →
      ∃ before word after fault, Text.words query = before ++ word :: after ∧
        (∀ w ∈ before, ∃ c, Spells config w.toList c) ∧
        (¬ ∃ c, Spells config word.toList c) ∧
        parse config word = .error (.query fault word) ∧
        parseQuery config query = .error (.query fault word) := by
  refine ⟨fun word c => parse_eq_ok_iff, fun word => exists_fault_iff.symm,
    Text.isWordList_words, fun query cs => ?_, fun query hquery => ?_⟩
  · simp only [← parse_eq_ok_iff]
    exact parseWords_eq_ok_iff
  · cases hq : parseQuery config query with
    | ok cs => exact absurd ⟨cs, hq⟩ hquery
    | error e =>
      obtain ⟨before, word, after, hwords, hbefore, hword⟩ := exists_word_of_parseWords_error hq
      obtain ⟨fault, rfl⟩ := exists_fault_of_parse_error hword
      exact ⟨before, word, after, fault, hwords,
        fun w hw => (hbefore w hw).imp fun c hc => parse_eq_ok_iff.1 hc,
        exists_fault_iff.1 ⟨fault, hword⟩, hword, rfl⟩

end FullText.Clause
