import FullText.Proofs.ConfigCheck
import FullText.Proofs.NumberText
import FullText.Proofs.PatternFolding
import FullText.Proofs.QueryGrammar

/-!
# Queries read back from their text

A clause is written as a word of the grammar of queries, so that a query made of the texts of
clauses is read as these clauses. The parts of the word must not be mistaken for one another: the
name of a configured field has no colon but may look like a term with modifiers, the term has no
sign of the notation in it, and a boost is written with digits and a point, never with an exponent.

## Main definitions

* `Clause.Printable` : the clauses that have a text in the notation of queries.

## Main results

* `Text.words_intercalate` : words with spaces between them are found again.
* `Clause.readBoost_write` : a positive finite number is read back from its text as a boost.
* `Clause.spells_display` : the text of a clause is a word of the grammar for that clause.
* `Clause.parseQuery_display` : a query made of the texts of clauses is read as these clauses.
-/

namespace FullText

/-- Words with single spaces between them are the words of the text. -/
theorem Text.words_intercalate {ws : List String}
    (hws : ∀ w ∈ ws, w ≠ "" ∧ ∀ c ∈ w.toList, isBlank c = false) :
    words (" ".intercalate ws) = ws := by
  by_cases hne : ws = []
  · subst hne
    rfl
  · have hpieces : splitWhere isBlank (" ".intercalate ws).toList = ws.map String.toList := by
      rw [String.toList_intercalate]
      refine splitWhere_intercalate (c := ' ') rfl (by simpa using hne) fun l hl => ?_
      obtain ⟨w, hw, rfl⟩ := List.mem_map.1 hl
      exact (hws w hw).2
    have hkeep : (ws.map String.toList).filter (fun w => !w.isEmpty) = ws.map String.toList := by
      refine List.filter_eq_self.2 fun l hl => ?_
      obtain ⟨w, hw, rfl⟩ := List.mem_map.1 hl
      simpa using (hws w hw).1
    rw [words, hpieces, hkeep, List.map_map]
    simp [Function.comp_def]

namespace Clause

/-! ### Modifiers read back -/

/-- An edit distance is read back from its digits. -/
theorem spellsDistance_decimalDigits (d : UInt32) : SpellsDistance (decimalDigits d.toNat) d where
  ne_nil := Nat.toDigits_ne_nil
  isDigit _ hc := Json.isDigit_of_mem_decimalDigits hc
  digitsValue := Json.digitsValue_decimalDigits d.toNat

theorem isDigit_of_mem_replicate {k : Nat} {c : Char} (hc : c ∈ List.replicate k '0') :
    c.isDigit = true := by
  rw [List.eq_of_mem_replicate hc]
  rfl

section Positional

variable {digits : List Char} (hdigits : ∀ c ∈ digits, c.isDigit = true)

include hdigits

/-- A decimal that is written positionally has no other signs than digits and a point. -/
theorem isDigit_or_of_mem_writePositional (exponent : Int) {c : Char}
    (hc : c ∈ writePositional [] digits exponent) : c.isDigit = true ∨ c = '.' := by
  simp only [writePositional] at hc
  split_ifs at hc
  · rw [List.append_nil, List.mem_append] at hc
    exact .inl (hc.elim (hdigits c) isDigit_of_mem_replicate)
  · rcases List.mem_append.1 hc with hc | hc
    · exact .inl (hdigits c (List.mem_of_mem_take hc))
    · exact (List.mem_cons.1 hc).symm.imp_left fun hc => hdigits c (List.mem_of_mem_drop hc)
  · rcases List.mem_cons.1 hc with rfl | hc
    · exact .inl rfl
    · refine (List.mem_cons.1 hc).symm.imp_left fun hc => ?_
      exact (List.mem_append.1 hc).elim isDigit_of_mem_replicate (hdigits c)

/-- A decimal that is written positionally is read as a numeral for it. The numeral ends at or
after the point and starts at or before it. -/
theorem exists_parseNumeral?_writePositional (hne : digits ≠ []) (exponent : Int) :
    ∃ n k, Binary64.parseNumeral? false (writePositional [] digits exponent) = some n ∧
      Json.Spells n false digits exponent k ∧ n.exponent ≤ 0 ∧
      0 ≤ n.exponent + n.digits.length := by
  simp only [writePositional]
  split_ifs
  · -- A whole number, with zeros at its end.
    have hall (c : Char) (hc : c ∈ digits ++ List.replicate exponent.toNat '0') :
        c.isDigit = true := (List.mem_append.1 hc).elim (hdigits c) isDigit_of_mem_replicate
    have hparse := parseNumeral?_digits hall (List.append_ne_nil_of_left_ne_nil hne _)
    rw [List.append_nil]
    refine ⟨_, exponent.toNat, hparse, .mk rfl ?_ ?_ ?_, ?_, ?_⟩
    · exact Json.digitsValue_append_replicate digits exponent.toNat
    · show (0 : Int) = exponent - exponent.toNat
      omega
    · simp only [List.length_append, List.length_replicate]
      omega
    · simp
    · simp only
      omega
  · -- The point falls among the digits.
    have hbefore (c : Char) (hc : c ∈ digits.take (digits.length - (-exponent).toNat)) :
        c.isDigit = true := hdigits c (List.mem_of_mem_take hc)
    have hafter (c : Char) (hc : c ∈ digits.drop (digits.length - (-exponent).toNat)) :
        c.isDigit = true := hdigits c (List.mem_of_mem_drop hc)
    have hparse := parseNumeral?_point hbefore hafter
      (by rwa [← not_and_or, ← List.append_eq_nil_iff, List.take_append_drop])
    rw [List.take_append_drop] at hparse
    refine ⟨_, 0, hparse, .mk rfl (Nat.mul_one _).symm ?_ ?_, ?_, ?_⟩
    all_goals simp only [List.length_drop]; omega
  · -- Zeros stand between the point and the digits.
    have hzero (c : Char) (hc : c ∈ ['0']) : c.isDigit = true :=
      isDigit_of_mem_replicate (k := 1) hc
    have hfraction (c : Char)
        (hc : c ∈ List.replicate ((-exponent).toNat - digits.length) '0' ++ digits) :
        c.isDigit = true := (List.mem_append.1 hc).elim isDigit_of_mem_replicate (hdigits c)
    have hparse := parseNumeral?_point hzero hfraction (.inl (List.cons_ne_nil _ _))
    refine ⟨_, 0, hparse, .mk rfl ?_ ?_ ?_, ?_, ?_⟩
    · rw [Nat.pow_zero, Nat.mul_one]
      exact Json.digitsValue_replicate_append ((-exponent).toNat - digits.length + 1) digits
    all_goals
      simp only [List.length_append, List.length_replicate, List.length_cons, List.length_nil]
      omega

end Positional

/-- A number that is finite and greater than zero has no sign and a finite magnitude other than
zero. -/
theorem parts_of_isPositiveFinite {x : Binary64} (hx : x.isPositiveFinite = true) :
    x.isNaN = false ∧ x.isNegative = false ∧ 0 < x.magnitude ∧
      x.magnitude < Binary64.infinityMagnitude := by
  obtain ⟨hsign, hpos, hmagnitude⟩ := Binary64.isPositiveFinite_iff.1 hx
  exact ⟨decide_eq_false (Nat.lt_asymm hmagnitude), hsign, hpos, hmagnitude⟩

/-- A positive number is written with the digits of its shortest decimal. -/
theorem toList_write_plain {x : Binary64} (hx : x.isPositiveFinite = true) :
    (x.write .plain).toList =
      writePositional [] (decimalDigits (Binary64.shortest .up x.magnitude).digits)
        (Binary64.shortest .up x.magnitude).exponent := by
  obtain ⟨hnumber, hsign, hpos, hmagnitude⟩ := parts_of_isPositiveFinite hx
  have hfinite : x.isFinite = true := decide_eq_true hmagnitude
  rw [Binary64.write, hnumber, if_neg Bool.false_ne_true, String.toList_ofList, hsign,
    if_neg Bool.false_ne_true, if_pos hfinite, Binary64.writeMagnitude, if_neg (by omega)]
  rfl

/-- **A positive finite number is read back from its text as a boost,** with all its bits. -/
theorem readBoost_write {x : Binary64} (hx : x.isPositiveFinite = true) :
    readBoost (x.write .plain).toList = .ok x := by
  obtain ⟨-, hsign, hpos, hmagnitude⟩ := parts_of_isPositiveFinite hx
  obtain ⟨hreads, hlow, hhigh⟩ := Binary64.shortest_spec .up hpos hmagnitude
  rw [toList_write_plain hx]
  generalize Binary64.shortest .up x.magnitude = d at hreads hlow hhigh
  have hdigits (c : Char) (hc : c ∈ decimalDigits d.digits) : c.isDigit = true :=
    Json.isDigit_of_mem_decimalDigits hc
  have hchars : ((writePositional [] (decimalDigits d.digits) d.exponent).all
      fun c => c.isDigit || c = '.') = true := by
    simp only [List.all_eq_true, Bool.or_eq_true, decide_eq_true_eq]
    exact fun c => isDigit_or_of_mem_writePositional hdigits d.exponent
  obtain ⟨n, k, hparse, hspells, hexponent, hplaces⟩ :=
    exists_parseNumeral?_writePositional hdigits Nat.toDigits_ne_nil d.exponent
  have hvalue : n.toBinary64 = x := by
    rw [Numeral.toBinary64, hspells.negative_eq, Json.magnitude_of_spells hspells hpos hmagnitude
      hreads (by omega) (by omega), ← hsign, Binary64.ofMagnitude_magnitude]
  rw [readBoost, if_pos hchars, hparse]
  simp only [hvalue, (Bool.and_eq_true_iff.1 hx).2, if_true]

/-- A positive number that equals one has the bits of one. -/
theorem eq_one_of_same {x : Binary64} (hx : x.isPositiveFinite = true)
    (hsame : x.same .one = true) : x = .one := by
  obtain ⟨-, hsign, -, -⟩ := parts_of_isPositiveFinite hx
  simp only [Binary64.same, Bool.and_eq_true, decide_eq_true_eq] at hsame
  have horder := hsame.2
  rw [Binary64.orderKey, hsign, if_neg Bool.false_ne_true] at horder
  have hone : Binary64.one.orderKey = Binary64.one.magnitude := by decide
  rw [hone, Int.ofNat_inj] at horder
  rw [← Binary64.ofMagnitude_magnitude x, hsign, horder]
  decide

/-! ### Clauses -/

/-- A clause that has a text in the notation of queries: one that may be missed, that knows where
the stars of its term are, and each of whose parts is as the notation asks for. -/
structure Printable (config : Config) (c : Clause) : Prop where
  /-- The stars are those of the term. -/
  stars : c.stars = .classify c.term.toList
  /-- Documents may miss the clause. -/
  presence : c.presence = .optional
  /-- The term has no sign of the notation in it, and other characters than stars. -/
  term : IsTerm c.term.toList
  /-- The term has no white space in it. -/
  notBlank : ∀ a ∈ c.term.toList, Text.isBlank a = false
  /-- A field is one of the configuration. -/
  field : ∀ name, c.field = some name → (config.field? name).isSome = true
  /-- The boost is finite and greater than zero. -/
  boost : c.boost.isPositiveFinite = true
  /-- A term with a star has no edit distance. -/
  distance : '*' ∈ c.term.toList → c.distance = none

/-- The text of the field of a clause. -/
def displayField (c : Clause) : List Char := c.field.elim [] fun name => name.toList ++ [':']

/-- The text of the modifiers of a clause. A boost of one is not written. -/
def displayModifiers (c : Clause) : List Char :=
  (c.distance.elim [] fun d => '~' :: decimalDigits d.toNat) ++
    if c.boost.same .one then [] else '^' :: (c.boost.write .plain).toList

theorem toList_display {c : Clause} (hc : c.presence = .optional) :
    c.display.toList = c.displayField ++ c.term.toList ++ c.displayModifiers := by
  have hrequired : c.isRequired = false := by
    rw [isRequired, hc]
    rfl
  rw [display, displayField, displayModifiers, hrequired]
  cases c.field <;> cases c.distance <;> cases c.boost.same .one <;> simp [writeNat]

/-! ### White space -/

/-- The name of a field that a usable configuration knows. -/
theorem usable_of_field? {config : Config} (hconfig : config.Usable) {name : String}
    (hname : (config.field? name).isSome = true) :
    name ≠ "" ∧ ∀ a ∈ name.toList, a ≠ ':' ∧ Text.isBlank a = false := by
  obtain ⟨f, hf, hfname⟩ := List.find?_isSome.1 hname
  obtain rfl : f.name = name := by simpa using hfname
  obtain ⟨hnamed, hformed, -⟩ := hconfig.fields f hf
  refine ⟨hnamed, fun a ha => ?_⟩
  simpa using List.any_eq_false.1 hformed a ha

theorem isBlank_of_isDigit_or {a : Char} (ha : a.isDigit = true ∨ a = '.') :
    Text.isBlank a = false := by
  rcases ha with ha | rfl
  · exact Text.isBlank_of_isDigit ha
  · rfl

/-- There is no white space in front of the term of a word. -/
theorem SpellsField.isBlank_of_mem {config : Config} (hconfig : config.Usable) {start : List Char}
    {field : Option String} (h : SpellsField config start field) :
    ∀ a ∈ start, Text.isBlank a = false := by
  cases h with
  | none => simp
  | name _ _ hfield =>
    have hcolon : Text.isBlank ':' = false := rfl
    have hname := (usable_of_field? hconfig hfield).2
    simpa [or_imp, forall_and, hcolon] using fun a ha => (hname a ha).2

/-- There is no white space in the modifiers of a word. -/
theorem SpellsModifiers.isBlank_of_mem {text : List Char} {distance : Option UInt32}
    {boost : Option Binary64} (h : SpellsModifiers text distance boost) :
    ∀ a ∈ text, Text.isBlank a = false := by
  have htilde : Text.isBlank '~' = false := rfl
  have hcaret : Text.isBlank '^' = false := rfl
  have hv {v d} (hd : SpellsDistance v d) : ∀ a ∈ v, Text.isBlank a = false :=
    fun a ha => isBlank_of_isDigit_or (.inl (hd.isDigit a ha))
  have hw {w b} (hb : SpellsBoost w b) : ∀ a ∈ w, Text.isBlank a = false :=
    fun a ha => isBlank_of_isDigit_or (hb.isDigit_or a ha)
  cases h with
  | none => simp
  | distance hd => simpa [htilde] using hv hd
  | boost hb => simpa [hcaret] using hw hb
  | distanceBoost hd hb =>
    simpa [or_imp, forall_and, htilde, hcaret] using And.intro (hv hd) (hw hb)
  | boostDistance hd hb =>
    simpa [or_imp, forall_and, htilde, hcaret] using And.intro (hw hb) (hv hd)

/-! ### Words -/

section Printable

variable {config : Config} {c : Clause}

theorem Printable.spellsField (hc : c.Printable config) (hconfig : config.Usable) :
    SpellsField config c.displayField c.field := by
  rw [displayField]
  cases hfield : c.field with
  | none => exact .none
  | some name =>
    have hknown := hc.field name hfield
    obtain ⟨hne, hchars⟩ := usable_of_field? hconfig hknown
    exact .name hne (fun hcolon => (hchars ':' hcolon).1 rfl) hknown

/-- The modifiers are written in the order of the notation, the boost only if it is not one. -/
theorem Printable.spellsModifiers (hc : c.Printable config) :
    ∃ boost, SpellsModifiers c.displayModifiers c.distance boost ∧ c.boost = boost.getD .one := by
  have hboost : SpellsBoost (c.boost.write .plain).toList c.boost :=
    spellsBoost_iff.2 ⟨readBoost_write hc.boost, hc.boost⟩
  rw [displayModifiers]
  cases hsame : c.boost.same .one with
  | true =>
    refine ⟨none, ?_, eq_one_of_same hc.boost hsame⟩
    rw [if_pos rfl, List.append_nil]
    cases c.distance with
    | none => exact .none
    | some d => exact .distance (spellsDistance_decimalDigits d)
  | false =>
    refine ⟨some c.boost, ?_, rfl⟩
    rw [if_neg Bool.false_ne_true]
    cases c.distance with
    | none => exact .boost hboost
    | some d => exact .distanceBoost (spellsDistance_decimalDigits d) hboost

/-- **The text of a clause is a word of the grammar for that clause.** -/
theorem spells_display (hconfig : config.Usable) (hc : c.Printable config) :
    Spells config c.display.toList c := by
  obtain ⟨boost, hmodifiers, hboost⟩ := hc.spellsModifiers
  have hstar (hd : c.distance ≠ none) : '*' ∉ c.term.toList := fun hmem => hd (hc.distance hmem)
  exact ⟨c.displayField, c.term.toList, c.displayModifiers, boost, toList_display hc.presence,
    hc.spellsField hconfig, hc.term, hmodifiers, hstar, String.ofList_toList.symm, hc.stars, hboost,
    hc.presence⟩

/-- No part of the text of a clause is white space. -/
theorem isBlank_of_mem_display (hconfig : config.Usable) (hc : c.Printable config) {a : Char}
    (ha : a ∈ c.display.toList) : Text.isBlank a = false := by
  obtain ⟨boost, hmodifiers, -⟩ := hc.spellsModifiers
  rw [toList_display hc.presence, List.mem_append, List.mem_append] at ha
  rcases ha with (ha | ha) | ha
  · exact (hc.spellsField hconfig).isBlank_of_mem hconfig a ha
  · exact hc.notBlank a ha
  · exact hmodifiers.isBlank_of_mem a ha

end Printable

/-! ### Queries -/

/-- **A query made of the texts of clauses is read as these clauses.** -/
theorem parseQuery_display {config : Config} (hconfig : config.validate = .ok ())
    {cs : List Clause} (hcs : ∀ c ∈ cs, c.Printable config) :
    parseQuery config (" ".intercalate (cs.map display)) = .ok cs := by
  have husable := Config.validate_eq_ok_iff.1 hconfig
  have hwords : Text.words (" ".intercalate (cs.map display)) = cs.map display := by
    refine Text.words_intercalate fun w hw => ?_
    obtain ⟨c, hc, rfl⟩ := List.mem_map.1 hw
    refine ⟨fun hempty => (hcs c hc).term.ne_nil ?_,
      fun a ha => isBlank_of_mem_display husable (hcs c hc) ha⟩
    have hlist := toList_display (hcs c hc).presence
    rw [hempty] at hlist
    have hnil := List.append_eq_nil_iff.1 hlist.symm
    exact (List.append_eq_nil_iff.1 hnil.1).2
  rw [parseQuery, hwords, parseWords_eq_ok_iff, List.forall₂_map_left_iff, List.forall₂_same]
  exact fun c hc => parse_of_spells (spells_display husable (hcs c hc))

/-- A configuration with a field whose name looks like a term with modifiers. -/
def Sample.signsConfig : Config := ⟨"id", [⟨"a~b^*", .one, false⟩], .half⟩

/-- A clause for that field with both modifiers, and a pattern for all fields. -/
def Sample.printedClauses : List Clause :=
  [{ ofTerm "tee" with field := some "a~b^*", distance := some 2, boost := ⟨0x3FF8000000000000⟩ },
    ofTerm "gre*"]

example : " ".intercalate (Sample.printedClauses.map display) = "a~b^*:tee~2^1.5 gre*" := by
  decide +kernel

theorem parseQuery_display_sample :
    Sample.signsConfig.validate = .ok () ∧
      (∀ c ∈ Sample.printedClauses, c.Printable Sample.signsConfig) ∧
      parseQuery Sample.signsConfig (" ".intercalate (Sample.printedClauses.map display)) =
        .ok Sample.printedClauses := by
  have hconfig : Sample.signsConfig.validate = .ok () := rfl
  have hblank {term : String} (h : term.toList.any Text.isBlank = false) :
      ∀ a ∈ term.toList, Text.isBlank a = false := by simpa using h
  have hcs : ∀ c ∈ Sample.printedClauses, c.Printable Sample.signsConfig := by
    refine List.forall_mem_cons.2 ⟨?_, List.forall_mem_singleton.2 ?_⟩
    · refine ⟨rfl, rfl, ⟨by decide, by decide, 't', by decide, by decide⟩, hblank (by decide), ?_,
        by decide, by decide⟩
      rintro _ ⟨⟩
      rfl
    · exact ⟨rfl, rfl, ⟨by decide, by decide, 'g', by decide, by decide⟩, hblank (by decide), nofun,
        by decide, by decide⟩
  exact ⟨hconfig, hcs, parseQuery_display hconfig hcs⟩

end Clause

end FullText
