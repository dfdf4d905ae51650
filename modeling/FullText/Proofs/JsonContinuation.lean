import FullText.Proofs.JsonText
import Mathlib.Data.List.TakeWhile

/-!
# JSON texts that go on

A reader of a part of a JSON text finds the same part if the text goes on after it. Strings and
containers have a closing character, so it does not matter what is left after them. The end of a
number is seen from what follows it only. If nothing is left after it, the text must not go on with
more of the number. Since a whole text is a container here, it cannot be read from a part of it: the
rest would have to be left as well.

## Main definitions

* `Json.Delimited`, `Json.Settled`, `Json.Steady` : what one reader finds in a text another one
  finds in every longer text, in any case, if a number at the end does not go on, or if something
  is left.

## Main results

* `Json.readValue_settled`, `Json.readValue_steady` : values are found in longer texts.
* `Json.Raw.parse?_eq_none_of_cut` : a text that is cut short is not taken apart.
-/

namespace FullText.Json

variable {α : Type} {item item' : Reader α} {text rest more : List Char}

/-- What `item` finds in a text `item'` finds in each longer text. -/
def Delimited (item item' : Reader α) : Prop :=
  ∀ {text a rest}, item text = some (a, rest) →
    ∀ more, item' (text ++ more) = some (a, rest ++ more)

/-- What `item` finds in a text `item'` finds in each longer text. If `item` leaves nothing, the
text must not go on with more of a number. -/
def Settled (item item' : Reader α) : Prop :=
  ∀ {text a rest}, item text = some (a, rest) →
    ∀ more, (rest = [] → Stops more) → item' (text ++ more) = some (a, rest ++ more)

/-- What `item` finds in a text, leaving something, `item'` finds in each longer text. -/
def Steady (item item' : Reader α) : Prop :=
  ∀ {text a rest}, item text = some (a, rest) → rest ≠ [] →
    ∀ more, item' (text ++ more) = some (a, rest ++ more)

theorem Settled.steady (h : Settled item item') : Steady item item' :=
  fun hread hrest more => h hread more fun hnil => absurd hnil hrest

/-! ### Strings -/

theorem readPieces_delimited : Delimited readPieces readPieces := by
  intro text pieces rest h more
  induction text using readPieces.induct generalizing pieces with
  | case1 => simp [readPieces] at h
  | case2 text =>
    simp only [readPieces, Option.some.injEq, Prod.mk.injEq] at h
    obtain ⟨rfl, rfl⟩ := h
    rw [List.cons_append, readPieces]
  | case3 a b c d text ih =>
    rw [readPieces] at h
    obtain ⟨code, hcode, h⟩ := Option.bind_eq_some_iff.1 h
    obtain ⟨⟨others, rest'⟩, hothers, h⟩ := Option.bind_eq_some_iff.1 h
    cases h
    simp only [List.cons_append, readPieces, hcode, ih hothers, Option.bind_eq_bind,
      Option.bind_some]
    rfl
  | case4 c text hunit ih =>
    rw [readPieces.eq_4 _ _ hunit] at h
    obtain ⟨d, hd, h⟩ := Option.bind_eq_some_iff.1 h
    obtain ⟨⟨others, rest'⟩, hothers, h⟩ := Option.bind_eq_some_iff.1 h
    cases h
    have hc : c ≠ 'u' := by
      rintro rfl
      cases hd
    rw [List.cons_append, List.cons_append, readPieces_short hc hd, ih hothers]
    rfl
  | case5 c text hquote hunit hshort hc =>
    rw [readPieces.eq_5 _ _ hquote hunit hshort, if_pos hc] at h
    cases h
  | case6 c text hquote hunit hshort hc ih =>
    rw [readPieces.eq_5 _ _ hquote hunit hshort, if_neg hc] at h
    obtain ⟨⟨others, rest'⟩, hothers, h⟩ := Option.map_eq_some_iff.1 h
    cases h
    obtain ⟨hbackslash, hcontrol⟩ := not_or.1 hc
    rw [List.cons_append, readPieces_plain hquote hbackslash hcontrol, ih hothers]
    rfl

/-! ### Numbers -/

theorem readDigits_eq_some {digits : List Char} (h : readDigits text = some (digits, rest)) :
    text = digits ++ rest ∧ digits ≠ [] ∧ (∀ c ∈ digits, c.isDigit = true) ∧
      ∀ c ∈ rest.head?, c.isDigit = false := by
  rw [readDigits] at h
  split at h
  · cases h
  · next hne =>
    cases h
    refine ⟨List.takeWhile_append_dropWhile.symm, fun hnil => hne hnil,
      fun c hc => List.mem_takeWhile_imp hc, fun c hc => ?_⟩
    have hhead := List.head?_dropWhile_not Char.isDigit text
    rw [Option.mem_def.1 hc] at hhead
    simpa using hhead

theorem readDigits_settled : Settled readDigits readDigits := by
  intro text digits rest h more hmore
  obtain ⟨rfl, hne, hdigits, hstop⟩ := readDigits_eq_some h
  rw [List.append_assoc]
  refine readDigits_append hne hdigits fun c hc => ?_
  cases rest with
  | nil => exact (hmore rfl c hc).1
  | cons d rest => exact hstop c hc

theorem readWhole_zero (hrest : ∀ c ∈ rest.head?, c.isDigit = false) :
    readWhole ('0' :: rest) = some (['0'], rest) := by
  cases rest with
  | nil => rfl
  | cons c rest => simp [readWhole, hrest c rfl]

theorem readWhole_settled : Settled readWhole readWhole := by
  intro text digits rest h more hmore
  cases text with
  | nil => cases h
  | cons c text =>
    by_cases hc : c = '0'
    · subst hc
      cases text with
      | nil =>
        cases h
        exact readWhole_zero fun c hc => (hmore rfl c hc).1
      | cons d text =>
        simp only [readWhole] at h
        by_cases hd : d.isDigit = true
        · simp [hd] at h
        · simp only [hd, Bool.false_eq_true, if_false, Option.some.injEq, Prod.mk.injEq] at h
          obtain ⟨rfl, rfl⟩ := h
          refine readWhole_zero fun c hc => ?_
          obtain rfl : d = c := Option.some.inj hc
          exact Bool.eq_false_iff.2 hd
    · have hwhole (text : List Char) : readWhole (c :: text) = readDigits (c :: text) := by
        simp [readWhole, hc]
      rw [hwhole] at h
      rw [List.cons_append, hwhole, ← List.cons_append, readDigits_settled h more hmore]

theorem readFraction_settled : Settled readFraction readFraction := by
  intro text digits rest h more hmore
  cases text with
  | nil =>
    cases h
    have hnone : ∀ digits ∈ (none : Option (List Char)),
        digits ≠ [] ∧ ∀ c ∈ digits, c.isDigit = true := nofun
    exact readFraction_append hnone fun c hc => ⟨(hmore rfl c hc).1, (hmore rfl c hc).2.1⟩
  | cons c text =>
    by_cases hc : c = '.'
    · subst hc
      rw [readFraction] at h
      obtain ⟨⟨digits, rest'⟩, hdigits, h⟩ := Option.map_eq_some_iff.1 h
      cases h
      rw [List.cons_append, readFraction, readDigits_settled hdigits more hmore]
      rfl
    · have hfraction (text : List Char) : readFraction (c :: text) = some (none, c :: text) := by
        simp [readFraction, hc]
      rw [hfraction] at h
      cases h
      rw [List.cons_append, hfraction]

theorem splitSign_append (htext : text ≠ []) (more : List Char) :
    Binary64.splitSign (text ++ more) =
      ((Binary64.splitSign text).1, (Binary64.splitSign text).2 ++ more) := by
  cases text with
  | nil => exact absurd rfl htext
  | cons c text =>
    by_cases hc : c = '+' ∨ c = '-'
    · rcases hc with rfl | rfl <;> rfl
    · obtain ⟨hplus, hminus⟩ := not_or.1 hc
      simp [Binary64.splitSign, hplus, hminus]

theorem readExponent_settled : Settled readExponent readExponent := by
  intro text exponent rest h more hmore
  cases text with
  | nil =>
    cases h
    exact readExponent_append none (hmore rfl)
  | cons mark text =>
    rw [List.cons_append]
    simp only [readExponent] at h ⊢
    by_cases hmark : mark = 'e' ∨ mark = 'E'
    · rw [if_pos hmark] at h ⊢
      obtain ⟨⟨digits, rest'⟩, hdigits, h⟩ := Option.map_eq_some_iff.1 h
      cases h
      have htext : text ≠ [] := by
        rintro rfl
        cases hdigits
      rw [splitSign_append htext, readDigits_settled hdigits more hmore]
      rfl
    · rw [if_neg hmark] at h ⊢
      cases h
      rfl

theorem splitMinus_append_of_ne_nil (htext : text ≠ []) (more : List Char) :
    splitMinus (text ++ more) = ((splitMinus text).1, (splitMinus text).2 ++ more) := by
  cases text with
  | nil => exact absurd rfl htext
  | cons c text =>
    by_cases hc : c = '-'
    · subst hc
      rfl
    · simp [splitMinus, hc]

/-- A number starts with a minus or a digit. -/
theorem head_of_readNumber {c : Char} {r : NumberToken × List Char}
    (h : readNumber (c :: text) = some r) : c = '-' ∨ c.isDigit = true := by
  by_contra hc
  obtain ⟨hminus, hdigit⟩ := not_or.1 hc
  have hzero : c ≠ '0' := by
    rintro rfl
    exact hdigit rfl
  simp [readNumber, splitMinus, hminus, readWhole, hzero, readDigits, hdigit] at h

theorem readNumber_settled : Settled readNumber readNumber := by
  intro text token rest h more hmore
  have htext : text ≠ [] := by
    rintro rfl
    cases h
  rw [readNumber] at h ⊢
  rw [splitMinus_append_of_ne_nil htext]
  obtain ⟨⟨negative, text₀⟩, hsplit⟩ : ∃ split, splitMinus text = split := ⟨_, rfl⟩
  rw [hsplit] at h ⊢
  obtain ⟨⟨whole, text₁⟩, hwhole, h⟩ := Option.bind_eq_some_iff.1 h
  obtain ⟨⟨fraction, text₂⟩, hfraction, h⟩ := Option.bind_eq_some_iff.1 h
  obtain ⟨⟨exponent, text₃⟩, hexponent, h⟩ := Option.bind_eq_some_iff.1 h
  cases h
  -- An empty rest stays empty, so nothing is left in the end if a part leaves nothing.
  have hmore₂ : text₂ = [] → Stops more := by
    rintro rfl
    cases hexponent
    exact hmore rfl
  have hmore₁ : text₁ = [] → Stops more := by
    rintro rfl
    cases hfraction
    exact hmore₂ rfl
  simp only [readWhole_settled hwhole more hmore₁, readFraction_settled hfraction more hmore₂,
    readExponent_settled hexponent more hmore, Option.bind_eq_bind, Option.bind_some]
  rfl

/-! ### Containers -/

theorem skipSpace_append_of_eq_cons {c : Char} (h : skipSpace text = c :: rest)
    (more : List Char) : skipSpace (text ++ more) = c :: (rest ++ more) := by
  rw [skipSpace] at h ⊢
  rw [List.dropWhile_append, h]
  rfl

theorem readItems_delimited (closing : Char) (hnil : item [] = none) (hitem : Steady item item')
    {n n' : Nat} (hn : n ≤ n') :
    Delimited (readItems closing item n) (readItems closing item' n') := by
  intro text as rest h more
  induction n generalizing n' text as with
  | zero => cases h
  | succ n ih =>
    obtain ⟨n', rfl⟩ := Nat.exists_eq_add_of_le' (Nat.lt_of_lt_of_le n.succ_pos hn)
    rw [readItems] at h ⊢
    obtain ⟨⟨a, text₁⟩, ha, h⟩ := Option.bind_eq_some_iff.1 h
    have htext₁ : text₁ ≠ [] := by
      rintro rfl
      cases h
    cases hskip : skipSpace text₁ with
    | nil => simp [hskip] at h
    | cons c text₂ =>
      simp only [hskip] at h
      simp only [hitem ha htext₁, Option.bind_eq_bind, Option.bind_some,
        skipSpace_append_of_eq_cons hskip]
      by_cases hclose : c = closing
      · rw [if_pos hclose] at h ⊢
        cases h
        rfl
      · rw [if_neg hclose] at h ⊢
        by_cases hcomma : c = ','
        · rw [if_pos hcomma] at h ⊢
          obtain ⟨⟨others, rest'⟩, hothers, h⟩ := Option.bind_eq_some_iff.1 h
          cases h
          cases hskip₂ : skipSpace text₂ with
          | nil =>
            rw [hskip₂, readItems_nil closing hnil] at hothers
            cases hothers
          | cons d text₃ =>
            rw [hskip₂] at hothers
            rw [skipSpace_append_of_eq_cons hskip₂, ← List.cons_append,
              ih (Nat.le_of_succ_le_succ hn) hothers]
            rfl
        · rw [if_neg hcomma] at h
          cases h

theorem readContainer_delimited (closing : Char) (hnil : item [] = none)
    (hitem : Steady item item') :
    Delimited (readContainer closing item) (readContainer closing item') := by
  intro text as rest h more
  rw [readContainer] at h ⊢
  cases hskip : skipSpace text with
  | nil => simp [hskip] at h
  | cons c text₁ =>
    simp only [hskip] at h
    simp only [skipSpace_append_of_eq_cons hskip]
    by_cases hclose : c = closing
    · rw [if_pos hclose] at h ⊢
      cases h
      rfl
    · rw [if_neg hclose] at h ⊢
      have hlength : text.length ≤ (text ++ more).length := by simp
      exact readItems_delimited closing hnil hitem hlength h more

theorem readMember_steady {value value' : Reader Raw} (hnil : value [] = none)
    (hvalue : Steady value value') : Steady (readMember value) (readMember value') := by
  intro text member rest h hrest more
  cases text with
  | nil => cases h
  | cons c text =>
    by_cases hc : c = '"'
    · subst hc
      rw [readMember] at h
      obtain ⟨⟨key, text₁⟩, hkey, h⟩ := Option.bind_eq_some_iff.1 h
      rw [List.cons_append, readMember, readPieces_delimited hkey]
      simp only [Option.bind_eq_bind, Option.bind_some]
      cases hskip : skipSpace text₁ with
      | nil => simp [hskip] at h
      | cons d text₂ =>
        simp only [hskip] at h
        rw [skipSpace_append_of_eq_cons hskip]
        by_cases hd : d = ':'
        · subst hd
          obtain ⟨⟨v, text₃⟩, hv, h⟩ := Option.bind_eq_some_iff.1 h
          cases h
          cases hskip₂ : skipSpace text₂ with
          | nil => simp [hskip₂, hnil] at hv
          | cons e text₄ =>
            rw [hskip₂] at hv
            have hlonger := hvalue hv hrest more
            rw [List.cons_append] at hlonger
            simp only [skipSpace_append_of_eq_cons hskip₂, hlonger, Option.bind_some]
            rfl
        · simp [hd] at h
    · simp [readMember, hc] at h

/-! ### Values -/

/-- An object is found in longer texts, even if nothing is left after it. -/
theorem readObject_append {depth depth' : Nat}
    (hitem : Steady (readValue depth) (readValue depth')) {v : Raw}
    (h : readValue (depth + 1) ('{' :: text) = some (v, rest)) (more : List Char) :
    readValue (depth' + 1) ('{' :: text ++ more) = some (v, rest ++ more) := by
  rw [readValue] at h
  obtain ⟨⟨members, rest'⟩, hmembers, h⟩ := Option.map_eq_some_iff.1 h
  cases h
  rw [List.cons_append, readValue, readContainer_delimited '}' rfl
    (readMember_steady (readValue_nil depth) hitem) hmembers]
  rfl

/-- **Values are found in longer texts,** with as many or more containers allowed. -/
theorem readValue_settled {depth depth' : Nat} (hdepth : depth ≤ depth') :
    Settled (readValue depth) (readValue depth') := by
  intro text v rest h more hmore
  induction depth generalizing depth' text v rest more with
  | zero => cases h
  | succ depth ih =>
    obtain ⟨depth', rfl⟩ := Nat.exists_eq_add_of_le' (Nat.lt_of_lt_of_le depth.succ_pos hdepth)
    have hsettled : Settled (readValue depth) (readValue depth') :=
      fun h more hmore => ih (Nat.le_of_succ_le_succ hdepth) h more hmore
    have hitem : Steady (readValue depth) (readValue depth') := Settled.steady hsettled
    have hread := h
    rw [readValue.eq_def] at h
    simp only at h
    split at h
    · obtain ⟨⟨pieces, rest'⟩, hpieces, h⟩ := Option.map_eq_some_iff.1 h
      cases h
      rw [List.cons_append, readValue, readPieces_delimited hpieces]
      rfl
    · obtain ⟨⟨items, rest'⟩, hitems, h⟩ := Option.map_eq_some_iff.1 h
      cases h
      rw [List.cons_append, readValue,
        readContainer_delimited ']' (readValue_nil depth) hitem hitems]
      rfl
    · exact readObject_append hitem hread more
    · cases h
      rfl
    · cases h
      rfl
    · cases h
      rfl
    · next hquote hbracket hbrace hn ht hf =>
      obtain ⟨⟨token, rest'⟩, htoken, h⟩ := Option.map_eq_some_iff.1 h
      cases h
      cases text with
      | nil => cases htoken
      | cons c text =>
        rw [List.cons_append, readValue_of_head (head_of_readNumber htoken), ← List.cons_append,
          readNumber_settled htoken more hmore]
        rfl

theorem readValue_steady {depth depth' : Nat} (hdepth : depth ≤ depth') :
    Steady (readValue depth) (readValue depth') := Settled.steady (readValue_settled hdepth)

/-! ### Whole texts -/

theorem Layout.text_object (l : Layout) (depth : Nat) (members : List (String × Json)) :
    ∃ body, l.text depth (.object members) = '{' :: body := by
  rw [text]
  cases l.memberTexts (depth + 1) members with
  | nil => exact ⟨_, rfl⟩
  | cons part parts => exact ⟨_, rfl⟩

/-- **The text of an object that is cut short is not taken apart.** -/
theorem Raw.parse?_eq_none_of_cut (l : Layout) (members : List (String × Json)) {text : String}
    (hcut : text.toList <+: l.text 0 (.object members))
    (hne : text.toList ≠ l.text 0 (.object members)) : Raw.parse? text = none := by
  obtain ⟨more, hmore⟩ := hcut
  have hmore_ne : more ≠ [] := by
    rintro rfl
    exact hne (by rw [← hmore, List.append_nil])
  obtain ⟨body, hbody⟩ := l.text_object 0 members
  have hwhole : readValue ((text.toList ++ more).length + 1) (text.toList ++ more) =
      some (raw (.object members), []) := by
    rw [hmore]
    simpa using (readBy_text l 0 _ (.object members) (Nat.le_refl _)).2 [] (by simp [Stops])
  rw [hbody] at hmore
  rw [parse?]
  cases htext : text.toList with
  | nil => rfl
  | cons c cs =>
    rw [htext] at hmore hwhole
    obtain rfl : c = '{' := (List.cons.inj hmore).1
    rw [skipSpace_cons (by decide)]
    cases hread : readValue (('{' :: cs).length + 1) ('{' :: cs) with
    | none => rfl
    | some r =>
      -- What is left after the part would be left after the whole text, with the rest of it.
      have hdepth : ('{' :: cs).length ≤ ('{' :: cs ++ more).length := by simp
      have hlonger := readObject_append (readValue_steady hdepth) hread more
      rw [hwhole] at hlonger
      have hrest : [] = r.2 ++ more := (Prod.mk.inj (Option.some.inj hlonger)).2
      exact absurd (List.append_eq_nil_iff.1 hrest.symm).2 hmore_ne

end FullText.Json
