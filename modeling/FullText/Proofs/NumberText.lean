import FullText.Json.Interpretation
import FullText.Json.Printer
import FullText.Proofs.ShortestDecimal

/-!
# Numbers read back from their text

A number in a data file is taken apart into the digits before and after the point and an exponent.
These parts make up a token, whatever the layout of the number; the token of a number is read from
its text, and its value has the bits of the number. For the value it matters that the shortest
decimal reads back, that zeros at either end do not change it, and that there are fewer digits than
the reader looks at.

## Main definitions

* `Json.NumberToken.text`, `Json.NumberToken.WellFormed` : the text of a token.
* `Json.integerToken`, `Json.numberToken` : the tokens of an integer and of a number.

## Main results

* `Json.readNumber_text` : a token is read back from its text.
* `Json.binary64?_numberToken` : a finite number is the value of its token.
-/

namespace FullText.Json

/-! ### Digits -/

theorem isDigit_of_mem_decimalDigits {n : Nat} {c : Char} (hc : c ∈ decimalDigits n) :
    c.isDigit = true := Nat.isDigit_of_mem_toDigits (by decide) (by decide) hc

theorem digitsValue_decimalDigits (n : Nat) : Numeral.digitsValue (decimalDigits n) = n :=
  Nat.ofDigitChars_ten_toDigits

theorem decimalDigits_eq_cons {n : Nat} (hn : 0 < n) :
    ∃ c cs, decimalDigits n = c :: cs ∧ c ≠ '0' := by
  induction n using Nat.strongRecOn with
  | ind n ih =>
    rw [decimalDigits, Nat.toDigits_eq_if (by decide)]
    by_cases hlt : n < 10
    · rw [if_pos hlt]
      refine ⟨Nat.digitChar n, [], rfl, ?_⟩
      have hdigit : ∀ n < 10, 0 < n → Nat.digitChar n ≠ '0' := by decide
      exact hdigit n hlt hn
    · obtain ⟨c, cs, hcs, hc⟩ := ih (n / 10) (by omega) (by omega)
      rw [decimalDigits] at hcs
      rw [if_neg hlt, hcs]
      exact ⟨c, cs ++ [Nat.digitChar (n % 10)], rfl, hc⟩

/-- What follows a number does not continue it. -/
def Stops (rest : List Char) : Prop :=
  ∀ c ∈ rest.head?, c.isDigit = false ∧ c ≠ '.' ∧ c ≠ 'e' ∧ c ≠ 'E'

theorem readDigits_append {digits rest : List Char} (hne : digits ≠ [])
    (hdigits : ∀ c ∈ digits, c.isDigit = true) (hrest : ∀ c ∈ rest.head?, c.isDigit = false) :
    readDigits (digits ++ rest) = some (digits, rest) := by
  have htake : rest.takeWhile Char.isDigit = [] := by
    cases rest with
    | nil => rfl
    | cons c rest => exact List.takeWhile_cons_of_neg (by simp [hrest c rfl])
  have hdrop : rest.dropWhile Char.isDigit = rest := by
    cases rest with
    | nil => rfl
    | cons c rest => exact List.dropWhile_cons_of_neg (by simp [hrest c rfl])
  rw [readDigits, List.takeWhile_append_of_pos hdigits, List.dropWhile_append_of_pos hdigits, htake,
    hdrop, List.append_nil]
  cases digits with
  | nil => exact absurd rfl hne
  | cons c digits => rfl

/-! ### Tokens -/

/-- A token that can be written. -/
structure NumberToken.WellFormed (t : NumberToken) : Prop where
  /-- There are only digits before the point. -/
  whole : ∀ c ∈ t.whole, c.isDigit = true
  /-- There is a digit before the point. -/
  nonempty : t.whole ≠ []
  /-- A leading zero stands alone. -/
  leading : t.whole = ['0'] ∨ t.whole.head? ≠ some '0'
  /-- If there is a fraction, it has a digit. -/
  fraction : ∀ digits ∈ t.fraction, digits ≠ [] ∧ ∀ c ∈ digits, c.isDigit = true

/-- The text of an exponent. -/
def exponentText (e : Int) : List Char :=
  'e' :: (if 0 ≤ e then '+' else '-') :: decimalDigits e.natAbs

/-- The text of a token. -/
def NumberToken.text (t : NumberToken) : List Char :=
  (if t.negative then ['-'] else []) ++ t.whole ++
    (t.fraction.elim [] fun digits => '.' :: digits) ++ t.exponent.elim [] exponentText

theorem splitMinus_append {whole rest : List Char} (negative : Bool) (hne : whole ≠ [])
    (hwhole : ∀ c ∈ whole, c.isDigit = true) :
    splitMinus ((if negative then ['-'] else []) ++ (whole ++ rest)) =
      (negative, whole ++ rest) := by
  cases negative with
  | true => rfl
  | false =>
    cases whole with
    | nil => exact absurd rfl hne
    | cons c whole =>
      have hc : c ≠ '-' := by
        rintro rfl
        exact absurd (hwhole '-' List.mem_cons_self) (by decide)
      simp [splitMinus, hc]

theorem readWhole_append {whole rest : List Char} (hne : whole ≠ [])
    (hwhole : ∀ c ∈ whole, c.isDigit = true) (hleading : whole = ['0'] ∨ whole.head? ≠ some '0')
    (hrest : ∀ c ∈ rest.head?, c.isDigit = false) :
    readWhole (whole ++ rest) = some (whole, rest) := by
  rcases hleading with rfl | hhead
  · cases rest with
    | nil => rfl
    | cons c rest => simp [readWhole, hrest c rfl]
  · have hread := readDigits_append hne hwhole hrest
    cases whole with
    | nil => exact absurd rfl hne
    | cons c whole =>
      have hc : c ≠ '0' := fun h => hhead (congrArg some h)
      simpa [readWhole, hc] using hread

theorem readFraction_append {fraction : Option (List Char)} {rest : List Char}
    (hfraction : ∀ digits ∈ fraction, digits ≠ [] ∧ ∀ c ∈ digits, c.isDigit = true)
    (hrest : ∀ c ∈ rest.head?, c.isDigit = false ∧ c ≠ '.') :
    readFraction ((fraction.elim [] fun digits => '.' :: digits) ++ rest) =
      some (fraction, rest) := by
  cases fraction with
  | none =>
    cases rest with
    | nil => rfl
    | cons c rest => simp [readFraction, (hrest c rfl).2]
  | some digits =>
    obtain ⟨hne, hdigits⟩ := hfraction digits rfl
    show readFraction ('.' :: (digits ++ rest)) = _
    rw [readFraction, readDigits_append hne hdigits fun c hc => (hrest c hc).1]
    rfl

theorem readExponent_append (exponent : Option Int) {rest : List Char} (hrest : Stops rest) :
    readExponent (exponent.elim [] exponentText ++ rest) = some (exponent, rest) := by
  cases exponent with
  | none =>
    cases rest with
    | nil => rfl
    | cons c rest =>
      obtain ⟨-, -, he, hE⟩ := hrest c rfl
      simp [readExponent, he, hE]
  | some e =>
    have hread := readDigits_append (Nat.toDigits_ne_nil (n := e.natAbs) (b := 10))
      (fun c hc => isDigit_of_mem_decimalDigits hc) fun c hc => (hrest c hc).1
    have hvalue := digitsValue_decimalDigits e.natAbs
    rw [decimalDigits] at hvalue
    show readExponent ('e' :: (if 0 ≤ e then '+' else '-') :: (decimalDigits e.natAbs ++ rest)) = _
    rw [decimalDigits]
    by_cases hsign : 0 ≤ e
    · rw [if_pos hsign]
      simp only [readExponent, Binary64.splitSign, true_or, if_true, hread, Option.map_some, hvalue,
        Bool.false_eq_true, if_false]
      congr 3
      omega
    · rw [if_neg hsign]
      simp only [readExponent, Binary64.splitSign, true_or, if_true, hread, Option.map_some, hvalue]
      congr 3
      omega

/-- **A number is read back from its text,** if what follows does not continue it. -/
theorem readNumber_text {t : NumberToken} (ht : t.WellFormed) {rest : List Char}
    (hrest : Stops rest) : readNumber (t.text ++ rest) = some (t, rest) := by
  obtain ⟨negative, whole, fraction, exponent⟩ := t
  have hexponent := readExponent_append exponent hrest
  have hstop : ∀ c ∈ (exponent.elim [] exponentText ++ rest).head?,
      c.isDigit = false ∧ c ≠ '.' := by
    intro c hc
    cases exponent with
    | none => exact ⟨(hrest c hc).1, (hrest c hc).2.1⟩
    | some e =>
      obtain rfl : 'e' = c := Option.some.inj hc
      decide
  have hfraction := readFraction_append ht.fraction hstop
  have hpoint : ∀ c ∈ ((fraction.elim [] fun digits => '.' :: digits) ++
      (exponent.elim [] exponentText ++ rest)).head?, c.isDigit = false := by
    intro c hc
    cases fraction with
    | none => exact (hstop c hc).1
    | some digits =>
      obtain rfl : '.' = c := Option.some.inj hc
      decide
  have hwhole := readWhole_append ht.nonempty ht.whole ht.leading hpoint
  simp only [readNumber, NumberToken.text, List.append_assoc, Option.bind_eq_bind,
    splitMinus_append negative ht.nonempty ht.whole, hwhole, hfraction, hexponent,
    Option.bind_some]
  rfl

/-! ### Integers -/

/-- The token of an integer. -/
def integerToken (n : Int) : NumberToken := ⟨decide (n < 0), decimalDigits n.natAbs, none, none⟩

theorem decimalDigits_leading (n : Nat) :
    decimalDigits n = ['0'] ∨ (decimalDigits n).head? ≠ some '0' := by
  by_cases hn : n = 0
  · exact .inl (hn ▸ Nat.toDigits_zero 10)
  · obtain ⟨c, cs, hcs, hc⟩ := decimalDigits_eq_cons (Nat.pos_of_ne_zero hn)
    rw [hcs]
    exact .inr fun h => hc (Option.some.inj h)

theorem wellFormed_integerToken (n : Int) : (integerToken n).WellFormed where
  whole _ hc := isDigit_of_mem_decimalDigits hc
  nonempty := Nat.toDigits_ne_nil
  leading := decimalDigits_leading n.natAbs
  fraction _ hdigits := absurd hdigits (by simp [integerToken])

theorem text_integerToken (n : Int) : (integerToken n).text = writeInteger n := by
  by_cases hn : n < 0 <;> simp [integerToken, NumberToken.text, writeInteger, hn]

theorem integer?_integerToken (n : Int) : (integerToken n).integer? = some n := by
  simp only [NumberToken.integer?, integerToken, digitsValue_decimalDigits, decide_eq_true_eq]
  split_ifs with hn hzero
  · omega
  · congr 1
    omega
  · congr 1
    omega

/-! ### Decimals -/

/-- The token of digits with the last one at the place `10 ^ exponent`, written positionally. -/
def positionalToken (negative : Bool) (digits : List Char) (exponent : Int) : NumberToken :=
  let places := (-exponent).toNat
  if 0 ≤ exponent then ⟨negative, digits ++ List.replicate exponent.toNat '0', some ['0'], none⟩
  else if places < digits.length then
    ⟨negative, digits.take (digits.length - places), some (digits.drop (digits.length - places)),
      none⟩
  else ⟨negative, ['0'], some (List.replicate (places - digits.length) '0' ++ digits), none⟩

/-- The token of digits with the leading one at the place `10 ^ place`, written with an exponent. -/
def scientificToken (negative : Bool) (digits : List Char) (place : Int) : NumberToken :=
  ⟨negative, digits.take 1, if digits.length ≤ 1 then none else some (digits.drop 1), some place⟩

/-- The token that a decimal is written as in a data file. -/
def decimalToken (negative : Bool) (d : Decimal) : NumberToken :=
  let digits := decimalDigits d.digits
  let place := d.exponent + (digits.length - 1 : Nat)
  if NumberLayout.data.isPositional place then positionalToken negative digits d.exponent
  else scientificToken negative digits place

theorem text_positionalToken (negative : Bool) (digits : List Char) (exponent : Int) :
    (positionalToken negative digits exponent).text =
      (if negative then ['-'] else []) ++ writePositional ['.', '0'] digits exponent := by
  generalize hsign : (if negative then ['-'] else []) = sign
  rw [positionalToken, writePositional]
  by_cases hwhole : 0 ≤ exponent
  · simp [NumberToken.text, hwhole, hsign]
  · by_cases hplaces : (-exponent).toNat < digits.length
    · simp [NumberToken.text, hwhole, hplaces, hsign]
    · simp [NumberToken.text, hwhole, hplaces, hsign]

theorem text_scientificToken (negative : Bool) (digits : List Char) (place : Int) :
    (scientificToken negative digits place).text =
      (if negative then ['-'] else []) ++ writeScientific digits place := by
  generalize hsign : (if negative then ['-'] else []) = sign
  rw [scientificToken, writeScientific]
  by_cases hlength : digits.length ≤ 1
  · simp [NumberToken.text, exponentText, hlength, hsign]
  · simp [NumberToken.text, exponentText, hlength, hsign]

theorem text_decimalToken (negative : Bool) (d : Decimal) :
    (decimalToken negative d).text = (if negative then ['-'] else []) ++ d.write .data := by
  rw [decimalToken, Decimal.write]
  by_cases hpositional : NumberLayout.data.isPositional
      (d.exponent + ((decimalDigits d.digits).length - 1 : Nat)) = true
  · rw [if_pos hpositional, if_pos hpositional]
    exact text_positionalToken negative (decimalDigits d.digits) d.exponent
  · rw [if_neg hpositional, if_neg hpositional]
    exact text_scientificToken negative (decimalDigits d.digits) _

section Digits

variable {c : Char} {cs : List Char} (hc : c ≠ '0')
  (hdigits : ∀ x ∈ c :: cs, x.isDigit = true)

include hc hdigits

theorem wellFormed_positionalToken (negative : Bool) (exponent : Int) :
    (positionalToken negative (c :: cs) exponent).WellFormed := by
  have hhead : (c :: cs).head? ≠ some '0' := fun h => hc (Option.some.inj h)
  rw [positionalToken]
  split_ifs with hwhole hplaces
  · refine ⟨fun x hx => ?_, by simp, .inr hhead, fun f hf => ?_⟩
    · rcases List.mem_append.1 hx with hx | hx
      · exact hdigits x hx
      · rw [List.eq_of_mem_replicate hx]
        rfl
    · obtain rfl := Option.some.inj hf
      exact ⟨by simp, by simp⟩
  · obtain ⟨k, hk⟩ : ∃ k, (c :: cs).length - (-exponent).toNat = k + 1 :=
      ⟨(c :: cs).length - (-exponent).toNat - 1, by omega⟩
    rw [hk]
    refine ⟨fun x hx => hdigits x (List.mem_of_mem_take hx), by simp, .inr hhead, fun f hf => ?_⟩
    obtain rfl := Option.some.inj hf
    refine ⟨fun hnil => ?_, fun x hx => hdigits x (List.mem_of_mem_drop hx)⟩
    have hlength := List.drop_eq_nil_iff.1 hnil
    omega
  · refine ⟨by simp, by simp, .inl rfl, fun f hf => ?_⟩
    obtain rfl := Option.some.inj hf
    refine ⟨by simp, fun x hx => ?_⟩
    rcases List.mem_append.1 hx with hx | hx
    · rw [List.eq_of_mem_replicate hx]
      rfl
    · exact hdigits x hx

theorem wellFormed_scientificToken (negative : Bool) (place : Int) :
    (scientificToken negative (c :: cs) place).WellFormed := by
  have hhead : ([c] : List Char).head? ≠ some '0' := fun h => hc (Option.some.inj h)
  refine ⟨fun x hx => hdigits x (List.mem_of_mem_take hx), by simp [scientificToken], .inr hhead,
    fun f hf => ?_⟩
  rw [scientificToken] at hf
  simp only at hf
  split_ifs at hf with hlength
  · cases hf
  · obtain rfl := Option.some.inj hf
    refine ⟨fun hnil => ?_, fun x hx => hdigits x (List.mem_of_mem_drop hx)⟩
    have := List.drop_eq_nil_iff.1 hnil
    omega

end Digits

theorem wellFormed_decimalToken (negative : Bool) {d : Decimal} (hd : 0 < d.digits) :
    (decimalToken negative d).WellFormed := by
  obtain ⟨c, cs, hcs, hc⟩ := decimalDigits_eq_cons hd
  have hdigits : ∀ x ∈ c :: cs, x.isDigit = true := by
    intro x hx
    rw [← hcs] at hx
    exact isDigit_of_mem_decimalDigits hx
  rw [decimalToken, hcs]
  split_ifs
  · exact wellFormed_positionalToken hc hdigits ..
  · exact wellFormed_scientificToken hc hdigits ..

theorem digitsValue_replicate_append (k : Nat) (ds : List Char) :
    Numeral.digitsValue (List.replicate k '0' ++ ds) = Numeral.digitsValue ds := by
  rw [Numeral.digitsValue, Nat.ofDigitChars_append, Nat.ofDigitChars_replicate_zero, Nat.mul_zero,
    Numeral.digitsValue]

theorem digitsValue_append_replicate (ds : List Char) (k : Nat) :
    Numeral.digitsValue (ds ++ List.replicate k '0') = Numeral.digitsValue ds * 10 ^ k := by
  rw [Numeral.digitsValue, Nat.ofDigitChars_append, Nat.ofDigitChars_replicate_zero, Nat.mul_comm,
    Numeral.digitsValue]

/-- The numeral `n` has the digits given, after zeros or before `k` zeros, and the last of the
digits given is at the place `10 ^ exponent`. -/
structure Spells (n : Numeral) (negative : Bool) (digits : List Char) (exponent : Int) (k : Nat) :
    Prop where
  /-- The sign is the one given. -/
  negative_eq : n.negative = negative
  /-- The zeros at the end multiply the value. -/
  value : Numeral.digitsValue n.digits = Numeral.digitsValue digits * 10 ^ k
  /-- The zeros at the end lower the place. -/
  place : n.exponent = exponent - k
  /-- There are not many zeros. -/
  length : n.digits.length ≤ max digits.length (-exponent).toNat + k + 1

theorem spells_positionalToken (negative : Bool) (digits : List Char) {exponent : Int}
    (hplace : exponent + (digits.length - 1 : Nat) ≤ 15) :
    ∃ k ≤ 16, Spells (positionalToken negative digits exponent).plainNumeral negative digits
      exponent k := by
  rw [positionalToken]
  split_ifs with hwhole hplaces
  · refine ⟨exponent.toNat + 1, by omega, rfl, ?_, ?_, ?_⟩
    · rw [← digitsValue_append_replicate, List.replicate_succ', ← List.append_assoc]
      rfl
    · show (0 : Int) - 1 = exponent - (exponent.toNat + 1 : Nat)
      omega
    · simp [NumberToken.plainNumeral]
      omega
  · refine ⟨0, by omega, rfl, ?_, ?_, ?_⟩
    · simp [NumberToken.plainNumeral]
    · simp [NumberToken.plainNumeral]
      omega
    · simp [NumberToken.plainNumeral]
      omega
  · refine ⟨0, by omega, rfl, ?_, ?_, ?_⟩
    · rw [Nat.pow_zero, Nat.mul_one]
      exact digitsValue_replicate_append ((-exponent).toNat - digits.length + 1) digits
    · simp [NumberToken.plainNumeral]
      omega
    · simp [NumberToken.plainNumeral]
      omega

theorem spells_scientificToken (negative : Bool) {digits : List Char} (hne : digits ≠ [])
    (exponent : Int) :
    Spells (scientificToken negative digits (exponent + (digits.length - 1 : Nat))).plainNumeral
      negative digits exponent 0 := by
  have hlength := List.length_pos_iff.2 hne
  by_cases hone : digits.length ≤ 1
  · have htake : digits.take 1 = digits := List.take_of_length_le hone
    refine ⟨rfl, ?_, ?_, ?_⟩ <;> simp [NumberToken.plainNumeral, scientificToken, hone, htake]
    omega
  · have hsplit : digits.take 1 ++ digits.drop 1 = digits := List.take_append_drop 1 digits
    refine ⟨rfl, ?_, ?_, ?_⟩ <;>
      simp only [NumberToken.plainNumeral, scientificToken, if_neg hone, Option.getD_some, hsplit,
        List.length_drop]
    · omega
    · omega
    · omega

/-- The numeral of a decimal as it is written is the decimal with some zeros. -/
theorem spells_decimalToken (negative : Bool) (d : Decimal) :
    ∃ k ≤ 16, Spells (decimalToken negative d).plainNumeral negative (decimalDigits d.digits)
      d.exponent k := by
  rw [decimalToken]
  split_ifs with hpositional
  · refine spells_positionalToken negative _ ?_
    simp only [NumberLayout.isPositional, NumberLayout.data, Option.all_some, Bool.and_eq_true,
      decide_eq_true_eq] at hpositional
    exact hpositional.2
  · exact ⟨0, by omega, spells_scientificToken negative Nat.toDigits_ne_nil d.exponent⟩

/-! ### Numbers -/

theorem value_spells (d : Decimal) (k : Nat) :
    Binary64.raised (d.digits * 10 ^ k) (d.exponent - k) * Binary64.lowered d.exponent =
      Binary64.raised d.digits d.exponent * Binary64.lowered (d.exponent - k) := by
  have hplaces : k + (d.exponent - k).toNat + (-d.exponent).toNat =
      d.exponent.toNat + (-(d.exponent - k)).toNat := by omega
  rw [Binary64.raised_eq, Binary64.raised_eq, Binary64.lowered_eq, Binary64.lowered_eq,
    Nat.mul_assoc, Nat.mul_assoc, Nat.mul_assoc, ← pow_add, ← pow_add, ← pow_add, ← hplaces]
  congr 2
  omega

/-- A numeral that spells a decimal that reads back has the magnitude that it reads back as. -/
theorem magnitude_of_spells {n : Numeral} {negative : Bool} {d : Decimal} {m k : Nat}
    (hn : Spells n negative (decimalDigits d.digits) d.exponent k) (hpos : 0 < m)
    (hm : m < Binary64.infinityMagnitude)
    (hreads : Binary64.readsBack m d.digits d.exponent = true) (hhigh : n.exponent ≤ 400)
    (hlow : -400 ≤ n.exponent + n.digits.length) : n.magnitude = m := by
  have hdigits := Binary64.digits_pos_of_readsBack hreads
  have hvalue := hn.value
  rw [digitsValue_decimalDigits] at hvalue
  rw [Numeral.magnitude, hvalue,
    if_neg (Nat.ne_of_gt (Nat.mul_pos hdigits (Nat.pow_pos (by decide)))), if_neg (by omega),
    if_neg (by omega), hn.place,
    ← Binary64.nearestMagnitude_of_readsBack hpos (Nat.le_of_lt hm) hreads]
  exact Binary64.nearestMagnitude_congr (Binary64.lowered_pos _) (Binary64.lowered_pos _)
    (value_spells d k)

/-- A token whose numeral is a decimal that reads back is read back. -/
theorem binary64?_of_spells {t : NumberToken} {negative : Bool} {d : Decimal} {m k : Nat}
    (ht : Spells t.plainNumeral negative (decimalDigits d.digits) d.exponent k) (hk : k ≤ 16)
    (hpos : 0 < m) (hm : m < Binary64.infinityMagnitude)
    (hreads : Binary64.readsBack m d.digits d.exponent = true)
    (hlow : -Binary64.finePlaces ≤ d.exponent) (hhigh : d.exponent ≤ 400) :
    t.binary64? = some (.ofMagnitude negative m) := by
  have hlength : (decimalDigits d.digits).length ≤ Binary64.digitBound + 1 := by
    have hle := Binary64.digits_le_of_readsBack hm hlow hreads
    generalize Binary64.digitBound = bound at hle ⊢
    refine (Nat.length_toDigits_le_iff (by decide) (Nat.succ_pos bound)).2 ?_
    exact Nat.lt_of_le_of_lt hle (Nat.pow_lt_pow_succ (by decide))
  have hlong := ht.length
  rw [Binary64.finePlaces] at hlow
  rw [Binary64.digitBound, Binary64.wholeDigits, Binary64.finePlaces] at hlength
  have hplain : t.toNumeral = t.plainNumeral := by
    rw [NumberToken.toNumeral, if_pos]
    rw [NumberToken.digitLimit]
    omega
  have hplace := ht.place
  have hmagnitude : t.plainNumeral.magnitude = m :=
    magnitude_of_spells ht hpos hm hreads (by omega) (by omega)
  have hweight : m < Binary64.signWeight := Nat.lt_trans hm (by decide)
  have hfinite : (Binary64.ofMagnitude negative m).isFinite = true := by
    refine decide_eq_true ?_
    rwa [Binary64.magnitude_ofMagnitude hweight]
  rw [NumberToken.binary64?, hplain, Numeral.toBinary64, hmagnitude, ht.negative_eq, if_pos hfinite]

/-- The token that a number is written as in a data file. -/
def numberToken (x : Binary64) : NumberToken :=
  if x.magnitude = 0 then ⟨x.isNegative, ['0'], some ['0'], none⟩
  else decimalToken x.isNegative (Binary64.shortest .even x.magnitude)

theorem text_numberToken {x : Binary64} (hx : x.isFinite = true) :
    (numberToken x).text = writeNumber x := by
  have hmagnitude := of_decide_eq_true hx
  have hnumber : x.isNaN = false := decide_eq_false (by omega)
  rw [writeNumber, if_pos hx, Binary64.write, hnumber, if_neg Bool.false_ne_true, if_pos hx,
    String.toList_ofList, numberToken, Binary64.writeMagnitude]
  by_cases hzero : x.magnitude = 0
  · rw [if_pos hzero, if_pos hzero]
    cases x.isNegative <;> rfl
  · rw [if_neg hzero, if_neg hzero]
    exact text_decimalToken x.isNegative _

theorem wellFormed_numberToken {x : Binary64} (hx : x.isFinite = true) :
    (numberToken x).WellFormed := by
  rw [numberToken]
  split_ifs with hzero
  · refine ⟨by simp, by simp, .inl rfl, fun f hf => ?_⟩
    obtain rfl := Option.some.inj hf
    exact ⟨by simp, by simp⟩
  · have hspec := Binary64.shortest_spec .even (Nat.pos_of_ne_zero hzero) (of_decide_eq_true hx)
    exact wellFormed_decimalToken _ (Binary64.digits_pos_of_readsBack hspec.1)

/-- **A finite number is read back from its text with all its bits.** -/
theorem binary64?_numberToken {x : Binary64} (hx : x.isFinite = true) :
    (numberToken x).binary64? = some x := by
  have hmagnitude := of_decide_eq_true hx
  have hparts := Binary64.ofMagnitude_magnitude x
  rw [numberToken]
  split_ifs with hzero
  · rw [hzero] at hparts
    have hfinite : (Binary64.ofMagnitude x.isNegative 0).isFinite = true := by rwa [hparts]
    show (if (Binary64.ofMagnitude x.isNegative 0).isFinite = true then
      some (Binary64.ofMagnitude x.isNegative 0) else none) = some x
    rw [if_pos hfinite, hparts]
  · obtain ⟨hreads, hlow, hhigh⟩ :=
      Binary64.shortest_spec .even (Nat.pos_of_ne_zero hzero) hmagnitude
    obtain ⟨k, hk, hspells⟩ :=
      spells_decimalToken x.isNegative (Binary64.shortest .even x.magnitude)
    rw [binary64?_of_spells hspells hk (Nat.pos_of_ne_zero hzero) hmagnitude hreads hlow hhigh,
      hparts]

end FullText.Json
