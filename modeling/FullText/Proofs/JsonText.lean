import FullText.Proofs.NumberText
import Mathlib.Data.List.Forall2

/-!
# JSON texts read back

The text of a JSON value is taken apart into what the value is made of, with or without indentation.
The two ways of writing differ in white space only, so the text is described by a layout that says
which white space stands where, and reading is shown for every layout. The reader may go as deep as
the text is long, which is deep enough: each part of a container has a shorter text.

## Main definitions

* `Json.Layout`, `Json.Layout.text` : the texts of values in a layout.
* `Json.raw` : what a value is made of.
* `Json.ReadBy`, `Json.FoundBy` : a reader takes a value from a text, or finds it behind white
  space.

## Main results

* `Json.readPieces_flatMap` : a string is read back.
* `Json.readContainer_intercalate` : a container is read if its items are found in their texts.
* `Json.readContainer_enclose` : the same for a container in a layout.
* `Json.readBy_text` : a value is read back in any layout.
* `Json.parse?_compact`, `Json.parse?_pretty` : the same for whole texts.
-/

namespace FullText.Json

/-! ### Strings -/

/-- The piece that a character of a string is written as. -/
def piece (c : Char) : Piece :=
  if c = '\x08' ∨ c = '\x0C' ∨ c = '\n' ∨ c = '\r' ∨ c = '\t' then .char c
  else if c.toNat < 0x20 then .unit c.toNat
  else .char c

theorem readPieces_plain {c : Char} (hquote : c ≠ '"') (hbackslash : c ≠ '\\')
    (hcontrol : ¬ c.toNat < 0x20) (rest : List Char) :
    readPieces (c :: rest) = (readPieces rest).map (Piece.char c).cons := by
  rw [readPieces]
  · rw [if_neg (by simp [hbackslash, hcontrol])]
  · exact hquote
  · exact fun _ _ _ _ _ hc _ => hbackslash hc
  · exact fun _ _ hc _ => hbackslash hc

theorem readPieces_short {letter c : Char} (hletter : letter ≠ 'u') (h : unescape? letter = some c)
    (rest : List Char) :
    readPieces ('\\' :: letter :: rest) = (readPieces rest).map (Piece.char c).cons := by
  rw [readPieces]
  · rw [h]
    cases readPieces rest <;> rfl
  · intro _ _ _ _ _ hu
    exact absurd hu hletter

theorem codeUnit?_control : ∀ n < 0x20,
    codeUnit? '0' '0' (Nat.digitChar (n / 16)) (Nat.digitChar (n % 16)) = some n := by
  decide

theorem readPieces_control {n : Nat} (hn : n < 0x20) (rest : List Char) :
    readPieces ('\\' :: 'u' :: '0' :: '0' :: Nat.digitChar (n / 16) :: Nat.digitChar (n % 16) ::
      rest) = (readPieces rest).map (Piece.unit n).cons := by
  rw [readPieces, codeUnit?_control n hn]
  cases readPieces rest <;> rfl

/-- A character is read back from its escape. -/
theorem readPieces_escape (c : Char) (rest : List Char) :
    readPieces (escape c ++ rest) = (readPieces rest).map (piece c).cons := by
  by_cases hshort : c ∈ ['"', '\\', '\x08', '\x0C', '\n', '\r', '\t']
  · simp only [List.mem_cons, List.not_mem_nil, or_false] at hshort
    rcases hshort with rfl | rfl | rfl | rfl | rfl | rfl | rfl
    all_goals exact readPieces_short (by decide) rfl rest
  · simp only [List.mem_cons, List.not_mem_nil, or_false, not_or] at hshort
    obtain ⟨hquote, hbackslash, hb, hf, hn, hr, ht⟩ := hshort
    by_cases hcontrol : c.toNat < 0x20
    · simpa [escape, escape?, piece, hquote, hbackslash, hb, hf, hn, hr, ht, hcontrol] using
        readPieces_control hcontrol rest
    · simpa [escape, escape?, piece, hquote, hbackslash, hb, hf, hn, hr, ht, hcontrol] using
        readPieces_plain hquote hbackslash hcontrol rest

/-- A string is read back from its text. -/
theorem readPieces_flatMap (cs rest : List Char) :
    readPieces (cs.flatMap escape ++ '"' :: rest) = some (cs.map piece, rest) := by
  induction cs with
  | nil => rw [List.flatMap_nil, List.nil_append, readPieces]; rfl
  | cons c cs ih =>
    rw [List.flatMap_cons, List.append_assoc, readPieces_escape, ih]
    rfl

theorem chars?_control {code : Nat} (h : code < 0x20) (pieces : List Piece) :
    Piece.chars? (.unit code :: pieces) =
      (Piece.chars? pieces).map (Char.ofNat code :: ·) := by
  have hlead : isLeadUnit code = false := by simp [isLeadUnit]; omega
  have htrail : isTrailUnit code = false := by simp [isTrailUnit]; omega
  cases pieces with
  | nil => simp [Piece.chars?, hlead, htrail]
  | cons p pieces => cases p <;> simp [Piece.chars?, hlead, htrail]

/-- The characters of a string are those of its pieces. -/
theorem chars?_map_piece (cs : List Char) : Piece.chars? (cs.map piece) = some cs := by
  induction cs with
  | nil => rw [List.map_nil, Piece.chars?]
  | cons c cs ih =>
    rw [List.map_cons, piece]
    split_ifs with hshort hcontrol
    · rw [Piece.chars?, ih]
      rfl
    · rw [chars?_control hcontrol, ih, Char.ofNat_toNat]
      rfl
    · rw [Piece.chars?, ih]
      rfl

/-! ### Layouts -/

/-- The white space of a layout. -/
structure Layout where
  /-- What stands before an item or closing character inside so many containers. -/
  gap : Nat → List Char
  /-- What stands between a colon and a value. -/
  colonGap : List Char
  /-- There is only white space before an item. -/
  isSpace_gap : ∀ depth, ∀ c ∈ gap depth, isSpace c = true
  /-- There is only white space after a colon. -/
  isSpace_colonGap : ∀ c ∈ colonGap, isSpace c = true

namespace Layout

/-- The layout without white space. -/
def compact : Layout := ⟨fun _ => [], [], by simp, by simp⟩

/-- The layout with a line for each item. -/
def pretty : Layout where
  gap := newLine
  colonGap := [' ']
  isSpace_gap depth c hc := by
    rcases List.mem_cons.1 hc with rfl | hc
    · rfl
    · rw [List.eq_of_mem_replicate hc]
      rfl
  isSpace_colonGap c hc := by
    rw [List.mem_singleton.1 hc]
    rfl

/-- The texts of the parts of a container, given what stands before a part and before the closing
character. -/
def enclose (opening closing : Char) (inner outer : List Char) : List (List Char) → List Char
  | [] => [opening, closing]
  | part :: parts =>
    opening ::
      (inner ++ part ++ (parts.flatMap (fun p => ',' :: (inner ++ p)) ++ outer ++ [closing]))

variable (l : Layout)

mutual

/-- The text of a value inside so many containers. -/
def text (depth : Nat) : Json → List Char
  | .null => ['n', 'u', 'l', 'l']
  | .bool true => ['t', 'r', 'u', 'e']
  | .bool false => ['f', 'a', 'l', 's', 'e']
  | .integer n => writeInteger n
  | .number x => writeNumber x
  | .string s => quote s
  | .array items => enclose '[' ']' (l.gap (depth + 1)) (l.gap depth) (itemTexts (depth + 1) items)
  | .object members =>
    enclose '{' '}' (l.gap (depth + 1)) (l.gap depth) (memberTexts (depth + 1) members)

/-- The texts of the items of an array. -/
def itemTexts (depth : Nat) : List Json → List (List Char)
  | [] => []
  | item :: items => text depth item :: itemTexts depth items

/-- The texts of the members of an object. -/
def memberTexts (depth : Nat) : List (String × Json) → List (List Char)
  | [] => []
  | (key, value) :: members =>
    (quote key ++ ':' :: (l.colonGap ++ text depth value)) :: memberTexts depth members

end

end Layout

mutual

theorem compactChars_eq (depth : Nat) : (v : Json) → v.compactChars = Layout.compact.text depth v
  | .null => rfl
  | .bool true => rfl
  | .bool false => rfl
  | .integer _ => rfl
  | .number _ => rfl
  | .string _ => rfl
  | .array [] => rfl
  | .array (item :: items) => by
    rw [compactChars, compactChars_eq (depth + 1) item, compactItems_eq (depth + 1) items]
    simp [Layout.text, Layout.itemTexts, Layout.enclose, Layout.compact]
  | .object [] => rfl
  | .object ((key, value) :: members) => by
    rw [compactChars, compactChars_eq (depth + 1) value, compactMembers_eq (depth + 1) members]
    simp [Layout.text, Layout.memberTexts, Layout.enclose, Layout.compact]

theorem compactItems_eq (depth : Nat) : (items : List Json) →
    compactItems items = (Layout.compact.itemTexts depth items).flatMap (fun p => ',' :: p) ++ [']']
  | [] => rfl
  | item :: items => by
    rw [compactItems, compactChars_eq depth item, compactItems_eq depth items]
    simp [Layout.itemTexts]

theorem compactMembers_eq (depth : Nat) : (members : List (String × Json)) →
    compactMembers members =
      (Layout.compact.memberTexts depth members).flatMap (fun p => ',' :: p) ++ ['}']
  | [] => rfl
  | (key, value) :: members => by
    rw [compactMembers, compactChars_eq depth value, compactMembers_eq depth members]
    simp [Layout.memberTexts, Layout.compact]

end

mutual

theorem prettyChars_eq (depth : Nat) : (v : Json) → v.prettyChars depth = Layout.pretty.text depth v
  | .null => rfl
  | .bool true => rfl
  | .bool false => rfl
  | .integer _ => rfl
  | .number _ => rfl
  | .string _ => rfl
  | .array [] => rfl
  | .array (item :: items) => by
    rw [prettyChars, prettyChars_eq (depth + 1) item, prettyItems_eq depth items]
    simp [Layout.text, Layout.itemTexts, Layout.enclose, Layout.pretty]
  | .object [] => rfl
  | .object ((key, value) :: members) => by
    rw [prettyChars, prettyChars_eq (depth + 1) value, prettyMembers_eq depth members]
    simp [Layout.text, Layout.memberTexts, Layout.enclose, Layout.pretty]

theorem prettyItems_eq (depth : Nat) : (items : List Json) →
    prettyItems depth items = (Layout.pretty.itemTexts (depth + 1) items).flatMap
      (fun p => ',' :: (newLine (depth + 1) ++ p)) ++ newLine depth ++ [']']
  | [] => rfl
  | item :: items => by
    rw [prettyItems, prettyChars_eq (depth + 1) item, prettyItems_eq depth items]
    simp [Layout.itemTexts]

theorem prettyMembers_eq (depth : Nat) : (members : List (String × Json)) →
    prettyMembers depth members = (Layout.pretty.memberTexts (depth + 1) members).flatMap
      (fun p => ',' :: (newLine (depth + 1) ++ p)) ++ newLine depth ++ ['}']
  | [] => rfl
  | (key, value) :: members => by
    rw [prettyMembers, prettyChars_eq (depth + 1) value, prettyMembers_eq depth members]
    simp [Layout.memberTexts, Layout.pretty]

end

/-! ### Reading -/

mutual

/-- What the text of a value is taken apart into. -/
def raw : Json → Raw
  | .null => .null
  | .bool b => .bool b
  | .integer n => .number (integerToken n)
  | .number x => if x.isFinite then .number (numberToken x) else .null
  | .string s => .string (s.toList.map piece)
  | .array items => .array (rawItems items)
  | .object members => .object (rawMembers members)

/-- What the items of an array are taken apart into. -/
def rawItems : List Json → List Raw
  | [] => []
  | item :: items => raw item :: rawItems items

/-- What the members of an object are taken apart into. -/
def rawMembers : List (String × Json) → List (List Piece × Raw)
  | [] => []
  | (key, value) :: members => (key.toList.map piece, raw value) :: rawMembers members

end

theorem rawItems_eq (items : List Json) : rawItems items = items.map raw := by
  induction items with
  | nil => rfl
  | cons item items ih => rw [rawItems, ih, List.map_cons]

theorem rawMembers_eq (members : List (String × Json)) :
    rawMembers members = members.map fun e => (e.1.toList.map piece, raw e.2) := by
  induction members with
  | nil => rfl
  | cons e members ih => rw [rawMembers, ih, List.map_cons]

theorem skipSpace_append {gap : List Char} (hgap : ∀ c ∈ gap, isSpace c = true) (rest : List Char) :
    skipSpace (gap ++ rest) = skipSpace rest := List.dropWhile_append_of_pos hgap

theorem skipSpace_cons {c : Char} (hc : isSpace c = false) (rest : List Char) :
    skipSpace (c :: rest) = c :: rest := List.dropWhile_cons_of_neg (by simp [hc])

/-- A text starts with a character that is neither white space nor closes a container. -/
def Opens (text : List Char) : Prop :=
  ∃ c cs, text = c :: cs ∧ isSpace c = false ∧ c ≠ ']' ∧ c ≠ '}'

/-- A reader takes a value from its text, if what follows does not continue a number. -/
def ReadBy {α : Type} (item : Reader α) (text : List Char) (a : α) : Prop :=
  Opens text ∧ ∀ rest, Stops rest → item (text ++ rest) = some (a, rest)

theorem Opens.skipSpace {text : List Char} (h : Opens text) (rest : List Char) :
    skipSpace (text ++ rest) = text ++ rest := by
  obtain ⟨c, cs, rfl, hc, -, -⟩ := h
  exact skipSpace_cons hc _

theorem length_le_flatMap (inner : List Char) (parts : List (List Char)) :
    parts.length ≤ (parts.flatMap fun p => ',' :: (inner ++ p)).length := by
  induction parts with
  | nil => exact Nat.le_refl 0
  | cons p parts ih =>
    simp only [List.flatMap_cons, List.length_append, List.length_cons]
    omega

/-- A reader finds a value in a text that white space may stand around, if what follows does not
continue a number. What it leaves is what follows, but for white space. -/
def FoundBy {α : Type} (item : Reader α) (part : List Char) (a : α) : Prop :=
  ∀ tail, Stops tail →
    ∃ rest, item (skipSpace (part ++ tail)) = some (a, rest) ∧ skipSpace rest = skipSpace tail

theorem stops_of_isSpace {c : Char} (hc : isSpace c = true) (rest : List Char) :
    Stops (c :: rest) := by
  intro d hd
  obtain rfl : c = d := Option.some.inj hd
  simp only [isSpace, Bool.or_eq_true, decide_eq_true_eq] at hc
  rcases hc with ((rfl | rfl) | rfl) | rfl <;> decide

theorem stops_of_spaces {spaces tail : List Char} (hspaces : ∀ c ∈ spaces, isSpace c = true)
    (htail : Stops tail) : Stops (spaces ++ tail) := by
  cases spaces with
  | nil => exact htail
  | cons c spaces => exact stops_of_isSpace (hspaces c List.mem_cons_self) _

theorem stops_cons {c : Char} (hc : c = ',' ∨ c = ']' ∨ c = '}') (rest : List Char) :
    Stops (c :: rest) := by
  intro d hd
  obtain rfl : c = d := Option.some.inj hd
  rcases hc with rfl | rfl | rfl <;> decide

/-- What is read from a text is found in it with white space in front. -/
theorem ReadBy.foundBy {α : Type} {item : Reader α} {text gap : List Char} {a : α}
    (h : ReadBy item text a) (hgap : ∀ c ∈ gap, isSpace c = true) :
    FoundBy item (gap ++ text) a := by
  intro tail htail
  rw [List.append_assoc, skipSpace_append hgap, h.1.skipSpace]
  exact ⟨tail, h.2 tail htail, rfl⟩

/-- All texts but the first have a comma in front. -/
theorem intercalate_cons (p : List Char) (parts : List (List Char)) :
    [','].intercalate (p :: parts) = p ++ parts.flatMap (',' :: ·) := by
  induction parts generalizing p with
  | nil => simp
  | cons q parts ih =>
    rw [List.intercalate_cons_cons, ih, List.flatMap_cons]
    simp

theorem length_le_intercalate (parts : List (List Char)) :
    parts.length ≤ ([','].intercalate parts).length + 1 := by
  cases parts with
  | nil => exact Nat.zero_le _
  | cons p parts =>
    have hlength : parts.length ≤ (parts.flatMap (',' :: ·)).length := length_le_flatMap [] parts
    rw [intercalate_cons, List.length_append, List.length_cons]
    omega

section Containers

variable {α : Type} {item : Reader α} {closing : Char} {inner outer : List Char}
  {parts : List (List Char)} {as : List α} (hclosing : closing = ']' ∨ closing = '}')

include hclosing in
theorem isSpace_closing : isSpace closing = false := by
  rcases hclosing with rfl | rfl <;> decide

theorem readItems_nil (closing : Char) (hnil : item [] = none) (n : Nat) :
    readItems closing item n [] = none := by
  cases n with
  | zero => rfl
  | succ n => rw [readItems, hnil]; rfl

include hclosing in
/-- The items of a container are read from their texts. -/
theorem readItems_intercalate (houter : ∀ c ∈ outer, isSpace c = true)
    (h : List.Forall₂ (FoundBy item) parts as) (hne : parts ≠ []) {n : Nat}
    (hn : parts.length ≤ n) (rest : List Char) :
    readItems closing item n
        (skipSpace ([','].intercalate parts ++ (outer ++ closing :: rest))) = some (as, rest) := by
  induction h generalizing n with
  | nil => exact absurd rfl hne
  | @cons p a parts as hp hps ih =>
    obtain ⟨n, rfl⟩ := Nat.exists_eq_add_of_le' (Nat.lt_of_lt_of_le (Nat.succ_pos _) hn)
    cases parts with
    | nil =>
      cases hps
      obtain ⟨left, hread, hleft⟩ :=
        hp _ (stops_of_spaces houter (stops_cons (.inr hclosing) rest))
      rw [List.intercalate_singleton, readItems, hread]
      simp only [Option.bind_eq_bind, Option.bind_some, hleft, skipSpace_append houter,
        skipSpace_cons (isSpace_closing hclosing), if_true]
      rfl
    | cons q parts =>
      have htext : [','].intercalate (p :: q :: parts) ++ (outer ++ closing :: rest) =
          p ++ ',' :: ([','].intercalate (q :: parts) ++ (outer ++ closing :: rest)) := by
        simp [List.intercalate_cons_cons]
      have hcomma : ',' ≠ closing := by rcases hclosing with rfl | rfl <;> decide
      obtain ⟨left, hread, hleft⟩ := hp _ (stops_cons (.inl rfl) _)
      rw [htext, readItems, hread]
      simp only [Option.bind_eq_bind, Option.bind_some, hleft,
        skipSpace_cons (show isSpace ',' = false by decide), if_neg hcomma, if_true,
        ih (List.cons_ne_nil _ _) (Nat.le_of_succ_le_succ hn)]
      rfl

variable (hnil : item [] = none) (hitem : ∀ rest, item (closing :: rest) = none)

include hclosing hnil hitem in
/-- A container is read from the texts of its items. -/
theorem readContainer_intercalate (hinner : ∀ c ∈ inner, isSpace c = true)
    (houter : ∀ c ∈ outer, isSpace c = true) (h : List.Forall₂ (FoundBy item) parts as)
    (rest : List Char) :
    readContainer closing item (inner ++ ([','].intercalate parts ++ (outer ++ closing :: rest))) =
      some (as, rest) := by
  rw [readContainer, skipSpace_append hinner]
  cases parts with
  | nil =>
    cases h
    rw [List.intercalate_nil, List.nil_append, skipSpace_append houter,
      skipSpace_cons (isSpace_closing hclosing)]
    simp
  | cons p parts =>
    have hlength : (p :: parts).length ≤
        (inner ++ ([','].intercalate (p :: parts) ++ (outer ++ closing :: rest))).length := by
      have := length_le_intercalate (p :: parts)
      simp only [List.length_append, List.length_cons] at this ⊢
      omega
    have hread := readItems_intercalate hclosing houter h (List.cons_ne_nil _ _) hlength rest
    cases hskip : skipSpace ([','].intercalate (p :: parts) ++ (outer ++ closing :: rest)) with
    | nil =>
      rw [hskip, readItems_nil closing hnil] at hread
      cases hread
    | cons c cs =>
      rw [hskip] at hread
      -- No item starts with the closing character.
      have hc : c ≠ closing := by
        rintro rfl
        obtain ⟨n, hn⟩ := Nat.exists_eq_add_of_le' (Nat.lt_of_lt_of_le (Nat.succ_pos _) hlength)
        rw [hn, readItems, hitem] at hread
        cases hread
      simp only [if_neg hc]
      exact hread

variable (hinner : ∀ c ∈ inner, isSpace c = true) (houter : ∀ c ∈ outer, isSpace c = true)

include hclosing hnil hitem hinner houter in
/-- A container is read from the texts of its parts in a layout. -/
theorem readContainer_enclose (hparts : List.Forall₂ (ReadBy item) parts as) (opening : Char)
    (rest : List Char) :
    ∃ body, Layout.enclose opening closing inner outer parts ++ rest = opening :: body ∧
      readContainer closing item body = some (as, rest) := by
  have hfound : List.Forall₂ (FoundBy item) (parts.map (inner ++ ·)) as := by
    rw [List.forall₂_map_left_iff]
    exact hparts.imp fun _ _ h => h.foundBy hinner
  cases parts with
  | nil =>
    cases hparts
    refine ⟨closing :: rest, rfl, ?_⟩
    rw [readContainer, skipSpace_cons (isSpace_closing hclosing)]
    simp
  | cons p parts =>
    refine ⟨_, ?_, readContainer_intercalate hclosing hnil hitem (List.forall_mem_nil _) houter
      hfound rest⟩
    rw [List.map_cons, intercalate_cons, List.flatMap_map]
    simp [Layout.enclose]

theorem opens_of_head {c : Char} {cs : List Char} (h : isSpace c = false ∧ c ≠ ']' ∧ c ≠ '}') :
    Opens (c :: cs) := ⟨c, cs, rfl, h⟩

theorem opens_enclose {opening : Char} (hopening : opening = '[' ∨ opening = '{')
    (parts : List (List Char)) : Opens (Layout.enclose opening closing inner outer parts) := by
  cases parts with
  | nil =>
    rcases hopening with rfl | rfl <;> exact opens_of_head (by decide)
  | cons p parts =>
    rcases hopening with rfl | rfl <;> exact opens_of_head (by decide)

include hclosing hnil hitem hinner houter in
/-- A value is read from its text if it starts with a bracket and goes on with the parts of a
container. -/
theorem readBy_enclose {β : Type} {value : Reader β} {make : List α → β} {opening : Char}
    (hopening : opening = '[' ∨ opening = '{')
    (hvalue : ∀ body, value (opening :: body) =
      (readContainer closing item body).map fun r => (make r.1, r.2))
    (hparts : List.Forall₂ (ReadBy item) parts as) :
    ReadBy value (Layout.enclose opening closing inner outer parts) (make as) := by
  refine ⟨opens_enclose hopening parts, fun rest _ => ?_⟩
  obtain ⟨body, hbody, hread⟩ :=
    readContainer_enclose hclosing hnil hitem hinner houter hparts opening rest
  rw [hbody, hvalue, hread, Option.map_some]

end Containers

theorem isSpace_of_isDigit {c : Char} (hc : c.isDigit = true) :
    isSpace c = false ∧ c ≠ ']' ∧ c ≠ '}' := by
  refine ⟨?_, ?_, ?_⟩
  · by_contra hspace
    rw [Bool.not_eq_false] at hspace
    simp only [isSpace, Bool.or_eq_true, decide_eq_true_eq] at hspace
    rcases hspace with ((rfl | rfl) | rfl) | rfl <;> exact absurd hc (by decide)
  · rintro rfl
    exact absurd hc (by decide)
  · rintro rfl
    exact absurd hc (by decide)

theorem head_text {t : NumberToken} (ht : t.WellFormed) :
    ∃ c cs, t.text = c :: cs ∧ (c = '-' ∨ c.isDigit = true) := by
  obtain ⟨negative, whole, fraction, exponent⟩ := t
  cases negative with
  | true => exact ⟨'-', _, rfl, .inl rfl⟩
  | false =>
    cases whole with
    | nil => exact absurd rfl ht.nonempty
    | cons c whole => exact ⟨c, _, rfl, .inr (ht.whole c List.mem_cons_self)⟩

theorem opens_text {t : NumberToken} (ht : t.WellFormed) : Opens t.text := by
  obtain ⟨c, cs, hcs, hc⟩ := head_text ht
  rw [hcs]
  rcases hc with rfl | hc
  · exact opens_of_head (by decide)
  · exact opens_of_head (isSpace_of_isDigit hc)

/-- A value that starts with a minus or a digit is a number. -/
theorem readValue_of_head {c : Char} (hc : c = '-' ∨ c.isDigit = true) (depth : Nat)
    (text : List Char) :
    readValue (depth + 1) (c :: text) =
      (readNumber (c :: text)).map fun r => (.number r.1, r.2) := by
  have hother : c ∉ ['"', '[', '{', 'n', 't', 'f'] := by
    intro hmem
    simp only [List.mem_cons, List.not_mem_nil, or_false] at hmem
    rcases hmem with rfl | rfl | rfl | rfl | rfl | rfl
    all_goals exact absurd hc (by decide)
  simp only [List.mem_cons, List.not_mem_nil, or_false, not_or] at hother
  obtain ⟨hquote, hbracket, hbrace, hn, ht, hf⟩ := hother
  rw [readValue]
  · exact fun _ h => hquote (List.cons.inj h).1
  · exact fun _ h => hbracket (List.cons.inj h).1
  · exact fun _ h => hbrace (List.cons.inj h).1
  · exact fun _ h => hn (List.cons.inj h).1
  · exact fun _ h => ht (List.cons.inj h).1
  · exact fun _ h => hf (List.cons.inj h).1

theorem readValue_number {t : NumberToken} (ht : t.WellFormed) (depth : Nat) {rest : List Char}
    (hrest : Stops rest) :
    readValue (depth + 1) (t.text ++ rest) = some (.number t, rest) := by
  have hread := readNumber_text ht hrest
  obtain ⟨c, cs, hcs, hc⟩ := head_text ht
  rw [hcs, List.cons_append] at hread ⊢
  rw [readValue_of_head hc, hread, Option.map_some]

theorem readValue_string (s : String) (depth : Nat) (rest : List Char) :
    readValue (depth + 1) (quote s ++ rest) = some (.string (s.toList.map piece), rest) := by
  have hpieces := readPieces_flatMap s.toList rest
  rw [quote, List.cons_append, List.append_assoc, readValue]
  simp only [List.cons_append, List.nil_append, hpieces, Option.map_some]

theorem readBy_null (fuel : Nat) : ReadBy (readValue (fuel + 1)) ['n', 'u', 'l', 'l'] .null :=
  ⟨opens_of_head (by decide), fun _ _ => rfl⟩

theorem length_lt_enclose {opening closing : Char} {inner outer : List Char}
    {parts : List (List Char)} {p : List Char} (hp : p ∈ parts) :
    p.length + 1 < (Layout.enclose opening closing inner outer parts).length := by
  cases parts with
  | nil => cases hp
  | cons q parts =>
    have hflat : p = q ∨ p.length ≤ (parts.flatMap fun p => ',' :: (inner ++ p)).length := by
      rcases List.mem_cons.1 hp with rfl | hp
      · exact .inl rfl
      · have hmem := List.mem_map_of_mem (f := fun p => ',' :: (inner ++ p)) hp
        have hle := (List.sublist_flatten_of_mem hmem).length_le
        rw [← List.flatMap_def, List.length_cons, List.length_append] at hle
        exact .inr (by omega)
    simp only [Layout.enclose, List.length_append, List.length_cons, List.length_nil]
    rcases hflat with rfl | hlength
    · omega
    · omega

theorem readMember_append {value : Reader Raw} {gap text : List Char} {r : Raw}
    (hgap : ∀ c ∈ gap, isSpace c = true) (hvalue : ReadBy value text r) (key : String) :
    ReadBy (readMember value) (quote key ++ ':' :: (gap ++ text)) (key.toList.map piece, r) := by
  refine ⟨opens_of_head (by decide), fun rest hrest => ?_⟩
  have hpieces := readPieces_flatMap key.toList (':' :: (gap ++ (text ++ rest)))
  have hcolon : skipSpace (':' :: (gap ++ (text ++ rest))) = ':' :: (gap ++ (text ++ rest)) :=
    skipSpace_cons (by decide) _
  simp only [quote, List.cons_append, List.append_assoc, List.nil_append, readMember, hpieces,
    Option.bind_eq_bind, Option.bind_some, hcolon, skipSpace_append hgap, hvalue.1.skipSpace,
    hvalue.2 rest hrest]
  rfl

theorem readValue_nil (depth : Nat) : readValue depth [] = none := by
  cases depth <;> rfl

theorem readValue_closing (depth : Nat) (rest : List Char) :
    readValue depth (']' :: rest) = none := by
  cases depth <;> rfl

mutual

/-- A value is read back from its text in any layout, if the reader may go as deep as the text is
long and what follows does not continue a number. -/
theorem readBy_text (l : Layout) (depth fuel : Nat) :
    (v : Json) → (l.text depth v).length ≤ fuel →
      ReadBy (readValue (fuel + 1)) (l.text depth v) v.raw
  | .null, _ => readBy_null fuel
  | .bool true, _ => ⟨opens_of_head (by decide), fun rest _ => rfl⟩
  | .bool false, _ => ⟨opens_of_head (by decide), fun rest _ => rfl⟩
  | .integer n, _ => by
    rw [Layout.text, ← text_integerToken]
    exact ⟨opens_text (wellFormed_integerToken n), fun rest hrest =>
      readValue_number (wellFormed_integerToken n) fuel hrest⟩
  | .number x, _ => by
    rw [Layout.text, raw]
    by_cases hx : x.isFinite = true
    · rw [if_pos hx, ← text_numberToken hx]
      exact ⟨opens_text (wellFormed_numberToken hx), fun rest hrest =>
        readValue_number (wellFormed_numberToken hx) fuel hrest⟩
    · rw [if_neg hx, writeNumber, if_neg hx]
      exact readBy_null fuel
  | .string s, _ =>
    ⟨opens_of_head (by decide), fun rest _ => readValue_string s fuel rest⟩
  | .array items, h => by
    rw [Layout.text] at h ⊢
    have hitems := readBy_itemTexts l (depth + 1) fuel items fun t ht =>
      Nat.lt_of_succ_lt (Nat.lt_of_lt_of_le (length_lt_enclose ht) h)
    exact readBy_enclose (.inl rfl) (readValue_nil _) (readValue_closing _)
      (l.isSpace_gap (depth + 1)) (l.isSpace_gap depth) (.inl rfl) (fun _ => rfl) hitems
  | .object members, h => by
    rw [Layout.text] at h ⊢
    have hmembers := readBy_memberTexts l (depth + 1) fuel members fun t ht =>
      Nat.lt_of_succ_lt (Nat.lt_of_lt_of_le (length_lt_enclose ht) h)
    exact readBy_enclose (.inr rfl) rfl (fun _ => rfl) (l.isSpace_gap (depth + 1))
      (l.isSpace_gap depth) (.inr rfl) (fun _ => rfl) hmembers

theorem readBy_itemTexts (l : Layout) (depth fuel : Nat) :
    (items : List Json) → (∀ t ∈ l.itemTexts depth items, t.length < fuel) →
      List.Forall₂ (ReadBy (readValue fuel)) (l.itemTexts depth items) (rawItems items)
  | [], _ => .nil
  | item :: items, h => by
    have hlength := h _ List.mem_cons_self
    obtain ⟨n, rfl⟩ := Nat.exists_eq_succ_of_ne_zero (Nat.ne_zero_of_lt hlength)
    exact .cons (readBy_text l depth n item (Nat.le_of_lt_succ hlength))
      (readBy_itemTexts l depth (n + 1) items fun t ht => h t (List.mem_cons_of_mem _ ht))

theorem readBy_memberTexts (l : Layout) (depth fuel : Nat) :
    (members : List (String × Json)) → (∀ t ∈ l.memberTexts depth members, t.length < fuel) →
      List.Forall₂ (ReadBy (readMember (readValue fuel))) (l.memberTexts depth members)
        (rawMembers members)
  | [], _ => .nil
  | (key, value) :: members, h => by
    have hlength := h _ List.mem_cons_self
    obtain ⟨n, rfl⟩ := Nat.exists_eq_succ_of_ne_zero (Nat.ne_zero_of_lt hlength)
    simp only [List.length_append, List.length_cons] at hlength
    have hvalue := readBy_text l depth n value (by omega)
    exact .cons (readMember_append l.isSpace_colonGap hvalue key)
      (readBy_memberTexts l depth (n + 1) members fun t ht => h t (List.mem_cons_of_mem _ ht))

end

/-! ### Whole texts -/

theorem parse?_layout (l : Layout) (v : Json) :
    Raw.parse? (String.ofList (l.text 0 v)) = some v.raw := by
  have hread := readBy_text l 0 (l.text 0 v).length v (Nat.le_refl _)
  have hskip := hread.1.skipSpace []
  have hvalue := hread.2 [] (fun c hc => by cases hc)
  rw [List.append_nil] at hskip hvalue
  rw [Raw.parse?, String.toList_ofList, hskip, hvalue]
  rfl

/-- **The text without white space is taken apart into what the value is made of.** -/
theorem parse?_compact (v : Json) : Raw.parse? v.compact = some v.raw := by
  rw [compact, compactChars_eq 0]
  exact parse?_layout .compact v

/-- **The indented text is taken apart into the same.** -/
theorem parse?_pretty (v : Json) : Raw.parse? v.pretty = some v.raw := by
  rw [pretty, prettyChars_eq]
  exact parse?_layout .pretty v

end FullText.Json
