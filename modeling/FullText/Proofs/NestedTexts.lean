import FullText.Proofs.JsonContinuation
import FullText.Proofs.LowerCase

/-!
# Texts of values inside other texts

The text of a JSON value may be put into a longer text: white space may stand around it, and it may
be one of the texts of an array. It is taken apart there as it is alone. What follows it is a comma,
a bracket or white space, so a number at its end does not go on. In an array there is one container
more around the value, and this is all that can keep it from being read: a text in which no more
than 126 containers are nested has its value in an array, too.

## Main definitions

* `Json.Raw.nesting` : how deep the containers of a text are nested.
* `Json.Padded` : a text with white space around it.
* `Json.ArrayText` : a text is an array of given texts.

## Main results

* `Json.Raw.parse?_padded` : white space around a text does not matter.
* `Json.Raw.parse?_arrayText` : an array is taken apart into what its texts are taken apart into.
* `Json.parse?_arrayText` : **the values of an array are the values of its texts.**
* `Json.Raw.head_of_parse?` : what a text starts with.
-/

namespace FullText.Json

/-! ### Nesting -/

mutual

/-- How many containers are nested inside one another. Those in a member of an object count even if
a later member has the same key. -/
def Raw.nesting : Raw → Nat
  | .array items => Raw.nestings items + 1
  | .object members => Raw.memberNestings members + 1
  | _ => 0

/-- The greatest nesting of items. -/
def Raw.nestings : List Raw → Nat
  | [] => 0
  | r :: rest => max r.nesting (Raw.nestings rest)

/-- The greatest nesting of members. -/
def Raw.memberNestings : List (List Piece × Raw) → Nat
  | [] => 0
  | (_, r) :: rest => max r.nesting (Raw.memberNestings rest)

end

namespace Raw

mutual

/-- The value does not depend on the limit of the nesting, if it is kept. -/
theorem value?_eq_of_nesting_le {d e : Nat} :
    (r : Raw) → r.nesting ≤ d → r.nesting ≤ e → r.value? d = r.value? e
  | .null, _, _ | .bool _, _, _ | .number _, _, _ | .string _, _, _ => by simp only [value?]
  | .array items, hd, he => by
    rw [nesting] at hd he
    obtain ⟨d, rfl⟩ := Nat.exists_eq_add_of_le' (Nat.lt_of_lt_of_le (Nat.succ_pos _) hd)
    obtain ⟨e, rfl⟩ := Nat.exists_eq_add_of_le' (Nat.lt_of_lt_of_le (Nat.succ_pos _) he)
    rw [value?, value?, values?_eq_of_nestings_le items (Nat.le_of_succ_le_succ hd)
      (Nat.le_of_succ_le_succ he)]
  | .object members, hd, he => by
    rw [nesting] at hd he
    obtain ⟨d, rfl⟩ := Nat.exists_eq_add_of_le' (Nat.lt_of_lt_of_le (Nat.succ_pos _) hd)
    obtain ⟨e, rfl⟩ := Nat.exists_eq_add_of_le' (Nat.lt_of_lt_of_le (Nat.succ_pos _) he)
    rw [value?, value?, memberValues?_eq_of_nestings_le members (Nat.le_of_succ_le_succ hd)
      (Nat.le_of_succ_le_succ he)]

theorem values?_eq_of_nestings_le {d e : Nat} :
    (items : List Raw) → nestings items ≤ d → nestings items ≤ e →
      values? d items = values? e items
  | [], _, _ => by simp only [values?]
  | r :: rest, hd, he => by
    rw [nestings, Nat.max_le] at hd he
    rw [values?, values?, value?_eq_of_nesting_le r hd.1 he.1,
      values?_eq_of_nestings_le rest hd.2 he.2]

theorem memberValues?_eq_of_nestings_le {d e : Nat} :
    (members : List (List Piece × Raw)) → memberNestings members ≤ d →
      memberNestings members ≤ e → memberValues? d members = memberValues? e members
  | [], _, _ => by simp only [memberValues?]
  | (key, r) :: rest, hd, he => by
    rw [memberNestings, Nat.max_le] at hd he
    rw [memberValues?, memberValues?, value?_eq_of_nesting_le r hd.1 he.1,
      memberValues?_eq_of_nestings_le rest hd.2 he.2]

end

end Raw

/-! ### White space around a text -/

/-- A text with white space around it. -/
def Padded (text : String) (padded : List Char) : Prop :=
  ∃ before after, (∀ c ∈ before, isSpace c = true) ∧ (∀ c ∈ after, isSpace c = true) ∧
    padded = before ++ text.toList ++ after

theorem Padded.length_le {text : String} {padded : List Char} (h : Padded text padded) :
    text.toList.length ≤ padded.length := by
  obtain ⟨before, after, -, -, rfl⟩ := h
  rw [List.length_append, List.length_append]
  omega

/-- What it means for a text to be taken apart. -/
theorem Raw.parse?_eq_some_iff {text : String} {r : Raw} :
    Raw.parse? text = some r ↔ ∃ rest,
      readValue (text.toList.length + 1) (skipSpace text.toList) = some (r, rest) ∧
        ∀ c ∈ rest, isSpace c = true := by
  rw [parse?]
  split
  · next v rest hread =>
    rw [hread, Option.ite_none_right_eq_some, List.isEmpty_iff, skipSpace,
      List.dropWhile_eq_nil_iff]
    constructor
    · rintro ⟨hrest, heq⟩
      exact ⟨rest, by rw [Option.some.inj heq], hrest⟩
    · rintro ⟨rest', heq, hrest⟩
      obtain ⟨rfl, rfl⟩ := Prod.mk.inj (Option.some.inj heq)
      exact ⟨hrest, rfl⟩
  · next hread => simp [hread]

/-- A text that can be taken apart is found with white space around it, if the reader may go as deep
as the text is long. -/
theorem foundBy_of_parse? {text : String} {r : Raw} (h : Raw.parse? text = some r) {depth : Nat}
    (hdepth : text.toList.length < depth) {part : List Char} (hpart : Padded text part) :
    FoundBy (readValue depth) part r := by
  obtain ⟨before, after, hbefore, hafter, rfl⟩ := hpart
  obtain ⟨rest, hread, hrest⟩ := Raw.parse?_eq_some_iff.1 h
  intro tail htail
  have hskip : skipSpace (before ++ text.toList ++ after ++ tail) =
      skipSpace text.toList ++ (after ++ tail) := by
    rw [List.append_assoc, List.append_assoc, skipSpace_append hbefore]
    cases hcut : skipSpace text.toList with
    | nil => rw [hcut, readValue_nil] at hread; cases hread
    | cons c cs => exact skipSpace_append_of_eq_cons hcut _
  refine ⟨rest ++ (after ++ tail), ?_, ?_⟩
  · rw [hskip]
    exact readValue_settled hdepth hread _ fun _ => stops_of_spaces hafter htail
  · rw [skipSpace_append hrest, skipSpace_append hafter]

/-- **White space around a text does not matter.** -/
theorem Raw.parse?_padded {text padded : String} {r : Raw} (h : Raw.parse? text = some r)
    (hpadded : Padded text padded.toList) : Raw.parse? padded = some r := by
  obtain ⟨rest, hread, hrest⟩ :=
    foundBy_of_parse? h (Nat.lt_succ_of_le hpadded.length_le) hpadded [] nofun
  rw [List.append_nil] at hread
  exact Raw.parse?_eq_some_iff.2 ⟨rest, hread, List.dropWhile_eq_nil_iff.1 hrest⟩

/-! ### What a text starts with -/

/-- A value does not start with white space, and only an array starts with a bracket. -/
theorem head_of_readValue {depth : Nat} {text rest : List Char} {r : Raw}
    (h : readValue depth text = some (r, rest)) :
    ∃ c cs, text = c :: cs ∧ Text.isBlank c = false ∧ (c = '[' → ∃ items, r = .array items) := by
  cases depth with
  | zero => cases h
  | succ depth =>
    rw [readValue.eq_def] at h
    simp only at h
    split at h
    · exact ⟨_, _, rfl, rfl, nofun⟩
    · obtain ⟨items, -, heq⟩ := Option.map_eq_some_iff.1 h
      exact ⟨_, _, rfl, rfl, fun _ => ⟨_, (Prod.mk.inj heq).1.symm⟩⟩
    · exact ⟨_, _, rfl, rfl, nofun⟩
    · exact ⟨_, _, rfl, rfl, nofun⟩
    · exact ⟨_, _, rfl, rfl, nofun⟩
    · exact ⟨_, _, rfl, rfl, nofun⟩
    · obtain ⟨token, htoken, -⟩ := Option.map_eq_some_iff.1 h
      cases text with
      | nil => cases htoken
      | cons c cs =>
        refine ⟨c, cs, rfl, ?_⟩
        rcases head_of_readNumber htoken with rfl | hc
        · exact ⟨rfl, nofun⟩
        · refine ⟨Text.isBlank_of_isDigit hc, ?_⟩
          rintro rfl
          cases hc

theorem isBlank_of_isSpace {c : Char} (h : isSpace c = true) : Text.isBlank c = true := by
  simp only [isSpace, Bool.or_eq_true, decide_eq_true_eq] at h
  rcases h with ((rfl | rfl) | rfl) | rfl <;> rfl

/-- **What a text starts with** after all white space: not with a bracket, unless it is an array. -/
theorem Raw.head_of_parse? {text : String} {r : Raw} (h : Raw.parse? text = some r) :
    ∃ c cs, text.toList.dropWhile Text.isBlank = c :: cs ∧
      (c = '[' → ∃ items, r = .array items) := by
  obtain ⟨rest, hread, -⟩ := Raw.parse?_eq_some_iff.1 h
  obtain ⟨c, cs, hskip, hc, harray⟩ := head_of_readValue hread
  refine ⟨c, cs, ?_, harray⟩
  have hspaces : ∀ d ∈ text.toList.takeWhile isSpace, Text.isBlank d = true :=
    fun d hd => isBlank_of_isSpace (List.mem_takeWhile_imp hd)
  rw [skipSpace] at hskip
  rw [← List.takeWhile_append_dropWhile (p := isSpace) (l := text.toList), hskip,
    List.dropWhile_append_of_pos hspaces, List.dropWhile_cons_of_neg (by simp [hc])]

/-! ### Arrays of texts -/

/-- A text is an array of given texts: it has them between brackets, with commas between them, and
white space may stand around each of them and after the brackets. -/
def ArrayText (texts : List String) (text : List Char) : Prop :=
  ∃ parts before after, List.Forall₂ Padded texts parts ∧ (∀ c ∈ before, isSpace c = true) ∧
    (∀ c ∈ after, isSpace c = true) ∧
    text = '[' :: (before ++ ([','].intercalate parts ++ ']' :: after))

theorem length_le_intercalate_of_mem {part : List Char} {parts : List (List Char)}
    (hpart : part ∈ parts) : part.length ≤ ([','].intercalate parts).length := by
  cases parts with
  | nil => cases hpart
  | cons p parts =>
    rw [intercalate_cons, List.length_append]
    rcases List.mem_cons.1 hpart with rfl | hpart
    · exact Nat.le_add_right _ _
    · have hmem : ',' :: part ∈ parts.map (',' :: ·) := List.mem_map_of_mem hpart
      have hle := (List.sublist_flatten_of_mem hmem).length_le
      rw [← List.flatMap_def, List.length_cons] at hle
      omega

/-- The texts of an array are found in it. -/
theorem forall₂_foundBy {texts : List String} {parts : List (List Char)} {raws : List Raw}
    (hparts : List.Forall₂ Padded texts parts)
    (hraws : List.Forall₂ (fun text r => Raw.parse? text = some r) texts raws) {depth : Nat}
    (hdepth : ∀ part ∈ parts, part.length < depth) :
    List.Forall₂ (FoundBy (readValue depth)) parts raws := by
  induction hparts generalizing raws with
  | nil =>
    cases hraws
    exact .nil
  | @cons text part texts parts hpart hparts ih =>
    cases hraws with
    | cons hraw hraws =>
      have hlength := Nat.lt_of_le_of_lt hpart.length_le (hdepth _ List.mem_cons_self)
      exact .cons (foundBy_of_parse? hraw hlength hpart)
        (ih hraws fun p hp => hdepth p (List.mem_cons_of_mem _ hp))

/-- **An array is taken apart into what its texts are taken apart into.** -/
theorem Raw.parse?_arrayText {texts : List String} {raws : List Raw}
    (hraws : List.Forall₂ (fun text r => Raw.parse? text = some r) texts raws) {text : String}
    (htext : ArrayText texts text.toList) : Raw.parse? text = some (.array raws) := by
  obtain ⟨parts, before, after, hparts, hbefore, hafter, heq⟩ := htext
  have hfound : List.Forall₂ (FoundBy (readValue text.toList.length)) parts raws := by
    refine forall₂_foundBy hparts hraws fun part hpart => ?_
    have := length_le_intercalate_of_mem hpart
    rw [heq, List.length_cons, List.length_append, List.length_append, List.length_cons]
    omega
  have hcontainer := readContainer_intercalate (.inl rfl) (readValue_nil _) (readValue_closing _)
    hbefore (List.forall_mem_nil _) hfound after
  rw [List.nil_append] at hcontainer
  refine Raw.parse?_eq_some_iff.2 ⟨after, ?_, hafter⟩
  conv in skipSpace text.toList => rw [heq, skipSpace_cons (by decide)]
  rw [readValue, hcontainer]
  rfl

/-- A text is read as a value, and also if there is one more container around it. -/
structure Nestable (text : String) (value : Json) : Prop where
  /-- The text is read as the value. -/
  parse : Json.parse? text = some value
  /-- There is room for one more container. -/
  nesting : ∀ r ∈ Raw.parse? text, r.nesting ≤ 126

theorem Nestable.exists_raw {text : String} {value : Json} (h : Nestable text value) :
    ∃ r, Raw.parse? text = some r ∧ r.value? nestingLimit = some value ∧
      r.value? 126 = some value := by
  obtain ⟨r, hr, hvalue⟩ := Option.bind_eq_some_iff.1 h.parse
  have hnesting := h.nesting r hr
  exact ⟨r, hr, hvalue,
    (Raw.value?_eq_of_nesting_le r hnesting (Nat.le_succ_of_le hnesting)).trans hvalue⟩

theorem Raw.values?_eq_some {depth : Nat} {raws : List Raw} {values : List Json}
    (h : List.Forall₂ (fun r v => value? depth r = some v) raws values) :
    values? depth raws = some values := by
  induction h with
  | nil => rw [values?]
  | cons hv _ ih =>
    rw [values?, hv, ih]
    rfl

/-- **The values of an array are the values of its texts.** -/
theorem parse?_arrayText {texts : List String} {values : List Json}
    (h : List.Forall₂ Nestable texts values) {text : String}
    (htext : ArrayText texts text.toList) : Json.parse? text = some (.array values) := by
  obtain ⟨raws, hraws, hvalues⟩ : ∃ raws,
      List.Forall₂ (fun text r => Raw.parse? text = some r) texts raws ∧
        List.Forall₂ (fun r v => Raw.value? 126 r = some v) raws values := by
    clear htext
    induction h with
    | nil => exact ⟨[], .nil, .nil⟩
    | cons hone _ ih =>
      obtain ⟨r, hr, -, hvalue⟩ := hone.exists_raw
      obtain ⟨raws, hraws, hvalues⟩ := ih
      exact ⟨r :: raws, .cons hr hraws, .cons hvalue hvalues⟩
  rw [parse?, Raw.parse?_arrayText hraws htext, Option.bind_some, nestingLimit, Raw.value?,
    Raw.values?_eq_some hvalues]
  rfl

end FullText.Json
