import FullText.Document
import FullText.Proofs.NestedTexts

/-!
# The two formats of documents

Documents are given as an array of values or with a value on each line. The format is seen from the
first character that is not white space, and no value but an array starts with a bracket. An array
is taken apart as a whole before any of its values is looked at, while lines are read one by one up
to the first that is refused. If each text is read as a value and no value is nested too deep for an
array, the values are the same, and so is the first of them that is refused.

A line ends with a line feed, with or without a carriage return before it. The carriage return stays
in the line as white space after the value. The line feed is not part of the texts; in a string it
is written as an escape.

## Main definitions

* `Document.LineText` : a text is a value that may stand on a line or in an array.
* `Document.WrittenInLines`, `Document.WrittenInArray` : the texts of documents in each format.

## Main results

* `Document.ofLines_lines` : what is made of lines is made of their values.
* `Document.ofJsons_cases` : either all values are accepted, or the first refused one tells why.
* `Document.parseMany_formats` : **both formats have the same outcome.**
-/

namespace FullText.Document

open Json (isSpace Padded ArrayText Nestable)

variable (referenceField : String)

/-! ### Texts of documents -/

/-- A text is a value that may stand on a line or in an array. -/
structure LineText (text : String) (value : Json) : Prop extends Nestable text value where
  /-- It fits on one line. -/
  lineFeed : '\n' ∉ text.toList
  /-- It is not mistaken for an array of documents. -/
  notArray : ∀ items, value ≠ .array items

/-- A line without a value: white space, if anything. -/
structure BlankLine (line : List Char) : Prop where
  /-- There is only white space. -/
  blank : ∀ c ∈ line, Text.isBlank c = true
  /-- It is one line. -/
  lineFeed : '\n' ∉ line

/-- A text has the given texts on its lines, and blank lines anywhere. The last line need not
end. -/
inductive WrittenInLines : List String → List Char → Prop
  /-- There is no text on the last line. -/
  | last {line : List Char} (hline : BlankLine line) : WrittenInLines [] line
  /-- There is a text on the last line. -/
  | lastText (text : String) : WrittenInLines [text] text.toList
  /-- There is a line without text. -/
  | blank {texts : List String} {line rest : List Char} (hline : BlankLine line)
      (hrest : WrittenInLines texts rest) : WrittenInLines texts (line ++ '\n' :: rest)
  /-- There is a line with a text. -/
  | text {texts : List String} {rest ending : List Char} (text : String)
      (hending : ending = ['\n'] ∨ ending = ['\r', '\n']) (hrest : WrittenInLines texts rest) :
      WrittenInLines (text :: texts) (text.toList ++ ending ++ rest)

/-- A text is an array of the given texts, after any white space. -/
def WrittenInArray (texts : List String) (text : List Char) : Prop :=
  ∃ lead array, (∀ c ∈ lead, Text.isBlank c = true) ∧ ArrayText texts array ∧ text = lead ++ array

/-! ### Lines -/

theorem splitWhere_of_notMem {line : List Char} (hline : '\n' ∉ line) :
    Text.splitWhere (fun c => decide (c = '\n')) line = [line] := by
  refine Text.splitWhere_eq_singleton fun c hc => decide_eq_false ?_
  rintro rfl
  exact hline hc

theorem lines_of_notMem {line : List Char} (hline : '\n' ∉ line) :
    lines (String.ofList line) = [String.ofList line] := by
  rw [lines, String.toList_ofList, splitWhere_of_notMem hline]
  rfl

theorem lines_append {line : List Char} (hline : '\n' ∉ line) (rest : List Char) :
    lines (String.ofList (line ++ '\n' :: rest)) =
      String.ofList line :: lines (String.ofList rest) := by
  rw [lines, String.toList_ofList,
    Text.splitWhere_append_cons (p := fun c => decide (c = '\n')) rfl,
    splitWhere_of_notMem hline, lines, String.toList_ofList]
  rfl

theorem ofLines_blank {line : List Char} (hline : ∀ c ∈ line, Text.isBlank c = true)
    (rest : List String) :
    ofLines referenceField (String.ofList line :: rest) = ofLines referenceField rest := by
  rw [ofLines, if_pos]
  rwa [Text.isBlankText, String.toList_ofList, List.all_eq_true]

/-- A text that stands for a value holds more than white space. -/
theorem LineText.head {text : String} {value : Json} (h : LineText text value) :
    ∃ c cs, text.toList.dropWhile Text.isBlank = c :: cs ∧ c ≠ '[' := by
  obtain ⟨r, hr, hvalue, -⟩ := h.exists_raw
  obtain ⟨c, cs, htext, harray⟩ := Json.Raw.head_of_parse? hr
  refine ⟨c, cs, htext, fun hc => ?_⟩
  obtain ⟨items, rfl⟩ := harray hc
  rw [Json.nestingLimit, Json.Raw.value?] at hvalue
  obtain ⟨values, -, heq⟩ := Option.map_eq_some_iff.1 hvalue
  exact h.notArray values heq.symm

/-- A line with a text is read as its value, whatever white space is left at its end. -/
theorem ofLines_text {text : String} {value : Json} (h : LineText text value) {spaces : List Char}
    (hspaces : ∀ c ∈ spaces, isSpace c = true) (rest : List String) :
    ofLines referenceField (String.ofList (text.toList ++ spaces) :: rest) = (do
      let d ← ofJson value referenceField
      let ds ← ofLines referenceField rest
      return d :: ds) := by
  have hblank : Text.isBlankText (String.ofList (text.toList ++ spaces)) = false := by
    obtain ⟨c, cs, hhead, -⟩ := h.head
    rw [Text.isBlankText, String.toList_ofList, List.all_append, Bool.and_eq_false_iff]
    refine .inl (Bool.eq_false_iff.2 fun hall => ?_)
    rw [List.dropWhile_eq_nil_iff.2 (List.all_eq_true.1 hall)] at hhead
    cases hhead
  have hparse : Json.parse? (String.ofList (text.toList ++ spaces)) = some value := by
    obtain ⟨r, hr, hvalue, -⟩ := h.exists_raw
    have hpadded : Padded text (String.ofList (text.toList ++ spaces)).toList :=
      ⟨[], spaces, nofun, hspaces, String.toList_ofList⟩
    rw [Json.parse?, Json.Raw.parse?_padded hr hpadded]
    exact hvalue
  rw [ofLines, if_neg (Bool.eq_false_iff.1 hblank), hparse]

/-- **What is made of lines is made of their values.** -/
theorem ofLines_lines {texts : List String} {values : List Json} {text : List Char}
    (htext : WrittenInLines texts text) (hvalues : List.Forall₂ LineText texts values) :
    ofLines referenceField (lines (String.ofList text)) = ofJsons referenceField values := by
  induction htext generalizing values with
  | last hline =>
    cases hvalues
    rw [lines_of_notMem hline.lineFeed, ofLines_blank _ hline.blank]
    rfl
  | lastText text =>
    cases hvalues with
    | cons hvalue hvalues =>
      cases hvalues
      have hspaces : ∀ c ∈ [], isSpace c = true := nofun
      have hone := ofLines_text referenceField hvalue hspaces []
      rw [List.append_nil] at hone
      rw [lines_of_notMem hvalue.lineFeed, hone]
      rfl
  | blank hline _ ih => rw [lines_append hline.lineFeed, ofLines_blank _ hline.blank, ih hvalues]
  | @text texts rest ending text hending _ ih =>
    cases hvalues with
    | cons hvalue hvalues =>
      -- The carriage return of the ending is white space at the end of the line.
      obtain ⟨spaces, hspaces, hlineFeed, rfl⟩ : ∃ spaces, (∀ c ∈ spaces, isSpace c = true) ∧
          '\n' ∉ spaces ∧ ending = spaces ++ ['\n'] := by
        rcases hending with rfl | rfl
        · exact ⟨[], nofun, nofun, rfl⟩
        · exact ⟨['\r'], List.forall_mem_singleton.2 rfl, by decide, rfl⟩
      have hline : '\n' ∉ text.toList ++ spaces := fun hmem =>
        (List.mem_append.1 hmem).elim hvalue.lineFeed hlineFeed
      rw [← List.append_assoc, List.append_assoc, List.singleton_append, lines_append hline,
        ofLines_text _ hvalue hspaces, ih hvalues]
      rfl

/-! ### Formats -/

/-- The lines do not start with a bracket. -/
theorem WrittenInLines.head_ne {texts : List String} {values : List Json} {text : List Char}
    (htext : WrittenInLines texts text) (hvalues : List.Forall₂ LineText texts values) :
    (text.dropWhile Text.isBlank).head? ≠ some '[' := by
  have happend {line : String} {value : Json} (hvalue : LineText line value) (rest : List Char) :
      ((line.toList ++ rest).dropWhile Text.isBlank).head? ≠ some '[' := by
    obtain ⟨c, cs, hline, hc⟩ := hvalue.head
    rw [List.dropWhile_append, hline]
    exact fun heq => hc (Option.some.inj heq)
  induction htext generalizing values with
  | last hline =>
    rw [List.dropWhile_eq_nil_iff.2 hline.blank]
    exact nofun
  | lastText text =>
    cases hvalues with
    | cons hvalue hvalues => simpa using happend hvalue []
  | blank hline _ ih =>
    rw [List.dropWhile_append_of_pos hline.blank, List.dropWhile_cons_of_pos rfl]
    exact ih hvalues
  | text text hending _ ih =>
    cases hvalues with
    | cons hvalue hvalues =>
      rw [List.append_assoc]
      exact happend hvalue _

theorem parseMany_of_writtenInLines {texts : List String} {values : List Json} {text : String}
    (htext : WrittenInLines texts text.toList) (hvalues : List.Forall₂ LineText texts values) :
    parseMany text referenceField = ofJsons referenceField values := by
  rw [parseMany, Text.trimStart, String.toList_ofList, if_neg (htext.head_ne hvalues)]
  simpa using ofLines_lines referenceField htext hvalues

theorem parseMany_of_writtenInArray {texts : List String} {values : List Json} {text : String}
    (htext : WrittenInArray texts text.toList) (hvalues : List.Forall₂ Nestable texts values) :
    parseMany text referenceField = ofJsons referenceField values := by
  obtain ⟨lead, array, hlead, harray, heq⟩ := htext
  obtain ⟨body, hbody⟩ : ∃ body, array = '[' :: body := by
    obtain ⟨_, _, _, -, -, -, hbracket⟩ := harray
    exact ⟨_, hbracket⟩
  have htrim : Text.trimStart text = String.ofList array := by
    rw [Text.trimStart, heq, List.dropWhile_append_of_pos hlead, hbody,
      List.dropWhile_cons_of_neg (by decide)]
  have hparse : Json.parse? (String.ofList array) = some (.array values) :=
    Json.parse?_arrayText hvalues (by rwa [String.toList_ofList])
  have hhead : (String.ofList array).toList.head? = some '[' := by
    rw [String.toList_ofList, hbody, List.head?_cons]
  simp only [parseMany, htrim, if_pos hhead, hparse]

/-! ### Outcomes -/

variable {referenceField} in
theorem ofJson_eq_error {value : Json} {e : Error} (h : ofJson value referenceField = .error e) :
    ∃ fault, e = .document fault := by
  rw [ofJson.eq_def] at h
  split at h
  · split at h
    · cases h
    · exact ⟨_, (Except.error.inj h).symm⟩
  · exact ⟨_, (Except.error.inj h).symm⟩

/-- **Either all values are accepted, or the first refused one tells why.** -/
theorem ofJsons_cases (values : List Json) :
    (∃ ds, ofJsons referenceField values = .ok ds ∧
      List.Forall₂ (fun v d => ofJson v referenceField = .ok d) values ds) ∨
    ∃ before v after fault, values = before ++ v :: after ∧
      (∀ u ∈ before, ∃ d, ofJson u referenceField = .ok d) ∧
      ofJson v referenceField = .error (.document fault) ∧
      ofJsons referenceField values = .error (.document fault) := by
  induction values with
  | nil => exact .inl ⟨[], rfl, .nil⟩
  | cons value values ih =>
    cases hvalue : ofJson value referenceField with
    | error e =>
      obtain ⟨fault, rfl⟩ := ofJson_eq_error hvalue
      refine .inr ⟨[], value, values, fault, rfl, nofun, hvalue, ?_⟩
      rw [ofJsons, hvalue]
      rfl
    | ok d =>
      rcases ih with ⟨ds, hds, hall⟩ | ⟨before, v, after, fault, rfl, hbefore, hv, herror⟩
      · refine .inl ⟨d :: ds, ?_, .cons hvalue hall⟩
        rw [ofJsons, hvalue, hds]
        rfl
      · refine .inr ⟨value :: before, v, after, fault, rfl, ?_, hv, ?_⟩
        · exact List.forall_mem_cons.2 ⟨⟨d, hvalue⟩, hbefore⟩
        · rw [ofJsons, hvalue, herror]
          rfl

/-- **Both formats have the same outcome.** The array of some texts and the texts on lines of their
own are read as the same documents, one for each value and in their order, or refused with the same
error, that of the first value that is refused. -/
theorem parseMany_formats {texts : List String} {values : List Json}
    (hvalues : List.Forall₂ LineText texts values) {arrayText linesText : String}
    (harray : WrittenInArray texts arrayText.toList)
    (hlines : WrittenInLines texts linesText.toList) :
    parseMany arrayText referenceField = parseMany linesText referenceField ∧
    ((∃ ds, parseMany arrayText referenceField = .ok ds ∧
        List.Forall₂ (fun v d => ofJson v referenceField = .ok d) values ds) ∨
      ∃ before v after fault, values = before ++ v :: after ∧
        (∀ u ∈ before, ∃ d, ofJson u referenceField = .ok d) ∧
        ofJson v referenceField = .error (.document fault) ∧
        parseMany arrayText referenceField = .error (.document fault)) := by
  have hnestable : List.Forall₂ Nestable texts values :=
    hvalues.imp fun _ _ h => h.toNestable
  rw [parseMany_of_writtenInArray _ harray hnestable, parseMany_of_writtenInLines _ hlines hvalues]
  exact ⟨rfl, ofJsons_cases referenceField values⟩

/-- The text of a document with a line feed in a string. -/
def Sample.firstText : String := "\x7b\"id\": 7, \"body\": \"a\\nb\"\x7d"

/-- The text of a document without fields. -/
def Sample.secondText : String := "\x7b\"id\": \"x\"\x7d"

/-- Both texts as an array, with white space around it and in it. -/
def Sample.array : String := "\n[ " ++ Sample.firstText ++ " ,\n" ++ Sample.secondText ++ "]\n"

/-- Both texts on lines, between blank lines. -/
def Sample.lines : String :=
  " \n" ++ Sample.firstText ++ "\r\n\r\n" ++ Sample.secondText ++ "\n"

theorem lineText_firstText :
    LineText Sample.firstText (.object [("body", .string "a\nb"), ("id", .integer 7)]) :=
  ⟨⟨by cbv, by decide +kernel⟩, by decide +kernel, nofun⟩

theorem lineText_secondText : LineText Sample.secondText (.object [("id", .string "x")]) :=
  ⟨⟨by cbv, by decide +kernel⟩, by decide +kernel, nofun⟩

theorem writtenInArray_array :
    WrittenInArray [Sample.firstText, Sample.secondText] Sample.array.toList := by
  have hspace : ∀ c ∈ [' '], isSpace c = true := List.forall_mem_singleton.2 rfl
  have hfeed : ∀ c ∈ ['\n'], isSpace c = true := List.forall_mem_singleton.2 rfl
  have hfirst : Padded Sample.firstText (Sample.firstText.toList ++ [' ']) :=
    ⟨[], [' '], List.forall_mem_nil _, hspace, rfl⟩
  have hsecond : Padded Sample.secondText ('\n' :: Sample.secondText.toList) :=
    ⟨['\n'], [], hfeed, List.forall_mem_nil _, (List.append_nil _).symm⟩
  exact ⟨['\n'], _, List.forall_mem_singleton.2 rfl,
    ⟨_, [' '], ['\n'], .cons hfirst (.cons hsecond .nil), hspace, hfeed, rfl⟩, by decide +kernel⟩

theorem writtenInLines_lines :
    WrittenInLines [Sample.firstText, Sample.secondText] Sample.lines.toList := by
  have htext : Sample.lines.toList = [' '] ++ '\n' :: (Sample.firstText.toList ++ ['\r', '\n'] ++
      (['\r'] ++ '\n' :: (Sample.secondText.toList ++ ['\n'] ++ []))) := by decide +kernel
  rw [htext]
  exact .blank ⟨List.forall_mem_singleton.2 rfl, by decide⟩ (.text _ (.inr rfl)
    (.blank ⟨List.forall_mem_singleton.2 rfl, by decide⟩
      (.text _ (.inl rfl) (.last ⟨List.forall_mem_nil _, List.not_mem_nil⟩))))

/-- Two documents in both formats. -/
theorem parseMany_formats_sample :
    parseMany Sample.array "id" = parseMany Sample.lines "id" ∧
      parseMany Sample.lines "id" = .ok [⟨"7", .ofList [("body", "a\nb")]⟩, ⟨"x", .empty⟩] := by
  have hvalues := List.Forall₂.cons lineText_firstText (.cons lineText_secondText .nil)
  refine ⟨(parseMany_formats "id" hvalues writtenInArray_array writtenInLines_lines).1, ?_⟩
  rw [parseMany_of_writtenInLines _ writtenInLines_lines hvalues]
  cbv

end FullText.Document
