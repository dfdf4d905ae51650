import FullText.Proofs.ByteOrder
import FullText.Proofs.JsonContinuation
import FullText.Proofs.SnapshotRoundTrip
import FullText.Snapshot.File

/-!
# Snapshots that are cut short

A snapshot that is cut short, wherever the cut is, is not read as an index. The bytes of a snapshot
do not mark its end, but each reader knows what is to come, so whatever it finds in some bytes it
finds in all longer ones as well, and leaves all that was added. A part of a snapshot that could be
read would leave the other part of the whole snapshot, of which nothing is left. The JSON text is an
object, which ends with its last brace.

## Main definitions

* `Bytes.Delimited` : what a reader finds in some bytes it finds in all longer ones.

## Main results

* `Snapshot.read_delimited` : this is so for snapshots.
* `Snapshot.read_eq_none_of_cut`, `Snapshot.parse?_eq_none_of_cut` : a snapshot that is cut
  short is not read.
* `Index.truncated_snapshots` : it is not an index in any of the formats, nor in a file.
-/

namespace FullText

namespace Bytes

variable {α β : Type} {read : Reader α}

/-- What a reader finds in some bytes it finds in all longer ones, and leaves what was added. -/
structure Delimited (read : Reader α) : Prop where
  /-- What is read is read from longer bytes as well. -/
  append : ∀ {bytes a rest}, read bytes = some (a, rest) →
    ∀ more, read (bytes ++ more) = some (a, rest ++ more)

/-! ### Steps of readers -/

/-- Reading one thing after another, of which the first decides about the second. -/
theorem Delimited.bind {next : α → Reader β} (h : Delimited read)
    (hnext : ∀ a, Delimited (next a)) :
    Delimited fun bytes => (read bytes).bind fun r => next r.1 r.2 where
  append hread more := by
    obtain ⟨⟨a, rest'⟩, ha, hb⟩ := Option.bind_eq_some_iff.1 hread
    simp only [h.append ha, Option.bind_some]
    exact (hnext a).append hb more

/-- Something that is read may make no sense. -/
theorem delimited_lift (o : Option α) :
    Delimited fun bytes => o.bind fun a => some (a, bytes) where
  append hread more := by
    obtain ⟨a', rfl, h⟩ := Option.bind_eq_some_iff.1 hread
    cases h
    rfl

theorem delimited_pure (a : α) : Delimited fun bytes => some (a, bytes) := delimited_lift (some a)

/-! ### Numbers, texts and lists -/

theorem take_delimited (count : Nat) : Delimited (take count) where
  append {bytes digits rest} h more := by
    rw [take] at h ⊢
    split at h
    · cases h
    · next hlength =>
      rw [List.splitAt_eq, Option.some.injEq, Prod.mk.injEq] at h
      obtain ⟨rfl, rfl⟩ := h
      rw [if_neg (by rw [List.length_append]; omega), List.splitAt_eq,
        List.take_append_of_le_length (by omega), List.drop_append_of_le_length (by omega)]

theorem readNat_delimited (count : Nat) : Delimited (readNat count) := by
  -- By definition a reader is a sequence of steps. The unifier does not take it apart by itself, so
  -- here and below the sequence is put together first.
  have h := (take_delimited count).bind fun digits => delimited_pure (toNat digits)
  exact h

theorem readUInt32_delimited : Delimited readUInt32 := by
  have h := (readNat_delimited 4).bind fun n => delimited_pure (UInt32.ofNat n)
  exact h

theorem readUInt64_delimited : Delimited readUInt64 := by
  have h := (readNat_delimited 8).bind fun n => delimited_pure (UInt64.ofNat n)
  exact h

theorem readBool_delimited : Delimited readBool where
  append {bytes b rest} h more := by
    cases bytes with
    | nil => cases h
    | cons byte bytes =>
      rw [List.cons_append]
      simp only [readBool] at h ⊢
      split_ifs at h ⊢ <;> cases h <;> rfl

theorem readString_delimited : Delimited readString := by
  have h := (readNat_delimited 8).bind fun length =>
    (take_delimited length).bind fun text => delimited_lift (String.fromUTF8? text.toByteArray)
  exact h

theorem Delimited.readMany (h : Delimited read) (count : Nat) :
    Delimited (Bytes.readMany read count) := by
  induction count with
  | zero => exact delimited_pure []
  | succ count ih =>
    have hnext := h.bind fun a => ih.bind fun as => delimited_pure (a :: as)
    exact hnext

theorem Delimited.readList (h : Delimited read) : Delimited (Bytes.readList read) := by
  have hnext := (readNat_delimited 8).bind h.readMany
  exact hnext

theorem Delimited.readEntry (h : Delimited read) : Delimited (Bytes.readEntry read) := by
  have hnext := readString_delimited.bind fun key => h.bind fun v => delimited_pure (key, v)
  exact hnext

/-- Bytes that are cut short are not read. -/
theorem Codec.eq_none_of_cut {write : α → Bytes} (hcodec : Codec write read)
    (h : Delimited read) {a : α} (hlength : (write a).length < UInt64.size) {bytes : Bytes}
    (hcut : bytes <+: write a) (hne : bytes ≠ write a) : read bytes = none := by
  obtain ⟨more, hmore⟩ := hcut
  cases hread : read bytes with
  | none => rfl
  | some r =>
    have hpart := h.append hread more
    have hwhole := hcodec.reads a [] hlength
    rw [List.append_nil, ← hmore, hpart] at hwhole
    have hrest : r.2 ++ more = [] := (Prod.mk.inj (Option.some.inj hwhole)).2
    obtain ⟨-, rfl⟩ := List.append_eq_nil_iff.1 hrest
    exact absurd (by rw [← hmore, List.append_nil]) hne

end Bytes

/-! ### Snapshots -/

namespace Snapshot

open Bytes (Reader Delimited delimited_pure readUInt32_delimited readUInt64_delimited
  readBool_delimited readString_delimited)

theorem readNumber_delimited : Delimited readNumber := by
  have h := readUInt64_delimited.bind fun bits => delimited_pure (Binary64.mk bits)
  exact h

theorem readMap_delimited {β : Type} {read : Reader β} (h : Delimited read) :
    Delimited (readMap read) := by
  have hnext := h.readEntry.readList.bind fun entries => delimited_pure (SortedMap.ofList entries)
  exact hnext

theorem readFieldConfig_delimited : Delimited readFieldConfig := by
  have h := readString_delimited.bind fun name => readNumber_delimited.bind fun boost =>
    readBool_delimited.bind fun required => delimited_pure (FieldConfig.mk name boost required)
  exact h

theorem readConfig_delimited : Delimited readConfig := by
  have h := readString_delimited.bind fun referenceField =>
    readFieldConfig_delimited.readList.bind fun fields => readNumber_delimited.bind fun b =>
      delimited_pure (Config.mk referenceField fields b)
  exact h

theorem readOccurrences_delimited : Delimited readOccurrences := by
  have h := readUInt32_delimited.bind fun frequency =>
    readUInt32_delimited.readList.bind fun positions =>
      delimited_pure (Occurrences.mk frequency positions)
  exact h

theorem readPosting_delimited : Delimited readPosting := by
  have h := readNumber_delimited.bind fun idf =>
    (readMap_delimited readOccurrences_delimited).bind fun documents =>
      delimited_pure (Posting.mk idf documents)
  exact h

theorem readFieldIndex_delimited : Delimited readFieldIndex := by
  have h := (readMap_delimited readPosting_delimited).bind fun terms =>
    (readMap_delimited readUInt32_delimited).bind fun lengths =>
      readUInt64_delimited.bind fun totalLength =>
        delimited_pure (FieldIndex.mk terms lengths totalLength)
  exact h

theorem readInverted_delimited : Delimited readInverted := by
  have h := readConfig_delimited.bind fun config =>
    readUInt64_delimited.bind fun documentCount =>
      (readMap_delimited readFieldIndex_delimited).bind fun fields =>
        delimited_pure (InvertedIndex.mk config documentCount fields)
  exact h

/-- **What is read from some bytes is read from all longer ones.** -/
theorem read_delimited : Delimited read := by
  have h := readString_delimited.bind fun version =>
    readString_delimited.readList.bind fun filterNames =>
      readString_delimited.readList.bind fun signature =>
        readInverted_delimited.bind fun inverted =>
          delimited_pure (Snapshot.mk version filterNames signature inverted)
  exact h

/-- The bytes of a snapshot that are cut short are not read. -/
theorem read_eq_none_of_cut {s : Snapshot} (hlength : s.toBytes.length < UInt64.size)
    {bytes : Bytes} (hcut : bytes <+: s.toBytes) (hne : bytes ≠ s.toBytes) :
    read bytes = none :=
  codec.eq_none_of_cut read_delimited hlength hcut hne

/-- The JSON text of a snapshot that is cut short is not read, in no layout. -/
theorem parse?_eq_none_of_cut (l : Json.Layout) {s : Snapshot} {text : String}
    (hcut : text.toList <+: l.text 0 s.toJson) (hne : text.toList ≠ l.text 0 s.toJson) :
    parse? text = none := by
  rw [parse?, Json.Raw.parse?_eq_none_of_cut l _ hcut hne]
  rfl

end Snapshot

/-! ### Indexes -/

namespace Index

theorem toList_toText (index : Index) :
    index.toText.toList = Json.Layout.compact.text 0 (Snapshot.ofIndex index).toJson := by
  rw [toText, Json.compact, String.toList_ofList, Json.compactChars_eq 0]

theorem toList_toIndentedText (index : Index) :
    index.toIndentedText.toList = Json.Layout.pretty.text 0 (Snapshot.ofIndex index).toJson := by
  rw [toIndentedText, Json.pretty, String.toList_ofList, Json.prettyChars_eq]

variable {index : Index}

theorem ofBytes_of_cut (hmemory : index.toBytes.length < UInt64.size) {bytes : Bytes}
    (hcut : bytes <+: index.toBytes) (hne : bytes ≠ index.toBytes) (pipeline : Pipeline) :
    ofBytes bytes pipeline = .error .binary := by
  rw [ofBytes, Snapshot.read_eq_none_of_cut hmemory hcut hne]

theorem parse?_of_cut_toText {text : String} (hcut : text.toList <+: index.toText.toList)
    (hne : text ≠ index.toText) : Snapshot.parse? text = none := by
  rw [toList_toText] at hcut
  refine Snapshot.parse?_eq_none_of_cut .compact hcut fun heq => hne ?_
  exact String.toList_injective (heq.trans (toList_toText index).symm)

theorem parse?_of_cut_toIndentedText {text : String}
    (hcut : text.toList <+: index.toIndentedText.toList) (hne : text ≠ index.toIndentedText) :
    Snapshot.parse? text = none := by
  rw [toList_toIndentedText] at hcut
  refine Snapshot.parse?_eq_none_of_cut .pretty hcut fun heq => hne ?_
  exact String.toList_injective (heq.trans (toList_toIndentedText index).symm)

/-- A file of which only a beginning has been written is not read. The cut can go through a
character of the JSON text. -/
theorem ofFileContents_of_cut (hmemory : index.toBytes.length < UInt64.size) {path : String}
    {contents : Bytes} (hcut : contents <+: index.fileContents path)
    (hne : contents ≠ index.fileContents path) (pipeline : Pipeline) :
    ofFileContents path contents pipeline = .error .binary ∨
      ofFileContents path contents pipeline = .error .json ∨
      ofFileContents path contents pipeline = .error (.storage .notText) := by
  rw [fileContents] at hcut hne
  rw [ofFileContents, Snapshot.ofFileContents]
  cases hformat : SnapshotFormat.ofPath path with
  | binary =>
    simp only [hformat] at hcut hne
    left
    simp only [Snapshot.read_eq_none_of_cut hmemory hcut hne]
    rfl
  | json =>
    simp only [hformat] at hcut hne
    right
    cases htext : String.fromUTF8? contents.toByteArray with
    | none => exact .inr rfl
    | some text =>
      left
      have hcontents : text.toUTF8.toList = contents := by
        rw [Text.toUTF8_of_fromUTF8? htext, Bytes.toList_eq, List.data_toByteArray]
      have hbeginning : text.toList <+: index.toText.toList :=
        Text.toList_prefix_of_toUTF8 (hcontents ▸ hcut)
      have hshorter : text ≠ index.toText := by
        rintro rfl
        exact hne hcontents.symm
      simp only [parse?_of_cut_toText hbeginning hshorter]
      rfl

/-- **A snapshot that is cut short is never accepted.** Every proper beginning of the JSON text of
an index, indented or not, is refused as a text, and every proper beginning of its bytes as bytes,
whatever the pipeline. So is a file of which only a proper beginning has been written, even if the
cut goes through a character. Of the bytes only that they can be counted with 64 bits is assumed. -/
theorem truncated_snapshots (index : Index) (pipeline : Pipeline) :
    (∀ text : String, text.toList <+: index.toText.toList → text ≠ index.toText →
      ofText text pipeline = .error .json) ∧
    (∀ text : String, text.toList <+: index.toIndentedText.toList → text ≠ index.toIndentedText →
      ofText text pipeline = .error .json) ∧
    (index.toBytes.length < UInt64.size →
      (∀ bytes, bytes <+: index.toBytes → bytes ≠ index.toBytes →
        ofBytes bytes pipeline = .error .binary) ∧
      ∀ path contents, contents <+: index.fileContents path → contents ≠ index.fileContents path →
        ofFileContents path contents pipeline = .error .binary ∨
          ofFileContents path contents pipeline = .error .json ∨
          ofFileContents path contents pipeline = .error (.storage .notText)) := by
  refine ⟨fun text hcut hne => ?_, fun text hcut hne => ?_, fun hmemory =>
    ⟨fun bytes hcut hne => ?_, fun path contents hcut hne => ?_⟩⟩
  · rw [ofText, parse?_of_cut_toText hcut hne]
  · rw [ofText, parse?_of_cut_toIndentedText hcut hne]
  · exact ofBytes_of_cut hmemory hcut hne pipeline
  · exact ofFileContents_of_cut hmemory hcut hne pipeline

theorem truncated_snapshots_sample :
    ∃ index, Index.build Sample.config .english Sample.documents = .ok index ∧
      ofBytes index.toBytes.dropLast .english = .error .binary ∧
      ofText (String.ofList index.toText.toList.dropLast) .english = .error .json := by
  let index : Index := ⟨.build Sample.config .english Sample.documents, .english⟩
  have hmemory : index.toBytes.length < UInt64.size := by decide +kernel
  have hbytes : 0 < index.toBytes.length := Snapshot.codec.nonempty (Snapshot.ofIndex index)
  have htext : 0 < index.toText.toList.length := by
    obtain ⟨body, hbody⟩ := Json.Layout.compact.text_object 0 _
    rw [toList_toText, Snapshot.toJson, hbody]
    exact Nat.succ_pos _
  obtain ⟨hcutText, -, hcutStored⟩ := truncated_snapshots index .english
  obtain ⟨hcutBytes, -⟩ := hcutStored hmemory
  refine ⟨index, rfl, hcutBytes _ ?_ fun h => ?_, hcutText _ ?_ fun h => ?_⟩
  · exact List.dropLast_prefix _
  · have hlength := congrArg List.length h
    rw [List.length_dropLast] at hlength
    omega
  · rw [String.toList_ofList]
    exact List.dropLast_prefix _
  · have hlength := congrArg (fun s : String => s.toList.length) h
    simp only [String.toList_ofList, List.length_dropLast] at hlength
    omega

end Index

end FullText
