import FullText.Bytes
import FullText.Snapshot.Binary
import FullText.Proofs.SortedMapKeys
import Mathlib

/-!
# Bytes read back

Every reader of the binary form takes back what its writer has written and leaves what follows.
A length is written with eight bytes; it reads back if it fits into them, which is the case whenever
the bytes themselves can be counted with so many. This is shown writer by writer, from numbers to
snapshots.

## Main definitions

* `Bytes.Codec` : a writer and a reader that belong together.

## Main results

* `Bytes.Codec.list`, `Bytes.Codec.entry`, `Snapshot.mapCodec` : lists, pairs and maps.
* `Snapshot.codec` : a snapshot is read back from its bytes.
-/

namespace FullText

namespace Bytes

/-- A writer and a reader that belong together: something is written for every value, and the
reader takes it back and leaves what follows. -/
structure Codec {α : Type} (write : α → Bytes) (read : Reader α) : Prop where
  /-- Something is written for every value. -/
  nonempty : ∀ a, 0 < (write a).length
  /-- What is written is read back, if it can be counted. -/
  reads : ∀ a rest, (write a).length < UInt64.size → read (write a ++ rest) = some (a, rest)

/-! ### Numbers -/

@[simp] theorem length_ofNat (count n : Nat) : (ofNat count n).length = count := by
  induction count generalizing n with
  | zero => rfl
  | succ count ih => rw [ofNat, List.length_cons, ih]

theorem toNat_ofNat (count n : Nat) : toNat (ofNat count n) = n % 256 ^ count := by
  induction count generalizing n with
  | zero => rw [Nat.pow_zero, Nat.mod_one]; rfl
  | succ count ih =>
    have hbyte : (UInt8.ofNat n).toNat = n % 256 := UInt8.toNat_ofNat'
    rw [ofNat, toNat, ih, hbyte, Nat.pow_succ', Nat.mod_mul]

theorem take_append (digits rest : Bytes) :
    take digits.length (digits ++ rest) = some (digits, rest) := by
  have hlength : ¬ (digits ++ rest).length < digits.length := by
    rw [List.length_append]
    omega
  rw [take, if_neg hlength, List.splitAt_eq, List.take_left, List.drop_left]

theorem readNat_ofNat {count n : Nat} (hn : n < 256 ^ count) (rest : Bytes) :
    readNat count (ofNat count n ++ rest) = some (n, rest) := by
  have htake := take_append (ofNat count n) rest
  rw [length_ofNat] at htake
  rw [readNat, htake]
  show some (toNat (ofNat count n), rest) = _
  rw [toNat_ofNat, Nat.mod_eq_of_lt hn]

theorem uint32Codec : Codec ofUInt32 readUInt32 where
  nonempty n := by rw [ofUInt32, length_ofNat]; decide
  reads n rest _ := by
    rw [readUInt32, ofUInt32, readNat_ofNat n.toNat_lt]
    simp

theorem uint64Codec : Codec ofUInt64 readUInt64 where
  nonempty n := by rw [ofUInt64, length_ofNat]; decide
  reads n rest _ := by
    rw [readUInt64, ofUInt64, readNat_ofNat n.toNat_lt]
    simp

theorem boolCodec : Codec ofBool readBool where
  nonempty b := Nat.one_pos
  reads b rest _ := by cases b <;> rfl

/-! ### Texts -/

theorem toList_eq (bytes : ByteArray) : bytes.toList = bytes.data.toList := by
  have hsize : bytes.data.toList.length = bytes.size := Array.length_toList
  have hloop (i : Nat) (r : List UInt8) (hi : i ≤ bytes.size) :
      ByteArray.toList.loop bytes i r = r.reverse ++ bytes.data.toList.drop i := by
    induction hn : bytes.size - i generalizing i r with
    | zero =>
      rw [ByteArray.toList.loop, if_neg (by omega), List.drop_of_length_le (by omega),
        List.append_nil]
    | succ n ih =>
      have hlt : i < bytes.data.toList.length := by omega
      rw [ByteArray.toList.loop, if_pos (by omega), ih (i + 1) _ (by omega) (by omega),
        List.reverse_cons, List.append_assoc, List.singleton_append, List.drop_eq_getElem_cons hlt]
      congr 2
      exact getElem!_pos bytes.data i hlt
  exact (hloop 0 [] (Nat.zero_le _)).trans (List.drop_zero)

theorem toByteArray_toList (bytes : ByteArray) : bytes.toList.toByteArray = bytes := by
  apply ByteArray.ext
  rw [toList_eq, List.data_toByteArray, Array.toArray_toList]

theorem length_toUTF8 (s : String) : s.toUTF8.toList.length = s.utf8ByteSize := by
  rw [toList_eq, Array.length_toList]
  rfl

theorem fromUTF8?_toUTF8 (s : String) : String.fromUTF8? s.toUTF8 = some s :=
  dif_pos s.isValidUTF8

theorem stringCodec : Codec ofString readString where
  nonempty s := by
    rw [ofString, List.length_append, length_ofNat]
    omega
  reads s rest h := by
    have hsize : s.utf8ByteSize < 256 ^ 8 := by
      rw [ofString, List.length_append, length_toUTF8] at h
      have hpow : UInt64.size = 256 ^ 8 := rfl
      omega
    have htake := take_append s.toUTF8.toList rest
    rw [length_toUTF8] at htake
    rw [readString, ofString, List.append_assoc, readNat_ofNat hsize]
    simp only [Option.bind_eq_bind, Option.bind_some, htake, toByteArray_toList, fromUTF8?_toUTF8]
    rfl

/-! ### Lists and pairs -/

section Lists

variable {α : Type} {write : α → Bytes} {read : Reader α}

theorem Codec.length_le (h : Codec write read) (as : List α) :
    as.length ≤ (as.flatMap write).length := by
  induction as with
  | nil => exact Nat.le_refl 0
  | cons a as ih =>
    have ha := h.nonempty a
    rw [List.flatMap_cons, List.length_append, List.length_cons]
    omega

theorem Codec.readMany (h : Codec write read) (as : List α) (rest : Bytes)
    (hlength : (as.flatMap write).length < UInt64.size) :
    Bytes.readMany read as.length (as.flatMap write ++ rest) = some (as, rest) := by
  induction as with
  | nil => rfl
  | cons a as ih =>
    rw [List.flatMap_cons, List.length_append] at hlength
    rw [List.length_cons, Bytes.readMany, List.flatMap_cons, List.append_assoc,
      h.reads a _ (by omega)]
    simp only [Option.bind_eq_bind, Option.bind_some, ih (by omega)]
    rfl

/-- Lists are read back if their items are. -/
theorem Codec.list (h : Codec write read) : Codec (ofList write) (readList read) where
  nonempty as := by
    rw [ofList, List.length_append, length_ofNat]
    omega
  reads as rest hlength := by
    rw [ofList, List.length_append] at hlength
    have hcount := h.length_le as
    have hpow : UInt64.size = 256 ^ 8 := rfl
    rw [readList, ofList, List.append_assoc, readNat_ofNat (by omega)]
    simp only [Option.bind_eq_bind, Option.bind_some]
    exact h.readMany as rest (by omega)

/-- Pairs are read back if their values are. -/
theorem Codec.entry (h : Codec write read) : Codec (ofEntry write) (readEntry read) where
  nonempty e := by
    rw [ofEntry, List.length_append]
    exact Nat.lt_of_lt_of_le (stringCodec.nonempty e.1) (Nat.le_add_right _ _)
  reads e rest hlength := by
    rw [ofEntry, List.length_append] at hlength
    rw [readEntry, ofEntry, List.append_assoc, stringCodec.reads _ _ (by omega)]
    simp only [Option.bind_eq_bind, Option.bind_some, h.reads e.2 rest (by omega)]
    rfl

end Lists

end Bytes

/-! ### Snapshots -/

namespace Snapshot

open Bytes (Codec Reader stringCodec uint32Codec uint64Codec boolCodec)

theorem numberCodec : Codec numberBytes readNumber where
  nonempty x := uint64Codec.nonempty x.bits
  reads x rest h := by
    rw [readNumber, numberBytes, uint64Codec.reads x.bits rest h]
    rfl

/-- Maps are read back if their values are. -/
theorem mapCodec {β : Type} {write : β → Bytes} {read : Reader β} (h : Codec write read) :
    Codec (mapBytes write) (readMap read) where
  nonempty m := h.entry.list.nonempty m.entries
  reads m rest hlength := by
    rw [readMap, mapBytes, h.entry.list.reads m.entries rest hlength]
    simp only [Option.bind_eq_bind, Option.bind_some, SortedMap.ofList_entries]
    rfl

theorem size_le_length_mapBytes {β : Type} {write : β → Bytes} {read : Reader β}
    (h : Codec write read) (m : SortedMap String β) : m.size ≤ (mapBytes write m).length := by
  rw [mapBytes, Bytes.ofList, List.length_append]
  exact Nat.le_trans (h.entry.length_le m.entries) (Nat.le_add_left _ _)

theorem length_le_length_mapBytes {β : Type} (write : β → Bytes) {m : SortedMap String β}
    {e : String × β} (he : e ∈ m.entries) : (write e.2).length ≤ (mapBytes write m).length := by
  have hmem := List.mem_map_of_mem (f := Bytes.ofEntry write) he
  have hentry := (List.sublist_flatten_of_mem hmem).length_le
  rw [← List.flatMap_def, Bytes.ofEntry, List.length_append] at hentry
  rw [mapBytes, Bytes.ofList, List.length_append]
  omega

theorem fieldConfigCodec : Codec fieldConfigBytes readFieldConfig where
  nonempty f := by
    have := stringCodec.nonempty f.name
    simp only [fieldConfigBytes, List.length_append]
    omega
  reads f rest hlength := by
    simp only [fieldConfigBytes, List.length_append] at hlength
    simp only [readFieldConfig, fieldConfigBytes, List.append_assoc, Option.bind_eq_bind,
      stringCodec.reads f.name _ (by omega), numberCodec.reads f.boost _ (by omega),
      boolCodec.reads f.required _ (by omega), Option.bind_some]
    rfl

theorem configCodec : Codec configBytes readConfig where
  nonempty c := by
    have := stringCodec.nonempty c.referenceField
    simp only [configBytes, List.length_append]
    omega
  reads c rest hlength := by
    simp only [configBytes, List.length_append] at hlength
    simp only [readConfig, configBytes, List.append_assoc, Option.bind_eq_bind,
      stringCodec.reads c.referenceField _ (by omega),
      fieldConfigCodec.list.reads c.fields _ (by omega),
      numberCodec.reads c.lengthNormalization _ (by omega), Option.bind_some]
    rfl

theorem occurrencesCodec : Codec occurrencesBytes readOccurrences where
  nonempty o := by
    have := uint32Codec.nonempty o.frequency
    simp only [occurrencesBytes, List.length_append]
    omega
  reads o rest hlength := by
    simp only [occurrencesBytes, List.length_append] at hlength
    simp only [readOccurrences, occurrencesBytes, List.append_assoc, Option.bind_eq_bind,
      uint32Codec.reads o.frequency _ (by omega), uint32Codec.list.reads o.positions _ (by omega),
      Option.bind_some]
    rfl

theorem postingCodec : Codec postingBytes readPosting where
  nonempty p := by
    have := numberCodec.nonempty p.idf
    simp only [postingBytes, List.length_append]
    omega
  reads p rest hlength := by
    simp only [postingBytes, List.length_append] at hlength
    simp only [readPosting, postingBytes, List.append_assoc, Option.bind_eq_bind,
      numberCodec.reads p.idf _ (by omega),
      (mapCodec occurrencesCodec).reads p.documents _ (by omega), Option.bind_some]
    rfl

theorem fieldIndexCodec : Codec fieldIndexBytes readFieldIndex where
  nonempty f := by
    have := uint64Codec.nonempty f.totalLength
    simp only [fieldIndexBytes, List.length_append]
    omega
  reads f rest hlength := by
    simp only [fieldIndexBytes, List.length_append] at hlength
    simp only [readFieldIndex, fieldIndexBytes, List.append_assoc, Option.bind_eq_bind,
      (mapCodec postingCodec).reads f.terms _ (by omega),
      (mapCodec uint32Codec).reads f.lengths _ (by omega),
      uint64Codec.reads f.totalLength _ (by omega), Option.bind_some]
    rfl

theorem invertedCodec : Codec invertedBytes readInverted where
  nonempty i := by
    have := uint64Codec.nonempty i.documentCount
    simp only [invertedBytes, List.length_append]
    omega
  reads i rest hlength := by
    simp only [invertedBytes, List.length_append] at hlength
    simp only [readInverted, invertedBytes, List.append_assoc, Option.bind_eq_bind,
      configCodec.reads i.config _ (by omega), uint64Codec.reads i.documentCount _ (by omega),
      (mapCodec fieldIndexCodec).reads i.fields _ (by omega), Option.bind_some]
    rfl

/-- **A snapshot is read back from its bytes,** and what follows them is left. -/
theorem codec : Codec toBytes read where
  nonempty s := by
    have := stringCodec.nonempty s.version
    simp only [toBytes, List.length_append]
    omega
  reads s rest hlength := by
    simp only [toBytes, List.length_append] at hlength
    simp only [read, toBytes, List.append_assoc, Option.bind_eq_bind,
      stringCodec.reads s.version _ (by omega), stringCodec.list.reads s.filterNames _ (by omega),
      stringCodec.list.reads s.signature _ (by omega),
      invertedCodec.reads s.inverted _ (by omega), Option.bind_some]
    rfl

end Snapshot

end FullText
