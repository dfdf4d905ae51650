import FullText.Proofs.JsonText
import FullText.Proofs.SortedMapKeys
import FullText.Snapshot.Text

/-!
# Snapshots read back from their JSON text

The parts of an index are read back from what their JSON forms are made of: scalars, lists, maps,
and records, whose fields are found by their names. Only numbers that are not finite are lost, for
they are written as `null`. On the other hand every number that is read is finite.

## Main definitions

* `InvertedIndex.Finite` : all numbers that an index holds are finite.

## Main results

* `Json.list?_raw`, `Json.map?_raw`, `Json.record?_raw` : lists, maps and records are read back.
* `Snapshot.parse?_compact`, `Snapshot.parse?_pretty` : snapshots are read back.
* `Snapshot.finite_of_parse?` : what is read holds finite numbers only.
-/

namespace FullText

namespace Json

/-! ### Scalars -/

theorem string?_raw (s : String) : (raw (.string s)).string? = some s := by
  rw [raw, Raw.string?, chars?_map_piece, Option.map_some, String.ofList_toList]

theorem bool?_raw (b : Bool) : (raw (.bool b)).bool? = some b := rfl

theorem binary64?_raw {x : Binary64} (hx : x.isFinite = true) :
    (raw (.number x)).binary64? = some x := by
  rw [raw, if_pos hx, Raw.binary64?, binary64?_numberToken hx]

theorem natural?_raw {bound n : Nat} (hn : n < bound) :
    (raw (.ofNat n)).natural? bound = some n := by
  have hrange : 0 ≤ (n : Int) ∧ (n : Int) < bound := by omega
  simp only [ofNat, raw, Raw.natural?, integer?_integerToken, if_pos hrange, Int.toNat_natCast]

theorem uint32?_raw (n : UInt32) : (raw (.ofNat n.toNat)).uint32? = some n := by
  rw [Raw.uint32?, natural?_raw n.toNat_lt, Option.map_some, UInt32.ofNat_toNat]

theorem uint64?_raw (n : UInt64) : (raw (.ofNat n.toNat)).uint64? = some n := by
  rw [Raw.uint64?, natural?_raw n.toNat_lt, Option.map_some, UInt64.ofNat_toNat]

/-! ### Lists and maps -/

section Containers

variable {α : Type} {read : Raw → Option α} {write : α → Json}

theorem mapM_raw {as : List α} (h : ∀ a ∈ as, read (write a).raw = some a) :
    (as.map fun a => (write a).raw).mapM read = some as := by
  induction as with
  | nil => rfl
  | cons a as ih =>
    rw [List.map_cons, List.mapM_cons, h a List.mem_cons_self,
      ih fun b hb => h b (List.mem_cons_of_mem a hb)]
    rfl

/-- A list is read back if its items are. -/
theorem list?_raw {as : List α} (h : ∀ a ∈ as, read (write a).raw = some a) :
    (raw (.array (as.map write))).list? read = some as := by
  rw [raw, rawItems_eq, List.map_map, Raw.list?]
  exact mapM_raw h

theorem list?_string (ss : List String) : (raw (.ofStrings ss)).list? Raw.string? = some ss :=
  list?_raw fun s _ => string?_raw s

/-- A map is read back if its values are. -/
theorem map?_raw {m : SortedMap String α} (h : ∀ v ∈ m.values, read (write v).raw = some v) :
    (raw (.ofMap write m)).map? read = some m := by
  have hentries : (m.entries.map fun e => (e.1.toList.map piece, (write e.2).raw)).mapM
      (fun e : List Piece × Raw => do
        let cs ← Piece.chars? e.1
        let v ← read e.2
        return (String.ofList cs, v)) = some m.entries := by
    have hvalues (e : String × α) (he : e ∈ m.entries) : read (write e.2).raw = some e.2 :=
      h e.2 (List.mem_map_of_mem he)
    generalize m.entries = es at hvalues
    induction es with
    | nil => rfl
    | cons e es ih =>
      rw [List.map_cons, List.mapM_cons, ih fun f hf => hvalues f (List.mem_cons_of_mem e hf)]
      simp only [chars?_map_piece, hvalues e List.mem_cons_self, Option.bind_eq_bind,
        Option.bind_some, String.ofList_toList]
      rfl
  rw [ofMap, raw, rawMembers_eq, List.map_map, Raw.map?]
  exact (congrArg (Option.map SortedMap.ofList) hentries).trans
    (congrArg some (SortedMap.ofList_entries m))

end Containers

/-! ### Records -/

theorem knownMembers?_raw {names : List String} (hnames : names.Nodup) {k : Nat}
    {members : List (String × Json)} (hk : names.drop k = members.map (·.1)) :
    Raw.knownMembers? names (rawMembers members) =
      some ((members.zipIdx k).map fun e => (e.2, e.1.2.raw)) := by
  induction members generalizing k with
  | nil => rfl
  | cons e members ih =>
    obtain ⟨key, value⟩ := e
    have hlt : k < names.length := by
      by_contra hle
      rw [List.drop_of_length_le (Nat.not_lt.1 hle)] at hk
      cases hk
    rw [List.drop_eq_getElem_cons hlt, List.map_cons] at hk
    obtain ⟨hkey, hrest⟩ := List.cons.inj hk
    have hfind : names.findIdx? (· = key) = some k := by
      refine List.findIdx?_eq_some_iff_getElem.2 ⟨hlt, by simpa using hkey, fun j hj => ?_⟩
      have hne : names[j] ≠ names[k] := fun heq =>
        Nat.ne_of_lt hj ((List.Nodup.getElem_inj_iff hnames).1 heq)
      simpa [hkey] using hne
    have hfresh : ((members.zipIdx (k + 1)).map fun e => (e.2, e.1.2.raw)).any (·.1 = k) =
        false := by
      refine List.any_eq_false.2 fun e he => ?_
      obtain ⟨f, hf, rfl⟩ := List.mem_map.1 he
      have hle := List.le_snd_of_mem_zipIdx hf
      simp only [decide_eq_true_eq]
      omega
    rw [rawMembers, Raw.knownMembers?, chars?_map_piece, ih hrest]
    simp only [Option.bind_eq_bind, Option.bind_some, String.ofList_toList, hfind, hfresh]
    rfl

theorem findSome?_zipIdx (members : List (String × Json)) (k i : Nat) :
    ((members.zipIdx k).map fun e => (e.2, e.1.2.raw)).findSome?
      (fun e => if e.1 = k + i then some e.2 else none) = members[i]?.map (·.2.raw) := by
  induction members generalizing k i with
  | nil => rfl
  | cons e members ih =>
    rw [List.zipIdx_cons, List.map_cons, List.findSome?_cons]
    cases i with
    | zero => rw [if_pos (Nat.add_zero k).symm]; rfl
    | succ i =>
      have hplace : k + (i + 1) = k + 1 + i := by omega
      rw [if_neg (by simp), List.getElem?_cons_succ, ← ih (k + 1) i, hplace]

/-- The fields of a record are found in its object. -/
theorem record?_raw (members : List (String × Json)) (hnames : (members.map (·.1)).Nodup) :
    Raw.record? (members.map (·.1)) (raw (.object members)) =
      some (members.map fun e => some e.2.raw) := by
  rw [raw, Raw.record?, knownMembers?_raw hnames (k := 0) rfl]
  refine congrArg some (List.ext_getElem (by simp) fun i hi hi' => ?_)
  have hfind := findSome?_zipIdx members 0 i
  rw [List.length_map] at hi'
  rw [Nat.zero_add, List.getElem?_eq_getElem hi', Option.map_some] at hfind
  rw [List.getElem_map, List.getElem_map, List.getElem_range]
  exact hfind

end Json

/-! ### The parts of an index -/

open Json (raw record?_raw string?_raw bool?_raw binary64?_raw uint32?_raw uint64?_raw list?_raw
  list?_string map?_raw)
open Json.Raw (required?)

theorem bind_required? {α β : Type} {read : Json.Raw → Option α} {r : Json.Raw} {a : α}
    {f : α → Option β} {b : β} (hr : read r = some a) (hf : f a = some b) :
    (required? read (some r)).bind f = some b := by
  rw [required?, Option.bind_some, hr, Option.bind_some, hf]

theorem bind_record? {β : Type} (members : List (String × Json))
    (hnames : (members.map (·.1)).Nodup) {f : List (Option Json.Raw) → Option β} {b : β}
    (hf : f (members.map fun e => some e.2.raw) = some b) :
    (Json.Raw.record? (members.map (·.1)) (raw (.object members))).bind f = some b := by
  rw [record?_raw members hnames, Option.bind_some, hf]

theorem Occurrences.ofJson?_raw (o : Occurrences) : ofJson? o.toJson.raw = some o := by
  have hpositions : (raw (.array (o.positions.map fun p => .ofNat p.toNat))).list?
      Json.Raw.uint32? = some o.positions := list?_raw fun p _ => uint32?_raw p
  rw [toJson, ofJson?]
  refine bind_record? [("frequency", .ofNat o.frequency.toNat),
    ("positions", .array (o.positions.map fun p : UInt32 => Json.ofNat p.toNat))] (by simp) ?_
  simp only [List.map_cons, List.map_nil]
  exact bind_required? (uint32?_raw _) (bind_required? hpositions rfl)

theorem Posting.ofJson?_raw {p : Posting} (hidf : p.idf.isFinite = true) :
    ofJson? p.toJson.raw = some p := by
  have hdocuments := map?_raw (m := p.documents) fun o _ => o.ofJson?_raw
  rw [toJson, ofJson?]
  refine bind_record? [("idf", .number p.idf),
    ("documents", .ofMap Occurrences.toJson p.documents)] (by simp) ?_
  simp only [List.map_cons, List.map_nil]
  exact bind_required? (binary64?_raw hidf) (bind_required? hdocuments rfl)

theorem FieldIndex.ofJson?_raw {f : FieldIndex}
    (hidf : ∀ p ∈ f.terms.values, p.idf.isFinite = true) : ofJson? f.toJson.raw = some f := by
  have hterms := map?_raw (m := f.terms) fun p hp => Posting.ofJson?_raw (hidf p hp)
  have hlengths : (raw (.ofMap (fun n : UInt32 => .ofNat n.toNat) f.lengths)).map?
      Json.Raw.uint32? = some f.lengths := map?_raw fun n _ => uint32?_raw n
  rw [toJson, ofJson?]
  refine bind_record? [("terms", .ofMap Posting.toJson f.terms),
    ("lengths", .ofMap (fun n : UInt32 => .ofNat n.toNat) f.lengths),
    ("total_length", .ofNat f.totalLength.toNat)] (by simp) ?_
  simp only [List.map_cons, List.map_nil]
  exact bind_required? hterms (bind_required? hlengths (bind_required? (uint64?_raw _) rfl))

theorem FieldConfig.ofJson?_raw {f : FieldConfig} (hboost : f.boost.isFinite = true) :
    ofJson? f.toJson.raw = some f := by
  rw [toJson, ofJson?]
  refine bind_record? [("name", .string f.name), ("boost", .number f.boost),
    ("required", .bool f.required)] (by simp) ?_
  simp only [List.map_cons, List.map_nil]
  exact bind_required? (string?_raw _)
    (bind_required? (binary64?_raw hboost) (bind_required? (bool?_raw _) rfl))

theorem Config.scoringOfJson?_raw {b : Binary64} (hb : b.isFinite = true) :
    scoringOfJson? (raw (.object [("length_normalization", .number b)])) = some b := by
  rw [scoringOfJson?]
  refine bind_record? [("length_normalization", .number b)] (by simp) ?_
  exact (Option.bind_some ..).trans (binary64?_raw hb)

theorem Config.ofJson?_raw {c : Config} (hboosts : ∀ f ∈ c.fields, f.boost.isFinite = true)
    (hb : c.lengthNormalization.isFinite = true) : ofJson? c.toJson.raw = some c := by
  have hfields := list?_raw fun f hf => FieldConfig.ofJson?_raw (hboosts f hf)
  rw [toJson, ofJson?]
  refine bind_record? [("reference_field", .string c.referenceField),
    ("fields", .array (c.fields.map FieldConfig.toJson)),
    ("scoring", .object [("length_normalization", .number c.lengthNormalization)])] (by simp) ?_
  simp only [List.map_cons, List.map_nil]
  exact bind_required? (string?_raw _)
    (bind_required? hfields (bind_required? (Config.scoringOfJson?_raw hb) rfl))

/-- All numbers that an index holds are finite. -/
structure InvertedIndex.Finite (i : InvertedIndex) : Prop where
  /-- The boosts of the fields are finite. -/
  boosts : ∀ f ∈ i.config.fields, f.boost.isFinite = true
  /-- The strength of length normalization is finite. -/
  lengthNormalization : i.config.lengthNormalization.isFinite = true
  /-- The weights of the terms are finite. -/
  weights : ∀ f ∈ i.fields.values, ∀ p ∈ f.terms.values, p.idf.isFinite = true

theorem InvertedIndex.ofJson?_raw {i : InvertedIndex} (h : i.Finite) :
    ofJson? i.toJson.raw = some i := by
  have hfields := map?_raw (m := i.fields) fun f hf => FieldIndex.ofJson?_raw (h.weights f hf)
  rw [toJson, ofJson?]
  refine bind_record? [("config", i.config.toJson),
    ("document_count", .ofNat i.documentCount.toNat),
    ("fields", .ofMap FieldIndex.toJson i.fields)] (by simp) ?_
  simp only [List.map_cons, List.map_nil]
  exact bind_required? (Config.ofJson?_raw h.boosts h.lengthNormalization)
    (bind_required? (uint64?_raw _) (bind_required? hfields rfl))

theorem Snapshot.ofJson?_raw {s : Snapshot} (h : s.inverted.Finite) :
    ofJson? s.toJson.raw = some s := by
  rw [toJson, ofJson?]
  refine bind_record? [("version", .string s.version), ("pipeline", .ofStrings s.filterNames),
    ("signature", .ofStrings s.signature), ("index", s.inverted.toJson)] (by simp) ?_
  simp only [List.map_cons, List.map_nil]
  exact bind_required? (string?_raw _) (bind_required? (list?_string _)
    (bind_required? (list?_string _) (bind_required? (InvertedIndex.ofJson?_raw h) rfl)))

/-- **A snapshot without infinite numbers is read back from its JSON text.** -/
theorem Snapshot.parse?_compact {s : Snapshot} (h : s.inverted.Finite) :
    parse? s.toJson.compact = some s := by
  rw [parse?, Json.parse?_compact, Option.bind_some, ofJson?_raw h]

/-- **The same holds of its indented text.** -/
theorem Snapshot.parse?_pretty {s : Snapshot} (h : s.inverted.Finite) :
    parse? s.toJson.pretty = some s := by
  rw [parse?, Json.parse?_pretty, Option.bind_some, ofJson?_raw h]

/-! ### Numbers that are read -/

theorem of_bind_required? {α β : Type} {read : Json.Raw → Option α} {r : Option Json.Raw}
    {f : α → Option β} {b : β} (h : (required? read r).bind f = some b) :
    ∃ r' a, read r' = some a ∧ f a = some b := by
  obtain ⟨a, ha, hf⟩ := Option.bind_eq_some_iff.1 h
  obtain ⟨r', -, hr'⟩ := Option.bind_eq_some_iff.1 ha
  exact ⟨r', a, hr', hf⟩

theorem map_eq_of_mapM {α β : Type} {f : α → Option β} {as : List α} {bs : List β}
    (h : as.mapM f = some bs) : as.map f = bs.map some := by
  induction as generalizing bs with
  | nil =>
    obtain rfl := Option.some.inj h
    rfl
  | cons a as ih =>
    rw [List.mapM_cons] at h
    obtain ⟨b, hb, h⟩ := Option.bind_eq_some_iff.1 h
    obtain ⟨bs, hbs, h⟩ := Option.bind_eq_some_iff.1 h
    obtain rfl := Option.some.inj h
    rw [List.map_cons, hb, ih hbs, List.map_cons]

theorem exists_of_mem_mapM {α β : Type} {f : α → Option β} {as : List α} {bs : List β}
    (h : as.mapM f = some bs) {b : β} (hb : b ∈ bs) : ∃ a, f a = some b := by
  have hmem : some b ∈ as.map f := map_eq_of_mapM h ▸ List.mem_map_of_mem hb
  obtain ⟨a, -, ha⟩ := List.mem_map.1 hmem
  exact ⟨a, ha⟩

theorem exists_of_mem_list? {α : Type} {read : Json.Raw → Option α} {r : Json.Raw} {as : List α}
    (h : r.list? read = some as) {a : α} (ha : a ∈ as) : ∃ r', read r' = some a := by
  cases r with
  | array items => exact exists_of_mem_mapM h ha
  | _ => cases h

theorem exists_of_mem_map? {α : Type} {read : Json.Raw → Option α} {r : Json.Raw}
    {m : SortedMap String α} (h : r.map? read = some m) {v : α} (hv : v ∈ m.values) :
    ∃ r', read r' = some v := by
  cases r with
  | object members =>
    obtain ⟨es, hes, rfl⟩ := Option.map_eq_some_iff.1 h
    obtain ⟨k, hk⟩ := SortedMap.mem_values_iff.1 hv
    rw [SortedMap.get?_ofList] at hk
    obtain ⟨e, he, rfl⟩ := Option.map_eq_some_iff.1 hk
    obtain ⟨e', he'⟩ := exists_of_mem_mapM hes (List.mem_reverse.1 (List.mem_of_find?_eq_some he))
    obtain ⟨cs, -, he'⟩ := Option.bind_eq_some_iff.1 he'
    obtain ⟨w, hw, he'⟩ := Option.bind_eq_some_iff.1 he'
    obtain rfl := Option.some.inj he'
    exact ⟨e'.2, hw⟩
  | _ => cases h

theorem isFinite_of_binary64? {r : Json.Raw} {x : Binary64} (h : r.binary64? = some x) :
    x.isFinite = true := by
  cases r with
  | number t =>
    rw [Json.Raw.binary64?, Json.NumberToken.binary64?] at h
    split_ifs at h with hfinite
    obtain rfl := Option.some.inj h
    exact hfinite
  | _ => cases h

theorem Posting.isFinite_of_ofJson? {r : Json.Raw} {p : Posting} (h : ofJson? r = some p) :
    p.idf.isFinite = true := by
  rw [ofJson?] at h
  obtain ⟨fields, -, h⟩ := Option.bind_eq_some_iff.1 h
  split at h
  · obtain ⟨r', idf, hidf, h⟩ := of_bind_required? h
    obtain ⟨-, documents, -, h⟩ := of_bind_required? h
    obtain rfl := Option.some.inj h
    exact isFinite_of_binary64? hidf
  · cases h

theorem FieldIndex.isFinite_of_ofJson? {r : Json.Raw} {f : FieldIndex} (h : ofJson? r = some f) :
    ∀ p ∈ f.terms.values, p.idf.isFinite = true := by
  rw [ofJson?] at h
  obtain ⟨fields, -, h⟩ := Option.bind_eq_some_iff.1 h
  split at h
  · obtain ⟨r', terms, hterms, h⟩ := of_bind_required? h
    obtain ⟨-, lengths, -, h⟩ := of_bind_required? h
    obtain ⟨-, total, -, h⟩ := of_bind_required? h
    obtain rfl := Option.some.inj h
    intro p hp
    obtain ⟨r'', hr''⟩ := exists_of_mem_map? hterms hp
    exact Posting.isFinite_of_ofJson? hr''
  · cases h

theorem FieldConfig.isFinite_of_ofJson? {r : Json.Raw} {f : FieldConfig} (h : ofJson? r = some f) :
    f.boost.isFinite = true := by
  rw [ofJson?] at h
  obtain ⟨fields, -, h⟩ := Option.bind_eq_some_iff.1 h
  split at h
  · obtain ⟨-, name, -, h⟩ := of_bind_required? h
    obtain ⟨r', boost, hboost, h⟩ := of_bind_required? h
    obtain ⟨-, required, -, h⟩ := of_bind_required? h
    obtain rfl := Option.some.inj h
    exact isFinite_of_binary64? hboost
  · cases h

theorem Config.isFinite_of_ofJson? {r : Json.Raw} {c : Config} (h : ofJson? r = some c) :
    (∀ f ∈ c.fields, f.boost.isFinite = true) ∧ c.lengthNormalization.isFinite = true := by
  rw [ofJson?] at h
  obtain ⟨fields, -, h⟩ := Option.bind_eq_some_iff.1 h
  split at h
  · obtain ⟨-, reference, -, h⟩ := of_bind_required? h
    obtain ⟨r', fields, hfields, h⟩ := of_bind_required? h
    obtain ⟨r'', b, hb, h⟩ := of_bind_required? h
    obtain rfl := Option.some.inj h
    refine ⟨fun f hf => ?_, ?_⟩
    · obtain ⟨r, hr⟩ := exists_of_mem_list? hfields hf
      exact FieldConfig.isFinite_of_ofJson? hr
    · rw [scoringOfJson?] at hb
      obtain ⟨fields, -, hb⟩ := Option.bind_eq_some_iff.1 hb
      split at hb
      · obtain ⟨r, -, hr⟩ := Option.bind_eq_some_iff.1 hb
        exact isFinite_of_binary64? hr
      · cases hb
  · cases h

theorem InvertedIndex.finite_of_ofJson? {r : Json.Raw} {i : InvertedIndex}
    (h : ofJson? r = some i) : i.Finite := by
  rw [ofJson?] at h
  obtain ⟨fields, -, h⟩ := Option.bind_eq_some_iff.1 h
  split at h
  · obtain ⟨rc, config, hconfig, h⟩ := of_bind_required? h
    obtain ⟨-, count, -, h⟩ := of_bind_required? h
    obtain ⟨rf, fields, hfields, h⟩ := of_bind_required? h
    obtain rfl := Option.some.inj h
    obtain ⟨hboosts, hb⟩ := Config.isFinite_of_ofJson? hconfig
    refine ⟨hboosts, hb, fun f hf => ?_⟩
    obtain ⟨r', hr'⟩ := exists_of_mem_map? hfields hf
    exact FieldIndex.isFinite_of_ofJson? hr'
  · cases h

/-- **A snapshot that is read from a JSON text holds finite numbers only.** -/
theorem Snapshot.finite_of_parse? {text : String} {s : Snapshot} (h : parse? text = some s) :
    s.inverted.Finite := by
  obtain ⟨r, -, h⟩ := Option.bind_eq_some_iff.1 h
  rw [ofJson?] at h
  obtain ⟨fields, -, h⟩ := Option.bind_eq_some_iff.1 h
  split at h
  · obtain ⟨-, version, -, h⟩ := of_bind_required? h
    obtain ⟨-, names, -, h⟩ := of_bind_required? h
    obtain ⟨-, signature, -, h⟩ := of_bind_required? h
    obtain ⟨r', inverted, hinverted, h⟩ := of_bind_required? h
    obtain rfl := Option.some.inj h
    exact InvertedIndex.finite_of_ofJson? hinverted
  · cases h

end FullText
