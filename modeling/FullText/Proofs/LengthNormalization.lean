import FullText.Proofs.BoundedProducts
import FullText.Proofs.LoadedCounts

/-!
# Length normalization

The factor for the length of a field in a document is one divided by `1 - b + b * length / average`.
Told exactly, this denominator is positive unless `b` is one and the length is zero. Computed in
double precision it cannot get lost either: a number below one leaves enough of one, and a length of
64 bits is not too small a share of an average of such lengths. So the factor is a positive finite
number unless the denominator is exactly zero, and in that case it is infinite.

A built index lists a document only if it has tokens, and records their number. The check of an
index that is loaded asks that a listed document has a length, but not that it is another one than
zero.

## Main definitions

* `Binary64.rational` : the exact value of a number.
* `FieldIndex.Measured` : a field whose mean length is not zero.
* `InvertedIndex.normDenominator` : the exact denominator.
* `Index.Held` : the indexes that are built or loaded.

## Main results

* `InvertedIndex.normDenominator_pos_iff` : when the exact denominator is positive.
* `InvertedIndex.isPositiveFinite_norm_iff` : when the factor is positive and finite.
* `InvertedIndex.length_ne_zero_build` : a built index records no length of zero for a listed
  document.
* `Index.norm_divides_safely` : **the factor is positive and finite wherever the exact denominator
  is positive,** for all hits of a built or loaded index.
-/

namespace FullText

namespace Binary64

/-! ### Exact values -/

/-- The exact value of a finite number. -/
def rational (x : Binary64) : ℚ := x.value / unitsPerOne

theorem rational_one : one.rational = 1 := by
  have hvalue : one.value = (unitsPerOne : Int) := by decide +kernel
  have hpos : (unitsPerOne : ℚ) ≠ 0 := Nat.cast_ne_zero.2 (by decide +kernel)
  rw [rational, hvalue, Int.cast_natCast, div_self hpos]

/-- A number without sign that is below one is between zero and one. -/
theorem rational_between {x : Binary64} (hsign : x.isNegative = false) (hpos : 0 < x.magnitude)
    (hlt : x.magnitude < one.magnitude) : 0 < x.rational ∧ x.rational < 1 := by
  have hunits : units one.magnitude = unitsPerOne := by decide +kernel
  have hzero : 0 < units x.magnitude := Nat.lt_of_le_of_lt (Nat.zero_le _) (units_strictMono hpos)
  have hone : units x.magnitude < unitsPerOne := hunits ▸ units_strictMono hlt
  have hweight : (0 : ℚ) < unitsPerOne := Nat.cast_pos.2 (Nat.lt_trans hzero hone)
  rw [rational, value, hsign, if_neg Bool.false_ne_true, Int.cast_natCast]
  exact ⟨div_pos (Nat.cast_pos.2 hzero) hweight, (div_lt_one hweight).2 (Nat.cast_lt.2 hone)⟩

/-- A number from zero to one that does not equal zero is one or lies between them. -/
theorem eq_one_or_between {x : Binary64} (hleast : zero.lessOrSame x = true)
    (hgreatest : x.lessOrSame one = true) (hzero : x.same zero = false) :
    x = one ∨ x.isNegative = false ∧ 0 < x.magnitude ∧ x.magnitude < one.magnitude := by
  have hzeroKey : zero.orderKey = 0 := by decide
  have honeKey : one.orderKey = one.magnitude := by decide
  simp only [lessOrSame, Bool.and_eq_true, Bool.not_eq_true', decide_eq_true_eq] at hleast hgreatest
  obtain ⟨⟨hnumber, hnan⟩, hleast⟩ := hleast
  have hgreatest := hgreatest.2
  have hne : x.orderKey ≠ 0 := by
    simpa [same, hnan, hnumber, hzeroKey] using hzero
  rw [hzeroKey] at hleast
  rw [honeKey] at hgreatest
  rw [orderKey] at hleast hgreatest hne
  cases hsign : x.isNegative with
  | true =>
    rw [hsign, if_pos rfl] at hleast hne
    omega
  | false =>
    rw [hsign, if_neg Bool.false_ne_true] at hgreatest hne
    by_cases hone : x.magnitude = one.magnitude
    · rw [← ofMagnitude_magnitude x, hsign, hone]
      exact .inl (by decide)
    · exact .inr ⟨rfl, by omega, by omega⟩

/-! ### Factors for lengths -/

section Factor

variable {b average : Binary64}

/-- A share of a length in an average is not negative. -/
theorem bounds_share {n : Nat} (hb : Nonnegative b.unpacked) (hb' : Below 1 b.unpacked)
    (hn : n < UInt64.size) (haverage : AtLeast (-64) average.unpacked)
    (haverage' : Below 66 average.unpacked) :
    Nonnegative (b * ofNat n / average).unpacked ∧ Below 133 (b * ofNat n / average).unpacked := by
  have hproduct : Nonnegative (b * ofNat n).unpacked ∧ Below 67 (b * ofNat n).unpacked := by
    rcases Nat.eq_zero_or_pos n with rfl | hpos
    · obtain ⟨s, hs⟩ := mul_zero_unpacked hb .positive
      rw [ofNat_zero, unpacked_mul, unpacked_zero, hs]
      · exact ⟨trivial, trivial⟩
      · rw [unpacked_zero, hs]
        trivial
    · obtain ⟨hlength, hlength'⟩ := bounds_ofNat hpos hn
      have hbelow := below_mul hb' hlength hlength' (by omega)
      rw [unpacked_mul (hbelow.mono (by omega))]
      exact ⟨nonnegative_mul hb hlength, hbelow⟩
  have hbelow := below_div hproduct.2 haverage haverage' (by omega)
  rw [unpacked_div (hbelow.mono (by omega))]
  exact ⟨nonnegative_div hproduct.1 haverage haverage', hbelow⟩

/-- A denominator that consists of what a number below one leaves of one and a share of a
length. -/
theorem bounds_denominator_of_lt_one {n : Nat} (hb : Nonnegative b.unpacked)
    (hb' : Below 0 b.unpacked) (hn : n < UInt64.size) (haverage : AtLeast (-64) average.unpacked)
    (haverage' : Below 66 average.unpacked) :
    AtLeast (-65) (one - b + b * ofNat n / average).unpacked ∧
      Below 135 (one - b + b * ofNat n / average).unpacked := by
  obtain ⟨hshare, hshare'⟩ := bounds_share hb (hb'.mono (by omega)) hn haverage haverage'
  have hrest := atLeast_one_sub hb hb'
  have hrest' := below_sub (by omega) bounds_one.2 (hb'.mono (k := 1) (by omega))
  rw [← unpacked_sub (hrest'.mono (by omega))] at hrest hrest'
  have hsum := atLeast_add (by omega) hshare hrest
  have hsum' := below_add (by omega) (hrest'.mono (by omega)) hshare'
  rw [add_unpacked_comm] at hsum
  rw [unpacked_add (hsum'.mono (by omega))]
  exact ⟨hsum.mono (by omega), hsum'⟩

/-- A denominator that is nothing but the share of a length other than zero. -/
theorem bounds_denominator_of_pos {n : Nat} (hpos : 0 < n) (hn : n < UInt64.size)
    (haverage : AtLeast (-64) average.unpacked) (haverage' : Below 66 average.unpacked) :
    AtLeast (-65) (one - one + one * ofNat n / average).unpacked ∧
      Below 135 (one - one + one * ofNat n / average).unpacked := by
  obtain ⟨hone, hone'⟩ := bounds_one
  obtain ⟨hlength, hlength'⟩ := bounds_ofNat hpos hn
  have hrest : one - one = zero := by decide +kernel
  have hproduct := atLeast_mul hone hlength (by omega)
  have hproduct' := below_mul hone' hlength hlength' (by omega)
  rw [← unpacked_mul (hproduct'.mono (by omega))] at hproduct hproduct'
  have hshare := atLeast_div hproduct hproduct' haverage haverage' (by omega)
  have hshare' := below_div hproduct' haverage haverage' (by omega)
  rw [← unpacked_div (hshare'.mono (by omega))] at hshare hshare'
  have hzero : Nonnegative zero.unpacked ∧ Below 133 zero.unpacked := ⟨trivial, trivial⟩
  have hsum := atLeast_add (by omega) hzero.1 hshare
  have hsum' := below_add (by omega) hzero.2 hshare'
  rw [hrest, unpacked_add (hsum'.mono (by omega))]
  exact ⟨hsum, hsum'⟩

/-- A denominator with these bounds makes a positive and finite factor. -/
theorem isPositiveFinite_one_div {x : Binary64} (hx : AtLeast (-65) x.unpacked)
    (hx' : Below 135 x.unpacked) : (one / x).isPositiveFinite = true := by
  obtain ⟨hone, hone'⟩ := bounds_one
  have hquotient := atLeast_div hone hone' hx hx' (by omega)
  have hquotient' := below_div hone' hx hx' (by omega)
  rw [← unpacked_div (hquotient'.mono (by omega))] at hquotient hquotient'
  exact isPositiveFinite_of_bounds hquotient hquotient'

end Factor

end Binary64

namespace FieldIndex

open Binary64 (zero)

/-! ### Mean lengths -/

/-- A field that records lengths, not all of them zero, for a number of documents of 64 bits. -/
structure Measured (f : FieldIndex) : Prop where
  /-- Some lengths are recorded. -/
  nonempty : 0 < f.lengths.size
  /-- They can be counted. -/
  size : f.lengths.size < UInt64.size
  /-- They do not add up to zero. -/
  total : 0 < f.totalLength.toNat

variable {f : FieldIndex}

theorem averageLength_eq (hpos : 0 < f.lengths.size) :
    f.averageLength = Binary64.ofNat f.totalLength.toNat / Binary64.ofNat f.lengths.size := by
  have hempty : f.lengths.isEmpty = false :=
    List.isEmpty_eq_false_iff.2 (List.length_pos_iff.1 hpos)
  rw [averageLength, hempty, if_neg Bool.false_ne_true]

/-- The mean length is computed as zero only if the lengths add up to zero. -/
theorem measured_of_averageLength (hpos : 0 < f.lengths.size) (hsize : f.lengths.size < UInt64.size)
    (haverage : f.averageLength.same zero = false) : f.Measured := by
  refine ⟨hpos, hsize, Nat.pos_of_ne_zero fun hzero => ?_⟩
  obtain ⟨hcount, -⟩ := Binary64.bounds_ofNat hpos hsize
  rw [averageLength_eq hpos, hzero, Binary64.ofNat_zero,
    Binary64.zero_div_eq_zero hcount] at haverage
  exact absurd haverage (by decide)

theorem Measured.bounds_averageLength (hf : f.Measured) :
    Binary64.AtLeast (-64) f.averageLength.unpacked ∧
      Binary64.Below 66 f.averageLength.unpacked := by
  obtain ⟨htotal, htotal'⟩ := Binary64.bounds_ofNat hf.total f.totalLength.toNat_lt
  obtain ⟨hcount, hcount'⟩ := Binary64.bounds_ofNat hf.nonempty hf.size
  have hleast := Binary64.atLeast_div htotal htotal' hcount hcount' (by omega)
  have hbelow := Binary64.below_div htotal' hcount hcount' (by omega)
  rw [averageLength_eq hf.nonempty, Binary64.unpacked_div (hbelow.mono (by omega))]
  exact ⟨hleast, hbelow⟩

end FieldIndex

namespace InvertedIndex

open Binary64 (one zero)

/-! ### The factor of an index -/

/-- The exact denominator of the factor for a length. -/
def normDenominator (index : InvertedIndex) (f : FieldIndex) (n : UInt32) : ℚ :=
  let b := index.config.lengthNormalization.rational
  1 - b + b * n.toNat / (f.totalLength.toNat / f.lengths.size)

variable {index : InvertedIndex} {f : FieldIndex} {n : UInt32} {r : String}

theorem norm_eq (hweight : index.config.lengthNormalization.same zero = false)
    (haverage : f.averageLength.same zero = false) (hn : f.length? r = some n) :
    index.norm f r = one / (one - index.config.lengthNormalization +
      index.config.lengthNormalization * Binary64.ofNat n.toNat / f.averageLength) := by
  rw [norm, hweight, haverage, hn]
  rfl

/-- If length counts in full and there is none, then one is divided by zero. -/
theorem norm_eq_infinity (hf : f.Measured) (haverage : f.averageLength.same zero = false)
    (hn : f.length? r = some 0) (hweight : index.config.lengthNormalization = one) :
    index.norm f r = Binary64.infinity := by
  have hshare : one * Binary64.ofNat (0 : UInt32).toNat / f.averageLength = zero := by
    have hproduct : one * Binary64.ofNat (0 : UInt32).toNat = zero := by decide +kernel
    rw [hproduct, Binary64.zero_div_eq_zero hf.bounds_averageLength.1]
  rw [norm_eq (by rw [hweight]; decide) haverage hn, hweight, hshare]
  decide +kernel

section Weighted

variable (hf : f.Measured) (hconfig : index.config.Usable)
  (hweight : index.config.lengthNormalization.same zero = false)

include hf hconfig hweight

/-- **The exact denominator is positive** unless length counts in full and there is none. -/
theorem normDenominator_pos_iff : 0 < index.normDenominator f n ↔
    ¬ (index.config.lengthNormalization = one ∧ n = 0) := by
  have haverage : (0 : ℚ) < f.totalLength.toNat / f.lengths.size :=
    div_pos (Nat.cast_pos.2 hf.total) (Nat.cast_pos.2 hf.nonempty)
  rw [normDenominator]
  rcases Binary64.eq_one_or_between hconfig.least hconfig.greatest hweight with
    hone | ⟨hsign, hpos, hlt⟩
  · rw [hone, Binary64.rational_one, sub_self, zero_add, one_mul, div_pos_iff_of_pos_right haverage,
      Nat.cast_pos, Nat.pos_iff_ne_zero]
    simp [← UInt32.toNat_inj]
  · obtain ⟨hrational, hrational'⟩ := Binary64.rational_between hsign hpos hlt
    have hshare : (0 : ℚ) ≤ index.config.lengthNormalization.rational * n.toNat /
        (f.totalLength.toNat / f.lengths.size) :=
      div_nonneg (mul_nonneg hrational.le (Nat.cast_nonneg _)) haverage.le
    refine iff_of_true (by linarith) fun h => ?_
    rw [h.1] at hlt
    exact Nat.lt_irrefl _ hlt

/-- The factor is positive and finite unless length counts in full and there is none. -/
theorem isPositiveFinite_norm (haverage : f.averageLength.same zero = false)
    (hn : f.length? r = some n)
    (hgood : ¬ (index.config.lengthNormalization = one ∧ n = 0)) :
    (index.norm f r).isPositiveFinite = true := by
  obtain ⟨hleast, hbelow⟩ := hf.bounds_averageLength
  have hlength : n.toNat < UInt64.size := Nat.lt_of_lt_of_le n.toNat_lt (by decide)
  rw [norm_eq hweight haverage hn]
  rcases Binary64.eq_one_or_between hconfig.least hconfig.greatest hweight with
    hone | ⟨hsign, hpos, hlt⟩
  · have hne : 0 < n.toNat := by
      refine Nat.pos_of_ne_zero fun hzero => hgood ⟨hone, ?_⟩
      rw [← UInt32.toNat_inj, hzero, UInt32.toNat_zero]
    obtain ⟨hdenominator, hdenominator'⟩ :=
      Binary64.bounds_denominator_of_pos hne hlength hleast hbelow
    rw [hone]
    exact Binary64.isPositiveFinite_one_div hdenominator hdenominator'
  · have hbelow' := Binary64.below_unpacked (k := 0) (by omega) (hlt.trans_eq (by decide))
    have hnonnegative := Binary64.nonnegative_unpacked hsign hconfig.isFinite_lengthNormalization
    obtain ⟨hdenominator, hdenominator'⟩ :=
      Binary64.bounds_denominator_of_lt_one hnonnegative hbelow' hlength hleast hbelow
    exact Binary64.isPositiveFinite_one_div hdenominator hdenominator'

end Weighted

/-- **The factor is positive and finite** exactly if it is one for want of weights and lengths, or
else the exact denominator is positive. -/
theorem isPositiveFinite_norm_iff (hconfig : index.config.Usable) (hpos : 0 < f.lengths.size)
    (hsize : f.lengths.size < UInt64.size) (hn : f.length? r = some n) :
    (index.norm f r).isPositiveFinite = true ↔
      index.config.lengthNormalization.same zero = true ∨ f.averageLength.same zero = true ∨
        0 < index.normDenominator f n := by
  cases hweight : index.config.lengthNormalization.same zero with
  | true =>
    have hone : index.norm f r = one := by simp [norm, hweight]
    rw [hone]
    exact iff_of_true (by decide) (.inl rfl)
  | false =>
    cases haverage : f.averageLength.same zero with
    | true =>
      have hone : index.norm f r = one := by simp [norm, haverage]
      rw [hone]
      exact iff_of_true (by decide) (.inr (.inl rfl))
    | false =>
      have hf := FieldIndex.measured_of_averageLength hpos hsize haverage
      rw [normDenominator_pos_iff hf hconfig hweight]
      simp only [Bool.false_eq_true, false_or]
      refine ⟨?_, isPositiveFinite_norm hf hconfig hweight haverage hn⟩
      rintro hfinite ⟨hone, rfl⟩
      rw [norm_eq_infinity hf haverage hn hone] at hfinite
      exact absurd hfinite (by decide)

/-! ### Hits -/

/-- A hit of a consistent index leads to a document whose length is recorded by the field. -/
theorem Consistent.exists_length_of_mem_hits (h : index.Consistent) {es : List Expansion}
    {hit : Hit} (hhit : hit ∈ index.hits es) : ∃ f n, index.field? hit.found.field = some f ∧
      f.length? hit.reference = some n ∧ 0 < f.lengths.size ∧ f.lengths.size < UInt64.size := by
  obtain ⟨e, f, p, -, -, hf, hp, ho, -⟩ := mem_hits_iff.1 hhit
  obtain ⟨f', hf', hfits⟩ := h.field _ (h.mem_fieldNames hf)
  obtain rfl := Option.some.inj (hf.symm.trans hf')
  have hrecorded := hfits.recorded p (SortedMap.mem_values_iff.2 ⟨_, hp⟩) hit.reference
    (SortedMap.mem_keys_iff.2 ⟨_, ho⟩)
  obtain ⟨n, hn⟩ := SortedMap.mem_keys_iff.1 hrecorded
  refine ⟨f, n, hf, hn, ?_, ?_⟩
  · rw [← SortedMap.length_keys]
    exact List.length_pos_of_mem hrecorded
  · rw [hfits.lengths]
    exact UInt64.toNat_lt _

/-- **A built index records no length of zero for a listed document,** as far as its counters
reach. -/
theorem length_ne_zero_build {config : Config} {pipeline : Pipeline} {documents : List Document}
    (hconfig : config.Usable) (hnodup : (documents.map (·.reference)).Nodup) {es : List Expansion}
    {hit : Hit} (hhit : hit ∈ (build config pipeline documents).hits es)
    (hfits : ∀ d ∈ documents,
      (fieldTokens pipeline d hit.found.field).length < UInt32.size)
    (hf : (build config pipeline documents).field? hit.found.field = some f)
    (hn : f.length? hit.reference = some n) : n ≠ 0 := by
  obtain ⟨e, f', p, -, -, hf', hp, ho, -⟩ := mem_hits_iff.1 hhit
  obtain rfl := Option.some.inj (hf'.symm.trans hf)
  rw [field?_build hconfig.nodup] at hf
  split_ifs at hf
  obtain rfl := Option.some.inj hf
  have hrecords := records_builtField pipeline hnodup hit.found.field
  have hkeys : ((fieldDocuments pipeline hit.found.field documents).map (·.1)).Nodup := by
    simpa using hnodup
  obtain ⟨tokens, htokens, hpositions, -⟩ := (hrecords.occurrences?_eq_some_iff hkeys hp).1 ho
  obtain ⟨d, hd, -, rfl⟩ := mem_fieldDocuments.1 htokens
  rw [hrecords.lengths, (FieldIndex.Records.lookup_eq_some_iff hkeys).2 htokens, Option.map_some,
    Option.some.injEq] at hn
  rintro rfl
  have hlength := UInt32.toNat_ofNat_of_lt' (hfits d hd)
  rw [hn, UInt32.toNat_zero] at hlength
  refine hpositions ?_
  rw [List.length_eq_zero_iff.1 hlength.symm]
  rfl

end InvertedIndex

namespace Index

open InvertedIndex (fieldTokens)

/-- The indexes that are held with a pipeline: built from the documents of a builder, or loaded from
a JSON text or from bytes. -/
inductive Held (pipeline : Pipeline) : Index → Prop
  /-- An index that a builder makes of the documents it has accepted. -/
  | built {config b index} (hreached : IndexBuilder.Reached config pipeline b)
      (hcount : b.documents.length < UInt64.size) (hbuild : b.build = .ok index) :
      Held pipeline index
  /-- An index that is loaded from a JSON text. -/
  | text {text index} (hload : ofText text pipeline = .ok index) : Held pipeline index
  /-- An index that is loaded from bytes. -/
  | bytes {bytes index} (hload : ofBytes bytes pipeline = .ok index) : Held pipeline index

theorem Held.consistent {pipeline : Pipeline} {index : Index} (h : Held pipeline index) :
    index.inverted.Consistent := by
  cases h with
  | built hreached hcount hbuild =>
    obtain ⟨hconfig, rfl⟩ := eq_of_build hreached hbuild
    exact InvertedIndex.consistent_build hconfig hreached.sound.nodup hcount
  | text hload => exact consistent_of_load (.inl ⟨_, hload⟩)
  | bytes hload => exact consistent_of_load (.inr ⟨_, hload⟩)

/-- **The factor for a length is positive and finite wherever the exact denominator is positive,**
for all hits of a built or loaded index. This is so unless length counts in full and the listed
document has a recorded length of zero, which no built index has for fields of fewer than `2 ^ 32`
tokens. -/
theorem norm_divides_safely {pipeline : Pipeline} {index : Index} (h : Held pipeline index)
    {es : List Expansion} {hit : Hit} (hhit : hit ∈ index.inverted.hits es) :
    ∃ f n, index.inverted.field? hit.found.field = some f ∧ f.length? hit.reference = some n ∧
      (index.config.lengthNormalization.same .zero = false → f.averageLength.same .zero = false →
        (0 < index.inverted.normDenominator f n ↔
          ¬ (index.config.lengthNormalization = .one ∧ n = 0))) ∧
      ((index.inverted.norm f hit.reference).isPositiveFinite = true ↔
        index.config.lengthNormalization.same .zero = true ∨ f.averageLength.same .zero = true ∨
          0 < index.inverted.normDenominator f n) ∧
      ∀ config b, IndexBuilder.Reached config pipeline b → b.build = .ok index →
        (∀ d ∈ b.documents, (fieldTokens pipeline d hit.found.field).length < UInt32.size) →
        n ≠ 0 := by
  have hconsistent := h.consistent
  obtain ⟨f, n, hf, hn, hpos, hsize⟩ := hconsistent.exists_length_of_mem_hits hhit
  refine ⟨f, n, hf, hn, fun hweight haverage => ?_, ?_, fun config b hreached hbuild hfits => ?_⟩
  · exact InvertedIndex.normDenominator_pos_iff
      (FieldIndex.measured_of_averageLength hpos hsize haverage) hconsistent.config hweight
  · exact InvertedIndex.isPositiveFinite_norm_iff hconsistent.config hpos hsize hn
  · obtain ⟨hconfig, rfl⟩ := eq_of_build hreached hbuild
    exact InvertedIndex.length_ne_zero_build hconfig hreached.sound.nodup hhit hfits hf hn

/-- A configuration in which length counts in full. -/
def Sample.fullWeight : Config := { Sample.config with lengthNormalization := .one }

/-- The expansion that finds one term in one field. -/
def Sample.oneMatch (field term : String) : List Expansion :=
  [⟨.ofTerm term, .ofElements [⟨field, term⟩]⟩]

/-- A document of four tokens in an index in which length counts in full. -/
theorem norm_divides_safely_sample :
    ∃ index, Index.build Sample.fullWeight ⟨.separator, []⟩ Sample.documents = .ok index ∧
      ∃ hit ∈ index.inverted.hits (Sample.oneMatch "body" "leaves"), ∃ f n,
        index.inverted.field? hit.found.field = some f ∧ f.length? hit.reference = some n ∧
        n ≠ 0 ∧ 0 < index.inverted.normDenominator f n ∧
        (index.inverted.norm f hit.reference).isPositiveFinite = true := by
  let index : Index :=
    ⟨.build Sample.fullWeight ⟨.separator, []⟩ Sample.documents, ⟨.separator, []⟩⟩
  have hreached : IndexBuilder.Reached Sample.fullWeight ⟨.separator, []⟩
      ((IndexBuilder.new Sample.fullWeight ⟨.separator, []⟩).addAll Sample.documents).1 :=
    IndexBuilder.Reached.new.addAll Sample.documents
  have hhits : 0 < (index.inverted.hits (Sample.oneMatch "body" "leaves")).length := by
    decide +kernel
  have hfields : ∀ hit ∈ index.inverted.hits (Sample.oneMatch "body" "leaves"),
      hit.found.field = "body" := by decide +kernel
  have haverages : ∀ f ∈ index.inverted.field? "body", f.averageLength.same .zero = false := by
    decide +kernel
  obtain ⟨hit, hhit⟩ := List.exists_mem_of_length_pos hhits
  obtain ⟨f, n, hf, hn, hpositive, hfinite, hbuilt⟩ :=
    norm_divides_safely (.built hreached (by decide) rfl : Held _ index) hhit
  have hfield := hfields hit hhit
  have hne : n ≠ 0 := by
    refine hbuilt _ _ hreached rfl ?_
    rw [hfield]
    decide +kernel
  have hdenominator : 0 < index.inverted.normDenominator f n := by
    rw [hpositive (by decide) (haverages f (hfield ▸ hf))]
    exact fun h => hne h.2
  exact ⟨index, rfl, hit, hhit, f, n, hf, hn, hne, hdenominator,
    hfinite.2 (.inr (.inr hdenominator))⟩

/-- The body of two documents. A posting lists the document that is recorded without length. -/
def Sample.unmeasuredBody : FieldIndex where
  terms := .ofList [("green", ⟨.half, .ofList [("a", .single 0)]⟩)]
  lengths := .ofList [("a", 0), ("b", 1)]
  totalLength := 1

/-- An index of this field in which length counts in full. -/
def Sample.unmeasured : Index where
  inverted := ⟨Sample.fullWeight, 2, .ofList [("body", Sample.unmeasuredBody)]⟩
  pipeline := ⟨.separator, []⟩

theorem Sample.storable_unmeasured : Sample.unmeasured.Storable where
  consistent := by decide +kernel
  finite := ⟨by decide +kernel, by decide +kernel, by decide +kernel⟩

/-- This index is loaded, and one is divided by zero for the document without length. -/
theorem norm_divides_by_zero :
    ofText Sample.unmeasured.toText Sample.unmeasured.pipeline = .ok Sample.unmeasured ∧
    ofBytes Sample.unmeasured.toBytes Sample.unmeasured.pipeline = .ok Sample.unmeasured ∧
    ∃ hit ∈ Sample.unmeasured.inverted.hits (Sample.oneMatch "body" "green"),
      Sample.unmeasured.inverted.field? hit.found.field = some Sample.unmeasuredBody ∧
      Sample.unmeasuredBody.length? hit.reference = some 0 ∧
      Sample.unmeasured.config.lengthNormalization.same .zero = false ∧
      Sample.unmeasuredBody.averageLength.same .zero = false ∧
      Sample.unmeasured.inverted.normDenominator Sample.unmeasuredBody 0 = 0 ∧
      Sample.unmeasured.inverted.norm Sample.unmeasuredBody hit.reference = .infinity ∧
      hit.contribution = .infinity := by
  have hbytes := ofBytes_toBytes Sample.storable_unmeasured.consistent (by decide +kernel) []
  rw [List.append_nil] at hbytes
  have hdenominator : Sample.unmeasured.inverted.normDenominator Sample.unmeasuredBody 0 = 0 := by
    have hweight : Sample.unmeasured.inverted.config.lengthNormalization = .one := rfl
    rw [InvertedIndex.normDenominator, hweight, Binary64.rational_one]
    simp
  have hhits : ∃ hit ∈ Sample.unmeasured.inverted.hits (Sample.oneMatch "body" "green"),
      Sample.unmeasured.inverted.field? hit.found.field = some Sample.unmeasuredBody ∧
      Sample.unmeasuredBody.length? hit.reference = some 0 ∧
      Sample.unmeasured.inverted.norm Sample.unmeasuredBody hit.reference = .infinity ∧
      hit.contribution = .infinity := by decide +kernel
  obtain ⟨hit, hhit, hfield, hlength, hnorm, hcontribution⟩ := hhits
  exact ⟨ofText_toText Sample.storable_unmeasured, hbytes, hit, hhit, hfield, hlength,
    by decide +kernel, by decide +kernel, hdenominator, hnorm, hcontribution⟩

end Index

end FullText
