import FullText.FieldIndex
import FullText.Proofs.SortedMapKeys
import Mathlib

/-!
# What the index of a field records

The index of a field is filled document by document and token by token. What it records is said
here for a list of references with their tokens, without reference to the order in which the maps
are filled: the occurrences of a term in a document are the positions of its tokens, the length is
the number of tokens, and no posting is without documents.

## Main definitions

* `Token.positionsOf` : the positions of a term among tokens.
* `FieldIndex.occurrences?` : what is recorded of a term for a document.
* `FieldIndex.addAll` : the index after further documents.
* `FieldIndex.Records` : the index records exactly the given documents.

## Main results

* `FieldIndex.Records.addDocument` : recording a document adds it to what is recorded.
* `FieldIndex.Records.addAll` : the index of a list of documents records the list.
* `FieldIndex.Records.weigh` : computing the weights does not change what is recorded.
* `FieldIndex.Records.documentFrequency_eq` : the number of documents of a posting.
-/

namespace FullText

/-- The positions of the tokens with a given text, in the order of the tokens. -/
def Token.positionsOf (term : String) (tokens : List Token) : List Nat :=
  (tokens.filter fun t => t.text = term).map (·.position)

theorem Token.positionsOf_eq_nil_iff {term : String} {tokens : List Token} :
    positionsOf term tokens = [] ↔ ∀ t ∈ tokens, t.text ≠ term := by
  simp [positionsOf, List.filter_eq_nil_iff]

theorem Token.length_positionsOf (term : String) (tokens : List Token) :
    (positionsOf term tokens).length = (tokens.map (·.text)).count term := by
  rw [positionsOf, List.length_map, ← List.countP_eq_length_filter, List.count, List.countP_map]
  rfl

/-- Every token is at a position of exactly one term. -/
theorem Token.sum_length_positionsOf {terms : List String} (hnodup : terms.Nodup)
    {tokens : List Token} (hterms : ∀ t ∈ tokens, t.text ∈ terms) :
    (terms.map fun term => (positionsOf term tokens).length).sum = tokens.length := by
  have hmem : ∀ s ∈ (↑(tokens.map (·.text)) : Multiset String), s ∈ terms.toFinset := by
    intro s hs
    obtain ⟨t, ht, rfl⟩ := List.mem_map.1 (Multiset.mem_coe.1 hs)
    exact List.mem_toFinset.2 (hterms t ht)
  have hcard := Multiset.sum_count_eq_card hmem
  rw [List.sum_toFinset _ hnodup, Multiset.coe_card, List.length_map] at hcard
  simpa [length_positionsOf] using hcard

namespace Occurrences

/-- The occurrences after further ones at the given positions. -/
def extend? (o : Option Occurrences) (positions : List Nat) : Option Occurrences :=
  positions.foldl (fun o p => some ((o.map fun o => o.add (UInt32.ofNat p)).getD
    (.single (UInt32.ofNat p)))) o

/-- The occurrences at the given positions, if there are any. -/
def ofPositions? (positions : List Nat) : Option Occurrences :=
  if positions = [] then none
  else some ⟨UInt32.ofNat positions.length, positions.map UInt32.ofNat⟩

theorem extend?_cons (o : Option Occurrences) (p : Nat) (ps : List Nat) :
    extend? o (p :: ps) = extend? (some ((o.map fun o => o.add (UInt32.ofNat p)).getD
      (.single (UInt32.ofNat p)))) ps := rfl

private theorem extend?_some (o : Occurrences) (hfrequency : o.frequency =
    UInt32.ofNat o.positions.length) (ps : List Nat) :
    extend? (some o) ps = some ⟨UInt32.ofNat (o.positions.length + ps.length),
      o.positions ++ ps.map UInt32.ofNat⟩ := by
  induction ps generalizing o with
  | nil => simp [extend?, ← hfrequency]
  | cons p ps ih =>
    rw [extend?_cons, Option.map_some, Option.getD_some, ih (o.add _) (by simp [add])]
    simp [add, Nat.add_assoc, Nat.add_comm 1]

/-- Occurrences that are recorded one after another are those at all positions. -/
theorem extend?_none (ps : List Nat) : extend? none ps = ofPositions? ps := by
  cases ps with
  | nil => rfl
  | cons p ps =>
    have hsingle : UInt32.ofNat 1 = 1 := rfl
    rw [extend?_cons, Option.map_none, Option.getD_none, extend?_some _ (by simp [single, hsingle])]
    simp [single, ofPositions?, Nat.add_comm 1]

theorem ofPositions?_eq_some_iff {ps : List Nat} {o : Occurrences} :
    ofPositions? ps = some o ↔
      ps ≠ [] ∧ o = ⟨UInt32.ofNat ps.length, ps.map UInt32.ofNat⟩ := by
  rw [ofPositions?]
  split <;> simp_all [eq_comm]

end Occurrences

namespace Posting

/-- Recording an occurrence extends the occurrences in one document. -/
theorem occurrences?_add (p : Posting) (r : String) (position : Nat) (r' : String) :
    (p.add r (UInt32.ofNat position)).occurrences? r' =
      if r' = r then Occurrences.extend? (p.occurrences? r) [position] else p.occurrences? r' := by
  rw [occurrences?, add, SortedMap.get?_upsert]
  split
  · rw [occurrences?]
    cases p.documents.get? r <;> rfl
  · rfl

end Posting

namespace FieldIndex

/-! ### Recording tokens -/

/-- What a vocabulary records of a term for a document. -/
def occurrencesIn (terms : SortedMap String Posting) (term reference : String) :
    Option Occurrences :=
  (terms.get? term).bind fun p => p.occurrences? reference

/-- What is recorded of a term for a document. -/
def occurrences? (f : FieldIndex) (term reference : String) : Option Occurrences :=
  occurrencesIn f.terms term reference

/-- The vocabulary after one token of a document. -/
def recordToken (reference : String) (terms : SortedMap String Posting) (t : Token) :
    SortedMap String Posting :=
  terms.upsert t.text fun present =>
    (present.getD .empty).add reference (UInt32.ofNat t.position)

theorem addTokens_eq_foldl (reference : String) (terms : SortedMap String Posting)
    (tokens : List Token) :
    addTokens reference terms tokens = tokens.foldl (recordToken reference) terms := rfl

theorem occurrencesIn_recordToken (r : String) (terms : SortedMap String Posting) (t : Token)
    (term r' : String) :
    occurrencesIn (recordToken r terms t) term r' =
      if r' = r ∧ t.text = term then
        Occurrences.extend? (occurrencesIn terms term r) [t.position]
      else occurrencesIn terms term r' := by
  rw [occurrencesIn, recordToken, SortedMap.get?_upsert]
  by_cases hterm : term = t.text
  · subst hterm
    rw [if_pos rfl, Option.bind_some, Posting.occurrences?_add]
    have hpresent (s : String) : ((terms.get? t.text).getD .empty).occurrences? s =
        occurrencesIn terms t.text s := by
      rw [occurrencesIn]
      cases terms.get? t.text <;> rfl
    simp only [hpresent, and_true]
  · rw [if_neg hterm, if_neg fun h => hterm h.2.symm, occurrencesIn]

/-- **The tokens of a document extend its occurrences of each term by the positions of the term.**
Those in other documents stay as they are. -/
theorem occurrencesIn_addTokens (r : String) (terms : SortedMap String Posting)
    (tokens : List Token) (term r' : String) :
    occurrencesIn (addTokens r terms tokens) term r' =
      if r' = r then
        Occurrences.extend? (occurrencesIn terms term r) (Token.positionsOf term tokens)
      else occurrencesIn terms term r' := by
  rw [addTokens_eq_foldl]
  induction tokens generalizing terms with
  | nil =>
    by_cases hr : r' = r
    · rw [if_pos hr, hr]; rfl
    · rw [if_neg hr]; rfl
  | cons t rest ih =>
    rw [List.foldl_cons, ih, occurrencesIn_recordToken, occurrencesIn_recordToken]
    by_cases hr : r' = r
    · by_cases hterm : t.text = term
      · simp [hr, hterm, Token.positionsOf, Occurrences.extend?]
      · simp [hr, hterm, Token.positionsOf]
    · simp [hr]

/-- Every posting of a vocabulary is that of some document. -/
def AllInhabited (terms : SortedMap String Posting) : Prop :=
  ∀ term p, terms.get? term = some p → ∃ r, (p.occurrences? r).isSome

theorem AllInhabited.recordToken {terms : SortedMap String Posting} (h : AllInhabited terms)
    (r : String) (t : Token) : AllInhabited (recordToken r terms t) := by
  intro term p hp
  rw [FieldIndex.recordToken, SortedMap.get?_upsert] at hp
  split at hp
  · obtain rfl := Option.some.inj hp
    refine ⟨r, ?_⟩
    rw [Posting.occurrences?_add, if_pos rfl]
    rfl
  · exact h term p hp

theorem AllInhabited.addTokens {terms : SortedMap String Posting} (h : AllInhabited terms)
    (r : String) (tokens : List Token) : AllInhabited (addTokens r terms tokens) := by
  rw [addTokens_eq_foldl]
  induction tokens generalizing terms with
  | nil => exact h
  | cons t rest ih => exact ih (h.recordToken r t)

/-! ### Weights -/

/-- The weights change nothing but the inverse document frequencies. -/
theorem exists_posting?_of_weigh {f : FieldIndex} {n : Nat} {term : String} {p : Posting}
    (hp : (f.weigh n).posting? term = some p) : ∃ q, f.posting? term = some q ∧
      p.idf = inverseDocumentFrequency q.documentFrequency n ∧ p.documents = q.documents := by
  rw [posting?, weigh, SortedMap.get?_mapValues] at hp
  obtain ⟨q, hq, rfl⟩ := Option.map_eq_some_iff.1 hp
  exact ⟨q, hq, rfl, rfl⟩

theorem occurrencesIn_weigh (f : FieldIndex) (n : Nat) (term r : String) :
    occurrencesIn (f.weigh n).terms term r = occurrencesIn f.terms term r := by
  rw [occurrencesIn, weigh, SortedMap.get?_mapValues, occurrencesIn, Option.bind_map]
  simp only [Function.comp_def, Posting.occurrences?]

/-! ### Recording documents -/

/-- The index after further documents, given by their references and tokens. -/
def addAll (f : FieldIndex) (documents : List (String × List Token)) : FieldIndex :=
  documents.foldl (fun f e => f.addDocument e.1 e.2) f

/-- An index of a field records exactly the documents of a list, given by their references and
tokens. -/
structure Records (documents : List (String × List Token)) (f : FieldIndex) : Prop where
  /-- The occurrences of a term in a document are the positions of its tokens. -/
  occurrences : ∀ term r, f.occurrences? term r =
    (documents.lookup r).bind fun tokens => Occurrences.ofPositions? (Token.positionsOf term tokens)
  /-- No posting is without documents. -/
  inhabited : AllInhabited f.terms
  /-- The length is the number of tokens. -/
  lengths : ∀ r, f.length? r =
    (documents.lookup r).map fun tokens => UInt32.ofNat tokens.length
  /-- The total length is the sum of the lengths. -/
  total : f.totalLength =
    UInt64.ofNat (documents.map fun e => (UInt32.ofNat e.2.length).toNat).sum

namespace Records

variable {documents : List (String × List Token)} {f : FieldIndex}

theorem empty : Records [] .empty where
  occurrences _ _ := rfl
  inhabited := fun _ _ h => by cases h
  lengths _ := rfl
  total := rfl

theorem lookup_eq_none {α : Type} {documents : List (String × α)} {r : String}
    (hr : r ∉ documents.map (·.1)) : documents.lookup r = none :=
  List.lookup_eq_none_iff.2 fun e he => by
    simpa using fun h => hr (List.mem_map.2 ⟨e, he, h.symm⟩)

theorem lookup_concat {α : Type} {documents : List (String × α)} {r : String} (tokens : α)
    (hr : r ∉ documents.map (·.1)) (r' : String) :
    (documents ++ [(r, tokens)]).lookup r' =
      if r' = r then some tokens else documents.lookup r' := by
  rw [List.lookup_append, List.lookup_cons]
  by_cases hrr : r' = r
  · rw [hrr, if_pos rfl, lookup_eq_none hr, beq_self_eq_true]
    rfl
  · rw [if_neg hrr, beq_false_of_ne hrr, List.lookup_nil, Option.or_none]

/-- Recording a document with a new reference adds it to what is recorded. -/
theorem addDocument (h : Records documents f) {r : String} (hr : r ∉ documents.map (·.1))
    (tokens : List Token) : Records (documents ++ [(r, tokens)]) (f.addDocument r tokens) where
  occurrences term r' := by
    have hf (s : String) : occurrencesIn f.terms term s = (documents.lookup s).bind fun tokens =>
        Occurrences.ofPositions? (Token.positionsOf term tokens) := h.occurrences term s
    rw [occurrences?, FieldIndex.addDocument, occurrencesIn_addTokens, lookup_concat tokens hr]
    split
    · rw [hf, lookup_eq_none hr, Option.bind_none, Occurrences.extend?_none, Option.bind_some]
    · exact hf r'
  inhabited := h.inhabited.addTokens r tokens
  lengths r' := by
    have hf (s : String) : f.lengths.get? s =
        (documents.lookup s).map fun tokens => UInt32.ofNat tokens.length := h.lengths s
    rw [length?, FieldIndex.addDocument, SortedMap.get?_insert, lookup_concat tokens hr]
    split
    · rfl
    · exact hf r'
  total := by
    have hlength : (UInt32.ofNat tokens.length).toUInt64 =
        UInt64.ofNat (UInt32.ofNat tokens.length).toNat := by
      rw [← UInt32.toNat_toUInt64, UInt64.ofNat_toNat]
    rw [FieldIndex.addDocument, h.total, List.map_append, List.sum_append, UInt64.ofNat_add,
      hlength]
    simp

/-- **The index of a list of documents with distinct references records the list.** -/
theorem addAll (h : Records documents f) (more : List (String × List Token))
    (hnodup : ((documents ++ more).map (·.1)).Nodup) :
    Records (documents ++ more) (f.addAll more) := by
  induction more generalizing documents f with
  | nil => rwa [List.append_nil]
  | cons e more ih =>
    have hfresh : e.1 ∉ documents.map (·.1) := by
      rw [List.map_append, List.nodup_append] at hnodup
      exact fun he => hnodup.2.2 e.1 he e.1 (by simp) rfl
    have hrest := ih (h.addDocument hfresh e.2) (by simpa using hnodup)
    rwa [List.append_assoc, List.singleton_append] at hrest

/-- Computing the weights does not change what is recorded. -/
theorem weigh (h : Records documents f) (n : Nat) : Records documents (f.weigh n) where
  occurrences term r := by
    rw [← h.occurrences term r, occurrences?, occurrencesIn_weigh, occurrences?]
  inhabited term p hp := by
    obtain ⟨q, hq, -, hdocuments⟩ := exists_posting?_of_weigh hp
    obtain ⟨r, hr⟩ := h.inhabited term q hq
    refine ⟨r, ?_⟩
    rwa [Posting.occurrences?, hdocuments]
  lengths := h.lengths
  total := h.total

/-! ### Consequences -/

/-- The lookups in a list of references with their tokens, when no reference occurs twice. -/
theorem lookup_eq_some_iff {α : Type} {documents : List (String × α)}
    (hnodup : (documents.map (·.1)).Nodup) {r : String} {tokens : α} :
    documents.lookup r = some tokens ↔ (r, tokens) ∈ documents := by
  induction documents with
  | nil => simp
  | cons e rest ih =>
    obtain ⟨r', tokens'⟩ := e
    obtain ⟨hfresh, hrest⟩ := List.nodup_cons.1 hnodup
    rw [List.lookup_cons]
    by_cases hr : r = r'
    · subst hr
      have hnot : (r, tokens) ∉ rest := fun h => hfresh (List.mem_map.2 ⟨_, h, rfl⟩)
      simp [hnot, eq_comm]
    · rw [beq_false_of_ne hr]
      simp [hr, ih hrest]

/-- A posting is that of the documents that have a token with its term. -/
theorem occurrences?_eq_some_iff (h : Records documents f)
    (hnodup : (documents.map (·.1)).Nodup) {term : String} {p : Posting}
    (hp : f.posting? term = some p) {r : String} {o : Occurrences} :
    p.occurrences? r = some o ↔ ∃ tokens, (r, tokens) ∈ documents ∧
      Token.positionsOf term tokens ≠ [] ∧
      o = ⟨UInt32.ofNat (Token.positionsOf term tokens).length,
        (Token.positionsOf term tokens).map UInt32.ofNat⟩ := by
  have hoccurrences := h.occurrences term r
  rw [occurrences?, occurrencesIn, ← posting?, hp, Option.bind_some] at hoccurrences
  simp only [hoccurrences, Option.bind_eq_some_iff, lookup_eq_some_iff hnodup,
    Occurrences.ofPositions?_eq_some_iff]

/-- A term has a posting exactly if some document has a token with it. -/
theorem posting?_isSome_iff (h : Records documents f) (hnodup : (documents.map (·.1)).Nodup)
    {term : String} :
    (∃ p, f.posting? term = some p) ↔ ∃ e ∈ documents, ∃ t ∈ e.2, t.text = term := by
  constructor
  · rintro ⟨p, hp⟩
    obtain ⟨r, hr⟩ := h.inhabited term p hp
    obtain ⟨o, ho⟩ := Option.isSome_iff_exists.1 hr
    obtain ⟨tokens, hmem, hne, -⟩ := (h.occurrences?_eq_some_iff hnodup hp).1 ho
    rw [Ne, Token.positionsOf_eq_nil_iff] at hne
    push Not at hne
    exact ⟨(r, tokens), hmem, hne⟩
  · rintro ⟨⟨r, tokens⟩, hmem, t, ht, hterm⟩
    have hoccurrences := h.occurrences term r
    have hne : Token.positionsOf term tokens ≠ [] := fun hnil =>
      Token.positionsOf_eq_nil_iff.1 hnil t ht hterm
    rw [(lookup_eq_some_iff hnodup).2 hmem, Option.bind_some, Occurrences.ofPositions?,
      if_neg hne] at hoccurrences
    obtain ⟨p, hp, -⟩ := Option.bind_eq_some_iff.1 hoccurrences
    exact ⟨p, hp⟩

/-- The number of documents of a posting is the number of those that have a token with its
term. -/
theorem documentFrequency_eq (h : Records documents f) (hnodup : (documents.map (·.1)).Nodup)
    {term : String} {p : Posting} (hp : f.posting? term = some p) :
    p.documentFrequency =
      (documents.filter fun e => e.2.any fun t => t.text = term).length := by
  rw [Posting.documentFrequency, ← List.length_map (fun e : String × List Token => e.1)]
  refine SortedMap.size_eq_length ((List.filter_sublist.map _).nodup hnodup) fun r => ?_
  have hposting (o : Occurrences) := h.occurrences?_eq_some_iff hnodup hp (r := r) (o := o)
  simp only [Posting.occurrences?] at hposting
  simp only [hposting, List.mem_map, List.mem_filter, List.any_eq_true, decide_eq_true_eq]
  constructor
  · rintro ⟨⟨r', tokens⟩, ⟨hmem, t, ht, hterm⟩, rfl⟩
    exact ⟨_, tokens, hmem, fun hnil => Token.positionsOf_eq_nil_iff.1 hnil t ht hterm, rfl⟩
  · rintro ⟨o, tokens, hmem, hne, -⟩
    rw [Ne, Token.positionsOf_eq_nil_iff] at hne
    push Not at hne
    exact ⟨(r, tokens), ⟨hmem, hne⟩, rfl⟩

end Records

end FieldIndex

end FullText
