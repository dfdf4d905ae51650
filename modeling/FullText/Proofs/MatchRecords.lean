import FullText.Proofs.DocumentHits

/-!
# What match data tells

The terms that matched a document are recorded hit by hit, and of two records of one term in one
field the first is kept. The hits of a document never disagree about a term, because all of them
read the same posting. So match data tells exactly what the hits are, in whatever order they are
recorded and however often.

## Main definitions

* `MatchData.occurrences?` : what is recorded of a term in a field.
* `MatchData.Tells` : match data tells exactly some records.

## Main results

* `MatchData.Tells.add`, `MatchData.Tells.addAll` : records that agree are added one after another.
* `MatchData.Tells.ext` : match data is determined by what it tells.
* `InvertedIndex.tells_documentTally` : the match data of a document tells its hits.
-/

namespace FullText

namespace MatchData

/-- What is recorded of a term in a field. -/
def occurrences? (m : MatchData) (a : TermMatch) : Option Occurrences :=
  (m.fields.get? a.field).bind fun terms => terms.get? a.term

/-- Match data tells exactly some records. -/
structure Tells (m : MatchData) (rs : List (TermMatch × Occurrences)) : Prop where
  /-- The terms are those of the records. -/
  terms : ∀ term, term ∈ SortedSet.toList m.terms ↔ ∃ r ∈ rs, r.1.term = term
  /-- The fields are those of the records. -/
  fields : ∀ field, field ∈ m.fields.keys ↔ ∃ r ∈ rs, r.1.field = field
  /-- The occurrences are those of the records. -/
  occurrences : ∀ a o, m.occurrences? a = some o ↔ (a, o) ∈ rs

theorem tells_empty : empty.Tells [] where
  terms term := by simp [empty, SortedSet.toList, SortedMap.keys, SortedMap.empty]
  fields field := by simp [empty, SortedMap.keys, SortedMap.empty]
  occurrences a o := by simp [occurrences?, empty]

theorem occurrences?_add (m : MatchData) (a b : TermMatch) (o : Occurrences) :
    (m.add a.field a.term o).occurrences? b =
      if b = a then some ((m.occurrences? a).getD o) else m.occurrences? b := by
  rw [occurrences?, add, SortedMap.get?_upsert]
  by_cases hfield : b.field = a.field
  · rw [if_pos hfield, Option.bind_some, SortedMap.get?_upsert]
    have hiff : b = a ↔ b.term = a.term := by
      cases a; cases b
      simp_all
    simp only [hiff, occurrences?, hfield]
    cases m.fields.get? a.field <;> simp
  · have hne : b ≠ a := fun heq => hfield (congrArg TermMatch.field heq)
    rw [if_neg hfield, if_neg hne, occurrences?]

/-- A record that agrees with those before it is added to them. -/
theorem Tells.add {m : MatchData} {rs : List (TermMatch × Occurrences)} (h : m.Tells rs)
    {a : TermMatch} {o : Occurrences} (hagree : ∀ o', (a, o') ∈ rs → o' = o) :
    (m.add a.field a.term o).Tells (rs ++ [(a, o)]) where
  terms term := by
    rw [MatchData.add, SortedSet.mem_toList_add, h.terms]
    simp [or_and_right, exists_or, or_comm, eq_comm]
  fields field := by
    rw [MatchData.add, SortedMap.mem_keys_upsert, h.fields]
    simp [or_and_right, exists_or, or_comm, eq_comm]
  occurrences b o' := by
    rw [occurrences?_add, List.mem_append, List.mem_singleton, Prod.mk.injEq]
    by_cases hb : b = a
    · subst hb
      rw [if_pos rfl, Option.some.injEq]
      cases hknown : m.occurrences? b with
      | none =>
        have hnew : ∀ o', (b, o') ∉ rs := by simp [← h.occurrences, hknown]
        simp [hnew, eq_comm]
      | some known =>
        obtain rfl := hagree known ((h.occurrences b known).1 hknown)
        rw [Option.getD_some, ← h.occurrences, hknown]
        simp [eq_comm]
    · simp [hb, h.occurrences]

/-- Records that agree are added one after another. -/
theorem Tells.addAll {m : MatchData} {rs ss : List (TermMatch × Occurrences)} (h : m.Tells rs)
    (hagree : (rs ++ ss).Pairwise fun r s => r.1 = s.1 → r.2 = s.2) :
    (ss.foldl (fun m s => m.add s.1.field s.1.term s.2) m).Tells (rs ++ ss) := by
  induction ss generalizing m rs with
  | nil => simpa using h
  | cons s ss ih =>
    have hs (o' : Occurrences) (ho' : (s.1, o') ∈ rs) : o' = s.2 :=
      (List.pairwise_append.1 hagree).2.2 _ ho' _ List.mem_cons_self rfl
    rw [List.append_cons] at hagree ⊢
    exact ih (h.add hs) hagree

/-- **Match data is determined by what it tells.** -/
theorem Tells.ext {m n : MatchData} {rs ss : List (TermMatch × Occurrences)} (hm : m.Tells rs)
    (hn : n.Tells ss) (h : ∀ r, r ∈ rs ↔ r ∈ ss) : m = n := by
  have hterms : m.terms = n.terms := SortedSet.ext_mem fun term => by
    simp only [hm.terms, hn.terms, h]
  have hfields : m.fields = n.fields := by
    have hkeys (field : String) : field ∈ m.fields.keys ↔ field ∈ n.fields.keys := by
      simp only [hm.fields, hn.fields, h]
    have hoccurrences (a : TermMatch) : m.occurrences? a = n.occurrences? a :=
      Option.ext fun o => by rw [hm.occurrences, hn.occurrences, h]
    refine SortedMap.ext_get? fun field => ?_
    have hkey := hkeys field
    rw [SortedMap.mem_keys_iff, SortedMap.mem_keys_iff] at hkey
    cases hM : m.fields.get? field <;> cases hN : n.fields.get? field <;> simp [hM, hN] at hkey
    case none.none => rfl
    case some.some M N =>
      refine congrArg some (SortedMap.ext_get? fun term => ?_)
      simpa [occurrences?, hM, hN] using hoccurrences ⟨field, term⟩
  cases m; cases n
  simp_all

end MatchData

namespace InvertedIndex

/-- **The match data of a document tells its hits.** -/
theorem tells_documentTally (index : InvertedIndex) (es : List Expansion) (r : String) :
    (index.documentTally es r).matchData.Tells
      ((index.documentHits es r).map fun h => (h.found, h.occurrences)) := by
  rw [documentTally, matchData_foldl_add, ← List.foldl_map
    (f := fun h : Hit => (h.found, h.occurrences))
    (g := fun m s => MatchData.add m s.1.field s.1.term s.2)]
  refine MatchData.tells_empty.addAll ?_
  rw [List.nil_append, List.pairwise_map]
  refine List.pairwise_of_forall_mem_list fun g hg h hh heq => ?_
  obtain ⟨hgHit, hgr⟩ := mem_documentHits_iff.1 hg
  obtain ⟨hhHit, hhr⟩ := mem_documentHits_iff.1 hh
  -- Both hits read the entry of the document in the posting of the same term.
  obtain ⟨e, f, p, -, -, hf, hp, ho, -⟩ := mem_hits_iff.1 hgHit
  obtain ⟨e', f', p', -, -, hf', hp', ho', -⟩ := mem_hits_iff.1 hhHit
  simp_all

end InvertedIndex

end FullText
