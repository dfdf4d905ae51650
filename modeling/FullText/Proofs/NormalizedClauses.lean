import FullText.Proofs.PlainTokens
import FullText.Proofs.SearchScan

/-!
# Normalized clauses

A clause is checked before it is normalized, and the clauses that it is normalized to are looked up
without another check. Normalizing gives a clause another term and sees anew where the stars of the
term are. A pattern stays in order by that: folding takes away none of its stars and leaves
something besides. The terms that are made of an exact or fuzzy term are whatever the filters
return. They are in order exactly if none is empty or made of stars only, and none has a star if
there is a distance. This is so with the filters for English text if the term has no star, as is the
case if the placement of its stars was found by looking at it.

## Main definitions

* `Clause.Takes` : a text can be the term of a clause.

## Main results

* `Clause.validate_withTerm_iff` : which terms keep a clause in order.
* `Index.clauses_of_expandAll` : what is looked up are the normalized clauses.
* `Index.normalized_clauses` : which normalized clauses are in order.
-/

namespace FullText

namespace Clause

variable {config : Config} {c : Clause}

/-- A text can be the term of a clause. -/
structure Takes (c : Clause) (text : String) : Prop where
  /-- It does not consist of stars only. -/
  nonempty : ∃ a ∈ text.toList, a ≠ '*'
  /-- It has no star if the clause has a distance. -/
  literal : c.distance ≠ none → '*' ∉ text.toList

theorem validate_eq_ok_iff : c.validate config = .ok () ↔ c.fault? config = none := by
  rw [validate]
  cases c.fault? config <;> simp

/-- **A clause stays in order with another term** exactly if it can take the term. -/
theorem validate_withTerm_iff (hc : c.validate config = .ok ()) {text : String} :
    (c.withTerm text).validate config = .ok () ↔ c.Takes text := by
  rw [validate_eq_ok_iff, fault?_eq_none_iff] at hc
  obtain ⟨-, hfield, hboost, -⟩ := hc
  have hpattern : (c.withTerm text).isPattern = false ↔ '*' ∉ text.toList := by
    rw [← Bool.not_eq_true, isPattern_withTerm]
  rw [validate_eq_ok_iff, fault?_eq_none_iff, hpattern]
  constructor
  · rintro ⟨hsome, -, -, hliteral⟩
    exact ⟨hsome, hliteral⟩
  · rintro ⟨hsome, hliteral⟩
    exact ⟨hsome, hfield, hboost, hliteral⟩

/-- A clause that is in order has no distance if its term is a pattern. -/
theorem distance_of_isPattern (hc : c.validate config = .ok ()) (hpattern : c.isPattern = true) :
    c.distance = none := by
  rw [validate_eq_ok_iff, fault?_eq_none_iff] at hc
  by_contra hdistance
  rw [hc.2.2.2 hdistance] at hpattern
  cases hpattern

end Clause

namespace Index

variable {index : Index} {c : Clause}

/-! ### What is looked up -/

theorem exists_of_bind_eq_ok {ε α β : Type} {x : Except ε α} {f : α → Except ε β} {b : β}
    (h : x >>= f = .ok b) : ∃ a, x = .ok a ∧ f a = .ok b := by
  cases x with
  | error e => cases h
  | ok a => exact ⟨a, rfl, h⟩

theorem clause_of_expandOne {e : Expansion} (h : index.expandOne c = .ok e) : e.clause = c := by
  rw [expandOne] at h
  cases hfound : index.inverted.expand c with
  | error fault => simp [hfound, Except.map] at h
  | ok found =>
    rw [hfound] at h
    cases h
    rfl

theorem clauses_of_mapM_expandOne {cs : List Clause} {es : List Expansion}
    (h : cs.mapM index.expandOne = .ok es) : es.map (·.clause) = cs := by
  induction cs generalizing es with
  | nil =>
    cases h
    rfl
  | cons c cs ih =>
    rw [List.mapM_cons] at h
    obtain ⟨e, he, h⟩ := exists_of_bind_eq_ok h
    obtain ⟨others, hothers, h⟩ := exists_of_bind_eq_ok h
    cases h
    rw [List.map_cons, clause_of_expandOne he, ih hothers]

/-- **What is looked up are the normalized clauses,** of clauses that are in order. -/
theorem clauses_of_expandAll {cs : List Clause} {es : List Expansion}
    (h : index.expandAll cs = .ok es) :
    (∀ c ∈ cs, c.validate index.config = .ok ()) ∧
      es.map (·.clause) = cs.flatMap index.normalize := by
  induction cs generalizing es with
  | nil =>
    cases h
    exact ⟨nofun, rfl⟩
  | cons c cs ih =>
    rw [expandAll] at h
    obtain ⟨es₁, hes₁, h⟩ := exists_of_bind_eq_ok h
    obtain ⟨es₂, hes₂, h⟩ := exists_of_bind_eq_ok h
    cases h
    obtain ⟨_, hc, hone⟩ := exists_of_bind_eq_ok hes₁
    obtain ⟨hcs, hclauses⟩ := ih hes₂
    refine ⟨List.forall_mem_cons.2 ⟨hc, hcs⟩, ?_⟩
    rw [List.map_append, clauses_of_mapM_expandOne hone, hclauses, List.flatMap_cons]

/-! ### Which normalized clauses are in order -/

theorem normalize_of_isPattern (hpattern : c.isPattern = true) :
    index.normalize c = [c.withTerm (index.pipeline.foldPattern c.term)] := by
  rw [normalize, if_pos hpattern]

theorem forall_mem_normalize_iff (hpattern : c.isPattern = false) {P : Clause → Prop} :
    (∀ c' ∈ index.normalize c, P c') ↔
      ∀ t ∈ index.pipeline.analyze c.term, P (c.withTerm t.text) := by
  rw [normalize, if_neg (by simp [hpattern])]
  simp only [List.forall_mem_map]

/-- A pattern is in order after folding. -/
theorem takes_foldPattern (hc : c.validate index.config = .ok ()) (hpattern : c.isPattern = true) :
    c.Takes (index.pipeline.foldPattern c.term) where
  nonempty := index.pipeline.exists_mem_foldPattern
    (Clause.fault?_eq_none_iff.1 (Clause.validate_eq_ok_iff.1 hc)).1
  literal hdistance := absurd (Clause.distance_of_isPattern hc hpattern) hdistance

/-- A token of a plain pipeline can be the term of a clause if it is made of a text without
stars. -/
theorem takes_of_plain (hplain : index.pipeline.Plain) (hterm : '*' ∉ c.term.toList) {t : Token}
    (ht : t ∈ index.pipeline.analyze c.term) : c.Takes t.text := by
  obtain ⟨hne, hstar⟩ := hplain.of_mem_analyze ht
  obtain ⟨a, ha⟩ := List.exists_mem_of_ne_nil _ hne
  exact ⟨⟨a, ha, fun heq => hstar hterm (heq ▸ ha)⟩, fun _ => hstar hterm⟩

/-- **Which normalized clauses are in order.** The pattern of a clause that is in order is folded to
one that is in order as well. The clauses of an exact or fuzzy term are in order exactly if they can
take the tokens that the term is made into, and none of them is a pattern exactly if no token has a
star. Both is the case if the pipeline is plain and the term has no star. Only normalized clauses
are looked up. -/
theorem normalized_clauses (index : Index) {c : Clause} (hc : c.validate index.config = .ok ()) :
    (c.isPattern = true → ∃ c', index.normalize c = [c'] ∧ c'.validate index.config = .ok ()) ∧
    (c.isPattern = false →
      ((∀ c' ∈ index.normalize c, c'.validate index.config = .ok ()) ↔
        ∀ t ∈ index.pipeline.analyze c.term, c.Takes t.text) ∧
      ((∀ c' ∈ index.normalize c, c'.isPattern = false) ↔
        ∀ t ∈ index.pipeline.analyze c.term, '*' ∉ t.text.toList)) ∧
    (c.isPattern = false → index.pipeline.Plain → '*' ∉ c.term.toList →
      ∀ c' ∈ index.normalize c, c'.validate index.config = .ok () ∧ c'.isPattern = false ∧
        c'.distance = c.distance) ∧
    ∀ cs es, index.expandAll cs = .ok es →
      (∀ d ∈ cs, d.validate index.config = .ok ()) ∧
        es.map (·.clause) = cs.flatMap index.normalize := by
  refine ⟨fun hpattern => ?_, fun hpattern => ⟨?_, ?_⟩, fun hpattern hplain hterm => ?_,
    fun cs es h => clauses_of_expandAll h⟩
  · exact ⟨_, normalize_of_isPattern hpattern,
      (Clause.validate_withTerm_iff hc).2 (takes_foldPattern hc hpattern)⟩
  · rw [forall_mem_normalize_iff hpattern]
    simp only [Clause.validate_withTerm_iff hc]
  · rw [forall_mem_normalize_iff hpattern]
    simp only [← Bool.not_eq_true, Clause.isPattern_withTerm]
  · rw [forall_mem_normalize_iff hpattern]
    intro t ht
    have hstar := (hplain.of_mem_analyze ht).2 hterm
    refine ⟨(Clause.validate_withTerm_iff hc).2 (takes_of_plain hplain hterm ht), ?_, rfl⟩
    rwa [← Bool.not_eq_true, Clause.isPattern_withTerm]

theorem normalized_clauses_sample :
    ∃ index, Index.build Sample.config .english Sample.documents = .ok index ∧
      ∀ c' ∈ index.normalize { Clause.ofTerm "Teas" with distance := some 1 },
        c'.validate index.config = .ok () ∧ c'.isPattern = false ∧ c'.distance = some 1 := by
  refine ⟨_, rfl, ?_⟩
  obtain ⟨-, -, hliteral, -⟩ := normalized_clauses
    ⟨.build Sample.config .english Sample.documents, .english⟩
    (c := { Clause.ofTerm "Teas" with distance := some 1 }) rfl
  exact hliteral rfl Pipeline.plain_english (by decide)

/-- A stored clause that takes the star of its term for a letter. -/
def Sample.literalStar : Clause :=
  { Clause.ofTerm "a*b" with stars := .none, distance := some 1 }

/-- A clause with a term that has no star. -/
def Sample.lowLine : Clause := { Clause.ofTerm "a_b" with distance := some 1 }

/-- A pipeline with a filter that replaces low lines by stars. -/
def Sample.starring : Pipeline :=
  ⟨.separator, [.custom "starify" fun t =>
    some (t.withText (String.ofList (t.text.toList.map fun c => if c = '_' then '*' else c)))]⟩

/-- An index of one document, whose one term is far from the terms of both clauses. -/
def Sample.remote (p : Pipeline) : Index :=
  ⟨.build Sample.config p [⟨"a", .ofList [("body", "axxxxb")]⟩], p⟩

/-- The clauses with a distance of one are in order, but they are normalized to patterns, which are
not in order, and find the term that is four edits away. One of the clauses is stored and goes with
the pipeline for English text, and the other one with a filter that brings in a star. -/
theorem normalized_to_pattern :
    (Sample.literalStar.validate Sample.config = .ok () ∧
      Sample.literalStar.isPattern = false ∧
      (∃ c', (Sample.remote .english).normalize Sample.literalStar = [c'] ∧ c'.isPattern = true ∧
        c'.validate Sample.config = .error (.query .distanceOnPattern c'.display)) ∧
      ∃ es, (Sample.remote .english).expandAll [Sample.literalStar] = .ok es ∧
        es.map (fun e => SortedSet.toList e.found) = [[⟨"body", "axxxxb"⟩]]) ∧
    (Sample.lowLine.validate Sample.config = .ok () ∧
      Sample.lowLine.isPattern = false ∧
      (∃ c', (Sample.remote Sample.starring).normalize Sample.lowLine = [c'] ∧
        c'.isPattern = true ∧
        c'.validate Sample.config = .error (.query .distanceOnPattern c'.display)) ∧
      ∃ es, (Sample.remote Sample.starring).expandAll [Sample.lowLine] = .ok es ∧
        es.map (fun e => SortedSet.toList e.found) = [[⟨"body", "axxxxb"⟩]]) := by
  refine ⟨⟨rfl, rfl, ⟨Sample.literalStar.withTerm "a*b", ?_, rfl, rfl⟩, _, rfl, ?_⟩,
    rfl, rfl, ⟨Sample.lowLine.withTerm "a*b", ?_, rfl, rfl⟩, _, rfl, ?_⟩
  all_goals decide +kernel

end Index

end FullText
