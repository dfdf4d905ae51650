import FullText.Config
import Mathlib.Data.List.Nodup

/-!
# Checked configurations

The check of a configuration walks over the fields and remembers the names it has seen. This file
says without the walk which configurations pass: the reference field and all fields are named, no
name occurs twice, no name holds a colon or white space, and the numbers are in range.

## Main definitions

* `Config.Usable` : the configurations with which an index can be used.

## Main results

* `Config.fault?_eq_none_iff` : the check finds nothing wrong with exactly these.
* `Config.validate_eq_ok_iff` : the same for the check as a step that may fail.
-/

namespace FullText

/-- The requirements on a field, apart from those on its name among others. -/
structure FieldConfig.Usable (f : FieldConfig) : Prop where
  /-- The field has a name. -/
  named : f.name ≠ ""
  /-- The name can be used in queries. -/
  wellFormed : Config.isMalformedName f.name = false
  /-- The boost is a positive number. -/
  boost : f.boost.isPositiveFinite = true

namespace Config

/-- A configuration with which an index can be used. -/
structure Usable (c : Config) : Prop where
  /-- The reference field has a name. -/
  reference : c.referenceField ≠ ""
  /-- There are fields. -/
  nonempty : c.fields ≠ []
  /-- Each field meets the requirements. -/
  fields : ∀ f ∈ c.fields, f.Usable
  /-- No name occurs twice. -/
  nodup : c.fieldNames.Nodup
  /-- The strength of length normalization is not negative. -/
  least : Binary64.zero.lessOrSame c.lengthNormalization = true
  /-- The strength of length normalization is at most one. -/
  greatest : c.lengthNormalization.lessOrSame Binary64.one = true

theorem fieldFault?_eq_none_iff {seen : List String} {f : FieldConfig} :
    fieldFault? seen f = none ↔ f.Usable ∧ f.name ∉ seen := by
  rw [fieldFault?]
  constructor
  · intro h
    split_ifs at h with hnamed hformed hseen hboost
    exact ⟨⟨hnamed, by simpa using hformed, hboost⟩, hseen⟩
  · rintro ⟨⟨hnamed, hformed, hboost⟩, hseen⟩
    rw [if_neg hnamed, hformed, if_neg Bool.false_ne_true, if_neg hseen, if_pos hboost]

/-- The walk over the fields finds nothing wrong if each field is usable, and its name is neither
among those seen before nor used again. -/
theorem fieldsFault?_eq_none_iff {seen : List String} {fields : List FieldConfig} :
    fieldsFault? seen fields = none ↔
      (∀ f ∈ fields, f.Usable) ∧ (fields.map (·.name)).Nodup ∧ ∀ f ∈ fields, f.name ∉ seen := by
  induction fields generalizing seen with
  | nil => simp [fieldsFault?]
  | cons f rest ih =>
    rw [fieldsFault?]
    cases hf : fieldFault? seen f with
    | some fault =>
      refine iff_of_false (by simp) fun ⟨husable, _, hseen⟩ => ?_
      have hnone := fieldFault?_eq_none_iff.2
        ⟨husable f List.mem_cons_self, hseen f List.mem_cons_self⟩
      rw [hnone] at hf
      cases hf
    | none =>
      obtain ⟨husable, hseen⟩ := fieldFault?_eq_none_iff.1 hf
      simp only [ih, List.mem_cons, List.map_cons, List.nodup_cons, List.mem_map, not_or,
        forall_eq_or_imp, not_exists, not_and]
      constructor
      · rintro ⟨hrest, hnodup, hfresh⟩
        exact ⟨⟨husable, hrest⟩, ⟨fun g hg => (hfresh g hg).1, hnodup⟩, hseen,
          fun g hg => (hfresh g hg).2⟩
      · rintro ⟨⟨-, hrest⟩, ⟨hfresh, hnodup⟩, -, hrestSeen⟩
        exact ⟨hrest, hnodup, fun g hg => ⟨hfresh g hg, hrestSeen g hg⟩⟩

/-- **The check accepts exactly the usable configurations.** -/
theorem fault?_eq_none_iff {c : Config} : c.fault? = none ↔ c.Usable := by
  rw [fault?]
  constructor
  · intro h
    by_cases hreference : c.referenceField = ""
    · simp [hreference] at h
    by_cases hnonempty : c.fields = []
    · simp [hreference, hnonempty] at h
    rw [if_neg hreference, if_neg hnonempty] at h
    cases hfields : fieldsFault? [] c.fields with
    | some fault => simp [hfields] at h
    | none =>
      rw [hfields] at h
      obtain ⟨husable, hnodup, -⟩ := fieldsFault?_eq_none_iff.1 hfields
      obtain ⟨hleast, hgreatest⟩ : Binary64.zero.lessOrSame c.lengthNormalization = true ∧
          c.lengthNormalization.lessOrSame Binary64.one = true := by simpa using h
      exact ⟨hreference, hnonempty, husable, hnodup, hleast, hgreatest⟩
  · intro h
    have hfields : fieldsFault? [] c.fields = none :=
      fieldsFault?_eq_none_iff.2 ⟨h.fields, h.nodup, by simp⟩
    rw [if_neg h.reference, if_neg h.nonempty, hfields]
    simp [h.least, h.greatest]

/-- The check as a step that may fail accepts exactly the usable configurations. -/
theorem validate_eq_ok_iff {c : Config} : c.validate = .ok () ↔ c.Usable := by
  rw [← fault?_eq_none_iff, validate]
  cases c.fault? <;> simp

end Config

end FullText
