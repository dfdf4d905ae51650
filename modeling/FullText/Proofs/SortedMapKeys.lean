import FullText.SortedMap
import Mathlib.Data.List.Nodup
import Mathlib.Data.List.Perm.Basic

/-!
# Keys of sorted maps

Facts about the keys of a sorted map that follow from its lookups: no key is listed twice, a map
that is put together from a list has the keys of the list, and the size of a map is the number of
keys that have a value.

## Main results

* `SortedMap.mem_keys_iff`, `SortedMap.nodup_keys` : the keys and the lookups.
* `SortedMap.get?_ofList` : lookup in a map that is put together from a list.
* `SortedMap.ofList_entries` : a map is put together again from its entries.
* `SortedMap.size_eq_length` : the size of a map whose keys are listed otherwise.
* `SortedMap.get?_foldl_upsert` : lookup after a list of updates.
* `SortedSet.mem_toList_ofElements`, `SortedSet.ext_mem` : the elements of a set.
-/

namespace FullText

namespace SortedMap

variable {α β : Type} [Ord α] [Std.TransOrd α] [Std.LawfulEqOrd α]

/-! ### Keys and lookups -/

theorem mem_keys_iff {m : SortedMap α β} {k : α} : k ∈ m.keys ↔ ∃ v, m.get? k = some v := by
  rw [← contains_iff, contains, Option.isSome_iff_exists]

theorem get?_eq_none_iff {m : SortedMap α β} {k : α} : m.get? k = none ↔ k ∉ m.keys := by
  rw [mem_keys_iff, Option.eq_none_iff_forall_ne_some, not_exists]

/-- A map that is not empty has a key. -/
theorem ne_empty_iff {m : SortedMap α β} : m ≠ .empty ↔ ∃ k, k ∈ m.keys := by
  constructor
  · intro hne
    by_contra hnone
    exact hne (ext_get? fun k => get?_eq_none_iff.2 fun hk => hnone ⟨k, hk⟩)
  · rintro ⟨k, hk⟩ rfl
    cases hk

omit [Std.TransOrd α] [Std.LawfulEqOrd α] in
theorem pairwise_keys (m : SortedMap α β) :
    m.keys.Pairwise fun a b => compare a b = .lt :=
  List.pairwise_map.2 m.ascending

omit [Std.LawfulEqOrd α] in
theorem nodup_keys (m : SortedMap α β) : m.keys.Nodup :=
  m.pairwise_keys.imp fun hlt heq => by simp [heq] at hlt

/-- The size of a map is the length of any list without repetition of the keys with a value. -/
theorem size_eq_length {m : SortedMap α β} {ks : List α} (hks : ks.Nodup)
    (h : ∀ k, k ∈ ks ↔ ∃ v, m.get? k = some v) : m.size = ks.length := by
  rw [← m.length_keys]
  refine List.Perm.length_eq ((List.perm_ext_iff_of_nodup m.nodup_keys hks).2 fun k => ?_)
  rw [mem_keys_iff, h]

theorem mem_values_iff {m : SortedMap α β} {v : β} :
    v ∈ m.values ↔ ∃ k, m.get? k = some v := by
  simp only [values, List.mem_map, Prod.exists, exists_eq_right, get?_eq_some_iff]

variable [DecidableEq α]

theorem mem_keys_upsert {m : SortedMap α β} {k : α} {f : Option β → β} {j : α} :
    j ∈ (m.upsert k f).keys ↔ j = k ∨ j ∈ m.keys := by
  rw [mem_keys_iff, mem_keys_iff, get?_upsert]
  by_cases h : j = k <;> simp [h]

/-- Lookup after a list of updates: those of the key count, one after another. -/
theorem get?_foldl_upsert {γ : Type} (key : γ → α) (step : γ → Option β → β) (xs : List γ)
    (m : SortedMap α β) (k : α) :
    (xs.foldl (fun m x => m.upsert (key x) (step x)) m).get? k =
      (xs.filter fun x => key x = k).foldl (fun v x => some (step x v)) (m.get? k) := by
  induction xs generalizing m with
  | nil => rfl
  | cons x xs ih =>
    rw [List.foldl_cons, ih, get?_upsert]
    by_cases hx : key x = k
    · rw [if_pos hx.symm, List.filter_cons_of_pos (by simpa using hx), List.foldl_cons, hx]
    · rw [if_neg (Ne.symm hx), List.filter_cons_of_neg (by simpa using hx)]

/-! ### Maps of lists -/

private theorem get?_foldl_insert (es : List (α × β)) (m : SortedMap α β) (k : α) :
    (es.foldl (fun m e => m.insert e.1 e.2) m).get? k =
      ((es.reverse.find? fun e => e.1 = k).map (·.2)).or (m.get? k) := by
  induction es generalizing m with
  | nil => rfl
  | cons e es ih =>
    rw [List.foldl_cons, ih, get?_insert, List.reverse_cons, List.find?_append]
    cases es.reverse.find? fun e => decide (e.1 = k) with
    | some e' => rfl
    | none =>
      by_cases hk : e.1 = k
      · simp [hk]
      · simp [hk, Ne.symm hk]

/-- Of two entries of a list with one key the later one counts. -/
theorem get?_ofList (es : List (α × β)) (k : α) :
    (ofList es).get? k = (es.reverse.find? fun e => e.1 = k).map (·.2) := by
  rw [ofList, get?_foldl_insert, get?_empty, Option.or_none]

/-- A list of entries with distinct keys gives each key its value. -/
theorem get?_ofList_eq_some_iff {es : List (α × β)} (hes : (es.map (·.1)).Nodup) {k : α} {v : β} :
    (ofList es).get? k = some v ↔ (k, v) ∈ es := by
  rw [get?_ofList, Option.map_eq_some_iff]
  constructor
  · rintro ⟨e, he, rfl⟩
    have hmem := List.mem_reverse.1 (List.mem_of_find?_eq_some he)
    obtain rfl : e.1 = k := by simpa using List.find?_some he
    exact hmem
  · intro hmem
    have hsome : (es.reverse.find? fun e => decide (e.1 = k)).isSome = true := by
      rw [List.find?_isSome]
      exact ⟨(k, v), List.mem_reverse.2 hmem, by simp⟩
    obtain ⟨e, he⟩ := Option.isSome_iff_exists.1 hsome
    have he' := List.mem_reverse.1 (List.mem_of_find?_eq_some he)
    have hkey : e.1 = k := by simpa using List.find?_some he
    exact ⟨e, he, congrArg Prod.snd (List.inj_on_of_nodup_map hes he' hmem hkey)⟩

/-- A map is put together again from its entries. -/
theorem ofList_entries (m : SortedMap α β) : ofList m.entries = m := by
  refine ext_get? fun k => Option.ext fun v => ?_
  rw [get?_ofList_eq_some_iff (m.nodup_keys : (m.entries.map (·.1)).Nodup), get?_eq_some_iff]

theorem mem_keys_ofList {es : List (α × β)} {k : α} :
    k ∈ (ofList es).keys ↔ k ∈ es.map (·.1) := by
  rw [mem_keys_iff, get?_ofList]
  constructor
  · rintro ⟨v, hv⟩
    obtain ⟨e, he, -⟩ := Option.map_eq_some_iff.1 hv
    obtain rfl : e.1 = k := by simpa using List.find?_some he
    exact List.mem_map_of_mem (List.mem_reverse.1 (List.mem_of_find?_eq_some he))
  · intro hk
    obtain ⟨e, he, rfl⟩ := List.mem_map.1 hk
    have hsome : (es.reverse.find? fun e' => decide (e'.1 = e.1)).isSome = true := by
      rw [List.find?_isSome]
      exact ⟨e, List.mem_reverse.2 he, by simp⟩
    obtain ⟨e', he'⟩ := Option.isSome_iff_exists.1 hsome
    exact ⟨e'.2, by rw [he']; rfl⟩

end SortedMap

/-! ### Sets -/

namespace SortedSet

variable {α : Type} [Ord α] [Std.TransOrd α] [Std.LawfulEqOrd α] [DecidableEq α]

theorem mem_toList_add {s : SortedSet α} {a b : α} :
    b ∈ (add s a).toList ↔ b = a ∨ b ∈ s.toList := by
  rw [toList, SortedMap.mem_keys_iff, add, SortedMap.get?_insert, toList, SortedMap.mem_keys_iff]
  by_cases h : b = a <;> simp [h]

omit [DecidableEq α] in
theorem contains_iff {s : SortedSet α} {a : α} : s.contains a = true ↔ a ∈ s.toList :=
  SortedMap.contains_iff

theorem mem_toList_ofElements {as : List α} {a : α} : a ∈ (ofElements as).toList ↔ a ∈ as := by
  have key (s : SortedSet α) : a ∈ (as.foldl add s).toList ↔ a ∈ as ∨ a ∈ s.toList := by
    induction as generalizing s with
    | nil => simp
    | cons b as ih =>
      rw [List.foldl_cons, ih, mem_toList_add, List.mem_cons]
      tauto
  rw [ofElements, key]
  simp [toList, SortedMap.keys, SortedMap.empty]

omit [Std.LawfulEqOrd α] [DecidableEq α] in
theorem nodup_toList (s : SortedSet α) : s.toList.Nodup := SortedMap.nodup_keys s

omit [Std.TransOrd α] [Std.LawfulEqOrd α] [DecidableEq α] in
theorem length_toList (s : SortedSet α) : s.toList.length = s.size := SortedMap.length_keys s

omit [Std.TransOrd α] [Std.LawfulEqOrd α] [DecidableEq α] in
/-- A set is determined by its elements in order. -/
theorem ext_toList {s t : SortedSet α} (h : s.toList = t.toList) : s = t := by
  have hfirst : Function.Injective (fun e : α × Unit => e.1) := fun _ _ h => Prod.ext h rfl
  exact SortedMap.ext_entries (List.map_injective_iff.2 hfirst h)

omit [DecidableEq α] in
/-- A set is determined by its elements. -/
theorem ext_mem {s t : SortedSet α} (h : ∀ a, a ∈ s.toList ↔ a ∈ t.toList) : s = t := by
  refine SortedMap.ext_get? fun a => Option.ext fun v => ?_
  have hmem {u : SortedSet α} : u.get? a = some v ↔ a ∈ u.toList := by
    rw [toList, SortedMap.mem_keys_iff]
    exact ⟨fun hv => ⟨v, hv⟩, fun ⟨_, hv⟩ => hv⟩
  rw [hmem, hmem, h]

end SortedSet

end FullText
