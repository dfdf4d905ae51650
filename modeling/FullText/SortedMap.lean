/-!
# Sorted maps

A finite map that keeps its entries in ascending order of their keys. The order is part of the
type, so a map is determined by its lookups, and walking over a map always meets the keys in the
same order. Strings are ordered by code points, which is the order of their UTF-8 bytes.

## Main definitions

* `SortedMap` : entries with strictly ascending keys.
* `SortedMap.get?`, `SortedMap.upsert`, `SortedMap.mapValues` : lookup and the two ways to change a
  map.
* `SortedSet` : a sorted map that holds nothing but its keys.

## Main results

* `SortedMap.get?_upsert` : lookup after an update.
* `SortedMap.get?_eq_some_iff` : lookup finds exactly the entries.
* `SortedMap.ext_get?` : maps with equal lookups are equal.
-/

namespace FullText

/-- A finite map, as its entries in strictly ascending order of the keys. -/
structure SortedMap (α β : Type) [Ord α] where
  /-- The keys with their values. -/
  entries : List (α × β)
  /-- The keys ascend, so no key occurs twice. -/
  ascending : entries.Pairwise fun a b => compare a.1 b.1 = .lt

namespace SortedMap

variable {α β γ : Type} [Ord α]

/-- A map is its list of entries. -/
theorem ext_entries {m n : SortedMap α β} (h : m.entries = n.entries) : m = n := by
  cases m; cases n; cases h; rfl

instance [DecidableEq α] [DecidableEq β] : DecidableEq (SortedMap α β) := fun m n =>
  if h : m.entries = n.entries then isTrue (ext_entries h)
  else isFalse fun heq => h (heq ▸ rfl)

/-- The map without entries. -/
def empty : SortedMap α β := ⟨[], .nil⟩

instance : Inhabited (SortedMap α β) := ⟨empty⟩

/-- The keys, in ascending order. -/
def keys (m : SortedMap α β) : List α := m.entries.map (·.1)

/-- The values, in the order of their keys. -/
def values (m : SortedMap α β) : List β := m.entries.map (·.2)

/-- The number of keys. -/
def size (m : SortedMap α β) : Nat := m.entries.length

/-- Whether there are no keys. -/
def isEmpty (m : SortedMap α β) : Bool := m.entries.isEmpty

/-- The value that a list of entries gives to a key: that of the first entry with the key. -/
def lookup (k : α) : List (α × β) → Option β
  | [] => none
  | (k', v) :: rest => if compare k k' = .eq then some v else lookup k rest

/-- The value of a key. -/
def get? (m : SortedMap α β) (k : α) : Option β := lookup k m.entries

/-- Whether a key has a value. -/
def contains (m : SortedMap α β) (k : α) : Bool := (m.get? k).isSome

/-- Entries after giving the key `k` the value that `f` makes of its present one. -/
def upsertEntries (k : α) (f : Option β → β) : List (α × β) → List (α × β)
  | [] => [(k, f none)]
  | (k', v) :: rest =>
    match compare k k' with
    | .lt => (k, f none) :: (k', v) :: rest
    | .eq => (k', f (some v)) :: rest
    | .gt => (k', v) :: upsertEntries k f rest

/-! ### Ascending entries -/

section Order

variable [Std.TransOrd α]

omit [Std.TransOrd α] in
private theorem key_mem_upsertEntries {k : α} {f : Option β → β} {es : List (α × β)} {e : α × β}
    (he : e ∈ upsertEntries k f es) : e.1 = k ∨ ∃ e' ∈ es, e.1 = e'.1 := by
  induction es with
  | nil => exact Or.inl (by rw [List.mem_singleton.1 he])
  | cons e' rest ih =>
    obtain ⟨k', v⟩ := e'
    simp only [upsertEntries] at he
    split at he
    · rcases List.mem_cons.1 he with rfl | he
      · exact Or.inl rfl
      · exact Or.inr ⟨e, he, rfl⟩
    · rcases List.mem_cons.1 he with rfl | he
      · exact Or.inr ⟨(k', v), List.mem_cons_self, rfl⟩
      · exact Or.inr ⟨e, List.mem_cons_of_mem _ he, rfl⟩
    · rcases List.mem_cons.1 he with rfl | he
      · exact Or.inr ⟨(k', v), List.mem_cons_self, rfl⟩
      · rcases ih he with h | ⟨e', he', h⟩
        · exact Or.inl h
        · exact Or.inr ⟨e', List.mem_cons_of_mem _ he', h⟩

/-- An update keeps the keys in ascending order. -/
theorem pairwise_upsertEntries (k : α) (f : Option β → β) {es : List (α × β)}
    (h : es.Pairwise fun a b => compare a.1 b.1 = .lt) :
    (upsertEntries k f es).Pairwise fun a b => compare a.1 b.1 = .lt := by
  induction es with
  | nil => exact List.pairwise_singleton _ _
  | cons e rest ih =>
    obtain ⟨k', v⟩ := e
    obtain ⟨hhead, hrest⟩ := List.pairwise_cons.1 h
    simp only [upsertEntries]
    split
    · next hlt =>
      refine List.pairwise_cons.2 ⟨fun e he => ?_, h⟩
      rcases List.mem_cons.1 he with rfl | he
      · exact hlt
      · exact Std.TransCmp.lt_trans hlt (hhead e he)
    · exact List.pairwise_cons.2 ⟨hhead, hrest⟩
    · next hgt =>
      refine List.pairwise_cons.2 ⟨fun e he => ?_, ih hrest⟩
      rcases key_mem_upsertEntries he with hk | ⟨e', he', hk⟩
      · rw [hk]; exact Std.OrientedCmp.gt_iff_lt.1 hgt
      · rw [hk]; exact hhead e' he'

/-- Gives the key `k` the value that `f` makes of its present one. -/
def upsert (m : SortedMap α β) (k : α) (f : Option β → β) : SortedMap α β :=
  ⟨upsertEntries k f m.entries, pairwise_upsertEntries k f m.ascending⟩

/-- Gives a key a value, in place of the one it may have. -/
def insert (m : SortedMap α β) (k : α) (v : β) : SortedMap α β := m.upsert k fun _ => v

/-- The map of a list of entries. Of two entries with one key the later one counts. -/
def ofList (es : List (α × β)) : SortedMap α β :=
  es.foldl (fun m e => m.insert e.1 e.2) empty

end Order

/-- The map with every value replaced by its image. -/
def mapValues (f : β → γ) (m : SortedMap α β) : SortedMap α γ :=
  ⟨m.entries.map fun e => (e.1, f e.2), List.pairwise_map.2 m.ascending⟩

/-- Replaces the value of a key that is present, and leaves a map without the key alone. -/
def modify (m : SortedMap α β) (k : α) (f : β → β) : SortedMap α β :=
  ⟨m.entries.map fun e => (e.1, if compare k e.1 = .eq then f e.2 else e.2),
    List.pairwise_map.2 m.ascending⟩

/-! ### Lookup -/

@[simp] theorem get?_empty (k : α) : (empty : SortedMap α β).get? k = none := rfl

@[simp] theorem size_empty : (empty : SortedMap α β).size = 0 := rfl

@[simp] theorem size_mapValues (f : β → γ) (m : SortedMap α β) :
    (m.mapValues f).size = m.size := List.length_map _

@[simp] theorem keys_mapValues (f : β → γ) (m : SortedMap α β) :
    (m.mapValues f).keys = m.keys := by
  simp only [keys, mapValues, List.map_map]
  rfl

@[simp] theorem length_keys (m : SortedMap α β) : m.keys.length = m.size := List.length_map _

section Lookup

variable [Std.TransOrd α] [Std.LawfulEqOrd α]

omit [Std.LawfulEqOrd α] in
private theorem not_lt_self (a : α) : compare a a ≠ .lt := by
  simp

private theorem lookup_eq_some_iff {k : α} {v : β} {es : List (α × β)}
    (h : es.Pairwise fun a b => compare a.1 b.1 = .lt) :
    lookup k es = some v ↔ (k, v) ∈ es := by
  induction es with
  | nil => simp [lookup]
  | cons e rest ih =>
    obtain ⟨k', v'⟩ := e
    obtain ⟨hhead, hrest⟩ := List.pairwise_cons.1 h
    simp only [lookup]
    split
    · next heq =>
      obtain rfl := Std.LawfulEqCmp.eq_of_compare heq
      constructor
      · rintro hv
        obtain rfl := Option.some.inj hv
        exact List.mem_cons_self
      · intro hmem
        rcases List.mem_cons.1 hmem with heq | hmem
        · rw [(Prod.mk.inj heq).2]
        · exact absurd (hhead _ hmem) (not_lt_self k)
    · next hne =>
      rw [ih hrest, List.mem_cons]
      constructor
      · exact Or.inr
      · rintro (heq | hmem)
        · exact absurd (by rw [(Prod.mk.inj heq).1]; exact Std.ReflCmp.compare_self) hne
        · exact hmem

/-- **Lookup finds exactly the entries.** -/
theorem get?_eq_some_iff {m : SortedMap α β} {k : α} {v : β} :
    m.get? k = some v ↔ (k, v) ∈ m.entries := lookup_eq_some_iff m.ascending

/-- A key is present exactly when it is listed. -/
theorem contains_iff {m : SortedMap α β} {k : α} : m.contains k = true ↔ k ∈ m.keys := by
  simp only [contains, Option.isSome_iff_exists, get?_eq_some_iff, keys, List.mem_map,
    Prod.exists, exists_and_right, exists_eq_right]

private theorem lookup_upsertEntries (k : α) (f : Option β → β) (j : α) (es : List (α × β))
    (h : es.Pairwise fun a b => compare a.1 b.1 = .lt) :
    lookup j (upsertEntries k f es) =
      if compare j k = .eq then some (f (lookup k es)) else lookup j es := by
  induction es with
  | nil => simp [upsertEntries, lookup]
  | cons e rest ih =>
    obtain ⟨k', v⟩ := e
    obtain ⟨hhead, hrest⟩ := List.pairwise_cons.1 h
    have hnone (hlt : compare k k' = .lt) : lookup k rest = none := by
      refine Option.eq_none_iff_forall_ne_some.2 fun w hw => ?_
      have hkk := Std.TransCmp.lt_trans hlt (hhead _ ((lookup_eq_some_iff hrest).1 hw))
      exact not_lt_self k hkk
    simp only [upsertEntries]
    split
    · next hlt =>
      have hne : ¬ compare k k' = .eq := by simp [hlt]
      simp only [lookup, hne, if_false, hnone hlt]
    · next heq =>
      obtain rfl := Std.LawfulEqCmp.eq_of_compare heq
      by_cases hj : compare j k = .eq <;> simp [lookup, hj]
    · next hgt =>
      have hne : ¬ compare k k' = .eq := by simp [hgt]
      simp only [lookup, ih hrest, hne, if_false]
      by_cases hj : compare j k' = .eq
      · obtain rfl := Std.LawfulEqCmp.eq_of_compare hj
        have hjk : ¬ compare j k = .eq := fun hjk => by
          rw [Std.LawfulEqCmp.eq_of_compare hjk] at hne
          exact hne Std.ReflCmp.compare_self
        simp [hjk]
      · simp [hj]

/-- Lookup after an update. -/
theorem get?_upsert [DecidableEq α] (m : SortedMap α β) (k : α) (f : Option β → β) (j : α) :
    (m.upsert k f).get? j = if j = k then some (f (m.get? k)) else m.get? j := by
  simp only [get?, upsert, lookup_upsertEntries k f j m.entries m.ascending,
    Std.LawfulEqCmp.compare_eq_iff_eq]

/-- Lookup after giving a key a value. -/
theorem get?_insert [DecidableEq α] (m : SortedMap α β) (k : α) (v : β) (j : α) :
    (m.insert k v).get? j = if j = k then some v else m.get? j := get?_upsert m k _ j

omit [Std.TransOrd α] in
private theorem lookup_map (f : α → β → γ) (k : α) (es : List (α × β)) :
    lookup k (es.map fun e => (e.1, f e.1 e.2)) = (lookup k es).map (f k) := by
  induction es with
  | nil => rfl
  | cons e rest ih =>
    simp only [List.map_cons, lookup]
    split
    · next heq => rw [Std.LawfulEqCmp.eq_of_compare heq]; rfl
    · exact ih

omit [Std.TransOrd α] in
@[simp] theorem get?_mapValues (f : β → γ) (m : SortedMap α β) (k : α) :
    (m.mapValues f).get? k = (m.get? k).map f := lookup_map (fun _ => f) k m.entries

omit [Std.TransOrd α] in
/-- Lookup after changing the value of a key. -/
theorem get?_modify [DecidableEq α] (m : SortedMap α β) (k : α) (f : β → β) (j : α) :
    (m.modify k f).get? j = if j = k then (m.get? k).map f else m.get? j := by
  refine (lookup_map (fun i v => if compare k i = .eq then f v else v) j m.entries).trans ?_
  by_cases hj : j = k
  · subst hj
    simp [get?]
  · have hk : ¬ k = j := fun h => hj h.symm
    simp [hj, hk, get?]

/-- **Maps with equal lookups are equal.** -/
theorem ext_get? {m n : SortedMap α β} (h : ∀ k, m.get? k = n.get? k) : m = n := by
  have hmem (e : α × β) : e ∈ m.entries ↔ e ∈ n.entries := by
    rw [← get?_eq_some_iff (m := m), ← get?_eq_some_iff (m := n), h]
  refine ext_entries ?_
  have key : ∀ (es fs : List (α × β)),
      es.Pairwise (fun a b => compare a.1 b.1 = .lt) →
      fs.Pairwise (fun a b => compare a.1 b.1 = .lt) →
      (∀ e, e ∈ es ↔ e ∈ fs) → es = fs := by
    intro es
    induction es with
    | nil =>
      intro fs _ _ hef
      cases fs with
      | nil => rfl
      | cons f fs => exact absurd ((hef f).2 List.mem_cons_self) (by simp)
    | cons e es ih =>
      intro fs hes hfs hef
      cases fs with
      | nil => exact absurd ((hef e).1 List.mem_cons_self) (by simp)
      | cons f fs =>
        obtain ⟨he, hes'⟩ := List.pairwise_cons.1 hes
        obtain ⟨hf, hfs'⟩ := List.pairwise_cons.1 hfs
        have hhead : e = f := by
          rcases List.mem_cons.1 ((hef e).1 List.mem_cons_self) with h1 | h1
          · exact h1
          · rcases List.mem_cons.1 ((hef f).2 List.mem_cons_self) with h2 | h2
            · exact h2.symm
            · exact absurd (Std.TransCmp.lt_trans (hf _ h1) (he _ h2)) (not_lt_self _)
        subst hhead
        congr 1
        refine ih fs hes' hfs' fun a => ⟨fun ha => ?_, fun ha => ?_⟩
        · rcases List.mem_cons.1 ((hef a).1 (List.mem_cons_of_mem _ ha)) with h1 | h1
          · exact absurd (h1 ▸ he a ha) (not_lt_self _)
          · exact h1
        · rcases List.mem_cons.1 ((hef a).2 (List.mem_cons_of_mem _ ha)) with h1 | h1
          · exact absurd (h1 ▸ hf a ha) (not_lt_self _)
          · exact h1
  exact key _ _ m.ascending n.ascending hmem

end Lookup

end SortedMap

/-! ### Sorted sets -/

/-- A finite set, as its elements in strictly ascending order. -/
abbrev SortedSet (α : Type) [Ord α] := SortedMap α Unit

namespace SortedSet

variable {α : Type} [Ord α] [Std.TransOrd α]

/-- Adds an element. -/
def add (s : SortedSet α) (a : α) : SortedSet α := s.insert a ()

/-- The set of the elements of a list. -/
def ofElements (as : List α) : SortedSet α := as.foldl add SortedMap.empty

/-- The elements, in ascending order. -/
def toList (s : SortedSet α) : List α := s.keys

end SortedSet

end FullText
