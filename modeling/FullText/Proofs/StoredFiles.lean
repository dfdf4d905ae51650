import FullText.Command.Files
import Mathlib

/-!
# Reading and writing files

A path can be walked if every place on it before the last is a folder. What reading, writing and
asking for a file come to is then decided by the entry at the destination of the path alone. Writing
puts a file where a file or nothing was, so no folder comes or goes: the same paths can be walked as
before, and all of them but those to the same place lead to the same entries.

## Main definitions

* `FileStore.Walkable` : the paths whose last place can be reached.

## Main results

* `FileStore.read_eq_ok_iff`, `FileStore.fileExists_iff`, `FileStore.write_eq_ok_iff` : reading,
  asking and writing, told by the entry at the destination.
* `FileStore.read_write` : what is written is read back.
* `FileStore.read_write_of_ne`, `FileStore.fileExists_write_of_ne` : other places stay as they are.
-/

namespace FullText

namespace FileStore

variable {s s' : FileStore} {path : String} {contents : Bytes}

/-- Whether the last place of a path can be reached. -/
structure Walkable (s : FileStore) (path : String) : Prop where
  /-- The path has no null character. -/
  noNull : '\x00' ∉ path.toList
  /-- The path is not too long. -/
  short : path.utf8ByteSize ≤ pathLimit
  /-- All places on the path but the last one are folders. -/
  folders : ∀ place ∈ (places path).dropLast, s.entryAt place = .ok (some .folder)

/-! ### Following a path -/

theorem follow_concat_eq_ok_iff {init : List Place} {last : Place} {found : Option FileEntry} :
    s.follow (init ++ [last]) = .ok found ↔
      (∀ place ∈ init, s.entryAt place = .ok (some .folder)) ∧ s.entryAt last = .ok found := by
  induction init with
  | nil => simp [follow]
  | cons place init ih =>
    obtain ⟨next, rest, hrest⟩ := List.exists_cons_of_ne_nil
      (List.append_ne_nil_of_right_ne_nil init (List.cons_ne_nil last []))
    rw [List.forall_mem_cons, and_assoc, ← ih, List.cons_append, hrest, follow]
    · cases hentry : s.entryAt place with
      | error fault => simp
      | ok found' =>
        rcases found' with _ | _ | _ <;> simp
    · exact List.cons_ne_nil _ _

theorem places_eq_concat (path : String) :
    places path = (places path).dropLast ++ [destination path] :=
  (List.dropLast_append_getLast? _ (getLast?_places path)).symm

theorem follow_places_eq_ok_iff {found : Option FileEntry} :
    s.follow (places path) = .ok found ↔
      (∀ place ∈ (places path).dropLast, s.entryAt place = .ok (some .folder)) ∧
        s.entryAt (destination path) = .ok found := by
  rw [← follow_concat_eq_ok_iff, ← places_eq_concat]

/-- What a path leads to is the entry at its destination, unless it asks for a folder where a file
is. -/
theorem locate_eq_ok_iff {found : Option FileEntry} :
    s.locate path = .ok found ↔ s.Walkable path ∧ s.entryAt (destination path) = .ok found ∧
      (asksForFolder path = true → ∀ contents, found ≠ some (.file contents)) := by
  rw [locate]
  by_cases hnull : '\x00' ∈ path.toList
  · rw [if_pos hnull]
    refine ⟨fun h => ?_, fun ⟨hwalk, _⟩ => absurd hnull hwalk.noNull⟩
    cases h
  by_cases hlong : pathLimit < path.utf8ByteSize
  · rw [if_neg hnull, if_pos hlong]
    refine ⟨fun h => ?_, fun ⟨hwalk, _⟩ => absurd hwalk.short (Nat.not_le.2 hlong)⟩
    cases h
  rw [if_neg hnull, if_neg hlong]
  have hfollow : (s.Walkable path ∧ s.entryAt (destination path) = .ok found) ↔
      s.follow (places path) = .ok found := by
    rw [follow_places_eq_ok_iff]
    exact ⟨fun ⟨hwalk, hentry⟩ => ⟨hwalk.folders, hentry⟩, fun ⟨hfolders, hentry⟩ =>
      ⟨⟨hnull, Nat.not_lt.1 hlong, hfolders⟩, hentry⟩⟩
  rw [← and_assoc, hfollow]
  rcases s.follow (places path) with fault | _ | _ | contents
  · simp
  · exact (and_iff_left_of_imp (by rintro ⟨⟩; simp)).symm
  · exact (and_iff_left_of_imp (by rintro ⟨⟩; simp)).symm
  · by_cases hasks : asksForFolder path = true
    · simp only [if_pos hasks]
      refine ⟨fun h => ?_, fun ⟨h, hfile⟩ => absurd (Except.ok.inj h).symm (hfile hasks contents)⟩
      cases h
    · simp only [if_neg hasks]
      exact (and_iff_left_of_imp fun _ h => absurd h hasks).symm

/-! ### Reading, asking and writing -/

/-- A file is read if a path leads to it and does not ask for a folder. -/
theorem read_eq_ok_iff : s.read path = .ok contents ↔ s.Walkable path ∧
    s.entryAt (destination path) = .ok (some (.file contents)) ∧ asksForFolder path = false := by
  have hlocate : s.read path = .ok contents ↔ s.locate path = .ok (some (.file contents)) := by
    rw [read]
    rcases s.locate path with fault | _ | _ | contents' <;> simp [bind, Except.bind]
  rw [hlocate, locate_eq_ok_iff]
  simp

/-- A path leads to something if there is an entry at its destination, which is a folder if the path
asks for one. -/
theorem fileExists_iff : s.fileExists path = true ↔ s.Walkable path ∧
    ∃ entry, s.entryAt (destination path) = .ok (some entry) ∧
      (asksForFolder path = true → entry = .folder) := by
  have hlocate : s.fileExists path = true ↔ ∃ entry, s.locate path = .ok (some entry) := by
    rw [fileExists]
    rcases s.locate path with fault | _ | entry <;> simp
  simp only [hlocate, locate_eq_ok_iff, exists_and_left, ne_eq, Option.some.injEq]
  refine and_congr_right fun _ => exists_congr fun entry => and_congr_right fun _ => ?_
  refine imp_congr_right fun _ => ?_
  cases entry <;> simp

/-- A file is written if its path can be walked, does not ask for a folder and does not lead to
one. It is put at the destination of the path. -/
theorem write_eq_ok_iff : s.write path contents = .ok s' ↔ s.Walkable path ∧
    asksForFolder path = false ∧
    (∃ found, s.entryAt (destination path) = .ok found ∧ found ≠ some .folder) ∧
    s' = s.put (destination path) (.file contents) := by
  constructor
  · intro h
    rw [write] at h
    rcases hlocate : s.locate path with fault | found
    · rw [hlocate] at h
      cases h
    · obtain ⟨hwalk, hentry, hfile⟩ := locate_eq_ok_iff.1 hlocate
      rw [hlocate] at h
      rcases found with _ | _ | earlier
      · by_cases hasks : asksForFolder path = true
        · simp [hasks, bind, Except.bind] at h
        · simp only [bind, Except.bind, if_neg hasks] at h
          exact ⟨hwalk, Bool.eq_false_iff.2 hasks, ⟨none, hentry, by simp⟩, (Except.ok.inj h).symm⟩
      · cases h
      · have hasks : ¬ asksForFolder path = true := fun hasks => hfile hasks earlier rfl
        exact ⟨hwalk, Bool.eq_false_iff.2 hasks, ⟨_, hentry, by simp⟩, (Except.ok.inj h).symm⟩
  · rintro ⟨hwalk, hasks, ⟨found, hentry, hne⟩, rfl⟩
    have hlocate : s.locate path = .ok found := locate_eq_ok_iff.2 ⟨hwalk, hentry, by simp [hasks]⟩
    rw [write, hlocate]
    rcases found with _ | _ | earlier
    · simp [hasks, bind, Except.bind]
    · exact absurd rfl hne
    · rfl

/-! ### After a file is written -/

/-- What is not a folder stands in the store. -/
theorem get?_of_entryAt {p : Place} {found : Option FileEntry} (hentry : s.entryAt p = .ok found)
    (hne : found ≠ some .folder) : s.entries.get? p = found := by
  rw [entryAt] at hentry
  split at hentry
  · exact absurd (Except.ok.inj hentry).symm hne
  · split at hentry
    · cases hentry
    · exact Except.ok.inj hentry

theorem entryAt_put_of_ne {p q : Place} (hne : q ≠ p) (e : FileEntry) :
    (s.put p e).entryAt q = s.entryAt q := by
  simp only [entryAt, put, SortedMap.get?_insert, if_neg hne]

theorem entryAt_put_self {p : Place} {found : Option FileEntry} (hentry : s.entryAt p = .ok found)
    (hne : found ≠ some .folder) (e : FileEntry) : (s.put p e).entryAt p = .ok (some e) := by
  rw [entryAt] at hentry ⊢
  split at hentry
  · exact absurd (Except.ok.inj hentry).symm hne
  · split at hentry
    · cases hentry
    · next hshort => simp only [if_neg hshort, put, SortedMap.get?_insert, if_true]

section Written

variable (h : s.write path contents = .ok s')

include h

/-- The file stands at the destination of the path. -/
theorem entryAt_write : s'.entryAt (destination path) = .ok (some (.file contents)) := by
  obtain ⟨-, -, ⟨found, hentry, hne⟩, rfl⟩ := write_eq_ok_iff.1 h
  exact entryAt_put_self hentry hne _

/-- Nothing else changes. -/
theorem entryAt_write_of_ne {p : Place} (hne : p ≠ destination path) :
    s'.entryAt p = s.entryAt p := by
  obtain ⟨-, -, -, rfl⟩ := write_eq_ok_iff.1 h
  exact entryAt_put_of_ne hne _

/-- No folder comes or goes. -/
theorem entryAt_write_eq_folder_iff {p : Place} :
    s'.entryAt p = .ok (some .folder) ↔ s.entryAt p = .ok (some .folder) := by
  by_cases hp : p = destination path
  · obtain ⟨-, -, ⟨found, hentry, hne⟩, -⟩ := write_eq_ok_iff.1 h
    rw [hp, entryAt_write h, hentry]
    simp [hne]
  · rw [entryAt_write_of_ne h hp]

/-- The same paths can be walked as before. -/
theorem walkable_write_iff {other : String} : s'.Walkable other ↔ s.Walkable other := by
  constructor <;> rintro ⟨hnull, hshort, hfolders⟩ <;>
    exact ⟨hnull, hshort, by simpa only [entryAt_write_eq_folder_iff h] using hfolders⟩

/-- **What is written is read back.** -/
theorem read_write : s'.read path = .ok contents := by
  obtain ⟨hwalk, hasks, -, -⟩ := write_eq_ok_iff.1 h
  exact read_eq_ok_iff.2 ⟨(walkable_write_iff h).2 hwalk, entryAt_write h, hasks⟩

/-- Files at other places are read as before. -/
theorem read_write_of_ne {other : String} (hne : destination other ≠ destination path)
    {contents' : Bytes} : s'.read other = .ok contents' ↔ s.read other = .ok contents' := by
  rw [read_eq_ok_iff, read_eq_ok_iff, walkable_write_iff h, entryAt_write_of_ne h hne]

/-- Whether there is something at another place is answered as before. -/
theorem fileExists_write_of_ne {other : String} (hne : destination other ≠ destination path) :
    s'.fileExists other = s.fileExists other := by
  rw [Bool.eq_iff_iff, fileExists_iff, fileExists_iff, walkable_write_iff h,
    entryAt_write_of_ne h hne]

end Written

end FileStore

end FullText
