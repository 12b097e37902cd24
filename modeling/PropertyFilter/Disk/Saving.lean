import PropertyFilter.Disk

/-!
Saving a file and reading it. Putting a file or an empty directory where no directory is leaves all
directories where they are, so a path leads to the same place afterwards; hence a file that has been
saved is there under its path, with the text that was saved.
-/

set_option autoImplicit false

namespace PropertyFilter.Disk

namespace Node

theorem find?_cons_of_entries_eq_nil {thing : Node} (h : thing.entries = []) (name : String)
    (place : Place) : find? (name :: place) thing = none := by
  rw [find?, h]
  rfl

theorem find?_put_cons_self (thing : Node) (name : String) (place other : Place) (node : Node) :
    find? (name :: other) (put thing (name :: place) node) =
      find? other (put thing place ((Entries.find? name node.entries).getD (directory []))) := by
  rw [put, find?, entries, Entries.find?_put_self]
  rfl

theorem find?_put_cons_of_ne (thing : Node) (name first : String) (place other : Place)
    (node : Node) (h : first ≠ name) :
    find? (first :: other) (put thing (name :: place) node) = find? (first :: other) node := by
  rw [put, find?, entries, Entries.find?_put_of_ne _ _ _ _ h, find?]

/-- A thing with nothing in it that is put at one place is no file at another one. -/
theorem find?_put_ne_file {thing : Node} (hthing : thing.entries = []) (place other : Place)
    (node : Node) (hne : other ≠ place) (h : ∀ found?, find? other node ≠ some (file found?))
    (found? : Option String) :
    find? other (put thing place node) ≠ some (file found?) := by
  induction place generalizing other node with
  | nil =>
    cases other with
    | nil => exact absurd rfl hne
    | cons name other => simp [put, find?_cons_of_entries_eq_nil hthing]
  | cons name place ih =>
    cases other with
    | nil => simp [put, find?]
    | cons first other =>
      by_cases same : first = name
      · subst same
        rw [find?_put_cons_self]
        refine ih other _ (fun heq ↦ hne (heq ▸ rfl)) fun found? ↦ ?_
        cases inner : Entries.find? first node.entries with
        | none => cases other <;> simp [find?, entries, Entries.find?]
        | some below => simpa [find?, inner] using h found?
      · rw [find?_put_cons_of_ne _ _ _ _ _ _ same]
        exact h found?

/-- A directory stays one when something is put where no directory is. -/
theorem find?_put_directory (thing : Node) (place other : Place) (node : Node)
    (inside : List (String × Node)) (h : find? other node = some (directory inside))
    (hplace : ∀ inside, find? place node ≠ some (directory inside)) :
    ∃ inside, find? other (put thing place node) = some (directory inside) := by
  induction place generalizing other node with
  | nil =>
    cases other with
    | nil => exact absurd h (hplace inside)
    | cons name other =>
      cases node with
      | file found? => cases h
      | directory inner => exact absurd rfl (hplace inner)
  | cons name place ih =>
    cases other with
    | nil => exact ⟨_, rfl⟩
    | cons first other =>
      by_cases same : first = name
      · subst same
        rw [find?_put_cons_self]
        cases inner : Entries.find? first node.entries with
        | none => simp [find?, inner] at h
        | some below =>
          simp only [find?, inner, Option.bind_some] at h hplace
          exact ih other below h hplace
      · rw [find?_put_cons_of_ne _ _ _ _ _ _ same]
        exact ⟨inside, h⟩

end Node

theorem isDirectory_eq_true_iff (disk : Disk) (place : Place) :
    disk.isDirectory place = true ↔ ∃ inside, disk.at? place = some (.directory inside) := by
  unfold isDirectory
  split
  · next inside h => simp [h]
  · next h =>
    simp only [Bool.false_eq_true, false_iff, not_exists]
    exact h

theorem isDirectory_put (disk : Disk) (place other : Place) {thing : Node}
    (hthing : thing.entries = []) (hplace : disk.isDirectory place = false)
    (h : disk.isDirectory other = true) : (disk.put place thing).isDirectory other = true := by
  have hne : other ≠ place := by
    intro heq
    rw [heq, hplace] at h
    exact absurd h (by decide)
  have notDirectory : ∀ inside, disk.tree.find? place ≠ some (.directory inside) := by
    intro inside found
    have : disk.isDirectory place = true := by
      rw [isDirectory_eq_true_iff]
      refine ⟨inside, ?_⟩
      simp [at?, found]
    rw [hplace] at this
    exact absurd this (by decide)
  rw [isDirectory_eq_true_iff] at h ⊢
  obtain ⟨inside, h⟩ := h
  by_cases above : isAbove other = true
  · have noFile : ∀ found?, disk.tree.find? other ≠ some (.file found?) := by
      intro found? found
      simp [at?, above, found] at h
    have stillNoFile := Node.find?_put_ne_file hthing place other disk.tree hne noFile
    cases found : Node.find? other (Node.put thing place disk.tree) with
    | none => exact ⟨[], by simp [at?, put, above, found]⟩
    | some node =>
      cases node with
      | file found? => exact absurd found (stillNoFile found?)
      | directory inside => exact ⟨inside, by simp [at?, put, found]⟩
  · simp only [at?, above, Bool.false_eq_true, if_false] at h
    obtain ⟨inside, found⟩ :=
      Node.find?_put_directory thing place other disk.tree inside h notDirectory
    exact ⟨inside, by simp [at?, put, found]⟩

/-- A path that can be followed leads to the same place after a thing with nothing in it has been
put where no directory is. -/
theorem walk_put (disk : Disk) (place : Place) {thing : Node} (hthing : thing.entries = [])
    (hplace : disk.isDirectory place = false) (parts : List (List Char)) (first target : Place)
    (h : disk.walk first parts = some target) :
    (disk.put place thing).walk first parts = some target := by
  induction parts generalizing first with
  | nil => exact h
  | cons part parts ih =>
    rw [walk] at h ⊢
    split at h
    · next there =>
      rw [Bool.and_eq_true] at there
      rw [if_pos]
      · exact ih (follow first part) h
      · rw [isDirectory_put disk place first hthing hplace there.1, there.2]
        rfl
    · exact absurd h (by simp)

theorem find?_of_write? (disk after : Disk) (path text : String)
    (h : disk.write? path text = some after) :
    after.find? path = some (.file (some text)) := by
  unfold write? at h
  split at h
  · exact absurd h (by simp)
  · split at h
    · exact absurd h (by simp)
    · next place there =>
      split at h
      · exact absurd h (by simp)
      · next free =>
        cases h
        have free : disk.isDirectory place = false := by simpa using free
        unfold placeOf? at there
        split at there
        · next usable =>
          rw [find?, placeOf?, if_pos usable,
            walk_put disk place rfl free _ _ _ there]
          exact at?_put_self disk place _
        · exact absurd there (by simp)

theorem find?_of_save (disk after : Disk) (path text : String)
    (h : disk.save path text = (.ok (), after)) :
    after.find? path = some (.file (some text)) := by
  unfold save at h
  split at h
  · simp at h
  · split at h
    · simp at h
    · next written =>
      cases h
      exact find?_of_write? _ _ _ _ written

/-- A file that has been saved is read with the text that was saved. -/
theorem read?_of_save (disk after : Disk) (path text : String)
    (h : disk.save path text = (.ok (), after)) : after.read? path = some text := by
  rw [read?, find?_of_save disk after path text h]

theorem contains_of_save (disk after : Disk) (path text : String)
    (h : disk.save path text = (.ok (), after)) : after.contains path = true := by
  rw [contains, find?_of_save disk after path text h]
  rfl

end PropertyFilter.Disk
