import PropertyFilter.Disk.Saving

/-!
# Saving a file again

Whether a file can be saved depends on the directories on the way to it and on what stands at its
place, and not on the text. `CanSave` says that it can, and it stays so after the file has been
saved (`canSave_save`): the directories that were made on the way are there, and at the place stands
a file.
-/

set_option autoImplicit false

namespace PropertyFilter.Disk

/-- Every text can be saved under the path. -/
def CanSave (disk : Disk) (path : String) : Prop := ∀ text, (disk.save path text).1 = .ok ()

/-! ### The way to a file -/

/-- Wherever parts lead from a place, there is a directory. -/
def IsOpen (disk : Disk) : Place → List (List Char) → Prop
  | _, [] => True
  | place, part :: parts =>
    Path.isName part = true ∧ disk.isDirectory (follow place part) = true ∧
      disk.IsOpen (follow place part) parts

theorem IsOpen.put {disk : Disk} {first : Place} {parts : List (List Char)}
    (h : disk.IsOpen first parts) {place : Place} {thing : Node} (hthing : thing.entries = [])
    (hplace : disk.isDirectory place = false) : (disk.put place thing).IsOpen first parts := by
  induction parts generalizing first with
  | nil => trivial
  | cons part parts ih =>
    obtain ⟨hname, hdirectory, hparts⟩ := h
    exact ⟨hname, isDirectory_put disk place _ hthing hplace hdirectory, ih hparts⟩

/-- Making a way leaves directories where they are. -/
theorem isDirectory_of_makeWay {disk after : Disk} {first : Place} {parts : List (List Char)}
    (h : disk.makeWay first parts = (after, true)) {place : Place}
    (hplace : disk.isDirectory place = true) : after.isDirectory place = true := by
  induction parts generalizing disk first with
  | nil =>
    cases h
    exact hplace
  | cons part parts ih =>
    simp only [makeWay] at h
    split at h
    · cases h
    split at h
    · exact ih h hplace
    · cases h
    · next habsent =>
      refine ih h (isDirectory_put disk _ _ rfl ?_ hplace)
      rw [isDirectory, habsent]

/-- A way that has been made is open. -/
theorem isOpen_of_makeWay {disk after : Disk} {first : Place} {parts : List (List Char)}
    (h : disk.makeWay first parts = (after, true)) : after.IsOpen first parts := by
  induction parts generalizing disk first with
  | nil => trivial
  | cons part parts ih =>
    simp only [makeWay] at h
    split at h
    · cases h
    next hname =>
    have hname : Path.isName part = true := by simpa using hname
    split at h
    · next inside hfound =>
      have hdirectory : disk.isDirectory (follow first part) = true := by rw [isDirectory, hfound]
      exact ⟨hname, isDirectory_of_makeWay h hdirectory, ih h⟩
    · cases h
    · have hdirectory : (disk.put (follow first part) (.directory [])).isDirectory
          (follow first part) = true := by
        rw [isDirectory, at?_put_self]
      exact ⟨hname, isDirectory_of_makeWay h hdirectory, ih h⟩

/-- There is nothing to be made on a way that is open. -/
theorem makeWay_of_isOpen {disk : Disk} {first : Place} {parts : List (List Char)}
    (h : disk.IsOpen first parts) : disk.makeWay first parts = (disk, true) := by
  induction parts generalizing first with
  | nil => rfl
  | cons part parts ih =>
    obtain ⟨hname, hdirectory, hparts⟩ := h
    obtain ⟨inside, hfound⟩ := (isDirectory_eq_true_iff disk _).mp hdirectory
    simp only [makeWay, hname, Bool.not_true, Bool.false_eq_true, if_false, hfound]
    exact ih hparts

/-! ### The file -/

theorem makeDirectories_put {disk way : Disk} {path : String} {place : Place} {thing : Node}
    (h : disk.makeDirectories path = (way, true)) (hthing : thing.entries = [])
    (hplace : way.isDirectory place = false) :
    (way.put place thing).makeDirectories path = (way.put place thing, true) := by
  unfold makeDirectories at h ⊢
  split at h
  · next hempty => rw [if_pos hempty]
  next hempty =>
  rw [if_neg hempty]
  split at h
  · next husable =>
    rw [if_pos husable]
    exact makeWay_of_isOpen ((isOpen_of_makeWay h).put hthing hplace)
  · cases h

/-- A file can be written again where it has been written. -/
theorem exists_write?_put {disk after : Disk} {path text : String}
    (h : disk.write? path text = some after) (other : String) :
    ∃ place, disk.isDirectory place = false ∧ after = disk.put place (.file (some text)) ∧
      ∃ final, after.write? path other = some final := by
  simp only [write?] at h ⊢
  split at h
  · cases h
  next hnames =>
  split at h
  · cases h
  next place hplace =>
  split at h
  · cases h
  next hfree =>
  cases h
  have hfree : disk.isDirectory place = false := by simpa using hfree
  have hplace' : (disk.put place (.file (some text))).placeOf? path = some place := by
    unfold placeOf? at hplace ⊢
    split at hplace
    · next husable =>
      rw [if_pos husable]
      exact walk_put disk place rfl hfree _ _ _ hplace
    · cases hplace
  have hfile : (disk.put place (.file (some text))).isDirectory place = false := by
    rw [isDirectory, at?_put_self]
  refine ⟨place, hfree, rfl, ?_⟩
  rw [if_neg hnames, hplace']
  exact ⟨_, if_neg (by simp [hfile])⟩

/-- A file that has been saved can be saved again. -/
theorem canSave_of_save {disk after : Disk} {path text : String}
    (h : disk.save path text = (.ok (), after)) : after.CanSave path := by
  intro other
  unfold save at h
  split at h
  · cases h
  next way hway =>
  split at h
  · cases h
  next written hwritten =>
  cases h
  obtain ⟨place, hplace, rfl, final, hfinal⟩ := exists_write?_put hwritten other
  rw [save, makeDirectories_put hway rfl hplace]
  simp only [hfinal]

/-- A file that can be saved is there with the text afterwards, and it can be saved again. -/
theorem CanSave.exists_save {disk : Disk} {path : String} (h : disk.CanSave path) (text : String) :
    ∃ after, disk.save path text = (.ok (), after) ∧ after.contains path = true ∧
      after.read? path = some text ∧ after.CanSave path := by
  cases hsave : disk.save path text with
  | mk result after =>
    have hresult : result = .ok () := by simpa [hsave] using h text
    subst hresult
    exact ⟨after, rfl, contains_of_save disk after path text hsave,
      read?_of_save disk after path text hsave, canSave_of_save hsave⟩

end PropertyFilter.Disk
