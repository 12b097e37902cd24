import Mathlib.Data.List.Nodup
import PropertyFilter.Filter.Matching

/-!
# What a record tells a filter

A lookup finds something if an entry has a name that is alike (`Entries.lookup?_eq_none_iff`), and
then it finds such an entry (`Entries.exists_mem_of_lookup?`), the one of exactly this name if there
is one (`Entries.lookup?_of_mem`). All that a filter asks a record is which of its tests are passed
(`Filter.holds_congr`).
-/

set_option autoImplicit false

namespace PropertyFilter

namespace Entries

variable {α : Type} {entries : Entries α} {name : String} {thing : α}

theorem lookup?_eq_none_iff :
    lookup? name entries = none ↔ ∀ e ∈ entries, alike e.1 name = false := by
  simp only [lookup?, find?, Option.or_eq_none_iff, Option.map_eq_none_iff, List.find?_eq_none,
    Bool.not_eq_true]
  refine ⟨And.right, fun h ↦ ⟨fun e he ↦ ?_, h⟩⟩
  have hne : e.1 ≠ name := by
    rintro rfl
    simpa [alike] using h e he
  exact beq_false_of_ne hne

theorem exists_mem_of_lookup? (h : lookup? name entries = some thing) :
    ∃ e ∈ entries, alike e.1 name = true ∧ e.2 = thing := by
  rw [lookup?, Option.or_eq_some_iff] at h
  rcases h with hexact | ⟨-, halike⟩
  · obtain ⟨e, he, rfl⟩ := Option.map_eq_some_iff.mp hexact
    have hname : e.1 = name := by simpa using List.find?_some he
    exact ⟨e, List.mem_of_find?_eq_some he, by simp [hname, alike], rfl⟩
  · obtain ⟨e, he, rfl⟩ := Option.map_eq_some_iff.mp halike
    exact ⟨e, List.mem_of_find?_eq_some he, by simpa using List.find?_some he, rfl⟩

/-- The entry of exactly this name goes before all others, wherever it stands. -/
theorem lookup?_of_mem (hnames : (entries.map Prod.fst).Nodup) (h : (name, thing) ∈ entries) :
    lookup? name entries = some thing := by
  have hfind : ∃ e, List.find? (fun e ↦ e.1 == name) entries = some e := by
    rw [← Option.isSome_iff_exists, List.find?_isSome]
    exact ⟨_, h, beq_self_eq_true name⟩
  obtain ⟨e, he⟩ := hfind
  have hname : e.1 = name := by simpa using List.find?_some he
  have hsame : e = (name, thing) :=
    List.inj_on_of_nodup_map hnames (List.mem_of_find?_eq_some he) h hname
  rw [lookup?, find?, he, hsame]
  rfl

end Entries

/-- Records whose properties pass the same tests of a filter give it the same answer. -/
theorem Filter.holds_congr {f : Filter} {r r' : Record}
    (h : ∀ p ∈ f.tests, p.2.holds (r' p.1) = p.2.holds (r p.1)) : f.holds r' = f.holds r := by
  induction f with
  | and a b iha ihb =>
    rw [tests, List.forall_mem_append] at h
    rw [holds, holds, iha h.1, ihb h.2]
  | or a b iha ihb =>
    rw [tests, List.forall_mem_append] at h
    rw [holds, holds, iha h.1, ihb h.2]
  | not a ih => rw [holds, holds, ih h]
  | test property t =>
    rw [tests, List.forall_mem_singleton] at h
    exact h

end PropertyFilter
