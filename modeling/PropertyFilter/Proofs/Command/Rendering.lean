import Mathlib.Data.List.Induction
import PropertyFilter.Command.Running
import PropertyFilter.Proofs.Dialect.Expressible
import PropertyFilter.Proofs.Expression.Parsing
import PropertyFilter.Proofs.Filter.Construction

/-!
# Rendering is all or nothing

Entries that agree with each other are kept by a table, which only changes their order
(`Entries.ofList_of_agree`). The entries of a document for queries agree, since a dialect has one
query and one name (`entriesOf_agree`), so what is printed for the queries that were found is known
in each of the three forms of output (`prints_queriesText`).

Only provisioning may lack a query, and it lacks one just for trees with a choice of several values
(`Filter.exists_query_error_iff`). One dialect without a query is enough for a failure before
anything is printed (`exists_queries_error`), and without a reason to fail all queries are found
(`queries_eq_ok`). So a run either fails with no output or prints all that was asked for
(`run_render`). In a document that is in the order of the names, in whatever order it was asked for
(`run_render_not_as_asked`).
-/

set_option autoImplicit false

namespace PropertyFilter

/-! ### Tables -/

namespace Entries

variable {α : Type} {name : String} {thing : α} {entries : Entries α}

/-- The names of the entries are in their order, each of them once. -/
def IsSorted (entries : Entries α) : Prop := entries.Pairwise fun entry other ↦ entry.1 < other.1

theorem mem_of_mem_put {entry : String × α} (h : entry ∈ put name thing entries) :
    entry = (name, thing) ∨ entry ∈ entries := by
  induction entries with
  | nil => simpa [put] using h
  | cons first entries ih =>
    rw [put] at h
    split at h
    · exact List.mem_cons.mp h
    · split at h
      · exact (List.mem_cons.mp h).imp_right (List.mem_cons_of_mem first)
      · rcases List.mem_cons.mp h with rfl | h
        · exact .inr List.mem_cons_self
        · exact (ih h).imp_right (List.mem_cons_of_mem first)

/-- Nothing is lost by putting an entry among others, if none of them says something else. -/
theorem mem_put_iff (h : ∀ entry ∈ entries, entry.1 = name → entry = (name, thing))
    (entry : String × α) :
    entry ∈ put name thing entries ↔ entry = (name, thing) ∨ entry ∈ entries := by
  refine ⟨mem_of_mem_put, ?_⟩
  induction entries with
  | nil => simp [put]
  | cons first entries ih =>
    obtain ⟨hfirst, hentries⟩ := List.forall_mem_cons.mp h
    rw [put]
    split
    · exact List.mem_cons.mpr
    · split
      · next hname =>
        rw [hfirst hname.symm]
        rintro (rfl | hentry)
        · exact List.mem_cons_self
        · exact hentry
      · rw [List.mem_cons, List.mem_cons]
        rintro (hentry | rfl | hentry)
        · exact .inr (ih hentries (.inl hentry))
        · exact .inl rfl
        · exact .inr (ih hentries (.inr hentry))

theorem IsSorted.put (h : IsSorted entries) (name : String) (thing : α) :
    IsSorted (put name thing entries) := by
  induction entries with
  | nil => exact List.pairwise_singleton _ _
  | cons first entries ih =>
    obtain ⟨hfirst, hentries⟩ := List.pairwise_cons.mp h
    rw [Entries.put]
    split
    · next hlt =>
      refine List.pairwise_cons.mpr ⟨?_, h⟩
      rw [List.forall_mem_cons]
      exact ⟨hlt, fun entry hentry ↦ String.lt_trans hlt (hfirst entry hentry)⟩
    · next hge =>
      split
      · next hname => exact List.pairwise_cons.mpr ⟨hname ▸ hfirst, hentries⟩
      · next hne =>
        have hlt : first.1 < name := by
          refine Decidable.byContradiction fun hle ↦ hne ?_
          exact String.le_antisymm (String.not_lt.mp hle) (String.not_lt.mp hge)
        refine List.pairwise_cons.mpr ⟨fun entry hentry ↦ ?_, ih hentries⟩
        rcases mem_of_mem_put hentry with rfl | hentry
        · exact hlt
        · exact hfirst entry hentry

/-- The table of entries that agree with each other has just these entries, in the order of their
names. -/
theorem ofList_of_agree {entries : List (String × α)}
    (h : ∀ entry ∈ entries, ∀ other ∈ entries, entry.1 = other.1 → entry = other) :
    IsSorted (ofList entries) ∧ ∀ entry, entry ∈ ofList entries ↔ entry ∈ entries := by
  induction entries using List.reverseRecOn with
  | nil => exact ⟨List.Pairwise.nil, fun _ ↦ .rfl⟩
  | append_singleton entries last ih =>
    have hbefore : ∀ entry ∈ entries, entry ∈ entries ++ [last] :=
      fun _ hentry ↦ List.mem_append_left _ hentry
    have hlast : last ∈ entries ++ [last] := List.mem_append_right _ List.mem_cons_self
    obtain ⟨hsorted, hmem⟩ :=
      ih fun entry hentry other hother ↦ h entry (hbefore entry hentry) other (hbefore other hother)
    have hof : ofList (entries ++ [last]) = put last.1 last.2 (ofList entries) := by
      rw [ofList, List.foldl_append]
      rfl
    have hagree : ∀ entry ∈ ofList entries, entry.1 = last.1 → entry = (last.1, last.2) :=
      fun entry hentry ↦ h entry (hbefore entry ((hmem entry).mp hentry)) last hlast
    refine ⟨hof ▸ hsorted.put last.1 last.2, fun entry ↦ ?_⟩
    rw [hof, mem_put_iff hagree, hmem, List.mem_append, List.mem_singleton, or_comm]

end Entries

/-! ### Queries -/

namespace Filter

/-- Of the dialects only the one for provisioning may have no query for a filter. -/
theorem exists_query_error_iff {f : Filter} (hwell : f.WellFormed) (d : Dialect) :
    (∃ e, f.query d = .error e) ↔
      d = .scim ∧ ∃ property vs, (property, Test.oneOf vs) ∈ f.tests ∧ 1 < vs.length := by
  cases d with
  | graph => simp [query]
  | ldap => simp [query]
  | scim =>
    simp only [query_scim_eq_error_iff hwell, ← Option.isSome_iff_exists, inexpressible?,
      List.findSome?_isSome_iff, Test.isSome_inexpressible?_iff, true_and]
    constructor
    · rintro ⟨⟨property, t⟩, hmem, vs, rfl, hmany⟩
      exact ⟨property, vs, hmem, hmany⟩
    · rintro ⟨property, vs, hmem, hmany⟩
      exact ⟨_, hmem, vs, rfl, hmany⟩

end Filter

namespace Command

theorem queries_eq_ok {f : Filter} {texts : Dialect → String} {ds : List Dialect}
    (h : ∀ d ∈ ds, f.query d = .ok (texts d)) :
    queries f ds = .ok (ds.map fun d ↦ (d, texts d)) := by
  induction ds with
  | nil => rfl
  | cons d ds ih =>
    obtain ⟨hd, hds⟩ := List.forall_mem_cons.mp h
    rw [queries, hd, ih hds]
    rfl

/-- One dialect that has no query is enough for there to be none at all. -/
theorem exists_queries_error {f : Filter} {d : Dialect} {ds : List Dialect} (hd : d ∈ ds)
    (h : ∃ e, f.query d = .error e) : ∃ e, queries f ds = .error e := by
  induction ds with
  | nil => exact absurd hd List.not_mem_nil
  | cons first ds ih =>
    rw [queries]
    cases hfirst : f.query first with
    | error e => exact ⟨e, rfl⟩
    | ok text =>
      rcases List.mem_cons.mp hd with rfl | hd
      · obtain ⟨e, he⟩ := h
        rw [he] at hfirst
        cases hfirst
      · obtain ⟨e, he⟩ := ih hd
        exact ⟨e, by rw [he]; rfl⟩

/-! ### Output -/

/-- What is printed for the queries of a filter in the dialects that are asked for, in their order:
a query alone stands as it is, others on lines after the labels of their dialects; or, as a
document, one object with the filter and with each of the queries under the name of its dialect,
whose entries are in the order of the names. -/
inductive Prints (c : Context) (f : Filter) (texts : Dialect → String) :
    List Dialect → String → Prop
  | bare {d : Dialect} (h : c.json = false) : Prints c f texts [d] (texts d ++ "\n")
  | labelled {ds : List Dialect} (h : c.json = false) (hds : ds.length ≠ 1) :
      Prints c f texts ds
        (String.join (ds.map fun d ↦ Display.query c.colors d (texts d) ++ "\n"))
  | object {ds : List Dialect} {entries : Entries Json} (h : c.json = true)
      (hsorted : entries.IsSorted) (hentries : ∀ entry, entry ∈ entries ↔
        entry = ("filter", .string f.text) ∨ ∃ d ∈ ds, entry = (d.name, .string (texts d))) :
      Prints c f texts ds ((Json.object entries).lines ++ "\n")

theorem printed_singleton (line : String) : printed [line] = line ++ "\n" := by
  simp [printed]

theorem printed_map (ds : List Dialect) (line : Dialect → String) :
    printed (ds.map line) = String.join (ds.map fun d ↦ line d ++ "\n") := by
  induction ds with
  | nil => rfl
  | cons d ds ih => rw [List.map_cons, List.map_cons, String.join_cons, ← ih]; rfl

theorem name_ne_filter (d : Dialect) : "filter" ≠ d.name := by
  cases d <;> decide

theorem name_injective {d d' : Dialect} (h : d.name = d'.name) : d = d' := by
  have hd := Dialect.ofName?_name d
  rw [h, Dialect.ofName?_name] at hd
  exact (Option.some.inj hd).symm

/-- The entries of a document for queries, in the order in which the queries are asked for. -/
def entriesOf (f : Filter) (texts : Dialect → String) (ds : List Dialect) : List (String × Json) :=
  ("filter", .string f.text) :: ds.map fun d ↦ (d.name, .string (texts d))

theorem mem_entriesOf_iff (f : Filter) (texts : Dialect → String) (ds : List Dialect)
    (entry : String × Json) : entry ∈ entriesOf f texts ds ↔
      entry = ("filter", .string f.text) ∨ ∃ d ∈ ds, entry = (d.name, .string (texts d)) := by
  rw [entriesOf, List.mem_cons, List.mem_map]
  simp only [eq_comm]

/-- Entries under one name are the same, since a dialect has one query and one name. -/
theorem entriesOf_agree (f : Filter) (texts : Dialect → String) (ds : List Dialect) :
    ∀ entry ∈ entriesOf f texts ds, ∀ other ∈ entriesOf f texts ds,
      entry.1 = other.1 → entry = other := by
  simp only [mem_entriesOf_iff]
  rintro _ (rfl | ⟨d, -, rfl⟩) _ (rfl | ⟨d', -, rfl⟩) hname
  · rfl
  · exact absurd hname (name_ne_filter d')
  · exact absurd hname.symm (name_ne_filter d)
  · rw [name_injective hname]

theorem prints_queriesText (c : Context) (f : Filter) (texts : Dialect → String)
    (ds : List Dialect) :
    Prints c f texts ds (queriesText c f (ds.map fun d ↦ (d, texts d))) := by
  unfold queriesText
  cases hjson : c.json with
  | true =>
    obtain ⟨hsorted, hmem⟩ := Entries.ofList_of_agree (entriesOf_agree f texts ds)
    simp only [if_true, printed_singleton, List.map_map]
    exact .object hjson hsorted fun entry ↦ (hmem entry).trans (mem_entriesOf_iff f texts ds entry)
  | false =>
    have hlines := printed_map ds fun d ↦ Display.query c.colors d (texts d)
    simp only [Bool.false_eq_true, if_false, List.map_map, Function.comp_def, hlines]
    obtain - | ⟨d, - | ⟨d', ds⟩⟩ := ds
    · exact .labelled hjson (by simp)
    · simp only [List.map_singleton, printed_singleton]
      exact .bare hjson
    · exact .labelled hjson (by simp)

/-! ### The command -/

/-- The dialects that are asked for: those of the settings if the command names none. -/
def asked (s : Settings) (dialects : List Dialect) : List Dialect :=
  if dialects.isEmpty then s.dialects else dialects

/-- The tree that is rendered: the normal form if both the settings and the command want it. -/
def rendered (s : Settings) (optimize : Bool) (f : Filter) : Filter :=
  if s.optimizes && optimize then f.normalize s.collapses else f

/-- There is no query to print: the expression is not one, or the dialect for provisioning is asked
for and the tree has a choice of several values. -/
def IsRefused (s : Settings) (expression : String) (dialects : List Dialect) (optimize : Bool) :
    Prop :=
  (∃ e, Filter.parse expression = .error e) ∨ ∃ f, Filter.parse expression = .ok f ∧
    .scim ∈ asked s dialects ∧
      ∃ property vs, (property, Test.oneOf vs) ∈ (rendered s optimize f).tests ∧ 1 < vs.length

section Render

variable {s : Settings} {expression : String} {dialects : List Dialect} {optimize : Bool}

theorem wellFormed_rendered {f : Filter} (h : Filter.parse expression = .ok f) :
    (rendered s optimize f).WellFormed := by
  have hwell := Filter.wellFormed_of_parse h
  unfold rendered
  split
  · exact Filter.wellFormed_normalize _ hwell
  · exact hwell

variable (flags : Flags) (env : Environment)

theorem runRender_of_parse {f : Filter} (h : Filter.parse expression = .ok f) :
    runRender (Context.make flags env s) expression dialects optimize =
      (queries (rendered s optimize f) (asked s dialects)).map
        (queriesText (Context.make flags env s) (rendered s optimize f)) := by
  rw [runRender, Context.filter, h]
  change (queries (rendered s optimize f) (asked s dialects) >>= fun found ↦
    pure (queriesText _ (rendered s optimize f) found)) = _
  cases queries (rendered s optimize f) (asked s dialects) <;> rfl

theorem exists_runRender_error (h : IsRefused s expression dialects optimize) :
    ∃ e, runRender (Context.make flags env s) expression dialects optimize = .error e := by
  rcases h with ⟨e, hparse⟩ | ⟨f, hparse, hscim, hmany⟩
  · refine ⟨e, ?_⟩
    rw [runRender, Context.filter, hparse]
    rfl
  · have hquery := (Filter.exists_query_error_iff (wellFormed_rendered hparse) .scim).mpr
      ⟨rfl, hmany⟩
    obtain ⟨e, he⟩ := exists_queries_error hscim hquery
    exact ⟨e, by rw [runRender_of_parse flags env hparse, he]; rfl⟩

theorem exists_runRender_ok (h : ¬IsRefused s expression dialects optimize) :
    ∃ f texts output, Filter.parse expression = .ok f ∧
      (∀ d ∈ asked s dialects, (rendered s optimize f).query d = .ok (texts d)) ∧
      Prints (Context.make flags env s) (rendered s optimize f) texts (asked s dialects) output ∧
      runRender (Context.make flags env s) expression dialects optimize = .ok output := by
  obtain ⟨hparses, hexpressible⟩ := not_or.mp h
  cases hparse : Filter.parse expression with
  | error e => exact absurd ⟨e, hparse⟩ hparses
  | ok f =>
    have hqueries : ∀ d ∈ asked s dialects, ∃ text, (rendered s optimize f).query d = .ok text := by
      intro d hd
      cases hquery : (rendered s optimize f).query d with
      | ok text => exact ⟨text, rfl⟩
      | error e =>
        obtain ⟨rfl, hmany⟩ :=
          (Filter.exists_query_error_iff (wellFormed_rendered hparse) d).mp ⟨e, hquery⟩
        exact absurd ⟨f, hparse, hd, hmany⟩ hexpressible
    choose! texts htexts using hqueries
    refine ⟨f, texts, _, rfl, htexts, prints_queriesText _ _ texts _, ?_⟩
    rw [runRender_of_parse flags env hparse, queries_eq_ok htexts]
    rfl

end Render

/-- Rendering prints everything or nothing, and it leaves the disk alone. It fails with an error
and no output exactly if there is no query to print. Otherwise the expression is one, its tree has a
query in each dialect that is asked for, and these queries are what is printed. -/
theorem run_render (flags : Flags) (expression : String) (dialects : List Dialect) (optimize : Bool)
    {env : Environment} {disk : Disk} {s : Settings} (hload : env.load disk = .ok s)
    (input : List UInt8) :
    let i : Invocation := ⟨flags, .render expression dialects optimize⟩
    (i.run env disk input).2 = disk ∧
      ((∃ e, (i.run env disk input).1 = ⟨"", some (.filter e)⟩) ↔
        IsRefused s expression dialects optimize) ∧
      (¬IsRefused s expression dialects optimize → ∃ f texts output,
        Filter.parse expression = .ok f ∧
        (∀ d ∈ asked s dialects, (rendered s optimize f).query d = .ok (texts d)) ∧
        Prints (Context.make flags env s) (rendered s optimize f) texts (asked s dialects) output ∧
        (i.run env disk input).1 = ⟨output, none⟩) := by
  intro i
  have hrun : i.run env disk input = (.ofExcept ((runRender (Context.make flags env s) expression
      dialects optimize).mapError .filter), disk) := by
    simp only [i, Invocation.run, hload]
  have hprinted (h : ¬IsRefused s expression dialects optimize) := exists_runRender_ok flags env h
  rw [hrun]
  refine ⟨rfl, ⟨?_, ?_⟩, ?_⟩
  · rintro ⟨e, he⟩
    by_contra hnot
    obtain ⟨f, texts, output, -, -, -, hok⟩ := hprinted hnot
    rw [hok] at he
    cases he
  · intro h
    obtain ⟨e, he⟩ := exists_runRender_error flags env h
    exact ⟨e, by rw [he]; rfl⟩
  · intro h
    obtain ⟨f, texts, output, hparse, htexts, hprints, hok⟩ := hprinted h
    exact ⟨f, texts, output, hparse, htexts, hprints, by rw [hok]; rfl⟩

theorem parse_a_pr : Filter.parse "a pr" = .ok (.test "a" .present) := by
  have htokens : (Cursor.ofText "a pr".toList).tokens =
      .ok [⟨.word "a", ⟨0, 1, 1⟩, ⟨1, 1, 2⟩⟩, ⟨.word "pr", ⟨2, 1, 3⟩, ⟨4, 1, 5⟩⟩] := by
    decide +kernel
  have hterm : Expression.Derives .term 0 [.word "a", .word "pr"] [] (.test "a" .present) :=
    .test (.present ((Operator.ofWord?_eq_some_iff _ _).mp (by decide))) (by decide)
  exact (Filter.parse_eq_ok_iff htokens _).mpr
    ⟨⟨0, by decide, .conjunction (.term hterm)⟩, by decide⟩

/-- Two dialects without any settings: lines with labels, in the order that was asked for. -/
theorem run_render_labelled :
    let env : Environment := ⟨some "settings", none, none, none, none⟩
    let i : Invocation := ⟨⟨false, false, false, true⟩, .render "a pr" [.scim, .graph] true⟩
    env.load .empty = .ok .unset ∧
      (i.run env .empty []).1 = ⟨"SCIM: a pr\nGraph: a ne null\n", none⟩ := by
  intro env i
  have hload : env.load .empty = .ok .unset := rfl
  have hnot : ¬IsRefused .unset "a pr" [.scim, .graph] true := by
    rintro (⟨e, he⟩ | ⟨f, hf, -, property, vs, hmem, -⟩)
    · rw [parse_a_pr] at he
      cases he
    · rw [parse_a_pr] at hf
      cases hf
      cases List.mem_singleton.mp hmem
  obtain ⟨-, -, hall⟩ := run_render i.flags "a pr" [.scim, .graph] true hload []
  obtain ⟨f, texts, output, hparse, htexts, hprints, hrun⟩ := hall hnot
  obtain rfl := Except.ok.inj (hparse.symm.trans parse_a_pr)
  have hscim : texts .scim = "a pr" := (Except.ok.inj (htexts .scim List.mem_cons_self)).symm
  have hgraph : texts .graph = "a ne null" :=
    (Except.ok.inj (htexts .graph (List.mem_cons_of_mem _ List.mem_cons_self))).symm
  have hasked : asked .unset [.scim, .graph] = [.scim, .graph] := rfl
  rw [hasked] at hprints
  refine ⟨hload, ?_⟩
  cases hprints with
  | object hjson => cases hjson
  | labelled =>
    rw [hrun]
    simp only [List.map_cons, List.map_nil, hscim, hgraph]
    decide +kernel

/-- The entries of a document are not in the order in which their dialects were asked for. -/
theorem run_render_not_as_asked :
    let env : Environment := ⟨some "settings", none, none, none, none⟩
    let i : Invocation := ⟨⟨false, false, true, true⟩, .render "a pr" [.scim, .graph] true⟩
    env.load .empty = .ok .unset ∧
      (i.run env .empty []).1 = ⟨(Json.object [("filter", .string "a pr"),
        ("graph", .string "a ne null"), ("scim", .string "a pr")]).lines ++ "\n", none⟩ ∧
      (i.run env .empty []).1.output ≠ (Json.object [("filter", .string "a pr"),
        ("scim", .string "a pr"), ("graph", .string "a ne null")]).lines ++ "\n" := by
  intro env i
  have hload : env.load .empty = .ok .unset := rfl
  have hrun : (i.run env .empty []).1 = ⟨(Json.object [("filter", .string "a pr"),
      ("graph", .string "a ne null"), ("scim", .string "a pr")]).lines ++ "\n", none⟩ := by
    simp only [i, Invocation.run, hload]
    rw [runRender_of_parse _ _ parse_a_pr]
    decide +kernel
  refine ⟨hload, hrun, ?_⟩
  rw [hrun]
  decide +kernel

end Command

end PropertyFilter
