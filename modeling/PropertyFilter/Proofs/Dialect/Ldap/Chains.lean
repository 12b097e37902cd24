import PropertyFilter.Dialect.Query
import PropertyFilter.Filter.Matching

/-!
# Brackets within chains

Filters join two operands at a time, so that a chain of operands joined alike can be bracketed in
many ways. Without the brackets it is one group of operands in their order (`Filter.unbracketed`),
at every level of the tree. What records satisfy a filter and how a directory is asked for them are
both determined by that alone (`holds_unbracketed`, `searches`), so brackets within chains change
neither (`query_ldap_and_holds_of_unbracketed`).

The operands of a chain are those that it adds to a group (`Filter.chain`). A list of filters that
are joined from the left is written as one group of what each of them adds (`query_of_joinAll?`).
-/

set_option autoImplicit false

namespace PropertyFilter

open Ldap (Join Search)

/-! ### Chains -/

namespace Ldap.Join

/-- Two filters joined. -/
def connect : Join → Filter → Filter → Filter
  | all => .and
  | any => .or

/-- All filters of a list joined, from the left. -/
def joinAll? : Join → List Filter → Option Filter
  | all => Filter.all?
  | any => Filter.any?

theorem joinAll?_cons (join : Join) (f : Filter) (fs : List Filter) :
    join.joinAll? (f :: fs) = some (fs.foldl join.connect f) := by
  cases join <;> rfl

/-- What is joined last is joined from two filters, if there were two at the start. -/
theorem exists_connect_foldl (join : Join) (a b : Filter) (fs : List Filter) :
    ∃ x y, fs.foldl join.connect (join.connect a b) = join.connect x y := by
  induction fs generalizing a b with
  | nil => exact ⟨a, b, rfl⟩
  | cons f fs ih => exact ih (join.connect a b) f

end Ldap.Join

namespace Filter

/-- The operands of a chain of filters joined in this way, from left to right. -/
def chain (join : Join) : Filter → List Filter
  | .and a b => if join = .all then a.chain join ++ b.chain join else [.and a b]
  | .or a b => if join = .any then a.chain join ++ b.chain join else [.or a b]
  | .not a => [.not a]
  | .test property t => [.test property t]

theorem chain_connect (join : Join) (a b : Filter) :
    (join.connect a b).chain join = a.chain join ++ b.chain join := by
  cases join <;> rfl

/-- Filters joined otherwise are a chain of one. -/
theorem chain_connect_of_ne {join join' : Join} (h : join ≠ join') (a b : Filter) :
    (join.connect a b).chain join' = [join.connect a b] := by
  cases join <;> cases join'
  · exact absurd rfl h
  · rfl
  · rfl
  · exact absurd rfl h

theorem chain_foldl (join : Join) (f : Filter) (fs : List Filter) :
    (fs.foldl join.connect f).chain join = f.chain join ++ fs.flatMap (chain join) := by
  induction fs generalizing f with
  | nil => simp
  | cons g fs ih =>
    rw [List.foldl_cons, ih, chain_connect, List.flatMap_cons, List.append_assoc]

end Filter

/-! ### Filters without brackets -/

/-- A filter whose connectives have any number of operands. -/
inductive Unbracketed
  | group (join : Join) (operands : List Unbracketed)
  | negation (operand : Unbracketed)
  | test (property : String) (test : Test)

namespace Unbracketed

/-- What a filter adds to a group of operands that are joined in this way: its own operands if they
are joined in the same way, or else itself. -/
def operands (join : Join) : Unbracketed → List Unbracketed
  | group own fs => if own = join then fs else [group own fs]
  | negation f => [negation f]
  | test property t => [test property t]

/-- Whether a record satisfies all operands, or any. -/
def holds (r : Record) : Unbracketed → Bool
  | group .all fs => (fs.map fun f ↦ f.holds r).all id
  | group .any fs => (fs.map fun f ↦ f.holds r).any id
  | negation f => !f.holds r
  | test property t => t.holds (r property)

/-- The search of a filter, with a group for each group. -/
def search : Unbracketed → Search
  | group join fs => .group join (fs.map search)
  | negation (.test property (.equals v)) => Search.differs property v
  | negation f => .negation f.search
  | test property t => Search.ofTest property t

end Unbracketed

/-- The filter with the operands of each chain in one group. -/
def Filter.unbracketed : Filter → Unbracketed
  | .and a b => .group .all (a.unbracketed.operands .all ++ b.unbracketed.operands .all)
  | .or a b => .group .any (a.unbracketed.operands .any ++ b.unbracketed.operands .any)
  | .not a => .negation a.unbracketed
  | .test property t => .test property t

/-! ### Matching -/

/-- What a filter adds to a group has to match as the filter itself. -/
theorem all_operands (r : Record) (f : Unbracketed) :
    ((f.operands .all).map fun f ↦ f.holds r).all id = f.holds r := by
  cases f with
  | group join fs => cases join <;> simp [Unbracketed.operands, Unbracketed.holds]
  | negation f => simp [Unbracketed.operands]
  | test property t => simp [Unbracketed.operands]

theorem any_operands (r : Record) (f : Unbracketed) :
    ((f.operands .any).map fun f ↦ f.holds r).any id = f.holds r := by
  cases f with
  | group join fs => cases join <;> simp [Unbracketed.operands, Unbracketed.holds]
  | negation f => simp [Unbracketed.operands]
  | test property t => simp [Unbracketed.operands]

theorem holds_unbracketed (r : Record) (f : Filter) : f.unbracketed.holds r = f.holds r := by
  induction f with
  | and a b iha ihb =>
    rw [Filter.unbracketed, Unbracketed.holds, List.map_append, List.all_append, all_operands,
      all_operands, iha, ihb, Filter.holds]
  | or a b iha ihb =>
    rw [Filter.unbracketed, Unbracketed.holds, List.map_append, List.any_append, any_operands,
      any_operands, iha, ihb, Filter.holds]
  | not a ih => rw [Filter.unbracketed, Unbracketed.holds, ih, Filter.holds]
  | test property t => rw [Filter.unbracketed, Unbracketed.holds, Filter.holds]

/-! ### Searches -/

namespace Ldap.Search

/-- The searches that a filter adds to a group. -/
def adds : Join → Filter → List Search
  | .all => conjuncts
  | .any => disjuncts

theorem ofFilter_connect (join : Join) (a b : Filter) :
    ofFilter (join.connect a b) = .group join (adds join (join.connect a b)) := by
  cases join <;> rfl

/-- A filter adds the searches of the operands of its chain. -/
theorem adds_eq (join : Join) (f : Filter) : adds join f = (f.chain join).map ofFilter := by
  induction f with
  | and a b iha ihb =>
    cases join with
    | all =>
      rw [Filter.chain, if_pos rfl, List.map_append, ← iha, ← ihb]
      rfl
    | any => rfl
  | or a b iha ihb =>
    cases join with
    | all => rfl
    | any =>
      rw [Filter.chain, if_pos rfl, List.map_append, ← iha, ← ihb]
      rfl
  | not a _ => cases join <;> rfl
  | test property t => cases join <;> rfl

theorem flatMap_adds (join : Join) (fs : List Filter) :
    fs.flatMap (adds join) = (fs.flatMap (Filter.chain join)).map ofFilter := by
  rw [List.map_flatMap, funext (adds_eq join)]

end Ldap.Search

/-- The search of a filter without brackets is that of the filter, alone and as a part of either
kind of group. -/
def Searches (f : Filter) : Prop :=
  f.unbracketed.search = Search.ofFilter f ∧
    ∀ join, (f.unbracketed.operands join).map Unbracketed.search = Search.adds join f

theorem searches_connect (join : Join) {a b : Filter} (ha : Searches a) (hb : Searches b) :
    Searches (join.connect a b) := by
  have hunbracketed : (join.connect a b).unbracketed =
      .group join (a.unbracketed.operands join ++ b.unbracketed.operands join) := by
    cases join <;> rfl
  have hoperands : (a.unbracketed.operands join ++ b.unbracketed.operands join).map
      Unbracketed.search = Search.adds join (join.connect a b) := by
    rw [List.map_append, ha.2, hb.2, Search.adds_eq, Search.adds_eq, Search.adds_eq,
      Filter.chain_connect, List.map_append]
  have hgroup : (join.connect a b).unbracketed.search = Search.ofFilter (join.connect a b) := by
    rw [hunbracketed, Unbracketed.search, hoperands, Search.ofFilter_connect]
  refine ⟨hgroup, fun join' ↦ ?_⟩
  by_cases hjoin : join = join'
  · subst hjoin
    rw [hunbracketed, Unbracketed.operands, if_pos rfl, hoperands]
  · rw [hunbracketed, Unbracketed.operands, if_neg hjoin, ← hunbracketed, List.map_singleton,
      hgroup, Search.adds_eq, Filter.chain_connect_of_ne hjoin, List.map_singleton]

theorem searches_of_not {a : Filter} (ha : Searches a) : Searches (.not a) := by
  have hnegation : (Filter.not a).unbracketed.search = Search.ofFilter (.not a) := by
    rw [Filter.unbracketed, Search.ofFilter, ← ha.1]
    cases a with
    | test property t =>
      cases t <;> simp [Filter.unbracketed, Unbracketed.search, Search.negationOf]
    | _ => simp [Filter.unbracketed, Unbracketed.search, Search.negationOf]
  refine ⟨hnegation, fun join ↦ ?_⟩
  rw [Search.adds_eq]
  exact congrArg (fun search ↦ [search]) hnegation

theorem searches (f : Filter) : Searches f := by
  induction f with
  | and a b iha ihb => exact searches_connect .all iha ihb
  | or a b iha ihb => exact searches_connect .any iha ihb
  | not a ih => exact searches_of_not ih
  | test property t =>
    have htest : (Filter.test property t).unbracketed.search =
        Search.ofFilter (.test property t) := by
      rw [Filter.unbracketed, Unbracketed.search, Search.ofFilter]
    refine ⟨htest, fun join ↦ ?_⟩
    rw [Search.adds_eq]
    exact congrArg (fun search ↦ [search]) htest

/-! ### Lists of filters -/

/-- Two or more filters that are joined alike are searched for as one group of what each adds. -/
theorem Ldap.Search.ofFilter_of_joinAll? {join : Join} {f : Filter} {fs : List Filter}
    (h : join.joinAll? fs = some f) (hmany : 2 ≤ fs.length) :
    ofFilter f = .group join (fs.flatMap (adds join)) := by
  obtain - | ⟨a, - | ⟨b, others⟩⟩ := fs
  · simp at hmany
  · simp at hmany
  rw [Join.joinAll?_cons, Option.some.injEq, List.foldl_cons] at h
  obtain ⟨x, y, hconnect⟩ := join.exists_connect_foldl a b others
  have hadds : adds join f = (a :: b :: others).flatMap (adds join) := by
    rw [adds_eq, flatMap_adds, ← h, Filter.chain_foldl, Filter.chain_connect, List.flatMap_cons,
      List.flatMap_cons, List.append_assoc]
  rw [← hadds, ← h, hconnect, ofFilter_connect]

namespace Ldap

/-- The text of a group of the searches of filters. -/
def groupText (join : Join) (fs : List Filter) : String :=
  String.ofList ('(' :: join.symbol :: fs.flatMap query ++ [')'])

theorem writtenAll_map_ofFilter (fs : List Filter) :
    Search.writtenAll (fs.map Search.ofFilter) = fs.flatMap query := by
  induction fs with
  | nil => rfl
  | cons f fs ih => rw [List.map_cons, Search.writtenAll, ih, List.flatMap_cons, query]

/-- Two or more filters that are joined alike are written as one group of the operands of all their
chains. -/
theorem query_of_joinAll? (join : Join) {fs : List Filter} (hmany : 2 ≤ fs.length) :
    ∃ f, join.joinAll? fs = some f ∧
      f.query .ldap = .ok (groupText join (fs.flatMap (Filter.chain join))) := by
  obtain ⟨g, others, rfl⟩ :=
    List.exists_cons_of_length_pos (Nat.lt_of_lt_of_le Nat.two_pos hmany)
  refine ⟨_, join.joinAll?_cons g others, ?_⟩
  rw [Filter.query, query, Search.ofFilter_of_joinAll? (join.joinAll?_cons g others) hmany,
    Search.flatMap_adds, Search.written, writtenAll_map_ofFilter, groupText]

/-- Filters that are the same without the brackets in their chains are written in the same way for a
directory and are satisfied by the same records. Two or more filters that are joined by `and`, or by
`or`, are written as one group of the operands of all their chains. -/
theorem query_ldap_and_holds_of_unbracketed :
    (∀ f g : Filter, f.unbracketed = g.unbracketed →
      (∃ text, f.query .ldap = .ok text ∧ g.query .ldap = .ok text) ∧
        ∀ r, f.holds r = g.holds r) ∧
      ∀ fs : List Filter, 2 ≤ fs.length →
        (∃ f, Filter.all? fs = some f ∧
          f.query .ldap = .ok (groupText .all (fs.flatMap (Filter.chain .all)))) ∧
        ∃ f, Filter.any? fs = some f ∧
          f.query .ldap = .ok (groupText .any (fs.flatMap (Filter.chain .any))) := by
  refine ⟨fun f g h ↦ ⟨⟨_, rfl, ?_⟩, fun r ↦ ?_⟩, fun fs hmany ↦
    ⟨query_of_joinAll? .all hmany, query_of_joinAll? .any hmany⟩⟩
  · rw [Filter.query, query, query, ← (searches f).1, ← (searches g).1, h]
  · rw [← holds_unbracketed, ← holds_unbracketed, h]

/-- Chains of three, of which one stands in the other and all under a negation, and a list of two
groups, of which one goes on with the chain of the list. -/
theorem query_ldap_and_holds_of_unbracketed_nested :
    let a : Filter := .test "a" .present
    let b : Filter := .test "b" .present
    let c : Filter := .test "c" .present
    let d : Filter := .test "d" .present
    let f : Filter := .not (.or (.or a (.and (.and a b) c)) d)
    let g : Filter := .not (.or a (.or (.and a (.and b c)) d))
    f ≠ g ∧ f.unbracketed = g.unbracketed ∧
      (f.query .ldap = .ok "(!(|(a=*)(&(a=*)(b=*)(c=*))(d=*)))" ∧
        g.query .ldap = .ok "(!(|(a=*)(&(a=*)(b=*)(c=*))(d=*)))" ∧ ∀ r, f.holds r = g.holds r) ∧
      ∃ all, Filter.all? [.and a b, .or c d] = some all ∧
        all.query .ldap = .ok "(&(a=*)(b=*)(|(c=*)(d=*)))" := by
  intro a b c d f g
  have hunbracketed : f.unbracketed = g.unbracketed := rfl
  obtain ⟨⟨text, hf, hg⟩, hholds⟩ := query_ldap_and_holds_of_unbracketed.1 f g hunbracketed
  have htext : f.query .ldap = .ok "(!(|(a=*)(&(a=*)(b=*)(c=*))(d=*)))" :=
    congrArg Except.ok (by decide +kernel)
  obtain ⟨⟨all, hall, hquery⟩, -⟩ :=
    query_ldap_and_holds_of_unbracketed.2 [.and a b, .or c d] (Nat.le_refl 2)
  refine ⟨by decide, hunbracketed, ⟨htext, ?_, hholds⟩, all, hall, ?_⟩
  · rw [hg, ← hf, htext]
  · exact hquery.trans (congrArg Except.ok (by decide +kernel))

end Ldap

end PropertyFilter
