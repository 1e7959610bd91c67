import EntityQuery.Proofs.Plan.Acceptance
import EntityQuery.Proofs.Plan.Resorted

namespace EntityQuery

open JoinPlan

/-!
# Queries that are compiled for a later target

A query whose target is left open is compiled twice: once for whole records, when it is prepared, and
once for the target of a call, which may order the results as well.  This loses nothing:

* what compiles for any target compiles for whole records (`Query.exists_compile_entity`), because
  the associations that are loaded with a record are joined already;
* what compiles for whole records, and for some target with further directives, compiles for that
  target without them (`Query.exists_compile_of_sortedBy`).
-/

variable {schema : Schema} {q : Query} {s : Select} {c : Compiled}

namespace Select

/-- The order of a select can be had over any plan. -/
theorem exists_run_order (h : Select.ofQuery schema q = .ok s) (plan : JoinPlan) :
    ∃ terms plan', (orderTerms schema q.entity q.order).run plan = .ok (terms, plan') := by
  obtain ⟨deciding, middle, hjoins, hchosen, hterms, _⟩ := ofQuery_eq_ok h
  have hplanned : Planned schema q.entity middle.joins := by
    obtain ⟨needs, _, hmiddle⟩ := (SelectList.run_ofQuery hchosen).1
    exact hmiddle.planned ((run_planJoins hjoins).planned .nil)
  exact exists_run_orderTerms hplanned hterms plan

/-- The columns of records can be chosen in any plan. -/
theorem exists_run_ofEntity_of_plan (root : Entity) (plan : JoinPlan) :
    ∃ list plan', (SelectList.ofEntity schema root false).run plan = .ok (list, plan') := by
  obtain ⟨lists, plan', hlists⟩ := Planning.exists_run_mapM
    (fun a _ => SelectList.exists_run_associationColumns_of_plan a) plan
  refine ⟨⟨SelectList.fieldColumns 0 "" root ++ lists.flatMap SelectList.columns,
    lists.flatMap SelectList.fetched⟩, plan', ?_⟩
  unfold SelectList.ofEntity
  exact Planning.run_bind_iff.2 ⟨lists, plan', hlists, Planning.run_pure_iff.2 ⟨rfl, rfl⟩⟩

end Select

namespace Query

/-- A query is compiled by planning its select and writing it down. -/
theorem compile_eq_ok_iff :
    q.compile schema = .ok c ↔ ∃ s, Select.ofQuery schema q = .ok s ∧ s.compiled q = c := by
  unfold compile
  simp only [bind_eq_ok_iff, pure_eq_ok_iff]

/-- **What compiles for some target compiles for whole records.** -/
theorem exists_compile_entity (h : q.compile schema = .ok c) :
    ∃ c', (q.withTarget .entity).compile schema = .ok c' := by
  obtain ⟨s, hs, _⟩ := compile_eq_ok_iff.1 h
  obtain ⟨s', hs'⟩ := Select.exists_ofQuery hs .entity (Select.exists_run_ofEntity_of_plan q.entity)
  exact ⟨_, compile_eq_ok_iff.2 ⟨s', hs', rfl⟩⟩

/-- **What compiles with further directives compiles without them**, if the order without them can be
    had at all. -/
theorem exists_compile_of_sortedBy {order : SortOrder} {c' : Compiled}
    (hrecords : (q.withTarget .entity).compile schema = .ok c)
    (h : (q.sortedBy order).compile schema = .ok c') : ∃ c'', q.compile schema = .ok c'' := by
  obtain ⟨records, hrecords, _⟩ := compile_eq_ok_iff.1 hrecords
  obtain ⟨sorted, hsorted, _⟩ := compile_eq_ok_iff.1 h
  have horder : ∀ plan, ∃ terms plan',
      (Select.orderTerms schema q.entity q.order).run plan = .ok (terms, plan') :=
    Select.exists_run_order (q := q.withTarget .entity) hrecords
  obtain ⟨s, hs⟩ := Select.exists_ofQuery_of_steps hsorted q.target q.order
    (fun _ hlist => ⟨_, _, hlist⟩) fun _ _ => horder
  exact ⟨_, compile_eq_ok_iff.2 ⟨s, hs, rfl⟩⟩

end Query

end EntityQuery
