import EntityQuery.Proofs.Plan.Acceptance

namespace EntityQuery

open JoinPlan

/-!
# Further directives

A query that compiles also compiles with further directives behind its own order, if their paths end
in fields (`Query.exists_compile_sortedBy`).  Its joins, columns and conditions are planned before any
order is, so they are planned once more as they were; what it was ordered by itself were fields too,
and any plan can be ordered by fields.
-/

variable {schema : Schema} {root : Entity} {plan plan' : JoinPlan} {order : SortOrder}

namespace Select

open Planning

/-- What a query is ordered by are fields. -/
theorem endsInField_of_orderTerms {terms : List (Column × Direction)}
    (h : (orderTerms schema root order).run plan = .ok (terms, plan')) :
    ∀ d ∈ order, schema.EndsInField root d.path := by
  intro d hd
  unfold orderTerms at h
  -- There is a directive, so the order is not the identifier's.
  rw [if_neg (by simpa using List.ne_nil_of_mem hd)] at h
  have hterm : ∀ {d p t p'}, (orderTerm schema root d).run p = .ok (t, p') →
      Reads schema root p p' ∧ schema.EndsInField root d.path := by
    intro d p t p' hterm
    obtain ⟨r, hr, hfield, hreach, _⟩ := run_orderTerm_iff.1 hterm
    exact ⟨run_reach hreach, r, hr, hfield⟩
  have hterms := (run_mapM_forall₂ (fun _ (d : SortDirective) _ => schema.EndsInField root d.path)
    (fun _ hfield => hfield) hterm h).2
  obtain ⟨_, _, hfield⟩ := exists_right_of_forall₂ hterms hd
  exact hfield

/-- Any plan can be ordered by fields. -/
theorem exists_run_orderTerms_of_fields (hschema : schema.Checked) (hroot : root ∈ schema.entities)
    (h : ∀ d ∈ order, schema.EndsInField root d.path) (plan : JoinPlan) :
    ∃ terms plan', (orderTerms schema root order).run plan = .ok (terms, plan') := by
  unfold orderTerms
  split
  · obtain ⟨key, hkey⟩ := hschema.keys root hroot
    rw [hkey]
    exact ⟨_, plan, rfl⟩
  · refine exists_run_mapM (fun d hd p => ?_) plan
    obtain ⟨r, hr, hfield⟩ := h d hd
    -- Only an association would be blamed.
    have hsettles : Settles (fun _ => False) (orderTerm schema root d) :=
      settles_orderTerm hr (Schema.joinable_parent hschema hroot hr) d.direction
        fun hassociation => by simp [hfield] at hassociation
    refine (hsettles p).resolve_right ?_
    rintro ⟨_, _, hfalse⟩
    exact hfalse

end Select

/-- The query with further directives behind its own order. -/
def Query.sortedBy (q : Query) (order : SortOrder) : Query := { q with order := q.order ++ order }

/-- Sorting by nothing leaves a query as it is. -/
@[simp] theorem Query.sortedBy_nil (q : Query) : q.sortedBy [] = q := by
  unfold sortedBy
  rw [List.append_nil]

/-- **Further directives do not stop a query from compiling**, if they order by fields. -/
theorem Query.exists_compile_sortedBy {q : Query} {c : Compiled} (hschema : schema.Checked)
    (hroot : q.entity ∈ schema.entities) (h : q.compile schema = .ok c)
    (horder : ∀ d ∈ order, schema.EndsInField q.entity d.path) :
    ∃ c', (q.sortedBy order).compile schema = .ok c' := by
  obtain ⟨s, hs, _⟩ := bind_eq_ok_iff.1 h
  obtain ⟨s', hs'⟩ := Select.exists_ofQuery_of_steps hs q.target (q.order ++ order)
    (fun _ hlist => ⟨_, _, hlist⟩) fun _ hterms =>
      Select.exists_run_orderTerms_of_fields hschema hroot <|
        List.forall_mem_append.2 ⟨Select.endsInField_of_orderTerms hterms, horder⟩
  refine ⟨s'.compiled (q.sortedBy order), ?_⟩
  unfold Query.compile
  rw [show Select.ofQuery schema (q.sortedBy order) = .ok s' from hs']
  rfl

end EntityQuery
