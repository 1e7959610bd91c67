import EntityQuery.Proofs.Plan.Planning

namespace EntityQuery

open JoinPlan

/-!
# Joins that drop rows

An inner join of a plan is there for one of two reasons:

* the caller wrote an inner join on its path or on one behind it (`Insists`), or
* a comparison that has to hold reads a property behind it (`Comparison.NeedsPartner`).

`PlannedFor.backed` says that there is no other one.  What the caller insists on is settled by the
joins that the caller wrote, whatever is read on top of them (`PlannedFor.insists_iff`).
-/

variable {schema : Schema} {root : Entity} {need : JoinNeed} {path : Path}
variable {plan mid plan' : JoinPlan} {needs : List (JoinNeed × Path)}

namespace JoinPlan

/-! ### Inner joins of the caller -/

/-- The caller wrote an inner join on the path. -/
def Insists (plan : JoinPlan) (path : Path) : Prop :=
  ∃ j ∈ plan.joins, j.path = path ∧ j.kind = .inner ∧ j.explicit = true

/-- What the caller insists on is never given up. -/
theorem Grows.insists (h : Grows schema root need path plan plan') {p : Path}
    (hp : plan.Insists p) : plan'.Insists p := by
  obtain ⟨j, hj, hpath, hkind, hexplicit⟩ := hp
  obtain ⟨j', hj', hbecame⟩ := h.keeps hj
  exact ⟨j', hj', hbecame.path.trans hpath, (hbecame.kind hexplicit).trans hkind,
    hbecame.explicit.trans hexplicit⟩

/-- Only an inner join that the caller wrote adds to what the caller insists on. -/
theorem Grows.insists_iff (h : Grows schema root need path plan plan')
    (hneed : need.explicit = true → need.kind = .left) (p : Path) :
    plan'.Insists p ↔ plan.Insists p := by
  constructor
  · rintro ⟨j', hj', hpath, hkind, hexplicit⟩
    rcases h.origin hj' with ⟨j, hj, hbecame⟩ | ⟨_, hadded⟩
    · have hbefore : j.explicit = true := hbecame.explicit.symm.trans hexplicit
      exact ⟨j, hj, hbecame.path.symm.trans hpath, hbecame.inner hkind, hbefore⟩
    · -- The caller wrote the new join, so it is a left one.
      have hleft := hneed (hadded.explicit hexplicit).2
      rw [hadded.kind, hleft] at hkind
      cases hkind
  · exact h.insists

namespace Serves

/-- Needs that insist on nothing inner leave the inner joins that are insisted on as they are. -/
theorem insists_iff (h : Serves schema root needs plan plan')
    (hneeds : ∀ n ∈ needs, n.1.explicit = true → n.1.kind = .left) (p : Path) :
    plan'.Insists p ↔ plan.Insists p := by
  induction h with
  | nil => rfl
  | cons first _ ih =>
    rw [List.forall_mem_cons] at hneeds
    rw [ih hneeds.2]
    exact (grows_of_ensure first).insists_iff hneeds.1 p

/-- Serving the same needs leads to the same plan. -/
theorem unique (h : Serves schema root needs plan mid) (h' : Serves schema root needs plan plan') :
    mid = plan' := by
  induction h with
  | nil =>
    cases h'
    rfl
  | cons first _ ih =>
    cases h' with
    | cons first' rest' =>
      have hsame : Except.ok _ = Except.ok _ := first.symm.trans first'
      cases hsame
      exact ih rest'

end Serves

/-! ### Reasons for inner joins -/

/-- Every inner join is on the way to a path that the caller insists on or that is wanted. -/
def Backed (wanted : Path → Prop) (plan : JoinPlan) : Prop :=
  ∀ j ∈ plan.joins, j.kind = .inner →
    ∃ p, (plan.Insists p ∨ wanted p) ∧ j.path.segments <+: p.segments

variable {wanted : Path → Prop}

/-- An inner join that comes about is one that the caller wrote or that the condition wants. -/
theorem Grows.backed (h : Grows schema root need path plan plan')
    (hneed : need.kind = .inner → need.explicit = true ∨ wanted path)
    (hplan : plan.Backed wanted) : plan'.Backed wanted := by
  intro j' hj' hkind
  rcases h.origin hj' with ⟨j, hj, hbecame⟩ | ⟨habsent, hadded⟩
  · obtain ⟨p, hp, hway⟩ := hplan j hj (hbecame.inner hkind)
    exact ⟨p, hp.imp_left h.insists, hbecame.path ▸ hway⟩
  · have hinner : need.kind = .inner := hadded.kind.symm.trans hkind
    refine ⟨path, ?_, hadded.onWay⟩
    rcases hneed hinner with hexplicit | hwanted
    · -- The join of the path itself is new too, and it is the one that the caller wrote.
      obtain ⟨j, hj, hpath, _, hnew⟩ := h.reached
      obtain ⟨hjkind, hjexplicit⟩ := hnew habsent
      exact .inl ⟨j, hj, hpath, hjkind.trans hinner, hjexplicit.trans hexplicit⟩
    · exact .inr hwanted

/-- So after any number of needs. -/
theorem Serves.backed (h : Serves schema root needs plan plan')
    (hneeds : ∀ n ∈ needs, n.1.kind = .inner → n.1.explicit = true ∨ wanted n.2)
    (hplan : plan.Backed wanted) : plan'.Backed wanted := by
  induction h with
  | nil => exact hplan
  | cons first _ ih =>
    rw [List.forall_mem_cons] at hneeds
    exact ih hneeds.2 ((grows_of_ensure first).backed hneeds.1 hplan)

end JoinPlan

/-! ### Inner joins of a select -/

/-- The comparison has to hold, and it cannot hold of a missing value. -/
def Predicate.Comparison.NeedsPartner (c : Predicate.Comparison) : Prop :=
  c.required = true ∧ c.operator.rejectsNull = true

/-- The path leads to a property that the predicate cannot do without. -/
def Query.Wants (q : Query) (path : Path) : Prop :=
  ∃ p, q.predicate = some p ∧ ∃ c ∈ p.comparisons, c.NeedsPartner ∧ c.path.parent = path

namespace Select

/-- What the predicate needs is not what the caller wrote, and inner only where it is wanted. -/
theorem of_mem_testNeeds {q : Query} {n : JoinNeed × Path}
    (hn : n ∈ testNeeds schema root q.predicate) :
    n.1.explicit = false ∧ (n.1.kind = .inner → q.Wants n.2) := by
  obtain ⟨c, hc, hneed⟩ := List.mem_filterMap.1 hn
  obtain ⟨path, hpath, rfl⟩ := Option.map_eq_some_iff.1 hneed
  obtain ⟨r, hr, hjoin⟩ := Option.bind_eq_some_iff.1 hpath
  refine ⟨rfl, fun hkind => ?_⟩
  -- An inner join is planned only for a test that decides and that absence fails.
  have hneeds : c.NeedsPartner := by
    by_contra hnot
    have hleft : ¬ (c.required && c.operator.rejectsNull) = true := by
      rw [Bool.and_eq_true]
      exact hnot
    rw [if_neg hleft] at hkind
    cases hkind
  have hparent : c.path.parent = path := by
    cases hresolve : schema.resolve root c.path with
    | error defect => rw [hresolve] at hr; cases hr
    | ok r' =>
      rw [hresolve] at hr
      cases hr
      rw [(resolved_of_resolve hresolve).joinPath?] at hjoin
      split at hjoin
      · cases hjoin
      · exact Option.some.inj hjoin
  cases hp : q.predicate with
  | none => rw [hp] at hc; cases hc
  | some p =>
    rw [hp] at hc
    exact ⟨p, hp, c, hc, hneeds, hparent⟩

namespace PlannedFor

variable {q : Query} {s : Select}

/-- **Reasons for inner joins.**  Every inner join of a select is on the way to a path that the
    caller insists on, or to a property that the predicate cannot do without. -/
theorem backed (h : PlannedFor schema q s) : s.plan.Backed q.Wants := by
  obtain ⟨deciding, hserves, needs, hneeds, hreads⟩ := h.plan
  refine hreads.backed (fun n hn hkind => ?_) (hserves.backed (fun n hn hkind => ?_) nofun)
  · rw [(hneeds n hn).kind] at hkind
    cases hkind
  · rcases List.mem_append.1 hn with hn | hn
    · -- The caller wrote it.
      obtain ⟨request, _, rfl⟩ := List.mem_map.1 hn
      exact .inl rfl
    · exact .inr ((of_mem_testNeeds hn).2 hkind)

/-- **What the caller insists on** is settled by the first joins of the caller, as long as the
    further ones are left joins. -/
theorem insists_iff (h : PlannedFor schema q s) {joins extra : List JoinRequest}
    (hjoins : q.joins = joins ++ extra) (hextra : ∀ request ∈ extra, request.kind = .left) :
    ∃ base, Serves schema q.entity (requestNeeds joins) {} base ∧
      ∀ p, s.plan.Insists p ↔ base.Insists p := by
  obtain ⟨deciding, hserves, needs, hneeds, hreads⟩ := h.plan
  rw [hjoins, requestNeeds, List.map_append, List.append_assoc] at hserves
  obtain ⟨base, hbase, hrest⟩ := hserves.split
  refine ⟨base, hbase, fun p => ?_⟩
  rw [hreads.insists_iff (fun n hn _ => (hneeds n hn).kind)]
  refine hrest.insists_iff (fun n hn hexplicit => ?_) p
  rcases List.mem_append.1 hn with hn | hn
  · obtain ⟨request, hrequest, rfl⟩ := List.mem_map.1 hn
    exact hextra request hrequest
  · rw [(of_mem_testNeeds hn).1] at hexplicit
    cases hexplicit

/-- Counting joins every inner join. -/
theorem mem_filtering_of_inner (h : PlannedFor schema q s) {j : Join} (hj : j ∈ s.plan.joins)
    (hkind : j.kind = .inner) : j ∈ s.plan.filtering.joins := by
  obtain ⟨back, hjoins, hback⟩ := h.layered.filtering_append
  rw [hjoins, List.mem_append] at hj
  rcases hj with hj | hj
  · exact hj
  · rw [hback j hj] at hkind
    cases hkind

end PlannedFor

end Select

end EntityQuery
