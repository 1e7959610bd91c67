import EntityQuery.Proofs.Plan.Insisted
import EntityQuery.Proofs.Plan.Progress

namespace EntityQuery

open JoinPlan

/-!
# Requested joins

A plan holds one join for each path, and the first request that leads over a path makes that join.
So what becomes of the requests can be read off before anything is planned:

* a path is joined if some request leads over it (`JoinPlan.Grows.mem_paths_iff`, request by
  request);
* the caller insists on a path if the first request that leads over it is an inner one, and ends on
  that path (`JoinPlan.Serves.insists_requests_iff`).

The second fact leaves out every inner request whose path a left one has led over before: the join
that is there already keeps its kind.
-/

variable {schema : Schema} {root : Entity} {need : JoinNeed} {path p : Path}
variable {plan plan' : JoinPlan} {joins : List JoinRequest} {request : JoinRequest}

/-! ### Requests that lead over a path -/

namespace JoinRequest

/-- The request leads to the path or on to what lies behind it. -/
def leadsOver (request : JoinRequest) (path : Path) : Bool :=
  path.segments.isPrefixOf request.path.segments

/-- The first request that leads over the path. -/
def firstOver? (joins : List JoinRequest) (path : Path) : Option JoinRequest :=
  joins.find? (·.leadsOver path)

/-- The first request that leads over the path is an inner one, and it ends there. -/
def Insist (joins : List JoinRequest) (path : Path) : Prop :=
  ∃ request, firstOver? joins path = some request ∧ request.path = path ∧ request.kind = .inner

/-- A request leads over the front parts of its path. -/
theorem leadsOver_iff : request.leadsOver p = true ↔ p.segments <+: request.path.segments :=
  List.isPrefixOf_iff_prefix

/-- It leads over its own path. -/
theorem leadsOver_path : request.leadsOver request.path = true :=
  leadsOver_iff.2 List.prefix_rfl

/-- A request that leads over a path is the first that does. -/
theorem firstOver?_cons_of_leadsOver (h : request.leadsOver p = true) :
    firstOver? (request :: joins) p = some request := List.find?_cons_of_pos h

/-- One that does not leaves the later ones to be asked. -/
theorem firstOver?_cons_of_not_leadsOver (h : ¬ request.leadsOver p = true) :
    firstOver? (request :: joins) p = firstOver? joins p := List.find?_cons_of_neg h

/-- If the first request leads over a path, it alone tells whether an inner join is insisted on. -/
theorem insist_cons_of_leadsOver (h : request.leadsOver p = true) :
    Insist (request :: joins) p ↔ request.path = p ∧ request.kind = .inner := by
  unfold Insist
  rw [firstOver?_cons_of_leadsOver h]
  constructor
  · rintro ⟨first, hfirst, hpath, hkind⟩
    obtain rfl := Option.some.inj hfirst
    exact ⟨hpath, hkind⟩
  · rintro ⟨hpath, hkind⟩
    exact ⟨request, rfl, hpath, hkind⟩

/-- Otherwise the later ones do. -/
theorem insist_cons_of_not_leadsOver (h : ¬ request.leadsOver p = true) :
    Insist (request :: joins) p ↔ Insist joins p := by
  unfold Insist
  rw [firstOver?_cons_of_not_leadsOver h]

/-- Some request leads over the path of each request, and the first one that does is also the first
    one over its own path. -/
theorem exists_firstOver (h : request ∈ joins) :
    ∃ first, firstOver? joins request.path = some first ∧
      request.path.segments <+: first.path.segments ∧ firstOver? joins first.path = some first := by
  have hsome : (joins.find? (·.leadsOver request.path)).isSome = true :=
    List.find?_isSome.2 ⟨request, h, leadsOver_path⟩
  obtain ⟨first, hfirst⟩ := Option.isSome_iff_exists.1 hsome
  obtain ⟨hover, before, after, hjoins, hbefore⟩ := List.find?_eq_some_iff_append.1 hfirst
  rw [leadsOver_iff] at hover
  refine ⟨first, hfirst, hover, List.find?_eq_some_iff_append.2
    ⟨leadsOver_path, before, after, hjoins, fun earlier hearlier => ?_⟩⟩
  -- An earlier request over the longer path would lead over the shorter one too.
  have hnot := hbefore earlier hearlier
  rw [Bool.not_eq_true', ← Bool.not_eq_true, leadsOver_iff] at hnot ⊢
  exact fun hlonger => hnot (hover.trans hlonger)

end JoinRequest

namespace JoinPlan

/-! ### Joined paths -/

/-- Joined paths are never empty. -/
theorem Planned.segments_ne_nil {joins : List Join} (h : Planned schema root joins) {join : Join}
    (hjoin : join ∈ joins) : join.path.segments ≠ [] := by
  obtain ⟨_, _, hlinked⟩ := h.linked_of_mem hjoin
  obtain ⟨r, _, hr, _⟩ := hlinked.resolves
  exact (resolved_of_resolve hr).nonempty

/-- All paths on the way to a joined path are joined. -/
theorem Planned.prefix_joined {joins : List Join} (h : Planned schema root joins) {join : Join}
    (hjoin : join ∈ joins) (hne : p.segments ≠ []) (hway : p.segments <+: join.path.segments) :
    ∃ j ∈ joins, j.path = p := by
  obtain ⟨rest, hrest⟩ := hway
  -- The induction goes back from the joined path, one segment after the other.
  induction rest using List.reverseRecOn generalizing join with
  | nil =>
    rw [List.append_nil] at hrest
    exact ⟨join, hjoin, congrArg Path.mk hrest.symm⟩
  | append_singleton rest segment ih =>
    have hparent : join.path.parent.segments = p.segments ++ rest := by
      rw [Path.parent, ← hrest, ← List.append_assoc, List.dropLast_concat]
    have hnonempty : join.path.parent.segments ≠ [] := by
      rw [hparent]
      exact List.append_ne_nil_of_left_ne_nil hne rest
    obtain ⟨j, hj, hpath⟩ := h.parent_joined hjoin hnonempty
    exact ih hj (by rw [hpath, hparent])

/-- **What serving a need joins**: the paths on the way to the one that is needed. -/
theorem Grows.mem_paths_iff (h : Grows schema root need path plan plan')
    (hplan : Planned schema root plan.joins) :
    p ∈ plan'.paths ↔ p ∈ plan.paths ∨ (p.segments ≠ [] ∧ p.segments <+: path.segments) := by
  have hplanned := h.planned hplan
  constructor
  · intro hp
    obtain ⟨j', hj', rfl⟩ := mem_paths.1 hp
    rcases h.origin hj' with ⟨j, hj, hbecame⟩ | ⟨_, hadded⟩
    · exact .inl (mem_paths.2 ⟨j, hj, hbecame.path.symm⟩)
    · exact .inr ⟨hplanned.segments_ne_nil hj', hadded.onWay⟩
  -- What was joined stays, and with the path every front part of it is joined.
  · rintro (hp | ⟨hne, hway⟩)
    · obtain ⟨j, hj, hpath⟩ := mem_paths.1 hp
      obtain ⟨j', hj', hbecame⟩ := h.keeps hj
      exact mem_paths.2 ⟨j', hj', hbecame.path.trans hpath⟩
    · obtain ⟨j, hj, hpath, _⟩ := h.reached
      exact mem_paths.2 (hplanned.prefix_joined hj hne (hpath ▸ hway))

/-! ### What the caller insists on -/

/-- **One request adds to what the caller insists on** if it is an inner one on a path that is not
    joined yet, and it adds that path alone. -/
theorem Grows.insists_iff_or (h : Grows schema root need path plan plan') :
    plan'.Insists p ↔ plan.Insists p ∨
      (p = path ∧ path ∉ plan.paths ∧ need.kind = .inner ∧ need.explicit = true) := by
  constructor
  · rintro ⟨j', hj', hpath, hkind, hexplicit⟩
    -- An old join insists as it did; a new one does if the need does.
    rcases h.origin hj' with ⟨j, hj, hbecame⟩ | ⟨habsent, hadded⟩
    · exact .inl ⟨j, hj, hbecame.path.symm.trans hpath, hbecame.inner hkind,
        hbecame.explicit.symm.trans hexplicit⟩
    · obtain ⟨hsame, hneed⟩ := hadded.explicit hexplicit
      exact .inr ⟨hpath.symm.trans hsame, habsent, hadded.kind.symm.trans hkind, hneed⟩
  · rintro (hp | ⟨rfl, habsent, hkind, hexplicit⟩)
    · exact h.insists hp
    · obtain ⟨j, hj, hpath, _, hnew⟩ := h.reached
      obtain ⟨hjkind, hjexplicit⟩ := hnew habsent
      exact ⟨j, hj, hpath, hjkind.trans hkind, hjexplicit.trans hexplicit⟩

/-- **What all requests insist on**, over a plan that may know some paths already. -/
theorem Serves.insists_requests_iff
    (h : Serves schema root (Select.requestNeeds joins) plan plan')
    (hplan : Planned schema root plan.joins) (hne : p.segments ≠ []) :
    plan'.Insists p ↔ plan.Insists p ∨ (p ∉ plan.paths ∧ JoinRequest.Insist joins p) := by
  induction joins generalizing plan with
  | nil =>
    cases h
    have hnone : ¬ JoinRequest.Insist [] p := by
      rintro ⟨request, hfirst, _⟩
      cases hfirst
    simp only [hnone, and_false, or_false]
  | cons request joins ih =>
    have happend : Serves schema root
        ([(.requested request, request.path)] ++ Select.requestNeeds joins) plan plan' := h
    obtain ⟨mid, hfirst, hrest⟩ := happend.split
    cases hfirst with
    | cons hensure hnil =>
    cases hnil
    have hgrows := grows_of_ensure hensure
    rw [ih hrest (hgrows.planned hplan), hgrows.insists_iff_or, hgrows.mem_paths_iff hplan]
    by_cases hover : request.leadsOver p = true
    · -- The request settles the path: from now on it is joined, and later requests only meet it.
      rw [JoinRequest.insist_cons_of_leadsOver hover]
      rw [JoinRequest.leadsOver_iff] at hover
      constructor
      · rintro ((hp | ⟨rfl, habsent, hkind, _⟩) | ⟨habsent, _⟩)
        · exact .inl hp
        · exact .inr ⟨habsent, rfl, hkind⟩
        · exact absurd (.inr ⟨hne, hover⟩) habsent
      · rintro (hp | ⟨habsent, rfl, hkind⟩)
        · exact .inl (.inl hp)
        · exact .inl (.inr ⟨rfl, habsent, hkind, rfl⟩)
    · -- The request has nothing to do with the path.
      rw [JoinRequest.insist_cons_of_not_leadsOver hover]
      have hother : p ≠ request.path := by
        rintro rfl
        exact hover JoinRequest.leadsOver_path
      rw [JoinRequest.leadsOver_iff] at hover
      simp only [hother, hover, false_and, and_false, or_false]

end JoinPlan

/-- **What a select insists on** is settled by its requests alone. -/
theorem Select.PlannedFor.insists_iff_insist {q : Query} {s : Select} (h : PlannedFor schema q s)
    (hne : p.segments ≠ []) : s.plan.Insists p ↔ JoinRequest.Insist q.joins p := by
  obtain ⟨base, hbase, hiff⟩ := h.insists_iff (List.append_nil q.joins).symm nofun
  have hempty : ¬ JoinPlan.Insists {} p := by
    rintro ⟨j, hj, _⟩
    cases hj
  have habsent : p ∉ JoinPlan.paths {} := List.not_mem_nil
  rw [hiff, hbase.insists_requests_iff .nil hne]
  simp only [hempty, habsent, not_false_eq_true, true_and, false_or]

end EntityQuery
