import EntityQuery.Proofs.Plan.Requested
import EntityQuery.Proofs.Rows.Selected

namespace EntityQuery

open JoinPlan

/-!
# Honoured joins

Which rows of the root a query returns, said without its plan: those that the predicate holds of and
that have a partner on every path that the requests insist on (`compile_roots`).

Inner joins that the caller wrote are honoured by that, as long as no left join led over their path
before them (`inner_joins_honoured`).  A left join that came first decides alone, on its own path and
on all paths on the way to it, and the inner one is lost (`inner_joins_lost`).
-/

variable {schema : Schema} {plan : JoinPlan} {q : Query} {s : Select}
variable (M : Meaning) (db : Database schema)

namespace Select

variable {M db} {start : TableRow}

open scoped Classical in
/-- **The roots are the kept rows**, in the order of their table. -/
theorem PlannedFor.roots_eq_filter (h : PlannedFor schema q s) (hplan : Decides schema q s plan) :
    s.roots M db plan = (db.rows q.entity.table).filter fun start => Keeps M db q s start := by
  rw [roots_eq_flatMap, h.root]
  refine flatMap_eq_filter (fun start hkeeps => ?_) fun start hnot => ?_
  · rw [decide_eq_true_eq] at hkeeps
    exact h.roots_of_keeps hplan hkeeps
  · rw [decide_eq_false_iff_not] at hnot
    exact h.roots_of_not_keeps hplan hnot

/-- A row of the root is selected exactly if it is kept. -/
theorem PlannedFor.mem_roots_iff (h : PlannedFor schema q s) (hplan : Decides schema q s plan) :
    start ∈ s.roots M db plan ↔ start ∈ db.rows q.entity.table ∧ Keeps M db q s start := by
  classical
  rw [h.roots_eq_filter hplan, List.mem_filter, decide_eq_true_eq]

/-- What is kept, read off the requests and the predicate. -/
theorem PlannedFor.keeps_iff_insist (h : PlannedFor schema q s) :
    Keeps M db q s start ↔ q.holds M db start = true ∧ ∀ path, JoinRequest.Insist q.joins path →
      (db.walk q.entity (some start) path.segments).isSome = true := by
  constructor
  · intro hkeeps
    refine ⟨hkeeps.holds, fun path hinsist => ?_⟩
    by_cases hempty : path.segments = []
    · -- The empty path leads nowhere else.
      rw [hempty]
      rfl
    · exact hkeeps.partners path ((h.insists_iff_insist hempty).2 hinsist)
  -- Every inner join that is left in the plan is one that the requests insist on.
  · rintro ⟨hholds, hpartners⟩
    refine ⟨fun path hinsists => hpartners path ?_, hholds⟩
    obtain ⟨j, hj, rfl, _⟩ := id hinsists
    exact (h.insists_iff_insist (h.planned.segments_ne_nil hj)).1 hinsists

end Select

/-- **Returned rows.**  The statement of a query returns a row of the root exactly if the predicate
    holds of it and it has a partner on every path that the requests insist on. -/
theorem compile_roots {c : Compiled} (h : q.compile schema = .ok c) :
    ∃ s, Select.ofQuery schema q = .ok s ∧ c = s.compiled q ∧
      ∀ start, start ∈ s.roots M db (s.contentPlan q.shape) ↔
        start ∈ db.rows q.entity.table ∧ q.holds M db start = true ∧
          ∀ path, JoinRequest.Insist q.joins path →
            (db.walk q.entity (some start) path.segments).isSome = true := by
  obtain ⟨s, hs, h⟩ := bind_eq_ok_iff.1 h
  rw [pure_eq_ok_iff] at h
  have hplanned := Select.plannedFor_of_ofQuery hs
  refine ⟨s, hs, h.symm, fun start => ?_⟩
  rw [hplanned.mem_roots_iff (hplanned.decides_contentPlan q.shape), hplanned.keeps_iff_insist]

/-- **Inner joins are honoured** unless a left join came first: whatever else is asked for, and in
    whichever order, a returned row has a partner on the path of every inner request, provided that
    the first request leading over that path is an inner one too. -/
theorem inner_joins_honoured {c : Compiled} (h : q.compile schema = .ok c) :
    ∃ s, Select.ofQuery schema q = .ok s ∧ c = s.compiled q ∧
      ∀ start ∈ s.roots M db (s.contentPlan q.shape),
        ∀ request ∈ q.joins, request.kind = .inner →
          (∀ first, JoinRequest.firstOver? q.joins request.path = some first →
            first.kind = .inner) →
          (db.walk q.entity (some start) request.path.segments).isSome = true := by
  obtain ⟨s, hs, hc, hroots⟩ := compile_roots M db h
  refine ⟨s, hs, hc, fun start hstart request hrequest _ hinner => ?_⟩
  obtain ⟨first, hfirst, hway, hown⟩ := JoinRequest.exists_firstOver hrequest
  -- The first request over the path is insisted on, and the path is on the way to it.
  have hinsist : JoinRequest.Insist q.joins first.path := ⟨first, hown, rfl, hinner first hfirst⟩
  obtain ⟨_, _, hpartners⟩ := (hroots start).1 hstart
  exact db.walk_isSome_of_isPrefix hway (hpartners first.path hinsist)

namespace Sample

/-- All members, joined as requested. -/
def joinedMembers (joins : List JoinRequest) : Query where
  entity := member
  shape := .list
  joins := joins

/-- The team of a member is wanted as such and as the way to its parent. -/
def joinsToParent : List JoinRequest :=
  [⟨⟨["team", "parent"]⟩, .inner, false⟩, ⟨⟨["team"]⟩, .left, true⟩, ⟨⟨["team"]⟩, .inner, false⟩]

end Sample

/-- The inner join on the way to the first request is honoured, the left one before it regardless. -/
theorem inner_joins_honoured_joinsToParent :
    ∃ c, (Sample.joinedMembers Sample.joinsToParent).compile Sample.league = .ok c ∧
      ∃ s : Select, c = s.compiled (Sample.joinedMembers Sample.joinsToParent) ∧
        ∀ start ∈ s.roots Sample.meaning Sample.database s.plan,
          (Sample.database.walk Sample.member (some start) ["team"]).isSome = true := by
  have hcompiles : ∃ c, (Sample.joinedMembers Sample.joinsToParent).compile Sample.league = .ok c :=
    ⟨_, by rfl⟩
  obtain ⟨c, hc⟩ := hcompiles
  obtain ⟨s, _, hcompiled, hhonoured⟩ := inner_joins_honoured Sample.meaning Sample.database hc
  refine ⟨c, hc, s, hcompiled, fun start hstart => ?_⟩
  refine hhonoured start hstart ⟨⟨["team"]⟩, .inner, false⟩ (by decide) rfl fun first hfirst => ?_
  obtain rfl : ⟨⟨["team", "parent"]⟩, .inner, false⟩ = first := Option.some.inj hfirst
  rfl

namespace Sample

/-- A member without a team is returned. -/
def ReturnsTeamless (joins : List JoinRequest) : Prop :=
  ∃ c, (joinedMembers joins).compile league = .ok c ∧
    ∃ s : Select, c.content = s.content ∧
      ∃ start ∈ s.roots meaning database s.plan, database.walk member (some start) ["team"] = none

/-- The third member has no team, and over the path of the inner join a left one comes first. -/
theorem returnsTeamless_of_left_first (path : List String)
    (hpath : path ∈ [["team"], ["team", "parent"]]) :
    ReturnsTeamless [⟨⟨path⟩, .left, false⟩, ⟨⟨["team"]⟩, .inner, false⟩] := by
  have hcompiles : ∃ c, (joinedMembers
      [⟨⟨path⟩, .left, false⟩, ⟨⟨["team"]⟩, .inner, false⟩]).compile league = .ok c := by
    -- The two lists of joins compile alike; only the first path differs.
    rcases List.mem_pair.1 hpath with rfl | rfl
    · exact ⟨_, by rfl⟩
    · exact ⟨_, by rfl⟩
  obtain ⟨c, hc⟩ := hcompiles
  obtain ⟨s, _, rfl, hroots⟩ := compile_roots meaning database hc
  refine ⟨_, hc, s, rfl, row [("member_id", 3), ("age", 40)], (hroots _).2 ⟨?_, rfl, ?_⟩, rfl⟩
  · exact .tail _ (.tail _ (.head _))
  · -- Nothing is insisted on: the inner join is the first one over no path that ends with it.
    rintro p ⟨request, hfirst, rfl, hkind⟩
    rcases List.mem_pair.1 (List.mem_of_find?_eq_some hfirst) with rfl | rfl
    · cases hkind
    · rcases List.mem_pair.1 hpath with rfl | rfl
      · exact absurd hfirst (by decide)
      · exact absurd hfirst (by decide)

end Sample

/-- **Inner joins are lost** to left joins that came first, once after a left join of the team, once
    after a left join that only passes over it. -/
theorem inner_joins_lost :
    Sample.ReturnsTeamless [⟨⟨["team"]⟩, .left, false⟩, ⟨⟨["team"]⟩, .inner, false⟩] ∧
      Sample.ReturnsTeamless
        [⟨⟨["team", "parent"]⟩, .left, false⟩, ⟨⟨["team"]⟩, .inner, false⟩] :=
  ⟨Sample.returnsTeamless_of_left_first ["team"] (.head _),
    Sample.returnsTeamless_of_left_first ["team", "parent"] (.tail _ (.head _))⟩

end EntityQuery
