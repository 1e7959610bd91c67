import EntityQuery.Proofs.Plan.Retargeted
import EntityQuery.Proofs.Rows.Distinct

namespace EntityQuery

open JoinPlan

/-!
# Counts without order

An order is planned last, and only to read.  So it leaves the joins that decide which rows there are
where they were, and can change no more of them than their kind (`JoinPlan.Reads.sameLinks_filtering`).
The statements that count the rows of a query, or ask whether there is any, join nothing else and are not
ordered themselves.  `Query.countsAlike_sortedBy` is what follows for further directives: the statements
differ in the kinds of their joins at most, and give the same answers.
-/

variable {schema : Schema} {root : Entity} {plan mid plan' : JoinPlan} {q : Query} {s s' : Select}

/-! ### Joins of another kind -/

namespace Join

variable {a b c : Join}

/-- Having the same link goes both ways. -/
theorem SameLink.symm (h : SameLink a b) : SameLink b a :=
  ⟨h.path.symm, h.table.symm, h.parent.symm, h.foreignKey.symm, h.target.symm, h.targetKey.symm⟩

/-- And it goes on. -/
theorem SameLink.trans (h : SameLink a b) (h' : SameLink b c) : SameLink a c where
  path := h'.path.trans h.path
  table := h'.table.trans h.table
  parent := h'.parent.trans h.parent
  foreignKey := h'.foreignKey.trans h.foreignKey
  target := h'.target.trans h.target
  targetKey := h'.targetKey.trans h.targetKey

end Join

namespace JoinPlan

/-- The plans join the same tables in the same way, but for the kinds of the joins. -/
def SameLinks (plan plan' : JoinPlan) : Prop := List.Forall₂ Join.SameLink plan.joins plan'.joins

namespace SameLinks

/-- A plan has its own links. -/
theorem refl : SameLinks plan plan := List.forall₂_same.2 fun join _ => .refl join

/-- So for plans it goes both ways. -/
theorem symm (h : SameLinks plan plan') : SameLinks plan' plan := h.flip.imp fun _ _ => .symm

/-- And it goes on for plans. -/
theorem trans (h : SameLinks plan mid) (h' : SameLinks mid plan') : SameLinks plan plan' :=
  (forall₂_trans h h').imp fun _ _ ⟨_, hfirst, hsecond⟩ => hfirst.trans hsecond

end SameLinks

/-! ### What reading leaves alone -/

/-- A join put in for reading does not decide. -/
theorem filtering_of_add {need : JoinNeed} {path : Path} (hneed : IsReading need)
    (h : plan.add schema root need path = .ok plan') : plan'.filtering = plan.filtering := by
  obtain ⟨join, hjoins, _, _, _, _, hfiltering, _⟩ := add_eq_ok h
  unfold filtering
  rw [hjoins, List.filter_append, List.filter_singleton, hfiltering, hneed.filtering]
  simp

/-- Reading leaves the links of the filtering joins as they are. -/
theorem Grows.sameLinks_filtering {need : JoinNeed} {path : Path}
    (h : Grows schema root need path plan plan') (hneed : IsReading need) :
    SameLinks plan.filtering plan'.filtering := by
  induction h with
  | @meets need path plan _ =>
    -- Whether a join decides is not changed by meeting the need.
    have hdecides : (fun join : Join => (join.meetAt need path).filtering) = Join.filtering := by
      funext join
      unfold Join.meetAt
      split
      · rw [Join.meet_filtering, hneed.filtering, Bool.or_false]
      · rfl
    unfold SameLinks filtering
    rw [List.filter_map, Function.comp_def, hdecides, List.forall₂_map_right_iff, List.forall₂_same]
    exact fun join _ => (join.became_meetAt need path).toSameLink
  | starts _ _ added =>
    rw [filtering_of_add hneed added]
    exact .refl
  | follows _ _ added ih =>
    rw [filtering_of_add hneed added]
    exact ih hneed.onTheWay

/-- **Reading leaves the deciding joins where they are.** -/
theorem Reads.sameLinks_filtering (h : Reads schema root plan plan') :
    SameLinks plan.filtering plan'.filtering := by
  obtain ⟨needs, hneeds, hserves⟩ := h
  induction hserves with
  | nil => exact .refl
  | cons first _ ih =>
    rw [List.forall_mem_cons] at hneeds
    exact ((grows_of_ensure first).sameLinks_filtering hneeds.1).trans (ih hneeds.2)

end JoinPlan

/-! ### Counts of one query -/

namespace Select

/-- **The same counts.**  What counts the rows of the selects, and what asks for one, is written over the
    same tables under the same condition, and gives the same answers. -/
structure CountsAlike (schema : Schema) (s s' : Select) : Prop where
  root : s'.root = s.root
  condition : s'.condition = s.condition
  distinctKey : s'.distinctKey = s.distinctKey
  joins : SameLinks s.plan.filtering s'.plan.filtering
  counted : ∀ M (db : Database schema), s'.counted M db = s.counted M db
  present : ∀ M (db : Database schema),
    s'.rows M db s'.plan.filtering = [] ↔ s.rows M db s.plan.filtering = []

namespace PlannedFor

/-- What is counted are the rows of the root, whether they are told apart or not. -/
theorem counted_eq_length (h : PlannedFor schema q s) (hentity : q.entity ∈ schema.entities)
    (M : Meaning) (db : Database schema) :
    s.counted M db = (s.roots M db s.plan.filtering).length := by
  cases hdistinct : q.distinct with
  | true => rw [h.counted_eq M db hentity hdistinct, h.roots_filtering]
  | false =>
    rw [h.length_roots h.decides_filtering, counted, h.plain hdistinct]

/-- There is a row to show exactly if there is one to count. -/
theorem rows_eq_nil_iff (h : PlannedFor schema q s) (M : Meaning) (db : Database schema) :
    s.rows M db s.plan.filtering = [] ↔ s.roots M db s.plan.filtering = [] := by
  rw [← List.length_eq_zero_iff, ← h.length_roots h.decides_filtering, List.length_eq_zero_iff]

end PlannedFor

/-- A query whose columns cannot be chosen does not compile, in whichever order. -/
theorem ofQuery_of_unchosen {deciding : JoinPlan} {defect : CompileDefect}
    (hjoins : (planJoins schema q).run {} = .ok ((), deciding))
    (hlist : (SelectList.ofQuery schema q).run deciding = .error defect) :
    Select.ofQuery schema q = .error defect := by
  unfold Select.ofQuery
  rw [StateT.run_bind, hjoins, ok_bind]
  dsimp only
  rw [StateT.run_bind, hlist]
  rfl

end Select

namespace Query

open Select

/-- **Further directives do not change what is counted.** -/
theorem countsAlike_sortedBy {order : SortOrder} (hentity : q.entity ∈ schema.entities)
    (hs : Select.ofQuery schema q = .ok s) (hs' : Select.ofQuery schema (q.sortedBy order) = .ok s') :
    s.CountsAlike schema s' := by
  classical
  have hplanned := plannedFor_of_ofQuery hs
  have hplanned' := plannedFor_of_ofQuery hs'
  obtain ⟨deciding, middle, hjoins, hlist, horder, _, hcondition, hdistinct, hplain⟩ := ofQuery_eq_ok hs
  obtain ⟨deciding', middle', hjoins', hlist', horder', _, hcondition', hdistinct', hplain'⟩ :=
    ofQuery_eq_ok hs'
  -- Joins and columns are planned in the same way, and each order then reads from there.
  obtain rfl : deciding = deciding' :=
    congrArg Prod.snd (Except.ok.inj (hjoins.symm.trans hjoins'))
  obtain rfl : middle = middle' := congrArg Prod.snd (Except.ok.inj (hlist.symm.trans hlist'))
  have hreads := (run_orderTerms horder).1
  have hreads' : Reads schema q.entity middle s'.plan := (run_orderTerms horder').1
  have hchosen := (SelectList.run_ofQuery hlist).1
  have hroots : ∀ M (db : Database schema),
      s'.roots M db s'.plan.filtering = s.roots M db s.plan.filtering := by
    intro M db
    rw [hplanned'.roots_eq_filter hplanned'.decides_filtering,
      hplanned.roots_eq_filter hplanned.decides_filtering]
    refine List.filter_congr fun start _ => decide_eq_decide.2 ?_
    rw [hplanned'.keeps_iff_insist, hplanned.keeps_iff_insist]
    exact Iff.rfl
  refine ⟨?_, ?_, ?_, hreads.sameLinks_filtering.symm.trans hreads'.sameLinks_filtering, ?_, ?_⟩
  · rw [hplanned'.root, hplanned.root]
    rfl
  · have hsame := mapM_conditionOf_of_deciding (run_planJoins hjoins) (hchosen.trans hreads)
      (hchosen.trans hreads')
    exact Except.ok.inj (hcondition'.symm.trans (hsame.trans hcondition))
  · cases hd : q.distinct with
    | true =>
      obtain ⟨key, hkey, hfound⟩ := hdistinct hd
      obtain ⟨key', hkey', hfound'⟩ := hdistinct' hd
      obtain rfl : key = key' := Except.ok.inj (hkey.symm.trans hkey')
      rw [hfound, hfound']
    | false => rw [hplain hd, hplain' hd]
  · intro M db
    rw [hplanned'.counted_eq_length hentity, hplanned.counted_eq_length hentity, hroots]
  · intro M db
    rw [hplanned'.rows_eq_nil_iff, hplanned.rows_eq_nil_iff, hroots]

/-- **A query compiles with further directives exactly if it compiles without them**, and fails for the
    same reason, if it compiles for whole records and the directives order by fields. -/
theorem compile_sortedBy_cases {order : SortOrder} {records : Compiled} (hschema : schema.Checked)
    (hentity : q.entity ∈ schema.entities) (hrecords : (q.withTarget .entity).compile schema = .ok records)
    (horder : ∀ d ∈ order, schema.EndsInField q.entity d.path) :
    (∃ defect, q.compile schema = .error defect ∧ (q.sortedBy order).compile schema = .error defect) ∨
      ∃ s s', Select.ofQuery schema q = .ok s ∧ Select.ofQuery schema (q.sortedBy order) = .ok s' := by
  obtain ⟨select, hselect, _⟩ := compile_eq_ok_iff.1 hrecords
  obtain ⟨deciding, _, hjoins, _⟩ := ofQuery_eq_ok hselect
  cases hlist : (SelectList.ofQuery schema q).run deciding with
  | error defect =>
    -- The columns are chosen before the order is looked at.
    have hunchosen : ∀ order, ({ q with order } : Query).compile schema = .error defect := by
      intro order
      unfold Query.compile
      rw [ofQuery_of_unchosen (q := { q with order }) hjoins hlist]
      rfl
    exact .inl ⟨defect, hunchosen q.order, hunchosen (q.order ++ order)⟩
  | ok chosen =>
    obtain ⟨s, hs⟩ := exists_ofQuery_of_steps hselect q.target q.order
      (fun hjoins' _ => by
        obtain rfl := congrArg Prod.snd (Except.ok.inj (hjoins.symm.trans hjoins'))
        exact ⟨_, _, hlist⟩) exists_run_orderTerms
    obtain ⟨c', hc'⟩ := exists_compile_sortedBy hschema hentity (compile_eq_ok_iff.2 ⟨s, hs, rfl⟩) horder
    obtain ⟨s', hs', _⟩ := compile_eq_ok_iff.1 hc'
    exact .inr ⟨s, s', hs, hs'⟩

end Query

end EntityQuery
