import EntityQuery.Proofs.Plan.Planning

namespace EntityQuery

open JoinPlan

/-!
# Fetched associations

Which associations of the root are loaded together with it is written into the join plan, and the
select list of an entity can be read off the plan alone.

* `JoinPlan.fetching?` is the table and the entity of a path that is loaded; growing for other paths,
  or without loading anything, leaves it alone (`Grows.fetching?_eq`).
* `SelectList.ofPlan` is the select list that belongs to a plan, and `run_ofEntity_eq` finds it to be
  the one that is chosen.
* For a whole query the loaded paths are those that one of its joins fetches, or all of them where
  the target is computed from records (`Select.list_eq_ofPlan`).
-/

variable {schema : Schema} {root : Entity} {plan mid plan' : JoinPlan}
variable {need : JoinNeed} {path p : Path}

namespace JoinPlan

/-- The table and the entity of a path that is loaded together with the root. -/
def fetching? (plan : JoinPlan) (path : Path) : Option (Nat × Entity) :=
  (plan.find? path).bind fun join =>
    if join.fetch then some (join.table, join.target) else none

/-- What is loaded for a path is the table and the entity of its join. -/
theorem fetching?_eq_some {table : Nat} {e : Entity} (h : plan.fetching? path = some (table, e)) :
    ∃ join ∈ plan.joins, join.path = path ∧ join.table = table ∧ join.target = e := by
  obtain ⟨join, hfind, hjoin⟩ := Option.bind_eq_some_iff.1 h
  split at hjoin
  · cases hjoin
    obtain ⟨hmem, hpath⟩ := mem_of_find? hfind
    exact ⟨join, hmem, hpath, rfl, rfl⟩
  · cases hjoin

/-! ### Growth -/

/-- A path that is not joined is not found. -/
theorem find?_eq_none (h : path ∉ plan.paths) : plan.find? path = none := by
  refine List.find?_eq_none.2 fun join hjoin hpath => h ?_
  exact mem_paths.2 ⟨join, hjoin, beq_iff_eq.1 hpath⟩

namespace Grows

/-- A join that is put in for something else does not load a path. -/
theorem fetching?_add {before : JoinPlan} (hadd : before.add schema root need path = .ok plan')
    (hother : need.fetch = true → p ≠ path) : plan'.fetching? p = before.fetching? p := by
  obtain ⟨join, hjoins, _, hpath, _, _, _, hfetch⟩ := add_eq_ok hadd
  unfold fetching?
  rw [find?_append hjoins]
  cases before.find? p with
  | some found => rfl
  | none =>
    by_cases hp : join.path = p
    · -- The path is the one that was put in, so its need loads nothing.
      have hno : join.fetch = false := by
        rw [hfetch, Bool.eq_false_iff]
        exact fun hneed => hother hneed (hp.symm.trans hpath)
      simp [hp, hno]
    · simp [hp]

/-- **Growing for something else leaves the loaded paths alone**: for another path, or for a need
    that loads nothing. -/
theorem fetching?_eq (h : Grows schema root need path plan plan')
    (hother : need.fetch = true → p ≠ path) : plan'.fetching? p = plan.fetching? p := by
  induction h with
  | @meets need path plan _ =>
    unfold fetching?
    rw [find?_map_meetAt]
    cases hfind : plan.find? p with
    | none => rfl
    | some join =>
      have hlink := (join.became_meetAt need path).toSameLink
      have hsame : (join.meetAt need path).fetch = join.fetch := by
        unfold Join.meetAt
        split
        · rename_i hpath
          have hp : p = path := (mem_of_find? hfind).2.symm.trans (beq_iff_eq.1 hpath)
          have hno : need.fetch = false := by
            rw [Bool.eq_false_iff]
            exact fun hneed => hother hneed hp
          simp [Join.meet, hno]
        · rfl
      simp only [Option.map_some, Option.bind_some, hsame, hlink.table, hlink.target]
  | starts _ _ added => exact fetching?_add added hother
  | follows _ _ added ih =>
    -- On the way nothing is loaded.
    rw [fetching?_add added hother, ih fun hneed => absurd hneed Bool.false_ne_true]

/-- A need that loads its path has it loaded. -/
theorem fetching?_isSome (h : Grows schema root need path plan plan') (hneed : need.fetch = true) :
    (plan'.fetching? path).isSome = true := by
  -- A join that is put in for the path takes over what the need loads.
  have hadded : ∀ {before : JoinPlan}, path ∉ before.paths →
      before.add schema root need path = .ok plan' → (plan'.fetching? path).isSome = true := by
    intro before habsent hadd
    obtain ⟨join, hjoins, _, hpath, _, _, _, hfetch⟩ := add_eq_ok hadd
    unfold fetching?
    rw [find?_append hjoins, find?_eq_none habsent, Option.none_or, if_pos hpath]
    simp [hfetch, hneed]
  cases h with
  | meets joined =>
    obtain ⟨join, hjoin, hpath⟩ := mem_paths.1 joined
    have hfound : (plan.find? path).isSome = true :=
      List.find?_isSome.2 ⟨join, hjoin, beq_iff_eq.2 hpath⟩
    obtain ⟨found, hfind⟩ := Option.isSome_iff_exists.1 hfound
    unfold fetching?
    rw [find?_map_meetAt, hfind, Option.map_some, Option.bind_some]
    simp [Join.meetAt, (mem_of_find? hfind).2, Join.meet, hneed]
  | starts absent _ added => exact hadded absent added
  | follows absent before added =>
    have hne : path.segments ≠ [] := by
      intro hempty
      obtain rfl : path = ⟨[]⟩ := congrArg Path.mk hempty
      exact add_empty_ne_ok added
    exact hadded (before.not_mem_paths_of_parent absent hne) added

end Grows

/-- **The loaded paths of some needs** are those that were loaded before and those that one of the
    needs loads. -/
theorem Serves.fetching?_isSome {needs : List (JoinNeed × Path)}
    (h : Serves schema root needs plan plan') :
    (plan'.fetching? p).isSome = true ↔
      (plan.fetching? p).isSome = true ∨ ∃ n ∈ needs, n.1.fetch = true ∧ n.2 = p := by
  induction h with
  | nil => simp
  | @cons need path needs plan mid plan' first _ ih =>
    have hgrows := grows_of_ensure first
    have hfirst : (mid.fetching? p).isSome = true ↔
        (plan.fetching? p).isSome = true ∨ (need.fetch = true ∧ path = p) := by
      -- A need loads its own path if it loads at all, and no other.
      by_cases hneed : need.fetch = true ∧ path = p
      · obtain ⟨hfetch, rfl⟩ := hneed
        simp [hgrows.fetching?_isSome hfetch, hfetch]
      · rw [hgrows.fetching?_eq fun hfetch hp => hneed ⟨hfetch, hp.symm⟩]
        simp [hneed]
    rw [ih, hfirst]
    simp [or_assoc]

/-- The loaded paths of two plans are the same. -/
def SameFetches (plan plan' : JoinPlan) : Prop := ∀ path, plan'.fetching? path = plan.fetching? path

/-- A plan loads what it loads. -/
theorem SameFetches.refl : SameFetches plan plan := fun _ => rfl

/-- Plans that load the same are alike. -/
theorem SameFetches.trans (h : SameFetches plan mid) (h' : SameFetches mid plan') :
    SameFetches plan plan' := fun path => (h' path).trans (h path)

/-- Whether the join of a path loads it. -/
theorem any_fetch_eq : (plan.find? path).any (·.fetch) = (plan.fetching? path).isSome := by
  unfold fetching?
  cases plan.find? path with
  | none => rfl
  | some join => cases hfetch : join.fetch <;> simp [hfetch]

end JoinPlan

namespace Planning

/-- What every step keeps is kept while one item after the other is dealt with. -/
theorem run_mapM_keeps {α β : Type} {keeps : JoinPlan → JoinPlan → Prop} {f : β → Planning α}
    (hrefl : ∀ p, keeps p p) (htrans : ∀ {p p' p''}, keeps p p' → keeps p' p'' → keeps p p'')
    (hstep : ∀ {b p a p'}, (f b).run p = .ok (a, p') → keeps p p') {items : List β}
    {answers : List α} (h : (items.mapM f).run plan = .ok (answers, plan')) :
    keeps plan plan' := by
  induction items generalizing plan answers with
  | nil =>
    rw [List.mapM_nil, run_pure_iff] at h
    exact h.2 ▸ hrefl plan
  | cons item items ih =>
    rw [List.mapM_cons] at h
    simp only [run_bind_iff, run_pure_iff] at h
    obtain ⟨a, mid, hitem, rest, _, hrest, rfl, rfl⟩ := h
    exact htrans (hstep hitem) (ih hrest)

/-- A table that is joined to be read is not loaded. -/
theorem sameFetches_of_reach {r : Resolution} {u : Unit}
    (h : (Planning.reach schema root r).run plan = .ok (u, plan')) : SameFetches plan plan' := by
  unfold Planning.reach at h
  split at h
  · exact fun path => (grows_of_ensure (run_ensure_iff.1 h)).fetching?_eq nofun
  · obtain ⟨_, rfl⟩ := run_pure_iff.1 h
    exact .refl

end Planning

/-! ### The select list of an entity -/

namespace SelectList

open Planning

/-- The columns of one to-one association of the root: all of a loaded one, the foreign key of
    another. -/
def associationPart (plan : JoinPlan) (a : Association) : List SelectColumn :=
  match plan.fetching? (.single a.name) with
  | some (table, target) =>
    fieldColumns table (a.name ++ ".") target ++
      target.associations.filterMap (keyColumn table (a.name ++ "."))
  | none => (keyColumn 0 "" a).toList

/-- Whether the plan loads an association of the root. -/
def loads (plan : JoinPlan) (a : Association) : Bool := (plan.fetching? (.single a.name)).isSome

/-- The select list of an entity that belongs to a plan. -/
def ofPlan (plan : JoinPlan) (root : Entity) : SelectList where
  columns := fieldColumns 0 "" root ++
    (root.associations.filter (·.isToOne)).flatMap (associationPart plan)
  fetched := ((root.associations.filter (·.isToOne)).filter (loads plan)).map (·.name)

/-- What is read for an association depends on whether its path is loaded, and on nothing else of the plan. -/
theorem associationPart_congr {a : Association}
    (h : plan'.fetching? (.single a.name) = plan.fetching? (.single a.name)) :
    associationPart plan' a = associationPart plan a := by
  unfold associationPart
  rw [h]

/-- So does what is read for the whole record. -/
theorem ofPlan_congr (h : SameFetches plan plan') : ofPlan plan' root = ofPlan plan root := by
  have hpart : associationPart plan' = associationPart plan :=
    funext fun a => associationPart_congr (h (.single a.name))
  have hloads : loads plan' = loads plan := funext fun a => congrArg Option.isSome (h (.single a.name))
  unfold ofPlan
  rw [hpart, hloads]

/-- **One association of the root**: its columns belong to the plan as it is then, and no other path
    comes to be loaded. -/
theorem run_associationColumns_eq {fetchAll : Bool} {a : Association} {list : SelectList}
    (h : (associationColumns schema root fetchAll a).run plan = .ok (list, plan')) :
    list.columns = associationPart plan' a ∧
      list.fetched = (if loads plan' a then [a.name] else []) ∧
      loads plan' a = (fetchAll || loads plan a) ∧
      ∀ p ≠ .single a.name, plan'.fetching? p = plan.fetching? p := by
  -- Fetching everything only puts one more need in front.
  obtain ⟨mid, hloads, hother, h⟩ : ∃ mid, loads mid a = (fetchAll || loads plan a) ∧
      (∀ p ≠ .single a.name, mid.fetching? p = plan.fetching? p) ∧
      (associationColumns schema root false a).run mid = .ok (list, plan') := by
    cases fetchAll with
    | false => exact ⟨plan, rfl, fun _ _ => rfl, h⟩
    | true =>
      obtain ⟨_, mid, hensure, h⟩ := run_bind_iff.1 h
      have hgrows := grows_of_ensure (run_ensure_iff.1 hensure)
      exact ⟨mid, hgrows.fetching?_isSome rfl, fun p hp => hgrows.fetching?_eq fun _ => hp, h⟩
  rw [← hloads]
  obtain ⟨_, _, hget, h⟩ := run_bind_iff.1 h
  obtain ⟨rfl, rfl⟩ := run_get_iff.1 hget
  rw [any_fetch_eq] at h
  split at h
  · rename_i hload
    simp only [run_bind_iff, run_get_iff] at h
    obtain ⟨_, last, hensure, _, _, ⟨rfl, rfl⟩, h⟩ := h
    have hgrows := grows_of_ensure (run_ensure_iff.1 hensure)
    have hloaded : loads last a = true := hgrows.fetching?_isSome rfl
    split at h
    · exact absurd h run_throw_ne
    · rename_i join hfind
      obtain ⟨rfl, rfl⟩ := run_pure_iff.1 h
      -- The join that is found is the one that loads the path.
      have hfetching := hloaded
      rw [loads, ← any_fetch_eq, hfind, Option.any_some] at hfetching
      have hpart : last.fetching? (.single a.name) = some (join.table, join.target) := by
        rw [fetching?, hfind, Option.bind_some, if_pos hfetching]
      refine ⟨?_, ?_, hloaded.trans hload.symm, fun p hp => ?_⟩
      · rw [associationPart, hpart]
      · rw [if_pos hloaded]
      · rw [hgrows.fetching?_eq fun _ => hp, hother p hp]
  · rename_i hload
    obtain ⟨rfl, rfl⟩ := run_pure_iff.1 h
    rw [Bool.not_eq_true, Option.isSome_eq_false_iff, Option.isNone_iff_eq_none] at hload
    refine ⟨?_, ?_, rfl, hother⟩
    · rw [associationPart, hload]
    · simp [loads, hload]

/-- A path of one step tells that step. -/
theorem single_injective {n m : String} (h : Path.single n = Path.single m) : n = m := by
  simpa [Path.single] using h

/-- Several associations of the root, one after the other. -/
theorem run_mapM_associationColumns {fetchAll : Bool} {as : List Association}
    {lists : List SelectList} (hnames : (as.map (·.name)).Nodup)
    (h : (as.mapM (associationColumns schema root fetchAll)).run plan = .ok (lists, plan')) :
    lists.flatMap columns = as.flatMap (associationPart plan') ∧
      lists.flatMap fetched = (as.filter (loads plan')).map (·.name) ∧
      (∀ a ∈ as, loads plan' a = (fetchAll || loads plan a)) ∧
      ∀ p, (∀ a ∈ as, p ≠ .single a.name) → plan'.fetching? p = plan.fetching? p := by
  induction as generalizing plan lists with
  | nil =>
    rw [List.mapM_nil, run_pure_iff] at h
    obtain ⟨rfl, rfl⟩ := h
    exact ⟨rfl, rfl, nofun, fun _ _ => rfl⟩
  | cons a as ih =>
    rw [List.mapM_cons] at h
    simp only [run_bind_iff, run_pure_iff] at h
    obtain ⟨list, mid, hitem, rest, last, hrest, rfl, rfl⟩ := h
    rw [List.map_cons, List.nodup_cons] at hnames
    obtain ⟨hcolumns, hfetched, hloads, hother⟩ := run_associationColumns_eq hitem
    obtain ⟨hcolumns', hfetched', hloads', hother'⟩ := ih hnames.2 hrest
    -- The associations that follow have other names, so what was chosen for this one stays.
    have hdiffers : ∀ b ∈ as, a.name ≠ b.name := fun b hb heq =>
      hnames.1 (heq ▸ List.mem_map_of_mem hb)
    have hstays := hother' (.single a.name) fun b hb heq => hdiffers b hb (single_injective heq)
    have hsame : loads last a = loads mid a := congrArg Option.isSome hstays
    refine ⟨?_, ?_, ?_, ?_⟩
    · rw [List.flatMap_cons, List.flatMap_cons, hcolumns, hcolumns', associationPart_congr hstays]
    · rw [List.flatMap_cons, hfetched, hfetched', List.filter_cons, hsame]
      split <;> simp
    · rw [List.forall_mem_cons]
      refine ⟨hsame.trans hloads, fun b hb => ?_⟩
      have hsingle : Path.single b.name ≠ .single a.name := fun heq =>
        hdiffers b hb (single_injective heq).symm
      rw [hloads' b hb, loads, hother _ hsingle, ← loads]
    · intro p hp
      rw [List.forall_mem_cons] at hp
      rw [hother' p hp.2, hother p hp.1]

/-- **The select list of an entity is that of the plan** as it is in the end. -/
theorem run_ofEntity_eq {fetchAll : Bool} {list : SelectList}
    (hnames : (root.associations.map (·.name)).Nodup)
    (h : (ofEntity schema root fetchAll).run plan = .ok (list, plan')) :
    list = ofPlan plan' root ∧ ∀ a ∈ root.associations, a.isToOne = true →
      loads plan' a = (fetchAll || loads plan a) := by
  unfold ofEntity at h
  simp only [run_bind_iff, run_pure_iff] at h
  obtain ⟨lists, _, hlists, rfl, rfl⟩ := h
  have hkept : ((root.associations.filter (·.isToOne)).map (·.name)).Nodup :=
    hnames.sublist (List.filter_sublist.map _)
  obtain ⟨hcolumns, hfetched, hloads, _⟩ := run_mapM_associationColumns hkept hlists
  refine ⟨?_, fun a ha htoOne => hloads a (List.mem_filter.2 ⟨ha, htoOne⟩)⟩
  rw [ofPlan, hcolumns, hfetched]

end SelectList

/-! ### Whole queries -/

namespace Select

open Planning

/-- Ordering loads nothing. -/
theorem sameFetches_of_orderTerms {order : SortOrder} {terms : List (Column × Direction)}
    (h : (orderTerms schema root order).run plan = .ok (terms, plan')) :
    SameFetches plan plan' := by
  unfold orderTerms at h
  split at h
  · simp only [run_bind_iff, run_lift_iff, run_pure_iff] at h
    obtain ⟨_, _, ⟨_, rfl⟩, _, rfl⟩ := h
    exact .refl
  · refine run_mapM_keeps (fun _ => SameFetches.refl) SameFetches.trans (fun hterm => ?_) h
    obtain ⟨_, _, _, hreach, _⟩ := run_orderTerm_iff.1 hterm
    exact sameFetches_of_reach hreach

/-- The joins of the caller and of the predicate load the paths that the query fetches. -/
theorem fetching?_planJoins {q : Query} {u : Unit} {deciding : JoinPlan}
    (h : (planJoins schema q).run {} = .ok (u, deciding)) :
    (deciding.fetching? p).isSome = q.fetches p := by
  rw [Bool.eq_iff_iff, (run_planJoins h).fetching?_isSome]
  have hnone : (JoinPlan.fetching? {} p).isSome ≠ true := by simp [fetching?, find?]
  -- The joins for the condition load nothing, so what is loaded was asked for.
  have htests : ∀ n ∈ testNeeds schema q.entity q.predicate, n.1.fetch = false := by
    intro n hn
    obtain ⟨c, _, hneed⟩ := List.mem_filterMap.1 hn
    obtain ⟨path, _, rfl⟩ := Option.map_eq_some_iff.1 hneed
    rfl
  constructor
  · rintro (h | ⟨n, hn, hfetch, rfl⟩)
    · exact absurd h hnone
    · rcases List.mem_append.1 hn with hn | hn
      · obtain ⟨request, hrequest, rfl⟩ := List.mem_map.1 hn
        refine List.any_eq_true.2 ⟨request, hrequest, ?_⟩
        have hfetch : request.fetch = true := hfetch
        simp [hfetch]
      · rw [htests n hn] at hfetch
        cases hfetch
  · intro hfetches
    obtain ⟨request, hrequest, hmatch⟩ := List.any_eq_true.1 hfetches
    rw [Bool.and_eq_true, beq_iff_eq] at hmatch
    exact .inr ⟨(.requested request, request.path),
      List.mem_append_left _ (List.mem_map_of_mem hrequest), hmatch.1, hmatch.2⟩

/-- **What a query for records selects**: the list that belongs to its plan, which loads the to-one
    associations that the query fetches, or all of them. -/
theorem list_eq_ofPlan {q : Query} {s : Select} {fetchAll : Bool}
    (hnames : (q.entity.associations.map (·.name)).Nodup)
    (hlist : SelectList.ofQuery schema q = SelectList.ofEntity schema q.entity fetchAll)
    (h : Select.ofQuery schema q = .ok s) :
    s.list = .ofPlan s.plan q.entity ∧ ∀ a ∈ q.entity.associations, a.isToOne = true →
      SelectList.loads s.plan a = (fetchAll || q.fetches (.single a.name)) := by
  obtain ⟨deciding, middle, hjoins, hentity, horder, _⟩ := ofQuery_eq_ok h
  rw [hlist] at hentity
  obtain ⟨hofPlan, hloads⟩ := SelectList.run_ofEntity_eq hnames hentity
  have hsame := sameFetches_of_orderTerms horder
  refine ⟨hofPlan.trans (SelectList.ofPlan_congr hsame).symm, fun a ha htoOne => ?_⟩
  have hfinal : SelectList.loads s.plan a = SelectList.loads middle a :=
    congrArg Option.isSome (hsame (.single a.name))
  rw [hfinal, hloads a ha htoOne, SelectList.loads, fetching?_planJoins hjoins]

end Select

end EntityQuery
