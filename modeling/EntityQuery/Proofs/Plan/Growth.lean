import EntityQuery.Proofs.Outcome
import EntityQuery.Proofs.Schema.Resolved
import EntityQuery.Sql.JoinPlan
import Mathlib.Data.List.Induction
import Mathlib.Data.List.Nodup

namespace EntityQuery

/-!
# How a join plan grows

Everything that serving a need can do to a plan, said once: `Grows` tells apart a path that is
joined already, whose join only meets the need, and one that is joined after its parent.  From it
follow, by one induction each,

* `Grows.keeps`: the joins of a plan stay, with their tables and links;
* `Grows.origin`: where the joins of the grown plan come from;
* `Grows.planned`: plans stay well linked (`Planned`): each path is joined once, tables are numbered
  in order, and a join hangs on the root or on an earlier join.
-/

namespace Join

/-! ### What meeting a need leaves alone -/

variable (join : Join) (need : JoinNeed)

/-- A join filters once any need of it does. -/
theorem meet_filtering :
    (join.meet need).filtering = (join.filtering || need.filtering) := rfl

/-- Meeting a need never turns a left join into an inner one. -/
theorem inner_of_meet_inner (h : (join.meet need).kind = .inner) : join.kind = .inner := by
  unfold meet at h
  dsimp only at h
  split at h
  · cases h
  · exact h

/-- A join that the caller wrote keeps its kind. -/
theorem meet_kind_of_explicit (h : join.explicit = true) : (join.meet need).kind = join.kind := by
  simp [meet, h]

/-- What a join becomes when some path is needed: only the join of that path meets the need. -/
def meetAt (path : Path) : Join := if join.path == path then join.meet need else join

/-- The links of a join: all that does not depend on what it is needed for. -/
structure SameLink (a b : Join) : Prop where
  path : b.path = a.path
  table : b.table = a.table
  parent : b.parent = a.parent
  foreignKey : b.foreignKey = a.foreignKey
  target : b.target = a.target
  targetKey : b.targetKey = a.targetKey

/-- What a join may become while the plan grows: the links stay, it drops no rows that it did not
    drop before, one that the caller wrote keeps its kind, and what counting needs is needed on. -/
structure Became (a b : Join) : Prop extends SameLink a b where
  explicit : b.explicit = a.explicit
  inner : b.kind = .inner → a.kind = .inner
  kind : a.explicit = true → b.kind = a.kind
  filtering : a.filtering = true → b.filtering = true

/-- A join has its own link. -/
theorem SameLink.refl : SameLink join join := ⟨rfl, rfl, rfl, rfl, rfl, rfl⟩

/-- A join has become itself. -/
theorem Became.refl : Became join join := ⟨SameLink.refl join, rfl, id, fun _ => rfl, id⟩

/-- What a join becomes goes on becoming. -/
theorem Became.trans {a b c : Join} (h : Became a b) (h' : Became b c) : Became a c where
  path := h'.path.trans h.path
  table := h'.table.trans h.table
  parent := h'.parent.trans h.parent
  foreignKey := h'.foreignKey.trans h.foreignKey
  target := h'.target.trans h.target
  targetKey := h'.targetKey.trans h.targetKey
  explicit := h'.explicit.trans h.explicit
  inner hc := h.inner (h'.inner hc)
  kind ha := (h'.kind (h.explicit.trans ha)).trans (h.kind ha)
  filtering ha := h'.filtering (h.filtering ha)

/-- A further need keeps the link of a join and makes the join no stricter. -/
theorem became_meet : Became join (join.meet need) where
  toSameLink := ⟨rfl, rfl, rfl, rfl, rfl, rfl⟩
  explicit := rfl
  inner := join.inner_of_meet_inner need
  kind := join.meet_kind_of_explicit need
  filtering h := by rw [meet_filtering, h, Bool.true_or]

/-- So does a need of another path, which changes nothing. -/
theorem became_meetAt (path : Path) : Became join (join.meetAt need path) := by
  unfold meetAt
  split
  · exact join.became_meet need
  · exact Became.refl join

/-- A join that was put into the plan for a need: for its own path, or on the way to it. -/
structure Added (need : JoinNeed) (path : Path) (join : Join) : Prop where
  onWay : join.path.segments <+: path.segments
  kind : join.kind = need.kind
  filtering : join.filtering = need.filtering
  explicit : join.explicit = true → join.path = path ∧ need.explicit = true

end Join

namespace JoinPlan

/-! ### Growth -/

/-- The paths that are joined. -/
def paths (plan : JoinPlan) : List Path := plan.joins.map Join.path

/-- The paths of a plan are those of its joins. -/
theorem mem_paths {plan : JoinPlan} {p : Path} : p ∈ plan.paths ↔ ∃ j ∈ plan.joins, j.path = p := List.mem_map

/-- A join that the schema links to the ones before it. -/
structure Linked (schema : Schema) (root : Entity) (before : List Join) (join : Join) : Prop where
  /-- The path leads to the target over an association that owns the foreign key. -/
  resolves : ∃ r a, schema.resolve root join.path = .ok r ∧ r.association? = some a ∧
    a.joinColumn? = some join.foreignKey ∧ schema.entity? a.target = some join.target
  targetKey : join.target.idColumn = .ok join.targetKey
  parent : JoinPlan.table ⟨before⟩ join.path.parent = .ok join.parent
  table : join.table = before.length + 1

/-- **Growth of a plan.**  A joined path meets the need; another one is joined once its parent is,
    where it has one. -/
inductive Grows (schema : Schema) (root : Entity) : JoinNeed → Path → JoinPlan → JoinPlan → Prop where
  | meets {need path plan} (joined : path ∈ plan.paths) :
    Grows schema root need path plan ⟨plan.joins.map fun join => join.meetAt need path⟩
  | starts {need path plan plan'} (absent : path ∉ plan.paths) (first : path.parent.segments = [])
    (added : plan.add schema root need path = .ok plan') : Grows schema root need path plan plan'
  | follows {need path plan mid plan'} (absent : path ∉ plan.paths)
    (before : Grows schema root need.onTheWay path.parent plan mid)
    (added : mid.add schema root need path = .ok plan') : Grows schema root need path plan plan'

variable {schema : Schema} {root : Entity} {need : JoinNeed} {path : Path}
variable {plan plan' : JoinPlan}

/-- Adding a join appends one that is linked and serves the need. -/
theorem add_eq_ok (h : plan.add schema root need path = .ok plan') :
    ∃ join, plan'.joins = plan.joins ++ [join] ∧ Linked schema root plan.joins join ∧
      join.path = path ∧ join.kind = need.kind ∧ join.explicit = need.explicit ∧
      join.filtering = need.filtering ∧ join.fetch = need.fetch := by
  -- Each step of adding looks one thing up, and each has been found.
  unfold add at h
  obtain ⟨r, hr, h⟩ := bind_eq_ok_iff.1 h
  rw [lift_eq_ok_iff] at hr
  split at h
  · exact absurd h throw_ne_ok
  rename_i a ha
  split at h
  · exact absurd h throw_ne_ok
  rename_i foreignKey hfk
  split at h
  · exact absurd h throw_ne_ok
  rename_i target htarget
  obtain ⟨targetKey, hkey, h⟩ := bind_eq_ok_iff.1 h
  obtain ⟨parent, hparent, h⟩ := bind_eq_ok_iff.1 h
  rw [pure_eq_ok_iff] at h
  subst h
  exact ⟨_, rfl, ⟨⟨r, a, hr, ha, hfk, htarget⟩, hkey, hparent, rfl⟩, rfl, rfl, rfl, rfl, rfl⟩

/-- No table can be joined for the empty path. -/
theorem add_empty_ne_ok : plan.add schema root need ⟨[]⟩ ≠ .ok plan' := by
  intro h
  obtain ⟨join, _, hlinked, hpath, _⟩ := add_eq_ok h
  obtain ⟨r, _, hr, _⟩ := hlinked.resolves
  rw [hpath] at hr
  cases hr

/-- Ensuring a path is one of the three ways in which a plan grows. -/
theorem grows_of_ensureReversed {reversed : List String}
    (h : plan.ensureReversed schema root need reversed = .ok plan') :
    Grows schema root need ⟨reversed.reverse⟩ plan plan' := by
  -- The induction drops the last segment of the path, which is the first of the reversed ones.
  induction reversed generalizing need plan plan' with
  | nil => exact absurd h add_empty_ne_ok
  | cons segment before ih =>
    have hparent : Path.parent ⟨(segment :: before).reverse⟩ = ⟨before.reverse⟩ := by
      simp [Path.parent]
    have hjoined : (plan.joins.any fun join => join.path == ⟨(segment :: before).reverse⟩) = true ↔
        ⟨(segment :: before).reverse⟩ ∈ plan.paths := by
      simp [mem_paths]
    simp only [ensureReversed] at h
    split at h
    · rename_i hany
      rw [pure_eq_ok_iff] at h
      subst h
      exact .meets (hjoined.1 hany)
    · rename_i hany
      have habsent := fun hmem => hany (hjoined.2 hmem)
      split at h
      · -- The path has no parent, so nothing is put in before its own join.
        rename_i hbefore
        rw [List.isEmpty_iff] at hbefore
        obtain ⟨mid, hmid, h⟩ := bind_eq_ok_iff.1 h
        rw [pure_eq_ok_iff] at hmid
        subst hmid hbefore
        exact .starts habsent rfl h
      · obtain ⟨mid, hmid, h⟩ := bind_eq_ok_iff.1 h
        exact .follows habsent (hparent ▸ ih hmid) h

/-- So is ensuring it from its front. -/
theorem grows_of_ensure (h : plan.ensure schema root need path = .ok plan') :
    Grows schema root need path plan plan' := by
  have hgrows := grows_of_ensureReversed h
  rwa [List.reverse_reverse] at hgrows

/-! ### Where the joins come from -/

namespace Grows

/-- **Joins stay.**  Every join of a plan is still there after it has grown. -/
theorem keeps (h : Grows schema root need path plan plan') {j : Join} (hj : j ∈ plan.joins) :
    ∃ j' ∈ plan'.joins, j.Became j' := by
  induction h with
  | meets => exact ⟨_, List.mem_map_of_mem hj, j.became_meetAt _ _⟩
  | starts _ _ added =>
    obtain ⟨join, hjoins, _⟩ := add_eq_ok added
    exact ⟨j, by rw [hjoins]; exact List.mem_append_left _ hj, Join.Became.refl j⟩
  | follows _ _ added ih =>
    -- The join stays while the parent is served, and the new one goes behind it.
    obtain ⟨j', hj', hbecame⟩ := ih hj
    obtain ⟨join, hjoins, _⟩ := add_eq_ok added
    exact ⟨j', by rw [hjoins]; exact List.mem_append_left _ hj', hbecame⟩

/-- **Joins are accounted for.**  A join of the grown plan was there before, or the path was not
    joined before and the join was put in for it. -/
theorem origin (h : Grows schema root need path plan plan') {j' : Join} (hj' : j' ∈ plan'.joins) :
    (∃ j ∈ plan.joins, j.Became j') ∨ (path ∉ plan.paths ∧ j'.Added need path) := by
  induction h with
  | meets =>
    obtain ⟨j, hj, rfl⟩ := List.mem_map.1 hj'
    exact .inl ⟨j, hj, j.became_meetAt _ _⟩
  -- Only the last join is new.
  | starts absent _ added =>
    obtain ⟨join, hjoins, _, hpath, hkind, hexplicit, hfiltering, _⟩ := add_eq_ok added
    rw [hjoins, List.mem_append, List.mem_singleton] at hj'
    rcases hj' with hj' | rfl
    · exact .inl ⟨j', hj', Join.Became.refl j'⟩
    · exact .inr ⟨absent, hpath ▸ List.prefix_rfl, hkind, hfiltering, fun he => ⟨hpath, hexplicit ▸ he⟩⟩
  | @follows need path plan mid plan' absent before added ih =>
    obtain ⟨join, hjoins, _, hpath, hkind, hexplicit, hfiltering, _⟩ := add_eq_ok added
    rw [hjoins, List.mem_append, List.mem_singleton] at hj'
    rcases hj' with hj' | rfl
    · rcases ih hj' with hold | ⟨_, hadded⟩
      · exact .inl hold
      · -- Joins on the way are never taken for joins that the caller wrote.
        have hway : j'.explicit ≠ true := fun he => nomatch (hadded.explicit he).2
        exact .inr ⟨absent, hadded.onWay.trans path.parent_isPrefix, hadded.kind, hadded.filtering,
          fun he => absurd he hway⟩
    · exact .inr ⟨absent, hpath ▸ List.prefix_rfl, hkind, hfiltering, fun he => ⟨hpath, hexplicit ▸ he⟩⟩

/-- The path itself is joined in the end, for the need if it was not joined before. -/
theorem reached (h : Grows schema root need path plan plan') :
    ∃ j ∈ plan'.joins, j.path = path ∧ (need.filtering = true → j.filtering = true) ∧
      (path ∉ plan.paths → j.kind = need.kind ∧ j.explicit = need.explicit) := by
  cases h with
  | meets joined =>
    obtain ⟨j, hj, rfl⟩ := mem_paths.1 joined
    have hmeets : j.meetAt need j.path = j.meet need := by simp [Join.meetAt]
    refine ⟨j.meet need, hmeets ▸ List.mem_map_of_mem hj, rfl, fun hf => ?_, fun h => absurd joined h⟩
    rw [Join.meet_filtering, hf, Bool.or_true]
  | starts _ _ added | follows _ _ added =>
    obtain ⟨join, hjoins, _, hpath, hkind, hexplicit, hfiltering, _⟩ := add_eq_ok added
    refine ⟨join, ?_, hpath, fun hf => hfiltering.trans hf, fun _ => ⟨hkind, hexplicit⟩⟩
    rw [hjoins]
    exact List.mem_append_right _ (List.mem_singleton_self join)

end Grows

/-! ### Well linked plans -/

/-- **Well linked joins.**  Each join is on a path of its own and linked to the ones before it. -/
inductive Planned (schema : Schema) (root : Entity) : List Join → Prop where
  | nil : Planned schema root []
  | snoc {joins join} (before : Planned schema root joins)
    (fresh : join.path ∉ joins.map Join.path) (linked : Linked schema root joins join) :
    Planned schema root (joins ++ [join])

/-- Tables are found by the links alone. -/
theorem table_map {f : Join → Join} (hf : ∀ j : Join, j.SameLink (f j)) (joins : List Join) (p : Path) :
    JoinPlan.table ⟨joins.map f⟩ p = JoinPlan.table ⟨joins⟩ p := by
  have hpath : ((fun j : Join => j.path == p) ∘ f) = fun j => j.path == p := by
    funext j
    simp only [Function.comp_apply, (hf j).path]
  unfold table find?
  rw [List.find?_map, hpath]
  cases joins.find? fun j => j.path == p with
  | none => rfl
  | some j => simp only [Option.map_some, (hf j).table]

/-- A join stays linked where every join keeps its link. -/
theorem Linked.map {before : List Join} {join : Join} (h : Linked schema root before join)
    {f : Join → Join} (hf : ∀ j : Join, j.SameLink (f j)) :
    Linked schema root (before.map f) (f join) where
  resolves := by rw [(hf join).path, (hf join).foreignKey, (hf join).target]; exact h.resolves
  targetKey := by rw [(hf join).target, (hf join).targetKey]; exact h.targetKey
  parent := by rw [table_map hf, (hf join).path, (hf join).parent]; exact h.parent
  table := by rw [(hf join).table, List.length_map]; exact h.table

/-- Joins that keep their links keep their paths. -/
theorem map_path {f : Join → Join} (hf : ∀ j : Join, j.SameLink (f j)) (joins : List Join) :
    (joins.map f).map Join.path = joins.map Join.path := by
  rw [List.map_map]
  exact List.map_congr_left fun j _ => (hf j).path

namespace Planned

/-- Joins that keep their links stay planned. -/
theorem map {joins : List Join} (h : Planned schema root joins) {f : Join → Join}
    (hf : ∀ j : Join, j.SameLink (f j)) : Planned schema root (joins.map f) := by
  induction h with
  | nil => exact .nil
  | @snoc joins join _ fresh linked ih =>
    rw [List.map_append]
    refine ih.snoc ?_ (linked.map hf)
    rw [map_path hf, (hf join).path]
    exact fresh

/-- The joins before the last one, and how the last one hangs on them. -/
theorem split {joins : List Join} {join : Join} (h : Planned schema root (joins ++ [join])) :
    Planned schema root joins ∧ join.path ∉ joins.map Join.path ∧ Linked schema root joins join := by
  generalize hall : joins ++ [join] = all at h
  cases h with
  | nil => simp at hall
  | snoc before fresh linked =>
    obtain ⟨rfl, rfl⟩ := List.append_singleton_inj.1 hall
    exact ⟨before, fresh, linked⟩

/-- The first joins of a well linked list are well linked. -/
theorem of_append {front : List Join} (back : List Join) (h : Planned schema root (front ++ back)) :
    Planned schema root front := by
  induction back using List.reverseRecOn with
  | nil => simpa using h
  | append_singleton back join ih =>
    rw [← List.append_assoc] at h
    exact ih h.split.1

/-- No path is joined twice. -/
theorem nodup_path {joins : List Join} (h : Planned schema root joins) :
    (joins.map Join.path).Nodup := by
  induction h with
  | nil => exact List.nodup_nil
  | snoc _ fresh _ ih =>
    rw [List.map_append, List.nodup_append]
    refine ⟨ih, List.nodup_singleton _, ?_⟩
    intro p hp q hq hpq
    rw [List.map_singleton, List.mem_singleton] at hq
    exact fresh (hq ▸ hpq ▸ hp)

/-- Every join is linked to some of the others. -/
theorem linked_of_mem {joins : List Join} (h : Planned schema root joins) {join : Join}
    (hjoin : join ∈ joins) : ∃ before ⊆ joins, Linked schema root before join := by
  induction h with
  | nil => cases hjoin
  | @snoc joins last _ _ linked ih =>
    rcases List.mem_append.1 hjoin with hjoin | hjoin
    · obtain ⟨before, hbefore, hlinked⟩ := ih hjoin
      exact ⟨before, List.subset_append_of_subset_left _ hbefore, hlinked⟩
    · obtain rfl := List.mem_singleton.1 hjoin
      exact ⟨joins, List.subset_append_left _ _, linked⟩

/-- A join on a path of one segment follows an association of the root. -/
theorem association_of_single {joins : List Join} (h : Planned schema root joins) {join : Join}
    (hjoin : join ∈ joins) {name : String} (hpath : join.path = .single name) :
    ∃ a, root.associationNamed? name = some a ∧ a.joinColumn? = some join.foreignKey ∧
      schema.entity? a.target = some join.target ∧ join.target.idColumn = .ok join.targetKey := by
  obtain ⟨_, _, hlinked⟩ := h.linked_of_mem hjoin
  obtain ⟨r, a, hr, ha, hforeignKey, htarget⟩ := hlinked.resolves
  rw [hpath] at hr
  have hresolved := resolved_of_resolve hr
  have hterminal := Resolution.association?_eq_some_iff.1 ha
  have hproperty : r.owner.property? name = some (.association a) :=
    hterminal ▸ hresolved.terminal
  have hleads : Leads schema root [] r.owner := hresolved.leads
  -- A path of one step is resolved at the root itself.
  generalize r.owner = owner at hproperty hleads
  cases hleads
  exact ⟨a, Entity.associationNamed?_of_property? hproperty, hforeignKey, htarget,
    hlinked.targetKey⟩

/-- Tables are numbered in the order of the joins. -/
theorem map_table {joins : List Join} (h : Planned schema root joins) :
    joins.map Join.table = List.range' 1 joins.length := by
  induction h with
  | nil => rfl
  | @snoc joins join _ _ linked ih =>
    rw [List.map_append, ih, List.map_singleton, linked.table, List.length_append,
      List.length_singleton, List.range'_concat]
    simp [Nat.add_comm]

end Planned

/-- The path itself is not joined on the way to it. -/
theorem Grows.not_mem_paths_of_parent
    (h : Grows schema root need path.parent plan plan') (habsent : path ∉ plan.paths)
    (hne : path.segments ≠ []) : path ∉ plan'.paths := by
  intro hmem
  obtain ⟨j', hj', hpath⟩ := mem_paths.1 hmem
  rcases h.origin hj' with ⟨j, hj, hbecame⟩ | ⟨_, hadded⟩
  · exact habsent (mem_paths.2 ⟨j, hj, hbecame.path.symm.trans hpath⟩)
  · -- Joins on the way to the parent have shorter paths.
    have hle := hadded.onWay.length_le
    rw [hpath, path.length_parent] at hle
    have := List.length_pos_iff.2 hne
    omega

/-- A path that is new can be put at the end of a plan. -/
theorem Planned.add {before : JoinPlan} (h : Planned schema root before.joins)
    (habsent : path ∉ before.paths) (hadd : before.add schema root need path = .ok plan') :
    Planned schema root plan'.joins := by
  obtain ⟨join, hjoins, linked, hpath, _⟩ := add_eq_ok hadd
  rw [hjoins]
  exact h.snoc (hpath ▸ habsent) linked

/-- **Growth keeps plans well linked.** -/
theorem Grows.planned (h : Grows schema root need path plan plan')
    (hplan : Planned schema root plan.joins) : Planned schema root plan'.joins := by
  induction h with
  | meets => exact hplan.map fun j => (j.became_meetAt _ _).toSameLink
  | starts absent _ added => exact hplan.add absent added
  | @follows need path plan mid plan' absent before added ih =>
    -- Serving the parent does not join the path itself, so its join is still a new one.
    have hne : path.segments ≠ [] := by
      intro hempty
      obtain rfl : path = ⟨[]⟩ := congrArg Path.mk hempty
      exact add_empty_ne_ok added
    exact (ih hplan).add (before.not_mem_paths_of_parent absent hne) added

end JoinPlan

end EntityQuery
