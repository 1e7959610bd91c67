import EntityQuery.Proofs.Plan.Needs
import EntityQuery.Proofs.Rows.Database

namespace EntityQuery

open JoinPlan

/-!
# Joined rows

The rows that a join plan makes of a database.  Tables are joined from left to right; an inner join
keeps the combinations whose condition holds, a left join keeps a row without any as one without a
partner.

Since identifiers are unique, joining along to-one associations never multiplies rows: a row of the
root either is dropped, because an inner join finds no partner, or it becomes one joined row, in
which each table holds the row that its path leads to (`combined_of_planned`).
-/

/-- The row of each joined table, where there is one. -/
abbrev JoinedRow := Nat → Option TableRow

namespace JoinedRow

/-- A row of the root before anything is joined to it. -/
def ofRoot (row : TableRow) : JoinedRow := fun table => if table = 0 then some row else none

/-- The value of a column; it is null in a table without a row. -/
def value (row : JoinedRow) (c : Column) : Stored :=
  match row c.table with
  | some r => r c.name
  | none => .null

end JoinedRow

variable {schema : Schema} {root : Entity} (db : Database schema)

namespace Join

variable (join : Join)

/-- The condition of a join: its own key equals the foreign key in the parent table. -/
def On (row : JoinedRow) : Prop :=
  (row.value ⟨join.table, join.targetKey⟩).Equals (row.value ⟨join.parent, join.foreignKey⟩)

instance (row : JoinedRow) : Decidable (join.On row) := inferInstanceAs (Decidable (Stored.Equals _ _))

/-- The combinations with the rows of the joined table that the condition holds of. -/
def matching (row : JoinedRow) : List JoinedRow :=
  ((db.rows join.target.table).map fun other => Function.update row join.table (some other)).filter
    fun combined => join.On combined

/-- What a join makes of one row. -/
def combine (row : JoinedRow) : List JoinedRow :=
  match join.kind with
  | .inner => join.matching db row
  | .left =>
    if (join.matching db row).isEmpty then [Function.update row join.table none]
    else join.matching db row

end Join

namespace JoinPlan

/-- The joins one after the other. -/
def combined (joins : List Join) (rows : List JoinedRow) : List JoinedRow :=
  joins.foldl (fun rows join => rows.flatMap (join.combine db)) rows

/-- All joined rows of a plan over the rows of its root. -/
def joined (root : Entity) (plan : JoinPlan) : List JoinedRow :=
  combined db plan.joins ((db.rows root.table).map JoinedRow.ofRoot)

/-! ### Row by row -/

/-- Joins are combined one after the other. -/
theorem combined_append (front back : List Join) (rows : List JoinedRow) :
    combined db (front ++ back) rows = combined db back (combined db front rows) :=
  List.foldl_append

/-- Joining treats every row on its own. -/
theorem combined_flatMap {α : Type} (joins : List Join) (rows : List α) (f : α → List JoinedRow) :
    combined db joins (rows.flatMap f) = rows.flatMap fun row => combined db joins (f row) := by
  induction joins generalizing f with
  | nil => rfl
  | cons join joins ih =>
    show combined db joins ((rows.flatMap f).flatMap (join.combine db)) = _
    rw [List.flatMap_assoc, ih]
    rfl

/-- Each row of the root's table is combined on its own. -/
theorem joined_eq_flatMap (root : Entity) (plan : JoinPlan) :
    plan.joined db root =
      (db.rows root.table).flatMap fun row => combined db plan.joins [JoinedRow.ofRoot row] := by
  rw [joined, ← combined_flatMap]
  congr 1
  exact List.map_eq_flatMap

/-! ### Joining along associations -/

/-- Each table holds the row that its path leads to from a row of the root. -/
structure Follows (root : Entity) (start : TableRow) (joins : List Join) (row : JoinedRow) :
    Prop where
  atRoot : row 0 = some start
  joined : ∀ j ∈ joins, row j.table = db.walk root (some start) j.path.segments

/-- Every inner join finds a partner. -/
def Partnered (root : Entity) (start : TableRow) (joins : List Join) : Prop :=
  ∀ j ∈ joins, j.kind = .inner → (db.walk root (some start) j.path.segments).isSome = true

variable {db} {start : TableRow} {before joins : List Join} {join : Join} {row : JoinedRow}

/-- The table of a path holds the row that the path leads to. -/
theorem Follows.of_table (h : Follows db root start joins row) {path : Path} {table : Nat}
    (htable : JoinPlan.table ⟨joins⟩ path = .ok table) :
    row table = db.walk root (some start) path.segments := by
  rcases table_eq_ok htable with ⟨hempty, rfl⟩ | ⟨_, j, hfind, rfl⟩
  · rw [hempty]
    exact h.atRoot
  · obtain ⟨hj, rfl⟩ := mem_of_find? hfind
    exact h.joined j hj

/-- Tables of earlier joins have smaller numbers. -/
theorem Planned.table_le (h : Planned schema root joins) {j : Join} (hj : j ∈ joins) :
    1 ≤ j.table ∧ j.table ≤ joins.length := by
  have hmem : j.table ∈ joins.map Join.table := List.mem_map_of_mem hj
  rw [h.map_table, List.mem_range'_1] at hmem
  omega

/-- A join hangs on a table that comes before its own. -/
theorem Planned.parent_lt (h : Planned schema root before) (hlinked : Linked schema root before join) :
    join.parent < join.table := by
  rw [hlinked.table]
  rcases knows_of_table hlinked.parent with hroot | ⟨j, hj, htable⟩
  · omega
  · have := h.table_le hj
    omega

/-- **A join along an association** finds the row that the path leads to, and no other one. -/
theorem matching_of_linked (hbefore : Planned schema root before)
    (hlinked : Linked schema root before join) (h : Follows db root start before row) :
    join.matching db row =
      (db.walk root (some start) join.path.segments).toList.map fun other =>
        Function.update row join.table (some other) := by
  obtain ⟨r, a, hr, ha, hforeignKey, htarget⟩ := hlinked.resolves
  have hresolved := resolved_of_resolve hr
  have hterminal := Resolution.association?_eq_some_iff.1 ha
  let hop : Hop := ⟨join.foreignKey, join.target, join.targetKey⟩
  have hwalk : db.walk root (some start) join.path.segments =
      (row join.parent).bind (db.partner hop) := by
    rw [h.of_table hlinked.parent]
    exact db.walk_association hop hresolved hterminal hforeignKey htarget
      hlinked.targetKey (some start)
  -- The parent table was there before, so the new row does not hide its row.
  have hparent : join.parent ≠ join.table := Nat.ne_of_lt (hbefore.parent_lt hlinked)
  -- The condition compares the new row with the one of the parent table.
  have hon : ∀ other : TableRow, join.On (Function.update row join.table (some other)) ↔
      (other join.targetKey).Equals (row.value ⟨join.parent, join.foreignKey⟩) := by
    intro other
    simp only [Join.On, JoinedRow.value, Function.update_self, Function.update_of_ne hparent]
  have hchosen : (db.rows join.target.table).filter (fun other =>
      (other join.targetKey).Equals (row.value ⟨join.parent, join.foreignKey⟩)) =
        ((row join.parent).bind (db.partner hop)).toList := by
    cases hrow : row join.parent with
    | none =>
      -- Nothing equals the foreign key of a missing row.
      simp [JoinedRow.value, hrow, Stored.not_equals_null]
    | some parent =>
      have hmem : join.target ∈ schema.entities := List.mem_of_find?_eq_some htarget
      simp only [JoinedRow.value, hrow, Option.bind_some]
      exact db.filter_equals hmem hlinked.targetKey (parent join.foreignKey)
  rw [hwalk, ← hchosen, Join.matching, List.filter_map]
  congr 1
  refine List.filter_congr fun other _ => ?_
  simp only [Function.comp_apply, hon]

/-- A further table leaves the tables before it alone. -/
theorem Follows.update (h : Follows db root start before row) (hbefore : Planned schema root before)
    (hlinked : Linked schema root before join) :
    Follows db root start (before ++ [join]) (Function.update row join.table
      (db.walk root (some start) join.path.segments)) where
  atRoot := by
    have hne : 0 ≠ join.table := by
      rw [hlinked.table]
      omega
    rw [Function.update_of_ne hne]
    exact h.atRoot
  joined j hj := by
    rw [List.mem_append, List.mem_singleton] at hj
    rcases hj with hj | rfl
    -- The tables of earlier joins have smaller numbers, so the update leaves them alone.
    · have hne : j.table ≠ join.table := by
        have := hbefore.table_le hj
        rw [hlinked.table]
        omega
      rw [Function.update_of_ne hne]
      exact h.joined j hj
    · exact Function.update_self ..

/-- What a join makes of a row that follows the paths: it is dropped where an inner join finds no
    partner, and otherwise goes on following them. -/
theorem combine_of_linked (hbefore : Planned schema root before)
    (hlinked : Linked schema root before join) (h : Follows db root start before row) :
    join.combine db row =
      if join.kind = .inner ∧ db.walk root (some start) join.path.segments = none then []
      else [Function.update row join.table (db.walk root (some start) join.path.segments)] := by
  have hmatching := matching_of_linked hbefore hlinked h
  unfold Join.combine
  cases hwalk : db.walk root (some start) join.path.segments with
  | none =>
    -- Without a partner, an inner join drops the row and a left one keeps it alone.
    rw [hwalk] at hmatching
    cases join.kind <;> simp [hmatching]
  | some other =>
    -- With its one partner, the row is kept by both kinds.
    rw [hwalk] at hmatching
    cases join.kind <;> simp [hmatching]

/-- **Joins along associations never multiply rows.**  A row of the root becomes one joined row that
    follows the paths, or none if an inner join finds no partner. -/
theorem combined_of_planned (h : Planned schema root joins) (start : TableRow) :
    (Partnered db root start joins →
      ∃ row, combined db joins [JoinedRow.ofRoot start] = [row] ∧ Follows db root start joins row) ∧
    (¬ Partnered db root start joins → combined db joins [JoinedRow.ofRoot start] = []) := by
  induction h with
  | nil => exact ⟨fun _ => ⟨_, rfl, rfl, nofun⟩, fun h => absurd nofun h⟩
  | @snoc before join hbefore fresh hlinked ih =>
    -- Whether the row survives depends on the joins before and on the last one alone.
    have hsplit : Partnered db root start (before ++ [join]) ↔ Partnered db root start before ∧
        ¬ (join.kind = .inner ∧ db.walk root (some start) join.path.segments = none) := by
      unfold Partnered
      rw [List.forall_mem_append, List.forall_mem_singleton, not_and, Option.isSome_iff_ne_none]
    by_cases hpartnered : Partnered db root start before
    · -- The last join decides.
      obtain ⟨row, hrow, hfollows⟩ := ih.1 hpartnered
      have hlast : combined db (before ++ [join]) [JoinedRow.ofRoot start] = join.combine db row := by
        rw [combined_append, hrow]
        exact List.append_nil _
      rw [hlast, combine_of_linked hbefore hlinked hfollows, hsplit]
      constructor
      · rintro ⟨_, hfound⟩
        rw [if_neg hfound]
        exact ⟨_, rfl, hfollows.update hbefore hlinked⟩
      · intro hnot
        rw [if_pos (by_contra fun hfound => hnot ⟨hpartnered, hfound⟩)]
    · -- The row was dropped before.
      refine ⟨fun h => absurd (hsplit.1 h).1 hpartnered, fun _ => ?_⟩
      rw [combined_append, ih.2 hpartnered]
      rfl

end JoinPlan

end EntityQuery
