import EntityQuery.Proofs.Outcome
import EntityQuery.Result.Mapping

namespace EntityQuery

/-!
# Mapped rows

Rows are mapped one by one, so a mapping succeeds exactly if the columns suit the target and each
row can be mapped (`Mapping.mapRows_eq_ok_iff`).  Hence the rows of a window have the results of
that window (`Mapping.mapRows_window`), whatever became of the rows around it.
-/

namespace RowSet

/-- At most `limit` rows after the first `offset` ones. -/
def window (table : RowSet) (offset limit : Nat) : RowSet :=
  { table with rows := (table.rows.drop offset).take limit }

/-- A window has as many rows as there are left, up to its size. -/
theorem length_window (table : RowSet) (offset limit : Nat) :
    (table.window offset limit).length = min limit (table.length - offset) := by
  simp [window, length]

/-- Its rows are those of the list behind the offset. -/
theorem toRows_window (table : RowSet) (offset limit : Nat) :
    (table.window offset limit).toRows = (table.toRows.drop offset).take limit := by
  simp [window, toRows, List.map_take, List.map_drop]

/-- A window begins with the shorter one at the same place. -/
theorem take_window (table : RowSet) {offset limit n : Nat} (h : n ≤ limit) :
    (table.window offset limit).take n = table.window offset n := by
  simp [window, take, List.take_take, Nat.min_eq_left h]

/-- A list has as many rows as it has lists of values. -/
@[simp] theorem length_toRows (table : RowSet) : table.toRows.length = table.length := by
  simp [toRows, length]

end RowSet

namespace Mapping

variable {schema : Schema} {plan : MappingPlan} {table : RowSet} {results : List Projected}

/-- The columns that the target of a plan asks for, whatever the rows are. -/
def checkColumns (plan : MappingPlan) (columns : List String) : Except ReadFault Unit :=
  match plan.target with
  | .constructor shape => shape.parameters.forM (checkParameter shape columns)
  | _ => .ok ()

/-- The result of a row whose typed values are still to be recovered. -/
def readRow (schema : Schema) (plan : MappingPlan) (row : Row) : Except ReadFault Projected := do
  mapRow schema plan (← coerceRow plan.types row)

/-- **Rows are mapped one by one**: all of them can be mapped exactly if the columns suit the target
    and each row can be. -/
theorem mapRows_eq_ok_iff :
    mapRows schema plan table = .ok results ↔
      checkColumns plan table.columns = .ok () ∧
        List.Forall₂ (fun row result => readRow schema plan row = .ok result) table.toRows results := by
  have hsteps : mapRows schema plan table =
      (checkColumns plan table.columns >>= fun _ => table.toRows.mapM (readRow schema plan)) := by
    unfold mapRows checkColumns
    cases plan.target <;> rfl
  rw [hsteps, bind_eq_ok_iff]
  simp only [listMapM_eq_ok_iff]
  exact ⟨fun ⟨_, hcheck, h⟩ => ⟨hcheck, h⟩, fun ⟨hcheck, h⟩ => ⟨(), hcheck, h⟩⟩

/-- Every row becomes one result. -/
theorem length_of_mapRows (h : mapRows schema plan table = .ok results) :
    results.length = table.length := by
  have hrows := (mapRows_eq_ok_iff.1 h).2.length_eq
  rw [← hrows, RowSet.length_toRows]

/-- **The rows of a window have the results of that window.** -/
theorem mapRows_window (h : mapRows schema plan table = .ok results) (offset limit : Nat) :
    mapRows schema plan (table.window offset limit) =
      .ok ((results.drop offset).take limit) := by
  rw [mapRows_eq_ok_iff] at h ⊢
  obtain ⟨hcheck, hrows⟩ := h
  refine ⟨hcheck, ?_⟩
  rw [RowSet.toRows_window]
  exact List.forall₂_take _ (List.forall₂_drop _ hrows)

end Mapping

end EntityQuery
