import EntityQuery.Proofs.Result.Cells
import EntityQuery.Proofs.Rows.Selected

namespace EntityQuery

open JoinPlan

/-!
# Answers

What comes back for a statement: for each of its rows the values of the selected columns, read from
their stored form.  A row of a database can be read if that works for all its columns.

* `Field.Holds`: the value of a field in a row, whichever statement it was read by;
* `Select.forall₂_rows`: two queries for the same rows have their rows side by side, each pair from
  one row of the root;
* `Select.PlannedFor.sortKey_eq`: what a statement orders its rows by is told by the query alone.
-/

/-! ### Stored values -/

/-- The value of a field in a row: what is stored for it, recovered by its type. -/
def Field.read (f : Field) (row : TableRow) : Except ReadFault Value := do
  f.type.coerce (← Value.ofStored (row f.column))

/-- A field has a value in a row. -/
def Field.Holds (f : Field) (row : TableRow) (v : Value) : Prop := f.read row = .ok v

/-- A field holds what its column has, coerced to its type. -/
theorem Field.holds_iff {f : Field} {row : TableRow} {v : Value} :
    f.Holds row v ↔ ∃ raw, Value.ofStored (row f.column) = .ok raw ∧ f.type.coerce raw = .ok v :=
  bind_eq_ok_iff

/-- There is only one such value. -/
theorem Field.Holds.unique {f : Field} {row : TableRow} {v v' : Value} (h : f.Holds row v)
    (h' : f.Holds row v') : v = v' := Except.ok.inj (h.symm.trans h')

/-- Only null is stored as null. -/
theorem Value.ofStored_eq_null_iff {stored : Stored} {v : Value} (h : Value.ofStored stored = .ok v) :
    v = .null ↔ stored = .null := by
  cases stored with
  | null => simp only [Value.ofStored, Except.ok.injEq] at h; simp [← h]
  | integer | real => simp only [Value.ofStored, Except.ok.injEq] at h; simp [← h]
  | text bytes =>
    simp only [Value.ofStored] at h
    split at h
    · cases h
      simp
    · cases h
  | blob => cases h

/-- Everything that is stored in a row of an entity can be read. -/
def Entity.Readable (e : Entity) (row : TableRow) : Prop :=
  (∀ f ∈ e.fields, (f.read row).isOk = true) ∧
    ∀ a ∈ e.associations, ∀ column ∈ a.joinColumn?, (Value.ofStored (row column)).isOk = true

instance (e : Entity) (row : TableRow) : Decidable (e.Readable row) :=
  inferInstanceAs (Decidable (_ ∧ _))

/-- A success has a result. -/
theorem exists_of_isOk {ε α : Type} {x : Except ε α} (h : x.isOk = true) : ∃ a, x = .ok a := by
  cases x with
  | error => cases h
  | ok a => exact ⟨a, rfl⟩

/-- What a hop follows is an association. -/
theorem Schema.association_of_hop? {schema : Schema} {e : Entity} {name : String} {hop : Hop}
    (h : schema.hop? e name = some hop) :
    ∃ a ∈ e.associations, a.name = name ∧ a.joinColumn? = some hop.foreignKey := by
  simp only [Schema.hop?, Option.bind_eq_bind, Option.bind_eq_some_iff] at h
  obtain ⟨a, ha, key, hkey, target, _, _, _, h⟩ := h
  cases h
  obtain ⟨ha, hname⟩ := Entity.mem_of_associationNamed? ha
  exact ⟨a, ha, hname, hkey⟩

namespace Database

variable {schema : Schema} (db : Database schema)

/-- A row and the rows that it points at can be read. -/
def ReadableFrom (root : Entity) (start : TableRow) : Prop :=
  root.Readable start ∧ ∀ a ∈ root.associations, ∀ hop ∈ schema.hop? root a.name,
    ∀ other ∈ db.partner hop start, hop.target.Readable other

instance (root : Entity) (start : TableRow) : Decidable (db.ReadableFrom root start) :=
  inferInstanceAs (Decidable (_ ∧ _))

/-- Every foreign key is null or names a row. -/
def KeysLead : Prop :=
  ∀ e ∈ schema.entities, ∀ a ∈ e.associations, ∀ hop ∈ schema.hop? e a.name,
    ∀ row ∈ db.rows e.table, row hop.foreignKey ≠ .null →
      ∃ other ∈ db.rows hop.target.table, (other hop.key).Equals (row hop.foreignKey)

instance : Decidable db.KeysLead :=
  inferInstanceAs (Decidable (∀ e ∈ schema.entities, ∀ a ∈ e.associations,
    ∀ hop ∈ schema.hop? e a.name, ∀ row ∈ db.rows e.table, row hop.foreignKey ≠ .null →
      ∃ other ∈ db.rows hop.target.table, (other hop.key).Equals (row hop.foreignKey)))

variable {db}

/-- A null key has no partner. -/
theorem partner_of_null {hop : Hop} {row : TableRow} (h : row hop.foreignKey = .null) :
    db.partner hop row = none := by
  unfold partner
  rw [h]
  exact List.find?_eq_none.2 fun other _ heq => Stored.not_equals_null (of_decide_eq_true heq)

/-- A partner has an identifier. -/
theorem key_of_partner {hop : Hop} {row other : TableRow} (h : db.partner hop row = some other) :
    other hop.key ≠ .null := by
  have hequals := List.find?_some
    (p := fun other : TableRow => decide ((other hop.key).Equals (row hop.foreignKey))) h
  exact (of_decide_eq_true hequals).1

/-- Where keys lead to rows, a partner is missing exactly if the key is null. -/
theorem KeysLead.partner_eq_none_iff (h : db.KeysLead) {e : Entity} (he : e ∈ schema.entities)
    {name : String} {hop : Hop} (hhop : schema.hop? e name = some hop) {row : TableRow}
    (hrow : row ∈ db.rows e.table) : db.partner hop row = none ↔ row hop.foreignKey = .null := by
  refine ⟨fun hnone => ?_, partner_of_null⟩
  by_contra hkey
  obtain ⟨a, ha, rfl, _⟩ := Schema.association_of_hop? hhop
  obtain ⟨other, hother, hequals⟩ := h e he a ha hop hhop row hrow hkey
  have hno := List.find?_eq_none.1 hnone other hother
  simp [hequals] at hno

end Database

/-! ### Selected values -/

/-- The values of the selected columns in a joined row. -/
def SelectList.answer (list : SelectList) (row : JoinedRow) : Except ReadFault (List Value) :=
  list.columns.mapM fun c => Value.ofStored (row.value c.column)

/-- The answer to the statement that reads the rows of a select. -/
def Select.answer {schema : Schema} (M : Meaning) (db : Database schema) (s : Select) :
    Except ReadFault RowSet := do
  return ⟨s.list.labels, ← (s.rows M db s.plan).mapM s.list.answer⟩

/-- What a selected column is read as in a joined row. -/
def SelectColumn.Reads (c : SelectColumn) (row : JoinedRow) (v : Value) : Prop :=
  ∃ raw, Value.ofStored (row.value c.column) = .ok raw ∧ c.read raw = .ok v

/-- Where each column can be read, the row has an answer, cell by cell. -/
theorem SelectList.exists_answer {list : SelectList} {row : JoinedRow}
    (hreads : ∀ c ∈ list.columns, ∃ v, c.Reads row v) :
    ∃ values, list.answer row = .ok values ∧ values.length = list.columns.length ∧
      ∀ cell ∈ list.cells values, Value.ofStored (row.value cell.1.column) = .ok cell.2 ∧
        ∃ v, cell.1.read cell.2 = .ok v := by
  obtain ⟨values, hvalues, hcells⟩ : ∃ values, list.answer row = .ok values ∧
      List.Forall₂ (fun c raw => Value.ofStored (row.value c.column) = .ok raw ∧
        ∃ v, c.read raw = .ok v) list.columns values :=
    exists_listMapM fun c hc => by
      obtain ⟨v, raw, hraw, hv⟩ := hreads c hc
      exact ⟨raw, hraw, hraw, v, hv⟩
  refine ⟨values, hvalues, hcells.length_eq.symm, fun cell hcell => ?_⟩
  exact (List.forall₂_iff_zip.1 hcells).2 hcell

section Columns

variable {e : Entity} {row : JoinedRow} {table : Nat}

/-- The column of a field can be read, also where a table has no row. -/
theorem exists_reads_field (h : ∀ r, row table = some r → e.Readable r) {f : Field}
    (hf : f ∈ e.fields) (label : String) :
    ∃ v, SelectColumn.Reads ⟨⟨table, f.column⟩, label, some f.type⟩ row v := by
  unfold SelectColumn.Reads JoinedRow.value SelectColumn.read
  cases hr : row table with
  | none =>
    refine ⟨.null, .null, rfl, ?_⟩
    cases f.type <;> rfl
  | some r =>
    obtain ⟨v, hv⟩ := exists_of_isOk ((h r hr).1 f hf)
    exact ⟨v, Field.holds_iff.1 hv⟩

/-- The key of an association can be read from a readable row. -/
theorem exists_reads_key (h : ∀ r, row table = some r → e.Readable r) {a : Association}
    (ha : a ∈ e.associations) {column : String} (hcolumn : a.joinColumn? = some column)
    (label : String) : ∃ v, SelectColumn.Reads ⟨⟨table, column⟩, label, none⟩ row v := by
  unfold SelectColumn.Reads JoinedRow.value SelectColumn.read
  cases hr : row table with
  | none => exact ⟨.null, .null, rfl, rfl⟩
  | some r =>
    obtain ⟨key, hkey⟩ := exists_of_isOk ((h r hr).2 a ha column hcolumn)
    exact ⟨key, key, hkey, rfl⟩

end Columns

/-! ### Tables behind associations of the root -/

variable {schema : Schema} {root : Entity} {db : Database schema} {start : TableRow}
variable {joins : List Join} {join : Join} {row : JoinedRow} {name : String}

/-- A join of one association is the hop of that association. -/
theorem JoinPlan.Planned.hop?_eq (h : Planned schema root joins) (hjoin : join ∈ joins)
    (hpath : join.path = .single name) :
    schema.hop? root name = some ⟨join.foreignKey, join.target, join.targetKey⟩ := by
  obtain ⟨_, ha, hforeignKey, htarget, hkey⟩ := h.association_of_single hjoin hpath
  exact Schema.hop?_eq_some ha hforeignKey htarget hkey

/-- The table of one association holds the row that the root points at. -/
theorem JoinPlan.Follows.row_eq_partner (h : Follows db root start joins row) (hjoin : join ∈ joins)
    (hpath : join.path = .single name) {hop : Hop} (hhop : schema.hop? root name = some hop) :
    row join.table = db.partner hop start := by
  rw [h.joined join hjoin, hpath]
  show db.walk root (some start) [name] = _
  rw [Database.walk, hhop]
  rfl

/-- The identifier behind an association is null exactly if nothing is joined to the row. -/
theorem JoinPlan.Follows.id_eq_null_iff (h : Follows db root start joins row)
    (hplanned : Planned schema root joins) (hjoin : join ∈ joins) (hpath : join.path = .single name)
    {hop : Hop} (hhop : schema.hop? root name = some hop) {idField : Field}
    (hid : join.target.idField? = some idField) :
    row.value ⟨join.table, idField.column⟩ = .null ↔ db.partner hop start = none := by
  obtain ⟨_, _, _, _, hkey⟩ := hplanned.association_of_single hjoin hpath
  have hcolumn : idField.column = join.targetKey := by
    unfold Entity.idColumn at hkey
    rw [hid] at hkey
    exact Except.ok.inj hkey
  obtain rfl := Option.some.inj ((hplanned.hop?_eq hjoin hpath).symm.trans hhop)
  simp only [JoinedRow.value, h.row_eq_partner hjoin hpath hhop, hcolumn]
  -- No stored identifier is null, so null can only come from a missing partner.
  cases hpartner : db.partner ⟨join.foreignKey, join.target, join.targetKey⟩ start with
  | none => simp
  | some other =>
    have hthere : other join.targetKey ≠ .null := Database.key_of_partner hpartner
    simp [hthere]

/-- The tables of a readable row can be read. -/
theorem JoinPlan.Follows.readable (h : Follows db root start joins row)
    (hplanned : Planned schema root joins) (hreadable : db.ReadableFrom root start)
    (hjoin : join ∈ joins) (hpath : join.path = .single name) :
    ∀ r, row join.table = some r → join.target.Readable r := by
  intro r hr
  have hhop := hplanned.hop?_eq hjoin hpath
  rw [h.row_eq_partner hjoin hpath hhop] at hr
  obtain ⟨a, ha, rfl, _⟩ := Schema.association_of_hop? hhop
  exact hreadable.2 a ha _ hhop r hr

/-- The root of a followed row is readable if everything from it is. -/
theorem JoinPlan.Follows.readable_root (h : Follows db root start joins row)
    (hreadable : db.ReadableFrom root start) : ∀ r, row 0 = some r → root.Readable r := by
  intro r hr
  obtain rfl := Option.some.inj (h.atRoot.symm.trans hr)
  exact hreadable.1

/-! ### Rows side by side -/

/-- Lists that are related piece by piece are related. -/
theorem forall₂_flatMap {α β γ : Type} {R : β → γ → Prop} {l : List α} {f : α → List β}
    {g : α → List γ} (h : ∀ a ∈ l, List.Forall₂ R (f a) (g a)) :
    List.Forall₂ R (l.flatMap f) (l.flatMap g) := by
  induction l with
  | nil => exact .nil
  | cons a l ih =>
    rw [List.forall_mem_cons] at h
    exact List.rel_append h.1 (ih h.2)

/-- What the rows of a query are ordered by. -/
def Query.sortKey (db : Database schema) (q : Query) (start : TableRow) :
    List (Stored × Direction) :=
  if q.order.isEmpty then
    (q.entity.idColumn.toOption.map fun key => (start key, Direction.ascending)).toList
  else q.order.map fun d => (db.read q.entity start d.path, d.direction)

namespace Select

/-- What a statement orders its rows by. -/
def sortKey (s : Select) (row : JoinedRow) : List (Stored × Direction) :=
  s.order.map fun t => (row.value t.1, t.2)

/-- **Rows are ordered by what the query says**, wherever the tables are. -/
theorem PlannedFor.sortKey_eq {q : Query} {s : Select} (h : PlannedFor schema q s)
    (hfollows : Follows db q.entity start s.plan.joins row) :
    s.sortKey row = q.sortKey db start := by
  have hordered := h.ordered
  unfold OrderColumns at hordered
  unfold sortKey Query.sortKey
  -- Without an order the rows are sorted by their identifiers.
  split at hordered
  · rename_i hempty
    rw [if_pos hempty]
    obtain ⟨key, hkey, hterms⟩ := hordered
    rw [hterms, hkey]
    simp [JoinedRow.value, hfollows.atRoot, Except.toOption]
  · rename_i hsome
    rw [if_neg hsome]
    have hall : List.Forall₂ (· = ·) (s.order.map fun t => (row.value t.1, t.2))
        (q.order.map fun d => (db.read q.entity start d.path, d.direction)) := by
      rw [List.forall₂_map_left_iff, List.forall₂_map_right_iff]
      refine hordered.flip.imp fun t d hterm => ?_
      obtain ⟨⟨_, hcolumn⟩, hdirection⟩ := hterm
      rw [value_eq_read hfollows hcolumn, hdirection]
    rwa [List.forall₂_eq_eq_eq] at hall

variable {q q' : Query} {s s' : Select}

/-- **Queries for the same rows have them side by side**, each pair from one row of the root that
    the predicate holds of. -/
theorem forall₂_rows (M : Meaning) (db : Database schema) (hsame : q.SameRows q')
    (h : PlannedFor schema q s) (h' : PlannedFor schema q' s') :
    List.Forall₂ (fun row row' => ∃ start ∈ db.rows q.entity.table, q.holds M db start = true ∧
        Follows db q.entity start s.plan.joins row ∧ Follows db q.entity start s'.plan.joins row')
      (s.rows M db s.plan) (s'.rows M db s'.plan) := by
  rw [rows_eq_flatMap, rows_eq_flatMap, h.root, h'.root, ← hsame.entity]
  refine forall₂_flatMap fun start hstart => ?_
  have hiff : Keeps M db q s start ↔ Keeps M db q' s' start :=
    keeps_iff_of_sameRows M db hsame h h'
  -- Each row of the root's table gives one row to both statements, or none to either.
  by_cases hkeeps : Keeps M db q s start
  · obtain ⟨row, hrow, hfollows⟩ := h.rowsFrom_of_keeps h.decides hkeeps
    obtain ⟨row', hrow', hfollows'⟩ := h'.rowsFrom_of_keeps h'.decides (hiff.1 hkeeps)
    rw [hrow, hrow']
    exact .cons ⟨start, hstart, hkeeps.holds, hfollows, hsame.entity ▸ hfollows'⟩ .nil
  · rw [h.rowsFrom_of_not_keeps h.decides hkeeps,
      h'.rowsFrom_of_not_keeps h'.decides fun hkeeps' => hkeeps (hiff.2 hkeeps')]
    exact .nil

end Select

end EntityQuery
