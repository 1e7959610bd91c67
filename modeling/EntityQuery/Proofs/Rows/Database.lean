import EntityQuery.Proofs.Schema.Resolved
import EntityQuery.Sql.CompileDefect
import EntityQuery.Store.Connection

namespace EntityQuery

/-!
# Databases

The tables behind a schema, and what it means to read a property path from a row: `walk` follows the
associations from row to row by their foreign keys, and `read` takes the value at the end.  Nothing
is found behind a missing row.

* `walk_append`: walks can be cut where the schema says that they lead;
* `walk_isSome_of_isPrefix`: behind a row that is found, all rows on the way were found;
* `filter_equals`: the rows that match a key are the partner, if there is one.
-/

/-- A row of a table: the values of its columns. -/
abbrev TableRow := String → Stored

/-- Equality as conditions test it: nothing equals nothing, and numbers are equal by value. -/
def Stored.Equals (a b : Stored) : Prop := a ≠ .null ∧ b ≠ .null ∧ a.key = b.key

instance (a b : Stored) : Decidable (a.Equals b) := inferInstanceAs (Decidable (_ ∧ _ ∧ _))

/-- Two values that equal the same one equal each other. -/
theorem Stored.Equals.of_same {a b c : Stored} (ha : a.Equals c) (hb : b.Equals c) : a.Equals b :=
  ⟨ha.1, hb.1, ha.2.2.trans hb.2.2.symm⟩

/-- Nothing equals null. -/
theorem Stored.not_equals_null {a : Stored} : ¬ a.Equals .null := fun h => h.2.1 rfl

/-- Finite tables in which identifiers are unique and never null.  Foreign keys may be null, and
    they may point at nothing. -/
structure Database (schema : Schema) where
  rows : String → List TableRow
  ids_ne_null : ∀ e ∈ schema.entities, ∀ key, e.idColumn = .ok key →
    ∀ row ∈ rows e.table, row key ≠ .null
  ids_unique : ∀ e ∈ schema.entities, ∀ key, e.idColumn = .ok key →
    (rows e.table).Pairwise fun a b => ¬ (a key).Equals (b key)

/-! ### Associations between rows -/

/-- How an association leads from a row to another: its foreign key equals the key of the target. -/
structure Hop where
  foreignKey : String
  target : Entity
  key : String

/-- The column of a property: that of a field, or the foreign key of a to-one association. -/
def Terminal.column? : Terminal → Option String
  | .field f => some f.column
  | .association a => a.joinColumn?

/-- The to-one association of the given name. -/
def Schema.hop? (schema : Schema) (e : Entity) (segment : String) : Option Hop := do
  let a ← e.associationNamed? segment
  let foreignKey ← a.joinColumn?
  let target ← schema.entity? a.target
  let key ← target.idColumn.toOption
  return ⟨foreignKey, target, key⟩

/-- A hop is the key, the entity and the identifier that the schema gives. -/
theorem Schema.hop?_eq_some {schema : Schema} {e target : Entity} {name foreignKey key : String}
    {a : Association} (ha : e.associationNamed? name = some a)
    (hforeignKey : a.joinColumn? = some foreignKey) (htarget : schema.entity? a.target = some target)
    (hkey : target.idColumn = .ok key) :
    schema.hop? e name = some ⟨foreignKey, target, key⟩ := by
  simp only [hop?, ha, hforeignKey, htarget, hkey, Except.toOption, Option.bind_eq_bind,
    Option.bind_some]
  rfl

namespace Database

variable {schema : Schema} (db : Database schema)

/-- The row that a row points at. -/
def partner (hop : Hop) (row : TableRow) : Option TableRow :=
  (db.rows hop.target.table).find? fun other => (other hop.key).Equals (row hop.foreignKey)

/-- Follows associations from a row of an entity, where there is one. -/
def walk (e : Entity) (row : Option TableRow) : List String → Option TableRow
  | [] => row
  | segment :: rest =>
    match schema.hop? e segment with
    | some hop => walk hop.target (row.bind (db.partner hop)) rest
    | none => none

/-- The value of a property path of a row; it is null where a row on the way is missing. -/
def read (root : Entity) (row : TableRow) (path : Path) : Stored :=
  match schema.resolve root path, db.walk root (some row) path.parent.segments with
  | .ok r, some owner => (r.terminal.column?.map owner).getD .null
  | _, _ => .null

/-- The name of a field reads the column of the field, where it is a path at all. -/
theorem read_single {root : Entity} {name : String} {f : Field} (hf : root.fieldNamed? name = some f)
    (hpath : ∃ r, schema.resolve root (.single name) = .ok r) (row : TableRow) :
    db.read root row (.single name) = row f.column := by
  obtain ⟨r, hr⟩ := hpath
  have hterminal : r.terminal = .field f := by
    unfold Schema.resolve at hr
    split at hr
    · cases hr
    · simp only [Path.single, Schema.follow, hf, List.isEmpty_nil, if_true] at hr
      cases hr
      rfl
  unfold read
  rw [hr]
  simp [Path.parent, Path.single, walk, hterminal, Terminal.column?]

/-! ### Walks -/

/-- Nothing is found behind a missing row. -/
@[simp] theorem walk_none (e : Entity) (segments : List String) : db.walk e none segments = none := by
  induction segments generalizing e with
  | nil => rfl
  | cons segment rest ih =>
    rw [Database.walk]
    split
    · exact ih _
    · rfl

/-- Behind a row that is found, all rows on the way were found. -/
theorem walk_isSome_of_isPrefix {e : Entity} {row : Option TableRow} {front segments : List String}
    (hway : front <+: segments) (h : (db.walk e row segments).isSome = true) :
    (db.walk e row front).isSome = true := by
  induction front generalizing e row segments with
  | nil =>
    cases row with
    | none => rw [walk_none] at h; exact h
    | some row => rfl
  | cons segment front ih =>
    obtain ⟨rest, rfl⟩ := hway
    rw [List.cons_append, Database.walk] at h
    rw [Database.walk]
    -- A way that goes on has got over each of its first steps.
    split at h
    · exact ih (List.prefix_append front rest) h
    · cases h

/-- A walk goes on from where the schema says that it leads. -/
theorem walk_append {e owner : Entity} {front : List String} (hleads : Leads schema e front owner)
    (row : Option TableRow) (rest : List String) :
    db.walk e row (front ++ rest) = db.walk owner (db.walk e row front) rest := by
  induction hleads generalizing row with
  | here => rfl
  | @across e segment a foreignKey next front owner named toOne target onward ih =>
    rw [List.cons_append, Database.walk, Database.walk]
    -- Where there is no hop both ways end here.
    cases hhop : schema.hop? e segment with
    | none => exact (db.walk_none owner rest).symm
    | some hop =>
      have hnext : hop.target = next := by
        simp only [Schema.hop?, named, toOne, target, Option.bind_eq_bind, Option.bind_some] at hhop
        obtain ⟨_, _, hhop⟩ := Option.bind_eq_some_iff.1 hhop
        cases hhop
        rfl
      subst hnext
      exact ih _

/-- The last step of a walk to an association. -/
theorem walk_association {root : Entity} {path : Path} {r : Resolution} {a : Association} (hop : Hop)
    (hr : Resolved schema root path r) (ha : r.terminal = .association a)
    (hkey : a.joinColumn? = some hop.foreignKey) (htarget : schema.entity? a.target = some hop.target)
    (hid : hop.target.idColumn = .ok hop.key) (row : Option TableRow) :
    db.walk root row path.segments = (db.walk root row path.parent.segments).bind (db.partner hop) := by
  have hnamed : r.owner.associationNamed? path.leaf = some a :=
    Entity.associationNamed?_of_property? (ha ▸ hr.terminal)
  have hhop : schema.hop? r.owner path.leaf = some hop :=
    Schema.hop?_eq_some hnamed hkey htarget hid
  rw [← Path.parent_append_leaf hr.nonempty, db.walk_append hr.leads, Database.walk, hhop]
  rfl

end Database

/-! ### Partners -/

/-- Where no two items can both be chosen, the chosen ones are the first one. -/
theorem filter_eq_toList_find? {α : Type} {p : α → Bool} {l : List α}
    (h : l.Pairwise fun a b => ¬ (p a = true ∧ p b = true)) : l.filter p = (l.find? p).toList := by
  induction l with
  | nil => rfl
  | cons a l ih =>
    rw [List.pairwise_cons] at h
    -- The first match is the only one.
    by_cases ha : p a = true
    · have hrest : l.filter p = [] := by
        rw [List.filter_eq_nil_iff]
        exact fun b hb hpb => h.1 b hb ⟨ha, hpb⟩
      rw [List.filter_cons_of_pos ha, List.find?_cons_of_pos ha, hrest]
      rfl
    · rw [List.filter_cons_of_neg ha, List.find?_cons_of_neg ha]
      exact ih h.2

/-- The rows with a given identifier are the first such row. -/
theorem Database.filter_equals {schema : Schema} (db : Database schema) {e : Entity}
    (he : e ∈ schema.entities) {key : String} (hkey : e.idColumn = .ok key) (value : Stored) :
    (db.rows e.table).filter (fun row => (row key).Equals value) =
      ((db.rows e.table).find? fun row => (row key).Equals value).toList := by
  refine filter_eq_toList_find? ((db.ids_unique e he key hkey).imp fun hunique hboth => ?_)
  simp only [decide_eq_true_eq] at hboth
  exact hunique (hboth.1.of_same hboth.2)

/-! ### Sample rows -/

namespace Sample

/-- A row of integers; every other column is null. -/
def row (cells : List (String × Int64)) : TableRow :=
  fun column => ((cells.lookup column).map Stored.integer).getD .null

/-- Two teams, one part of the other, and three members, one without a team. -/
def tables : String → List TableRow
  | "team" => [row [("team_id", 1)], row [("team_id", 2), ("parent_id", 1)]]
  | "member" => [row [("member_id", 1), ("age", 20), ("team_id", 1)],
      row [("member_id", 2), ("age", 30), ("team_id", 2)], row [("member_id", 3), ("age", 40)]]
  | _ => []

/-- The two teams and three members as a database. -/
def database : Database league where
  rows := tables
  ids_ne_null e he key hkey := by
    rcases List.mem_pair.1 he with rfl | rfl
    · obtain rfl : "team_id" = key := Except.ok.inj hkey
      decide
    · obtain rfl : "member_id" = key := Except.ok.inj hkey
      decide
  ids_unique e he key hkey := by
    rcases List.mem_pair.1 he with rfl | rfl
    · obtain rfl : "team_id" = key := Except.ok.inj hkey
      decide
    · obtain rfl : "member_id" = key := Except.ok.inj hkey
      decide

end Sample

end EntityQuery
