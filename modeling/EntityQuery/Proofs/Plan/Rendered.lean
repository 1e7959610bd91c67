import EntityQuery.Proofs.Plan.Scope
import EntityQuery.Proofs.Statement.Holes

namespace EntityQuery

open JoinPlan

/-!
# Texts of selects

In the text of a statement the names of tables and columns are no longer told apart from what stands around
them.  Here the statements of a select are laid out in parts, which tell them apart, and the parts are
written as the text:

* `Select.statement_eq`: a statement is its layout, written down;
* `Select.tables_layout`, `Select.columns_layout`: a layout names the root and then the tables of its joins,
  one by one, and uses the columns of its joins and its condition;
* `compile_rendered`: what `Scoped` says of the joins and columns of a select holds of its texts: read from
  the left, no column stands before the name of its table, but for the list in front, whose names follow.
-/

/-! ### Parts -/

/-- A part of a statement. Only `text` is text of its own, and it names nothing. -/
inductive Part where
  | text (text : String)
  /-- A table, and the name that it is given. -/
  | table (stored : String) (number : Nat)
  | column (column : Column)
  | term (term : Term)
  | terms (terms : TermList)

namespace Part

/-- A part as a piece of a statement. -/
def fragment : Part → Fragment
  | .text t => .sql t
  | .table stored number => .sql (stored ++ " " ++ tableAlias number)
  | .column c => .sql c.text
  | .term t => t.fragment
  | .terms ts => ts.fragment

/-- The tables that are named, with the numbers of their names. -/
def tables (parts : List Part) : List (String × Nat) :=
  parts.filterMap fun
    | .table stored number => some (stored, number)
    | _ => none

/-- The names that tables are given. -/
def names (parts : List Part) : List String := (tables parts).map fun table => tableAlias table.2

/-- The columns that are used. -/
def columns (parts : List Part) : List Column :=
  parts.filterMap fun
    | .column c => some c
    | _ => none

/-- Parts name their tables one behind the other. -/
theorem tables_append (parts more : List Part) : tables (parts ++ more) = tables parts ++ tables more :=
  List.filterMap_append

/-- Parts use their columns one behind the other. -/
theorem columns_append (parts more : List Part) :
    columns (parts ++ more) = columns parts ++ columns more :=
  List.filterMap_append

/-- Read from the left, no column stands before the name of its table. -/
def ReadsNamed (known : List String) : List Part → Prop
  | [] => True
  | .table _ number :: parts => ReadsNamed (known ++ [tableAlias number]) parts
  | .column c :: parts => tableAlias c.table ∈ known ∧ ReadsNamed known parts
  | .text _ :: parts | .term _ :: parts | .terms _ :: parts => ReadsNamed known parts

/-- What stands behind other parts knows their names. -/
theorem readsNamed_append {known : List String} {parts more : List Part} :
    ReadsNamed known (parts ++ more) ↔
      ReadsNamed known parts ∧ ReadsNamed (known ++ names parts) more := by
  induction parts generalizing known with
  | nil => rw [List.nil_append, names, tables, List.filterMap_nil, List.map_nil, List.append_nil,
      ReadsNamed, true_and]
  | cons part parts ih =>
    -- Only a table adds a name, and only a column needs one.
    cases part with
    | table stored number =>
      have hnames : known ++ names (.table stored number :: parts) =
          known ++ [tableAlias number] ++ names parts := List.append_cons known _ _
      rw [hnames]
      exact ih
    | column c => exact (and_congr_right fun _ => ih).trans and_assoc.symm
    | text _ | term _ | terms _ => exact ih

/-- Parts that name no table use what is known before them. -/
theorem readsNamed_of_names {known : List String} {parts : List Part} (hnames : names parts = [])
    (h : ∀ c ∈ columns parts, tableAlias c.table ∈ known) : ReadsNamed known parts := by
  induction parts with
  | nil => trivial
  | cons part parts ih =>
    cases part with
    | table stored number => cases hnames
    | column first =>
      have hcolumns : ∀ c ∈ first :: columns parts, tableAlias c.table ∈ known := h
      rw [List.forall_mem_cons] at hcolumns
      exact ⟨hcolumns.1, ih hnames hcolumns.2⟩
    | text _ | term _ | terms _ => exact ih hnames h

end Part

/-! ### Parts that are written -/

namespace Part

/-- The parts are written as the fragments: pushed behind any statement, both make the same one. -/
def Writes (parts : List Part) (fragments : List Fragment) : Prop :=
  ∀ s : Statement, s.pushAll (parts.map fragment) = s.pushAll fragments

/-- Each part is written as its own piece. -/
theorem writes_fragments (parts : List Part) : Writes parts (parts.map fragment) := fun _ => rfl

/-- Text is written as it is. -/
theorem writes_text (t : String) : Writes [.text t] [.sql t] := writes_fragments [.text t]

/-- A column is written as its text. -/
theorem writes_column (c : Column) : Writes [.column c] [.sql c.text] := writes_fragments [.column c]

namespace Writes

variable {parts more : List Part} {fs gs : List Fragment} {a b : String} {α : Type}

/-- Parts behind others are written behind them. -/
theorem append (h : Writes parts fs) (h' : Writes more gs) : Writes (parts ++ more) (fs ++ gs) := by
  intro s
  rw [List.map_append, Statement.pushAll, Statement.pushAll, List.foldl_append, List.foldl_append]
  show ((s.pushAll (parts.map fragment)).pushAll (more.map fragment)) = (s.pushAll fs).pushAll gs
  rw [h s, h' _]

/-- Parts that are text are written as one. -/
theorem sql (h : Writes parts [.sql a]) (h' : Writes more [.sql b]) :
    Writes (parts ++ more) [.sql (a ++ b)] :=
  fun s => (h.append h' s).trans (s.push_sql a b)

/-- So are the texts of all items of a list, behind some text. -/
theorem join (h : Writes parts [.sql a]) {items : List α} {f : α → List Part} {g : α → String}
    (hitems : ∀ x ∈ items, Writes (f x) [.sql (g x)]) :
    Writes (parts ++ items.flatMap f) [.sql (a ++ String.join (items.map g))] := by
  induction items generalizing parts a with
  | nil =>
    rw [List.flatMap_nil, List.append_nil, List.map_nil, String.join_nil, String.append_empty]
    exact h
  | cons x items ih =>
    rw [List.forall_mem_cons] at hitems
    rw [List.flatMap_cons, ← List.append_assoc, List.map_cons, String.join_cons, ← String.append_assoc]
    exact ih (h.sql hitems.1) hitems.2

/-- And with a separator between them. -/
theorem intercalate (h : Writes parts [.sql a]) (separator : String) {items : List α}
    {f : α → List Part} {g : α → String} (hitems : ∀ x ∈ items, Writes (f x) [.sql (g x)]) :
    Writes (parts ++ [.text separator].intercalate (items.map f))
      [.sql (a ++ separator.intercalate (items.map g))] := by
  induction items generalizing parts a with
  | nil =>
    rw [List.map_nil, List.map_nil, String.intercalate_nil, String.append_empty]
    exact (List.append_nil parts).symm ▸ h
  | cons x items ih =>
    rw [List.forall_mem_cons] at hitems
    have hfirst := h.sql hitems.1
    -- A separator stands between two items, so the second one decides whether there is any.
    cases items with
    | nil =>
      rw [List.map_singleton, List.map_singleton, List.intercalate_singleton,
        String.intercalate_singleton]
      exact hfirst
    | cons y items =>
      have hrest := ih (hfirst.sql (writes_text separator)) hitems.2
      simp only [List.map_cons, List.intercalate_cons_cons, String.intercalate_cons_cons] at hrest ⊢
      simpa only [List.append_assoc, String.append_assoc] using hrest

end Writes

end Part

/-! ### Joins, conditions and lists in parts -/

/-- A join names its table, and compares two columns. -/
def Join.parts (join : Join) : List Part :=
  [.text (match join.kind with
      | .inner => " JOIN "
      | .left => " LEFT JOIN "),
    .table join.target.table join.table, .text " ON ", .column ⟨join.table, join.targetKey⟩, .text " = ",
    .column ⟨join.parent, join.foreignKey⟩]

/-- A condition, comparison by comparison. -/
def Condition.parts : Condition Column → List Part
  | .isNull c => [.column c, .text (" " ++ Operator.isNull.sql)]
  | .isNotNull c => [.column c, .text (" " ++ Operator.isNotNull.sql)]
  | .compare c operator t => [.column c, .text (" " ++ operator.sql ++ " "), .term t]
  | .member c ts => [.column c, .text (" " ++ Operator.isIn.sql ++ " "), .terms ts]
  | .and l r => .text "(" :: (l.parts ++ .text " AND " :: (r.parts ++ [.text ")"]))
  | .or l r => .text "(" :: (l.parts ++ .text " OR " :: (r.parts ++ [.text ")"]))

/-- A condition as the last part of a statement. -/
def Condition.whereParts : Option (Condition Column) → List Part
  | none => []
  | some condition => .text " WHERE " :: condition.parts

/-- A selected column and its label. -/
def SelectColumn.parts (c : SelectColumn) : List Part :=
  [.column c.column, .text (" AS \"" ++ c.label ++ "\"")]

/-- The columns of a list with commas between them. -/
def SelectList.parts (list : SelectList) : List Part :=
  [.text ", "].intercalate (list.columns.map SelectColumn.parts)

/-- A column of an order, and its direction. -/
def Part.ofTerm (term : Column × Direction) : List Part :=
  [.column term.1, .text (" " ++ term.2.sql)]

/-- The text of a join. -/
theorem Join.writes_parts (join : Join) : Part.Writes join.parts [.sql join.text] := by
  have hwrites : ∀ keyword : String,
      Part.Writes [.text keyword, .table join.target.table join.table, .text " ON ",
        .column ⟨join.table, join.targetKey⟩, .text " = ", .column ⟨join.parent, join.foreignKey⟩]
        [.sql (keyword ++ join.target.table ++ " " ++ tableAlias join.table
          ++ " ON " ++ (Column.mk join.table join.targetKey).text
          ++ " = " ++ (Column.mk join.parent join.foreignKey).text)] := by
    intro keyword s
    simp only [List.map_cons, List.map_nil, Part.fragment, Statement.pushAll, List.foldl_cons,
      List.foldl_nil, Statement.push_sql, String.append_assoc]
  exact hwrites _

/-- The text of a selected column. -/
theorem SelectColumn.writes_parts (c : SelectColumn) : Part.Writes c.parts [.sql c.text] := by
  have hwrites := (Part.writes_column c.column).sql (Part.writes_text (" AS \"" ++ c.label ++ "\""))
  rw [← String.append_assoc, ← String.append_assoc] at hwrites
  exact hwrites

/-- The text of a column of an order. -/
theorem Part.writes_ofTerm (term : Column × Direction) :
    Part.Writes (ofTerm term) [.sql (term.1.text ++ " " ++ term.2.sql)] := by
  rw [String.append_assoc]
  exact (Part.writes_column term.1).sql (Part.writes_text _)

/-- The fragments of a condition. -/
theorem Condition.writes_parts (condition : Condition Column) :
    Part.Writes condition.parts (condition.fragments Column.text) := by
  -- Each comparison begins with its column and an operator, which are one text.
  have hcolumn : ∀ (c : Column) (operator : Operator),
      Part.Writes [.column c, .text (" " ++ operator.sql)] [.sql (c.text ++ " " ++ operator.sql)] := by
    intro c operator
    rw [String.append_assoc]
    exact (Part.writes_column c).sql (Part.writes_text _)
  have hbehind : ∀ (c : Column) (operator : Operator),
      Part.Writes [.column c, .text (" " ++ operator.sql ++ " ")]
        [.sql (c.text ++ " " ++ operator.sql ++ " ")] := by
    intro c operator
    have hwrites := (Part.writes_column c).sql (Part.writes_text (" " ++ operator.sql ++ " "))
    rw [← String.append_assoc, ← String.append_assoc] at hwrites
    exact hwrites
  induction condition with
  | isNull c | isNotNull c => exact hcolumn c _
  | compare c operator t => exact (hbehind c operator).append (Part.writes_fragments [.term t])
  | member c ts => exact (hbehind c .isIn).append (Part.writes_fragments [.terms ts])
  | and l r ihl ihr | or l r ihl ihr =>
    exact (Part.writes_text "(").append
      (ihl.append ((Part.writes_text _).append (ihr.append (Part.writes_text ")"))))

/-- And those of an optional one. -/
theorem Condition.writes_whereParts (condition : Option (Condition Column)) :
    Part.Writes (whereParts condition) (whereFragments Column.text condition) := by
  cases condition with
  | none => exact Part.writes_fragments []
  | some condition => exact (Part.writes_fragments [.text " WHERE "]).append condition.writes_parts

/-! ### Layouts -/

/-- What is selected, and all that stands behind it. -/
structure Layout where
  selected : List Part
  behind : List Part

namespace Select

variable {s : Select} {plan : JoinPlan} {selected ending : List Part}

/-- A statement over the joined tables in parts. -/
def layout (s : Select) (selected : List Part) (plan : JoinPlan) (ending : List Part) : Layout where
  selected := selected
  behind := .text " FROM " :: .table s.root.table 0 ::
    (plan.joins.flatMap Join.parts ++ (Condition.whereParts s.condition ++ ending))

/-- What the content selects. -/
def contentParts (s : Select) : List Part :=
  (if s.distinctKey.isSome then [.text "DISTINCT "] else []) ++ s.list.parts

/-- What the count selects. -/
def countParts (s : Select) : List Part :=
  match s.distinctKey with
  | some key => [.text "COUNT(DISTINCT ", .column key, .text ")"]
  | none => [.text "COUNT(*)"]

/-- The order, at the end of the content. -/
def orderParts (s : Select) : List Part :=
  .text " ORDER BY " :: [.text ", "].intercalate (s.order.map Part.ofTerm)

/-- The statement that reads the rows. -/
def contentLayout (s : Select) : Layout := s.layout s.contentParts s.plan s.orderParts

/-- The statement that counts them. -/
def countLayout (s : Select) : Layout := s.layout s.countParts s.plan.filtering []

/-- The statement that asks whether there is any. -/
def existenceLayout (s : Select) : Layout := s.layout [.text "1 AS \"present\""] s.plan.filtering []

end Select

/-- A layout that is written down. -/
def Layout.statement (layout : Layout) : Statement :=
  .ofFragments ((.text "SELECT " :: (layout.selected ++ layout.behind)).map Part.fragment)

namespace Select

variable {s : Select} {plan : JoinPlan} {selected ending : List Part}

/-- **A statement is its layout**, written down. -/
theorem statement_eq {text : String} {fragments : List Fragment}
    (hselected : Part.Writes (.text "SELECT " :: selected) [.sql ("SELECT " ++ text)])
    (hending : Part.Writes ending fragments) :
    s.statement text plan fragments = (s.layout selected plan ending).statement := by
  -- All that stands in front of the condition is one text.
  have hfront := ((hselected.sql (Part.writes_fragments [.text " FROM "])).sql
    (Part.writes_fragments [.table s.root.table 0])).join
      fun join (_ : join ∈ plan.joins) => join.writes_parts
  have hwrites := hfront.append ((Condition.writes_whereParts s.condition).append hending)
  rw [statement, Layout.statement, layout, JoinPlan.text]
  refine Eq.trans ?_ ((congrArg Statement.ofFragments (congrArg (List.map Part.fragment) ?_)).trans
    (hwrites {})).symm
  · simp only [String.append_assoc]
    rfl
  · simp only [List.append_assoc, List.cons_append, List.nil_append]

/-- The content of a select. -/
theorem content_eq (s : Select) : s.content = s.contentLayout.statement := by
  refine statement_eq ?_ ((Part.writes_text " ORDER BY ").intercalate ", "
    fun term _ => Part.writes_ofTerm term)
  unfold contentParts
  cases s.distinctKey.isSome with
  | true =>
    exact ((Part.writes_text "SELECT ").sql (Part.writes_text "DISTINCT ")).intercalate ", "
      fun column _ => column.writes_parts
  | false => exact (Part.writes_text "SELECT ").intercalate ", " fun column _ => column.writes_parts

/-- The count of a select. -/
theorem count_eq (s : Select) : s.count = s.countLayout.statement := by
  refine statement_eq ?_ (Part.writes_fragments [])
  unfold countParts
  cases s.distinctKey with
  | some key =>
    exact (Part.writes_text "SELECT ").sql (((Part.writes_text "COUNT(DISTINCT ").sql
      (Part.writes_column key)).sql (Part.writes_text ")"))
  | none => exact (Part.writes_text "SELECT ").sql (Part.writes_text "COUNT(*)")

/-- The question whether there is any row. -/
theorem existence_eq (s : Select) : s.existence = s.existenceLayout.statement :=
  statement_eq ((Part.writes_text "SELECT ").sql (Part.writes_text _)) (Part.writes_fragments [])

end Select

/-! ### Tables and columns of a layout -/

/-- Nothing is named by the parts of items, if by none of them. -/
theorem Part.tables_intercalate {α : Type} (separator : String) {items : List α} {f : α → List Part}
    (h : ∀ x ∈ items, tables (f x) = []) : tables ([.text separator].intercalate (items.map f)) = [] := by
  induction items with
  | nil => rfl
  | cons x items ih =>
    rw [List.forall_mem_cons] at h
    cases items with
    | nil => exact (congrArg tables List.intercalate_singleton).trans h.1
    | cons y items =>
      rw [List.map_cons, List.map_cons, List.intercalate_cons_cons, tables_append, tables_append, h.1]
      exact ih h.2

/-- The columns of items, whatever stands between them. -/
theorem Part.columns_intercalate {α : Type} (separator : String) (items : List α) (f : α → List Part) :
    columns ([.text separator].intercalate (items.map f)) = items.flatMap fun x => columns (f x) := by
  induction items with
  | nil => rfl
  | cons x items ih =>
    cases items with
    | nil =>
      rw [List.map_singleton, List.intercalate_singleton, List.flatMap_singleton]
    | cons y items =>
      rw [List.map_cons, List.map_cons, List.intercalate_cons_cons, columns_append, columns_append,
        List.flatMap_cons, ← ih, List.map_cons, List.append_assoc]
      rfl

/-- A condition names no table. -/
theorem Condition.tables_parts (condition : Condition Column) : Part.tables condition.parts = [] := by
  induction condition with
  | isNull c | isNotNull c | compare c operator t | member c ts => rfl
  | and l r ihl ihr | or l r ihl ihr =>
    show Part.tables (l.parts ++ ([.text _] ++ (r.parts ++ [.text ")"]))) = []
    simp only [Part.tables_append, ihl, ihr]
    rfl

/-- And it uses its columns. -/
theorem Condition.columns_parts (condition : Condition Column) :
    Part.columns condition.parts = condition.columns := by
  induction condition with
  | isNull c | isNotNull c | compare c operator t | member c ts => rfl
  | and l r ihl ihr | or l r ihl ihr =>
    show Part.columns (l.parts ++ ([.text _] ++ (r.parts ++ [.text ")"]))) = l.columns ++ r.columns
    simp only [Part.columns_append, ihl, ihr]
    exact congrArg (l.columns ++ ·) (List.append_nil _)

/-- Joins name their tables in order. -/
theorem Join.tables_parts (joins : List Join) :
    Part.tables (joins.flatMap Join.parts) = joins.map fun join => (join.target.table, join.table) := by
  induction joins with
  | nil => rfl
  | cons join joins ih =>
    rw [List.flatMap_cons, Part.tables_append, ih]
    rfl

/-- And each of them uses its own key and the foreign key that leads to it. -/
theorem Join.columns_parts (joins : List Join) :
    Part.columns (joins.flatMap Join.parts) =
      joins.flatMap fun join => [⟨join.table, join.targetKey⟩, ⟨join.parent, join.foreignKey⟩] := by
  induction joins with
  | nil => rfl
  | cons join joins ih =>
    rw [List.flatMap_cons, Part.columns_append, ih]
    rfl

namespace Select

variable {s : Select} {plan : JoinPlan} {selected ending : List Part}

/-- The condition of a select names no table. -/
theorem tables_whereParts (s : Select) : Part.tables (Condition.whereParts s.condition) = [] := by
  cases s.condition with
  | none => rfl
  | some condition => exact condition.tables_parts

/-- And it uses its columns. -/
theorem columns_whereParts (s : Select) :
    Part.columns (Condition.whereParts s.condition) = s.conditionColumns := by
  rw [conditionColumns]
  cases s.condition with
  | none => rfl
  | some condition => exact condition.columns_parts

/-- **A layout names the root and then each joined table**, with the names that its columns have. -/
theorem tables_layout (hending : Part.tables ending = []) :
    Part.tables (s.layout selected plan ending).behind =
      (s.root.table, 0) :: plan.joins.map fun join => (join.target.table, join.table) := by
  show (s.root.table, 0) :: Part.tables (plan.joins.flatMap Join.parts ++
    (Condition.whereParts s.condition ++ ending)) = _
  rw [Part.tables_append, Part.tables_append, Join.tables_parts, s.tables_whereParts, hending,
    List.append_nil, List.append_nil]

/-- **A layout uses the columns of its joins and its condition**, between those of its ends. -/
theorem columns_layout :
    Part.columns (s.layout selected plan ending).behind =
      (plan.joins.flatMap fun join =>
        [⟨join.table, join.targetKey⟩, ⟨join.parent, join.foreignKey⟩]) ++
        (s.conditionColumns ++ Part.columns ending) := by
  show Part.columns (plan.joins.flatMap Join.parts ++ (Condition.whereParts s.condition ++ ending)) = _
  rw [Part.columns_append, Part.columns_append, Join.columns_parts, s.columns_whereParts]

end Select

/-! ### Scoped texts -/

/-- **Scoping of a text**: no name is given twice, the selected columns are of tables that are named, and
    all others of tables that are named before. -/
structure Layout.IsScoped (layout : Layout) : Prop where
  nodup : (Part.names layout.behind).Nodup
  selected : ∀ c ∈ Part.columns layout.selected, tableAlias c.table ∈ Part.names layout.behind
  behind : Part.ReadsNamed [] layout.behind

/-- The names of joins stand in front of what uses them. -/
theorem readsNamed_joins {before after : List Join}
    (h : ∀ front join back, before ++ after = front ++ join :: back →
      tableAlias join.parent ∈ aliases front) :
    Part.ReadsNamed (aliases before) (after.flatMap Join.parts) := by
  induction after generalizing before with
  | nil => trivial
  | cons join after ih =>
    have hnames : aliases (before ++ [join]) = aliases before ++ [tableAlias join.table] := by
      rw [aliases, List.map_append, aliases, List.map_singleton, List.cons_append]
    have hparent := h before join after rfl
    have hrest : Part.ReadsNamed (aliases before ++ [tableAlias join.table])
        (after.flatMap Join.parts) := by
      rw [← hnames]
      refine ih fun front next back heq => h front next back ?_
      rw [← heq, List.append_assoc, List.singleton_append]
    -- The join names its own table before its condition compares the two columns.
    exact ⟨List.mem_append_right _ List.mem_cons_self, List.mem_append_left _ hparent, hrest⟩

/-- **What is well scoped is so in its text.** -/
theorem Scoped.layout {plan : JoinPlan} {columns : List Column} {s : Select} {selected ending : List Part}
    (h : Scoped plan columns) (hending : Part.tables ending = [])
    (hcolumns : ∀ c ∈ Part.columns selected ++ s.conditionColumns ++ Part.columns ending, c ∈ columns) :
    (s.layout selected plan ending).IsScoped := by
  rw [List.forall_mem_append, List.forall_mem_append] at hcolumns
  obtain ⟨⟨hselected, hcondition⟩, hused⟩ := hcolumns
  have hnames : Part.names (s.layout selected plan ending).behind = aliases plan.joins := by
    rw [Part.names, Select.tables_layout hending, List.map_cons, List.map_map]
    rfl
  refine ⟨hnames ▸ h.aliases_nodup, fun c hc => ?_, ?_⟩
  · rw [hnames]
    exact h.columns c (hselected c hc)
  -- The root has its name, then the joins have theirs, and then nothing is named any more.
  show Part.ReadsNamed (aliases []) (plan.joins.flatMap Join.parts ++ (Condition.whereParts s.condition ++
    ending))
  have hjoined : aliases [] ++ Part.names (plan.joins.flatMap Join.parts) = aliases plan.joins := by
    rw [Part.names, Join.tables_parts, List.map_map]
    rfl
  rw [Part.readsNamed_append, hjoined]
  refine ⟨readsNamed_joins h.parents, Part.readsNamed_of_names ?_ ?_⟩
  · rw [Part.names, Part.tables_append, s.tables_whereParts, hending]
    rfl
  · rw [Part.columns_append, s.columns_whereParts, List.forall_mem_append]
    exact ⟨fun c hc => h.columns c (hcondition c hc), fun c hc => h.columns c (hused c hc)⟩

namespace Select

variable {s : Select}

/-- The content selects the columns of its list, whether only distinct rows count or not. -/
theorem columns_contentParts (s : Select) :
    Part.columns s.contentParts = s.list.columns.map SelectColumn.column := by
  have hlist : Part.columns s.list.parts = s.list.columns.map SelectColumn.column := by
    rw [SelectList.parts, Part.columns_intercalate, List.map_eq_flatMap]
    rfl
  rw [contentParts, Part.columns_append, hlist]
  cases s.distinctKey.isSome <;> rfl

/-- The count selects the column that tells the rows apart, if there is one. -/
theorem columns_countParts (s : Select) : Part.columns s.countParts = s.distinctKey.toList := by
  unfold countParts
  cases s.distinctKey <;> rfl

/-- An order uses its columns. -/
theorem columns_orderParts (s : Select) : Part.columns s.orderParts = s.order.map Prod.fst := by
  show Part.columns ([.text ", "].intercalate (s.order.map Part.ofTerm)) = _
  rw [Part.columns_intercalate, List.map_eq_flatMap]
  rfl

/-- And it names no table. -/
theorem tables_orderParts (s : Select) : Part.tables s.orderParts = [] :=
  Part.tables_intercalate ", " fun _ _ => rfl

end Select

/-- **The texts of a compiled query are well scoped.**  Each of its statements is the layout of its select
    that belongs to it, written down, and what the joins and columns of the select promise holds of the
    text. -/
theorem compile_rendered {schema : Schema} {q : Query} {c : Compiled} (h : q.compile schema = .ok c) :
    ∃ s, Select.ofQuery schema q = .ok s ∧ c = s.compiled q ∧
      (s.content = s.contentLayout.statement ∧ s.contentLayout.IsScoped) ∧
      (s.count = s.countLayout.statement ∧ s.countLayout.IsScoped) ∧
      (s.existence = s.existenceLayout.statement ∧ s.existenceLayout.IsScoped) := by
  obtain ⟨s, hs, h⟩ := bind_eq_ok_iff.1 h
  rw [pure_eq_ok_iff] at h
  have hplanned := Select.plannedFor_of_ofQuery hs
  refine ⟨s, hs, h.symm, ⟨s.content_eq, ?_⟩, ⟨s.count_eq, ?_⟩, s.existence_eq, ?_⟩
  · refine hplanned.scoped_content.layout s.tables_orderParts fun c hc => ?_
    rwa [s.columns_contentParts, s.columns_orderParts] at hc
  · refine hplanned.scoped_count.layout rfl fun c hc => ?_
    rwa [s.columns_countParts, Part.columns, List.filterMap_nil, List.append_nil] at hc
  · refine hplanned.scoped_existence.layout rfl fun c hc => ?_
    rwa [Part.columns, Part.columns, List.filterMap_nil, List.append_nil] at hc

end EntityQuery
