import EntityQuery.Proofs.Statement.MarkFree
import EntityQuery.Repository.Arguments

namespace EntityQuery

/-!
# Bound values follow the predicate

A statement that is bound holds the values of its predicate in visiting order, behind those of its
assignments and before those of its window, and each question mark of its text takes the value of
the operand that it was written for (`bound_values_follow`).  The pieces of whole statements are put
together from those of their parts first.
-/

open JoinPlan

variable {schema : Schema} {lookup : Slot → Except ParameterFault Value}

/-! ### Pieces without question marks -/

/-- No operator is written with a question mark. -/
theorem Operator.isMarkFree_sql (operator : Operator) : IsMarkFree operator.sql := by
  cases operator <;> decide

/-- Nor is one of arithmetic. -/
theorem ArithmeticOperator.isMarkFree_sql (operator : ArithmeticOperator) :
    IsMarkFree operator.sql := by
  cases operator <;> decide

namespace Predicate

variable {name : Path → String}

/-- A test has marks for its values only, if its column has none. -/
theorem Test.allMarkFree_pieces {t : Test} (h : IsMarkFree (name t.path)) :
    Piece.AllMarkFree (t.pieces name lookup) := by
  have hspace : IsMarkFree " " := by decide
  have htest := (h.append hspace).append t.operator.isMarkFree_sql
  unfold pieces
  split
  · simp [htest]
  · simp [htest]
  · simp [htest.append hspace, Piece.allMarkFree_ofList]
  · simp [htest.append hspace, Piece.allMarkFree_map_mark]

/-- So has a predicate. -/
theorem allMarkFree_pieces {p : Predicate} (h : ∀ path ∈ p.paths, IsMarkFree (name path)) :
    Piece.AllMarkFree (p.pieces name lookup) := by
  induction p with
  | comparison path operator operand =>
    exact Test.allMarkFree_pieces (h path (List.mem_singleton_self path))
  | and l r ihl ihr | or l r ihl ihr =>
    rw [paths, List.forall_mem_append] at h
    simp only [pieces, Piece.allMarkFree_text, Piece.allMarkFree_append, Piece.allMarkFree_nil,
      ihl h.1, ihr h.2, and_true, true_and]
    decide

/-- And so has a condition. -/
theorem allMarkFree_wherePieces {p : Option Predicate}
    (h : ∀ q, p = some q → ∀ path ∈ q.paths, IsMarkFree (name path)) :
    Piece.AllMarkFree (wherePieces name lookup p) := by
  cases p with
  | none => exact Piece.allMarkFree_nil
  | some p =>
    rw [wherePieces, Piece.allMarkFree_text]
    exact ⟨by decide, allMarkFree_pieces (h p rfl)⟩

end Predicate

/-- And a window. -/
theorem Statement.allMarkFree_windowPieces (limit : Option Nat) (offset : Nat) :
    Piece.AllMarkFree (windowPieces limit offset) := by
  cases limit <;> cases offset <;>
    simp only [windowPieces, Piece.allMarkFree_text, Piece.allMarkFree_mark,
      Piece.allMarkFree_nil, and_true] <;> decide

/-- Every field that a value is computed from. -/
def ValueExpr.fields : ValueExpr → List Field
  | .operand _ => []
  | .field f => [f]
  | .binary _ l r => l.fields ++ r.fields

/-- An expression has marks for its operands only. -/
theorem ValueExpr.allMarkFree_pieces {e : ValueExpr} (h : ∀ f ∈ e.fields, IsMarkFree f.column) :
    Piece.AllMarkFree (e.pieces lookup) := by
  induction e with
  | operand o =>
    cases o with
    -- Without an operand the expression is the word for null.
    | none => simp only [pieces, Piece.allMarkFree_text, Piece.allMarkFree_nil, and_true]; decide
    | slot s => exact Piece.allMarkFree_map_mark _
    | literal v => exact Piece.allMarkFree_map_mark _
  | field f =>
    simp only [pieces, Piece.allMarkFree_text, Piece.allMarkFree_nil, and_true]
    exact h f (List.mem_singleton_self f)
  | binary operator l r ihl ihr =>
    rw [fields, List.forall_mem_append] at h
    have hoperator : IsMarkFree (" " ++ operator.sql ++ " ") :=
      (IsMarkFree.append (by decide) operator.isMarkFree_sql).append (by decide)
    simp only [pieces, Piece.allMarkFree_text, Piece.allMarkFree_append, Piece.allMarkFree_nil,
      ihl h.1, ihr h.2, hoperator, and_true, true_and]
    decide

/-- Every field that a mutation assigns or reads. -/
def Mutation.fields : Mutation → List Field
  | .delete => []
  | .update assignments => assignments.flatMap fun a => a.field :: a.value.fields

/-- So has an assignment. -/
theorem Assignment.allMarkFree_pieces {a : Assignment}
    (h : ∀ f ∈ a.field :: a.value.fields, IsMarkFree f.column) :
    Piece.AllMarkFree (a.pieces lookup) := by
  rw [List.forall_mem_cons] at h
  rw [pieces, Piece.allMarkFree_text]
  exact ⟨h.1.append (by decide), ValueExpr.allMarkFree_pieces h.2⟩

/-- And so has a mutation of a table without question marks. -/
theorem Mutation.allMarkFree_pieces {table : String} (htable : IsMarkFree table) {m : Mutation}
    (h : ∀ f ∈ m.fields, IsMarkFree f.column) : Piece.AllMarkFree (m.pieces lookup table) := by
  cases m with
  | delete =>
    simp only [pieces, Piece.allMarkFree_text, Piece.allMarkFree_nil, and_true]
    exact IsMarkFree.append (by decide) htable
  | update assignments =>
    cases assignments with
    | nil => exact Piece.allMarkFree_nil
    | cons a more =>
      rw [fields, List.flatMap_cons, List.forall_mem_append] at h
      rw [pieces, Piece.allMarkFree_text, Piece.allMarkFree_append]
      -- The first assignment stands behind the table's name, and each further one behind a comma.
      refine ⟨(IsMarkFree.append (by decide) htable).append (by decide),
        Assignment.allMarkFree_pieces h.1, Piece.allMarkFree_flatMap fun b hb => ?_⟩
      rw [Piece.allMarkFree_text]
      refine ⟨by decide, Assignment.allMarkFree_pieces fun f hf => ?_⟩
      exact h.2 f (List.mem_flatMap.2 ⟨b, hb, hf⟩)

/-! ### Selects -/

/-- The text of the column of a path. -/
def JoinPlan.columnText (schema : Schema) (root : Entity) (plan : JoinPlan) (path : Path) : String :=
  match plan.column schema root path with
  | .ok (c, _) => c.text
  | .error _ => ""

/-- The text of a column is free of question marks. -/
theorem JoinPlan.isMarkFree_columnText {root : Entity} (hnames : schema.MarkFree root)
    (plan : JoinPlan) (path : Path) : IsMarkFree (plan.columnText schema root path) := by
  unfold columnText
  split
  · rename_i c _ hcolumn
    exact Column.isMarkFree_text (markFree_of_column hnames hcolumn)
  · decide

namespace Select

variable {q : Query} {s : Select}

/-- The text in front of the condition. -/
def headText (s : Select) (selected : String) (plan : JoinPlan) : String :=
  "SELECT " ++ selected ++ " FROM " ++ s.root.table ++ " " ++ tableAlias 0 ++ plan.text

/-- The pieces of a statement of a select: its head, the condition, and its end. -/
theorem ofPieces_statement (h : PlannedFor schema q s) (selected : String) (plan : JoinPlan)
    (ending : List Fragment) :
    Bound.ofPieces (Fragment.allPieces lookup (s.statement selected plan ending).fragments) =
      .ofPieces (.text (s.headText selected plan) ::
        (Predicate.wherePieces (s.plan.columnText schema q.entity) lookup q.predicate ++
          Fragment.allPieces lookup ending)) := by
  have hwhere : Fragment.allPieces lookup (Condition.whereFragments Column.text s.condition) =
      Predicate.wherePieces (s.plan.columnText schema q.entity) lookup q.predicate := by
    refine Condition.allPieces_whereFragments h.condition fun p _ path _ c hc => ?_
    simp only [bind_eq_ok_iff, pure_eq_ok_iff] at hc
    obtain ⟨⟨_, type⟩, hcolumn, rfl⟩ := hc
    rw [columnText, hcolumn]
  rw [statement, Statement.ofPieces_ofFragments, Fragment.allPieces_cons, Fragment.allPieces_append,
    hwhere]
  rfl

/-- No question mark stands in the head of a statement over some joins of the plan. -/
theorem isMarkFree_headText (hnames : q.MarkFree schema) (h : PlannedFor schema q s) {selected : String}
    (hselected : IsMarkFree selected) {plan : JoinPlan} (hplan : IsMarkFree plan.text) :
    IsMarkFree (s.headText selected plan) := by
  have htable : IsMarkFree s.root.table := h.root ▸ hnames.root.table
  exact (((((IsMarkFree.append (by decide) hselected).append (by decide)).append htable).append
    (by decide)).append (isMarkFree_tableAlias 0)).append hplan

/-- A key that is counted has a name without question marks. -/
theorem isMarkFree_distinctKey (hnames : q.MarkFree schema) (h : PlannedFor schema q s)
    {key : Column} (hkey : s.distinctKey = some key) : IsMarkFree key.text := by
  cases hd : q.distinct with
  | false => rw [h.plain hd] at hkey; cases hkey
  | true =>
    obtain ⟨name, hname, hsome⟩ := h.distinct hd
    rw [hsome] at hkey
    cases hkey
    exact Column.isMarkFree_text (isMarkFree_idColumn hnames.root hname)

/-- A statement of a select: text, the condition of the predicate, and text again. -/
def HasPieces (schema : Schema) (q : Query) (s : Select) (statement : Statement) (head tail : String) :
    Prop :=
  ∀ lookup, Bound.ofPieces (Fragment.allPieces lookup statement.fragments) =
    .ofPieces (.text head :: (Predicate.wherePieces (s.plan.columnText schema q.entity) lookup
      q.predicate ++ [.text tail]))

/-- The content of a select is its condition between two texts. -/
theorem exists_pieces_content (h : Select.ofQuery schema q = .ok s) :
    ∃ head tail, HasPieces schema q s s.content head tail ∧
      (q.MarkFree schema → IsMarkFree head ∧ IsMarkFree tail) := by
  have hplanned := plannedFor_of_ofQuery h
  refine ⟨_, s.orderText, fun lookup => ofPieces_statement hplanned _ _ _, fun hnames => ⟨?_, ?_⟩⟩
  · have hdistinct : IsMarkFree (if s.distinctKey.isSome then "DISTINCT " else "") := by
      split <;> decide
    exact isMarkFree_headText hnames hplanned (hdistinct.append (isMarkFree_listText hnames h))
      (hplanned.planned.isMarkFree_text hnames.toMarkFree)
  · exact isMarkFree_orderText hnames h

/-- Statements that leave out the joins for reading, and the order. -/
theorem exists_pieces_filtering (h : Select.ofQuery schema q = .ok s) (selected : String)
    (hselected : q.MarkFree schema → IsMarkFree selected) :
    ∃ head tail, HasPieces schema q s (s.statement selected s.plan.filtering []) head tail ∧
      (q.MarkFree schema → IsMarkFree head ∧ IsMarkFree tail) := by
  have hplanned := plannedFor_of_ofQuery h
  refine ⟨s.headText selected s.plan.filtering, "", fun lookup => ?_, fun hnames => ⟨?_, ?_⟩⟩
  · -- Nothing follows the condition.
    rw [ofPieces_statement hplanned]
    simp [Bound.ofPieces, Piece.sql]
  · exact isMarkFree_headText hnames hplanned (hselected hnames)
      (hplanned.planned_filtering.isMarkFree_text hnames.toMarkFree)
  · decide

/-- So is its count. -/
theorem exists_pieces_count (h : Select.ofQuery schema q = .ok s) :
    ∃ head tail, HasPieces schema q s s.count head tail ∧
      (q.MarkFree schema → IsMarkFree head ∧ IsMarkFree tail) := by
  refine exists_pieces_filtering h _ fun hnames => ?_
  split
  · rename_i key hkey
    exact (IsMarkFree.append (by decide)
      (isMarkFree_distinctKey hnames (plannedFor_of_ofQuery h) hkey)).append (by decide)
  · decide

/-- **Each compiled statement is the condition between two texts.** -/
theorem exists_pieces (h : Select.ofQuery schema q = .ok s) {statement : Statement}
    (hstatement : (s.compiled q).content = statement ∨ (s.compiled q).count = some statement) :
    ∃ head tail, HasPieces schema q s statement head tail ∧
      (q.MarkFree schema → IsMarkFree head ∧ IsMarkFree tail) := by
  unfold compiled at hstatement
  rcases hstatement with rfl | hcount
  · dsimp only
    -- A count, an existence check and a content are built alike; they differ in what stands around the
    -- condition.
    split
    · exact exists_pieces_count h
    · exact exists_pieces_filtering h _ fun _ => by decide
    · exact exists_pieces_content h
  · dsimp only at hcount
    split at hcount
    · cases hcount
      exact exists_pieces_count h
    · cases hcount

end Select

/-! ### Statements as the store reads them -/

/-- **A bound statement follows its pieces.**  The store, which gives the values to the question
    marks in order, reads just these pieces, and there are as many values as question marks. -/
structure Bound.Follows (b : Bound) (pieces : List Piece) : Prop where
  filled : b.filled = some (pieces.flatMap Piece.items)
  marks : b.sql.toList.count '?' = b.values.length

/-- Pieces that have no marks in their text are followed by what they are bound to. -/
theorem Bound.follows_ofPieces {pieces : List Piece} (h : Piece.AllMarkFree pieces) :
    (Bound.ofPieces pieces).Follows pieces where
  filled := filled_ofPieces h
  marks := count_of_fill (filled_ofPieces h)

/-- No question mark stands in a name that an update or delete uses. -/
structure BulkQuery.MarkFree (schema : Schema) (q : BulkQuery) : Prop
    extends schema.MarkFree q.entity where
  fields : ∀ f ∈ q.mutation.fields, IsMarkFree f.column

/-- The column of a path as an update or delete writes it. -/
def BulkQuery.columnText (schema : Schema) (root : Entity) (path : Path) : String :=
  match BulkQuery.column schema root path with
  | .ok name => name
  | .error _ => ""

/-- The column of a bulk statement is free of question marks. -/
theorem BulkQuery.isMarkFree_columnText {root : Entity} (hnames : schema.MarkFree root)
    (path : Path) : IsMarkFree (columnText schema root path) := by
  unfold columnText
  split
  · rename_i name hname
    obtain ⟨r, hr, _, hterminal⟩ := column_eq_ok_iff.1 hname
    obtain ⟨hfield, hkey⟩ := (resolved_of_resolve hr).markFree_column hnames
    rcases hterminal with ⟨f, hterminal, rfl⟩ | ⟨a, hterminal, hkeyed⟩
    · exact hfield f hterminal
    · exact hkey a name hterminal hkeyed
  · decide

/-- **Bound values follow the predicate.**  For a select, its count or its existence test, windowed
    or not: the values are those of the predicate in visiting order, then the limit and the offset,
    and where no name holds a question mark, each question mark takes the value of its operand.  For
    an update or delete the values of the assignments come first. -/
theorem bound_values_follow (schema : Schema) :
    (∀ (q : Query) (c : Compiled) (statement windowed : Statement) (limit : Option Nat)
        (offset : Nat) (args : CallArguments) (bound : Bound),
      q.compile schema = .ok c → (c.content = statement ∨ c.count = some statement) →
      statement.window limit offset = .ok windowed → windowed.bind args.lookup = .ok bound →
      bound.values = Predicate.optionalValues args.lookup q.predicate ++
          Statement.windowValues limit offset ∧
        (q.MarkFree schema → ∃ s head tail, Select.ofQuery schema q = .ok s ∧
          bound.Follows (.text head ::
            (Predicate.wherePieces (s.plan.columnText schema q.entity) args.lookup q.predicate ++
              .text tail :: Statement.windowPieces limit offset)))) ∧
    (∀ (q : BulkQuery) (statement : Statement) (args : CallArguments) (bound : Bound),
      q.compile schema = .ok statement → statement.bind args.lookup = .ok bound →
      bound.values = q.mutation.values args.lookup ++
          Predicate.optionalValues args.lookup q.predicate ∧
        (q.MarkFree schema → bound.Follows (q.mutation.pieces args.lookup q.entity.table ++
          Predicate.wherePieces (BulkQuery.columnText schema q.entity) args.lookup
            q.predicate))) := by
  constructor
  · intro q c statement windowed limit offset args bound hc hstatement hwindow hbind
    obtain ⟨s, hs, hcompiled⟩ := bind_eq_ok_iff.1 hc
    obtain rfl := pure_eq_ok_iff.1 hcompiled
    obtain ⟨head, tail, hpieces, hfree⟩ := Select.exists_pieces hs hstatement
    -- The window adds its pieces behind those of the statement.
    have hbound : bound = .ofPieces (.text head ::
        (Predicate.wherePieces (s.plan.columnText schema q.entity) args.lookup q.predicate ++
          .text tail :: Statement.windowPieces limit offset)) := by
      rw [Statement.bind_eq_ofPieces_fragments hbind, Statement.ofPieces_window hwindow,
        Bound.ofPieces_append_congr (hpieces args.lookup)]
      simp
    rw [hbound]
    constructor
    · simp [Bound.ofPieces, Predicate.values_wherePieces, Statement.values_windowPieces]
    · intro hnames
      obtain ⟨hhead, htail⟩ := hfree hnames
      refine ⟨s, head, tail, hs, Bound.follows_ofPieces ?_⟩
      rw [Piece.allMarkFree_text, Piece.allMarkFree_append, Piece.allMarkFree_text]
      exact ⟨hhead, Predicate.allMarkFree_wherePieces fun _ _ path _ =>
          isMarkFree_columnText hnames.toMarkFree s.plan path,
        htail, Statement.allMarkFree_windowPieces limit offset⟩
  · intro q statement args bound hstatement hbind
    unfold BulkQuery.compile at hstatement
    obtain ⟨mutation, hmutation, hstatement⟩ := bind_eq_ok_iff.1 hstatement
    obtain ⟨condition, hcondition, hstatement⟩ := bind_eq_ok_iff.1 hstatement
    obtain rfl := pure_eq_ok_iff.1 hstatement
    have hwhere : Fragment.allPieces args.lookup (Condition.whereFragments id condition) =
        Predicate.wherePieces (BulkQuery.columnText schema q.entity) args.lookup q.predicate := by
      refine Condition.allPieces_whereFragments hcondition fun p _ path _ name hname => ?_
      rw [BulkQuery.columnText, hname]
      rfl
    have hbound : bound = .ofPieces (q.mutation.pieces args.lookup q.entity.table ++
        Predicate.wherePieces (BulkQuery.columnText schema q.entity) args.lookup q.predicate) := by
      rw [Statement.bind_eq_ofPieces_fragments hbind, Statement.ofPieces_ofFragments,
        Fragment.allPieces_append, Mutation.allPieces_mutationFragments hmutation, hwhere]
    rw [hbound]
    constructor
    · simp [Bound.ofPieces, Predicate.values_wherePieces, Mutation.values_pieces]
    · intro hnames
      refine Bound.follows_ofPieces ?_
      rw [Piece.allMarkFree_append]
      exact ⟨Mutation.allMarkFree_pieces hnames.root.table hnames.fields,
        Predicate.allMarkFree_wherePieces fun _ _ path _ =>
          BulkQuery.isMarkFree_columnText hnames.toMarkFree path⟩

namespace Sample

/-- Members of some ages, of parts of a team or older than given. -/
def chosenMembers : Query where
  entity := member
  shape := .list
  predicate := some (.and (.comparison ⟨["age"]⟩ .isIn (.slot ⟨0, none⟩))
    (.or (.comparison ⟨["team", "parent", "id"]⟩ .equals (.literal (.integer 1)))
      (.comparison ⟨["age"]⟩ .greaterThan (.slot ⟨1, some "least"⟩))))

/-- Members without a team become older. -/
def agedMembers : BulkQuery where
  entity := member
  mutation := .update [⟨⟨"age", "age", .integer, true⟩,
    .binary .add (.field ⟨"age", "age", .integer, true⟩) (.operand (.slot ⟨1, some "least"⟩))⟩]
  predicate := some (.and (.comparison ⟨["age"]⟩ .isIn (.slot ⟨0, none⟩))
    (.comparison ⟨["team"]⟩ .isNull .none))

/-- A list of ages and a least one by name. -/
def chosenArguments : CallArguments where
  positional := [.list [.integer 30, .integer 41]]
  named := [("least", .integer 35)]

/-- No name of the league has a question mark. -/
theorem markFree_league : league.MarkFree member :=
  ⟨by decide, by decide⟩

end Sample

/-- The chosen members, two of them behind the first, and the members that age. -/
theorem bound_values_follow_league :
    (∃ c windowed bound, Sample.chosenMembers.compile Sample.league = .ok c ∧
      c.content.window (some 2) 1 = .ok windowed ∧
      windowed.bind Sample.chosenArguments.lookup = .ok bound ∧
      bound.values = [.integer 30, .integer 41, .integer 1, .integer 35, .integer 2, .integer 1] ∧
      bound.sql.toList.count '?' = 6) ∧
    ∃ statement bound, Sample.agedMembers.compile Sample.league = .ok statement ∧
      statement.bind Sample.chosenArguments.lookup = .ok bound ∧
      bound.values = [.integer 35, .integer 30, .integer 41] ∧
      bound.sql.toList.count '?' = 3 := by
  obtain ⟨hselect, hbulk⟩ := bound_values_follow Sample.league
  have hcompiles : ∃ c, Sample.chosenMembers.compile Sample.league = .ok c ∧
      ∃ windowed, c.content.window (some 2) 1 = .ok windowed ∧
        ∃ bound, windowed.bind Sample.chosenArguments.lookup = .ok bound :=
    ⟨_, rfl, _, rfl, _, rfl⟩
  have hchanges : ∃ statement, Sample.agedMembers.compile Sample.league = .ok statement ∧
      ∃ bound, statement.bind Sample.chosenArguments.lookup = .ok bound := ⟨_, rfl, _, rfl⟩
  obtain ⟨c, hc, windowed, hwindow, bound, hbind⟩ := hcompiles
  obtain ⟨statement, hstatement, changed, hchanged⟩ := hchanges
  obtain ⟨hvalues, hfollows⟩ := hselect _ c _ windowed _ _ _ bound hc (.inl rfl) hwindow hbind
  obtain ⟨hvalues', hfollows'⟩ := hbulk _ statement _ changed hstatement hchanged
  have hnames : Sample.chosenMembers.MarkFree Sample.league :=
    ⟨Sample.markFree_league, nofun, nofun⟩
  have hnames' : Sample.agedMembers.MarkFree Sample.league :=
    ⟨Sample.markFree_league, by decide⟩
  -- No name has a question mark, so the marks of the text are those of the values.
  obtain ⟨_, _, _, _, hmarks⟩ := hfollows hnames
  refine ⟨⟨c, windowed, bound, hc, hwindow, hbind, hvalues, ?_⟩, statement, changed, hstatement,
    hchanged, hvalues', ?_⟩
  · rw [hmarks.marks, hvalues]
    rfl
  · rw [(hfollows' hnames').marks, hvalues']
    rfl

end EntityQuery
