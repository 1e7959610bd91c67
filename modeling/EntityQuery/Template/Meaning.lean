import EntityQuery.Number.Whole
import EntityQuery.Schema.Resolution
import EntityQuery.Template.Grammar

namespace EntityQuery

/-!
# Meaning of templates

Aliases stand for paths from the root entity, joins for joins along such paths, and parameters for
slots. Names are looked up in a fixed order: entity, joins, select list, condition, order; the first
one that is not found is the defect.
-/

/-- Why a text is no template over a schema. -/
inductive TemplateDefect where
  | badPath (defect : PathDefect)
  | unreadable
  | unknownEntity (entity : String)
  | unknownAlias (base : String) (written : WrittenPath)
  | entityAsProperty (written : WrittenPath)
  | badPosition (digits : List Char) (fault : WholeFault)
  | zeroPosition
  | mixedParameters
  | badInteger (digits : List Char) (fault : WholeFault)
  | associationTest (written : WrittenPath)
  | collectionJoin (association : String)
  | fieldJoin (field : String)
  | bulkCrosses (path : Path)
  | noRootField (written : WrittenPath) (entity : String)
deriving DecidableEq, Repr

/-- What is said of each defect, with the path or the number as it is written. -/
def TemplateDefect.message : TemplateDefect → String
  | .badPath defect => defect.message
  | .unreadable => "template does not parse:"
  | .unknownEntity entity => s!"unknown entity '{entity}'"
  | .unknownAlias base written => s!"unknown alias '{base}' in '{written.text}'"
  | .entityAsProperty written =>
    s!"'{written.text}' names an entity where a property is expected"
  | .badPosition digits fault =>
    "invalid parameter '?" ++ String.ofList digits ++ "': " ++ fault.message
  | .zeroPosition => "positional parameters start at ?1"
  | .mixedParameters => "named and positional parameters cannot be mixed"
  | .badInteger digits fault => "invalid integer '" ++ String.ofList digits ++ "': " ++ fault.message
  | .associationTest written =>
    s!"'{written.text}' is an association and can only be tested with 'is [not] null'"
  | .collectionJoin association => s!"collection join on '{association}' is not supported"
  | .fieldJoin field => s!"cannot join on field '{field}'"
  | .bulkCrosses path => s!"bulk statements cannot traverse associations ('{path.text}')"
  | .noRootField written entity => s!"'{written.text}' is not a field of {entity}"

instance : MonadLift (Except PathDefect) (Except TemplateDefect) := ⟨Except.mapError .badPath⟩

/-- A select template whose names were all found. -/
structure SelectTemplate where
  entity : Entity
  distinct : Bool
  joins : List JoinRequest
  selections : List Selection
  target : Target
  countOnly : Bool
  predicate : Option Predicate
  order : SortOrder
  slots : List Slot

/-- A template with its meaning: a query, or a change of many rows. -/
inductive Template where
  | select (select : SelectTemplate)
  | bulk (bulk : BulkQuery)

namespace Template

/-! ### Paths -/

/-- The schema, the root entity and the aliases, the latest one first. -/
structure Scope where
  schema : Schema
  root : Entity
  aliases : List (String × Path)

namespace Scope

/-- The scope at the start of a statement: its entity, under the alias it is given. -/
def ofEntity (schema : Schema) (entity knownAs : String) : Except TemplateDefect Scope :=
  match schema.entity? entity with
  | some root => .ok ⟨schema, root, [(knownAs, ⟨[]⟩)]⟩
  | none => .error (.unknownEntity entity)

/-- The scope behind a join, which may name what it joins. A later alias hides an earlier one of the same
    name. -/
def withAlias (scope : Scope) (knownAs : Option String) (path : Path) : Scope :=
  match knownAs with
  | some name => { scope with aliases := (name, path) :: scope.aliases }
  | none => scope

/-- The path from the root; it is empty for the alias of the root. -/
def path (scope : Scope) (written : WrittenPath) : Except TemplateDefect Path :=
  match scope.aliases.lookup written.base with
  | some base => .ok ⟨base.segments ++ written.properties⟩
  | none => .error (.unknownAlias written.base written)

/-- What a path over the scope's entity leads to. -/
def resolve (scope : Scope) (path : Path) : Except TemplateDefect Resolution := do
  scope.schema.resolve scope.root path

/-- The path of a property. -/
def property (scope : Scope) (written : WrittenPath) : Except TemplateDefect Path := do
  let path ← scope.path written
  if path.segments.isEmpty then throw (.entityAsProperty written)
  let _ ← scope.resolve path
  return path

/-- A field of the root itself. -/
def rootField (scope : Scope) (written : WrittenPath) : Except TemplateDefect Field := do
  let r ← scope.resolve (← scope.path written)
  match r.field? with
  | some field => if r.crossesAssociation then throw (.noRootField written scope.root.name) else return field
  | none => throw (.noRootField written scope.root.name)

end Scope

/-! ### Slots -/

/-- The slots that were met, and the kinds of parameter among them. -/
structure Numbering where
  slots : List Slot := []
  named : Bool := false
  positional : Bool := false
deriving DecidableEq, Repr

namespace Numbering

/-- Parameters are all named or all positional; a slot is kept once. -/
def keep (n : Numbering) (slot : Slot) : Except TemplateDefect (Slot × Numbering) :=
  if n.named && n.positional then .error .mixedParameters
  else .ok (slot, if n.slots.contains slot then n else { n with slots := n.slots ++ [slot] })

/-- The slot of a named parameter: names are numbered by their first appearance. -/
def forName (n : Numbering) (name : String) : Except TemplateDefect (Slot × Numbering) :=
  let slot := (n.slots.find? (·.name == some name)).getD ⟨n.slots.length, some name⟩
  { n with named := true }.keep slot

/-- The slot of a positional parameter. -/
def forPosition (n : Numbering) (digits : List Char) : Except TemplateDefect (Slot × Numbering) :=
  match Whole.parseUnsigned digits with
  | .error fault => .error (.badPosition digits fault)
  | .ok 0 => .error .zeroPosition
  | .ok (index + 1) => { n with positional := true }.keep ⟨index, none⟩

/-- All slots by index. -/
def sorted (n : Numbering) : List Slot := n.slots.mergeSort fun a b => decide (a.index ≤ b.index)

end Numbering

/-- Work that meets parameters and can find a defect. -/
abbrev Resolving := StateT Numbering (Except TemplateDefect)

/-! ### Operands -/

/-- The value of a literal; only a whole number can be too large. -/
def literal : WrittenLiteral → Except TemplateDefect Value
  | .real negative whole decimals =>
    .ok (.real (Binary64.ofDecimal negative (Text.digitsValue (whole ++ decimals)) (-decimals.length)))
  | .integer digits =>
    match Whole.parseSigned digits with
    | .ok n => .ok (.integer n)
    | .error fault => .error (.badInteger digits fault)
  | .text s => .ok (.text s)
  | .boolean b => .ok (.boolean b)
  | .null => .ok .null

/-- The operand that is written: a slot, numbered as the parameters of the text are, or a value. -/
def operand : WrittenOperand → Resolving Operand
  | .named name => do return .slot (← fun n => n.forName name)
  | .positional digits => do return .slot (← fun n => n.forPosition digits)
  | .literal l => do return .literal (← (literal l : Except TemplateDefect _))

/-! ### Conditions -/

/-- The operator and the operand of a test. -/
def test : WrittenTest → Resolving (Operator × Operand)
  | .isNull => return (.isNull, .none)
  | .isNotNull => return (.isNotNull, .none)
  | .oneOf items => do return (.isIn, .literal (.list (← (items.mapM literal : Except TemplateDefect _))))
  | .compare operator o => do return (operator, ← operand o)

/-- A comparison; an association can only be tested for null, and only where it holds the key. -/
def comparison (scope : Scope) (written : WrittenPath) (t : WrittenTest) : Resolving Predicate := do
  let path ← (scope.path written : Except TemplateDefect _)
  let r ← (scope.resolve path : Except TemplateDefect _)
  let (operator, o) ← test t
  match r.association? with
  | some a =>
    if a.isToOne && operator.arity == 0 then return .comparison path operator o
    else throw (.associationTest written)
  | none => return .comparison path operator o

mutual

/-- The predicate of an atom; brackets around nothing mean nothing. -/
def atom (scope : Scope) : WrittenAtom → Resolving (Option Predicate)
  | .comparison written t => do return some (← comparison scope written t)
  | .group alternatives => do return Predicate.any (← conjunctions scope alternatives)

/-- The predicates of alternatives. -/
def conjunctions (scope : Scope) : List (List WrittenAtom) → Resolving (List Predicate)
  | [] => return []
  | atoms :: more => do
    let p := Predicate.all (← atomsOf scope atoms)
    return p.toList ++ (← conjunctions scope more)

/-- The predicates of atoms. -/
def atomsOf (scope : Scope) : List WrittenAtom → Resolving (List Predicate)
  | [] => return []
  | a :: more => do
    let p ← atom scope a
    return p.toList ++ (← atomsOf scope more)

end

/-- The predicate of a condition. -/
def condition (scope : Scope) (c : WrittenCondition) : Resolving (Option Predicate) := do
  return Predicate.any (← conjunctions scope c)

/-- The condition of a statement, where it has one. -/
def optionalCondition (scope : Scope) : Option WrittenCondition → Resolving (Option Predicate)
  | none => return none
  | some c => condition scope c

/-! ### Values -/

/-- The sum that waited for a last term, if there is one. -/
def closeSum (last : ValueExpr) : Option (ValueExpr × ArithmeticOperator) → ValueExpr
  | none => last
  | some (sum, operator) => .binary operator sum last

/-- Terms and operators as a tree: products first, and both products and sums from the left. -/
def byPrecedence (sum : Option (ValueExpr × ArithmeticOperator)) (product : ValueExpr) :
    List (ArithmeticOperator × ValueExpr) → ValueExpr
  | [] => closeSum product sum
  | (operator, term) :: more =>
    if operator.isProduct then byPrecedence sum (.binary operator product term) more
    else byPrecedence (some (closeSum product sum, operator)) term more

mutual

/-- The value of an assignment; a chain of terms is bracketed by precedence once each has its own meaning. -/
def value (scope : Scope) : WrittenValue → Resolving ValueExpr
  | .operand o => do return .operand (← operand o)
  | .path written => do return .field (← (scope.rootField written : Except TemplateDefect _))
  | .chain first more => do
    let first ← value scope first
    return byPrecedence none first (← valuesOf scope more)

/-- The terms of a chain behind its first, with their signs. -/
def valuesOf (scope : Scope) :
    List (ArithmeticOperator × WrittenValue) → Resolving (List (ArithmeticOperator × ValueExpr))
  | [] => return []
  | (operator, term) :: more => do
    let term ← value scope term
    return (operator, term) :: (← valuesOf scope more)

end

/-! ### Statements -/

/-- A join names a to-one association, which its alias then stands for. -/
def join (scope : Scope) (j : WrittenJoin) : Except TemplateDefect (JoinRequest × Scope) := do
  let path ← scope.path j.path
  match (← scope.resolve path).terminal with
  | .field f => throw (.fieldJoin f.name)
  | .association a =>
    if a.isToOne then return (⟨path, j.kind, j.fetch⟩, scope.withAlias j.knownAs path)
    else throw (.collectionJoin a.name)

/-- All joins in order; a later one can use the aliases of those before it. -/
def joinsOf (scope : Scope) : List WrittenJoin → Except TemplateDefect (List JoinRequest × Scope)
  | [] => return ([], scope)
  | j :: more => do
    let (request, scope) ← join scope j
    let (requests, scope) ← joinsOf scope more
    return (request :: requests, scope)

/-- A selected property, which is read under its alias or else under its own name. -/
def selection (scope : Scope) (item : SelectItem) : Except TemplateDefect Selection := do
  let path ← scope.property item.path
  return ⟨path, item.label.getD path.leaf⟩

/-- The target of a select list: a single value, or a view with an entry for each column. -/
def listTarget : List Selection → Target
  | [s] => .scalar s.path
  | selections => .closed (.mk "Tuple" (selections.map fun s => .field s.label))

/-- The selected columns, the target they make up, and whether rows are only counted. The alias of
    the root alone selects the whole entity. -/
def clause (scope : Scope) : SelectClause → Except TemplateDefect (List Selection × Target × Bool)
  | .count _ written => do
    let _ ← scope.path written
    return ([], .entity, true)
  | .construct type items => do
    let selections ← items.mapM (selection scope)
    return (selections, .constructor ⟨type, selections.map (·.label)⟩, false)
  | .items [item] => do
    if (← scope.path item.path).segments.isEmpty then return ([], .entity, false)
    else
      let s ← selection scope item
      return ([s], listTarget [s], false)
  | .items items => do
    let selections ← items.mapM (selection scope)
    return (selections, listTarget selections, false)

/-- One term of a written order. -/
def orderTerm (scope : Scope) (o : WrittenOrder) : Except TemplateDefect SortDirective := do
  return ⟨← scope.property o.path, o.direction⟩

/-- The meaning of a query. The joins come first, since what is selected may use their aliases. -/
def ofSelect (schema : Schema) (w : WrittenSelect) : Except TemplateDefect SelectTemplate := do
  let scope ← Scope.ofEntity schema w.entity w.knownAs
  let (joins, scope) ← joinsOf scope w.joins
  let (selections, target, countOnly) ← clause scope w.clause
  let (predicate, numbering) ← (optionalCondition scope w.condition).run {}
  let order ← w.order.mapM (orderTerm scope)
  return ⟨scope.root, w.distinct, joins, selections, target, countOnly, predicate, order,
    numbering.sorted⟩

/-- The meaning of an assignment, to a field of the entity itself. -/
def assignment (scope : Scope) (a : WrittenPath × WrittenValue) : Resolving Assignment := do
  let field ← (scope.rootField a.1 : Except TemplateDefect _)
  return ⟨field, ← value scope a.2⟩

/-- The meaning of what a bulk statement does. -/
def mutation (scope : Scope) : WrittenMutation → Resolving Mutation
  | .update assignments => do return .update (← assignments.mapM (assignment scope))
  | .delete => return .delete

/-- The condition of an update or delete stays within the rows of the entity. -/
def checkOwnPath (scope : Scope) (path : Path) : Except TemplateDefect Unit := do
  if (← scope.resolve path).crossesAssociation then throw (.bulkCrosses path)

/-- The meaning of a bulk statement; its parameters are numbered through the assignments and then the
    condition, as they stand in the text. Paths that leave the entity are refused at the end. -/
def ofBulk (schema : Schema) (w : WrittenBulk) : Except TemplateDefect BulkQuery := do
  let scope ← Scope.ofEntity schema w.entity w.knownAs
  let ((m, predicate), numbering) ← StateT.run (s := {}) do
    let m ← mutation scope w.mutation
    return (m, ← optionalCondition scope w.condition)
  ((predicate.map Predicate.paths).getD []).forM (checkOwnPath scope)
  return ⟨scope.root, m, predicate, numbering.sorted⟩

/-- The template that a text holds. -/
def parse (schema : Schema) (text : String) : Except TemplateDefect Template :=
  match Grammar.parse? text with
  | none => .error .unreadable
  | some (.select w) => do return .select (← ofSelect schema w)
  | some (.bulk w) => do return .bulk (← ofBulk schema w)

end Template

end EntityQuery
