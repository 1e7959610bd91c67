import EntityQuery.Schema.Resolution
import Mathlib.Data.List.Basic

namespace EntityQuery

/-!
# Resolved paths

Segments can be followed along to-one associations to the entity that declares the last one
(`Crosses`).  That is what following them succeeds for, and a path is resolved exactly if it can be
followed and has no empty segment (`follow_eq_ok_iff`, `resolve_eq_ok_iff`).

So a resolved path is a walk to the entity that owns its last segment (`Leads`), and the last segment is a
property of that entity.  `resolved_of_resolve` reads both off a successful resolution.
-/

/-- The property of an entity with the given name; a field hides an association. -/
def Entity.property? (e : Entity) (name : String) : Option Terminal :=
  match e.fieldNamed? name with
  | some f => some (.field f)
  | none => (e.associationNamed? name).map .association

section Properties

variable {e : Entity} {name : String} {f : Field} {a : Association}

/-- A field is found under its name. -/
theorem Entity.mem_of_fieldNamed? (h : e.fieldNamed? name = some f) :
    f ∈ e.fields ∧ f.name = name :=
  ⟨List.mem_of_find?_eq_some h, by simpa using List.find?_some h⟩

/-- An association is found under its name. -/
theorem Entity.mem_of_associationNamed? (h : e.associationNamed? name = some a) :
    a ∈ e.associations ∧ a.name = name :=
  ⟨List.mem_of_find?_eq_some h, by simpa using List.find?_some h⟩

/-- A to-one association keeps its key in a column of its own table. -/
theorem Association.exists_kind_of_isToOne (h : a.isToOne = true) :
    ∃ foreignKey, a.kind = .toOne foreignKey := by
  unfold isToOne joinColumn? at h
  cases hkind : a.kind with
  | toOne foreignKey => exact ⟨foreignKey, rfl⟩
  | toMany mappedBy =>
    rw [hkind] at h
    cases h

/-- A property that is a field is the field of its name. -/
theorem Entity.fieldNamed?_of_property? (h : e.property? name = some (.field f)) :
    e.fieldNamed? name = some f := by
  unfold Entity.property? at h
  split at h
  · cases h
    assumption
  · obtain ⟨_, _, hsame⟩ := Option.map_eq_some_iff.1 h
    cases hsame

/-- One that is an association is the association of its name. -/
theorem Entity.associationNamed?_of_property? (h : e.property? name = some (.association a)) :
    e.associationNamed? name = some a := by
  unfold Entity.property? at h
  split at h
  · cases h
  · obtain ⟨_, hnamed, hsame⟩ := Option.map_eq_some_iff.1 h
    cases hsame
    exact hnamed

end Properties

/-- What ends in a field has that field at its end. -/
theorem Resolution.isField_iff {r : Resolution} : r.isField = true ↔ ∃ f, r.terminal = .field f := by
  unfold Resolution.isField Resolution.field?
  cases r.terminal <;> simp

/-- What ends in an association has that one. -/
theorem Resolution.association?_eq_some_iff {r : Resolution} {a : Association} :
    r.association? = some a ↔ r.terminal = .association a := by
  unfold Resolution.association?
  cases r.terminal <;> simp

/-! ### Paths and their parts -/

namespace Path

/-- The front of a path is one step shorter. -/
theorem length_parent (path : Path) : path.parent.segments.length = path.segments.length - 1 :=
  List.length_dropLast

/-- And it is a front part of it. -/
theorem parent_isPrefix (path : Path) : path.parent.segments <+: path.segments :=
  List.dropLast_prefix _

/-- A path that is not empty is its parent and its leaf. -/
theorem parent_append_leaf {path : Path} (h : path.segments ≠ []) :
    path.parent.segments ++ [path.leaf] = path.segments := by
  have hlast : path.leaf = path.segments.getLast h := by
    rw [leaf, List.getLast?_eq_some_getLast h, Option.getD_some]
  rw [hlast]
  exact List.dropLast_append_getLast h

end Path

/-! ### Segments that are followed -/

/-- Segments that can be followed from an entity: the to-one associations that are crossed on the way, the
    entity that declares the last segment, and what that is. -/
inductive Crosses (schema : Schema) :
    Entity → List String → List Association → Entity → Terminal → Prop where
  | last {e segment terminal} (declared : e.property? segment = some terminal) :
    Crosses schema e [segment] [] e terminal
  | across {e segment a next rest hops owner terminal}
    (declared : e.property? segment = some (.association a)) (toOne : a.isToOne = true)
    (target : schema.entity? a.target = some next)
    (onward : Crosses schema next rest hops owner terminal) :
    Crosses schema e (segment :: rest) (a :: hops) owner terminal

section Crossing

variable {schema : Schema} {e owner : Entity} {path : Path} {r : Resolution} {segment : String}
  {rest segments : List String} {hops : List Association} {terminal : Terminal}

/-- A path that leads somewhere has a step. -/
theorem Crosses.ne_nil (h : Crosses schema e segments hops owner terminal) : segments ≠ [] := by
  cases h <;> exact List.cons_ne_nil _ _

/-- A single step ends at a property of the entity itself. -/
theorem crosses_singleton_iff :
    Crosses schema e [segment] hops owner terminal ↔
      hops = [] ∧ owner = e ∧ e.property? segment = some terminal := by
  constructor
  · intro h
    cases h with
    | last declared => exact ⟨rfl, rfl, declared⟩
    | across _ _ _ onward => exact absurd rfl onward.ne_nil
  · rintro ⟨rfl, rfl, declared⟩
    exact .last declared

/-- Any further step leads over an association to one record first. -/
theorem crosses_cons_iff (hrest : rest ≠ []) :
    Crosses schema e (segment :: rest) hops owner terminal ↔
      ∃ a next more, e.property? segment = some (.association a) ∧ a.isToOne = true ∧
        schema.entity? a.target = some next ∧ hops = a :: more ∧
        Crosses schema next rest more owner terminal := by
  constructor
  · intro h
    cases h with
    | last => exact absurd rfl hrest
    | across declared toOne target onward => exact ⟨_, _, _, declared, toOne, target, rfl, onward⟩
  · rintro ⟨a, next, more, declared, toOne, target, rfl, onward⟩
    exact .across declared toOne target onward

/-- One segment is looked up, and what it names decides how to go on. -/
theorem Schema.follow_cons (hops : List Association) (e : Entity) (segment : String)
    (rest : List String) :
    schema.follow path hops e (segment :: rest) =
      match e.property? segment with
      | none => .error (.noProperty segment e.name path)
      | some terminal =>
        if rest.isEmpty then .ok ⟨path, hops, e, terminal⟩
        else
          match terminal with
          | .field _ => .error (.fieldCrossed segment e.name path)
          | .association a =>
            if !a.isToOne then .error (.collectionCrossed e.name a.name path)
            else
              match schema.entity? a.target with
              | none => .error (.unknownEntity a.target)
              | some next => schema.follow path (hops ++ [a]) next rest := by
  rw [Schema.follow, Entity.property?]
  cases e.fieldNamed? segment with
  | some f => rfl
  | none => cases e.associationNamed? segment <;> rfl

/-- **Following succeeds exactly where segments can be followed**, and puts what is crossed behind what
    was crossed already. -/
theorem follow_eq_ok_iff :
    schema.follow path hops e segments = .ok r ↔
      ∃ more, r.path = path ∧ r.hops = hops ++ more ∧
        Crosses schema e segments more r.owner r.terminal := by
  induction segments generalizing hops e with
  | nil => exact ⟨nofun, fun ⟨_, _, _, h⟩ => absurd rfl h.ne_nil⟩
  | cons segment rest ih =>
    rw [Schema.follow_cons]
    cases rest with
    | nil =>
      simp only [crosses_singleton_iff]
      cases hdeclared : e.property? segment with
      | none => simp
      | some terminal =>
        simp only [List.isEmpty_nil, if_true, Except.ok.injEq, Option.some.injEq]
        constructor
        · rintro rfl
          exact ⟨[], rfl, (List.append_nil _).symm, rfl, rfl, rfl⟩
        · obtain ⟨path', hops', owner, terminal'⟩ := r
          rintro ⟨_, rfl, rfl, rfl, rfl, rfl⟩
          rw [List.append_nil]
    | cons second rest =>
      have hne : second :: rest ≠ [] := List.cons_ne_nil _ _
      simp only [crosses_cons_iff hne, List.isEmpty_cons, Bool.false_eq_true, if_false]
      -- Only a to-one association whose target is known is crossed.
      cases hdeclared : e.property? segment with
      | none => simp
      | some terminal =>
        cases terminal with
        | field f => simp
        | association a =>
          cases htoOne : a.isToOne with
          | false => simp [htoOne]
          | true =>
            simp only [htoOne, Bool.not_true, Bool.false_eq_true, if_false]
            cases htarget : schema.entity? a.target with
            | none => simp [htarget]
            | some next =>
              simp only [ih]
              constructor
              · rintro ⟨more, hpath, hhops, onward⟩
                exact ⟨a :: more, hpath, by rw [hhops, List.append_assoc, List.singleton_append],
                  a, next, more, rfl, htoOne, htarget, rfl, onward⟩
              · rintro ⟨_, hpath, hhops, _, _, more, ⟨⟩, _, htarget', rfl, onward⟩
                cases htarget.symm.trans htarget'
                exact ⟨more, hpath, by rw [hhops, List.append_assoc, List.singleton_append], onward⟩

/-- **A path is resolved exactly if it can be followed** and has no empty segment. -/
theorem resolve_eq_ok_iff {root : Entity} :
    schema.resolve root path = .ok r ↔
      (∀ name ∈ path.segments, name ≠ "") ∧ r.path = path ∧
        Crosses schema root path.segments r.hops r.owner r.terminal := by
  unfold Schema.resolve
  split
  · rename_i hempty
    refine ⟨nofun, fun ⟨hnames, _, hcrosses⟩ => ?_⟩
    rw [Bool.or_eq_true, List.isEmpty_iff, List.any_eq_true] at hempty
    rcases hempty with hnil | ⟨name, hname, hisEmpty⟩
    -- The empty path and empty names are refused at once, and they cross nothing.
    · exact absurd hnil hcrosses.ne_nil
    · exact absurd (String.isEmpty_iff.1 hisEmpty) (hnames name hname)
  · rename_i hplain
    rw [Bool.or_eq_true, List.any_eq_true, not_or] at hplain
    have hnames : ∀ name ∈ path.segments, name ≠ "" := fun name hname hisEmpty =>
      hplain.2 ⟨name, hname, String.isEmpty_iff.2 hisEmpty⟩
    rw [follow_eq_ok_iff, and_iff_right hnames]
    simp

end Crossing

/-! ### Walks -/

/-- The associations named by the segments lead from one entity to another. -/
inductive Leads (schema : Schema) : Entity → List String → Entity → Prop where
  | here {e} : Leads schema e [] e
  | across {e segment a foreignKey next rest owner} (named : e.associationNamed? segment = some a)
    (toOne : a.joinColumn? = some foreignKey) (target : schema.entity? a.target = some next)
    (onward : Leads schema next rest owner) : Leads schema e (segment :: rest) owner

/-- What a resolved path is. -/
structure Resolved (schema : Schema) (root : Entity) (path : Path) (r : Resolution) : Prop where
  samePath : r.path = path
  nonempty : path.segments ≠ []
  leads : Leads schema root path.parent.segments r.owner
  hops : r.hops.length = path.parent.segments.length
  terminal : r.owner.property? path.leaf = some r.terminal

variable {schema : Schema} {root : Entity} {path : Path} {r : Resolution}

/-- What is followed is a walk to the entity that declares the last segment. -/
theorem Crosses.leads {owner : Entity} {segments : List String} {hops : List Association}
    {terminal : Terminal} (h : Crosses schema root segments hops owner terminal) :
    Leads schema root segments.dropLast owner ∧ hops.length = segments.dropLast.length ∧
      owner.property? (segments.getLast?.getD "") = some terminal := by
  induction h with
  | last declared => exact ⟨.here, rfl, declared⟩
  | @across e segment a next rest hops owner terminal declared toOne target onward ih =>
    obtain ⟨hleads, hlength, hterminal⟩ := ih
    obtain ⟨foreignKey, hkey⟩ := Option.isSome_iff_exists.1 toOne
    rw [List.dropLast_cons_of_ne_nil onward.ne_nil, List.getLast?_cons_of_ne_nil onward.ne_nil]
    exact ⟨.across (Entity.associationNamed?_of_property? declared) hkey target hleads,
      by rw [List.length_cons, List.length_cons, hlength], hterminal⟩

/-- **What resolution finds.**  The walk to the owner of the last segment, and that segment as a
    property of the owner. -/
theorem resolved_of_resolve (h : schema.resolve root path = .ok r) :
    Resolved schema root path r := by
  obtain ⟨_, hpath, hcrosses⟩ := resolve_eq_ok_iff.1 h
  obtain ⟨hleads, hlength, hterminal⟩ := hcrosses.leads
  exact ⟨hpath, hcrosses.ne_nil, hleads, hlength, hterminal⟩

/-- The part to be joined is the parent, wherever there is one. -/
theorem Resolved.joinPath? (h : Resolved schema root path r) :
    r.joinPath? = if path.parent.segments = [] then none else some path.parent := by
  have hhops : r.hops.isEmpty = true ↔ path.parent.segments = [] := by
    rw [List.isEmpty_iff, ← List.length_eq_zero_iff, h.hops, List.length_eq_zero_iff]
  unfold Resolution.joinPath?
  simp only [hhops, h.samePath]

/-! ### A sample schema -/

namespace Sample

/-- Teams are parts of other teams. -/
def team : Entity :=
  (({ name := "Team", table := "team" } : Entity).withId "id" "team_id").belongsTo
    "parent" "Team" "parent_id"

/-- Members have an age and may belong to a team. -/
def member : Entity :=
  ((({ name := "Member", table := "member" } : Entity).withId "id" "member_id").withFieldIn
    "age" "age" .integer true).belongsTo "team" "Team" "team_id"

/-- The schema of teams and members. -/
def league : Schema := ⟨[team, member]⟩

example : Schema.build [team, member] = .ok league := by decide

end Sample

end EntityQuery
