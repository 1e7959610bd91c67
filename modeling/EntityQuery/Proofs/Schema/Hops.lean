import EntityQuery.Proofs.Schema.Joinable

namespace EntityQuery

/-!
# Hops of a path

What a path crosses is told by its hops: each is declared by the entity that the one before it leads to
(`Hops`), under the name that the path has there (`Crosses.named_hops`).  What is to be joined for a path is the
path of its last hop, which is a path itself (`Schema.resolve_parent`).

Where a path ends in a to-one association, the paths behind it are those of the entity on the other side,
and so in a built schema no path runs into an entity that is missing (`Schema.paths_compose`).
-/

/-- Each association is an owning one, and is declared by the entity that those before it lead to. -/
inductive Hops (schema : Schema) : Entity → List Association → Entity → Prop where
  | here {e} : Hops schema e [] e
  | across {e a foreignKey next hops owner} (declared : a ∈ e.associations)
    (owning : a.kind = .toOne foreignKey) (target : schema.entity? a.target = some next)
    (onward : Hops schema next hops owner) : Hops schema e (a :: hops) owner

variable {schema : Schema} {root e owner : Entity} {path : Path} {r : Resolution}
  {segments : List String} {hops : List Association} {terminal : Terminal}

/-- **One hop for each segment but the last**, which has its name. -/
theorem Crosses.named_hops (h : Crosses schema root segments hops owner terminal) :
    Hops schema root hops owner ∧ hops.map (·.name) = segments.dropLast := by
  induction h with
  | last => exact ⟨.here, rfl⟩
  | across declared toOne target onward ih =>
    obtain ⟨hhops, hnames⟩ := ih
    obtain ⟨hdeclared, hname⟩ :=
      Entity.mem_of_associationNamed? (Entity.associationNamed?_of_property? declared)
    obtain ⟨foreignKey, hkind⟩ := Association.exists_kind_of_isToOne toOne
    refine ⟨.across hdeclared hkind target hhops, ?_⟩
    rw [List.map_cons, List.dropLast_cons_of_ne_nil onward.ne_nil, hnames, hname]

namespace Path

/-- A path is nested exactly if something stands in front of its last step. -/
theorem isNested_iff : path.isNested = true ↔ path.parent.segments ≠ [] := by
  rw [isNested, decide_eq_true_iff, ← List.length_pos_iff, length_parent]
  omega

end Path

namespace Schema

/-- What is to be joined for a nested path is the path of an owning association. -/
theorem resolve_parent (h : schema.resolve root path = .ok r) (hnested : path.isNested = true) :
    ∃ r' a foreignKey, schema.resolve root path.parent = .ok r' ∧ r'.terminal = .association a ∧
      a.kind = .toOne foreignKey := by
  have hsplit : path = ⟨path.parent.segments ++ [path.leaf]⟩ := by
    rw [Path.parent_append_leaf (resolved_of_resolve h).nonempty]
  rw [hsplit] at h
  obtain ⟨r', a, hr', ha, htoOne⟩ := resolve_front h (Path.isNested_iff.1 hnested) (by simp)
  obtain ⟨foreignKey, hkind⟩ := Association.exists_kind_of_isToOne htoOne
  exact ⟨r', a, foreignKey, hr', Resolution.association?_eq_some_iff.1 ha, hkind⟩

/-! ### Defects that no path has -/

/-- A walk never leaves a schema whose associations have known targets, and while there is a segment left
    the path has not ended. -/
theorem defect_of_follow (hschema : schema.Checked) (he : e ∈ schema.entities) (hne : segments ≠ [])
    {defect : PathDefect} (h : schema.follow path hops e segments = .error defect) :
    (∀ name, defect ≠ .unknownEntity name) ∧ ∀ ended, defect ≠ .noEnd ended := by
  induction segments generalizing hops e with
  | nil => exact absurd rfl hne
  | cons segment rest ih =>
    rw [follow_cons] at h
    split at h
    · cases h
      exact ⟨nofun, nofun⟩
    rename_i terminal hdeclared
    split at h
    · cases h
    rename_i hrest
    split at h
    · cases h
      exact ⟨nofun, nofun⟩
    rename_i a
    split at h
    · cases h
      exact ⟨nofun, nofun⟩
    rename_i htoOne
    rw [Bool.not_eq_true', Bool.not_eq_false] at htoOne
    -- What is crossed is declared by an entity of the schema, so the next one is there.
    have hnamed := Entity.associationNamed?_of_property? hdeclared
    obtain ⟨next, _, hnext, _⟩ :=
      hschema.targets e he a (Entity.mem_of_associationNamed? hnamed).1 htoOne
    rw [hnext] at h
    exact ih (mem_entities_of_entity? hnext) (fun hnil => hrest (List.isEmpty_iff.2 hnil)) h

/-- **Paths compose.**  In a built schema, a path that goes on behind a to-one association is resolved
    exactly if what follows is resolved from the entity on the other side; it has the owner and the property
    of that end, and crosses the association between the hops of its two parts.

    So every resolved path has one hop for each segment but the last, under its name, and each hop is declared
    by the entity that the one before it leads to.  A part is to be joined exactly for a nested path; this is
    the parent of the path, and is itself resolved, to an owning to-one association.  No path runs into an
    unknown entity or goes on after its end. -/
theorem paths_compose {entities : List Entity} (hbuild : build entities = .ok schema)
    (hroot : root ∈ schema.entities) :
    (∀ p r a, schema.resolve root p = .ok r → r.terminal = .association a → a.isToOne = true →
      ∃ next, schema.entity? a.target = some next ∧ ∀ q : Path, q.segments ≠ [] → ∀ r',
        schema.resolve root ⟨p.segments ++ q.segments⟩ = .ok r' ↔
          ∃ s, schema.resolve next q = .ok s ∧
            r' = ⟨⟨p.segments ++ q.segments⟩, r.hops ++ a :: s.hops, s.owner, s.terminal⟩) ∧
    (∀ path r, schema.resolve root path = .ok r →
      r.hops.map (·.name) = path.parent.segments ∧ Hops schema root r.hops r.owner ∧
      (∀ front, r.joinPath? = some front ↔ path.isNested = true ∧ front = path.parent) ∧
      (path.isNested = true → ∃ r' a foreignKey, schema.resolve root path.parent = .ok r' ∧
        r'.terminal = .association a ∧ a.kind = .toOne foreignKey)) ∧
    ∀ path defect, schema.resolve root path = .error defect →
      (∀ name, defect ≠ .unknownEntity name) ∧ ∀ ended, defect ≠ .noEnd ended := by
  have hschema := checked_of_build hbuild
  refine ⟨fun p r a hr ha htoOne => ?_, fun path r hr => ?_, fun path defect h => ?_⟩
  · have hresolved := resolved_of_resolve hr
    have hnamed := Entity.associationNamed?_of_property? (ha ▸ hresolved.terminal)
    obtain ⟨next, _, hnext, _⟩ := hschema.targets r.owner (mem_entities_of_leads hresolved.leads hroot) a
      (Entity.mem_of_associationNamed? hnamed).1 htoOne
    exact ⟨next, hnext, fun q hq r' => resolve_append_iff hr ha htoOne hnext hq⟩
  · obtain ⟨_, _, hcrosses⟩ := resolve_eq_ok_iff.1 hr
    obtain ⟨hhops, hnames⟩ := hcrosses.named_hops
    refine ⟨hnames, hhops, fun front => ?_, resolve_parent hr⟩
    rw [(resolved_of_resolve hr).joinPath?, Path.isNested_iff]
    by_cases hparent : path.parent.segments = []
    · simp [hparent]
    · rw [if_neg hparent, Option.some.injEq, and_iff_right hparent, eq_comm]
  -- The defects of an unknown entity and of a missing end are about schemas that were never built.
  · unfold resolve at h
    split at h
    · cases h
      exact ⟨nofun, nofun⟩
    rename_i hplain
    rw [Bool.or_eq_true, not_or, List.isEmpty_iff] at hplain
    exact defect_of_follow hschema hroot hplain.1 h

/-- From a member, the parent of the team is reached over the team; an age cannot be crossed. -/
theorem paths_compose_teamParent :
    build [Sample.team, Sample.member] = .ok Sample.league ∧ Sample.member ∈ Sample.league.entities ∧
      (∃ r a s, Sample.league.resolve Sample.member ⟨["team"]⟩ = .ok r ∧ r.terminal = .association a ∧
        a.isToOne = true ∧ Sample.league.resolve Sample.team ⟨["parent", "id"]⟩ = .ok s ∧
        Sample.league.resolve Sample.member ⟨["team", "parent", "id"]⟩ =
          .ok ⟨⟨["team", "parent", "id"]⟩, r.hops ++ a :: s.hops, s.owner, s.terminal⟩) ∧
      (∃ r, Sample.league.resolve Sample.member ⟨["team", "parent", "id"]⟩ = .ok r ∧
        r.hops.map (·.name) = ["team", "parent"] ∧ Hops Sample.league Sample.member r.hops r.owner ∧
        r.joinPath? = some ⟨["team", "parent"]⟩) ∧
      ∃ defect, Sample.league.resolve Sample.member ⟨["age", "id"]⟩ = .error defect ∧
        ∀ name, defect ≠ .unknownEntity name := by
  have hbuild : build [Sample.team, Sample.member] = .ok Sample.league := by decide
  have hroot : Sample.member ∈ Sample.league.entities := List.mem_cons_of_mem _ List.mem_cons_self
  obtain ⟨hcompose, hcrossed, hdefects⟩ := paths_compose hbuild hroot
  have hwhole : Sample.league.resolve Sample.member ⟨["team", "parent", "id"]⟩ = .ok
      ⟨⟨["team", "parent", "id"]⟩,
        [⟨"team", "Team", .toOne "team_id"⟩, ⟨"parent", "Team", .toOne "parent_id"⟩], Sample.team,
        .field ⟨"id", "team_id", .integer, false⟩⟩ := by decide
  obtain ⟨hnames, hhops, hjoin, _⟩ := hcrossed _ _ hwhole
  have hteam : Sample.league.resolve Sample.member ⟨["team"]⟩ = .ok
      ⟨⟨["team"]⟩, [], Sample.member, .association ⟨"team", "Team", .toOne "team_id"⟩⟩ := by decide
  have hend : Sample.league.resolve Sample.team ⟨["parent", "id"]⟩ = .ok
      ⟨⟨["parent", "id"]⟩, [⟨"parent", "Team", .toOne "parent_id"⟩], Sample.team,
        .field ⟨"id", "team_id", .integer, false⟩⟩ := by decide
  obtain ⟨next, hnext, hbehind⟩ := hcompose _ _ _ hteam rfl rfl
  obtain rfl : Sample.team = next := Option.some.inj hnext
  refine ⟨hbuild, hroot, ⟨_, _, _, hteam, rfl, rfl, hend, ?_⟩,
    ⟨_, hwhole, hnames, hhops, (hjoin _).2 ⟨rfl, rfl⟩⟩, ?_⟩
  · exact (hbehind ⟨["parent", "id"]⟩ (List.cons_ne_nil _ _) _).2 ⟨_, hend, rfl⟩
  -- A field has nothing behind it.
  · have hage : Sample.league.resolve Sample.member ⟨["age", "id"]⟩ =
        .error (.fieldCrossed "age" "Member" ⟨["age", "id"]⟩) := by decide
    exact ⟨_, hage, (hdefects _ _ hage).1⟩

end Schema

end EntityQuery
