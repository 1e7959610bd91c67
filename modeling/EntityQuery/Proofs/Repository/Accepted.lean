import EntityQuery.Proofs.Method.Accepted
import EntityQuery.Proofs.Template.Accepted

namespace EntityQuery

/-!
# What is accepted compiles

Descriptors and templates are read against the same schema that their queries are compiled against.
A query that was read compiles, unless it asks for the value of an association, which only the
compiler finds (`compile_of_accepted`).
-/

/-- **What is accepted compiles.**  In a built schema whose entities have no field and association of
    one name, for whole records of a registered entity by any descriptor, for any select template,
    each in any shape, and for any update or delete template:

    * a query that neither sorts by an association nor selects one compiles, and so does every update
      and delete;
    * the only defects there can be are an association that is selected and one that is sorted by, so
      an entity or a join that is missing, a path that cannot be joined, and a property or an operator
      without its column or operand are never met. -/
theorem compile_of_accepted {entities : List Entity} {schema : Schema}
    (hbuilt : Schema.build entities = .ok schema) (hnames : schema.NamesApart) :
    (∀ name root text q shape, schema.entity? name = some root →
      MethodQuery.parse schema root text = .ok q →
      ((∀ d ∈ q.order, ¬schema.EndsInAssociation root d.path) →
        ∃ c, (q.query root shape).compile schema = .ok c) ∧
      ∀ e, (q.query root shape).compile schema = .error e → (q.query root shape).Blames schema e) ∧
    (∀ text t shape, Template.parse schema text = .ok (.select t) →
      ∃ q, MethodDeclaration.templateQuery t shape .entity = .ok q ∧
        ((∀ s ∈ t.selections, ¬schema.EndsInAssociation t.entity s.path) →
          (∀ d ∈ t.order, ¬schema.EndsInAssociation t.entity d.path) →
          ∃ c, q.compile schema = .ok c) ∧
        ∀ e, q.compile schema = .error e → q.Blames schema e) ∧
    ∀ text b, Template.parse schema text = .ok (.bulk b) → ∃ s, b.compile schema = .ok s := by
  have hschema := Schema.checked_of_build hbuilt
  -- A sound query either compiles or is blamed for what it asks.
  have hblames : ∀ {q : Query}, q.Sound schema → ∀ e, q.compile schema = .error e →
      q.Blames schema e := by
    intro q hsound e he
    rcases hsound.compiles_or_blames hschema with ⟨c, hc⟩ | ⟨e', he', hblames⟩
    · rw [hc] at he
      cases he
    · rw [he'] at he
      cases he
      exact hblames
  refine ⟨fun name root text q shape hroot hparse => ?_, fun text t shape hparse => ?_,
    fun text b hparse => (Template.sound_of_parse_bulk hparse).compiles⟩
  · have hsound := MethodQuery.sound_of_parse hnames hroot hparse shape
    exact ⟨fun horder => hsound.compiles hschema nofun horder, hblames hsound⟩
  · have hsound := Template.sound_of_parse_select hschema hparse shape
    exact ⟨_, Template.templateQuery_entity t shape,
      fun hselections horder => hsound.compiles hschema hselections horder, hblames hsound⟩

/-- A page of members without a team, a part of the teams, and a birthday. -/
theorem compile_of_accepted_league :
    (∃ q c, MethodQuery.parse Sample.league Sample.member
        "findByAgeAndTeamIsNullOrderByTeamIdDesc" = .ok q ∧
      (q.query Sample.member .page).compile Sample.league = .ok c) ∧
    (∃ t q c, Template.parse Sample.league
        "select t.id as part from Member m join m.team t where t.parent.id = ?1 order by m.age desc" =
        .ok (.select t) ∧
      MethodDeclaration.templateQuery t .slice .entity = .ok q ∧ q.compile Sample.league = .ok c) ∧
    ∃ b s, Template.parse Sample.league
        "update Member m set m.age = m.age + 1 where m.team is null" = .ok (.bulk b) ∧
      b.compile Sample.league = .ok s := by
  obtain ⟨hderived, hselect, hbulk⟩ := compile_of_accepted
    (show Schema.build [Sample.team, Sample.member] = .ok Sample.league by decide) (by decide)
  -- Each text is read once, and whether it compiles is taken from the theorem.
  refine ⟨?_, ?_, ?_⟩
  · have hread : (MethodQuery.parse Sample.league Sample.member
        "findByAgeAndTeamIsNullOrderByTeamIdDesc").toOption.any (fun q =>
          decide (q.order = [⟨⟨["team", "id"]⟩, .descending⟩])) = true := by decide +kernel
    obtain ⟨q, hparse, horder⟩ := any_toOption_iff.1 hread
    obtain ⟨hcompiles, _⟩ := hderived "Member" _ _ q .page rfl hparse
    rw [of_decide_eq_true horder] at hcompiles
    obtain ⟨c, hc⟩ := hcompiles (by decide)
    exact ⟨q, c, hparse, hc⟩
  · have hread : (Template.parse Sample.league
        "select t.id as part from Member m join m.team t where t.parent.id = ?1 order by m.age desc"
        ).toOption.any (fun template => template.casesOn
          (fun t => decide (t.entity = Sample.member ∧
            t.selections = [⟨⟨["team", "id"]⟩, "part"⟩] ∧ t.order = [⟨⟨["age"]⟩, .descending⟩]))
          fun _ => false) = true := by decide +kernel
    obtain ⟨template, hparse, hwritten⟩ := any_toOption_iff.1 hread
    cases template with
    | bulk b => cases hwritten
    | select t =>
      obtain ⟨hentity, hselections, horder⟩ := of_decide_eq_true hwritten
      obtain ⟨q, hq, hcompiles, _⟩ := hselect _ t .slice hparse
      rw [hentity, hselections, horder] at hcompiles
      obtain ⟨c, hc⟩ := hcompiles (by decide) (by decide)
      exact ⟨t, q, c, hparse, hq, hc⟩
  · have hread : (Template.parse Sample.league
        "update Member m set m.age = m.age + 1 where m.team is null").toOption.any
          (fun template => template.casesOn (fun _ => false) fun _ => true) = true := by
      decide +kernel
    obtain ⟨template, hparse, hwritten⟩ := any_toOption_iff.1 hread
    cases template with
    | select t => cases hwritten
    | bulk b =>
      obtain ⟨s, hs⟩ := hbulk _ b hparse
      exact ⟨b, s, hparse, hs⟩

end EntityQuery
