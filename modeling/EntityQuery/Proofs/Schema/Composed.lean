import EntityQuery.Proofs.Schema.Resolved

namespace EntityQuery

/-!
# Paths in two parts

A path that is followed beyond an association falls into two parts: its beginning ends in the
association, and its end is followed from the entity on the other side (`crosses_append_iff`,
`Crosses.split`).  So it is with resolved paths (`Schema.resolve_append_iff`, `Schema.resolve_front`,
`Schema.resolve_behind`).  `Schema.reach?` is the entity that such a beginning leads to; that of a path to
an association is the entity on its other side (`Schema.reach?_of_association`).
-/

section Segments

variable {schema : Schema} {root next owner middle : Entity} {front back : List String}
  {hops all : List Association} {a : Association} {terminal : Terminal}

/-- **Beyond an association, a path is followed from the entity on its other side.** -/
theorem crosses_append_iff (h : Crosses schema root front hops middle (.association a))
    (htoOne : a.isToOne = true) (htarget : schema.entity? a.target = some next) (hback : back ≠ []) :
    Crosses schema root (front ++ back) all owner terminal ↔
      ∃ more, all = hops ++ a :: more ∧ Crosses schema next back more owner terminal := by
  generalize hend : Terminal.association a = last at h
  induction h generalizing all with
  | last declared =>
    subst hend
    rw [List.singleton_append, crosses_cons_iff hback]
    constructor
    · rintro ⟨b, _, more, hb, _, htarget', rfl, onward⟩
      obtain ⟨⟩ := Option.some.inj (declared.symm.trans hb)
      cases htarget.symm.trans htarget'
      exact ⟨more, rfl, onward⟩
    · rintro ⟨more, rfl, onward⟩
      exact ⟨a, next, more, declared, htoOne, htarget, rfl, onward⟩
  -- The first step is the same on both sides, since a name has one association.
  | across declared toOne target _ ih =>
    rw [List.cons_append, crosses_cons_iff (List.append_ne_nil_of_right_ne_nil _ hback)]
    constructor
    · rintro ⟨b, _, more, hb, _, target', rfl, onward⟩
      obtain ⟨⟩ := Option.some.inj (declared.symm.trans hb)
      cases target.symm.trans target'
      obtain ⟨behind, rfl, hbehind⟩ := (ih hend).1 onward
      exact ⟨behind, rfl, hbehind⟩
    · rintro ⟨behind, rfl, hbehind⟩
      exact ⟨_, _, _, declared, toOne, target, rfl, (ih hend).2 ⟨behind, rfl, hbehind⟩⟩

/-- Wherever a path is cut in two, its beginning ends in a to-one association. -/
theorem Crosses.split (h : Crosses schema root (front ++ back) all owner terminal) (hfront : front ≠ [])
    (hback : back ≠ []) :
    ∃ hops middle a next more, Crosses schema root front hops middle (.association a) ∧
      a.isToOne = true ∧ schema.entity? a.target = some next ∧ all = hops ++ a :: more ∧
      Crosses schema next back more owner terminal := by
  induction front generalizing root all with
  | nil => exact absurd rfl hfront
  | cons segment front ih =>
    rw [List.cons_append, crosses_cons_iff (List.append_ne_nil_of_right_ne_nil _ hback)] at h
    obtain ⟨b, beyond, more, hb, toOne, target, rfl, onward⟩ := h
    -- The last step in front is the association that leads to the rest.
    cases front with
    | nil => exact ⟨[], root, b, beyond, more, .last hb, toOne, target, rfl, onward⟩
    | cons second front =>
      obtain ⟨hops, middle, a, next, behind, hcrosses, htoOne, htarget, rfl, hbehind⟩ :=
        ih onward (List.cons_ne_nil _ _)
      exact ⟨b :: hops, middle, a, next, behind, .across hb toOne target hcrosses, htoOne, htarget, rfl,
        hbehind⟩

end Segments

namespace Schema

variable {schema : Schema} {root next e : Entity} {r : Resolution} {front back : List String}

/-- **A path is resolved beyond an association** exactly if its end is resolved from the entity on the
    other side, and then it has the end's owner and property. -/
theorem resolve_append_iff {p q : Path} {a : Association} {r' : Resolution}
    (h : schema.resolve root p = .ok r) (ha : r.terminal = .association a) (htoOne : a.isToOne = true)
    (htarget : schema.entity? a.target = some next) (hq : q.segments ≠ []) :
    schema.resolve root ⟨p.segments ++ q.segments⟩ = .ok r' ↔
      ∃ s, schema.resolve next q = .ok s ∧
        r' = ⟨⟨p.segments ++ q.segments⟩, r.hops ++ a :: s.hops, s.owner, s.terminal⟩ := by
  obtain ⟨hnames, _, hcrosses⟩ := resolve_eq_ok_iff.1 h
  rw [ha] at hcrosses
  simp only [resolve_eq_ok_iff, List.forall_mem_append, and_iff_right hnames,
    crosses_append_iff hcrosses htoOne htarget hq]
  constructor
  · rintro ⟨hback, hpath, more, hhops, onward⟩
    obtain ⟨path', hops', owner, terminal⟩ := r'
    cases hpath
    -- All that is left of the resolution is the part behind the association.
    cases hhops
    exact ⟨⟨q, more, owner, terminal⟩, ⟨hback, rfl, onward⟩, rfl⟩
  · rintro ⟨s, ⟨hback, _, onward⟩, rfl⟩
    exact ⟨hback, rfl, s.hops, rfl, onward⟩

/-- What is crossed on the way is a to-one association, and can be resolved. -/
theorem resolve_front (h : schema.resolve root ⟨front ++ back⟩ = .ok r) (hfront : front ≠ [])
    (hback : back ≠ []) :
    ∃ r' a, schema.resolve root ⟨front⟩ = .ok r' ∧ r'.association? = some a ∧ a.isToOne = true := by
  obtain ⟨hnames, _, hcrosses⟩ := resolve_eq_ok_iff.1 h
  obtain ⟨hops, middle, a, _, _, hbegin, htoOne, _⟩ := hcrosses.split hfront hback
  exact ⟨⟨⟨front⟩, hops, middle, .association a⟩, a,
    resolve_eq_ok_iff.2 ⟨(List.forall_mem_append.1 hnames).1, rfl, hbegin⟩, rfl, htoOne⟩

/-! ### Where a beginning leads to -/

/-- The entity that associations lead to, one after the other. -/
def reach? (schema : Schema) : Entity → List String → Option Entity
  | e, [] => some e
  | e, segment :: rest => do
    let a ← e.associationNamed? segment
    let next ← schema.entity? a.target
    schema.reach? next rest

/-- What ends in an association leads to the entity on its other side. -/
theorem reach?_of_crosses {segments : List String} {hops : List Association} {owner : Entity}
    {a : Association} (h : Crosses schema root segments hops owner (.association a)) :
    schema.reach? root segments = schema.entity? a.target := by
  generalize hend : Terminal.association a = last at h
  induction h with
  | last declared =>
    subst hend
    rw [reach?, Entity.associationNamed?_of_property? declared]
    exact Option.bind_fun_some _
  | across declared _ target _ ih =>
    rw [reach?, Entity.associationNamed?_of_property? declared, ← ih hend]
    show ((schema.entity? _).bind _) = _
    rw [target]
    rfl

/-- A walk to an association leads to the entity on its other side. -/
theorem reach?_of_association {path : Path} {a : Association}
    (h : schema.resolve root path = .ok r) (ha : r.terminal = .association a) :
    schema.reach? root path.segments = schema.entity? a.target := by
  obtain ⟨_, _, hcrosses⟩ := resolve_eq_ok_iff.1 h
  rw [ha] at hcrosses
  exact reach?_of_crosses hcrosses

/-- **The end of a path can be followed from the entity that its beginning leads to.** -/
theorem resolve_behind (h : schema.resolve root ⟨front ++ back⟩ = .ok r)
    (hback : back ≠ []) (hreach : schema.reach? root front = some e) :
    ∃ r', schema.resolve e ⟨back⟩ = .ok r' ∧ r'.owner = r.owner ∧ r'.terminal = r.terminal := by
  obtain ⟨hnames, _, hcrosses⟩ := resolve_eq_ok_iff.1 h
  have hnames' := (List.forall_mem_append.1 hnames).2
  by_cases hfront : front = []
  · subst hfront
    cases hreach
    exact ⟨⟨⟨back⟩, r.hops, r.owner, r.terminal⟩, resolve_eq_ok_iff.2 ⟨hnames', rfl, hcrosses⟩, rfl, rfl⟩
  · obtain ⟨_, _, _, next, more, hbegin, _, htarget, _, honward⟩ := hcrosses.split hfront hback
    rw [reach?_of_crosses hbegin, htarget] at hreach
    cases hreach
    exact ⟨⟨⟨back⟩, more, r.owner, r.terminal⟩, resolve_eq_ok_iff.2 ⟨hnames', rfl, honward⟩, rfl, rfl⟩

/-- The associations of a path lead on from where those before them led to. -/
theorem reach?_append (front back : List String) :
    schema.reach? root (front ++ back) =
      (schema.reach? root front).bind fun e => schema.reach? e back := by
  induction front generalizing root with
  | nil => rfl
  | cons segment front ih =>
    rw [List.cons_append, reach?, reach?]
    simp only [Option.bind_eq_bind, Option.bind_assoc, ih]

end Schema

end EntityQuery
