import EntityQuery.Proofs.Repository.Answered
import EntityQuery.Proofs.Template.Parameters

namespace EntityQuery

/-!
# Content and count

A template for a page can come with a template of its own for the count, and a call binds the same
arguments to both.  Each of them numbers its parameters by their first appearance in its own text, so a
value that is given by name is bound to the name in both statements, and a positional value to the name
of its rank in each (`Repository.content_and_count_agree`).  Where a name has another rank in the text
that counts, the two statements can take different values for it (`Repository.count_by_other_ranks`).
-/

/-- The value that a call supplies for a name: the one given under it, or else the positional one at its
    rank. -/
def CallArguments.Supplies (args : CallArguments) (name : String) (rank : Nat) (v : Value) : Prop :=
  args.named.lookup name = some v ∨ args.named.lookup name = none ∧ args.positional[rank]? = some v

namespace CallArguments

variable {args : CallArguments} {name : String} {rank : Nat} {v v' : Value}

/-- Looking a named slot up gives the value that is supplied for its name and rank. -/
theorem lookup_eq_ok_iff : args.lookup ⟨rank, some name⟩ = .ok v ↔ args.Supplies name rank v := by
  unfold lookup Supplies
  rw [Option.bind_some]
  cases args.named.lookup name with
  | some given => simp
  | none => cases args.positional[rank]? <;> simp

/-- What is given by name does not depend on ranks. -/
theorem Supplies.unique {rank' : Nat} (h : args.Supplies name rank v) (h' : args.Supplies name rank' v')
    (hsame : (args.named.lookup name).isSome = true ∨ rank = rank') : v = v' := by
  rcases h with h | ⟨hnone, h⟩ <;> rcases h' with h' | ⟨hnone', h'⟩
  · exact Option.some.inj (h.symm.trans h')
  · cases h.symm.trans hnone'
  · cases hnone.symm.trans h'
  · rcases hsame with hsome | rfl
    · rw [hnone] at hsome
      cases hsome
    · exact Option.some.inj (h.symm.trans h')

end CallArguments

/-- **A bound statement gives each written name its value**, if its slots stand for the names. -/
theorem Statement.exists_gives {s : Statement} {args : CallArguments} {b : Bound} {names : List String}
    (hslots : Template.StandFor s.slots names (nameRank names)) (hbind : s.bind args.lookup = .ok b)
    {name : String} (hname : name ∈ names) :
    ∃ v, s.Gives args name v ∧ args.Supplies name (nameRank names name) v := by
  rw [← hslots.names] at hname
  obtain ⟨slot, hslot, hnamed⟩ := List.mem_filterMap.1 hname
  -- All places of the name have the same slot, so they have the same value.
  have heq : ∀ slot ∈ s.slots, slot.name = some name → slot = ⟨nameRank names name, some name⟩ := by
    rintro ⟨index, name?⟩ hslot rfl
    rw [Slot.mk.injEq]
    exact ⟨hslots.ranked _ hslot name rfl, rfl⟩
  obtain ⟨v, hv⟩ := exists_lookup_of_bind hbind hslot
  rw [heq slot hslot hnamed] at hv
  refine ⟨v, ⟨⟨slot, hslot, hnamed⟩, fun other hother hotherName => ?_⟩,
    CallArguments.lookup_eq_ok_iff.1 hv⟩
  rw [heq other hother hotherName]
  exact hv

namespace MethodDeclaration

variable {schema : Schema} {root : Entity} {m : MethodDeclaration} {d : Definition}
variable {text countText : String}

/-- What is prepared of a template with a template for its count: a select with the predicate of the one
    and the statement of the other, unless it is an update or delete. -/
theorem exists_counted_of_template (hsource : m.source = .template text)
    (hcount : m.countQuery = some countText) (h : m.prepare schema root = .ok d) :
    (∃ t q counting, Template.parse schema text = .ok (.select t) ∧
      prepareSelect schema q (some counting) = .ok d.prepared ∧ q.predicate = t.predicate ∧
      countStatement schema countText = .ok counting) ∨
    ∃ statement entity clears, d.prepared = .bulk statement entity clears := by
  rw [prepare_eq, hsource] at h
  obtain ⟨⟨shape, prepared⟩, hprepare, h⟩ := bind_eq_ok_iff.1 h
  cases h
  rcases prepareTemplate_cases hprepare with
    ⟨_, statement, _, _, hchange⟩ | ⟨t, _, q, hparse, _, hcounting, _, _, hpredicate, _, hprepared⟩
  · exact .inr ⟨statement, _, _, hchange⟩
  · rw [hcount] at hcounting
    rcases mapM_eq_ok_iff.1 hcounting with ⟨hnone, _⟩ | ⟨_, counting, hsome, rfl, hcounting⟩
    · cases hnone
    cases hsome
    exact .inl ⟨t, q, counting, hparse, hprepared, hpredicate, hcounting⟩

/-- The statement of a template that counts takes the slots of that template. -/
theorem slots_of_countStatement {counting : Statement}
    (h : countStatement schema countText = .ok counting) :
    ∃ t, Template.parse schema countText = .ok (.select t) ∧
      counting.slots = (Predicate.optionalTests t.predicate).flatMap Predicate.Test.slots := by
  unfold countStatement at h
  obtain ⟨template, hparse, h⟩ := bind_eq_ok_iff.1 h
  replace hparse := mapError_eq_ok_iff.1 hparse
  cases template with
  | bulk b => cases h
  | select t =>
    dsimp only at h
    -- Only a template that counts is taken.
    split at h
    · obtain ⟨q, hq, h⟩ := bind_eq_ok_iff.1 h
      obtain ⟨c, hc, h⟩ := bind_eq_ok_iff.1 h
      cases h
      obtain ⟨⟨selections, target⟩, _, hq⟩ := bind_eq_ok_iff.1 hq
      cases hq
      obtain ⟨s, hs, hcompiled⟩ := bind_eq_ok_iff.1 (mapError_eq_ok_iff.1 hc)
      cases hcompiled
      exact ⟨t, hparse, Select.slots_compiled hs (.inl rfl)⟩
    · cases h

end MethodDeclaration

namespace Repository

/-- The two statements of a page, as a call binds them: a window of the content, and the count. -/
structure BindsPage (repository : Repository) (name : String) (args : CallArguments)
    (window counting : Statement) : Prop where
  compiled : ∃ d c limit offset, repository.definitions.lookup name = some d ∧
    repository.compiledFor name d args = .ok c ∧ c.count = some counting ∧
    c.content.window limit offset = .ok window
  content : ∃ b, window.bind args.lookup = .ok b
  count : ∃ b, counting.bind args.lookup = .ok b

variable {schema : Schema} {declared : RepositoryDeclaration} {repository : Repository}
variable {m : MethodDeclaration} {args : CallArguments} {text countText : String}
variable {window counting : Statement}

/-- **Content and count take the same values** for each name that both texts have, if the value is given
    by name or the name has the same rank in both texts.  In any case each statement takes for every name
    of its own text the value given under it, or else the positional one at the rank that the name has in
    that text, and takes it wherever the name stands. -/
theorem content_and_count_agree (hbuild : build schema declared = .ok repository)
    (hm : m ∈ declared.methods) (hsource : m.source = .template text)
    (hcount : m.countQuery = some countText)
    (hbinds : repository.BindsPage m.name args window counting) :
    ∃ w w', Grammar.parse? text = some (.select w) ∧ Grammar.parse? countText = some (.select w') ∧
      (∀ name ∈ w.names, ∃ v,
        window.Gives args name v ∧ args.Supplies name (nameRank w.names name) v) ∧
      (∀ name ∈ w'.names, ∃ v,
        counting.Gives args name v ∧ args.Supplies name (nameRank w'.names name) v) ∧
      ∀ name ∈ w.names, name ∈ w'.names →
        (args.named.lookup name).isSome = true ∨ nameRank w.names name = nameRank w'.names name →
        ∃ v, window.Gives args name v ∧ counting.Gives args name v := by
  obtain ⟨⟨d, c, limit, offset, hlookup, hcompiled, hcounting, hwindow⟩, ⟨b, hbind⟩, b', hbind'⟩ := hbinds
  obtain ⟨rfl, _, _, hmethods⟩ := exists_lookup_of_build hbuild
  obtain ⟨prepared, hprepare, hfound⟩ := hmethods m hm
  obtain rfl := Option.some.inj (hlookup.symm.trans hfound)
  rcases MethodDeclaration.exists_counted_of_template hsource hcount hprepare with
    ⟨t, q, counted, hparse, hprepared, hpredicate, hcounted⟩ | ⟨statement, entity, clears, hbulk⟩
  · -- The content has the predicate of the text, whatever target and order the call adds.
    obtain ⟨target, compiled, _, hc, rfl⟩ :=
      exists_compile_of_compiledFor (.of_prepareSelect hprepared) hcompiled
    obtain ⟨s, hs, hcompiled⟩ := bind_eq_ok_iff.1 hc
    cases hcompiled
    have hslots : window.slots = (Predicate.optionalTests t.predicate).flatMap Predicate.Test.slots := by
      rw [Statement.slots_window hwindow, ← hpredicate]
      exact Select.slots_compiled hs (.inl rfl)
    obtain rfl : counted = counting := by
      unfold MethodDeclaration.withCount at hcounting
      dsimp only at hcounting
      split at hcounting
      · exact Option.some.inj hcounting
      · cases hcounting
    obtain ⟨t', hparse', hslots'⟩ := MethodDeclaration.slots_of_countStatement hcounted
    obtain ⟨w, hread, hstand⟩ := Template.parameters_of_parse hparse
    obtain ⟨w', hread', hstand'⟩ := Template.parameters_of_parse hparse'
    rw [← hslots] at hstand
    rw [← hslots'] at hstand'
    refine ⟨w, w', hread, hread', fun name hname => Statement.exists_gives hstand hbind hname,
      fun name hname => Statement.exists_gives hstand' hbind' hname, fun name hname hname' hsame => ?_⟩
    obtain ⟨v, hgives, hsupplies⟩ := Statement.exists_gives hstand hbind hname
    obtain ⟨v', hgives', hsupplies'⟩ := Statement.exists_gives hstand' hbind' hname'
    obtain rfl := hsupplies.unique hsupplies' hsame
    exact ⟨v, hgives, hgives'⟩
  -- A method that changes is not compiled for a page.
  · unfold compiledFor at hcompiled
    rw [hbulk] at hcompiled
    cases hcompiled

end Repository

namespace Sample

/-- The members of a range of ages. -/
def rangeText : String := "select m from Member m where m.age > :least and m.age < :most"

/-- The number of these members, with the greatest age first. -/
def rangeCountText : String :=
  "select count(m) from Member m where m.age < :most and m.age > :least"

/-- A page of members between two ages, whose count names the two the other way round. -/
def range : MethodDeclaration where
  name := "range"
  source := .template rangeText
  shape := some .page
  countQuery := some rangeCountText

/-- The repository with that method. -/
def ranges : RepositoryDeclaration where
  entity := "Member"
  methods := [range]
  unit := 0

/-- The two statements of a page of one member. -/
def rangePage (repository : Repository) (args : CallArguments) : Option (Statement × Statement) := do
  let d ← repository.definitions.lookup "range"
  let c ← (repository.compiledFor "range" d args).toOption
  let counting ← c.count
  let window ← (c.content.window (some 1) 0).toOption
  let _ ← (window.bind args.lookup).toOption
  let _ ← (counting.bind args.lookup).toOption
  return (window, counting)

/-- What is computed for the page is what the call binds. -/
theorem bindsPage_of_rangePage {repository : Repository} {args : CallArguments}
    {window counting : Statement} (h : rangePage repository args = some (window, counting)) :
    repository.BindsPage "range" args window counting := by
  simp only [rangePage, Option.bind_eq_bind, Option.bind_eq_some_iff, toOption_eq_some_iff,
    Option.pure_def, Option.some.injEq, Prod.mk.injEq] at h
  obtain ⟨d, hd, c, hc, _, hcount, _, hwindow, b, hb, b', hb', rfl, rfl⟩ := h
  exact ⟨⟨d, c, _, _, hd, hc, hcount, hwindow⟩, ⟨b, hb⟩, b', hb'⟩

/-- Whether the statements of a page have the slots of both names in the order of their texts. -/
def rangeSlots (args : CallArguments) : Bool :=
  (Repository.build league ranges).toOption.any fun repository =>
    (rangePage repository args).any fun (window, counting) =>
      decide (window.slots = [⟨0, some "least"⟩, ⟨1, some "most"⟩] ∧
        counting.slots = [⟨0, some "most"⟩, ⟨1, some "least"⟩])

/-- The two statements have the same names in different orders. -/
theorem exists_rangePage {args : CallArguments} (h : rangeSlots args = true) :
    ∃ repository window counting, Repository.build league ranges = .ok repository ∧
      repository.BindsPage "range" args window counting ∧
      window.slots = [⟨0, some "least"⟩, ⟨1, some "most"⟩] ∧
      counting.slots = [⟨0, some "most"⟩, ⟨1, some "least"⟩] := by
  obtain ⟨repository, hbuild, h⟩ := any_toOption_iff.1 h
  obtain ⟨⟨window, counting⟩, hpage, hslots⟩ := (Option.any_eq_true _ _).1 h
  exact ⟨repository, window, counting, hbuild, bindsPage_of_rangePage hpage, of_decide_eq_true hslots⟩

/-- The names of the parameters of a select. -/
def writtenNames : WrittenTemplate → List String
  | .select w => w.names
  | .bulk _ => []

/-- The range from 20 to 40, given by name. -/
def namedRange : CallArguments := { named := [("most", .integer 40), ("least", .integer 20)] }

/-- The range from 20 to 40, given in the order of the text for the content. -/
def positionalRange : CallArguments := { positional := [.integer 20, .integer 40] }

end Sample

/-- The least age is given by name, and both statements take it, whatever the order in their texts. -/
theorem Repository.content_and_count_agree_range :
    ∃ repository window counting, build Sample.league Sample.ranges = .ok repository ∧
      repository.BindsPage "range" Sample.namedRange window counting ∧
      window.Gives Sample.namedRange "least" (.integer 20) ∧
      counting.Gives Sample.namedRange "least" (.integer 20) := by
  have hread : Sample.rangeSlots Sample.namedRange = true := by decide +kernel
  have hnames : ∀ text ∈ [Sample.rangeText, Sample.rangeCountText],
      (Grammar.parse? text).any (fun w => decide ("least" ∈ Sample.writtenNames w)) = true := by
    decide +kernel
  have hwritten : ∀ text ∈ [Sample.rangeText, Sample.rangeCountText], ∀ w,
      Grammar.parse? text = some (.select w) → "least" ∈ w.names := by
    intro text htext w hw
    have hname := hnames text htext
    rw [hw] at hname
    exact of_decide_eq_true hname
  obtain ⟨repository, window, counting, hbuild, hbinds, _⟩ := Sample.exists_rangePage hread
  obtain ⟨w, w', hw, hw', hcontent, _, hagree⟩ := content_and_count_agree (m := Sample.range) hbuild
    (List.mem_singleton_self _) rfl rfl hbinds
  -- The value is the one that was given under the name.
  have hgiven : ∀ {v rank}, Sample.namedRange.Supplies "least" rank v → v = .integer 20 := by
    rintro v rank (hgiven | ⟨hnone, _⟩)
    · exact (Option.some.inj hgiven).symm
    · cases hnone
  have hwindow := hwritten _ List.mem_cons_self w hw
  have hcounting := hwritten _ (.tail _ (.head _)) w' hw'
  obtain ⟨v, hgives, hsupplies⟩ := hcontent "least" hwindow
  obtain rfl := hgiven hsupplies
  obtain ⟨v, hsame, hgives'⟩ := hagree "least" hwindow hcounting (.inl rfl)
  obtain rfl := hsame.unique hgives
  exact ⟨repository, window, counting, hbuild, hbinds, hgives, hgives'⟩

/-- **Positional values go by the ranks in each text**: the content takes 20 for the least age, and the
    count, which names the greatest age first, takes 40 for it. -/
theorem Repository.count_by_other_ranks :
    ∃ repository window counting, build Sample.league Sample.ranges = .ok repository ∧
      repository.BindsPage "range" Sample.positionalRange window counting ∧
      window.Gives Sample.positionalRange "least" (.integer 20) ∧
      counting.Gives Sample.positionalRange "least" (.integer 40) := by
  have hread : Sample.rangeSlots Sample.positionalRange = true := by decide +kernel
  obtain ⟨repository, window, counting, hbuild, hbinds, hwindow, hcounting⟩ :=
    Sample.exists_rangePage hread
  refine ⟨repository, window, counting, hbuild, hbinds, ⟨?_, ?_⟩, ⟨?_, ?_⟩⟩
  -- In the content the first position is the lower bound; in the count it is the upper one.
  · rw [hwindow]
    exact ⟨_, .head _, rfl⟩
  · rw [hwindow]
    intro slot hslot hname
    rcases List.mem_pair.1 hslot with rfl | rfl
    · rfl
    · exact absurd hname (by decide)
  · rw [hcounting]
    exact ⟨_, .tail _ (.head _), rfl⟩
  · rw [hcounting]
    intro slot hslot hname
    rcases List.mem_pair.1 hslot with rfl | rfl
    · exact absurd hname (by decide)
    · rfl

end EntityQuery
