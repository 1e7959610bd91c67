import EntityQuery.Proofs.Outcome
import EntityQuery.Proofs.Schema.Resolved
import EntityQuery.Proofs.Template.Conditions
import EntityQuery.Template.Meaning

namespace EntityQuery

/-!
# Round trip of conditions

A predicate over an entity that is printed as the condition of a select is what the template means
(`parse_selectText`).  The grammar gives back what was written; here the names are looked up again.
Slots are met in the order in which the predicate has them (`Numbers`), so named slots have to be
numbered by their first appearance.
-/

namespace Template

variable {α β : Type} {n n' : Numbering}

/-! ### Work that meets parameters -/

/-- If the first step succeeds, the next one goes on from its numbering. -/
theorem bind_of_eq_ok {x : Resolving α} {f : α → Resolving β} {a : α} (h : x n = .ok (a, n')) :
    (x >>= f) n = f a n' := by
  show (x n >>= _) = _
  rw [h]
  rfl

/-- A step that numbers no parameter keeps the numbering. -/
theorem lift_of_eq_ok {x : Except TemplateDefect α} {a : α} (h : x = .ok a) :
    (liftM x : Resolving α) n = .ok (a, n) := by
  rw [h]
  rfl

/-! ### Slots -/

/-- Slots that are found one after the other. -/
inductive Numbers : Numbering → List Slot → Numbering → Prop where
  | nil (n : Numbering) : Numbers n [] n
  | cons {n next n' : Numbering} {s : Slot} {ss : List Slot}
    (found : operand s.written n = .ok (.slot s, next)) (more : Numbers next ss n') :
    Numbers n (s :: ss) n'

/-- Slots one behind the other are numbered so. -/
theorem numbers_append_iff {a b : List Slot} :
    Numbers n (a ++ b) n' ↔ ∃ next, Numbers n a next ∧ Numbers next b n' := by
  induction a generalizing n with
  | nil =>
    constructor
    · exact fun h => ⟨n, .nil n, h⟩
    · rintro ⟨next, hnil, h⟩
      cases hnil
      exact h
  | cons s a ih =>
    constructor
    · intro h
      cases h with
      | cons hfound hmore =>
        obtain ⟨next, ha, hb⟩ := ih.1 hmore
        exact ⟨next, .cons hfound ha, hb⟩
    · rintro ⟨next, ha, hb⟩
      cases ha with
      | cons hfound hmore => exact .cons hfound (ih.2 ⟨next, hmore, hb⟩)

/-- A slot that is kept is among the slots, and no other one is new. -/
theorem mem_slots_of_keep {m : Numbering} {t s : Slot} (h : m.keep t = .ok (s, n')) (x : Slot) :
    x ∈ n'.slots ↔ x ∈ m.slots ∨ x = s := by
  unfold Numbering.keep at h
  -- A slot is kept once.
  split at h
  · cases h
  cases h
  split
  · rename_i hcontains
    have hmem : t ∈ m.slots := List.contains_iff_mem.1 hcontains
    constructor
    · exact .inl
    · rintro (hx | rfl)
      · exact hx
      · exact hmem
  · rw [List.mem_append, List.mem_singleton]

/-- Reading a slot keeps it, and no other. -/
theorem mem_slots_of_operand {s : Slot} (h : operand s.written n = .ok (.slot s, n')) (x : Slot) :
    x ∈ n'.slots ↔ x ∈ n.slots ∨ x = s := by
  obtain ⟨index, name?⟩ := s
  -- A name and a position are found in different ways, and kept in one.
  cases name? with
  | some name =>
    obtain ⟨⟨t, next⟩, hfound, h⟩ := bind_eq_ok_iff.1 h
    cases h
    exact mem_slots_of_keep hfound x
  | none =>
    obtain ⟨⟨t, next⟩, hfound, h⟩ := bind_eq_ok_iff.1 h
    cases h
    have hfound : n.forPosition (Nat.toDigits 10 (index + 1)) = .ok (⟨index, none⟩, n') := hfound
    unfold Numbering.forPosition at hfound
    split at hfound
    · cases hfound
    · cases hfound
    · exact mem_slots_of_keep hfound x

/-- The slots that are met are those that are numbered. -/
theorem Numbers.mem_slots {slots : List Slot} (h : Numbers n slots n') (x : Slot) :
    x ∈ n'.slots ↔ x ∈ n.slots ∨ x ∈ slots := by
  induction h with
  | nil n => simp only [List.not_mem_nil, or_false]
  | cons hfound _ ih => rw [ih, mem_slots_of_operand hfound, List.mem_cons, or_assoc]

/-- Positional slots whose positions fit into a word. -/
def Positional (slots : List Slot) : Prop := ∀ s ∈ slots, s.name = none ∧ s.index + 1 < wordLimit

/-- The names of slots in the order of their first appearance. -/
def slotNames (slots : List Slot) : List String := (slots.filterMap (·.name)).eraseDups

/-- Named slots, numbered by their first appearance. -/
def NumberedByName (slots : List Slot) : Prop :=
  ∀ s ∈ slots, ∃ name, s = ⟨(slotNames slots).idxOf name, some name⟩

/-- **Positional slots are found.** -/
theorem numbers_of_positional {slots : List Slot} (h : Positional slots)
    (hnamed : n.named = false) : ∃ n', Numbers n slots n' := by
  induction slots generalizing n with
  | nil => exact ⟨n, .nil n⟩
  | cons s slots ih =>
    obtain ⟨⟨hname, hindex⟩, hslots⟩ := List.forall_mem_cons.1 h
    obtain ⟨index, name?⟩ := s
    cases hname
    have hposition : Whole.parseUnsigned (Nat.toDigits 10 (index + 1)) = .ok (index + 1) :=
      Whole.parseUnsigned_toDigits hindex
    -- No name has been met, so positions do not mix with names.
    obtain ⟨next, hkeep, hnext⟩ : ∃ next, n.forPosition (Nat.toDigits 10 (index + 1)) =
        .ok (⟨index, none⟩, next) ∧ next.named = false := by
      have hmixed : ¬(n.named && true) = true := by
        rw [hnamed]
        exact Bool.false_ne_true
      rw [Numbering.forPosition, hposition]
      refine ⟨_, if_neg hmixed, ?_⟩
      split <;> exact hnamed
    obtain ⟨n', hmore⟩ := ih hslots hnext
    exact ⟨n', .cons (bind_of_eq_ok hkeep) hmore⟩

/-! ### Named slots -/

/-- The slots of names, numbered from the given number on. -/
def numberedNames : Nat → List String → List Slot
  | _, [] => []
  | first, name :: names => ⟨first, some name⟩ :: numberedNames (first + 1) names

/-- Every name has one slot. -/
theorem length_numberedNames (first : Nat) (names : List String) :
    (numberedNames first names).length = names.length := by
  induction names generalizing first with
  | nil => rfl
  | cons name names ih => rw [numberedNames, List.length_cons, ih, List.length_cons]

/-- A name at the end has the next number. -/
theorem numberedNames_concat (first : Nat) (names : List String) (name : String) :
    numberedNames first (names ++ [name]) =
      numberedNames first names ++ [⟨first + names.length, some name⟩] := by
  induction names generalizing first with
  | nil => rfl
  | cons x names ih =>
    rw [List.cons_append, numberedNames, ih, numberedNames, List.cons_append, List.length_cons,
      Nat.add_right_comm, Nat.add_assoc]

/-- A name has the slot of its first appearance. -/
theorem find?_numberedNames (first : Nat) (names : List String) (name : String) :
    (numberedNames first names).find? (·.name == some name) =
      if name ∈ names then some ⟨first + names.idxOf name, some name⟩ else none := by
  induction names generalizing first with
  | nil => rfl
  | cons x names ih =>
    rw [numberedNames, List.find?_cons]
    -- The first slot of the name is the one with the place of the name as its number.
    by_cases hx : x = name
    · subst hx
      rw [if_pos List.mem_cons_self, List.idxOf_cons_self]
      simp
    · have hno : (some x == some name) = false := by simpa using hx
      rw [hno, ih, List.idxOf_cons_ne names hx]
      simp only [List.mem_cons, Ne.symm hx, false_or, Nat.succ_eq_add_one, Nat.add_assoc,
        Nat.add_comm 1]

/-- More slots only add names behind the others. -/
theorem slotNames_append (a b : List Slot) : ∃ more, slotNames (a ++ b) = slotNames a ++ more :=
  ⟨_, by rw [slotNames, List.filterMap_append, List.eraseDups_append]; rfl⟩

/-- Names with a further one, unless it is among them already. -/
def addName (names : List String) (name : String) : List String :=
  if name ∈ names then names else names ++ [name]

/-- A name is there once it is added. -/
theorem mem_addName (names : List String) (name : String) : name ∈ addName names name := by
  unfold addName
  split
  · assumption
  · exact List.mem_append_right _ List.mem_cons_self

/-- A further slot brings its name in. -/
theorem slotNames_concat (slots : List Slot) (index : Nat) (name : String) :
    slotNames (slots ++ [⟨index, some name⟩]) = addName (slotNames slots) name := by
  have hremove : ∀ names : List String,
      [name].removeAll names = if name ∈ names then [] else [name] := by
    intro names
    by_cases h : name ∈ names <;> simp [List.removeAll, h]
  have hmem : name ∈ slotNames slots ↔ name ∈ slots.filterMap (·.name) := List.mem_eraseDups
  have hnew : [(⟨index, some name⟩ : Slot)].filterMap (·.name) = [name] := rfl
  rw [addName, if_congr hmem rfl rfl, slotNames, List.filterMap_append, hnew,
    List.eraseDups_append, hremove]
  split
  · exact List.append_nil _
  · rfl

/-- **A name is found** at its place among the names met so far, to which it is added. -/
theorem forName_of_slots {names : List String} (hslots : n.slots = numberedNames 0 names)
    (hpositional : n.positional = false) (name : String) :
    ∃ next, n.forName name = .ok (⟨(addName names name).idxOf name, some name⟩, next) ∧
      next.slots = numberedNames 0 (addName names name) ∧ next.positional = false := by
  have hmixed : ¬(true && n.positional) = true := by
    rw [hpositional]
    exact Bool.false_ne_true
  have hfind := find?_numberedNames 0 names name
  rw [← hslots] at hfind
  unfold addName
  by_cases hmem : name ∈ names
  · rw [if_pos hmem, Nat.zero_add] at hfind
    rw [if_pos hmem]
    have hcontains : n.slots.contains ⟨names.idxOf name, some name⟩ = true :=
      List.contains_iff_mem.2 (List.mem_of_find?_eq_some hfind)
    refine ⟨{ n with named := true }, ?_, hslots, hpositional⟩
    rw [Numbering.forName, hfind, Option.getD_some, Numbering.keep]
    dsimp only
    rw [if_neg hmixed, if_pos hcontains]
  · rw [if_neg hmem] at hfind
    rw [if_neg hmem]
    -- A new name comes last, so its number is how many there were.
    have hindex : (names ++ [name]).idxOf name = n.slots.length := by
      rw [List.idxOf_append_of_notMem hmem, List.idxOf_cons_self, hslots, length_numberedNames]
      rfl
    have hcontains : ¬n.slots.contains ⟨n.slots.length, some name⟩ = true := by
      intro hcontains
      have hno := List.find?_eq_none.1 hfind _ (List.contains_iff_mem.1 hcontains)
      exact hno (beq_self_eq_true _)
    rw [hindex]
    refine ⟨{ n with named := true, slots := n.slots ++ [⟨n.slots.length, some name⟩] }, ?_, ?_,
      hpositional⟩
    · rw [Numbering.forName, hfind, Option.getD_none, Numbering.keep]
      dsimp only
      rw [if_neg hmixed, if_neg hcontains]
    · rw [numberedNames_concat, hslots, length_numberedNames, Nat.zero_add]

/-- **Named slots are found** if they are numbered by their first appearance. -/
theorem numbers_of_named {all slots : List Slot} (before : List Slot) (hall : all = before ++ slots)
    (h : ∀ s ∈ slots, ∃ name, s = ⟨(slotNames all).idxOf name, some name⟩)
    (hslots : n.slots = numberedNames 0 (slotNames before)) (hpositional : n.positional = false) :
    ∃ n', Numbers n slots n' := by
  induction slots generalizing before n with
  | nil => exact ⟨n, .nil n⟩
  | cons s slots ih =>
    obtain ⟨⟨name, hs⟩, hmore⟩ := List.forall_mem_cons.1 h
    obtain ⟨next, hfound, hnext, hstill⟩ := forName_of_slots hslots hpositional name
    have hlast : slotNames (before ++ [s]) = addName (slotNames before) name := by
      rw [hs, slotNames_concat]
    have hconcat : all = (before ++ [s]) ++ slots := by
      rw [hall, List.append_assoc, List.singleton_append]
    -- Later slots do not change where the name stands.
    have hindex : (slotNames all).idxOf name = (addName (slotNames before) name).idxOf name := by
      obtain ⟨more, hnames⟩ := slotNames_append (before ++ [s]) slots
      rw [hconcat, hnames, hlast, List.idxOf_append_of_mem (mem_addName _ name)]
    have hoperand : operand s.written n = .ok (.slot s, next) := by
      rw [hs, hindex]
      exact bind_of_eq_ok hfound
    rw [← hlast] at hnext
    obtain ⟨n', hrest⟩ := ih (before ++ [s]) hconcat hmore hnext hstill
    exact ⟨n', .cons hoperand hrest⟩

/-! ### What is meant -/

/-- **A literal means its value.** -/
theorem literal_written {v : Value} (hv : v.isLiteral = true) : literal v.written = .ok v := by
  cases v with
  | integer k =>
    rw [Value.written, literal, Whole.parseSigned_toString]
  | null | boolean | text => rfl
  | real | date | list => cases hv

/-- Written literals are read back. -/
theorem mapM_literal_written {items : List Value} (h : ∀ v ∈ items, v.isLiteral = true) :
    (items.map Value.written).mapM literal = .ok items := by
  induction items with
  | nil => rfl
  | cons v items ih =>
    obtain ⟨hv, hitems⟩ := List.forall_mem_cons.1 h
    rw [List.map_cons, List.mapM_cons, literal_written hv, ok_bind, ih hitems]
    rfl

/-- An operand means itself, where its slot is found. -/
theorem operand_written {o : Operand} (ho : o.IsSingle) (hn : Numbers n o.slots n') :
    operand o.written n = .ok (o, n') := by
  cases ho with
  | slot =>
    cases hn with
    | cons hfound hmore =>
      cases hmore
      exact hfound
  | literal hv =>
    cases hn
    exact bind_of_eq_ok (lift_of_eq_ok (literal_written hv))

/-- **A test means its operator and its operand.** -/
theorem test_written {operator : Operator} {o : Operand} (ho : o.Fits operator)
    (hn : Numbers n o.slots n') : test (writtenTest operator o) n = .ok ((operator, o), n') := by
  rcases ho.missing_or_list_or_single with ⟨rfl, harity⟩ | ⟨items, rfl, rfl, _, hitems⟩ |
    ⟨harity, hsingle⟩
  · cases hn
    cases operator with
    | isNull | isNotNull => rfl
    | _ => cases harity
  · cases hn
    exact bind_of_eq_ok (lift_of_eq_ok (mapM_literal_written hitems))
  · rw [writtenTest_of_isSingle harity hsingle]
    exact bind_of_eq_ok (operand_written hsingle hn)

end Template

/-- A predicate over the properties of an entity: its paths can be followed, an association is
    tested for null only, on the side that has the key, and the operands fit. -/
def Predicate.FitsRoot (schema : Schema) (root : Entity) : Predicate → Prop
  | .comparison path operator o =>
    (∃ r, schema.resolve root path = .ok r ∧
      ∀ a, r.association? = some a → a.isToOne = true ∧ operator.arity = 0) ∧ o.Fits operator
  | .and l r | .or l r => l.FitsRoot schema root ∧ r.FitsRoot schema root

namespace Template

variable {schema : Schema} {root : Entity}

/-- The scope of the condition: the alias stands for the root. -/
def rootScope (schema : Schema) (root : Entity) : Scope := ⟨schema, root, [("m", ⟨[]⟩)]⟩

/-- **A comparison means itself.** -/
theorem comparison_written {path : Path} {operator : Operator} {o : Operand}
    (hp : (Predicate.comparison path operator o).FitsRoot schema root) (hn : Numbers n o.slots n') :
    comparison (rootScope schema root) ⟨"m", path.segments⟩ (writtenTest operator o) n =
      .ok (.comparison path operator o, n') := by
  obtain ⟨⟨r, hr, hassociation⟩, ho⟩ := hp
  have hpath : (rootScope schema root).path ⟨"m", path.segments⟩ = .ok path := rfl
  have hresolve : (rootScope schema root).resolve path = .ok r := by
    show (liftM (schema.resolve root path) : Except TemplateDefect Resolution) = _
    rw [hr]
    rfl
  rw [comparison, bind_of_eq_ok (lift_of_eq_ok hpath), bind_of_eq_ok (lift_of_eq_ok hresolve),
    bind_of_eq_ok (test_written ho hn)]
  dsimp only
  -- An association is only tested for null.
  cases ha : r.association? with
  | none => rfl
  | some a =>
    obtain ⟨htoOne, harity⟩ := hassociation a ha
    have hfits : (a.isToOne && operator.arity == 0) = true := by rw [htoOne, harity]; rfl
    dsimp only
    rw [if_pos hfits]
    rfl

/-- Atoms are read one behind the other. -/
theorem atomsOf_cons {scope : Scope} {a : WrittenAtom} {more : List WrittenAtom} {p : Predicate}
    {ps : List Predicate} {next : Numbering} (ha : atom scope a n = .ok (some p, next))
    (hmore : atomsOf scope more next = .ok (ps, n')) :
    atomsOf scope (a :: more) n = .ok (p :: ps, n') := by
  rw [atomsOf, bind_of_eq_ok ha, bind_of_eq_ok hmore]
  rfl

/-- So are alternatives, each with its atoms. -/
theorem conjunctions_cons {scope : Scope} {atoms : List WrittenAtom}
    {more : List (List WrittenAtom)} {p : Predicate} {ps qs : List Predicate} {next : Numbering}
    (hatoms : atomsOf scope atoms n = .ok (ps, next)) (hp : Predicate.all ps = some p)
    (hmore : conjunctions scope more next = .ok (qs, n')) :
    conjunctions scope (atoms :: more) n = .ok (p :: qs, n') := by
  rw [conjunctions, bind_of_eq_ok hatoms, bind_of_eq_ok hmore, hp]
  rfl

/-- No atoms give no predicates. -/
theorem atomsOf_nil (scope : Scope) : atomsOf scope [] n = .ok ([], n) := by
  rw [atomsOf]
  rfl

/-- Nor do no alternatives. -/
theorem conjunctions_nil (scope : Scope) : conjunctions scope [] n = .ok ([], n) := by
  rw [conjunctions]
  rfl

/-- **A printed predicate means itself.** -/
theorem atom_written {p : Predicate} (hp : p.FitsRoot schema root) (hn : Numbers n p.slots n') :
    atom (rootScope schema root) (p.written "m") n = .ok (some p, n') := by
  induction p generalizing n n' with
  | comparison path operator o =>
    rw [Predicate.written, atom, bind_of_eq_ok (comparison_written hp hn)]
    rfl
  | and l r ihl ihr =>
    -- The slots of the left side are met before those of the right one.
    obtain ⟨next, hl, hr⟩ := numbers_append_iff.1 hn
    have hatoms := atomsOf_cons (ihl hp.1 hl) (atomsOf_cons (ihr hp.2 hr) (atomsOf_nil _))
    have hgroup := conjunctions_cons hatoms rfl (conjunctions_nil _)
    rw [Predicate.written, atom, bind_of_eq_ok hgroup]
    rfl
  | or l r ihl ihr =>
    obtain ⟨next, hl, hr⟩ := numbers_append_iff.1 hn
    have hright := conjunctions_cons (atomsOf_cons (ihr hp.2 hr) (atomsOf_nil _)) rfl
      (conjunctions_nil _)
    have hgroup := conjunctions_cons (atomsOf_cons (ihl hp.1 hl) (atomsOf_nil _)) rfl hright
    rw [Predicate.written, atom, bind_of_eq_ok hgroup]
    rfl

/-! ### Names of a schema -/

/-- A schema whose names can be written in templates. -/
structure Readable (schema : Schema) : Prop where
  entity : ∀ e ∈ schema.entities, Grammar.isName e.name = true
  field : ∀ e ∈ schema.entities, ∀ f ∈ e.fields, Grammar.isName f.name = true
  association : ∀ e ∈ schema.entities, ∀ a ∈ e.associations, Grammar.isName a.name = true

/-- The segments of a path are names that can be read. -/
theorem isName_of_leads (hnames : Readable schema) {e owner : Entity} {segments : List String}
    (h : Leads schema e segments owner) (he : e ∈ schema.entities) :
    (∀ name ∈ segments, Grammar.isName name = true) ∧ owner ∈ schema.entities := by
  induction h with
  | here => exact ⟨nofun, he⟩
  | @across e segment a _ next rest owner hnamed _ htarget _ ih =>
    obtain ⟨hrest, howner⟩ := ih (List.mem_of_find?_eq_some htarget)
    obtain ⟨ha, hsegment⟩ := Entity.mem_of_associationNamed? hnamed
    have hname := hnames.association e he a ha
    rw [hsegment] at hname
    exact ⟨List.forall_mem_cons.2 ⟨hname, hrest⟩, howner⟩

/-- The segments of a path that can be followed are names. -/
theorem isName_of_resolve (hnames : Readable schema) (hroot : root ∈ schema.entities) {path : Path}
    {r : Resolution} (h : schema.resolve root path = .ok r) :
    ∀ name ∈ path.segments, Grammar.isName name = true := by
  have hr := resolved_of_resolve h
  obtain ⟨hparent, howner⟩ := isName_of_leads hnames hr.leads hroot
  -- The last one is the name of a field or of an association, and the others lead to its owner.
  have hleaf : Grammar.isName path.leaf = true := by
    have hterminal := hr.terminal
    unfold Entity.property? at hterminal
    split at hterminal
    · rename_i f hfield
      obtain ⟨hf, hname⟩ := Entity.mem_of_fieldNamed? hfield
      exact hname ▸ hnames.field _ howner f hf
    · obtain ⟨a, hnamed, _⟩ := Option.map_eq_some_iff.1 hterminal
      obtain ⟨ha, hname⟩ := Entity.mem_of_associationNamed? hnamed
      exact hname ▸ hnames.association _ howner a ha
  rw [← Path.parent_append_leaf hr.nonempty]
  exact List.forall_mem_append.2 ⟨hparent, List.forall_mem_singleton.2 hleaf⟩

/-- A predicate that fits the root can be printed. -/
theorem printable_of_fitsRoot (hnames : Readable schema) (hroot : root ∈ schema.entities)
    {p : Predicate} (hp : p.FitsRoot schema root) : p.Printable := by
  induction p with
  | comparison path operator o =>
    obtain ⟨⟨r, hr, _⟩, ho⟩ := hp
    exact ⟨isName_of_resolve hnames hroot hr, ho⟩
  | and l r ihl ihr | or l r ihl ihr => exact ⟨ihl hp.1, ihr hp.2⟩

/-! ### The round trip -/

/-- **A condition that was printed is read as the predicate it came from.**  For every schema whose
    names can be written in templates and every predicate over the properties of an entity, with
    slots that are all positional or all named: the select by its condition has exactly this
    predicate, and its arguments are those of the predicate. -/
theorem parse_selectText (hroot : schema.entity? root.name = some root) (hnames : Readable schema)
    {p : Predicate} (hp : p.FitsRoot schema root)
    (hslots : Positional p.slots ∨ NumberedByName p.slots) :
    ∃ slots, (∀ s, s ∈ slots ↔ s ∈ p.slots) ∧ parse schema (Grammar.selectText root.name p) =
      .ok (.select ⟨root, false, [], [], .entity, false, some p, [], slots⟩) := by
  have hmem : root ∈ schema.entities := List.mem_of_find?_eq_some hroot
  have hprintable := printable_of_fitsRoot hnames hmem hp
  have hread := Grammar.parse?_selectText (hnames.entity root hmem) hprintable
  -- The slots are found in the order of the comparisons, whichever way they are written.
  obtain ⟨n', hn⟩ : ∃ n', Numbers {} p.slots n' := by
    rcases hslots with hpositional | hnamed
    · exact numbers_of_positional hpositional rfl
    · exact numbers_of_named [] rfl hnamed rfl rfl
  have hscope : Scope.ofEntity schema root.name "m" = .ok (rootScope schema root) := by
    rw [Scope.ofEntity, hroot]
    rfl
  have hcondition : condition (rootScope schema root) [[p.written "m"]] {} = .ok (some p, n') := by
    have hatoms := atomsOf_cons (atom_written hp hn) (atomsOf_nil _)
    have hall := conjunctions_cons hatoms rfl (conjunctions_nil _)
    rw [condition, bind_of_eq_ok hall]
    rfl
  -- The arguments of the select are those slots, in the order of their numbers.
  have hsorted : ∀ s, s ∈ n'.sorted ↔ s ∈ p.slots := by
    intro s
    rw [Numbering.sorted, List.mem_mergeSort, hn.mem_slots]
    simp only [List.not_mem_nil, false_or]
  refine ⟨n'.sorted, hsorted, ?_⟩
  unfold parse
  rw [hread]
  dsimp only
  -- Nothing but the condition has work to do: there are no joins, no items and no order.
  have hselect : ofSelect schema (Grammar.writtenSelect root.name p) =
      .ok ⟨root, false, [], [], .entity, false, some p, [], n'.sorted⟩ := by
    have hjoins : joinsOf (rootScope schema root) [] = .ok ([], rootScope schema root) := rfl
    have hclause : clause (rootScope schema root) (.items [⟨⟨"m", []⟩, none⟩]) =
        .ok ([], .entity, false) := rfl
    have hrun : (optionalCondition (rootScope schema root) (some [[p.written "m"]])).run {} =
        .ok (some p, n') := hcondition
    unfold ofSelect Grammar.writtenSelect
    rw [hscope, ok_bind, hjoins, ok_bind]
    dsimp only
    rw [hclause, ok_bind]
    dsimp only
    rw [hrun]
    rfl
  rw [hselect]
  rfl

/-- A condition with brackets, a name that is used twice and a list. -/
theorem parse_selectText_members :
    ∃ slots, (∀ s, s ∈ slots ↔ s ∈ [⟨0, some "low"⟩]) ∧ parse Sample.league
      "select m from Member m where ((m.age >= :low or m.team is null) and m.team.id in (1, -2))" =
      .ok (.select ⟨Sample.member, false, [], [], .entity, false,
        some (.and (.or (.comparison ⟨["age"]⟩ .greaterThanEqual (.slot ⟨0, some "low"⟩))
            (.comparison ⟨["team"]⟩ .isNull .none))
          (.comparison ⟨["team", "id"]⟩ .isIn (.literal (.list [.integer 1, .integer (-2)])))), [],
        slots⟩) := by
  have hnames : Readable Sample.league := ⟨by decide, by decide, by decide⟩
  have htext : Grammar.selectText Sample.member.name
      (.and (.or (.comparison ⟨["age"]⟩ .greaterThanEqual (.slot ⟨0, some "low"⟩))
          (.comparison ⟨["team"]⟩ .isNull .none))
        (.comparison ⟨["team", "id"]⟩ .isIn (.literal (.list [.integer 1, .integer (-2)])))) =
      "select m from Member m where ((m.age >= :low or m.team is null) and m.team.id in (1, -2))" :=
    by decide
  -- The three paths of the condition lead where they should.
  have hfits : (Predicate.and (.or (.comparison ⟨["age"]⟩ .greaterThanEqual (.slot ⟨0, some "low"⟩))
      (.comparison ⟨["team"]⟩ .isNull .none)) (.comparison ⟨["team", "id"]⟩ .isIn
        (.literal (.list [.integer 1, .integer (-2)])))).FitsRoot Sample.league Sample.member := by
    refine ⟨⟨⟨⟨_, rfl, nofun⟩, rfl, ?_⟩, ⟨_, rfl, ?_⟩, rfl⟩, ⟨_, rfl, nofun⟩, rfl, nofun, ?_⟩
    · intro name hname
      cases hname
      decide
    · intro a ha
      cases ha
      exact ⟨rfl, rfl⟩
    · simp only [List.mem_cons, List.not_mem_nil, or_false, forall_eq_or_imp, forall_eq]
      exact ⟨rfl, rfl⟩
  have hslots : NumberedByName [⟨0, some "low"⟩] := by
    intro s hs
    obtain rfl := List.mem_singleton.1 hs
    exact ⟨"low", rfl⟩
  rw [← htext]
  exact parse_selectText rfl hnames hfits (.inr hslots)

/-- The position behind the last one that fits into a word cannot be written. -/
theorem parse_selectText_lastPosition :
    Readable Sample.league ∧
      (Predicate.comparison ⟨["age"]⟩ .equals (.slot ⟨18446744073709551615, none⟩)).FitsRoot
          Sample.league Sample.member ∧
      parse Sample.league (Grammar.selectText "Member"
          (.comparison ⟨["age"]⟩ .equals (.slot ⟨18446744073709551615, none⟩))) =
        .error (.badPosition "18446744073709551616".toList .tooLarge) := by
  have hfits : (Predicate.comparison ⟨["age"]⟩ .equals
      (.slot ⟨18446744073709551615, none⟩)).FitsRoot Sample.league Sample.member :=
    ⟨⟨_, rfl, nofun⟩, rfl, nofun⟩
  have hnames : Readable Sample.league := ⟨by decide, by decide, by decide⟩
  have hmember : Grammar.isName "Member" = true := by decide
  have hread := Grammar.parse?_selectText hmember (printable_of_fitsRoot hnames (by decide) hfits)
  refine ⟨hnames, hfits, ?_⟩
  unfold parse
  rw [hread]
  rfl

end Template

end EntityQuery
