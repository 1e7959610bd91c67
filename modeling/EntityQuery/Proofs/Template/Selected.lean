import EntityQuery.Proofs.Repository.Deferral
import EntityQuery.Proofs.Template.Accepted

namespace EntityQuery

/-!
# What templates select

A select template names paths, and its target follows from how they are written
(`Template.selects_of_parse`): none of them for whole records, otherwise a constructor over their labels,
a single value, or a view with an entry for each.  With a constructor that is declared for it or written
in it, the columns have the names of the parameters, in the order in which the paths are written
(`MethodDeclaration.constructs_of_templateTarget`).
-/

namespace Template

open Text Text.Reader

variable {schema : Schema} {scope : Scope} {selections : List Selection} {target : Target}

/-- The list of a clause is not empty. -/
def ListsSome : SelectClause → Prop
  | .items items => items ≠ []
  | .construct _ items => items ≠ []
  | .count .. => True

/-- A select that was read has a clause with items. -/
def SelectsSome : WrittenTemplate → Prop
  | .select w => ListsSome w.clause
  | .bulk _ => True

/-- A select clause that is read lists something. -/
theorem listsSome_of_selectClause : Yields Grammar.selectClause ListsSome := by
  have hconstruct : Yields Grammar.constructItem ListsSome :=
    (yields_true _).bind fun _ _ => (yields_true _).bind fun _ _ => (yields_true _).bind fun _ _ =>
      (yields_separated _ _).bind fun _ hne => (yields_true _).bind fun _ _ => yields_pure hne
  have hcount : Yields Grammar.countItem ListsSome :=
    (yields_true _).bind fun _ _ => (yields_true _).bind fun _ _ => (yields_true _).bind fun _ _ =>
      (yields_true _).bind fun _ _ => (yields_true _).bind fun _ _ => yields_pure trivial
  have hitems : Yields (SelectClause.items <$> Grammar.commaSeparated Grammar.selectItem) ListsSome :=
    .map (yields_separated _ _)
  exact hconstruct.orElse (hcount.orElse hitems)

/-- So does that of a statement. -/
theorem selectsSome_of_statement (depth : Nat) : Yields (Grammar.statement depth) SelectsSome := by
  have hselect : Yields (WrittenTemplate.select <$> Grammar.selectStatement depth) SelectsSome := by
    -- The clause is read after the keywords, and everything behind it leaves it as it is.
    refine .map ((yields_true _).bind fun _ _ => (yields_true _).bind fun _ _ => ?_)
    exact listsSome_of_selectClause.bind fun _ hlists => (yields_true _).bind fun _ _ =>
      (yields_true _).bind fun _ _ => (yields_true _).bind fun _ _ => (yields_true _).bind fun _ _ =>
      (yields_true _).bind fun _ _ => (yields_true _).bind fun _ _ => yields_pure hlists
  have hupdate : Yields (WrittenTemplate.bulk <$> Grammar.updateStatement depth) SelectsSome :=
    .map fun _ _ _ _ => trivial
  have hdelete : Yields (WrittenTemplate.bulk <$> Grammar.deleteStatement depth) SelectsSome :=
    .map fun _ _ _ _ => trivial
  exact (hselect.orElse (hupdate.orElse hdelete)).bind fun _ h =>
    (yields_true _).bind fun _ _ => yields_pure h

/-- And of a whole text. -/
theorem selectsSome_of_parse? {text : String} {w : WrittenTemplate}
    (h : Grammar.parse? text = some w) : SelectsSome w := by
  unfold Grammar.parse? Text.Reader.whole at h
  dsimp only at h
  split at h
  · rename_i hread
    cases h
    exact selectsSome_of_statement _ _ _ _ hread
  · cases h

/-- How the paths of a select and its target go together. -/
inductive Selects (selections : List Selection) (target : Target) : Prop where
  | records (none : selections = []) (whole : target = .entity)
  | arguments (some : selections ≠ []) (shape : Constructor) (constructs : target = .constructor shape)
    (named : shape.parameters = selections.map (·.label))
  | list (some : selections ≠ []) (made : target = listTarget selections)

/-- A list makes up a value or a view. -/
theorem listTarget_ne (selections : List Selection) :
    listTarget selections ≠ .entity ∧ ∀ shape, listTarget selections ≠ .constructor shape := by
  unfold listTarget
  split <;> exact ⟨nofun, nofun⟩

/-- A clause gives records, arguments or a list, and lists something in the last two cases. -/
theorem selects_of_clause {c : SelectClause} {countOnly : Bool} (hlists : ListsSome c)
    (h : clause scope c = .ok (selections, target, countOnly)) : Selects selections target := by
  -- Resolving keeps the number of items.
  have hsome : ∀ {items : List SelectItem} {found : List Selection}, items ≠ [] →
      items.mapM (selection scope) = .ok found → found ≠ [] := by
    rintro items found hne hfound rfl
    exact hne (List.forall₂_nil_right_iff.1 (listMapM_eq_ok_iff.1 hfound))
  unfold clause at h
  split at h
  · obtain ⟨_, _, h⟩ := bind_eq_ok_iff.1 h
    cases h
    exact .records rfl rfl
  · obtain ⟨found, hfound, h⟩ := bind_eq_ok_iff.1 h
    cases h
    exact .arguments (hsome hlists hfound) _ rfl rfl
  · obtain ⟨path, _, h⟩ := bind_eq_ok_iff.1 h
    split at h
    · cases h
      exact .records rfl rfl
    · obtain ⟨s, _, h⟩ := bind_eq_ok_iff.1 h
      cases h
      exact .list (List.cons_ne_nil _ _) rfl
  · obtain ⟨found, hfound, h⟩ := bind_eq_ok_iff.1 h
    cases h
    exact .list (hsome hlists hfound) rfl

/-- **What an accepted template selects.** -/
theorem selects_of_parse {text : String} {t : SelectTemplate}
    (h : parse schema text = .ok (.select t)) : Selects t.selections t.target := by
  unfold parse at h
  split at h
  · cases h
  · rename_i w hread
    obtain ⟨found, hfound, h⟩ := bind_eq_ok_iff.1 h
    cases h
    unfold ofSelect at hfound
    obtain ⟨scope, _, hfound⟩ := bind_eq_ok_iff.1 hfound
    obtain ⟨⟨joins, scope'⟩, _, hfound⟩ := bind_eq_ok_iff.1 hfound
    obtain ⟨⟨selections, target, countOnly⟩, hclause, hfound⟩ := bind_eq_ok_iff.1 hfound
    obtain ⟨⟨predicate, numbering⟩, _, hfound⟩ := bind_eq_ok_iff.1 hfound
    obtain ⟨order, _, hfound⟩ := bind_eq_ok_iff.1 hfound
    cases hfound
    exact selects_of_clause (selectsSome_of_parse? hread) hclause
  · obtain ⟨found, _, h⟩ := bind_eq_ok_iff.1 h
    cases h

end Template

namespace MethodDeclaration

variable {t : SelectTemplate} {selections : List Selection} {target : Target} {shape : Constructor}

/-- Labels that are replaced one by one. -/
theorem map_relabelled {selections : List Selection} {labels : List String}
    (hlength : labels.length = selections.length) :
    ((selections.zip labels).map fun (s, label) => { s with label }).map (·.path) =
        selections.map (·.path) ∧
      ((selections.zip labels).map fun (s, label) => { s with label }).map (·.label) = labels := by
  rw [List.map_map, List.map_map]
  constructor
  · calc (selections.zip labels).map ((·.path) ∘ fun (s, label) => { s with label })
        = ((selections.zip labels).map Prod.fst).map (·.path) := by rw [List.map_map]; rfl
      _ = selections.map (·.path) := by rw [List.map_fst_zip (by omega)]
  · exact List.map_snd_zip (by omega)

/-- The results of a template with a list are those of a constructor: it is declared for them, or it is
    written in the template, and nothing else is declared or it is asked for with the call. -/
def Constructs (m : MethodDeclaration) (t : SelectTemplate) (given : Option Target)
    (shape : Constructor) : Prop :=
  m.target = .constructor shape ∧ t.selections ≠ [] ∨
    t.target = .constructor shape ∧
      (m.target = .entity ∨ m.target = .dynamic ∧ given = some (.constructor shape))

/-- A constructor that is written in a template has the labels of its list. -/
theorem labels_of_constructor (hselects : Template.Selects t.selections t.target)
    (hwritten : t.target = .constructor shape) :
    t.selections ≠ [] ∧ t.selections.map (·.label) = shape.parameters := by
  rcases hselects with ⟨_, hentity⟩ | ⟨hne, found, hconstructs, hnamed⟩ | ⟨_, hmade⟩
  · cases hentity.symm.trans hwritten
  · cases hconstructs.symm.trans hwritten
    exact ⟨hne, hnamed.symm⟩
  · exact absurd (hmade.symm.trans hwritten) ((Template.listTarget_ne _).2 shape)

/-- A list makes up something else than whole records. -/
theorem target_ne_entity (hselects : Template.Selects t.selections t.target) (hne : t.selections ≠ []) :
    t.target ≠ .entity := by
  intro hentity
  rcases hselects with ⟨hnone, _⟩ | ⟨_, _, hconstructs, _⟩ | ⟨_, hmade⟩
  · exact hne hnone
  · cases hentity.symm.trans hconstructs
  · exact (Template.listTarget_ne _).1 (hmade.symm.trans hentity)

/-- **A constructor over a written list** names its columns after its parameters: a declared one in the
    order of the list, one that is written in it by the labels that are there. -/
theorem constructs_of_templateTarget {m : MethodDeclaration} {given : Option Target}
    (hselects : Template.Selects t.selections t.target) (hshape : m.Constructs t given shape)
    (h : templateTarget t m.target = .ok (selections, target)) :
    target.resolve given = .ok (.constructor shape) ∧ selections ≠ [] ∧
      selections.map (·.path) = t.selections.map (·.path) ∧
      selections.map (·.label) = shape.parameters := by
  rcases hshape with ⟨hdeclared, hne⟩ | ⟨hwritten, hkept⟩
  -- The constructor of the declaration takes the list of the template with its own labels.
  · have hsteps : templateTarget t (.constructor shape) =
        if shape.parameters.length ≠ t.selections.length then
          .error (.argumentCount shape.type shape.parameters.length t.selections.length)
        else .ok ((t.selections.zip shape.parameters).map fun (s, parameter) =>
          { s with label := parameter }, .constructor shape) := by
      cases hwritten : t.target <;> simp only [templateTarget, hwritten]
      exact absurd hwritten (target_ne_entity hselects hne)
    rw [hdeclared, hsteps] at h
    split at h
    · cases h
    rename_i hlength
    cases h
    obtain ⟨hpaths, hlabels⟩ := map_relabelled (not_ne_iff.1 hlength)
    refine ⟨rfl, fun hnil => ?_, hpaths, hlabels⟩
    rw [hnil] at hpaths
    exact hne (List.map_eq_nil_iff.1 hpaths.symm)
  · obtain ⟨hne, hlabels⟩ := labels_of_constructor hselects hwritten
    rcases hkept with hdeclared | ⟨hdeclared, rfl⟩ <;>
    · simp only [templateTarget, hwritten, hdeclared] at h
      cases h
      exact ⟨rfl, hne, rfl, hlabels⟩

end MethodDeclaration

end EntityQuery
