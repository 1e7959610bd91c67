import EntityQuery.Proofs.Plan.Retargeted
import EntityQuery.Repository.Definition

namespace EntityQuery

/-!
# Preparing with a deferred target

A method can be declared for a target, or its target can be deferred to each call.  `Deferral` compares
what preparing makes of the two: both are refused, or only the first one, and then no call can be
compiled either (`Prepared.Unfit`), or both are prepared and differ in the target alone
(`Prepared.Deferred`).  Each source of a method is compared by itself, and
`MethodDeclaration.deferral_prepare` puts them together.

A select template with a list of its own is the exception: declaring a target for it names the columns
of the list after the parameters of a constructor, and refuses targets that do not fit the list, and
neither is done for a target that is deferred.  So the comparison is made for targets that take the
list as it is written (`SelectTemplate.Takes`).
-/

variable {α β γ : Type}

/-- The target takes what a select template selects: everything, or the columns of its list under the
    names that are written there. -/
def SelectTemplate.Takes (t : SelectTemplate) (target : Target) : Prop :=
  t.target = .entity ∨
    match target with
    | .closed _ => True
    | .constructor shape => shape.parameters = t.selections.map (·.label)
    | _ => False

/-- A prepared method, and the same one with its target deferred. -/
inductive Prepared.Deferred (schema : Schema) (target : Target) : Prepared → Prepared → Prop where
  | select {q : Query} {compiled : Compiled} {count : Option Statement} (declared : q.target = target)
    (compiles : q.compile schema = .ok compiled) :
    Deferred schema target (.select q (some (MethodDeclaration.withCount compiled count)) count)
      (.select (q.withTarget .dynamic) none count)
  | native {compiled : Compiled} (declared : compiled.plan.target = target) :
    Deferred schema target (.native compiled)
      (.native { compiled with plan := { compiled.plan with target := .dynamic } })
  | bulk {statement : Statement} {entity : String} {clears : Bool} :
    Deferred schema target (.bulk statement entity clears) (.bulk statement entity clears)

/-- A method with a deferred target that can be compiled for whole records, but not for the target. -/
inductive Prepared.Unfit (schema : Schema) (target : Target) : Prepared → Prop where
  | select {q : Query} {records : Compiled} {count : Option Statement} (declared : q.target = target)
    (compiles : (q.withTarget .entity).compile schema = .ok records)
    (fails : ∀ compiled, q.compile schema ≠ .ok compiled) :
    Unfit schema target (.select (q.withTarget .dynamic) none count)

/-- How preparing something for a target compares with deferring the target. -/
inductive Deferral {ε : Type} (good : α → α → Prop) (unfit : α → Prop) :
    Except ε α → Except ε α → Prop where
  | refused (fault fault' : ε) : Deferral good unfit (.error fault) (.error fault')
  | late (fault : ε) {a : α} (h : unfit a) : Deferral good unfit (.error fault) (.ok a)
  | same {a a' : α} (h : good a a') : Deferral good unfit (.ok a) (.ok a')

namespace Deferral

variable {ε : Type} {good : α → α → Prop} {unfit : α → Prop}

/-- A first step that does not depend on the target. -/
theorem of_common {x : Except ε γ} {f g : γ → Except ε α}
    (h : ∀ c, Deferral good unfit (f c) (g c)) : Deferral good unfit (x >>= f) (x >>= g) := by
  cases x with
  | error fault => exact .refused fault fault
  | ok c => exact h c

/-- A last step that wraps what was prepared. -/
theorem map {good' : β → β → Prop} {unfit' : β → Prop} {x y : Except ε α} {f : α → β}
    (h : Deferral good unfit x y) (hgood : ∀ a a', good a a' → good' (f a) (f a'))
    (hunfit : ∀ a, unfit a → unfit' (f a)) :
    Deferral good' unfit' (x >>= fun a => pure (f a)) (y >>= fun a => pure (f a)) := by
  cases h with
  | refused fault fault' => exact .refused fault fault'
  | late fault h => exact .late fault (hunfit _ h)
  | same h => exact .same (hgood _ _ h)

end Deferral

/-- A shape and what is sent for it, prepared for a target and with the target deferred. -/
abbrev DeferralOf (schema : Schema) (target : Target) :
    Except Defect (Shape × Prepared) → Except Defect (Shape × Prepared) → Prop :=
  Deferral (fun p p' => p'.1 = p.1 ∧ p.2.Deferred schema target p'.2) fun p => p.2.Unfit schema target

namespace MethodDeclaration

variable {schema : Schema} {root : Entity} {m : MethodDeclaration} {target : Target}
variable {q : Query} {count : Option Statement}

/-! ### Sources -/

/-- A query can wait for its target, or does not fit the target it is given. -/
theorem deferral_prepareSelect (hq : q.target = target) (hknown : target.isDynamic = false) :
    Deferral (Prepared.Deferred schema target) (Prepared.Unfit schema target)
      (prepareSelect schema q count) (prepareSelect schema (q.withTarget .dynamic) count) := by
  have hdeclared : ¬ q.target.isDynamic = true := by simp [hq, hknown]
  have hdeferred : (q.withTarget .dynamic).target.isDynamic = true := rfl
  unfold prepareSelect
  rw [if_neg hdeclared, if_pos hdeferred]
  show Deferral _ _ _ ((liftM ((q.withTarget .entity).compile schema) : Except Defect _) >>= _)
  cases hcompile : q.compile schema with
  | ok compiled =>
    -- What compiles for the target passes the check with whole records.
    obtain ⟨records, hrecords⟩ := Query.exists_compile_entity hcompile
    rw [hrecords]
    exact .same (.select hq hcompile)
  | error defect =>
    cases hrecords : (q.withTarget .entity).compile schema with
    | ok records => exact .late _ (.select hq hrecords fun compiled hok => by simp [hcompile] at hok)
    | error defect' => exact .refused _ _

/-- So can a derived method. -/
theorem deferral_prepareDerived (hknown : target.isDynamic = false) :
    DeferralOf schema target (prepareDerived schema root { m with target })
      (prepareDerived schema root { m with target := .dynamic }) := by
  unfold prepareDerived
  refine .of_common fun parsed => .of_common fun shape => ?_
  dsimp only
  split
  · exact .refused _ _
  split
  · -- A delete does not look at the target.
    split
    · exact .refused _ _
    · refine .of_common fun statement => ?_
      exact .same ⟨rfl, .bulk⟩
  · exact (deferral_prepareSelect rfl hknown).map (fun _ _ h => ⟨rfl, h⟩) fun _ h => h

/-- The columns of a list keep their names under the parameters of the same names. -/
theorem zip_labels (selections : List Selection) :
    ((selections.zip (selections.map (·.label))).map fun (s, parameter) =>
      { s with label := parameter }) = selections := by
  induction selections with
  | nil => rfl
  | cons s selections ih => rw [List.map_cons, List.zip_cons_cons, List.map_cons, ih]

/-- A target that takes what is selected leaves the select list as it is. -/
theorem templateTarget_of_takes {t : SelectTemplate} (h : t.Takes target) :
    templateTarget t target = .ok (t.selections, target) := by
  rcases h with hwritten | htakes
  · simp only [templateTarget, hwritten]
  · cases target with
    | closed view => cases hwritten : t.target <;> simp only [templateTarget, hwritten]
    | constructor shape =>
      have htakes : shape.parameters = t.selections.map (·.label) := htakes
      have hlength : ¬ shape.parameters.length ≠ t.selections.length := by simp [htakes]
      cases hwritten : t.target <;> simp only [templateTarget, hwritten, if_neg hlength]
      all_goals rw [htakes, zip_labels]
    | entity | scalar | opened | dynamic => cases htakes

/-- The list of a template stays as it is when its target is deferred. -/
theorem templateTarget_dynamic (t : SelectTemplate) :
    templateTarget t .dynamic = .ok (t.selections, .dynamic) := by
  cases hwritten : t.target <;> simp only [templateTarget, hwritten]

/-- And so can a template, if the target takes what the template selects. -/
theorem deferral_prepareTemplate {text : String} (hknown : target.isDynamic = false)
    (htakes : ∀ t, Template.parse schema text = .ok (.select t) → t.Takes target) :
    DeferralOf schema target (prepareTemplate schema { m with target } text)
      (prepareTemplate schema { m with target := .dynamic } text) := by
  unfold prepareTemplate
  cases hparse : Template.parse schema text with
  | error defect => exact .refused _ _
  | ok template =>
    cases template with
    | bulk b =>
      show DeferralOf _ _ (ite _ _ _) (ite _ _ _)
      split
      · exact .refused _ _
      · exact .of_common fun statement => .same ⟨rfl, .bulk⟩
    | select t =>
      show DeferralOf _ _ (templateShape t.countOnly m.shape >>= _)
        (templateShape t.countOnly m.shape >>= _)
      refine .of_common fun shape => .of_common fun count => ?_
      unfold templateQuery
      -- Of a written list a deferred target sees nothing, so the declared one must not either.
      rw [templateTarget_of_takes (htakes t hparse), templateTarget_dynamic]
      exact (deferral_prepareSelect rfl hknown).map (fun _ _ h => ⟨rfl, h⟩) fun _ h => h

/-- A native query can wait for its target where its entity is known. -/
theorem deferral_compileNative (q : NativeQuery) (hentity : q.entity.isNone = false) (shape : Shape) :
    DeferralOf schema q.target
      (do return (shape, .native (← (q.compile : Except CompileDefect _))))
      (do
        let compiled ← ({ q with target := .dynamic }.compile : Except CompileDefect _)
        return (shape, .native compiled)) := by
  unfold NativeQuery.compile
  dsimp only
  split
  · exact .refused _ _
  · rw [hentity, Bool.and_false, Bool.and_false]
    exact .same ⟨rfl, .native rfl⟩

/-- So can a native method. -/
theorem deferral_prepareNative {sql : String} :
    DeferralOf schema target (prepareNative schema root { m with target } sql)
      (prepareNative schema root { m with target := .dynamic } sql) := by
  unfold prepareNative
  dsimp only
  split
  · exact .same ⟨rfl, .bulk⟩
  · split
    · exact deferral_compileNative ⟨sql, m.countQuery, some root, target, _⟩ rfl _
    · split
      · rename_i entity _
        exact deferral_compileNative ⟨sql, m.countQuery, some entity, target, _⟩ rfl _
      · exact .refused _ _

/-- What is sent for a method, prepared from a source. -/
def prepareFrom (schema : Schema) (root : Entity) (m : MethodDeclaration) :
    MethodSource → Except Defect (Shape × Prepared)
  | .derived => prepareDerived schema root m
  | .template text => prepareTemplate schema m text
  | .native sql => prepareNative schema root m sql

/-- Preparing a method is preparing its source and noting its directives. -/
theorem prepare_eq (schema : Schema) (root : Entity) (m : MethodDeclaration) :
    m.prepare schema root = (prepareFrom schema root m m.source >>= fun p =>
      pure ⟨p.1, { locks := m.locks, readOnly := m.readOnly }, p.2⟩) := by
  unfold prepare prepareFrom
  cases m.source <;> rfl

/-- Every source can wait for its target. -/
theorem deferral_prepareFrom (hknown : target.isDynamic = false) {source : MethodSource}
    (htakes : ∀ text t, source = .template text → Template.parse schema text = .ok (.select t) →
      t.Takes target) :
    DeferralOf schema target (prepareFrom schema root { m with target } source)
      (prepareFrom schema root { m with target := .dynamic } source) := by
  cases source with
  | derived => exact deferral_prepareDerived hknown
  | template text => exact deferral_prepareTemplate hknown fun t => htakes text t rfl
  | native sql => exact deferral_prepareNative

end MethodDeclaration

/-- A definition, and the same one with its target deferred. -/
structure Definition.Deferred (schema : Schema) (target : Target) (d d' : Definition) : Prop where
  shape : d'.shape = d.shape
  directives : d'.directives = d.directives
  prepared : d.prepared.Deferred schema target d'.prepared

/-- **Preparing a method**, for a target that takes what it selects, and with the target deferred. -/
theorem MethodDeclaration.deferral_prepare {schema : Schema} {root : Entity} {m : MethodDeclaration}
    {target : Target} (hknown : target.isDynamic = false)
    (htakes : ∀ text t, m.source = .template text → Template.parse schema text = .ok (.select t) →
      t.Takes target) :
    Deferral (Definition.Deferred schema target) (fun d => d.prepared.Unfit schema target)
      ({ m with target }.prepare schema root) ({ m with target := .dynamic }.prepare schema root) := by
  rw [prepare_eq, prepare_eq]
  exact (deferral_prepareFrom hknown htakes).map (fun _ _ h => ⟨h.1, rfl, h.2⟩) fun _ h => h

end EntityQuery
