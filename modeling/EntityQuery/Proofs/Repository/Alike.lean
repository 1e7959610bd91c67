import EntityQuery.Proofs.Repository.Calls
import EntityQuery.Proofs.Repository.Running
import EntityQuery.Proofs.Schema.Resolved

namespace EntityQuery

/-!
# Arguments of the same form

Two calls whose arguments differ in the values only send the same texts: a value stands beside the
text of a statement and never in it.  What the text does depend on is told apart first,

* `Value.listLength?`, whether a value is a list and how long it is,
* `CallArguments.Alike`, arguments that agree on this and on all that is no value,

and two runs are then compared step by step, as `Run.Twin`, up to `Repository.twin_call` for a whole
call.
-/

variable {σ α β : Type}

/-! ### Forms of values -/

/-- The length of a value that is a list. -/
def Value.listLength? : Value → Option Nat
  | .list items => some items.length
  | _ => none

/-- Two values are both no lists, or both lists of one length. -/
def Value.SameForm (v w : Value) : Prop := v.listLength? = w.listLength?

instance (v w : Value) : Decidable (v.SameForm w) :=
  inferInstanceAs (Decidable (v.listLength? = w.listLength?))

/-- Values of one form are both lists or both not. -/
theorem Value.SameForm.isList_eq {v w : Value} (h : v.SameForm w) : v.isList = w.isList := by
  cases v <;> cases w <;> first | rfl | cases h

/-- Arguments that differ in the values only, and each value keeps its form. -/
structure CallArguments.Alike (args args' : CallArguments) : Prop where
  positional : List.Forall₂ Value.SameForm args.positional args'.positional
  named : List.Forall₂ (fun p q => p.1 = q.1 ∧ p.2.SameForm q.2) args.named args'.named
  page : args.page = args'.page
  order : args.order = args'.order
  target : args.target = args'.target

/-! ### Outcomes that agree -/

/-- Two outcomes that are the same failure, or successes that are related. -/
inductive SameOutcome {ε : Type} (R : α → β → Prop) : Except ε α → Except ε β → Prop
  | error (e : ε) : SameOutcome R (.error e) (.error e)
  | ok {a : α} {b : β} (h : R a b) : SameOutcome R (.ok a) (.ok b)

namespace SameOutcome

variable {ε γ δ : Type} {R : α → β → Prop}

/-- Sequences have the same outcome if their steps do. -/
theorem bind {S : γ → δ → Prop} {x : Except ε α} {y : Except ε β} {f : α → Except ε γ}
    {g : β → Except ε δ} (h : SameOutcome R x y)
    (hnext : ∀ a b, R a b → SameOutcome S (f a) (g b)) : SameOutcome S (x >>= f) (y >>= g) := by
  cases h with
  | error e => exact .error e
  | ok h => exact hnext _ _ h

/-- So have steps over one list. -/
theorem mapM {f : γ → Except ε α} {g : γ → Except ε β} (h : ∀ c, SameOutcome R (f c) (g c))
    (cs : List γ) : SameOutcome (List.Forall₂ R) (cs.mapM f) (cs.mapM g) := by
  induction cs with
  | nil => exact .ok .nil
  | cons c cs ih =>
    rw [List.mapM_cons, List.mapM_cons]
    exact (h c).bind fun a b hab => ih.bind fun as bs hrest => .ok (.cons hab hrest)

end SameOutcome

/-- Lookups that find values of one form under every slot, or fail alike. -/
def LookupsAlike (lookup lookup' : Slot → Except ParameterFault Value) : Prop :=
  ∀ slot, SameOutcome Value.SameForm (lookup slot) (lookup' slot)

/-- Lists with the same keys have related values under each of them. -/
theorem rel_lookup {γ : Type} [BEq γ] {R : α → β → Prop} {as : List (γ × α)} {bs : List (γ × β)}
    (h : List.Forall₂ (fun p q => p.1 = q.1 ∧ R p.2 q.2) as bs) (key : γ) :
    Option.Rel R (as.lookup key) (bs.lookup key) := by
  induction h with
  | nil => exact .none
  | @cons p q as bs hpq _ ih =>
    rw [List.lookup_cons, List.lookup_cons, ← hpq.1]
    cases key == p.1
    · exact ih
    · exact .some hpq.2

/-- And related lists have related values at each place. -/
theorem rel_getElem? {R : α → β → Prop} {as : List α} {bs : List β} (h : List.Forall₂ R as bs)
    (i : Nat) : Option.Rel R as[i]? bs[i]? := by
  induction h generalizing i with
  | nil => exact .none
  | cons hab _ ih =>
    cases i with
    | zero => exact .some hab
    | succ i => exact ih i

/-- Arguments that are alike give values of one form for each slot. -/
theorem CallArguments.Alike.lookup {args args' : CallArguments} (h : args.Alike args') :
    LookupsAlike args.lookup args'.lookup := by
  intro slot
  have hname : Option.Rel Value.SameForm (slot.name.bind fun name => args.named.lookup name)
      (slot.name.bind fun name => args'.named.lookup name) := by
    cases slot.name with
    | none => exact .none
    | some name => exact rel_lookup h.named name
  have hindex := rel_getElem? h.positional slot.index
  unfold CallArguments.lookup
  -- A name comes first, and without it the position decides.
  generalize slot.name.bind (fun name => args.named.lookup name) = byName at hname ⊢
  generalize slot.name.bind (fun name => args'.named.lookup name) = byName' at hname ⊢
  generalize args.positional[slot.index]? = byIndex at hindex ⊢
  generalize args'.positional[slot.index]? = byIndex' at hindex ⊢
  cases hname with
  | some hform => exact .ok hform
  | none =>
    cases hindex with
    | some hform => exact .ok hform
    | none =>
      rw [← h.positional.length_eq, ← h.named.length_eq]
      exact .error _

/-! ### Texts of bound statements -/

/-- Bound statements with one text. -/
def Bound.SameText (b b' : Bound) : Prop := b.sql = b'.sql

section Binding

variable {lookup lookup' : Slot → Except ParameterFault Value}

/-- The text of a list only depends on its length. -/
theorem Fragment.sameText_bindList {items others : List Value} (h : items.length = others.length) :
    (bindList items).SameText (bindList others) := by
  have hempty : items.isEmpty = others.isEmpty := by
    cases items <;> cases others <;> first | rfl | cases h
  unfold bindList
  rw [hempty, List.map_const', List.map_const', h]
  split <;> rfl

/-- A fragment is bound to one text by both lookups, or cannot be bound for one reason. -/
theorem Fragment.bind_alike (h : LookupsAlike lookup lookup') (f : Fragment) :
    SameOutcome Bound.SameText (f.bind lookup) (f.bind lookup') := by
  cases f with
  | sql text => exact .ok rfl
  | value v => exact .ok rfl
  | valueList items => exact .ok rfl
  -- Only whether the value is a list matters here, and only the number of items in the next case.
  | slot slot =>
    refine (h slot).bind fun v w hform => ?_
    rw [hform.isList_eq]
    cases w.isList
    · exact .ok rfl
    · exact .error _
  | slotList slot =>
    refine (h slot).bind fun v w hform => ?_
    cases v <;> cases w <;> first | exact .ok rfl | cases hform | skip
    exact .ok (sameText_bindList (Option.some.inj hform))

/-- The text of a bound statement does not depend on the values. -/
theorem Statement.bind_alike (h : LookupsAlike lookup lookup') (s : Statement) :
    SameOutcome Bound.SameText (s.bind lookup) (s.bind lookup') := by
  refine (SameOutcome.mapM (Fragment.bind_alike h) s.fragments).bind fun parts parts' hparts => ?_
  have htexts : parts.map Bound.sql = parts'.map Bound.sql := by
    rw [← List.forall₂_eq_eq_eq, List.forall₂_map_left_iff, List.forall₂_map_right_iff]
    exact hparts
  exact .ok (congrArg String.join htexts)

end Binding

/-! ### Two runs side by side -/

/-- A sent statement without its values. -/
def Sent.outline (s : Sent) : SentKind × String × Directives := (s.kind, s.statement.sql, s.directives)

/-- Exchanges that only differ in the values of the statements that were sent. -/
structure Exchange.Alike (e e' : Exchange σ) : Prop where
  state : e.state = e'.state
  sent : e.sent.map Sent.outline = e'.sent.map Sent.outline
  events : e.events = e'.events

/-- A run is like itself. -/
theorem Exchange.Alike.refl (e : Exchange σ) : e.Alike e := ⟨rfl, rfl, rfl⟩

/-- The texts that were sent are the same. -/
theorem Exchange.Alike.texts_eq {e e' : Exchange σ} (h : e.Alike e') :
    e.sent.map (·.statement.sql) = e'.sent.map (·.statement.sql) := by
  have hsent := congrArg (List.map fun outline => outline.2.1) h.sent
  rwa [List.map_map, List.map_map] at hsent

/-- Two runs that answer the same, and keep exchanges alike that are alike. -/
def Run.Twin (x y : Run σ α) : Prop :=
  ∀ ⦃e e'⦄, e.Alike e' → (x e).1 = (y e').1 ∧ (x e).2.Alike (y e').2

namespace Run.Twin

/-- Sequences of runs that send the same texts send the same texts. -/
theorem bind {x y : Run σ α} {f g : α → Run σ β} (h : x.Twin y) (hnext : ∀ a, (f a).Twin (g a)) :
    (x >>= f).Twin (y >>= g) := by
  intro e e' he
  obtain ⟨hanswer, hmid⟩ := h he
  rw [Run.bind_eq, Run.bind_eq, ← hanswer]
  cases (x e).1 with
  | error fault => exact ⟨rfl, hmid⟩
  | ok a => exact hnext a hmid

/-- Work that neither looks at the exchange nor changes it. -/
theorem of_still {x : Run σ α} (h : ∃ answer, ∀ e, x e = (answer, e)) : x.Twin x := by
  obtain ⟨answer, h⟩ := h
  intro e e' he
  rw [h, h]
  exact ⟨rfl, he⟩

theorem pure (a : α) : (Pure.pure a : Run σ α).Twin (Pure.pure a) := of_still ⟨.ok a, fun _ => rfl⟩

theorem throw (fault : Error) : (MonadExcept.throw fault : Run σ α).Twin (MonadExcept.throw fault) :=
  of_still ⟨.error fault, fun _ => rfl⟩

theorem error (x : Except Error α) : (liftM x : Run σ α).Twin (liftM x) :=
  of_still ⟨x, fun _ => rfl⟩

theorem parameter (x : Except ParameterFault α) : (liftM x : Run σ α).Twin (liftM x) :=
  of_still ⟨x.mapError .parameter, fun _ => rfl⟩

theorem reading (x : Except ReadFault α) : (liftM x : Run σ α).Twin (liftM x) :=
  of_still ⟨x.mapError .reading, fun _ => rfl⟩

theorem tell (event : Event) : (Run.tell event : Run σ Unit).Twin (Run.tell event) :=
  fun _ _ he => ⟨rfl, he.state, he.sent, congrArg (· ++ [event]) he.events⟩

/-- Binding for two lookups, and then going on with statements of one text. -/
theorem parameter_bind {x y : Except ParameterFault Bound} {f g : Bound → Run σ α}
    (h : SameOutcome Bound.SameText x y) (hnext : ∀ b b', b.SameText b' → (f b).Twin (g b')) :
    ((liftM x : Run σ Bound) >>= f).Twin ((liftM y : Run σ Bound) >>= g) := by
  cases h with
  | error fault => exact of_still ⟨.error (.parameter fault), fun _ => rfl⟩
  | ok h => exact hnext _ _ h

/-- A script answers the same whatever is asked. -/
theorem fetch {b b' : Bound} (h : b.SameText b') (directives : Directives) :
    (Run.fetch .scripted b directives).Twin (Run.fetch .scripted b' directives) := by
  intro e e' he
  have houtline : Sent.outline ⟨.fetch, b, directives⟩ = Sent.outline ⟨.fetch, b', directives⟩ :=
    congrArg (fun sql => (_, sql, _)) h
  refine ⟨congrArg (fun replies : List Reply => Reply.toRows replies.head?) he.state,
    congrArg List.tail he.state, ?_, he.events⟩
  simp only [Run.fetch, List.map_append, he.sent, List.map_cons, List.map_nil, houtline]

/-- A change that is sent with the same text in both runs is answered alike. -/
theorem execute {b b' : Bound} (h : b.SameText b') (directives : Directives) :
    (Run.execute .scripted b directives).Twin (Run.execute .scripted b' directives) := by
  intro e e' he
  have houtline : Sent.outline ⟨.execute, b, directives⟩ = Sent.outline ⟨.execute, b', directives⟩ :=
    congrArg (fun sql => (_, sql, _)) h
  refine ⟨congrArg (fun replies : List Reply => Reply.toAffected replies.head?) he.state,
    congrArg List.tail he.state, ?_, he.events⟩
  simp only [Run.execute, List.map_append, he.sent, List.map_cons, List.map_nil, houtline]

end Run.Twin

/-! ### Calls -/

namespace Repository

open Run

variable {repository : Repository} {args args' : CallArguments} {directives : Directives}

/-- Compiling looks at the target and the order of a call, which alike arguments share. -/
theorem compiledFor_alike (h : args.Alike args') (name : String) (d : Definition) :
    repository.compiledFor name d args = repository.compiledFor name d args' := by
  unfold compiledFor CallArguments.fullOrder
  rw [h.order, h.page, h.target]

/-- So does finding the method. -/
theorem select_alike (h : args.Alike args') (name : String) (shape : Shape) :
    repository.select name args shape = repository.select name args' shape := by
  unfold select
  simp only [compiledFor_alike h]

/-- And so does reading the request. -/
theorem requestFor_alike (h : args.Alike args') :
    repository.requestFor args = repository.requestFor args' := by
  unfold requestFor
  rw [h.page]

/-- The same statement is sent with the same text. -/
theorem twin_fetchRows (h : args.Alike args') (statement : Statement) :
    (repository.fetchRows .scripted statement args directives).Twin
      (repository.fetchRows .scripted statement args' directives) :=
  .parameter_bind (statement.bind_alike h.lookup) fun _ _ hsame => .fetch hsame _

/-- Mapping the rows sends nothing. -/
theorem twin_mapRows (plan : MappingPlan) (rows : RowSet) :
    (repository.mapRows plan rows directives : Run (List Reply) _).Twin
      (repository.mapRows plan rows directives) := by
  refine .bind (.reading _) fun mapped => ?_
  show (report plan directives mapped).Twin (report plan directives mapped)
  intro e e' he
  rw [report_eq, report_eq]
  exact ⟨rfl, he.state, he.sent, congrArg (· ++ _) he.events⟩

/-- So fetching and mapping sends the same texts. -/
theorem twin_fetchResults (h : args.Alike args') (statement : Statement) (plan : MappingPlan) :
    (repository.fetchResults .scripted statement plan args directives).Twin
      (repository.fetchResults .scripted statement plan args' directives) :=
  .bind (twin_fetchRows h statement) fun rows => twin_mapRows plan rows

/-- And so does fetching one result. -/
theorem twin_fetchSingle (h : args.Alike args') (name : String) (statement : Statement)
    (plan : MappingPlan) :
    (repository.fetchSingle .scripted name statement plan args directives).Twin
      (repository.fetchSingle .scripted name statement plan args' directives) := by
  refine .bind (twin_fetchResults h statement plan) fun results => ?_
  match results with
  | [] => exact .pure none
  | [result] => exact .pure (some result)
  | _ :: _ :: _ => exact .throw (.ambiguous name)

/-- A count is sent with the same text. -/
theorem twin_fetchCount (h : args.Alike args') (name : String) (statement : Statement) :
    (repository.fetchCount .scripted name statement args directives).Twin
      (repository.fetchCount .scripted name statement args' directives) :=
  .bind (twin_fetchRows h statement) fun rows => .reading (countOf name rows)

/-- A page sends its window and then its count, each with the same text. -/
theorem twin_fetchPage (h : args.Alike args') (name : String) (compiled : Compiled)
    (request : PageRequest) :
    (repository.fetchPage .scripted name compiled args request directives).Twin
      (repository.fetchPage .scripted name compiled args' request directives) := by
  unfold fetchPage
  cases compiled.count with
  | none => exact .throw _
  | some count =>
    refine .bind (.parameter _) fun offset => .bind (.parameter _) fun window => ?_
    refine .bind (twin_fetchResults h window compiled.plan) fun content => ?_
    exact .bind (twin_fetchCount h name count) fun total => .pure _

/-- A slice sends one window. -/
theorem twin_fetchSlice (h : args.Alike args') (compiled : Compiled) (request : PageRequest) :
    (repository.fetchSlice .scripted compiled args request directives).Twin
      (repository.fetchSlice .scripted compiled args' request directives) := by
  refine .bind (.parameter _) fun offset => .bind (.parameter _) fun window => ?_
  refine .bind (twin_fetchRows h window) fun rows => ?_
  exact .bind (twin_mapRows compiled.plan _) fun content => .pure _

/-- A call is answered the same, and sends the same texts, for all arguments of one form. -/
theorem twin_call (h : args.Alike args') (name : String) (expected : Expected) (shape : Shape) :
    (repository.call .scripted name args expected shape).Twin
      (repository.call .scripted name args' expected shape) := by
  cases shape with
  | single =>
    refine .bind ?_ fun _ => .pure _
    unfold one
    rw [select_alike h]
    refine .bind (.error _) fun (d, compiled) => .bind (.parameter _) fun window => ?_
    exact .bind (twin_fetchSingle h name window compiled.plan) fun result => .reading _
  | list =>
    refine .bind ?_ fun _ => .pure _
    unfold list
    rw [select_alike h]
    refine .bind (.error _) fun (d, compiled) => .bind (.parameter _) fun window => ?_
    exact .bind (twin_fetchResults h window compiled.plan) fun results => .reading _
  -- A page and a slice read the request between finding the method and compiling it.
  | page =>
    refine .bind ?_ fun _ => .pure _
    unfold page
    rw [requestFor_alike h]
    refine .bind (.error _) fun d => .bind (.error _) fun request => ?_
    rw [compiledFor_alike h]
    refine .bind (.error _) fun compiled => ?_
    exact .bind (twin_fetchPage h name compiled request) fun page => .reading _
  | slice =>
    refine .bind ?_ fun _ => .pure _
    unfold slice
    rw [requestFor_alike h]
    refine .bind (.error _) fun d => .bind (.error _) fun request => ?_
    rw [compiledFor_alike h]
    refine .bind (.error _) fun compiled => ?_
    exact .bind (twin_fetchSlice h compiled request) fun slice => .reading _
  | count =>
    refine .bind ?_ fun _ => .pure _
    unfold count
    rw [select_alike h]
    exact .bind (.error _) fun (d, compiled) => twin_fetchCount h name compiled.content
  | existence =>
    refine .bind ?_ fun _ => .pure _
    unfold exists?
    rw [select_alike h]
    refine .bind (.error _) fun (d, compiled) => .bind (.parameter _) fun window => ?_
    exact .bind (twin_fetchRows h window) fun rows => .pure _
  | bulk =>
    refine .bind ?_ fun _ => .pure _
    refine .bind (.error _) fun d => ?_
    cases d.prepared with
    | select _ _ _ => exact .throw _
    | native _ => exact .throw _
    | bulk statement entity clears =>
      refine .parameter_bind (statement.bind_alike h.lookup) fun _ _ hsame => ?_
      refine .bind (.execute hsame _) fun affected => ?_
      cases clears
      · exact .pure _
      · exact .bind (.tell _) fun _ => .pure _

/-- The texts that a call sends are the same for all arguments of one form, whatever the values
    hold. -/
theorem texts_eq_of_alike {repository : Repository} {args args' : CallArguments}
    (h : args.Alike args') (name : String) (expected : Expected) (shape : Shape)
    (e : Exchange (List Reply)) :
    (repository.call .scripted name args expected shape e).2.sent.map (·.statement.sql) =
      (repository.call .scripted name args' expected shape e).2.sent.map (·.statement.sql) :=
  (twin_call h name expected shape (.refl e)).2.texts_eq

end Repository

namespace Sample

/-- Members of some ages are removed, but for one of them. -/
def removal : Repository where
  schema := league
  entity := member
  paging := {}
  unit := 0
  definitions := [("removeAged", ⟨.bulk, {}, .bulk
    ⟨[.sql "DELETE FROM member WHERE age IN ", .slotList ⟨0, none⟩, .sql " AND member_id <> ",
      .slot ⟨1, some "kept"⟩]⟩ "Member" false⟩)]

/-- Ordinary arguments of the same form as the hostile ones. -/
def modestArguments : CallArguments where
  positional := [.list [.integer 30, .integer 41]]
  named := [("kept", .integer 7)]

/-- Texts that hold quotes, placeholders and statements. -/
def hostileArguments : CallArguments where
  positional := [.list [.text "30) OR (1 = 1", .text "?; DROP TABLE member"]]
  named := [("kept", .text "' OR '' = '")]

end Sample

/-- Arguments that look like statements are sent under the same text as ordinary ones. -/
theorem Repository.texts_eq_hostile :
    Sample.modestArguments.Alike Sample.hostileArguments ∧
      (Sample.removal.call .scripted "removeAged" Sample.modestArguments .anything .bulk
        ⟨[.affected 2], [], []⟩).2.sent.map (·.statement.sql) =
          ["DELETE FROM member WHERE age IN (?, ?) AND member_id <> ?"] ∧
      (Sample.removal.call .scripted "removeAged" Sample.hostileArguments .anything .bulk
        ⟨[.affected 2], [], []⟩).2.sent.map (·.statement.sql) =
          ["DELETE FROM member WHERE age IN (?, ?) AND member_id <> ?"] := by
  have halike : Sample.modestArguments.Alike Sample.hostileArguments :=
    ⟨.cons rfl .nil, .cons ⟨rfl, rfl⟩ .nil, rfl, rfl, rfl⟩
  have hmodest : (Sample.removal.call .scripted "removeAged" Sample.modestArguments .anything .bulk
      ⟨[.affected 2], [], []⟩).2.sent.map (·.statement.sql) =
        ["DELETE FROM member WHERE age IN (?, ?) AND member_id <> ?"] := rfl
  refine ⟨halike, hmodest, ?_⟩
  rw [← texts_eq_of_alike halike, hmodest]

end EntityQuery
