import EntityQuery.Proofs.Paging.Windows
import EntityQuery.Proofs.Result.Loaded
import EntityQuery.Proofs.Schema.Joinable
import EntityQuery.Repository.BuiltIn

namespace EntityQuery

/-!
# Resolving in place

What resolving an association does to the record at hand.  All that the operation can do is said by one
equation (`Repository.resolveInPlace_eq`): it fails before it touches the record, or it replaces one
link by what was loaded.  What it leaves alone follows from that, but not the kind of the link that it
leaves where it loads nothing.  That kind comes from the mapping, so it is an invariant of all records
that can come up:

* `Record.Obtained`: a record of a mapped row, one that is held by such a record, or what resolving
  made of it;
* `Record.Kept`: the links of a record stand for the associations of its entity, each of the kind of
  its association, and so in all records that it holds.

Every obtained record is kept (`Record.Obtained.kept`), from which the operation is seen to be atomic,
local and idempotent (`Repository.resolving_atomic_local_idempotent`).
-/

variable {schema : Schema} {σ : Type}

/-! ### Links and what they hold -/

/-- The records that a link holds. -/
def Link.records : Link → List Record
  | .loaded record => record.toList
  | .loadedMany records => records
  | .unresolved _ _ => []

/-- A link that is loaded is of the kind of its association. -/
def Link.Fits (a : Association) : Link → Prop
  | .loaded _ => a.isToOne = true
  | .loadedMany _ => a.isToOne = false
  | .unresolved _ _ => True

/-- An entry of a record stands for an association. -/
def Association.HasEntry (a : Association) (entry : String × Link) : Prop :=
  entry.1 = a.name ∧ entry.2.Fits a

/-- The links of a record stand for the associations of its entity, and so in all records behind
    them. -/
inductive Record.Kept (schema : Schema) : Record → Prop where
  | intro {r : Record} {owner : Entity} (registered : schema.entity? r.entity = some owner)
    (links : List.Forall₂ Association.HasEntry owner.associations r.links)
    (held : ∀ entry ∈ r.links, ∀ other ∈ entry.2.records, Kept schema other) : Kept schema r

/-- The entity of a plan is the one of the schema with its name. -/
def MappingPlan.Registered (schema : Schema) (plan : MappingPlan) : Prop :=
  ∀ entity ∈ plan.entity, schema.entity? entity.name = some entity

/-- The records that a caller can come to have: those of mapped rows, those that they hold, and what
    resolving an association makes of them, whether it succeeds or not. -/
inductive Record.Obtained (schema : Schema) : Record → Prop where
  | mapped {plan : MappingPlan} {rows : RowSet} {results : List Projected} {r : Record}
    (registered : plan.Registered schema) (maps : Mapping.mapRows schema plan rows = .ok results)
    (result : .record r ∈ results) : Obtained schema r
  | held {r other : Record} {entry : String × Link} (holder : Obtained schema r)
    (link : entry ∈ r.links) (holds : other ∈ entry.2.records) : Obtained schema other
  | resolved {σ : Type} {repository : Repository} {store : Store σ} {association : String}
    {r r' : Record} {answer : Except Error Unit} {e e' : Exchange σ}
    (before : Obtained schema r) (schemaOf : repository.schema = schema)
    (resolves : repository.resolveInPlace store association r e = ((answer, r'), e')) :
    Obtained schema r'

/-! ### One link in the place of another -/

namespace Record

variable {name : String} {link : Link} {links : List (String × Link)}

/-- A link that was put in place is found there. -/
theorem lookup_replaceLink : (replaceLink name link links).lookup name = some link := by
  induction links with
  | nil => simp [replaceLink]
  | cons entry links ih =>
    obtain ⟨n, l⟩ := entry
    unfold replaceLink
    by_cases h : n = name
    · rw [if_pos (beq_iff_eq.2 h), lookup_cons_ite, if_pos h.symm]
    · rw [if_neg (by simpa using h), lookup_cons_ite, if_neg (Ne.symm h)]
      exact ih

/-- Where the name is known, replacing its link relates each entry to itself or to the new link. -/
theorem forall₂_replaceLink {R : String × Link → String × Link → Prop} (hrefl : ∀ entry, R entry entry)
    (hnew : ∀ l, R (name, l) (name, link)) (hname : (links.lookup name).isSome = true) :
    List.Forall₂ R links (replaceLink name link links) := by
  induction links with
  | nil => cases hname
  | cons entry links ih =>
    obtain ⟨n, l⟩ := entry
    unfold replaceLink
    -- Behind the first entry of that name nothing is changed.
    by_cases h : n = name
    · subst h
      rw [if_pos (beq_self_eq_true n)]
      exact .cons (hnew l) (List.forall₂_same.2 fun entry _ => hrefl entry)
    · rw [if_neg (by simpa using h)]
      rw [lookup_cons_ite, if_neg (Ne.symm h)] at hname
      exact .cons (hrefl _) (ih hname)

/-- The entries are those of before and the new one. -/
theorem mem_of_mem_replaceLink {entry : String × Link} (h : entry ∈ replaceLink name link links) :
    entry ∈ links ∨ entry = (name, link) := by
  induction links with
  | nil => exact .inr (List.mem_singleton.1 h)
  | cons first links ih =>
    obtain ⟨n, l⟩ := first
    unfold replaceLink at h
    -- The new entry stands where the first one of its name stood.
    split at h
    · rename_i hn
      rw [beq_iff_eq.1 hn] at h
      exact (List.mem_cons.1 h).symm.imp_left (List.mem_cons_of_mem _)
    · rcases List.mem_cons.1 h with rfl | h
      · exact .inl List.mem_cons_self
      · exact (ih h).imp_left (List.mem_cons_of_mem _)

/-- Two records differ at most in the link of one association. -/
structure AgreesBeside (association : String) (r r' : Record) : Prop where
  entity : r'.entity = r.entity
  idName : r'.idName = r.idName
  fields : r'.fields = r.fields
  links : List.Forall₂
    (fun old new => new.1 = old.1 ∧ (old.1 ≠ association → new.2 = old.2)) r.links r'.links

/-- A record agrees with itself. -/
theorem AgreesBeside.refl (association : String) (r : Record) : AgreesBeside association r r where
  entity := rfl
  idName := rfl
  fields := rfl
  links := List.forall₂_same.2 fun _ _ => ⟨rfl, fun _ => rfl⟩

/-- Setting a link that is there changes that link only. -/
theorem agreesBeside_setLink {association : String} {r : Record}
    (h : (r.link? association).isSome = true) : AgreesBeside association r (r.setLink association link) where
  entity := rfl
  idName := rfl
  fields := rfl
  links := forall₂_replaceLink (fun _ => ⟨rfl, fun _ => rfl⟩) (fun _ => ⟨rfl, fun hne => absurd rfl hne⟩) h

/-- A link that was set is read back. -/
@[simp] theorem link?_setLink (r : Record) (association : String) (link : Link) :
    (r.setLink association link).link? association = some link := lookup_replaceLink

end Record

/-! ### What the operation can do -/

/-- Work that does not touch the record is a step of work on the record. -/
theorem Edit.bind_ofRun {α β : Type} {work : Run σ α} {f : α → Edit σ β} {r : Record}
    {e : Exchange σ} :
    ((liftM work : Edit σ α) >>= f) r e =
      match work e with
      | (.error error, e') => ((.error error, r), e')
      | (.ok a, e') => f a r e' := by
  show (ExceptT.bind (Edit.ofRun work) f : Edit σ β) r e = _
  unfold ExceptT.bind Edit.ofRun
  simp only [ExceptT.mk, bind, StateT.bind]
  rcases work e with ⟨_ | a, e'⟩ <;> rfl

namespace Repository

open Run

variable {repository : Repository} {store : Store σ} {e e' : Exchange σ}
variable {r r' : Record} {association : String} {a : Association} {target : Entity} {key : Value}

/-- **The operation in one equation**: the record is changed in the last step only. -/
theorem resolveInPlace_eq :
    repository.resolveInPlace store association r e =
      match repository.schema.entity? r.entity with
      | none => ((.error (.reading (.unknownEntity r.entity)), r), e)
      | some owner =>
        match owner.associationNamed? association with
        | none => ((.error (.reading (.noAssociation owner.name association)), r), e)
        | some a =>
          match r.link? association with
          | some (.unresolved _ key) =>
            match repository.loadLink store a key e with
            | (.error error, e') => ((.error error, r), e')
            | (.ok link, e') => ((.ok (), r.setLink association link), e')
          | _ => ((.ok (), r), e) := by
  -- The steps written out, so that the cases below can be read off them.
  have hsteps : repository.resolveInPlace store association r e =
      (match repository.schema.entity? r.entity with
      | none => throw (.reading (.unknownEntity r.entity))
      | some owner =>
        match owner.associationNamed? association with
        | none => throw (.reading (.noAssociation owner.name association))
        | some a => do
          if let some (.unresolved _ key) := r.link? association then
            let link ← repository.loadLink store a key
            modifyThe Record (·.setLink association link) : Edit σ Unit) r e := rfl
  rw [hsteps]
  cases repository.schema.entity? r.entity with
  | none => rfl
  | some owner =>
    dsimp only
    cases owner.associationNamed? association with
    | none => rfl
    | some a =>
      cases r.link? association with
      | none => rfl
      | some link =>
        cases link with
        | loaded | loadedMany => rfl
        | unresolved target key =>
          dsimp only
          rw [Edit.bind_ofRun]
          rcases repository.loadLink store a key e with ⟨_ | link, e'⟩ <;> rfl

/-- An operation that fails leaves the record as it was. -/
theorem eq_of_resolveInPlace_error {error : Error}
    (h : repository.resolveInPlace store association r e = ((.error error, r'), e')) : r' = r := by
  rw [resolveInPlace_eq] at h
  split at h
  · cases h
    rfl
  split at h
  · cases h
    rfl
  split at h
  · split at h <;> cases h
    rfl
  · cases h

/-- The operation succeeds in two ways: there is nothing to load, or one link is replaced. -/
theorem resolveInPlace_ok_iff :
    repository.resolveInPlace store association r e = ((.ok (), r'), e') ↔
      ∃ owner a, repository.schema.entity? r.entity = some owner ∧
        owner.associationNamed? association = some a ∧
        ((∃ target key link, r.link? association = some (.unresolved target key) ∧
            repository.loadLink store a key e = (.ok link, e') ∧ r' = r.setLink association link) ∨
          (∀ target key, r.link? association ≠ some (.unresolved target key)) ∧ r' = r ∧ e' = e) := by
  rw [resolveInPlace_eq]
  constructor
  · intro h
    split at h
    · cases h
    rename_i owner howner
    split at h
    · cases h
    rename_i a ha
    refine ⟨owner, a, howner, ha, ?_⟩
    split at h
    · rename_i target key hlink
      split at h
      · cases h
      · rename_i link e'' hload
        cases h
        exact .inl ⟨target, key, link, hlink, hload, rfl⟩
    -- A link that is loaded already is left alone.
    · rename_i hlink
      cases h
      exact .inr ⟨fun target key => hlink target key, rfl, rfl⟩
  · rintro ⟨owner, a, howner, ha, ⟨target, key, link, hlink, hload, rfl⟩ | ⟨hlink, rfl, rfl⟩⟩
    · simp only [howner, ha, hlink, hload]
    · simp only [howner, ha]

/-! ### Records that are loaded -/

/-- The statement and the mapping of a built-in query for records are those of its entity. -/
theorem plan_of_builtIn {name : String} {q : Query} {compiled : Compiled}
    (h : repository.builtIn name q = .ok compiled) : compiled.plan.entity = some q.entity := by
  unfold builtIn at h
  replace h := mapError_eq_ok_iff.1 (mapError_eq_ok_iff.1 h)
  obtain ⟨s, hs, hcompiled⟩ := bind_eq_ok_iff.1 h
  obtain rfl := pure_eq_ok_iff.1 hcompiled
  show some s.root = some q.entity
  rw [(Select.plannedFor_of_ofQuery hs).root]

/-- Reading results as records keeps the records. -/
theorem records_eq_ok_iff {results : List Projected} {found : List Record} :
    records results = .ok found ↔ results = found.map .record := by
  unfold records
  rw [listMapM_eq_ok_iff, ← List.forall₂_eq_eq_eq, List.forall₂_map_right_iff]
  have htoRecord : ∀ (result : Projected) (r : Record), result.toRecord = .ok r ↔ result = .record r := by
    intro result r
    cases result <;> simp [Projected.toRecord]
  simp only [htoRecord]

/-- A record that is loaded comes from the query by identifier, asked for one row. -/
theorem load_ok {entity : Entity} {id : Value} {found : Option Record}
    (h : repository.load store entity id e = (.ok found, e')) :
    ∃ compiled window rows mid, repository.builtIn "findById" (byId entity .single) = .ok compiled ∧
      limited compiled = .ok window ∧
      repository.fetchRows store window { positional := [id] } {} e = (.ok rows, mid) ∧
      Mapping.mapRows repository.schema compiled.plan rows = .ok (found.toList.map .record) := by
  unfold load fetchSingle at h
  simp only [bind_ok_iff, error_ok_iff, parameter_ok_iff, reading_ok_iff] at h
  obtain ⟨compiled, _, ⟨hcompiled, rfl⟩, window, _, ⟨hwindow, rfl⟩, single, _,
    ⟨results, _, hresults, hsingle⟩, hfound, _⟩ := h
  obtain ⟨rows, mid, hrows, hmaps⟩ := fetchResults_ok_iff.1 hresults
  obtain ⟨hmaps, _⟩ := mapRows_ok_iff.1 hmaps
  refine ⟨compiled, window, rows, mid, hcompiled, hwindow, hrows, ?_⟩
  -- At most one result comes through, and it is read as a record.
  have hlist : records results = .ok found.toList := by
    split at hsingle
    · obtain ⟨rfl, _⟩ := pure_ok_iff.1 hsingle
      obtain ⟨_, rfl⟩ | ⟨_, _, h, _⟩ := mapM_eq_ok_iff.1 hfound
      · rfl
      · cases h
    · obtain ⟨rfl, _⟩ := pure_ok_iff.1 hsingle
      obtain ⟨h, _⟩ | ⟨result, r, h, rfl, hr⟩ := mapM_eq_ok_iff.1 hfound
      · cases h
      · cases h
        exact listMapM_eq_ok_iff.2 (.cons hr .nil)
    · cases hsingle
  rwa [records_eq_ok_iff.1 hlist] at hmaps

/-- The records of a many side come from one query over its entity. -/
theorem loadMany_ok {name mappedBy : String} {found : List Record}
    (h : repository.loadMany store name mappedBy target key e = (.ok found, e')) :
    ∃ q compiled rows, q.entity = target ∧ repository.builtIn name q = .ok compiled ∧
      Mapping.mapRows repository.schema compiled.plan rows = .ok (found.map .record) := by
  unfold loadMany at h
  simp only [bind_ok_iff, error_ok_iff, reading_ok_iff] at h
  obtain ⟨compiled, _, ⟨hcompiled, rfl⟩, results, _, hresults, hfound, _⟩ := h
  obtain ⟨rows, _, _, hmaps⟩ := fetchResults_ok_iff.1 hresults
  obtain ⟨hmaps, _⟩ := mapRows_ok_iff.1 hmaps
  rw [records_eq_ok_iff.1 hfound] at hmaps
  exact ⟨_, compiled, rows, rfl, hcompiled, hmaps⟩

end Repository

/-! ### Kept records -/

namespace Mapping

variable {row : Row} {r : Record} {a : Association}

/-- The link of a foreign key fits any to-one association and holds nothing. -/
theorem fits_linkOfKey (target : String) (key : Option Value) (ha : a.isToOne = true) :
    (linkOfKey target key).Fits a ∧ (linkOfKey target key).records = [] := by
  unfold linkOfKey
  split
  · exact ⟨ha, rfl⟩
  · exact ⟨trivial, rfl⟩
  · exact ⟨trivial, rfl⟩

/-- An association with a column leads to one record. -/
theorem isToOne_of_kind {column : String} (h : a.kind = .toOne column) : a.isToOne = true := by
  simp [Association.isToOne, Association.joinColumn?, h]

/-- One that is mapped by another does not. -/
theorem isToOne_of_toMany {mappedBy : String} (h : a.kind = .toMany mappedBy) :
    a.isToOne = false := by
  simp [Association.isToOne, Association.joinColumn?, h]

/-- A record read behind an association has the form of its entity. -/
theorem kept_of_fetchedRecord {association : String} {entity : Entity}
    (hentity : schema.entity? entity.name = some entity)
    (h : fetchedRecord association entity row = .ok r) : r.Kept schema := by
  unfold fetchedRecord at h
  obtain ⟨fields, _, h⟩ := bind_eq_ok_iff.1 h
  cases h
  -- Each link is unresolved or known to lead nowhere.
  refine .intro hentity ?_ fun entry hentry other hother => ?_
  · show List.Forall₂ _ _ (entity.associations.map _)
    rw [List.forall₂_map_right_iff, List.forall₂_same]
    intro a _
    refine ⟨rfl, ?_⟩
    dsimp only
    split
    · rename_i hkind
      exact (fits_linkOfKey _ _ (isToOne_of_kind hkind)).1
    · trivial
  · obtain ⟨a, _, rfl⟩ := List.mem_map.1 hentry
    dsimp only at hother
    split at hother
    · rename_i hkind
      rw [(fits_linkOfKey _ _ (isToOne_of_kind hkind)).2] at hother
      cases hother
    · cases hother

/-- The link that a row gives fits its association, and so do the records in it. -/
theorem hasEntry_of_rootLink {fetched : List String} {id : Value} {entry : String × Link}
    (h : rootLink schema fetched row id a = .ok entry) :
    a.HasEntry entry ∧ ∀ other ∈ entry.2.records, other.Kept schema := by
  unfold rootLink at h
  -- To many is never read with a row; to one is loaded if it was fetched, and a key otherwise.
  split at h
  · cases h
    exact ⟨⟨rfl, trivial⟩, nofun⟩
  rename_i column hkind
  have htoOne := isToOne_of_kind hkind
  split at h
  · obtain ⟨link, hlink, h⟩ := bind_eq_ok_iff.1 h
    cases h
    unfold fetchedLink at hlink
    split at hlink
    · cases hlink
    rename_i target htarget
    split at hlink
    · cases hlink
      exact ⟨⟨rfl, htoOne⟩, nofun⟩
    · cases hlink
      exact ⟨⟨rfl, htoOne⟩, nofun⟩
    · obtain ⟨found, hfound, hlink⟩ := bind_eq_ok_iff.1 hlink
      cases hlink
      refine ⟨⟨rfl, htoOne⟩, fun other hother => ?_⟩
      obtain rfl := List.mem_singleton.1 hother
      exact kept_of_fetchedRecord (Schema.entity?_name htarget) hfound
  · cases h
    obtain ⟨hfits, hnone⟩ :=
      fits_linkOfKey a.target ((row.get? (keyMarker ++ a.name)).or (row.get? column)) htoOne
    refine ⟨⟨rfl, hfits⟩, fun other hother => ?_⟩
    rw [hnone] at hother
    cases hother

/-- The record of a row is kept, as soon as its entity is the one of that name. -/
theorem kept_of_rootRecord {fetched : List String} {entity : Entity}
    (hentity : schema.entity? entity.name = some entity)
    (h : rootRecord schema fetched entity row = .ok r) : r.Kept schema := by
  unfold rootRecord at h
  obtain ⟨fields, _, h⟩ := bind_eq_ok_iff.1 h
  obtain ⟨links, hlinks, h⟩ := bind_eq_ok_iff.1 h
  cases h
  have hentries := (listMapM_eq_ok_iff.1 hlinks).imp fun _ _ => hasEntry_of_rootLink
  refine .intro hentity (hentries.imp fun _ _ => And.left) fun entry hentry => ?_
  obtain ⟨_, _, _, hheld⟩ := exists_left_of_forall₂ hentries hentry
  exact hheld

/-- So has every record that rows are mapped to. -/
theorem kept_of_mapRows {plan : MappingPlan} {rows : RowSet} {results : List Projected}
    (hplan : plan.Registered schema) (h : mapRows schema plan rows = .ok results)
    (hr : .record r ∈ results) : r.Kept schema := by
  obtain ⟨row, _, hrow⟩ := exists_left_of_forall₂ (mapRows_eq_ok_iff.1 h).2 hr
  unfold readRow at hrow
  obtain ⟨row', _, hrow⟩ := bind_eq_ok_iff.1 hrow
  unfold mapRow at hrow
  split at hrow
  · obtain ⟨r', hr', hrow⟩ := bind_eq_ok_iff.1 hrow
    cases hrow
    unfold planRecord at hr'
    split at hr'
    · rename_i entity hentity
      exact kept_of_rootRecord (hplan entity hentity) hr'
    · cases hr'
  -- Other targets give no records.
  · obtain ⟨_, _, hrow⟩ := bind_eq_ok_iff.1 hrow
    cases hrow
  · obtain ⟨_, _, hrow⟩ := bind_eq_ok_iff.1 hrow
    cases hrow
  · obtain ⟨_, _, hrow⟩ := bind_eq_ok_iff.1 hrow
    obtain ⟨_, _, hrow⟩ := bind_eq_ok_iff.1 hrow
    cases hrow
  · cases hrow
  · cases hrow

end Mapping

namespace Repository

variable {repository : Repository} {store : Store σ} {e e' : Exchange σ}
variable {r r' : Record} {association : String} {a : Association}

/-- What is loaded for an association: the record with the key, unless that is null, or the records on
    the other side. -/
theorem loadLink_ok_iff {key : Value} {link : Link} :
    repository.loadLink store a key e = (.ok link, e') ↔
      ∃ target, repository.schema.entity? a.target = some target ∧
        ((∃ column found, a.kind = .toOne column ∧ link = .loaded found ∧
            ((key.isNull = true ∧ found = none ∧ e = e') ∨
              key.isNull = false ∧ repository.load store target key e = (.ok found, e'))) ∨
          ∃ mappedBy found, a.kind = .toMany mappedBy ∧ link = .loadedMany found ∧
            repository.loadMany store a.name mappedBy target key e = (.ok found, e')) := by
  unfold loadLink
  cases htarget : repository.schema.entity? a.target with
  | none => exact ⟨nofun, fun ⟨_, h, _⟩ => nomatch h⟩
  | some target =>
    cases hkind : a.kind with
    | toOne column =>
      -- An absent key leads nowhere without asking the store.
      cases hnull : key.isNull with
      | true =>
        dsimp only
        rw [if_pos rfl, Run.pure_ok_iff]
        constructor
        · rintro ⟨rfl, rfl⟩
          exact ⟨target, rfl, .inl ⟨column, none, rfl, rfl, .inl ⟨rfl, rfl, rfl⟩⟩⟩
        · rintro ⟨_, _, ⟨_, found, _, rfl, ⟨_, rfl, rfl⟩ | ⟨h, _⟩⟩ | ⟨_, _, h, _⟩⟩
          · exact ⟨rfl, rfl⟩
          · cases h
          · cases h
      | false =>
        dsimp only
        rw [if_neg Bool.false_ne_true]
        simp only [Run.bind_ok_iff, Run.pure_ok_iff]
        constructor
        · rintro ⟨found, _, hload, rfl, rfl⟩
          exact ⟨target, rfl, .inl ⟨column, found, rfl, rfl, .inr ⟨trivial, hload⟩⟩⟩
        · rintro ⟨_, hsame, ⟨_, found, _, rfl, ⟨h, _⟩ | ⟨_, hload⟩⟩ | ⟨_, _, h, _⟩⟩
          · cases h
          · cases hsame
            exact ⟨found, e', hload, rfl, rfl⟩
          · cases h
    | toMany mappedBy =>
      simp only [Run.bind_ok_iff, Run.pure_ok_iff]
      constructor
      · rintro ⟨found, _, hload, rfl, rfl⟩
        exact ⟨target, rfl, .inr ⟨mappedBy, found, rfl, rfl, hload⟩⟩
      · rintro ⟨_, hsame, ⟨_, _, h, _⟩ | ⟨_, found, hmappedBy, rfl, hload⟩⟩
        · cases h
        · cases hsame
          cases hmappedBy
          exact ⟨found, e', hload, rfl, rfl⟩

/-- What is loaded for an association fits it, and the records that it holds are kept. -/
theorem fits_of_loadLink {key : Value} {link : Link}
    (h : repository.loadLink store a key e = (.ok link, e')) :
    link.Fits a ∧ link.isLoaded = true ∧ ∀ other ∈ link.records, other.Kept repository.schema := by
  obtain ⟨target, htarget, hcases⟩ := loadLink_ok_iff.1 h
  -- The plan of a built-in query for the target maps its rows to records of the target.
  have hregistered : ∀ {name q compiled}, q.entity = target →
      repository.builtIn name q = .ok compiled →
      compiled.plan.Registered repository.schema := by
    intro name q compiled hentity hcompiled entity hplan
    rw [plan_of_builtIn hcompiled, hentity] at hplan
    obtain rfl := Option.some.inj hplan
    exact Schema.entity?_name htarget
  rcases hcases with ⟨column, found, hkind, rfl, hload⟩ | ⟨mappedBy, found, hkind, rfl, hload⟩
  · refine ⟨Mapping.isToOne_of_kind hkind, rfl, fun other hother => ?_⟩
    rcases hload with ⟨_, rfl, _⟩ | ⟨_, hload⟩
    · cases hother
    · obtain ⟨compiled, _, rows, _, hcompiled, _, _, hmaps⟩ := load_ok hload
      exact Mapping.kept_of_mapRows (hregistered rfl hcompiled) hmaps (List.mem_map_of_mem hother)
  · obtain ⟨q, compiled, rows, hentity, hcompiled, hmaps⟩ := loadMany_ok hload
    refine ⟨Mapping.isToOne_of_toMany hkind, rfl, fun other hother => ?_⟩
    exact Mapping.kept_of_mapRows (hregistered hentity hcompiled) hmaps (List.mem_map_of_mem hother)

end Repository

/-- A link that fits can take the place of that of its association. -/
theorem forall₂_hasEntry_replaceLink {name : String} {link : Link} {a : Association}
    {as : List Association} {links : List (String × Link)}
    (h : List.Forall₂ Association.HasEntry as links) (ha : as.find? (·.name == name) = some a)
    (hfits : link.Fits a) :
    List.Forall₂ Association.HasEntry as (Record.replaceLink name link links) := by
  induction h with
  | nil => cases ha
  | @cons first entry as links hfirst hrest ih =>
    obtain ⟨n, l⟩ := entry
    obtain ⟨rfl, hl⟩ := hfirst
    unfold Record.replaceLink
    rw [List.find?_cons] at ha
    -- The association is found under the name the link is replaced under, so the new link fits it.
    split at ha
    · rename_i hname
      obtain rfl := Option.some.inj ha
      rw [if_pos hname]
      exact .cons ⟨rfl, hfits⟩ hrest
    · rename_i hname
      rw [if_neg (by simp [hname])]
      exact .cons ⟨rfl, hl⟩ (ih ha)

namespace Record

variable {r : Record}

/-- The link of an association of a kept record, found by its name. -/
theorem Kept.exists_link? (h : r.Kept schema) {owner : Entity} {a : Association} {name : String}
    (howner : schema.entity? r.entity = some owner) (ha : owner.associationNamed? name = some a) :
    ∃ link, r.link? name = some link ∧ link.Fits a := by
  cases h with
  | intro registered links held =>
    obtain rfl := Option.some.inj (howner.symm.trans registered)
    obtain ⟨entry, ⟨_, hfits⟩, hlookup⟩ :=
      Mapping.exists_lookup_of_find? (R := Association.HasEntry) (·.name) (fun h => h.1) links ha
    exact ⟨entry.2, hlookup, hfits⟩

/-- **A step keeps records kept**: whatever resolving an association does to a kept record, what it
    leaves is kept. -/
theorem Kept.resolved {repository : Repository} {store : Store σ} {association : String} {r' : Record}
    {answer : Except Error Unit} {e e' : Exchange σ} (h : r.Kept repository.schema)
    (hresolve : repository.resolveInPlace store association r e = ((answer, r'), e')) :
    r'.Kept repository.schema := by
  cases answer with
  | error =>
    rw [Repository.eq_of_resolveInPlace_error hresolve]
    exact h
  | ok =>
    obtain ⟨owner, a, howner, ha, ⟨target, key, link, hlink, hload, rfl⟩ | ⟨_, rfl, _⟩⟩ :=
      Repository.resolveInPlace_ok_iff.1 hresolve
    -- What was loaded has the form of its entity too.
    · obtain ⟨hfits, _, hkept⟩ := Repository.fits_of_loadLink hload
      cases h with
      | intro registered links held =>
        obtain rfl := Option.some.inj (howner.symm.trans registered)
        refine .intro registered (forall₂_hasEntry_replaceLink links ha hfits) fun entry hentry => ?_
        rcases mem_of_mem_replaceLink hentry with hentry | rfl
        · exact held entry hentry
        · exact hkept
    · exact h

/-- **Every record that can come up is kept.** -/
theorem Obtained.kept (h : r.Obtained schema) : r.Kept schema := by
  induction h with
  | mapped registered maps result => exact Mapping.kept_of_mapRows registered maps result
  | held _ link holds ih =>
    cases ih with
    | intro _ _ held => exact held _ link _ holds
  | resolved _ schemaOf resolves ih =>
    subst schemaOf
    exact ih.resolved resolves

end Record

/-! ### The operation on obtained records -/

namespace Record

variable {r : Record} {a : Association} {name : String} {link : Link}

/-- A loaded link of a to-one association is read as one. -/
theorem exists_association_of_fits (hlink : r.link? name = some link) (hloaded : link.isLoaded = true)
    (hfits : link.Fits a) (ha : a.isToOne = true) : ∃ other, r.association name = .ok other := by
  unfold association
  rw [hlink]
  cases link with
  | loaded other => exact ⟨other, rfl⟩
  | loadedMany _ =>
    have hmany : a.isToOne = false := hfits
    simp [ha] at hmany
  | unresolved _ _ => cases hloaded

/-- A loaded link of a to-many association is read as a collection. -/
theorem exists_collection_of_fits (hlink : r.link? name = some link) (hloaded : link.isLoaded = true)
    (hfits : link.Fits a) (ha : a.isToOne = false) : ∃ others, r.collection name = .ok others := by
  unfold collection
  rw [hlink]
  cases link with
  | loaded _ =>
    have hone : a.isToOne = true := hfits
    simp [ha] at hone
  | loadedMany others => exact ⟨others, rfl⟩
  | unresolved _ _ => cases hloaded

end Record

namespace Repository

variable {repository : Repository} {store : Store σ} {e e' : Exchange σ}
variable {r r' : Record} {association : String}

/-- After a success the association is loaded with a link that fits it. -/
theorem exists_fits_of_resolveInPlace (h : r.Kept repository.schema)
    (hresolve : repository.resolveInPlace store association r e = ((.ok (), r'), e')) :
    ∃ owner a link, repository.schema.entity? r'.entity = some owner ∧
      owner.associationNamed? association = some a ∧ r'.link? association = some link ∧
      link.isLoaded = true ∧ link.Fits a := by
  obtain ⟨owner, a, howner, ha, hcases⟩ := resolveInPlace_ok_iff.1 hresolve
  rcases hcases with ⟨target, key, link, _, hload, rfl⟩ | ⟨hlink, rfl, _⟩
  · obtain ⟨hfits, hloaded, _⟩ := fits_of_loadLink hload
    exact ⟨owner, a, link, howner, ha, Record.link?_setLink _ association link, hloaded, hfits⟩
  · -- Nothing was loaded, so the link of the record was loaded before.
    obtain ⟨link, hfound, hfits⟩ := h.exists_link? howner ha
    refine ⟨owner, a, link, howner, ha, hfound, ?_, hfits⟩
    cases link with
    | loaded _ => rfl
    | loadedMany _ => rfl
    | unresolved target key => exact absurd hfound (hlink target key)

/-- **Resolving is atomic, local and idempotent.**  Whatever the store does, an operation that fails
    leaves an obtained record as it was, and one that succeeds changes at most the link of the named
    association.  After a success that association can be read as its cardinality demands, and
    resolving it again sends nothing, tells nothing and changes nothing. -/
theorem resolving_atomic_local_idempotent (h : r.Obtained repository.schema) (store : Store σ)
    (association : String) (e : Exchange σ) :
    (∀ error r' e', repository.resolveInPlace store association r e = ((.error error, r'), e') →
      r' = r) ∧
    ∀ r' e', repository.resolveInPlace store association r e = ((.ok (), r'), e') →
      r.AgreesBeside association r' ∧
      (∃ owner a, repository.schema.entity? r.entity = some owner ∧
        owner.associationNamed? association = some a ∧
        (a.isToOne = true → ∃ other, r'.association association = .ok other) ∧
        (a.isToOne = false → ∃ others, r'.collection association = .ok others)) ∧
      ∀ (τ : Type) (later : Store τ) (e'' : Exchange τ),
        repository.resolveInPlace later association r' e'' = ((.ok (), r'), e'') := by
  refine ⟨fun error r' e' hfails => eq_of_resolveInPlace_error hfails, fun r' e' hresolve => ?_⟩
  have hagrees : r.AgreesBeside association r' := by
    obtain ⟨_, _, _, _, ⟨_, _, link, hlink, _, rfl⟩ | ⟨_, rfl, _⟩⟩ := resolveInPlace_ok_iff.1 hresolve
    · exact Record.agreesBeside_setLink (by simp [hlink])
    · exact Record.AgreesBeside.refl association _
  -- After a success the link is loaded, so resolving again finds nothing left to do.
  obtain ⟨owner, a, link, howner, ha, hlink, hloaded, hfits⟩ :=
    exists_fits_of_resolveInPlace h.kept hresolve
  refine ⟨hagrees, ⟨owner, a, hagrees.entity ▸ howner, ha,
    Record.exists_association_of_fits hlink hloaded hfits,
    Record.exists_collection_of_fits hlink hloaded hfits⟩, fun τ later e'' => ?_⟩
  refine resolveInPlace_ok_iff.2 ⟨owner, a, howner, ha, .inr ⟨fun target key hunresolved => ?_, rfl, rfl⟩⟩
  cases Option.some.inj (hlink.symm.trans hunresolved)
  cases hloaded

end Repository

namespace Sample

/-- How members are read. -/
def memberPlan : MappingPlan := { target := .entity, entity := some member }

/-- A member whose team is not loaded. -/
def teammate : Record :=
  .mk "Member" "id" [("id", .integer 1), ("age", .integer 30)]
    [("team", .unresolved "Team" (.integer 7))]

/-- What the store has for the team of that member. -/
def teamReply : Exchange (List Reply) := ⟨[.rows ⟨["id", "@parent"], [[.integer 7, .null]]⟩], [], []⟩

end Sample

/-- The team is loaded with one statement; the age of the member stays, and so does the record when
    its team is resolved once more. -/
theorem Repository.resolving_atomic_local_idempotent_teammate :
    Sample.teammate.Obtained Sample.league ∧ ∃ r' e' team,
      Sample.leagueMembers.resolveInPlace .scripted "team" Sample.teammate Sample.teamReply =
        ((.ok (), r'), e') ∧ e'.sent.length = 1 ∧
      r'.association "team" = .ok (some team) ∧ team.id = .integer 7 ∧
      Sample.teammate.AgreesBeside "team" r' ∧
      ∀ (τ : Type) (later : Store τ) (e'' : Exchange τ),
        Sample.leagueMembers.resolveInPlace later "team" r' e'' = ((.ok (), r'), e'') := by
  -- The record is one that a row was mapped to.
  have hobtained : Sample.teammate.Obtained Sample.leagueMembers.schema := by
    have hmaps : Mapping.mapRows Sample.league Sample.memberPlan
        ⟨["id", "age", "@team"], [[.integer 1, .integer 30, .integer 7]]⟩ =
          .ok [.record Sample.teammate] := rfl
    refine .mapped (fun entity hentity => ?_) hmaps List.mem_cons_self
    obtain rfl := Option.mem_some.1 hentity
    rfl
  have hresolves : ∃ r' e' team,
      Sample.leagueMembers.resolveInPlace .scripted "team" Sample.teammate Sample.teamReply =
        ((.ok (), r'), e') ∧ e'.sent.length = 1 ∧
      r'.association "team" = .ok (some team) ∧ team.id = .integer 7 :=
    ⟨_, _, _, rfl, rfl, rfl, rfl⟩
  obtain ⟨r', e', team, hresolve, hsent, hteam, hid⟩ := hresolves
  obtain ⟨hagrees, _, hagain⟩ := (Repository.resolving_atomic_local_idempotent hobtained .scripted
    "team" Sample.teamReply).2 r' e' hresolve
  exact ⟨hobtained, r', e', team, hresolve, hsent, hteam, hid, hagrees, hagain⟩

end EntityQuery
