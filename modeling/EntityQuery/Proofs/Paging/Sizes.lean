import EntityQuery.Proofs.Repository.Running
import EntityQuery.Proofs.Paging.Windows
import EntityQuery.Repository.BuiltIn
import EntityQuery.Settings.Basic

namespace EntityQuery

/-!
# Sizes of pages

A page request starts with room for a row, and most of what is done with it leaves the size alone.  Only
clamping changes it, to the least of the size and the bound, so that the size stays positive exactly as
long as all bounds are (`PageRequest.size_pos_walk_iff`).

The greatest size of a repository is such a bound: every page and every slice that it answers has been
clamped to it (`Repository.clamped_of_paged`).  Settings that were checked hold a positive one, and so do
all that are loaded; but a repository can be declared with settings that nobody checked, and then its
pages have no room for a single row (`Repository.pages_without_room`).
-/

variable {σ : Type}

/-! ### Steps -/

namespace PageRequest

variable {r r' : PageRequest}

/-- What can be made of a page request. -/
inductive Step where
  | next
  | previous
  | sorted (order : SortOrder)
  | clamped (greatest : Nat)

/-- The request after a step; there is none before the first page. -/
def Step.apply (r : PageRequest) : Step → Option PageRequest
  | .next => some r.next
  | .previous => r.previous?
  | .sorted order => some (r.sorted order)
  | .clamped greatest => some (r.clamped greatest)

/-- The request after some steps. -/
def walk (r : PageRequest) (steps : List Step) : Option PageRequest := steps.foldlM Step.apply r

/-- The bound of a step that clamps. -/
def Step.bound? : Step → Option Nat
  | .clamped greatest => some greatest
  | _ => none

/-- The bounds that some steps clamp to. -/
def bounds (steps : List Step) : List Nat := steps.filterMap Step.bound?

/-- **Only clamping changes a size.** -/
theorem size_apply {step : Step} (h : step.apply r = some r') :
    r'.size = step.bound?.elim r.size (min r.size) := by
  cases step with
  | next | sorted | clamped => cases h; rfl
  | previous =>
    change r.previous? = some r' at h
    unfold previous? at h
    split at h
    · cases h
    · cases h
      rfl

/-- **The size after some steps** is the least of the size before and the bounds. -/
theorem size_walk {steps : List Step} (h : r.walk steps = some r') :
    r'.size = (bounds steps).foldl min r.size := by
  induction steps generalizing r with
  | nil => cases h; rfl
  | cons step steps ih =>
    obtain ⟨mid, hmid, hrest⟩ := Option.bind_eq_some_iff.1 h
    rw [ih hrest, size_apply hmid, bounds, bounds, List.filterMap_cons]
    cases step.bound? <;> rfl

/-- The least of a size and its bounds is positive exactly if all of them are. -/
theorem foldl_min_pos_iff {bounds : List Nat} {n : Nat} :
    0 < bounds.foldl min n ↔ 0 < n ∧ ∀ bound ∈ bounds, 0 < bound := by
  induction bounds generalizing n with
  | nil => simp
  | cons bound bounds ih => rw [List.foldl_cons, ih, Nat.lt_min, List.forall_mem_cons, and_assoc]

/-- A request that is granted has room for a row. -/
theorem of_eq_ok_iff {page size : Nat} : of page size = .ok r ↔ 0 < size ∧ r = ⟨page, size, []⟩ := by
  unfold of
  split
  · rename_i hzero
    simp [hzero]
  · rename_i hzero
    rw [Except.ok.injEq, eq_comm, and_iff_right (Nat.pos_of_ne_zero hzero)]

/-- **A size stays positive as long as all bounds are.** -/
theorem size_pos_walk_iff {page size : Nat} (hof : of page size = .ok r) {steps : List Step}
    (hwalk : r.walk steps = some r') : 0 < r'.size ↔ ∀ bound ∈ bounds steps, 0 < bound := by
  obtain ⟨hsize, rfl⟩ := of_eq_ok_iff.1 hof
  rw [size_walk hwalk, foldl_min_pos_iff]
  exact and_iff_right hsize

end PageRequest

/-- Where a page has room for rows, its number of pages is just enough for all results. -/
theorem Page.pages_spec {α : Type} {page : Page α} (h : 0 < page.request.size) :
    page.total ≤ page.pages * page.request.size ∧
      page.pages * page.request.size < page.total + page.request.size := by
  have hdivision := Nat.div_add_mod (page.total + page.request.size - 1) page.request.size
  have hrest := Nat.mod_lt (page.total + page.request.size - 1) h
  rw [Nat.mul_comm] at hdivision
  unfold pages
  omega

section Mapping

variable {α β ε : Type} {f : α → Except ε β}

/-- Mapping the content of a page keeps what was asked. -/
theorem Page.request_of_mapExcept {page : Page α} {mapped : Page β} (h : page.mapExcept f = .ok mapped) :
    mapped.request = page.request := by
  obtain ⟨_, _, h⟩ := bind_eq_ok_iff.1 h
  cases h
  rfl

/-- So does mapping that of a slice. -/
theorem Slice.request_of_mapExcept {slice : Slice α} {mapped : Slice β}
    (h : slice.mapExcept f = .ok mapped) : mapped.request = slice.request := by
  obtain ⟨_, _, h⟩ := bind_eq_ok_iff.1 h
  cases h
  rfl

end Mapping

/-! ### Settings -/

/-- Settings are usable if both sizes are positive and the default is not the greater one. -/
theorem PagingSettings.check_eq_ok_iff {p : PagingSettings} :
    p.check = .ok () ↔ 0 < p.defaultSize ∧ 0 < p.greatestSize ∧ p.defaultSize ≤ p.greatestSize := by
  unfold check
  split
  · simp only [reduceCtorEq, false_iff]; omega
  split
  · simp only [reduceCtorEq, false_iff]; omega
  split
  · simp only [reduceCtorEq, false_iff]; omega
  · simp only [true_iff]; omega

/-- Settings that were loaded have been checked. -/
theorem EngineSettings.check_of_load {application : String} {document : Option String}
    {given : List (String × String)} {settings : EngineSettings}
    (h : load application document given = .ok settings) : settings.paging.check = .ok () := by
  -- Wherever the tree of settings comes from, it is read and then checked.
  have hchecked : ∀ tree, (do
      let settings ← ofTree tree
      settings.paging.check
      return settings) = .ok settings → settings.paging.check = .ok () := by
    intro tree h
    obtain ⟨read, _, h⟩ := bind_eq_ok_iff.1 h
    obtain ⟨_, hcheck, h⟩ := bind_eq_ok_iff.1 h
    obtain rfl := pure_eq_ok_iff.1 h
    exact hcheck
  unfold load at h
  cases document with
  | none => exact hchecked _ h
  | some document =>
    obtain ⟨stated, _, h⟩ := bind_eq_ok_iff.1 h
    exact hchecked _ h

/-! ### Pages of a repository -/

namespace Repository

open Run

/-- The requests of the pages and slices that a repository answers, with what was asked for. -/
inductive Paged (repository : Repository) (store : Store σ) : Option PageRequest → PageRequest → Prop
  | page {name : String} {args : CallArguments} {expected : Expected} {e e' : Exchange σ}
      {answer : EntityQuery.Page Received}
      (h : repository.page store name args expected e = (.ok answer, e')) :
      Paged repository store args.page answer.request
  | slice {name : String} {args : CallArguments} {expected : Expected} {e e' : Exchange σ}
      {answer : EntityQuery.Slice Received}
      (h : repository.slice store name args expected e = (.ok answer, e')) :
      Paged repository store args.page answer.request
  | allPage {request : PageRequest} {e e' : Exchange σ} {answer : EntityQuery.Page Record}
      (h : repository.findAllPage store request e = (.ok answer, e')) :
      Paged repository store (some request) answer.request
  | allSlice {request : PageRequest} {e e' : Exchange σ} {answer : EntityQuery.Slice Record}
      (h : repository.findAllSlice store request e = (.ok answer, e')) :
      Paged repository store (some request) answer.request

variable {repository : Repository} {store : Store σ} {asked : Option PageRequest} {read : PageRequest}

/-- The request of a call is the one that comes with it, or the first page of the default size; it is cut
    down to the greatest size in both cases. -/
theorem requestFor_eq_ok_iff {args : CallArguments} :
    repository.requestFor args = .ok read ↔
      ∃ request, (args.page = some request ∨
          args.page = none ∧ PageRequest.of 0 repository.paging.defaultSize = .ok request) ∧
        read = request.clamped repository.paging.greatestSize := by
  unfold requestFor
  cases args.page with
  | some request =>
    show (Except.ok _ : Except Error PageRequest) = _ ↔ _
    simp [eq_comm]
  | none =>
    show (PageRequest.of 0 repository.paging.defaultSize >>= fun request =>
      pure (request.clamped repository.paging.greatestSize)) = _ ↔ _
    simp only [bind_eq_ok_iff, pure_eq_ok_iff]
    simp [eq_comm]

section Parts

variable {args : CallArguments} {directives : Directives} {request : PageRequest} {compiled : Compiled}
variable {e e' : Exchange σ}

/-- A page that is fetched notes the request it answers. -/
theorem request_of_fetchPage {name : String} {page : EntityQuery.Page Projected}
    (h : repository.fetchPage store name compiled args request directives e = (.ok page, e')) :
    page.request = request := by
  obtain ⟨_, _, _, _, _, _, _, _, _, hrequest⟩ := fetchPage_ok_iff.1 h
  exact hrequest

/-- So does a slice. -/
theorem request_of_fetchSlice {slice : EntityQuery.Slice Projected}
    (h : repository.fetchSlice store compiled args request directives e = (.ok slice, e')) :
    slice.request = request := by
  obtain ⟨_, _, _, _, _, _, _, _, _, hrequest⟩ := fetchSlice_ok_iff.1 h
  exact hrequest

end Parts

/-- **Whatever is answered has been clamped** to the greatest size. -/
theorem clamped_of_paged (h : repository.Paged store asked read) :
    ∃ request, (asked = some request ∨
        asked = none ∧ PageRequest.of 0 repository.paging.defaultSize = .ok request) ∧
      read = request.clamped repository.paging.greatestSize := by
  cases h with
  | page h =>
    simp only [page, bind_ok_iff, error_ok_iff, reading_ok_iff] at h
    obtain ⟨_, _, _, request, _, ⟨hrequest, rfl⟩, _, _, _, part, _, hpart, hmapped, _⟩ := h
    rw [Page.request_of_mapExcept hmapped, request_of_fetchPage hpart]
    exact requestFor_eq_ok_iff.1 hrequest
  | slice h =>
    simp only [slice, bind_ok_iff, error_ok_iff, reading_ok_iff] at h
    obtain ⟨_, _, _, request, _, ⟨hrequest, rfl⟩, _, _, _, part, _, hpart, hmapped, _⟩ := h
    rw [Slice.request_of_mapExcept hmapped, request_of_fetchSlice hpart]
    exact requestFor_eq_ok_iff.1 hrequest
  -- Without a query of its own the size is cut down before anything is fetched.
  | allPage h =>
    simp only [findAllPage, bind_ok_iff, error_ok_iff, reading_ok_iff] at h
    obtain ⟨_, _, _, part, _, hpart, hmapped, _⟩ := h
    exact ⟨_, .inl rfl, by rw [Page.request_of_mapExcept hmapped, request_of_fetchPage hpart]⟩
  | allSlice h =>
    simp only [findAllSlice, bind_ok_iff, error_ok_iff, reading_ok_iff] at h
    obtain ⟨_, _, _, part, _, hpart, hmapped, _⟩ := h
    exact ⟨_, .inl rfl, by rw [Slice.request_of_mapExcept hmapped, request_of_fetchSlice hpart]⟩

/-- **A page that is answered has room for a row** exactly if what was asked for has, and the greatest size
    as well; the default size has it where nothing was asked for. -/
theorem size_pos_of_paged (h : repository.Paged store asked read) :
    0 < read.size ↔ (∀ request ∈ asked, 0 < request.size) ∧ 0 < repository.paging.greatestSize := by
  obtain ⟨request, hasked, rfl⟩ := clamped_of_paged h
  have hsize : 0 < (request.clamped repository.paging.greatestSize).size ↔
      0 < request.size ∧ 0 < repository.paging.greatestSize := Nat.lt_min
  rw [hsize]
  rcases hasked with rfl | ⟨rfl, hof⟩
  · simp
  · simp [(PageRequest.of_eq_ok_iff.1 hof).1, (PageRequest.of_eq_ok_iff.1 hof).2]

end Repository

/-- **Sizes are positive as far as all bounds are.**  A request that is granted and then moved, sorted and
    clamped has room for a row exactly if each bound that it was clamped to has; and so has each page that a
    repository answers for it, if the greatest size of the repository is positive.  That is so of all
    settings that were checked, and of all that were loaded.  Where there is room, the number of pages is
    just enough for all results. -/
theorem PageRequest.sizes_positive_iff {page size : Nat} {first request : PageRequest}
    (hof : of page size = .ok first) {steps : List Step} (hwalk : first.walk steps = some request) :
    (0 < request.size ↔ ∀ bound ∈ bounds steps, 0 < bound) ∧
      (∀ {σ : Type} {repository : Repository} {store : Store σ} {asked read},
        repository.Paged store asked read → asked = none ∨ asked = some request →
        (0 < read.size ↔
          (asked = none ∨ ∀ bound ∈ bounds steps, 0 < bound) ∧ 0 < repository.paging.greatestSize)) ∧
      (∀ p : PagingSettings, p.check = .ok () → 0 < p.greatestSize) ∧
      (∀ application document given settings,
        EngineSettings.load application document given = .ok settings →
          0 < settings.paging.greatestSize) ∧
      ∀ {α : Type} (page : Page α), 0 < page.request.size →
        page.total ≤ page.pages * page.request.size ∧
          page.pages * page.request.size < page.total + page.request.size := by
  have hsize := size_pos_walk_iff hof hwalk
  have hchecked : ∀ p : PagingSettings, p.check = .ok () → 0 < p.greatestSize :=
    fun p hp => (PagingSettings.check_eq_ok_iff.1 hp).2.1
  refine ⟨hsize, fun hpaged hasked => ?_, hchecked, fun _ _ _ _ hload =>
    hchecked _ (EngineSettings.check_of_load hload), fun page => Page.pages_spec⟩
  rw [Repository.size_pos_of_paged hpaged]
  rcases hasked with rfl | rfl
  · simp
  · simp [hsize]

namespace Sample

/-- The members, with settings that leave no room for any of them. -/
def roomlessMembers : Repository := { leagueMembers with paging := { greatestSize := 0 } }

end Sample

/-- A walk from page to page, cut down on its way, ends at a page with a size. -/
theorem PageRequest.sizes_positive_iff_secondPage :
    of 0 5 = .ok ⟨0, 5, []⟩ ∧ walk ⟨0, 5, []⟩ [.clamped 2, .next, .previous, .next] = some ⟨1, 2, []⟩ ∧
      ∃ slice e, Sample.leagueMembers.findAllSlice (Store.ofTable Sample.roster) ⟨1, 2, []⟩ ⟨(), [], []⟩ =
          (.ok slice, e) ∧ 0 < slice.request.size := by
  have hof : of 0 5 = .ok ⟨0, 5, []⟩ := rfl
  have hwalk : walk ⟨0, 5, []⟩ [.clamped 2, .next, .previous, .next] = some ⟨1, 2, []⟩ := by decide
  have hslice : ∃ slice e, Sample.leagueMembers.findAllSlice (Store.ofTable Sample.roster) ⟨1, 2, []⟩
      ⟨(), [], []⟩ = (.ok slice, e) := ⟨_, _, rfl⟩
  obtain ⟨slice, e, hslice⟩ := hslice
  obtain ⟨_, hpaged, _⟩ := sizes_positive_iff hof hwalk
  refine ⟨hof, hwalk, slice, e, hslice, ?_⟩
  exact (hpaged (.allSlice hslice) (.inr rfl)).2 ⟨.inr (by decide), by decide⟩

/-- **Pages without room.**  A repository is built with settings that a check would refuse.  Its pages have
    the size zero, so that their number would be a quotient by zero, and its slices are empty and say that
    more follows, on and on. -/
theorem Repository.pages_without_room :
    Repository.build Sample.league { entity := "Member", paging := { greatestSize := 0 }, unit := 0 } =
        .ok Sample.roomlessMembers ∧
      Sample.roomlessMembers.paging.check = .error .noGreatestSize ∧
      PageRequest.of 0 2 = .ok ⟨0, 2, []⟩ ∧
      (∃ page e, Sample.roomlessMembers.findAllPage (Store.ofTable Sample.roster) ⟨0, 2, []⟩
          ⟨(), [], []⟩ = (.ok page, e) ∧ page.request.size = 0) ∧
      ∃ slice e, Sample.roomlessMembers.findAllSlice (Store.ofTable Sample.roster) ⟨0, 2, []⟩
          ⟨(), [], []⟩ = (.ok slice, e) ∧ slice.request.size = 0 ∧ slice.content = [] ∧
        slice.next? = some ⟨1, 0, []⟩ :=
  ⟨rfl, rfl, rfl, ⟨_, _, rfl, rfl⟩, _, _, rfl, rfl, rfl, rfl⟩

end EntityQuery
