import ScriptCompletion.Proofs.LoadAdmission
import ScriptCompletion.Proofs.ModuleSupply

namespace ScriptCompletion

/-!
# Look-ups that run side by side

The look-ups of a script are started together, and each of them comes back in its
own time.  An answer goes into the slot of its look-up, so when all have come back
the answers stand in the order of the requests, and a request finds its own answer
by its name.  What is loaded therefore does not depend on the order in which the
look-ups come back, nor on what kind of registry answers them.
-/

namespace Slots

variable {Answer : Type}

/-- An answer comes back and goes into the slot of its look-up. -/
def arrive
    (answers : List Answer)
    (slots : List (Option Answer))
    (index : Nat) : List (Option Answer) :=
  slots.set index answers[index]?

/-- The answers in the order of their look-ups, once they have come back in any
order. -/
def join
    (answers : List Answer)
    (order : List Nat) : List Answer :=
  (order.foldl (arrive answers)
    (List.replicate answers.length none)).filterMap id

/-- An answer fills its own slot and no other. -/
theorem getElem?_arrive
    (answers : List Answer)
    (slots : List (Option Answer))
    (index slot : Nat) :
    (arrive answers slots index)[slot]? =
      if slot = index then
        slots[slot]?.map fun _ => answers[slot]?
      else
        slots[slot]? := by
  rw [arrive, List.getElem?_set]
  by_cases own : slot = index
  · subst own
    by_cases inside : slot < slots.length
    · simp [inside]
    · simp [inside]
  · simp [own, Ne.symm own]

theorem getElem?_foldl_arrive
    (answers : List Answer)
    (slots : List (Option Answer))
    (order : List Nat)
    (slot : Nat) :
    (order.foldl (arrive answers) slots)[slot]? =
      if slot ∈ order then
        slots[slot]?.map fun _ => answers[slot]?
      else
        slots[slot]? := by
  induction order generalizing slots with
  | nil =>
      simp
  | cons index rest inductionHypothesis =>
      rw [List.foldl_cons, inductionHypothesis, getElem?_arrive]
      by_cases now : slot = index
      · simp [now, Function.comp_def]
      · simp [now]

/-- When all have come back, every slot holds the answer of its look-up. -/
theorem join_eq
    {answers : List Answer}
    {order : List Nat}
    (allBack : order.Perm (List.range answers.length)) :
    join answers order = answers := by
  have filled :
      order.foldl (arrive answers) (List.replicate answers.length none) =
        answers.map some := by
    apply List.ext_getElem?
    intro slot
    have isBack : slot ∈ order ↔ slot < answers.length := by
      rw [allBack.mem_iff, List.mem_range]
    rw [getElem?_foldl_arrive, List.getElem?_replicate, List.getElem?_map]
    by_cases started : slot < answers.length
    · simp [isBack, started]
    · simp [isBack, started]
  rw [join, filled, List.filterMap_map]
  exact List.filterMap_some

end Slots

namespace LoadRequest

/-- The module that a result gives for the request. -/
def loaded?
    (request : LoadRequest) : Except LoadError Module → Option LoadedModule
  | .ok module =>
      some ⟨request, module⟩
  | .error _ =>
      none

/-- What goes into a report for the result of the request. -/
def failure?
    (request : LoadRequest) : Except LoadError Module → Option CommandFailure
  | .ok _ =>
      none
  | .error error =>
      some (request.failed error)

theorem request_of_loaded?
    {request : LoadRequest}
    {result : Except LoadError Module}
    {loaded : LoadedModule}
    (isLoaded : request.loaded? result = some loaded) :
    loaded.request = request := by
  cases result with
  | error error =>
      cases isLoaded
  | ok module =>
      cases isLoaded
      rfl

end LoadRequest

/-- A registry of any kind: what it asks for a name, what it answers and when. -/
abbrev LookupService :=
  String → Lookup

namespace LookupService

/-- The same look-ups, given up at the timeout. -/
def timely
    (service : LookupService)
    (timeout : Nat) : LookupService :=
  fun name =>
    let lookup := service name
    { lookup with
      answer :=
        lookup.answer.within timeout
          (.error (.external (.timeout s!"loading module {name}" timeout))) }

/-- The names that are looked up: those of admitted requests that are not
cached. -/
def missing
    (cached : List (String × Module))
    (requests : List LoadRequest) : List String :=
  ((Admission.admitted requests).map LoadRequest.name).filter fun name =>
    (cached.lookup name).isNone

/-- The answers under the names that were looked up, once they have come back in
the given order. -/
def answers
    (service : LookupService)
    (order : List Nat)
    (names : List String) : List (String × Except LoadError Module) :=
  Keyed.putAll Prod.fst []
    (names.zip
      (Slots.join (names.map fun name => (service name).answer.content)
        order))

/-- The module of an admitted request: the cached one, or the answer under its
name. -/
def supply
    (cached : List (String × Module))
    (answers : List (String × Except LoadError Module))
    (request : LoadRequest) : Except LoadError Module :=
  match cached.lookup request.name with
  | some module =>
      .ok module
  | none =>
      (answers.lookup request.name).getD (.error (.notFound request.name))

/-- Load the modules of the requests, with the look-ups coming back in the given
order. -/
def load
    (service : LookupService)
    (timeout : Nat)
    (order : List Nat)
    (cached : List (String × Module))
    (requests : List LoadRequest) : Loading :=
  let admission := Admission.ofRequests requests
  let accepted := admission.accepted.reverse
  let names := missing cached requests
  let lookups := names.map (service.timely timeout)
  let result :=
    supply cached (answers (service.timely timeout) order names)
  { modules :=
      accepted.filterMap fun request => request.loaded? (result request)
    failures :=
      admission.rejected.reverse ++
        accepted.filterMap fun request => request.failure? (result request)
    lookups := lookups.length
    calls := lookups.filterMap Lookup.call
    duration :=
      (lookups.map fun lookup => lookup.answer.delay).foldl max 0 }

/-- What becomes of a request, whatever becomes of the others: it fails if it was
rejected, else it gets the cached module of its name or the answer to its own
look-up. -/
def result
    (service : LookupService)
    (timeout : Nat)
    (cached : List (String × Module))
    (judged : JudgedRequest) : Except LoadError Module :=
  let name := judged.request.name
  match judged.objection with
  | some error =>
      .error error
  | none =>
      match cached.lookup name with
      | some module =>
          .ok module
      | none =>
          if timeout < (service name).answer.delay then
            .error (.external (.timeout s!"loading module {name}" timeout))
          else
            (service name).answer.content

theorem content_timely
    (service : LookupService)
    (timeout : Nat)
    (name : String) :
    (service.timely timeout name).answer.content =
      if timeout < (service name).answer.delay then
        .error (.external (.timeout s!"loading module {name}" timeout))
      else
        (service name).answer.content := by
  simp only [timely, Timed.within]
  split <;> rfl

/-- No name is looked up twice. -/
theorem nodup_missing
    (cached : List (String × Module))
    (requests : List LoadRequest) :
    (missing cached requests).Nodup := by
  have namesOnce :=
    (List.nodup_cons.mp (Admission.nodup_names_admitted requests)).2
  exact namesOnce.filter _

variable {order : List Nat} {cached : List (String × Module)}
  {requests : List LoadRequest}

theorem mem_missing_iff
    {name : String} :
    name ∈ missing cached requests ↔
      (∃ judged ∈ Admission.judged requests,
        judged.objection = none ∧ judged.request.name = name) ∧
        cached.lookup name = none := by
  simp only [missing, List.mem_filter, List.mem_map,
    Admission.admitted, JudgedRequest.mem_admitted_iff, Option.isNone_iff_eq_none]
  constructor
  · rintro ⟨⟨request, ⟨judged, member, free, rfl⟩, rfl⟩, notCached⟩
    exact ⟨⟨judged, member, free, rfl⟩, notCached⟩
  · rintro ⟨⟨judged, member, free, rfl⟩, notCached⟩
    exact ⟨⟨judged.request, ⟨judged, member, free, rfl⟩, rfl⟩, notCached⟩

/-- Every name finds the answer to its own look-up. -/
theorem lookup_answers
    (service : LookupService)
    {names : List String}
    (namesOnce : names.Nodup)
    (allBack : order.Perm (List.range names.length))
    {name : String}
    (isLooked : name ∈ names) :
    (answers service order names).lookup name =
      some (service name).answer.content := by
  have joined :
      Slots.join (names.map fun name => (service name).answer.content) order =
        names.map fun name => (service name).answer.content :=
    Slots.join_eq (by simpa using allBack)
  have paired :
      names.zip (names.map fun name => (service name).answer.content) =
        names.map fun name => (name, (service name).answer.content) := by
    rw [← List.zip_map', List.map_id']
  have distinct :
      (([] ++ names.map fun name =>
        (name, (service name).answer.content)).map Prod.fst).Nodup := by
    simpa [Function.comp_def] using namesOnce
  rw [answers, joined, paired, Keyed.putAll_of_nodup distinct,
    List.nil_append]
  exact List.lookup_graph _ isLooked

/-- An admitted request gets its own result, whatever order the look-ups come back
in. -/
theorem supply_eq_result
    (service : LookupService)
    (timeout : Nat)
    (allBack : order.Perm (List.range (missing cached requests).length))
    {request : LoadRequest}
    (isAdmitted : request ∈ Admission.admitted requests) :
    supply cached
        (answers (service.timely timeout) order (missing cached requests))
        request =
      service.result timeout cached ⟨request, none⟩ := by
  unfold supply result
  cases inCache : cached.lookup request.name with
  | some module =>
      simp only [inCache]
  | none =>
      have isMissing : request.name ∈ missing cached requests :=
        List.mem_filter.mpr
          ⟨List.mem_map_of_mem isAdmitted, by simp [inCache]⟩
      have found :=
        lookup_answers (service.timely timeout)
          (nodup_missing cached requests) allBack isMissing
      simp only [found, inCache, Option.getD_some, content_timely]

/-- What the admitted requests come to, taken from the judgements. -/
theorem filterMap_admitted
    {Taken : Type}
    (service : LookupService)
    (timeout : Nat)
    (allBack : order.Perm (List.range (missing cached requests).length))
    (take : LoadRequest → Except LoadError Module → Option Taken) :
    let answers :=
      answers (service.timely timeout) order (missing cached requests)
    ((Admission.admitted requests).filterMap fun request =>
        take request (supply cached answers request)) =
      ((Admission.judged requests).filter fun judged =>
        !judged.objection.isSome).filterMap fun judged =>
          take judged.request (service.result timeout cached judged) := by
  intro answers
  have ownResults :
      ((Admission.admitted requests).filterMap fun request =>
          take request (supply cached answers request)) =
        (Admission.admitted requests).filterMap fun request =>
          take request (service.result timeout cached ⟨request, none⟩) := by
    apply List.filterMap_congr
    intro request isAdmitted
    rw [supply_eq_result service timeout allBack isAdmitted]
  rw [ownResults, Admission.admitted, List.filterMap_filterMap,
    List.filterMap_filter]
  apply List.filterMap_congr
  rintro ⟨request, objection⟩ -
  cases objection with
  | none =>
      rfl
  | some error =>
      rfl

/-- What is loaded, request by request. -/
theorem modules_load
    (service : LookupService)
    (timeout : Nat)
    (allBack : order.Perm (List.range (missing cached requests).length)) :
    (service.load timeout order cached requests).modules =
      (Admission.judged requests).filterMap fun judged =>
        judged.request.loaded? (service.result timeout cached judged) := by
  simp only [load, Admission.accepted_ofRequests]
  rw [filterMap_admitted service timeout allBack, List.filterMap_filter]
  apply List.filterMap_congr
  rintro ⟨request, objection⟩ -
  cases objection with
  | none =>
      rfl
  | some error =>
      rfl

/-- What fails, request by request; the rejected requests are listed first. -/
theorem failures_load
    (service : LookupService)
    (timeout : Nat)
    (allBack : order.Perm (List.range (missing cached requests).length)) :
    (service.load timeout order cached requests).failures.Perm
      ((Admission.judged requests).filterMap fun judged =>
        judged.request.failure? (service.result timeout cached judged)) := by
  have rejections :
      (Admission.judged requests).filterMap JudgedRequest.rejection? =
        ((Admission.judged requests).filter fun judged =>
          judged.objection.isSome).filterMap fun judged =>
            judged.request.failure?
              (service.result timeout cached judged) := by
    rw [List.filterMap_filter]
    apply List.filterMap_congr
    rintro ⟨request, objection⟩ -
    cases objection with
    | none =>
        rfl
    | some error =>
        rfl
  simp only [load, Admission.accepted_ofRequests,
    Admission.rejected_ofRequests]
  rw [rejections, filterMap_admitted service timeout allBack,
    ← List.filterMap_append]
  exact (List.filter_append_perm _ _).filterMap _

/-- The loaded modules stand in the order of the admitted requests. -/
theorem requests_modules_load
    (service : LookupService)
    (timeout : Nat)
    (order : List Nat)
    (cached : List (String × Module))
    (requests : List LoadRequest) :
    ((service.load timeout order cached requests).modules.map
      LoadedModule.request).Sublist (Admission.admitted requests) := by
  simp only [load, Admission.accepted_ofRequests]
  exact Loading.requests_sublist
    (fun _ _ isLoaded => LoadRequest.request_of_loaded? isLoaded) _

/-- Each request is loaded or fails, and never both. -/
theorem length_load
    (service : LookupService)
    (timeout : Nat)
    (allBack : order.Perm (List.range (missing cached requests).length)) :
    let loading := service.load timeout order cached requests
    loading.modules.length + loading.failures.length = requests.length := by
  intro loading
  have failsUnlessLoaded (judged : JudgedRequest) :
      (judged.request.failure?
          (service.result timeout cached judged)).isSome =
        !(judged.request.loaded?
          (service.result timeout cached judged)).isSome := by
    cases service.result timeout cached judged with
    | ok module =>
        rfl
    | error error =>
        rfl
  have counted : (Admission.judged requests).length = requests.length := by
    rw [← List.length_map JudgedRequest.request, Admission.judged,
      Admission.map_request_judgeAll]
  rw [modules_load service timeout allBack,
    (failures_load service timeout allBack).length_eq,
    List.length_filterMap_eq_countP, List.length_filterMap_eq_countP,
    ← counted,
    List.length_eq_countP_add_countP fun judged =>
      (judged.request.loaded? (service.result timeout cached judged)).isSome]
  simp only [failsUnlessLoaded, Bool.not_eq_true, Bool.decide_eq_false]

end LookupService

/-- The look-ups of a registry of modules and manifests. -/
def Loader.service (loader : Loader) : LookupService :=
  loader.registry.lookup loader.collaborators

/-- Loading by itself is loading with look-ups that come back in any order. -/
theorem Loader.load_eq_service
    (loader : Loader)
    {order : List Nat}
    {cached : List (String × Module)}
    {requests : List LoadRequest}
    (allBack :
      order.Perm (List.range (LookupService.missing cached requests).length)) :
    loader.service.load loader.timeout order cached requests =
      loader.load cached requests := by
  have sameSupply :
      ∀ request ∈ Admission.admitted requests,
        LookupService.supply cached
            (LookupService.answers (loader.service.timely loader.timeout) order
              (LookupService.missing cached requests)) request =
          loader.supply cached request := by
    intro request isAdmitted
    rw [LookupService.supply_eq_result loader.service loader.timeout allBack
      isAdmitted]
    simp only [LookupService.result, Loader.supply]
    cases cached.lookup request.name with
    | some module =>
        rfl
    | none =>
        exact (LookupService.content_timely loader.service loader.timeout
          request.name).symm
  have sameResults
      {Taken : Type}
      (take : LoadRequest → Except LoadError Module → Option Taken) :
      ((Admission.admitted requests).filterMap fun request =>
          take request
            (LookupService.supply cached
              (LookupService.answers (loader.service.timely loader.timeout)
                order (LookupService.missing cached requests)) request)) =
        (Admission.admitted requests).filterMap fun request =>
          take request (loader.supply cached request) := by
    apply List.filterMap_congr
    intro request isAdmitted
    rw [sameSupply request isAdmitted]
  have sameLookups :
      (LookupService.missing cached requests).map
          (loader.service.timely loader.timeout) =
        ((Admission.admitted requests).filter fun request =>
          (cached.lookup request.name).isNone).map fun request =>
            loader.lookup request.name := by
    rw [LookupService.missing, List.filter_map, List.map_map]
    rfl
  simp only [LookupService.load, Loader.load, Admission.accepted_ofRequests,
    sameResults, sameLookups]
  rfl

/-- The admitted names that are not cached are looked up and asked for. -/
theorem Loader.lookups_load
    (loader : Loader)
    (cached : List (String × Module))
    (requests : List LoadRequest) :
    (loader.load cached requests).lookups =
        (LookupService.missing cached requests).length ∧
      (loader.load cached requests).calls =
        (LookupService.missing cached requests).filterMap fun name =>
          (loader.lookup name).call := by
  rw [← loader.load_eq_service (.refl _)]
  exact ⟨List.length_map _, List.filterMap_map⟩

/-- Whether the error is the rejection of a request. -/
def LoadError.isRejection : LoadError → Bool
  | .alreadyLoaded _ | .aliasInUse _ =>
      true
  | .notFound _ | .invalidContent _ _ | .external _ =>
      false

/-- A registry of modules and manifests rejects no request itself. -/
theorem Registry.isRejection_lookup
    {registry : Registry}
    {collaborators : Collaborators}
    {name : String}
    {error : LoadError}
    (fails :
      (registry.lookup collaborators name).answer.content = .error error) :
    error.isRejection = false := by
  unfold Registry.lookup at fails
  split at fails
  · cases fails
    rfl
  · cases fails
  · simp only at fails
    split at fails
    · cases fails
      rfl
    · unfold readRemote at fails
      split at fails
      · cases fails
        rfl
      · split at fails
        · cases fails
          rfl
        · cases fails

/-- With such a registry, what looks like a rejection is one. -/
theorem Loader.objection_of_result
    {loader : Loader}
    {registry : Registry}
    {cached : List (String × Module)}
    {judged : JudgedRequest}
    {error : LoadError}
    (isOfRegistry : loader.registry = registry.directory)
    (fails :
      loader.service.result loader.timeout cached judged = .error error)
    (isRejection : error.isRejection = true) :
    judged.objection = some error := by
  unfold LookupService.result at fails
  cases objected : judged.objection with
  | some objection =>
      simp only [objected, Except.error.injEq] at fails
      rw [fails]
  | none =>
      simp only [objected] at fails
      split at fails
      · cases fails
      · split at fails
        · cases fails
          cases isRejection
        · rw [Loader.service, isOfRegistry] at fails
          rw [Registry.isRejection_lookup fails] at isRejection
          cases isRejection

namespace Loading

/-- Beside the standard module every loaded module and every alias can be seen. -/
theorem visible_merge
    {modules : List LoadedModule}
    (apart : KeysApart modules)
    {scopes : Scopes}
    {standard : Module}
    (standardAlone :
      scopes.bindings = [.ofModule Script.standardName standard]) :
    let merged := scopes.merge (scopesOf modules)
    merged.visible .module =
        .ofModule Script.standardName standard ::
          modules.map LoadedModule.moduleBinding ∧
      merged.visible .alias =
        modules.filterMap LoadedModule.aliasBinding? := by
  intro merged
  have all : merged.bindings = _ := bindings_merge apart standardAlone
  have distinct : (merged.bindings.map Binding.key).Nodup := by
    rw [all]
    exact apart.nodup_bindings standard
  have isModule :
      Binding.space (.ofModule Script.standardName standard) = .module :=
    rfl
  rw [Scopes.visible_of_nodup distinct, Scopes.visible_of_nodup distinct, all,
    List.filter_cons_of_pos (by simp [isModule]),
    List.filter_cons_of_neg (by simp [isModule]), (filter_bindings modules).1,
    (filter_bindings modules).2]
  exact ⟨rfl, rfl⟩

end Loading

/--
Loading accounts for every request and never clashes, whatever registry answers
and in whatever order the look-ups come back.  Every request is judged by the ones
before it: it is rejected if its name is taken, or else if its key is.  It gives
its own result, which is a loaded module or a failure and depends on no other
look-up.  The loaded modules stand in the order of the requests, and no two of them
share a name or a key with each other or with the standard module.  Every admitted
name that is not cached is looked up once.  So binding the modules beside the
standard module keeps it, and adds one module for each of them and one alias for
each that was loaded under an alias.  The loading of a pass is of this kind,
whatever its registry, and with a registry of modules and manifests no look-up
fails with a rejection.
-/
theorem loading_accounts_for_requests
    (service : LookupService)
    (timeout : Nat)
    (cached : List (String × Module))
    (requests : List LoadRequest)
    (order : List Nat)
    (allBack :
      order.Perm (List.range (LookupService.missing cached requests).length)) :
    let loading := service.load timeout order cached requests
    let judged := Admission.judged requests
    let result := service.result timeout cached
    let missing := LookupService.missing cached requests
    (judged.map JudgedRequest.request = requests ∧
      ∀ earlier request objection later,
        judged = earlier ++ ⟨request, objection⟩ :: later →
        let nameTaken :=
          JudgedRequest.Taken earlier LoadRequest.name request.name
        let keyTaken := JudgedRequest.Taken earlier LoadRequest.key request.key
        (objection = some (.alreadyLoaded request.name) ↔ nameTaken) ∧
          (objection = some (.aliasInUse request.key) ↔
            ¬ nameTaken ∧ keyTaken) ∧
          (objection = none ↔ ¬ nameTaken ∧ ¬ keyTaken)) ∧
    (loading.modules =
        judged.filterMap (fun own => own.request.loaded? (result own)) ∧
      loading.failures.Perm
        (judged.filterMap fun own => own.request.failure? (result own)) ∧
      loading.modules.length + loading.failures.length = requests.length) ∧
    ((loading.modules.map LoadedModule.request).Sublist requests ∧
      (Script.standardName ::
        loading.modules.map fun loaded => loaded.request.name).Nodup ∧
      (Script.standardName ::
        loading.modules.map fun loaded => loaded.request.key).Nodup) ∧
    ((∀ name,
        name ∈ missing ↔
          (∃ own ∈ judged, own.objection = none ∧ own.request.name = name) ∧
            cached.lookup name = none) ∧
      missing.Nodup ∧
      loading.lookups = missing.length ∧
      loading.calls = missing.filterMap fun name => (service name).call) ∧
    (∀ (scopes : Scopes) (standard : Module),
      scopes.bindings = [.ofModule Script.standardName standard] →
      let merged := scopes.merge loading.scopes
      merged.bindings =
          .ofModule Script.standardName standard ::
            loading.modules.flatMap LoadedModule.bindings ∧
        merged.visible .module =
          .ofModule Script.standardName standard ::
            loading.modules.map LoadedModule.moduleBinding ∧
        merged.visible .alias =
          loading.modules.filterMap LoadedModule.aliasBinding?) ∧
    ∀ loader : Loader,
      loader.service = service →
      loader.timeout = timeout →
      loader.load cached requests = loading ∧
        ∀ registry : Registry,
          loader.registry = registry.directory →
          ∀ own ∈ judged, ∀ error,
            result own = .error error →
            error.isRejection = true →
            own.objection = some error := by
  intro loading judged result missing
  have sameOrder : (loading.modules.map LoadedModule.request).Sublist _ :=
    LookupService.requests_modules_load service timeout order cached requests
  have namesApart :
      (Script.standardName ::
        loading.modules.map fun loaded => loaded.request.name).Nodup := by
    have fewer := (sameOrder.map LoadRequest.name).cons_cons Script.standardName
    rw [List.map_map] at fewer
    exact (Admission.nodup_names_admitted requests).sublist fewer
  have keysApart : Loading.KeysApart loading.modules := by
    have fewer := (sameOrder.map LoadRequest.key).cons_cons Script.standardName
    rw [List.map_map] at fewer
    exact (Admission.nodup_keys_admitted requests).sublist fewer
  refine ⟨⟨Admission.map_request_judgeAll .initial requests, ?_⟩,
    ⟨LookupService.modules_load service timeout allBack,
      LookupService.failures_load service timeout allBack,
      LookupService.length_load service timeout allBack⟩,
    ⟨sameOrder.trans (Admission.admitted_sublist requests), namesApart,
      keysApart⟩,
    ⟨fun _ => LookupService.mem_missing_iff,
      LookupService.nodup_missing cached requests, ?_, ?_⟩, ?_, ?_⟩
  · intro earlier request objection later split
    exact Admission.objection_of_split split
  · exact List.length_map _
  · exact List.filterMap_map
  · intro scopes standard standardAlone
    exact ⟨Loading.bindings_merge keysApart standardAlone,
      Loading.visible_merge keysApart standardAlone⟩
  · rintro loader rfl rfl
    refine ⟨(loader.load_eq_service allBack).symm, ?_⟩
    intro registry isOfRegistry own _ error fails isRejection
    exact Loader.objection_of_result isOfRegistry fails isRejection

/--
Two loads under one alias, a module asked for twice, the standard module's name and
key, an alias that is another module's name, a look-up that takes too long, and one
module that is cached.  The look-ups come back in the opposite order.
-/
theorem loading_accounts_for_requests_clashing :
    let load (name : String) (aliasName : Option String) : LoadRequest :=
      ⟨name, aliasName, none⟩
    let service : LookupService :=
      fun name =>
        { call := none
          answer :=
            ⟨if name = "slow" then 9 else 1, .ok (Module.named name)⟩ }
    let cached := [("kept", Module.named "kept")]
    let requests :=
      [load "first" (some "a"), load "second" (some "a"), load "first" none,
        load "std" none, load "third" (some "std"), load "a" none,
        load "slow" none, load "kept" (some "k")]
    let order := [1, 0]
    let loading := service.load 5 order cached requests
    order.Perm (List.range (LookupService.missing cached requests).length) ∧
      (loading.modules.map fun loaded => loaded.module.name) =
        ["first", "kept"] ∧
      loading.modules.length + loading.failures.length = 8 ∧
      loading.lookups = 2 := by
  intro load service cached requests order loading
  have allBack :
      order.Perm
        (List.range (LookupService.missing cached requests).length) := by
    decide +kernel
  obtain ⟨-, ⟨-, -, accounted⟩, -, ⟨-, -, counted, -⟩, -, -⟩ :=
    loading_accounts_for_requests service 5 cached requests order allBack
  refine ⟨allBack, ?_, accounted, ?_⟩
  · decide +kernel
  · rw [counted]
    decide +kernel

end ScriptCompletion
