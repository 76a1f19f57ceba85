import ScriptCompletion.Proofs.ModuleSupply
import ScriptCompletion.Proofs.VisibleBindings

namespace ScriptCompletion

/-!
# Which loads are admitted

A request is judged by the requests that were admitted before it: it is rejected
if one of them has its name, or else if one of them has its key, and the standard
module has taken its own name from the start.  So the modules of a script never
clash.  Their names and keys are distinct, and binding them adds to what is there
without replacing anything.
-/

/-- A request and what was objected to it, if anything. -/
structure JudgedRequest where
  request : LoadRequest
  objection : Option LoadError
deriving Repr, DecidableEq

namespace JudgedRequest

/-- The request, if it was not rejected. -/
def admitted? (judged : JudgedRequest) : Option LoadRequest :=
  if judged.objection.isNone then
    some judged.request
  else
    none

/-- The failure that goes into a report, if the request was rejected. -/
def rejection? (judged : JudgedRequest) : Option CommandFailure :=
  judged.objection.map judged.request.failed

theorem mem_admitted_iff
    {judged : List JudgedRequest}
    {request : LoadRequest} :
    request ∈ judged.filterMap admitted? ↔
      ∃ own ∈ judged, own.objection = none ∧ own.request = request := by
  simp [admitted?]

end JudgedRequest

namespace Admission

/-- Judge requests one after another and note what was objected to each. -/
def judgeAll : Admission → List LoadRequest → List JudgedRequest
  | _, [] =>
      []
  | admission, request :: rest =>
      ⟨request, admission.objection request⟩ ::
        judgeAll (admission.judge request) rest

/-- The requests of a script, each with what was objected to it. -/
def judged (requests : List LoadRequest) : List JudgedRequest :=
  judgeAll initial requests

/-- The requests of a script that were not rejected, in source order. -/
def admitted (requests : List LoadRequest) : List LoadRequest :=
  (judged requests).filterMap JudgedRequest.admitted?

theorem judgeAll_append
    (admission : Admission)
    (first second : List LoadRequest) :
    judgeAll admission (first ++ second) =
      judgeAll admission first ++
        judgeAll (first.foldl judge admission) second := by
  induction first generalizing admission with
  | nil =>
      rfl
  | cons request rest inductionHypothesis =>
      simp only [List.cons_append, judgeAll, List.foldl_cons,
        inductionHypothesis]

/-- Every request is judged once, in order. -/
@[simp]
theorem map_request_judgeAll
    (admission : Admission)
    (requests : List LoadRequest) :
    (judgeAll admission requests).map JudgedRequest.request = requests := by
  induction requests generalizing admission with
  | nil =>
      rfl
  | cons request rest inductionHypothesis =>
      simp only [judgeAll, List.map_cons, inductionHypothesis]

/-- A request is judged by what the requests before it left. -/
theorem judgeAll_eq_append_cons
    {admission : Admission}
    {requests : List LoadRequest}
    {earlier later : List JudgedRequest}
    {judged : JudgedRequest}
    (split : judgeAll admission requests = earlier ++ judged :: later) :
    let before := earlier.map JudgedRequest.request
    earlier = judgeAll admission before ∧
      judged.objection =
        (before.foldl judge admission).objection judged.request := by
  intro before
  have inOrder :
      requests =
        before ++ judged.request :: later.map JudgedRequest.request := by
    rw [← map_request_judgeAll admission requests, split]
    simp [before]
  rw [inOrder, judgeAll_append, judgeAll] at split
  have sameLength : (judgeAll admission before).length = earlier.length := by
    rw [← List.length_map JudgedRequest.request, map_request_judgeAll,
      List.length_map]
  obtain ⟨sameEarlier, sameRest⟩ := List.append_inj split sameLength
  refine ⟨sameEarlier.symm, ?_⟩
  rw [← (List.cons.inj sameRest).1]

/-- The admission knows the names and keys of what it has accepted and those of
the standard module, and no name and no key twice. -/
structure Orderly (admission : Admission) : Prop where
  names :
    admission.names =
      admission.accepted.map LoadRequest.name ++ [Script.standardName]
  keys :
    admission.keys =
      admission.accepted.map LoadRequest.key ++ [Script.standardName]
  namesOnce : admission.names.Nodup
  keysOnce : admission.keys.Nodup

theorem orderly_initial : initial.Orderly where
  names := rfl
  keys := rfl
  namesOnce := by simp [initial]
  keysOnce := by simp [initial]

/-- A request is rejected for its name first, then for its key. -/
theorem objection_iff
    {admission : Admission}
    {request : LoadRequest} :
    (admission.objection request = some (.alreadyLoaded request.name) ↔
        request.name ∈ admission.names) ∧
      (admission.objection request = some (.aliasInUse request.key) ↔
        request.name ∉ admission.names ∧ request.key ∈ admission.keys) ∧
      (admission.objection request = none ↔
        request.name ∉ admission.names ∧ request.key ∉ admission.keys) := by
  unfold objection
  by_cases nameTaken : request.name ∈ admission.names
  · simp [nameTaken]
  · by_cases keyTaken : request.key ∈ admission.keys
    · simp [nameTaken, keyTaken]
    · simp [nameTaken, keyTaken]

/-- Judging a request keeps the admission orderly. -/
theorem Orderly.judge
    {admission : Admission}
    (orderly : admission.Orderly)
    (request : LoadRequest) :
    (admission.judge request).Orderly := by
  unfold Admission.judge
  cases objected : admission.objection request with
  | some error =>
      exact ⟨orderly.names, orderly.keys, orderly.namesOnce, orderly.keysOnce⟩
  | none =>
      obtain ⟨newName, newKey⟩ := objection_iff.2.2.mp objected
      exact
        { names := congrArg (List.cons request.name) orderly.names
          keys := congrArg (List.cons request.key) orderly.keys
          namesOnce := List.nodup_cons.mpr ⟨newName, orderly.namesOnce⟩
          keysOnce := List.nodup_cons.mpr ⟨newKey, orderly.keysOnce⟩ }

theorem Orderly.foldl_judge
    {admission : Admission}
    (orderly : admission.Orderly)
    (requests : List LoadRequest) :
    (requests.foldl Admission.judge admission).Orderly := by
  induction requests generalizing admission with
  | nil =>
      exact orderly
  | cons request rest inductionHypothesis =>
      exact inductionHypothesis (orderly.judge request)

/-- What is accepted and what is rejected can be read off the judgements. -/
theorem foldl_judge_eq
    (admission : Admission)
    (requests : List LoadRequest) :
    let judged := judgeAll admission requests
    (requests.foldl judge admission).accepted =
        (judged.filterMap JudgedRequest.admitted?).reverse ++
          admission.accepted ∧
      (requests.foldl judge admission).rejected =
        (judged.filterMap JudgedRequest.rejection?).reverse ++
          admission.rejected := by
  induction requests generalizing admission with
  | nil =>
      exact ⟨rfl, rfl⟩
  | cons request rest inductionHypothesis =>
      obtain ⟨sameAccepted, sameRejected⟩ :=
        inductionHypothesis (admission.judge request)
      simp only [List.foldl_cons, judgeAll, sameAccepted, sameRejected,
        List.filterMap_cons]
      cases objected : admission.objection request with
      | none =>
          simp [judge, objected, JudgedRequest.admitted?,
            JudgedRequest.rejection?]
      | some error =>
          simp [judge, objected, JudgedRequest.admitted?,
            JudgedRequest.rejection?]

theorem accepted_ofRequests (requests : List LoadRequest) :
    (ofRequests requests).accepted.reverse = admitted requests := by
  have sameAccepted := (foldl_judge_eq initial requests).1
  rw [ofRequests, sameAccepted]
  simp [initial, admitted, judged]

theorem rejected_ofRequests (requests : List LoadRequest) :
    (ofRequests requests).rejected.reverse =
      (judged requests).filterMap JudgedRequest.rejection? := by
  have sameRejected := (foldl_judge_eq initial requests).2
  rw [ofRequests, sameRejected]
  simp [initial, judged]

/-- The admitted requests are requests, in their order. -/
theorem admitted_sublist (requests : List LoadRequest) :
    (admitted requests).Sublist requests := by
  have someOfAll :
      admitted requests =
        ((judged requests).filter fun own => own.objection.isNone).map
          JudgedRequest.request := by
    rw [admitted, ← List.filterMap_eq_map, List.filterMap_filter]
    rfl
  have someOfJudged :
      (admitted requests).Sublist
        ((judged requests).map JudgedRequest.request) := by
    rw [someOfAll]
    exact List.filter_sublist.map _
  rwa [judged, map_request_judgeAll] at someOfJudged

/-- The names of the admitted requests are distinct, and none is the standard
module's. -/
theorem nodup_names_admitted (requests : List LoadRequest) :
    (Script.standardName ::
      (admitted requests).map LoadRequest.name).Nodup := by
  have orderly : (ofRequests requests).Orderly :=
    orderly_initial.foldl_judge requests
  have once := List.nodup_reverse.mpr orderly.namesOnce
  rw [orderly.names, List.reverse_append, ← List.map_reverse,
    accepted_ofRequests] at once
  exact once

/-- The keys of the admitted requests are distinct, and none is the standard
module's. -/
theorem nodup_keys_admitted (requests : List LoadRequest) :
    (Script.standardName ::
      (admitted requests).map LoadRequest.key).Nodup := by
  have orderly : (ofRequests requests).Orderly :=
    orderly_initial.foldl_judge requests
  have once := List.nodup_reverse.mpr orderly.keysOnce
  rw [orderly.keys, List.reverse_append, ← List.map_reverse,
    accepted_ofRequests] at once
  exact once

end Admission

/-- A name or a key is taken by the standard module, or by a request that was not
rejected. -/
def JudgedRequest.Taken
    (earlier : List JudgedRequest)
    (field : LoadRequest → String)
    (value : String) : Prop :=
  value = Script.standardName ∨
    ∃ other ∈ earlier, other.objection = none ∧ field other.request = value

namespace Admission

theorem taken_iff
    {earlier : List JudgedRequest}
    {field : LoadRequest → String}
    {value : String} :
    JudgedRequest.Taken earlier field value ↔
      value ∈
        (earlier.filterMap JudgedRequest.admitted?).reverse.map field ++
          [Script.standardName] := by
  simp only [JudgedRequest.Taken, List.mem_append, List.mem_map,
    List.mem_reverse, JudgedRequest.mem_admitted_iff, List.mem_singleton]
  constructor
  · rintro (isStandard | ⟨other, member, free, rfl⟩)
    · exact .inr isStandard
    · exact .inl ⟨other.request, ⟨other, member, free, rfl⟩, rfl⟩
  · rintro (⟨request, ⟨other, member, free, rfl⟩, rfl⟩ | isStandard)
    · exact .inr ⟨other, member, free, rfl⟩
    · exact .inl isStandard

/-- The rule by which requests are judged. -/
theorem objection_of_split
    {requests : List LoadRequest}
    {earlier later : List JudgedRequest}
    {request : LoadRequest}
    {objection : Option LoadError}
    (split : judged requests = earlier ++ ⟨request, objection⟩ :: later) :
    let nameTaken := JudgedRequest.Taken earlier LoadRequest.name request.name
    let keyTaken := JudgedRequest.Taken earlier LoadRequest.key request.key
    (objection = some (.alreadyLoaded request.name) ↔ nameTaken) ∧
      (objection = some (.aliasInUse request.key) ↔
        ¬ nameTaken ∧ keyTaken) ∧
      (objection = none ↔ ¬ nameTaken ∧ ¬ keyTaken) := by
  obtain ⟨sameEarlier, sameObjection⟩ := judgeAll_eq_append_cons split
  have accepted :=
    (foldl_judge_eq initial (earlier.map JudgedRequest.request)).1
  have orderly :=
    orderly_initial.foldl_judge (earlier.map JudgedRequest.request)
  have names := orderly.names
  have keys := orderly.keys
  rw [accepted, ← sameEarlier, initial, List.append_nil] at names keys
  have rule :=
    @objection_iff ((earlier.map JudgedRequest.request).foldl judge initial)
      request
  rw [← sameObjection, initial, names, keys] at rule
  simpa only [taken_iff] using rule

end Admission

namespace LoadedModule

/-- The module under its key. -/
def moduleBinding (loaded : LoadedModule) : Binding :=
  .ofModule loaded.request.key loaded.module

/-- The alias of the module's name, if it was loaded under one. -/
def aliasBinding? (loaded : LoadedModule) : Option Binding :=
  loaded.request.aliasName.map fun aliasName =>
    .ofAlias aliasName loaded.request.name

theorem bindings_eq (loaded : LoadedModule) :
    loaded.bindings = loaded.moduleBinding :: loaded.aliasBinding?.toList := by
  unfold bindings aliasBinding?
  cases loaded.request.aliasName with
  | none =>
      rfl
  | some aliasName =>
      rfl

/-- An alias is bound under the key of its module. -/
theorem key_of_mem_bindings
    {loaded : LoadedModule}
    {binding : Binding}
    (member : binding ∈ loaded.bindings) :
    binding.name = loaded.request.key := by
  rw [bindings_eq, List.mem_cons, Option.mem_toList] at member
  rcases member with rfl | isAlias
  · rfl
  · obtain ⟨aliasName, aliased, rfl⟩ := Option.map_eq_some_iff.mp isAlias
    simp [LoadRequest.key, aliased, Binding.ofAlias]

theorem nodup_keys_bindings (loaded : LoadedModule) :
    (loaded.bindings.map Binding.key).Nodup := by
  rw [bindings_eq]
  unfold aliasBinding?
  cases loaded.request.aliasName with
  | none =>
      simp
  | some aliasName =>
      simp [moduleBinding, Binding.key, Binding.space, Binding.ofModule,
        Binding.ofAlias, Value.space]

end LoadedModule

namespace Loading

/-- Modules whose keys are distinct, none of them the standard module's. -/
def KeysApart (modules : List LoadedModule) : Prop :=
  (Script.standardName ::
    modules.map fun loaded => loaded.request.key).Nodup

/-- Fewer modules clash no more. -/
theorem KeysApart.sublist
    {modules fewer : List LoadedModule}
    (apart : KeysApart modules)
    (sublist : fewer.Sublist modules) :
    KeysApart fewer :=
  List.Nodup.sublist ((sublist.map _).cons_cons _) apart

/-- Modules with distinct keys bind nothing twice, and nothing of the standard
module's. -/
theorem KeysApart.nodup_bindings
    {modules : List LoadedModule}
    (apart : KeysApart modules)
    (standard : Module) :
    ((.ofModule Script.standardName standard ::
      modules.flatMap LoadedModule.bindings).map Binding.key).Nodup := by
  obtain ⟨noStandard, keysOnce⟩ := List.nodup_cons.mp apart
  rw [List.map_cons, List.nodup_cons]
  constructor
  · intro member
    obtain ⟨binding, isBound, sameKey⟩ := List.mem_map.mp member
    obtain ⟨loaded, isLoaded, inBindings⟩ := List.mem_flatMap.mp isBound
    have sameName : binding.name = Script.standardName :=
      congrArg Prod.snd sameKey
    rw [LoadedModule.key_of_mem_bindings inBindings] at sameName
    exact noStandard (List.mem_map.mpr ⟨loaded, isLoaded, sameName⟩)
  · rw [List.map_flatMap, List.nodup_flatMap]
    refine ⟨fun loaded _ => loaded.nodup_keys_bindings, ?_⟩
    refine (List.pairwise_map.mp keysOnce).imp ?_
    intro first second differentKeys key inFirst inSecond
    obtain ⟨firstBinding, isFirst, rfl⟩ := List.mem_map.mp inFirst
    obtain ⟨secondBinding, isSecond, sameKey⟩ := List.mem_map.mp inSecond
    have sameName : secondBinding.name = firstBinding.name :=
      congrArg Prod.snd sameKey
    rw [LoadedModule.key_of_mem_bindings isFirst,
      LoadedModule.key_of_mem_bindings isSecond] at sameName
    exact differentKeys sameName.symm

end Loading

namespace Scopes

/-- Bindings that are new to the innermost frame come behind all others. -/
theorem bindings_bindAll_of_nodup
    {scopes : Scopes}
    {added : List Binding}
    (distinct :
      ((scopes.innermost.bindings ++ added).map Binding.key).Nodup) :
    (scopes.bindAll added).bindings = scopes.bindings ++ added := by
  simp only [bindAll_eq, bindings, frames, Frame.bindAll,
    Keyed.putAll_of_nodup distinct, List.reverse_cons, List.flatMap_append,
    List.flatMap_cons, List.flatMap_nil, List.append_nil, List.append_assoc]

theorem innermost_sublist (scopes : Scopes) :
    scopes.innermost.bindings.Sublist scopes.bindings := by
  simp [bindings, frames]

/-- Where nothing is bound twice, everything can be seen. -/
theorem visible_of_nodup
    {scopes : Scopes}
    (distinct : (scopes.bindings.map Binding.key).Nodup)
    (space : Space) :
    scopes.visible space =
      scopes.bindings.filter fun binding => Binding.space binding == space := by
  have keysOnce :
      ((scopes.bindings.filter fun binding =>
        Binding.space binding == space).map Binding.key).Nodup :=
    distinct.sublist (List.filter_sublist.map Binding.key)
  have namesOnce :
      ((scopes.bindings.filter fun binding =>
        Binding.space binding == space).map BindingOf.name).Nodup := by
    rw [List.Nodup, List.pairwise_map] at keysOnce ⊢
    refine keysOnce.imp_of_mem ?_
    intro first second isFirst isSecond differentKeys sameName
    have firstSpace := beq_iff_eq.mp (List.mem_filter.mp isFirst).2
    have secondSpace := beq_iff_eq.mp (List.mem_filter.mp isSecond).2
    exact differentKeys
      (Prod.ext (firstSpace.trans secondSpace.symm) sameName)
  exact Keyed.putAll_of_nodup namesOnce

end Scopes

namespace Loading

variable {modules : List LoadedModule}

theorem bindings_scopesOf (apart : KeysApart modules) :
    (scopesOf modules).bindings = modules.flatMap LoadedModule.bindings := by
  have distinct := (List.nodup_cons.mp (apart.nodup_bindings (.named ""))).2
  exact Scopes.bindings_bindAll_of_nodup distinct

/-- Binding loaded modules beside the standard module adds their bindings and
changes nothing else. -/
theorem bindings_merge
    (apart : KeysApart modules)
    {scopes : Scopes}
    {standard : Module}
    (standardAlone :
      scopes.bindings = [.ofModule Script.standardName standard]) :
    (scopes.merge (scopesOf modules)).bindings =
      .ofModule Script.standardName standard ::
        modules.flatMap LoadedModule.bindings := by
  rw [Scopes.merge, Scopes.bindings_bindAll_of_nodup, standardAlone,
    bindings_scopesOf apart, List.singleton_append]
  rw [bindings_scopesOf apart]
  refine (apart.nodup_bindings standard).sublist (List.Sublist.map _ ?_)
  rw [← List.singleton_append, ← standardAlone]
  exact (Scopes.innermost_sublist scopes).append_right _

/-- One module is bound for every one that was loaded, and one alias for every one
that was loaded under an alias. -/
theorem filter_bindings (modules : List LoadedModule) :
    ((modules.flatMap LoadedModule.bindings).filter fun binding =>
        Binding.space binding == .module) =
        modules.map LoadedModule.moduleBinding ∧
      ((modules.flatMap LoadedModule.bindings).filter fun binding =>
        Binding.space binding == .alias) =
        modules.filterMap LoadedModule.aliasBinding? := by
  induction modules with
  | nil =>
      exact ⟨rfl, rfl⟩
  | cons loaded rest inductionHypothesis =>
      rw [List.flatMap_cons, List.filter_append, List.filter_append,
        inductionHypothesis.1, inductionHypothesis.2, List.filterMap_cons,
        LoadedModule.bindings_eq]
      unfold LoadedModule.aliasBinding?
      cases loaded.request.aliasName with
      | none =>
          exact ⟨rfl, rfl⟩
      | some aliasName =>
          exact ⟨rfl, rfl⟩

/-- What is supplied for requests, each for its own, comes in their order. -/
theorem requests_sublist
    {supply : LoadRequest → Option LoadedModule}
    (forItself :
      ∀ request loaded,
        supply request = some loaded →
        loaded.request = request)
    (requests : List LoadRequest) :
    ((requests.filterMap supply).map LoadedModule.request).Sublist requests := by
  induction requests with
  | nil =>
      exact .slnil
  | cons request rest inductionHypothesis =>
      cases supplied : supply request with
      | none =>
          rw [List.filterMap_cons_none supplied]
          exact inductionHypothesis.cons request
      | some loaded =>
          rw [List.filterMap_cons_some supplied, List.map_cons,
            forItself request loaded supplied]
          exact inductionHypothesis.cons_cons request

/-- The modules that are supplied for admitted requests have distinct keys. -/
theorem keysApart_of_admitted
    {supply : LoadRequest → Option LoadedModule}
    (forItself :
      ∀ request loaded,
        supply request = some loaded →
        loaded.request = request)
    (requests : List LoadRequest) :
    KeysApart ((Admission.admitted requests).filterMap supply) := by
  have inOrder :=
    (requests_sublist forItself (Admission.admitted requests)).map
      LoadRequest.key
  rw [List.map_map] at inOrder
  exact (Admission.nodup_keys_admitted requests).sublist
    (inOrder.cons_cons Script.standardName)

end Loading

namespace Loader

variable {loader : Loader} {cached : List (String × Module)}
  {requests : List LoadRequest}

/-- What is loaded is what the admitted requests are supplied with. -/
theorem modules_load_eq :
    (loader.load cached requests).modules =
      (Admission.admitted requests).filterMap (loader.loaded? cached) := by
  rw [← Admission.accepted_ofRequests]
  rfl

theorem keysApart_load :
    Loading.KeysApart (loader.load cached requests).modules := by
  rw [modules_load_eq]
  apply Loading.keysApart_of_admitted
  intro request loaded isLoaded
  exact (supply_of_loaded? isLoaded).1

end Loader

end ScriptCompletion
