import ScriptCompletion.Engine.Pass
import ScriptCompletion.Proofs.LoadAdmission
import ScriptCompletion.Proofs.Outline

namespace ScriptCompletion

/-!
# Loads above a line

A request is judged by the requests before it, so what is loaded above a line,
and which loads fail there, does not depend on the requests behind the line.
Which modules are bound depends on the names and aliases of the requests, not on
where they stand.
-/

namespace LoadRequest

/-- The requests before the line come before all others. -/
def BeforeFirst
    (line : Nat)
    (requests : List LoadRequest) : Prop :=
  requests.Pairwise fun first second =>
    second.isBefore line = true →
    first.isBefore line = true

/-- Requests that come before all others can be split off. -/
theorem BeforeFirst.split
    {line : Nat}
    {requests : List LoadRequest}
    (sorted : BeforeFirst line requests) :
    ∃ later,
      requests =
          (requests.filter fun request => request.isBefore line) ++ later ∧
        ∀ request ∈ later, request.isBefore line = false := by
  induction requests with
  | nil =>
      exact ⟨[], rfl, by simp⟩
  | cons request rest inductionHypothesis =>
      obtain ⟨beforeRequest, restSorted⟩ := List.pairwise_cons.mp sorted
      cases comesBefore : request.isBefore line with
      | true =>
          obtain ⟨later, shape, behind⟩ := inductionHypothesis restSorted
          refine ⟨later, ?_, behind⟩
          simp [comesBefore, ← shape]
      | false =>
          have noneBefore :
              ∀ other ∈ request :: rest, other.isBefore line = false := by
            intro other member
            rcases List.mem_cons.mp member with isRequest | isRest
            · rw [isRequest]
              exact comesBefore
            · apply Bool.eq_false_iff.mpr
              intro otherBefore
              rw [beforeRequest other isRest otherBefore] at comesBefore
              cases comesBefore
          refine ⟨request :: rest, ?_, noneBefore⟩
          have nothing :
              ((request :: rest).filter fun other => other.isBefore line) =
                [] := by
            rw [List.filter_eq_nil_iff]
            intro other member
            simp [noneBefore other member]
          rw [nothing, List.nil_append]

/-- In a script that is read line by line, the requests before a line come
first. -/
theorem beforeFirst_collect
    {commands : List Script.Command}
    (sorted : (Script.outline commands).Pairwise Script.Event.Precedes)
    (line : Nat) :
    BeforeFirst line (collect commands) := by
  rw [collect_eq_outline]
  refine List.Pairwise.filterMap ofEvent? ?_ sorted
  intro firstEvent secondEvent precedes first isFirst second isSecond
    comesBefore
  unfold isBefore at comesBefore ⊢
  rw [line_of_ofEvent? isSecond] at comesBefore
  rw [line_of_ofEvent? isFirst]
  cases starts : secondEvent.line? with
  | none =>
      simp [starts] at comesBefore
  | some start =>
      obtain ⟨earlier, isEarlier, inTime⟩ := precedes start starts
      simp only [starts, decide_eq_true_eq] at comesBefore
      simp only [isEarlier, decide_eq_true_eq]
      omega

end LoadRequest

namespace Admission

/-- Judging requests adds some of them to those accepted before, and failures
on their lines to those rejected before. -/
theorem foldl_judge
    (admission : Admission)
    (requests : List LoadRequest) :
    ∃ accepted rejected,
      (requests.foldl judge admission).accepted =
          accepted ++ admission.accepted ∧
        (requests.foldl judge admission).rejected =
          rejected ++ admission.rejected ∧
        (∀ request ∈ accepted, request ∈ requests) ∧
        ∀ failure ∈ rejected,
          ∃ request ∈ requests, failure.line = request.line := by
  obtain ⟨sameAccepted, sameRejected⟩ := foldl_judge_eq admission requests
  have fromRequests :
      ∀ judged ∈ judgeAll admission requests, judged.request ∈ requests := by
    intro judged member
    rw [← map_request_judgeAll admission requests]
    exact List.mem_map_of_mem member
  refine ⟨_, _, sameAccepted, sameRejected, ?_, ?_⟩
  · intro request isAccepted
    rw [List.mem_reverse, JudgedRequest.mem_admitted_iff] at isAccepted
    obtain ⟨judged, member, -, rfl⟩ := isAccepted
    exact fromRequests judged member
  · intro failure isRejected
    obtain ⟨judged, member, isRejection⟩ :=
      List.mem_filterMap.mp (List.mem_reverse.mp isRejected)
    obtain ⟨error, -, rfl⟩ := Option.map_eq_some_iff.mp isRejection
    exact ⟨judged.request, fromRequests judged member, rfl⟩

/-- What is accepted depends on the names and aliases of the requests. -/
theorem signature_accepted
    {first second : List LoadRequest}
    (sameLoads : LoadRequest.signature first = LoadRequest.signature second)
    {firstBefore secondBefore : Admission}
    (sameNames : firstBefore.names = secondBefore.names)
    (sameKeys : firstBefore.keys = secondBefore.keys)
    (sameAccepted :
      LoadRequest.signature firstBefore.accepted =
        LoadRequest.signature secondBefore.accepted) :
    LoadRequest.signature (first.foldl judge firstBefore).accepted =
      LoadRequest.signature (second.foldl judge secondBefore).accepted := by
  induction first generalizing second firstBefore secondBefore with
  | nil =>
      cases second with
      | nil =>
          exact sameAccepted
      | cons request rest =>
          cases sameLoads
  | cons request rest inductionHypothesis =>
      cases second with
      | nil =>
          cases sameLoads
      | cons other others =>
          simp only [LoadRequest.signature, List.map_cons, List.cons.injEq,
            LoadRequest.toLoad, ModuleLoad.mk.injEq] at sameLoads
          obtain ⟨⟨sameName, sameAlias⟩, sameRest⟩ := sameLoads
          have sameKey : request.key = other.key := by
            simp only [LoadRequest.key, sameName, sameAlias]
          have sameObjection :
              firstBefore.objection request =
                secondBefore.objection other := by
            simp only [objection, sameNames, sameKeys, sameName, sameKey]
          rw [List.foldl_cons, List.foldl_cons]
          apply inductionHypothesis sameRest
          all_goals
            simp only [judge, sameObjection]
            cases secondBefore.objection other <;>
              simp_all [LoadRequest.signature, LoadRequest.toLoad]

end Admission

/-- A failure is above a line if its request is before it. -/
theorem CommandFailure.isAbove_of_line
    {failure : CommandFailure}
    {request : LoadRequest}
    (sameLine : failure.line = request.line)
    (line : Nat) :
    failure.isAbove line = request.isBefore line := by
  cases starts : request.line with
  | none =>
      simp [isAbove, LoadRequest.isBefore, sameLine, starts]
  | some start =>
      simp [isAbove, LoadRequest.isBefore, sameLine, starts]

namespace Loader

variable {loader : Loader} {cached : List (String × Module)}

theorem line_of_failure?
    {request : LoadRequest}
    {failure : CommandFailure}
    (fails : loader.failure? cached request = some failure) :
    failure.line = request.line := by
  unfold failure? at fails
  cases found : loader.supply cached request with
  | ok module =>
      simp [found] at fails
  | error error =>
      simp only [found, Option.some.injEq] at fails
      subst failure
      rfl

/-- Requests behind a line load nothing above it, and fail nowhere above it. -/
theorem load_append
    {line : Nat}
    (requests : List LoadRequest)
    {later : List LoadRequest}
    (behind : ∀ request ∈ later, request.isBefore line = false) :
    (loader.load cached (requests ++ later)).scopesBefore line =
        (loader.load cached requests).scopesBefore line ∧
      ((loader.load cached (requests ++ later)).failures.filter fun failure =>
          failure.isAbove line) =
        (loader.load cached requests).failures.filter fun failure =>
          failure.isAbove line := by
  obtain ⟨accepted, rejected, sameAccepted, sameRejected, fromLater,
      onTheirLines⟩ :=
    Admission.foldl_judge (Admission.ofRequests requests) later
  have judged :
      Admission.ofRequests (requests ++ later) =
        later.foldl Admission.judge (Admission.ofRequests requests) := by
    simp [Admission.ofRequests]
  have notBefore
      {request : LoadRequest}
      (isAccepted : request ∈ accepted.reverse) :
      request.isBefore line = false :=
    behind request (fromLater request (List.mem_reverse.mp isAccepted))
  have noModule :
      ((accepted.reverse.filterMap (loader.loaded? cached)).filter
        fun loaded => loaded.request.isBefore line) = [] := by
    rw [List.filter_eq_nil_iff]
    intro loaded member
    obtain ⟨request, isAccepted, isLoaded⟩ := List.mem_filterMap.mp member
    obtain ⟨rfl, -⟩ := supply_of_loaded? isLoaded
    simp [notBefore isAccepted]
  have noRejection :
      (rejected.reverse.filter fun failure => failure.isAbove line) = [] := by
    rw [List.filter_eq_nil_iff]
    intro failure member
    obtain ⟨request, isLater, sameLine⟩ :=
      onTheirLines failure (List.mem_reverse.mp member)
    simp [CommandFailure.isAbove_of_line sameLine, behind request isLater]
  have noFailure :
      ((accepted.reverse.filterMap (loader.failure? cached)).filter
        fun failure => failure.isAbove line) = [] := by
    rw [List.filter_eq_nil_iff]
    intro failure member
    obtain ⟨request, isAccepted, fails⟩ := List.mem_filterMap.mp member
    simp [CommandFailure.isAbove_of_line (line_of_failure? fails),
      notBefore isAccepted]
  constructor
  · simp only [Loading.scopesBefore, load, judged, sameAccepted,
      List.reverse_append, List.filterMap_append, List.filter_append,
      noModule, List.append_nil]
  · simp only [load, judged, sameAccepted, sameRejected, List.reverse_append,
      List.filterMap_append, List.filter_append, noRejection, noFailure,
      List.append_nil]

/-- Only requests that were made are loaded. -/
theorem request_of_mem_modules
    {requests : List LoadRequest}
    {loaded : LoadedModule}
    (member : loaded ∈ (loader.load cached requests).modules) :
    loaded.request ∈ requests := by
  rw [modules_load_eq] at member
  obtain ⟨request, isAdmitted, isLoaded⟩ := List.mem_filterMap.mp member
  obtain ⟨rfl, -⟩ := supply_of_loaded? isLoaded
  exact (Admission.admitted_sublist requests).subset isAdmitted

/-- Where the requests before a line come first, they alone decide what is loaded
above it. -/
theorem scopesBefore_of_sorted
    {line : Nat}
    {requests : List LoadRequest}
    (sorted : LoadRequest.BeforeFirst line requests) :
    (loader.load cached requests).scopesBefore line =
      (loader.load cached
        (requests.filter fun request => request.isBefore line)).scopes := by
  obtain ⟨later, shape, behind⟩ := sorted.split
  have allBefore :
      ∀ loaded ∈
          (loader.load cached
            (requests.filter fun request => request.isBefore line)).modules,
        loaded.request.isBefore line = true := by
    intro loaded member
    exact (List.mem_filter.mp (request_of_mem_modules member)).2
  have dropped :
      (loader.load cached requests).scopesBefore line =
        (loader.load cached
          (requests.filter fun request => request.isBefore line)).scopesBefore
            line := by
    rw [congrArg (loader.load cached) shape]
    exact (load_append _ behind).1
  rw [dropped, Loading.scopesBefore, List.filter_eq_self.mpr allBefore]
  rfl

/-- What an accepted request binds. -/
def boundBy
    (loader : Loader)
    (cached : List (String × Module))
    (request : LoadRequest) : List Binding :=
  (loader.loaded? cached request).toList.flatMap LoadedModule.bindings

theorem flatMap_boundBy (requests : List LoadRequest) :
    (requests.filterMap (loader.loaded? cached)).flatMap
        LoadedModule.bindings =
      requests.flatMap (loader.boundBy cached) := by
  induction requests with
  | nil =>
      rfl
  | cons request rest inductionHypothesis =>
      cases found : loader.loaded? cached request <;>
        simp [found, boundBy, inductionHypothesis]

/-- What an accepted request binds depends on its name and alias. -/
theorem boundBy_of_toLoad
    {first second : LoadRequest}
    (sameLoad : first.toLoad = second.toLoad) :
    loader.boundBy cached first = loader.boundBy cached second := by
  simp only [LoadRequest.toLoad, ModuleLoad.mk.injEq] at sameLoad
  obtain ⟨sameName, sameAlias⟩ := sameLoad
  have sameSupply :
      loader.supply cached first = loader.supply cached second := by
    simp only [supply, sameName]
  simp only [boundBy, loaded?, sameSupply]
  cases loader.supply cached second with
  | error error =>
      rfl
  | ok module =>
      simp only [Option.toList_some, List.flatMap_cons, List.flatMap_nil,
        LoadedModule.bindings, LoadRequest.key, sameName, sameAlias]

theorem flatMap_boundBy_of_signature
    {first second : List LoadRequest}
    (sameLoads : LoadRequest.signature first = LoadRequest.signature second) :
    first.flatMap (loader.boundBy cached) =
      second.flatMap (loader.boundBy cached) := by
  induction first generalizing second with
  | nil =>
      cases second with
      | nil =>
          rfl
      | cons request rest =>
          cases sameLoads
  | cons request rest inductionHypothesis =>
      cases second with
      | nil =>
          cases sameLoads
      | cons other others =>
          simp only [LoadRequest.signature, List.map_cons,
            List.cons.injEq] at sameLoads
          rw [List.flatMap_cons, List.flatMap_cons,
            boundBy_of_toLoad sameLoads.1, inductionHypothesis sameLoads.2]

/-- Which modules are bound depends on the names and aliases of the requests. -/
theorem scopes_load_of_signature
    {first second : List LoadRequest}
    (sameLoads : LoadRequest.signature first = LoadRequest.signature second) :
    (loader.load cached first).scopes = (loader.load cached second).scopes := by
  have sameAccepted :
      LoadRequest.signature (Admission.ofRequests first).accepted =
        LoadRequest.signature (Admission.ofRequests second).accepted :=
    Admission.signature_accepted sameLoads rfl rfl rfl
  have inOrder :
      LoadRequest.signature (Admission.ofRequests first).accepted.reverse =
        LoadRequest.signature
          (Admission.ofRequests second).accepted.reverse := by
    simp only [LoadRequest.signature, List.map_reverse] at sameAccepted ⊢
    rw [sameAccepted]
  simp only [Loading.scopes, Loading.scopesOf, load, flatMap_boundBy]
  rw [flatMap_boundBy_of_signature inOrder]

end Loader

end ScriptCompletion
