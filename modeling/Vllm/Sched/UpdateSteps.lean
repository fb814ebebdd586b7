import Vllm.Sched.Calls

namespace Vllm.Sched

open Foundation Function List
open KVCache (RequestId BlockId KVCacheManager)

/-!
# Processing an output, request by request

What `update_from_output` does with one request is given in closed form.  Up
to the handling of a stop, it changes the object of the request, the cached
blocks and the encoder cache, and nothing else.  The change of the object is a
function of the object, the drafts of the step and the sampled tokens.
-/

namespace Scheduler

variable {H : Type} {scheduler after : Scheduler H}

def scheduledDrafts (scheduler : Scheduler H) (output : SchedulerOutput) (requestId : RequestId) :
    List Token :=
  match output.scheduledSpecDecodeTokens.get? requestId with
  | none => []
  | some specTokenIds => scheduler.readSpec specTokenIds

/-- A request after its drafts were checked. -/
def observedRequest (drafts generatedTokenIds : List Token) (request : Request H) : Request H :=
  if drafts = [] \/ generatedTokenIds = [] then request
  else
    takeBackRejected ((drafts.length : Int) - (generatedTokenIds.length - 1 : Nat)) request

/-- A request after it took its tokens, with the tokens that were appended and
whether it stopped.  Tokens for a pooling request raise, and are ignored here. -/
def takenRequest (config : SchedulerConfig H) (tokenIds : List Token) (pooled : Bool)
    (request : Request H) : (List Token × Bool) × Request H :=
  if tokenIds ≠ [] then
    if config.asyncScheduling = true /\ request.discardLatestAsyncTokens = true then
      (([], false), { request with discardLatestAsyncTokens := false })
    else
      match request.params with
      | .pooling => (([], false), request)
      | .sampling params =>
        let result := appendTokens config.blockHasher params config.maxModelLen tokenIds request
        if config.asyncScheduling then
          (result.1,
            { result.2 with
              numOutputPlaceholders := result.2.numOutputPlaceholders - result.1.1.length })
        else
          result
  else if request.params = .pooling /\ pooled = true then
    (([], true), { request with status := .finishedStopped })
  else
    (([], false), request)

/-- A request whose tokens the grammar rejects is terminated. -/
def judgedRequest (rejected : Bool) (taken : (List Token × Bool) × Request H) :
    (List Token × Bool) × Request H :=
  if taken.1.1 ≠ [] /\ rejected = true then
    ((taken.1.1, true), { taken.2 with status := .finishedError, resumable := false })
  else
    taken

/-- What becomes of a request when its output arrives, before a stop is
handled. -/
def absorbed (config : SchedulerConfig H) (modelOutput : ModelRunnerOutput) (requestId : RequestId)
    (request : Request H) : (List Token × Bool) × Request H :=
  judgedRequest (modelOutput.grammarRejects requestId)
    (takenRequest config (modelOutput.sampledTokenIds requestId)
      (modelOutput.poolerOutput requestId) request)

theorem checkStop_finished {params : SamplingParams} {request : Request H} {maxModelLen : Nat}
    {status : RequestStatus} {stopReason : Option StopReason}
    (stops : checkStop params request maxModelLen = some (status, stopReason)) :
    status.isFinished = true := by
  rw [checkStop] at stops
  split at stops
  · cases stops
  split at stops
  · cases stops
  split at stops
  · cases stops
    rfl
  split at stops
  · cases stops
    rfl
  split at stops
  · cases stops
    rfl
  split at stops
  · cases stops
  split at stops
  · cases stops
    rfl
  · cases stops

/-- Whether a request stops depends on its tokens and its limit. -/
structure SameTokens (first second : Request H) : Prop where
  output : first.outputTokenIds = second.outputTokenIds
  all : first.allTokenIds = second.allTokenIds
  limit : first.maxTokens = second.maxTokens

section

variable {first second : Request H} (same : SameTokens first second)
include same

theorem checkStop_congr (params : SamplingParams) (maxModelLen : Nat) :
    (checkStop params first maxModelLen).isSome = (checkStop params second maxModelLen).isSome := by
  have sameCount : first.numOutputTokens = second.numOutputTokens := congrArg List.length same.output
  have sameLength : first.numTokens = second.numTokens := congrArg List.length same.all
  rw [checkStop, checkStop, sameCount, sameLength, same.output, same.limit]
  by_cases short : second.numOutputTokens < params.minTokens
  · rw [if_pos short, if_pos short]
  rw [if_neg short, if_neg short]
  cases second.outputTokenIds.getLast? with
  | none => rfl
  | some lastTokenId =>
    dsimp only
    by_cases isEos : params.eosTokenId = some lastTokenId
    · rw [if_pos isEos, if_pos isEos]
      rfl
    rw [if_neg isEos, if_neg isEos]
    by_cases isStop : lastTokenId ∈ params.stopTokenIds
    · rw [if_pos isStop, if_pos isStop]
    rw [if_neg isStop, if_neg isStop]
    split <;> rfl

theorem appendTokens_congr (blockHasher : Request H -> List H) (params : SamplingParams)
    (maxModelLen : Nat) (tokenIds : List Token) :
    (appendTokens blockHasher params maxModelLen tokenIds first).1 =
      (appendTokens blockHasher params maxModelLen tokenIds second).1 := by
  induction tokenIds generalizing first second with
  | nil => rfl
  | cons tokenId tokenIds ih =>
    have appended : SameTokens (first.appendOutputTokenId blockHasher tokenId)
        (second.appendOutputTokenId blockHasher tokenId) := by
      refine ⟨?_, ?_, same.limit⟩
      · simp only [Request.appendOutputTokenId, same.output]
      · simp only [Request.appendOutputTokenId, same.all]
    have sameStop := checkStop_congr appended params maxModelLen
    have continued := ih appended
    rw [appendTokens, appendTokens]
    dsimp only
    cases firstStops : checkStop params (first.appendOutputTokenId blockHasher tokenId)
        maxModelLen with
    | none =>
      rw [firstStops] at sameStop
      have secondStops := Option.not_isSome_iff_eq_none.mp (Bool.eq_false_iff.mp sameStop.symm)
      rw [secondStops]
      dsimp only
      rw [continued]
    | some result =>
      rw [firstStops] at sameStop
      obtain ⟨_, secondStops⟩ := Option.isSome_iff_exists.mp sameStop.symm
      rw [secondStops]

end

theorem observedRequest_eq {drafts generatedTokenIds : List Token} {request : Request H} :
    ∃ numComputedTokens numOutputPlaceholders,
      observedRequest drafts generatedTokenIds request =
        { request with
          numComputedTokens := numComputedTokens
          numOutputPlaceholders := numOutputPlaceholders } := by
  rw [observedRequest]
  split
  · exact ⟨request.numComputedTokens, request.numOutputPlaceholders, rfl⟩
  · exact ⟨_, _, rfl⟩

/-- Taking tokens changes the token lists, the hashes, the way the request
stopped and what it expects. -/
def Takes (request : Request H) (taken : (List Token × Bool) × Request H) : Prop :=
  ∃ hashes status stopReason numOutputPlaceholders discards,
    taken.2 =
      { request with
        outputTokenIds := request.outputTokenIds ++ taken.1.1
        allTokenIds := request.allTokenIds ++ taken.1.1
        blockHashes := hashes
        status := status
        stopReason := stopReason
        numOutputPlaceholders := numOutputPlaceholders
        discardLatestAsyncTokens := discards } /\
    (taken.1.2 = false -> status = request.status) /\
    (taken.1.2 = true -> status.isFinished = true)

theorem takes_nothing {request : Request H} {discards : Bool} :
    Takes request (([], false), { request with discardLatestAsyncTokens := discards }) := by
  refine ⟨request.blockHashes, request.status, request.stopReason, request.numOutputPlaceholders,
    discards, ?_, fun _ => rfl, nofun⟩
  simp only [append_nil]

theorem takes_appendTokens (blockHasher : Request H -> List H) (params : SamplingParams)
    (maxModelLen : Nat) (tokenIds : List Token) (request : Request H) :
    Takes request (appendTokens blockHasher params maxModelLen tokenIds request) := by
  induction tokenIds generalizing request with
  | nil => exact takes_nothing
  | cons tokenId tokenIds ih =>
    rw [appendTokens]
    split
    case h_1 status stopReason stops =>
      exact ⟨_, status, stopReason, _, _, rfl, nofun, fun _ => checkStop_finished stops⟩
    case h_2 goesOn =>
      obtain ⟨hashes, status, stopReason, placeholders, discards, same, unstopped, stopped⟩ :=
        ih (request.appendOutputTokenId blockHasher tokenId)
      refine ⟨hashes, status, stopReason, placeholders, discards, ?_, unstopped, stopped⟩
      rw [same]
      simp only [Request.appendOutputTokenId, append_assoc, singleton_append]

section

variable (config : SchedulerConfig H)
include config

theorem takes_takenRequest {tokenIds : List Token} {pooled : Bool} {request : Request H} :
    Takes request (takenRequest config tokenIds pooled request) := by
  rw [takenRequest]
  split
  · split
    · exact takes_nothing
    split
    · exact takes_nothing
    case h_2 params isSampling =>
      have takes := takes_appendTokens config.blockHasher params config.maxModelLen tokenIds request
      generalize appendTokens config.blockHasher params config.maxModelLen tokenIds request =
        result at *
      dsimp only
      split
      · obtain ⟨hashes, status, stopReason, placeholders, discards, same, unstopped, stopped⟩ := takes
        refine ⟨hashes, status, stopReason, placeholders - result.1.1.length, discards, ?_,
          unstopped, stopped⟩
        dsimp only
        rw [same]
      · exact takes
  · split
    · refine ⟨request.blockHashes, .finishedStopped, request.stopReason,
        request.numOutputPlaceholders, request.discardLatestAsyncTokens, ?_, nofun, fun _ => rfl⟩
      simp only [append_nil]
    · exact takes_nothing

/-- What an object keeps when its output is absorbed, and when its status
changes. -/
structure Absorbs (before after : Request H) (stopped : Bool) : Prop where
  requestId : after.requestId = before.requestId
  streamingQueue : after.streamingQueue = before.streamingQueue
  promptTokenIds : after.promptTokenIds = before.promptTokenIds
  status : stopped = false -> after.status = before.status
  finished : stopped = true -> after.status.isFinished = true
  resumable : after.resumable = true -> before.resumable = true
  isPrefillChunk : after.isPrefillChunk = before.isPrefillChunk
  specTokenIds : after.specTokenIds = before.specTokenIds
  loraIntId : after.loraIntId = before.loraIntId

section

variable (modelOutput : ModelRunnerOutput) (requestId : RequestId) (request : Request H)
include modelOutput requestId request

theorem absorbed_spec :
    Absorbs request (absorbed config modelOutput requestId request).2
      (absorbed config modelOutput requestId request).1.2 := by
  obtain ⟨_, _, _, _, _, same, unstopped, stopped⟩ :=
    takes_takenRequest config
  rw [absorbed, judgedRequest]
  split
  · rw [same]
    exact ⟨rfl, rfl, rfl, nofun, fun _ => rfl, nofun, rfl, rfl, rfl⟩
  rw [same]
  exact ⟨rfl, rfl, rfl, unstopped, stopped, id, rfl, rfl, rfl⟩

/-- The appended tokens, and whether the request stops, do not depend on its counters. -/
theorem absorbed_counters (numComputedTokens numOutputPlaceholders : Int) :
    (absorbed config modelOutput requestId { request with
      numComputedTokens := numComputedTokens
      numOutputPlaceholders := numOutputPlaceholders }).1 =
      (absorbed config modelOutput requestId request).1 := by
  generalize isFirst : { request with
    numComputedTokens := numComputedTokens
    numOutputPlaceholders := numOutputPlaceholders } = first
  have same : SameTokens first request := by
    subst isFirst
    exact ⟨rfl, rfl, rfl⟩
  have taken : (takenRequest config (modelOutput.sampledTokenIds requestId)
      (modelOutput.poolerOutput requestId) first).1 =
        (takenRequest config (modelOutput.sampledTokenIds requestId)
          (modelOutput.poolerOutput requestId) request).1 := by
    rw [takenRequest, takenRequest, show first.params = request.params by rw [<- isFirst],
      show first.discardLatestAsyncTokens = request.discardLatestAsyncTokens by rw [<- isFirst]]
    split
    · split
      · rfl
      cases request.params with
      | pooling => rfl
      | sampling params =>
        dsimp only
        split <;> exact appendTokens_congr same _ _ _ _
    · split <;> rfl
  rw [absorbed, absorbed, judgedRequest, judgedRequest, taken]
  split
  · rfl
  · exact taken

theorem absorbed_resumable :
    (absorbed config modelOutput requestId request).2.resumable =
      if (absorbed config modelOutput requestId request).1.1 ≠ [] /\
          modelOutput.grammarRejects requestId = true then false
      else request.resumable := by
  obtain ⟨_, _, _, _, _, same, _⟩ :=
    takes_takenRequest config
  rw [absorbed, judgedRequest]
  by_cases rejected : (takenRequest config (modelOutput.sampledTokenIds requestId)
      (modelOutput.poolerOutput requestId) request).1.1 ≠ [] /\
      modelOutput.grammarRejects requestId = true
  · rw [if_pos rejected]
    exact (if_pos rejected).symm
  · rw [if_neg rejected, if_neg rejected, same]

end

end

/-- The only change besides the object is that blocks are cached. -/
def CachesFor [DecidableEq H] (scheduler : Scheduler H) (request : Request H)
    (manager : KVCacheManager H) : Prop :=
  manager = scheduler.kvCacheManager \/
    ∃ view numComputed, kvRequest request = .ok view /\
      scheduler.kvCacheManager.cacheBlocks view numComputed = .ok manager

theorem modify_eq (scheduler : Scheduler H) (ref : Ref) (change : Request H -> Request H) :
    scheduler.modify ref change =
      { scheduler with
        objects := update scheduler.objects ref (change (scheduler.objects ref)) } := rfl

section Tokens

variable [DecidableEq H] {result : List Token × Bool}

/-- A request takes its tokens: its object changes, and blocks may be cached. -/
def TookAs (scheduler : Scheduler H) (ref : Ref) (taken : (List Token × Bool) × Request H)
    (result : List Token × Bool) (after : Scheduler H) : Prop :=
  result = taken.1 /\ ∃ manager, scheduler.CachesFor taken.2 manager /\ after =
    { scheduler with
      kvCacheManager := manager
      objects := update scheduler.objects ref taken.2 }

theorem TookAs.uncached (scheduler : Scheduler H) (ref : Ref)
    (taken : (List Token × Bool) × Request H) :
    scheduler.TookAs ref taken taken.1 (scheduler.modify ref (fun _ => taken.2)) :=
  ⟨rfl, scheduler.kvCacheManager, Or.inl rfl, rfl⟩

theorem updateRequestWithOutput_eq_ok {ref : Ref} {newTokenIds : List Token} {pooled : Bool}
    (nonempty : newTokenIds ≠ [])
    (returned : scheduler.updateRequestWithOutput ref newTokenIds = .ok (result, after)) :
    scheduler.TookAs ref
      (takenRequest scheduler.config newTokenIds pooled (scheduler.objects ref)) result after := by
  have base : ∀ {result : List Token × Bool} {middle : Scheduler H},
      scheduler.baseUpdateRequestWithOutput ref newTokenIds = .ok (result, middle) ->
      ∃ params, (scheduler.objects ref).params = .sampling params /\
        result = (appendTokens scheduler.config.blockHasher params scheduler.config.maxModelLen
          newTokenIds (scheduler.objects ref)).1 /\
        middle = scheduler.modify ref (fun _ => (appendTokens scheduler.config.blockHasher params
          scheduler.config.maxModelLen newTokenIds (scheduler.objects ref)).2) := by
    intro result middle appended
    rw [baseUpdateRequestWithOutput] at appended
    split at appended
    · cases appended
    case h_2 params isSampling =>
      cases appended
      exact ⟨params, isSampling, rfl, rfl⟩
  rw [updateRequestWithOutput] at returned
  rw [takenRequest, if_pos nonempty]
  split at returned
  case isTrue isSync =>
    obtain ⟨_, isSampling, rfl, rfl⟩ := base returned
    rw [if_neg (by rw [isSync]; simp), isSampling, isSync]
    exact TookAs.uncached scheduler ref _
  case isFalse notSync =>
    have isAsync : scheduler.config.asyncScheduling = true := by simpa using notSync
    split at returned
    case isTrue discards =>
      cases returned
      rw [if_pos ⟨isAsync, discards⟩]
      exact TookAs.uncached scheduler ref _
    case isFalse keeps =>
      rw [if_neg (fun both => keeps both.2)]
      obtain ⟨⟨_, _⟩, appends, rest⟩ := andThen_eq_ok returned
      obtain ⟨_, isSampling, rfl, rfl⟩ := base appends
      obtain ⟨_, _, rest⟩ := andThen_eq_ok rest
      simp only [modify_modify, objects_modify_self] at rest
      rw [isSampling, isAsync]
      simp only [if_true]
      split at rest
      · obtain ⟨_, caches, rest⟩ := andThen_eq_ok rest
        cases rest
        obtain ⟨view, numComputed, manager, viewed, _, caching, rfl⟩ := kvCacheBlocks_eq_ok caches
        exact ⟨rfl, manager, Or.inr ⟨view, numComputed, viewed, caching⟩, rfl⟩
      cases rest
      exact TookAs.uncached scheduler ref _

theorem takeTokens_eq_ok {modelOutput : ModelRunnerOutput} {requestId : RequestId} {ref : Ref}
    (returned : UpdatePass.takeTokens modelOutput requestId ref scheduler = .ok (result, after)) :
    scheduler.TookAs ref (takenRequest scheduler.config (modelOutput.sampledTokenIds requestId)
      (modelOutput.poolerOutput requestId) (scheduler.objects ref)) result after := by
  rw [UpdatePass.takeTokens] at returned
  split at returned
  case isTrue nonempty => exact updateRequestWithOutput_eq_ok nonempty returned
  case isFalse nothing =>
    rw [takenRequest, if_neg nothing]
    split at returned
    case isTrue pooled =>
      cases returned
      rw [if_pos pooled]
      exact TookAs.uncached scheduler ref _
    case isFalse notPooled =>
      cases returned
      rw [if_neg notPooled]
      refine ⟨rfl, scheduler.kvCacheManager, Or.inl rfl, ?_⟩
      rw [update_eq_self]

end Tokens

namespace UpdatePass

variable {pass after : UpdatePass H} {env : ConnectorEnv} {output : SchedulerOutput}
  {modelOutput : ModelRunnerOutput} {requestId : RequestId} {ref : Ref}

/-- The object of a request after its output was absorbed, and what it
appended. -/
def absorbs (output : SchedulerOutput) (modelOutput : ModelRunnerOutput) (requestId : RequestId)
    (ref : Ref) (pass : UpdatePass H) : (List Token × Bool) × Request H :=
  absorbed pass.scheduler.config modelOutput requestId
    (observedRequest (pass.scheduler.scheduledDrafts output requestId)
      (modelOutput.sampledTokenIds requestId) (pass.scheduler.objects ref))

/-- The encoder cache after the inputs that the computed tokens cover were
freed. -/
def coveredCache (output : SchedulerOutput) (modelOutput : ModelRunnerOutput)
    (requestId : RequestId) (ref : Ref) (pass : UpdatePass H) : EncoderCache :=
  let observed := pass.scheduler.modify ref (observedRequest
    (pass.scheduler.scheduledDrafts output requestId) (modelOutput.sampledTokenIds requestId))
  if (observed.objects ref).hasEncoderInputs then (observed.freeEncoderInputs ref).encoderCacheManager
  else pass.scheduler.encoderCacheManager

def absorbing (output : SchedulerOutput) (modelOutput : ModelRunnerOutput) (requestId : RequestId)
    (ref : Ref) (manager : KVCacheManager H) (pass : UpdatePass H) : Scheduler H :=
  { pass.scheduler with
    kvCacheManager := manager
    encoderCacheManager := coveredCache output modelOutput requestId ref pass
    objects := Function.update pass.scheduler.objects ref
      (absorbs output modelOutput requestId ref pass).2 }

/-- The requests that stopped so far. -/
def stoppedReqs (pass : UpdatePass H) : List Ref × List Ref :=
  (pass.stoppedRunningReqs, pass.stoppedPreemptedReqs)

theorem observeDrafts_scheduler (pass : UpdatePass H) (generatedTokenIds : List Token) :
    (observeDrafts output requestId ref generatedTokenIds pass).scheduler =
        pass.scheduler.modify ref (observedRequest
          (pass.scheduler.scheduledDrafts output requestId) generatedTokenIds) /\
      (observeDrafts output requestId ref generatedTokenIds pass).stoppedReqs = pass.stoppedReqs := by
  have shape : ∃ changed : UpdatePass H,
      observeDrafts output requestId ref generatedTokenIds pass =
        (if pass.scheduler.scheduledDrafts output requestId = [] \/ generatedTokenIds = [] then pass
          else changed) /\
      changed.scheduler = pass.scheduler.modify ref (takeBackRejected
        (((pass.scheduler.scheduledDrafts output requestId).length : Int) -
          (generatedTokenIds.length - 1 : Nat))) /\
      changed.stoppedReqs = pass.stoppedReqs := ⟨_, rfl, rfl, rfl⟩
  obtain ⟨_, isResult, isScheduler, isStopped⟩ := shape
  rw [isResult]
  split
  case isTrue nothing =>
    refine ⟨?_, rfl⟩
    rw [modify_eq, observedRequest, if_pos nothing, update_eq_self]
  case isFalse something =>
    refine ⟨?_, isStopped⟩
    rw [isScheduler, modify_eq, modify_eq, observedRequest, if_neg something]

theorem checkGrammar_eq (taken : (List Token × Bool) × Scheduler H) :
    (checkGrammar modelOutput requestId ref taken).1 =
        (judgedRequest (modelOutput.grammarRejects requestId) (taken.1, taken.2.objects ref)).1 /\
      (checkGrammar modelOutput requestId ref taken).2 =
        { taken.2 with
          objects := update taken.2.objects ref
            (judgedRequest (modelOutput.grammarRejects requestId)
              (taken.1, taken.2.objects ref)).2 } := by
  rw [checkGrammar, judgedRequest]
  split
  · exact ⟨rfl, rfl⟩
  refine ⟨rfl, ?_⟩
  rw [update_eq_self]

/-- Processing one request: its output is absorbed, and if it stopped the stop
is handled. -/
theorem processRequest_eq_ok [DecidableEq H]
    (returned : processRequest env output modelOutput requestId ref pass = .ok after) :
    ∃ (manager : KVCacheManager H) (middle : UpdatePass H),
      middle.scheduler = absorbing output modelOutput requestId ref manager pass /\
      middle.stoppedReqs = pass.stoppedReqs /\
      ((absorbs output modelOutput requestId ref pass).1.2 = false /\
          after.scheduler = middle.scheduler /\ after.stoppedReqs = middle.stoppedReqs \/
        (absorbs output modelOutput requestId ref pass).1.2 = true /\
          ∃ stopped,
            stopRequest env ref (pass.scheduler.objects ref).status middle = .ok stopped /\
            after.scheduler = stopped.scheduler /\ after.stoppedReqs = stopped.stoppedReqs) := by
  rw [processRequest] at returned
  obtain ⟨observedScheduler, sameStopped⟩ := @observeDrafts_scheduler _ output
    requestId ref pass (modelOutput.sampledTokenIds requestId)
  generalize observeDrafts output requestId ref (modelOutput.sampledTokenIds requestId) pass =
    observed at *
  have covered : ∃ covering : UpdatePass H,
      covering = (if (observed.scheduler.objects ref).hasEncoderInputs then
        { observed with scheduler := observed.scheduler.freeEncoderInputs ref } else observed) /\
      covering.scheduler =
        { observed.scheduler with
          encoderCacheManager := coveredCache output modelOutput requestId ref pass } /\
      covering.stoppedReqs = observed.stoppedReqs := by
    refine ⟨_, rfl, ?_, ?_⟩
    · rw [coveredCache, <- observedScheduler]
      dsimp only
      split
      · rfl
      rw [observedScheduler]
      rfl
    · split <;> rfl
  obtain ⟨covering, isCovering, coveringScheduler, coveringStopped⟩ := covered
  rw [<- isCovering] at returned
  obtain ⟨⟨result, took⟩, takes, rest⟩ := andThen_eq_ok returned
  obtain ⟨isResult, manager, _, isTook⟩ := takeTokens_eq_ok takes
  obtain ⟨judgedResult, judgedScheduler⟩ := @checkGrammar_eq _ modelOutput requestId ref (result, took)
  have sameStatus : (covering.scheduler.objects ref).status = (pass.scheduler.objects ref).status := by
    rw [coveringScheduler, observedScheduler]
    dsimp only
    rw [objects_modify_self, observedRequest]
    split <;> rfl
  have objectIs : covering.scheduler.objects ref =
      observedRequest (pass.scheduler.scheduledDrafts output requestId)
        (modelOutput.sampledTokenIds requestId) (pass.scheduler.objects ref) := by
    rw [coveringScheduler, observedScheduler]
    exact objects_modify_self _ _
  have configIs : covering.scheduler.config = pass.scheduler.config := by
    rw [coveringScheduler, observedScheduler]
    rfl
  have tookObject : took.objects ref = (takenRequest covering.scheduler.config
      (modelOutput.sampledTokenIds requestId) (modelOutput.poolerOutput requestId)
      (covering.scheduler.objects ref)).2 := by
    rw [isTook]
    exact update_self ref _ covering.scheduler.objects
  have absorbsIs : judgedRequest (modelOutput.grammarRejects requestId) (result, took.objects ref) =
      absorbs output modelOutput requestId ref pass := by
    rw [absorbs, absorbed, isResult, tookObject, objectIs, configIs]
  dsimp only at judgedResult judgedScheduler
  rw [absorbsIs] at judgedResult judgedScheduler
  have schedulerIs : (checkGrammar modelOutput requestId ref (result, took)).2 =
      absorbing output modelOutput requestId ref manager pass := by
    rw [judgedScheduler, isTook, coveringScheduler, observedScheduler, absorbing]
    simp only [modify, update_idem]
  refine ⟨manager, { covering with scheduler := absorbing output modelOutput requestId ref manager pass },
    rfl, coveringStopped.trans sameStopped, ?_⟩
  dsimp only at rest
  rw [schedulerIs, judgedResult, sameStatus] at rest
  split at rest
  case isTrue stops =>
    obtain ⟨stopped, stopping, rest⟩ := andThen_eq_ok rest
    cases rest
    exact Or.inr ⟨stops, stopped, stopping, rfl, rfl⟩
  case isFalse goesOn =>
    have goesOn := Bool.eq_false_iff.mpr goesOn
    split at rest <;> cases rest
    · exact Or.inl ⟨goesOn, rfl, rfl⟩
    · exact Or.inl ⟨goesOn, rfl, rfl⟩

/-- What holds before the requests of a step are visited and is kept by every
visit holds after them.  The rule keeps track of the requests still to come. -/
theorem processAll_rule [DecidableEq H] {failedReqIds : List RequestId}
    (motive : List (RequestId × Int) -> UpdatePass H -> Prop)
    (skipped : ∀ id numTokens rest pass, motive ((id, numTokens) :: rest) pass -> motive rest pass)
    (processed : ∀ id numTokens rest pass after ref, motive ((id, numTokens) :: rest) pass ->
      id ∉ failedReqIds -> pass.scheduler.requests.get? id = some ref ->
      (pass.scheduler.objects ref).isFinished = false ->
      processRequest env output modelOutput id ref pass = .ok after -> motive rest after)
    {entries : List (RequestId × Int)}
    (returned : processAll env output modelOutput failedReqIds entries pass = .ok after)
    (start : motive entries pass) : motive [] after := by
  induction entries generalizing pass with
  | nil =>
    cases returned
    exact start
  | cons entry rest ih =>
    obtain ⟨id, numTokens⟩ := entry
    obtain ⟨_, _, returned⟩ := andThen_eq_ok returned
    split at returned
    · exact ih returned (skipped id numTokens rest pass start)
    case isFalse notFailed =>
      split at returned
      · exact ih returned (skipped id numTokens rest pass start)
      case h_2 ref found =>
        split at returned
        · exact ih returned (skipped id numTokens rest pass start)
        case isFalse unfinished =>
          obtain ⟨middle, processing, returned⟩ := andThen_eq_ok returned
          exact ih returned (processed id numTokens rest pass middle ref start notFailed
            found (Bool.eq_false_iff.mpr unfinished) processing)

end UpdatePass

def SameButComputed (before after : Objects H) : Prop :=
  ∀ ref, ∃ numComputedTokens,
    after ref = { before ref with numComputedTokens := numComputedTokens }

theorem SameButComputed.refl (objects : Objects H) : SameButComputed objects objects :=
  fun ref => ⟨(objects ref).numComputedTokens, rfl⟩

theorem SameButComputed.trans {first second third : Objects H}
    (left : SameButComputed first second) (right : SameButComputed second third) :
    SameButComputed first third := by
  intro ref
  obtain ⟨_, isSecond⟩ := left ref
  obtain ⟨rightTokens, isThird⟩ := right ref
  refine ⟨rightTokens, ?_⟩
  rw [isThird, isSecond]

/-- Failed loads change computed tokens, the cache and the list of failed loads. -/
def LoadsFailed (scheduler begun : Scheduler H) : Prop :=
  ∃ objects manager loads, SameButComputed scheduler.objects objects /\ begun =
    { scheduler with
      objects := objects
      kvCacheManager := manager
      failedRecvingKvReqIds := loads }

variable {numScheduledTokens : Dict RequestId Int} {invalidBlockIds : List BlockId}

theorem updateRequestsWithInvalidBlocks_eq_ok {evictBlocks : Bool} {refs : List Ref}
    {scan result : InvalidScan H}
    (returned : updateRequestsWithInvalidBlocks invalidBlockIds numScheduledTokens evictBlocks refs
      scan = .ok result) :
    ∃ objects, SameButComputed scan.scheduler.objects objects /\
      result.scheduler = { scan.scheduler with objects := objects } := by
  induction refs generalizing scan with
  | nil =>
    cases returned
    exact ⟨result.scheduler.objects, SameButComputed.refl _, rfl⟩
  | cons ref refs ih =>
    obtain ⟨_, first, rest⟩ := andThen_eq_ok returned
    rw [updateRequestWithInvalidBlocks] at first
    split at first
    · cases first
      obtain ⟨objects, same, isResult⟩ := ih rest
      refine ⟨objects, SameButComputed.trans ?_ same, isResult⟩
      intro other
      rw [objects_modify]
      split
      case isTrue isRef =>
        rw [isRef]
        exact ⟨_, rfl⟩
      · exact ⟨_, rfl⟩
    · cases first

theorem handleInvalidBlocks_eq_ok [DecidableEq H] {failed : List RequestId}
    (returned : scheduler.handleInvalidBlocks invalidBlockIds numScheduledTokens =
      .ok (failed, after)) : LoadsFailed scheduler after := by
  obtain ⟨_, asyncScan, rest⟩ := andThen_eq_ok returned
  obtain ⟨_, syncScan, rest⟩ := andThen_eq_ok rest
  obtain ⟨_, asyncSame, isAsync⟩ := updateRequestsWithInvalidBlocks_eq_ok asyncScan
  obtain ⟨objects, same, isSync⟩ := updateRequestsWithInvalidBlocks_eq_ok syncScan
  rw [isAsync] at isSync same
  have sameAll := asyncSame.trans same
  split at rest
  · cases rest
    rw [isSync]
    exact ⟨objects, scheduler.kvCacheManager, scheduler.failedRecvingKvReqIds, sameAll, rfl⟩
  split at rest
  · cases rest
    rw [isSync]
    exact ⟨objects, scheduler.kvCacheManager, _, sameAll, rfl⟩
  obtain ⟨_, evicting, rest⟩ := andThen_eq_ok rest
  cases rest
  split at evicting
  · cases evicting
    rw [isSync]
    exact ⟨objects, scheduler.kvCacheManager, scheduler.failedRecvingKvReqIds, sameAll, rfl⟩
  obtain ⟨manager, _, rest⟩ := andThen_eq_ok evicting
  cases rest
  rw [isSync]
  exact ⟨objects, manager, scheduler.failedRecvingKvReqIds, sameAll, rfl⟩

/-- A transfer that is over is noted, or the blocks of its request are freed. -/
theorem updateFromKvXferFinished_rule (holds : Scheduler H -> Prop)
    (noted : ∀ scheduler requestIds, holds scheduler ->
      holds { scheduler with finishedRecvingKvReqIds := requestIds })
    (freed : ∀ scheduler after requestId ref, scheduler.requests.get? requestId = some ref ->
      scheduler.freeBlocks ref = .ok after -> holds scheduler -> holds after)
    {output : KVConnectorOutput} (returned : scheduler.updateFromKvXferFinished output = .ok after)
    (start : holds scheduler) : holds after := by
  obtain ⟨received, receiving, sending⟩ := andThen_eq_ok returned
  clear returned
  generalize output.finishedRecving = toReceive at receiving
  generalize output.finishedSending = toSend at sending
  have middle : holds received := by
    induction toReceive generalizing scheduler with
    | nil =>
      cases receiving
      exact start
    | cons requestId rest ih =>
      rw [finishRecving] at receiving
      split at receiving
      · cases receiving
      case h_2 ref found =>
        split at receiving
        · exact ih (noted _ _ start) receiving
        obtain ⟨_, freeing, receiving⟩ := andThen_eq_ok receiving
        exact ih (freed _ _ _ _ found freeing start) receiving
  clear receiving
  induction toSend generalizing received with
  | nil =>
    cases sending
    exact middle
  | cons requestId rest ih =>
    rw [finishSending] at sending
    split at sending
    · cases sending
    case h_2 ref found =>
      obtain ⟨_, freeing, sending⟩ := andThen_eq_ok sending
      exact ih _ sending (freed _ _ _ _ found freeing middle)

theorem updateFromOutput_eq_ok [DecidableEq H] {env : ConnectorEnv} {output : SchedulerOutput}
    {modelOutput : ModelRunnerOutput} {outputs : List EngineCoreOutput}
    (returned : scheduler.updateFromOutput env output modelOutput = .ok (outputs, after)) :
    ∃ failed begun pass cleaned, LoadsFailed scheduler begun /\
      UpdatePass.processAll env output modelOutput failed output.numScheduledTokens.entries
        ⟨begun, [], [], 0, 0, []⟩ = .ok pass /\
      (cleaned = pass.removeStopped pass.observeStep \/
        (pass.removeStopped pass.observeStep).finishRequests env (some failed) .finishedError =
          .ok cleaned) /\
      (after = cleaned \/ ∃ connectorOutput,
        modelOutput.kvConnectorOutput = some connectorOutput /\
          cleaned.updateFromKvXferFinished connectorOutput = .ok after) := by
  obtain ⟨⟨failed, begun⟩, failing, rest⟩ := andThen_eq_ok returned
  obtain ⟨pass, processing, rest⟩ := andThen_eq_ok rest
  obtain ⟨cleaned, cleaning, rest⟩ := andThen_eq_ok rest
  obtain ⟨_, transferring, rest⟩ := andThen_eq_ok rest
  cases rest
  refine ⟨failed, begun, pass, cleaned, ?_, processing, ?_, ?_⟩
  · have shape : ∃ invalidBlockIds : List BlockId, (if invalidBlockIds = [] then .ok ([], scheduler)
        else scheduler.handleInvalidBlocks invalidBlockIds output.numScheduledTokens) = .ok (failed,
        begun) := ⟨_, failing⟩
    obtain ⟨_, failing⟩ := shape
    split at failing
    · cases failing
      exact ⟨scheduler.objects, scheduler.kvCacheManager, scheduler.failedRecvingKvReqIds,
        SameButComputed.refl _, rfl⟩
    · exact handleInvalidBlocks_eq_ok failing
  · split at cleaning
    · exact Or.inr cleaning
    cases cleaning
    exact Or.inl rfl
  · split at transferring
    · cases transferring
      exact Or.inl rfl
    case h_2 connectorOutput isOutput => exact Or.inr ⟨connectorOutput, isOutput, transferring⟩

end Scheduler

end Vllm.Sched
