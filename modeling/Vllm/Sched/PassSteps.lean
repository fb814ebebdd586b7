import Vllm.Sched.Calls

namespace Vllm.Sched

open Foundation Function Scheduler RequestQueue SchedulePass Relation List
open KVCache (RequestId BlockId)

/-!
# A pass as a sequence of small steps

The two loops of `schedule` are taken apart once.  Everything that happens in
them is one of a few kinds of step: a list of drafts is truncated, encoder
inputs are planned, slots are refused, a request is preempted, scheduled,
promoted, set aside, admitted, or starts to load.  A pass is a sequence of
such steps, so an invariant of passes is shown by one case for each kind.
-/

section Take

variable {A : Type} {list : List A} {index : Nat} {first second : A}

theorem mem_take_succ (found : list[index]? = some first) : first ∈ list.take (index + 1) := by
  apply mem_of_getElem?
  rw [List.getElem?_take_of_lt (Nat.lt_succ_self _)]
  exact found

variable [DecidableEq A]

theorem mem_take_erase_pred (member : first ∈ list.take index) (different : first ≠ second)
    (removed : second ∈ list.take index) : first ∈ (list.erase second).take (index - 1) := by
  have parts : list.erase second = (list.take index).erase second ++ list.drop index := by
    rw [<- erase_append_left _ removed, take_append_drop]
  have length := length_erase_of_mem removed
  have short := length_take_le index list
  rw [parts, take_append, take_of_length_le (by omega)]
  exact mem_append_left _ ((mem_erase_of_ne different).mpr member)

theorem mem_take_erase (member : first ∈ list.take index) (different : first ≠ second) :
    first ∈ (list.erase second).take index := by
  by_cases removed : second ∈ list.take index
  · exact take_subset_take_left _ (Nat.sub_le index 1)
      (mem_take_erase_pred member different removed)
  have parts : list.erase second = list.take index ++ (list.drop index).erase second := by
    rw [<- erase_append_right _ removed, take_append_drop]
  rw [parts, take_append, take_take, Nat.min_self]
  exact mem_append_left _ member

end Take

variable {goesOn promoted : Bool}

section Bounds

variable {H : Type} {config : SchedulerConfig H} {env : ScheduleEnv} {request : Request H}
  {numComputedTokens shiftComputedTokens : Int} {scan after : EncoderScan} {inputId : Nat}
  {feature : MultiModalFeature}

theorem placeEncoderInput_bound (near : (feature.mmPosition.offset : Int) <
      numComputedTokens + scan.plan.numNewTokens + shiftComputedTokens)
    (returned : placeEncoderInput config env request numComputedTokens shiftComputedTokens inputId
      feature scan = .ok (goesOn, after)) :
    after.plan.numNewTokens <= max 0 scan.plan.numNewTokens := by
  rw [placeEncoderInput] at returned
  split at returned
  · cases returned
    simp only [EncoderScan.limit]
    omega
  obtain ⟨⟨_, _⟩, _, rest⟩ := andThen_eq_ok returned
  dsimp only at rest
  split at rest
  · split at rest
    · cases rest
      simp only [EncoderScan.limit]
      omega
    cases rest
    exact Int.le_max_left _ _
  split at rest
  · cases rest
    rw [planEncoderInput]
    split <;> exact Int.le_max_right _ _
  cases rest
  exact Int.le_max_right _ _

theorem visitEncoderInput_bound
    (returned : visitEncoderInput config env request numComputedTokens shiftComputedTokens inputId
      feature scan = .ok (goesOn, after)) :
    after.plan.numNewTokens <= max 0 scan.plan.numNewTokens := by
  rw [visitEncoderInput] at returned
  split at returned
  · cases returned
    exact Int.le_max_right _ _
  case isFalse near =>
    have near := Int.not_le.mp near
    split at returned
    · obtain ⟨_, _, rest⟩ := andThen_eq_ok returned
      cases rest
      exact Int.le_max_right _ _
    split at returned
    · cases returned
      exact Int.le_max_right _ _
    split at returned
    · exact placeEncoderInput_bound near returned
    split at returned
    · cases returned
      exact Int.le_max_right _ _
    obtain ⟨⟨_, _⟩, _, rest⟩ := andThen_eq_ok returned
    split at rest
    · cases rest
      exact Int.le_max_right _ _
    have bound := placeEncoderInput_bound (by exact near) rest
    exact bound

theorem scanEncoderInputs_bound {features : List MultiModalFeature}
    (returned : scanEncoderInputs config env request numComputedTokens shiftComputedTokens inputId
      features scan = .ok after) :
    after.plan.numNewTokens <= max 0 scan.plan.numNewTokens := by
  induction features generalizing inputId scan with
  | nil =>
    cases returned
    exact Int.le_max_right _ _
  | cons feature features ih =>
    obtain ⟨⟨_, _⟩, visit, rest⟩ := andThen_eq_ok returned
    have first := visitEncoderInput_bound visit
    dsimp only at rest
    split at rest
    · have others := ih rest
      omega
    cases rest
    exact first

theorem tryScheduleEncoderInputs_bound {cache : EncoderCache}
    {numNewTokens encoderComputeBudget : Int} {result : EncoderPlan × EncoderCache}
    (returned : tryScheduleEncoderInputs config env request numComputedTokens shiftComputedTokens
      cache numNewTokens encoderComputeBudget = .ok result) :
    result.1.numNewTokens <= max 0 numNewTokens := by
  rw [tryScheduleEncoderInputs] at returned
  split at returned
  · cases returned
    exact Int.le_max_right _ _
  obtain ⟨_, scanned, rest⟩ := andThen_eq_ok returned
  cases rest
  exact scanEncoderInputs_bound scanned

theorem mambaBlockAlignedSplit_bound {numNewTokens result : Int}
    {numNewLocalComputedTokens numExternalComputedTokens : Nat}
    (returned : mambaBlockAlignedSplit config request numNewTokens numNewLocalComputedTokens
      numExternalComputedTokens = .ok result) : result <= max 0 numNewTokens := by
  obtain ⟨_, _, rest⟩ := andThen_eq_ok returned
  dsimp only at rest
  generalize (if config.useEagle = true then _ else _ : Int) = lastCachePosition at rest
  split at rest
  · split at rest
    · cases rest
      by_cases zero : (config.cacheBlockSize : Int) = 0
      · rw [zero]
        omega
      · exact Int.le_trans (Int.ediv_mul_le numNewTokens zero) (Int.le_max_right _ _)
    split at rest
    · cases rest
      omega
    cases rest
    exact Int.le_max_right _ _
  · cases rest
    exact Int.le_max_right _ _

end Bounds

namespace SchedulePass

variable {H : Type} {pass after : SchedulePass H}

variable {request : Request H} {plan : EncoderPlan} {numComputedTokens numNew : Int}

theorem planEncoder_eq_ok {env : ScheduleEnv}
    (returned : pass.planEncoder env request numComputedTokens numNew = .ok (plan, after)) :
    ∃ cache, after =
      pass.withScheduler { pass.scheduler with encoderCacheManager := cache } := by
  rw [planEncoder] at returned
  split at returned
  · obtain ⟨result, _, rest⟩ := andThen_eq_ok returned
    cases rest
    exact ⟨result.2, rfl⟩
  cases returned
  exact ⟨pass.scheduler.encoderCacheManager, rfl⟩

theorem allocateEncoder_eq_ok {inputIds : List Nat}
    (returned : allocateEncoder request inputIds pass = .ok after) :
    ∃ cache, after =
      pass.withScheduler { pass.scheduler with encoderCacheManager := cache } := by
  induction inputIds generalizing pass with
  | nil =>
    cases returned
    exact ⟨after.scheduler.encoderCacheManager, rfl⟩
  | cons inputId inputIds ih =>
    obtain ⟨_, _, rest⟩ := andThen_eq_ok returned
    obtain ⟨last, rfl⟩ := ih rest
    exact ⟨last, rfl⟩

theorem commitEncoder_eq_ok (returned : pass.commitEncoder request plan = .ok after) :
    ∃ cache inputs budget, after =
      { pass with
        scheduler := { pass.scheduler with encoderCacheManager := cache }
        scheduledEncoderInputs := inputs
        encoderComputeBudget := budget } := by
  obtain ⟨_, first, second⟩ := andThen_eq_ok returned
  obtain ⟨last, rfl⟩ := allocateEncoder_eq_ok second
  split at first
  · cases first
    exact ⟨last, pass.scheduledEncoderInputs, pass.encoderComputeBudget, rfl⟩
  obtain ⟨_, computed, rest⟩ := andThen_eq_ok first
  obtain ⟨_, rfl⟩ := allocateEncoder_eq_ok computed
  cases rest
  exact ⟨last, _, plan.encoderComputeBudget, rfl⟩

variable {ref : Ref}

/-- A step that a running request is taken out of. -/
def without (pass : SchedulePass H) (ref : Ref) (tokenBudget encoderComputeBudget : Int) :
    SchedulePass H :=
  { pass with
    scheduledRunningReqs := pass.scheduledRunningReqs.erase ref
    tokenBudget := tokenBudget
    numScheduledTokens := pass.numScheduledTokens.erase (pass.request ref).requestId
    reqToNewBlocks := pass.reqToNewBlocks.erase (pass.request ref).requestId
    scheduledSpecDecodeTokens := pass.scheduledSpecDecodeTokens.erase (pass.request ref).requestId
    scheduledEncoderInputs := pass.scheduledEncoderInputs.erase (pass.request ref).requestId
    encoderComputeBudget := encoderComputeBudget
    reqIndex := pass.reqIndex - 1 }

theorem unschedule_eq_ok (returned : pass.unschedule ref = .ok after) :
    (ref ∉ pass.scheduledRunningReqs /\ after = pass) \/
      (ref ∈ pass.scheduledRunningReqs /\ ∃ tokenBudget encoderComputeBudget,
        after = pass.without ref tokenBudget encoderComputeBudget) := by
  rw [unschedule] at returned
  split at returned
  case isTrue member =>
    dsimp only at returned
    split at returned
    · cases returned
    cases returned
    exact Or.inr ⟨member, _, _, rfl⟩
  case isFalse absent =>
    cases returned
    exact Or.inl ⟨absent, rfl⟩

variable {victim : Ref}

theorem takeVictim_cases (returned : pass.takeVictim = .ok (victim, after)) :
    (pass.scheduler.config.policy = .priority /\ victim ∈ pass.scheduler.running /\
      (pass.withScheduler { pass.scheduler with
        running := pass.scheduler.running.erase victim }).unschedule victim = .ok after) \/
    (pass.scheduler.config.policy = .fcfs /\ ∃ running,
      pass.scheduler.running = running ++ [victim] /\
        after = pass.withScheduler { pass.scheduler with running := running }) := by
  rw [takeVictim] at returned
  split at returned
  case h_1 isPriority =>
    split at returned
    · cases returned
    case h_2 ref chosen =>
      obtain ⟨_, removed, rest⟩ := andThen_eq_ok returned
      cases rest
      refine Or.inl ⟨isPriority, ?_, removed⟩
      cases list : pass.scheduler.running with
      | nil =>
        rw [list] at chosen
        cases chosen
      | cons first rest =>
        rw [list, lowestPriority] at chosen
        rw [<- Option.some.inj chosen]
        exact List.foldlRecOn rest _ (motive := fun best => best ∈ first :: rest)
          mem_cons_self (fun best known ref inRest => by
            dsimp only
            split
            · exact mem_cons_of_mem first inRest
            · exact known)
  case h_2 isFcfs =>
    split at returned
    · cases returned
    case h_2 ref isLast =>
      cases returned
      exact Or.inr ⟨isFcfs, _, (dropLast_append_getLast? victim isLast).symm, rfl⟩

/-- The victim leaves the running queue, and the step if it was in it and the policy is
not FCFS. -/
theorem takeVictim_eq_ok (returned : pass.takeVictim = .ok (victim, after)) :
    ∃ running, pass.scheduler.running.Perm (victim :: running) /\
      ((victim ∈ pass.scheduledRunningReqs -> pass.scheduler.config.policy = .fcfs) /\
          after = pass.withScheduler { pass.scheduler with running := running } \/
        ∃ tokenBudget encoderComputeBudget, after =
          (pass.withScheduler { pass.scheduler with running := running }).without victim
            tokenBudget encoderComputeBudget) := by
  rcases takeVictim_cases returned with ⟨_, member, removed⟩ | ⟨isFcfs, running, parts, rfl⟩
  · refine ⟨_, perm_cons_erase member, ?_⟩
    exact (unschedule_eq_ok removed).imp (fun absent => ⟨fun member => absurd member absent.1, absent.2⟩)
      And.right
  refine ⟨running, ?_, Or.inl ⟨fun _ => isFcfs, rfl⟩⟩
  rw [parts]
  exact perm_append_singleton _ _

/-- A preemption in closed form: the victim leaves the running queue and the
step, and its object is reset. -/
theorem preemptOne_eq_ok (returned : pass.preemptOne = .ok (victim, after)) :
    ∃ middle scheduler, pass.takeVictim = .ok (victim, middle) /\
      middle.scheduler.preemptRequest victim = .ok scheduler /\
      after =
        { middle with
          scheduler := scheduler
          preemptedReqs := middle.preemptedReqs ++ [victim] } := by
  obtain ⟨⟨_, middle⟩, victimTaken, rest⟩ := andThen_eq_ok returned
  obtain ⟨scheduler, preempted, rest⟩ := andThen_eq_ok rest
  cases rest
  exact ⟨middle, scheduler, victimTaken, preempted, rfl⟩

/-- What the step sets aside and admits. -/
def admissions (pass : SchedulePass H) : List Ref × List Ref × List Ref :=
  (pass.stepSkippedWaiting, pass.scheduledNewReqs, pass.scheduledResumedReqs)

/-- Taking a victim changes the running queue of the scheduler only, and admits nothing. -/
theorem takeVictim_scheduler (returned : pass.takeVictim = .ok (victim, after)) :
    ∃ running, pass.scheduler.running.Perm (victim :: running) /\
      after.scheduler = { pass.scheduler with running := running } /\
      after.admissions = pass.admissions := by
  obtain ⟨running, parts, ⟨_, rfl⟩ | ⟨_, _, rfl⟩⟩ := takeVictim_eq_ok returned <;>
    exact ⟨running, parts, rfl, rfl⟩

/-- What is left to compute of a request depends on the object and the placeholders. -/
structure Kept (ref : Ref) (pass after : SchedulePass H) : Prop where
  object : after.scheduler.objects ref = pass.scheduler.objects ref
  placeholders : after.scheduler.specTokenPlaceholders = pass.scheduler.specTokenPlaceholders
  config : after.scheduler.config = pass.scheduler.config

namespace Kept

theorem trans {last : SchedulePass H} (first : Kept ref pass after)
    (second : Kept ref after last) : Kept ref pass last :=
  ⟨second.object.trans first.object, second.placeholders.trans first.placeholders,
    second.config.trans first.config⟩

theorem specTokenIds (kept : Kept ref pass after) :
    after.scheduler.specTokenIds ref = pass.scheduler.specTokenIds ref := by
  rw [Scheduler.specTokenIds, Scheduler.specTokenIds, kept.object]
  cases (pass.scheduler.objects ref).specTokenIds with
  | shared => exact kept.placeholders
  | own tokenIds => rfl

theorem numTokensToCompute (kept : Kept ref pass after) :
    after.numTokensToCompute ref = pass.numTokensToCompute ref := by
  simp only [SchedulePass.numTokensToCompute, request, kept.object, kept.specTokenIds]

end Kept

/-- A preemption leaves the other requests and the placeholders alone. -/
theorem preemptOne_others (returned : pass.preemptOne = .ok (victim, after))
    (different : ref ≠ victim) : Kept ref pass after := by
  obtain ⟨_, _, taken, preempted, rfl⟩ := preemptOne_eq_ok returned
  obtain ⟨_, _, same, _⟩ := takeVictim_scheduler taken
  obtain ⟨_, _, _, rfl⟩ := preemptRequest_eq_ok preempted
  constructor <;> dsimp only <;> rw [same]
  exact update_of_ne different _ _

variable {blocks : List (List BlockId)}

/-- A running request enters the step with its drafts, and keeps none. -/
theorem commitRunning_eq_ok (returned : pass.commitRunning ref numNew blocks plan = .ok after) :
    ∃ cache inputs budget, after =
      { pass with
        scheduler := { pass.scheduler.clearSpec ref with encoderCacheManager := cache }
        scheduledRunningReqs := pass.scheduledRunningReqs ++ [ref]
        reqToNewBlocks := pass.reqToNewBlocks.set (pass.request ref).requestId blocks
        numScheduledTokens := pass.numScheduledTokens.set (pass.request ref).requestId numNew
        tokenBudget := pass.tokenBudget - numNew
        reqIndex := pass.reqIndex + 1
        scheduledSpecDecodeTokens := (pass.scheduleSpec ref numNew).scheduledSpecDecodeTokens
        scheduledEncoderInputs := inputs
        encoderComputeBudget := budget } := by
  obtain ⟨cache, inputs, budget, rfl⟩ := commitEncoder_eq_ok returned
  refine ⟨cache, inputs, budget, ?_⟩
  by_cases isNil : pass.scheduler.specTokenIds ref = []
  · simp only [clearSpec, scheduleSpec, isNil, if_true]
  by_cases positive : 0 < numNew + (pass.request ref).numComputedTokens -
      (pass.request ref).numTokens - (pass.request ref).numOutputPlaceholders
  · simp only [request] at positive
    simp only [clearSpec, scheduleSpec, isNil, if_false, request, withScheduler, positive, if_true]
    rfl
  simp only [request] at positive
  simp only [clearSpec, scheduleSpec, isNil, if_false, request, withScheduler, positive]

variable [DecidableEq H]

/-- A pass visits the running requests first and admits waiting ones afterwards.
-/
inductive PassPhase where
  | running
  | waiting

/-- What is known when a running request enters the step. -/
structure Runs (stepActiveK : Nat) (pass : SchedulePass H) (ref : Ref) (numNewTokens : Int)
    (blocks : List (List BlockId)) (plan : EncoderPlan) (scheduler : Scheduler H)
    (after : SchedulePass H) : Prop where
  isRunning : ref ∈ pass.scheduler.running
  fresh : ref ∉ pass.scheduledRunningReqs
  notReached : reachedMaxTokens (pass.request ref) = false
  short : (pass.scheduler.specTokenIds ref).length <= stepActiveK
  positive : 0 < numNewTokens
  bounded : numNewTokens <= pass.numTokensToCompute ref
  inside : numNewTokens <=
    (pass.scheduler.config.maxModelLen : Int) - 1 - (pass.request ref).numComputedTokens
  allocated : pass.scheduler.allocateSlots (pass.request ref) (pass.slotArgsRunning numNewTokens) =
    .ok (some blocks, scheduler)
  committed : (pass.withScheduler scheduler).commitRunning ref numNewTokens blocks plan = .ok after

/-- What is known when a waiting request gets slots and leaves its queue. -/
structure Leaves (env : ScheduleEnv) (pass : SchedulePass H) (name : Scheduler.QueueName) (ref : Ref)
    (computed : ComputedTokens) (numNewTokens : Int) (plan : EncoderPlan)
    (blocks : List (List BlockId)) (scheduler : Scheduler H) (middle : SchedulePass H) : Prop where
  front : peekRequest (pass.scheduler.queue name) = some ref
  ready : Scheduler.isBlockedWaitingStatus (pass.request ref).status = false
  found : pass.lookupComputed env ref = .ok (some computed)
  allocated : pass.scheduler.allocateSlots (pass.request ref)
    (pass.slotArgsWaiting (pass.request ref) computed numNewTokens plan) =
      .ok (some blocks, scheduler)
  popped : (pass.withScheduler scheduler).popFrom name = .ok (ref, middle)

/-- What is known when a waiting request enters the step. -/
structure Enters (env : ScheduleEnv) (pass : SchedulePass H) (name : Scheduler.QueueName) (ref : Ref)
    (computed : ComputedTokens) (numNewTokens : Int) (plan : EncoderPlan)
    (blocks : List (List BlockId)) (scheduler : Scheduler H) (middle after : SchedulePass H) : Prop
    extends Leaves env pass name ref computed numNewTokens plan blocks scheduler middle where
  present : computed.loadKvAsync = false
  positive : 0 < numNewTokens
  bounded : numNewTokens <= (pass.request ref).numTokens - computed.numComputedTokens
  spare : pass.exceedsLoras (pass.request ref) = false
  entered : middle.admitRequest ref numNewTokens computed.numComputedTokens plan = .ok after

/-- One thing that a pass of `schedule` can do.  Each constructor has what the
code has checked when it does this, so that an invariant of a pass is proved by
going through the constructors once. -/
inductive PassStep (env : ScheduleEnv) (stepActiveK : Nat) :
    PassPhase -> SchedulePass H -> SchedulePass H -> Prop
  | truncate {pass : SchedulePass H} (ref : Ref) (isRunning : ref ∈ pass.scheduler.running) :
      PassStep env stepActiveK .running pass
        (pass.withScheduler (pass.scheduler.truncateSpec ref stepActiveK))
  | passOver {pass : SchedulePass H} :
      PassStep env stepActiveK .running pass { pass with reqIndex := pass.reqIndex + 1 }
  | plan {phase : PassPhase} {pass after : SchedulePass H} (ref : Ref)
      (numComputedTokens numNewTokens : Int) (plan : EncoderPlan)
      (planned : pass.planEncoder env (pass.request ref) numComputedTokens numNewTokens =
        .ok (plan, after)) : PassStep env stepActiveK phase pass after
  | refuse {phase : PassPhase} {pass : SchedulePass H} {scheduler : Scheduler H} (ref : Ref)
      (args : Scheduler.SlotArgs)
      (refused : pass.scheduler.allocateSlots (pass.request ref) args = .ok (none, scheduler)) :
      PassStep env stepActiveK phase pass (pass.withScheduler scheduler)
  | preempt {pass after : SchedulePass H} (victim : Ref)
      (apart : pass.scheduler.config.policy = .fcfs -> victim ∉ pass.scheduledRunningReqs)
      (preempted : pass.preemptOne = .ok (victim, after)) : PassStep env stepActiveK .running pass after
  | run {pass after : SchedulePass H} {scheduler : Scheduler H} (ref : Ref) (numNewTokens : Int)
      (blocks : List (List BlockId)) (plan : EncoderPlan)
      (runs : Runs stepActiveK pass ref numNewTokens blocks plan scheduler after) :
      PassStep env stepActiveK .running pass after
  | loras {pass after : SchedulePass H} (recorded : pass.recordLoras = .ok after) :
      PassStep env stepActiveK .running pass after
  | promote {pass : SchedulePass H} {scheduler : Scheduler H} {promoted : Bool}
      (name : Scheduler.QueueName) (ref : Ref)
      (front : peekRequest (pass.scheduler.queue name) = some ref)
      (tried : pass.scheduler.tryPromoteBlockedWaitingRequest env ref = .ok (promoted, scheduler)) :
      PassStep env stepActiveK .waiting pass (pass.withScheduler scheduler)
  | skip {pass after : SchedulePass H} (name : Scheduler.QueueName)
      (skipped : pass.skipRequest name = .ok after) : PassStep env stepActiveK .waiting pass after
  | untouch {pass : SchedulePass H} (name : Scheduler.QueueName) (ref : Ref)
      (front : peekRequest (pass.scheduler.queue name) = some ref) :
      PassStep env stepActiveK .waiting pass (pass.untouchEncoder (pass.request ref))
  | load {pass middle : SchedulePass H} {scheduler : Scheduler H} (name : Scheduler.QueueName)
      (ref : Ref) (computed : ComputedTokens) (numNewTokens : Int) (plan : EncoderPlan)
      (blocks : List (List BlockId)) (loads : computed.loadKvAsync = true)
      (leaves : Leaves env pass name ref computed numNewTokens plan blocks scheduler middle) :
      PassStep env stepActiveK .waiting pass (middle.startLoading ref computed.numComputedTokens)
  | enter {pass middle after : SchedulePass H} {scheduler : Scheduler H}
      (name : Scheduler.QueueName) (ref : Ref) (computed : ComputedTokens) (numNewTokens : Int)
      (plan : EncoderPlan) (blocks : List (List BlockId))
      (enters : Enters env pass name ref computed numNewTokens plan blocks scheduler middle after) :
      PassStep env stepActiveK .waiting pass after

open PassStep

/-- Any number of such things in one phase. -/
abbrev PassSteps (env : ScheduleEnv) (stepActiveK : Nat) (phase : PassPhase) :
    SchedulePass H -> SchedulePass H -> Prop :=
  Relation.ReflTransGen (PassStep env stepActiveK phase)

variable {env : ScheduleEnv} {stepActiveK fuel : Nat}

/-- What the loop knows between two visits: the requests that were scheduled
stand before the position of the loop. -/
structure Ordered (pass : SchedulePass H) : Prop where
  distinct : pass.scheduler.running.Nodup
  distinctScheduled : pass.scheduledRunningReqs.Nodup
  behind : ∀ other ∈ pass.scheduledRunningReqs, other ∈ pass.scheduler.running.take pass.reqIndex

/-- What the loop knows while it visits a running request, which does not stand
after the position of the loop. -/
structure InLoop (pass : SchedulePass H) (ref : Ref) : Prop extends Ordered pass where
  reached : ref ∈ pass.scheduler.running.take (pass.reqIndex + 1)
  atIndex : pass.scheduler.config.policy = .fcfs ->
    pass.scheduler.running[pass.reqIndex]? = some ref
  fresh : ref ∉ pass.scheduledRunningReqs

section

omit [DecidableEq H]

theorem Ordered.passOver (ordered : Ordered pass) :
    Ordered { pass with reqIndex := pass.reqIndex + 1 } where
  distinct := ordered.distinct
  distinctScheduled := ordered.distinctScheduled
  behind other member :=
    take_subset_take_left _ (Nat.le_succ _) (ordered.behind other member)

theorem Ordered.inLoop (ordered : Ordered pass)
    (found : pass.scheduler.running[pass.reqIndex]? = some ref) : InLoop pass ref where
  toOrdered := ordered
  reached := mem_take_succ found
  atIndex _ := found
  fresh := by
    intro scheduled
    rcases List.getElem?_eq_some_iff.mp found with ⟨inRange, isRef⟩
    have distinct := ordered.distinct
    rw [<- take_append_drop pass.reqIndex pass.scheduler.running] at distinct
    have inRest : ref ∈ pass.scheduler.running.drop pass.reqIndex := by
      rw [drop_eq_getElem_cons inRange, isRef]
      exact mem_cons_self
    exact (nodup_append.mp distinct).2.2 ref (ordered.behind ref scheduled) ref inRest rfl

/-- Where the loop stands depends on the running queue and the policy. -/
theorem InLoop.carry {scheduler : Scheduler H} (inLoop : InLoop pass ref)
    (sameRunning : scheduler.running = pass.scheduler.running)
    (sameConfig : scheduler.config = pass.scheduler.config) :
    InLoop (pass.withScheduler scheduler) ref := by
  rcases inLoop with ⟨⟨distinct, distinctScheduled, behind⟩, reached, atIndex, fresh⟩
  rw [<- sameRunning] at distinct behind reached atIndex
  rw [<- sameConfig] at atIndex
  exact ⟨⟨distinct, distinctScheduled, behind⟩, reached, atIndex, fresh⟩

/-- Taking another request out of the running queue keeps the loop in place. -/
theorem InLoop.takeVictim (inLoop : InLoop pass ref) (taken : pass.takeVictim = .ok (victim, after))
    (notItself : ¬ victim = ref) :
    InLoop after ref := by
  rcases takeVictim_cases taken with ⟨isPriority, _, removed⟩ | ⟨isFcfs, running, parts, rfl⟩
  · have notFcfs : pass.scheduler.config.policy ≠ .fcfs := by
      rw [isPriority]
      exact nofun
    rcases unschedule_eq_ok removed with ⟨notScheduled, rfl⟩ | ⟨scheduled, _, _, rfl⟩
    · refine ⟨⟨inLoop.distinct.erase victim, inLoop.distinctScheduled, ?_⟩, ?_,
        fun isFcfs => absurd isFcfs notFcfs, inLoop.fresh⟩
      · intro other member
        refine mem_take_erase (inLoop.behind other member) ?_
        exact fun same => notScheduled (same ▸ member)
      · exact mem_take_erase inLoop.reached (Ne.symm notItself)
    have victimBehind := inLoop.behind victim scheduled
    have positive : 0 < pass.reqIndex := by
      rcases Nat.eq_zero_or_pos pass.reqIndex with isZero | positive
      · rw [isZero, take_zero] at victimBehind
        cases victimBehind
      · exact positive
    refine ⟨⟨inLoop.distinct.erase victim, inLoop.distinctScheduled.erase victim, ?_⟩, ?_,
      fun isFcfs => absurd isFcfs notFcfs, ?_⟩
    · intro other member
      rcases (inLoop.distinctScheduled.mem_erase_iff).mp member with ⟨different, inScheduled⟩
      exact mem_take_erase_pred (inLoop.behind other inScheduled) different victimBehind
    · have kept := mem_take_erase_pred inLoop.reached (Ne.symm notItself)
        (take_subset_take_left _ (Nat.le_succ _) victimBehind)
      have index : pass.reqIndex - 1 + 1 = pass.reqIndex + 1 - 1 := by omega
      dsimp only [without, withScheduler]
      rw [index]
      exact kept
    · exact fun member => inLoop.fresh (mem_of_mem_erase member)
  have atIndex : running[pass.reqIndex]? = some ref := by
    have found := inLoop.atIndex isFcfs
    rw [parts] at found
    rcases Nat.lt_or_ge pass.reqIndex running.length with before | atEnd
    · rwa [List.getElem?_append_left before] at found
    rw [List.getElem?_append_right atEnd] at found
    exact absurd (mem_singleton.mp (mem_of_getElem? found)).symm notItself
  have inRange := (List.getElem?_eq_some_iff.mp atIndex).1
  refine ⟨⟨inLoop.distinct.sublist (parts ▸ sublist_append_left _ _),
    inLoop.distinctScheduled, ?_⟩, mem_take_succ atIndex, fun _ => atIndex, inLoop.fresh⟩
  intro other member
  have before := inLoop.behind other member
  rw [parts, take_append_of_le_length (by omega)] at before
  exact before

theorem InLoop.preemptOne (inLoop : InLoop pass ref)
    (returned : pass.preemptOne = .ok (victim, after)) (notItself : ¬ victim = ref) :
    InLoop after ref := by
  rcases preemptOne_eq_ok returned with ⟨_, _, taken, preempted, rfl⟩
  rcases preemptRequest_eq_ok preempted with ⟨_, _, _, rfl⟩
  have kept := inLoop.takeVictim taken notItself
  exact ⟨⟨kept.distinct, kept.distinctScheduled, kept.behind⟩, kept.reached, kept.atIndex, kept.fresh⟩

/-- With the FCFS policy the last running request is preempted, which is not
one that was scheduled. -/
theorem InLoop.victim_apart (inLoop : InLoop pass ref)
    (returned : pass.preemptOne = .ok (victim, after))
    (isFcfs : pass.scheduler.config.policy = .fcfs) : victim ∉ pass.scheduledRunningReqs := by
  intro scheduled
  rcases preemptOne_eq_ok returned with ⟨_, _, taken, _, rfl⟩
  rcases takeVictim_cases taken with ⟨isPriority, _⟩ | ⟨_, _, parts, _⟩
  · cases isFcfs.symm.trans isPriority
  have before := inLoop.behind victim scheduled
  have inRange := (List.getElem?_eq_some_iff.mp (inLoop.atIndex isFcfs)).1
  have distinct := inLoop.distinct
  rw [parts, length_append, length_singleton] at inRange
  rw [parts] at distinct
  rw [parts, take_append_of_le_length (by omega)] at before
  have disjoint := (nodup_append.mp distinct).2.2
  exact disjoint victim (mem_of_mem_take before) victim (mem_singleton_self victim) rfl

end

/-- Slots that are granted are granted to the request as it was before the
preemptions. -/
theorem allocateOrPreempt_steps {result : Option (List (List BlockId))} (inLoop : InLoop pass ref)
    (returned : allocateOrPreempt ref numNew fuel pass = .ok (result, after)) :
    match result with
    | none => PassSteps env stepActiveK .running pass after
    | some blocks =>
      ∃ middle scheduler, PassSteps env stepActiveK .running pass middle /\
        Kept ref pass middle /\ InLoop middle ref /\
        middle.scheduler.allocateSlots (middle.request ref)
          (middle.slotArgsRunning numNew) = .ok (some blocks, scheduler) /\
        after = middle.withScheduler scheduler := by
  induction fuel generalizing pass with
  | zero =>
    cases returned
    exact ReflTransGen.refl
  | succ fuel ih =>
    obtain ⟨⟨granted, scheduler⟩, allocated, rest⟩ := andThen_eq_ok returned
    cases granted with
    | some blocks =>
      cases rest
      exact ⟨pass, scheduler, ReflTransGen.refl, ⟨rfl, rfl, rfl⟩, inLoop, allocated, rfl⟩
    | none =>
      obtain ⟨⟨victim, preempted⟩, preemption, rest⟩ := andThen_eq_ok rest
      have refused : PassStep env stepActiveK .running pass (pass.withScheduler scheduler) :=
        refuse ref _ allocated
      obtain ⟨_, _, _, _, _, _, same⟩ := allocateSlots_eq_ok allocated
      have refusedLoop : InLoop (pass.withScheduler scheduler) ref := by
        rw [same]
        exact inLoop.carry rfl rfl
      have steps : PassSteps env stepActiveK .running pass preempted :=
        (ReflTransGen.single refused).tail
          (preempt victim (refusedLoop.victim_apart preemption) preemption)
      split at rest
      · cases rest
        exact steps
      case isFalse notItself =>
        have others := preemptOne_others preemption (Ne.symm notItself)
        have continued := ih (refusedLoop.preemptOne preemption notItself) rest
        cases result with
        | none => exact steps.trans continued
        | some blocks =>
          obtain ⟨middle, last, more, kept, stays, granted, isAfter⟩ := continued
          have refusedKept : Kept ref pass (pass.withScheduler scheduler) := by
            rw [same]
            exact ⟨rfl, rfl, rfl⟩
          exact ⟨middle, last, steps.trans more, (refusedKept.trans others).trans kept, stays,
            granted, isAfter⟩

section

omit [DecidableEq H]

theorem planEncoder_bound
    (returned : pass.planEncoder env request numComputedTokens numNewTokens = .ok (plan, after)) :
    plan.numNewTokens <= max 0 numNewTokens := by
  rw [planEncoder] at returned
  split at returned
  · obtain ⟨_, planned, rest⟩ := andThen_eq_ok returned
    cases rest
    exact tryScheduleEncoderInputs_bound planned
  cases returned
  exact Int.le_max_right _ _

theorem numNewTokensRunning_le (pass : SchedulePass H) (ref : Ref) :
    pass.numNewTokensRunning ref <= pass.numTokensToCompute ref /\ pass.numNewTokensRunning ref <=
        (pass.scheduler.config.maxModelLen : Int) - 1 - (pass.request ref).numComputedTokens := by
  rw [numNewTokensRunning]
  split <;> omega

/-- A request that was entered into the step stands behind the loop. -/
theorem InLoop.commitRunning (inLoop : InLoop pass ref)
    (committed : pass.commitRunning ref numNew blocks plan = .ok after) : Ordered after := by
  rcases commitRunning_eq_ok committed with ⟨_, _, _, rfl⟩
  have sameRunning : (pass.scheduler.clearSpec ref).running = pass.scheduler.running := by
    rw [clearSpec]
    split <;> rfl
  refine ⟨?_, ?_, ?_⟩
  · dsimp only
    rw [sameRunning]
    exact inLoop.distinct
  · apply nodup_append.mpr
    refine ⟨inLoop.distinctScheduled, nodup_singleton ref, ?_⟩
    intro other member last isLast equal
    rw [mem_singleton.mp isLast] at equal
    exact inLoop.fresh (equal ▸ member)
  intro other member
  rw [sameRunning]
  rcases mem_append.mp member with before | isRef
  · exact take_subset_take_left _ (Nat.le_succ _) (inLoop.behind other before)
  rw [mem_singleton.mp isRef]
  exact inLoop.reached

end

theorem visitRunning_steps (ordered : Ordered pass)
    (found : pass.scheduler.running[pass.reqIndex]? = some ref)
    (returned : pass.visitRunning env stepActiveK ref = .ok (goesOn, after)) :
    PassSteps env stepActiveK .running pass after /\ (goesOn = true -> Ordered after) := by
  have truncation : PassStep env stepActiveK .running pass
      (pass.withScheduler (pass.scheduler.truncateSpec ref stepActiveK)) :=
    truncate ref (mem_of_getElem? found)
  rw [visitRunning] at returned
  have inLoop : InLoop (pass.withScheduler (pass.scheduler.truncateSpec ref stepActiveK)) ref := by
    rw [truncateSpec]
    split <;> exact (ordered.inLoop found).carry rfl rfl
  have short : ((pass.withScheduler
      (pass.scheduler.truncateSpec ref stepActiveK)).scheduler.specTokenIds ref).length <=
        stepActiveK := specTokenIds_truncateSpec ref
  generalize pass.withScheduler (pass.scheduler.truncateSpec ref stepActiveK) = truncated at *
  have first : PassSteps env stepActiveK .running pass truncated :=
    ReflTransGen.single truncation
  split at returned
  · cases returned
    exact ⟨first.tail passOver, fun _ => inLoop.toOrdered.passOver⟩
  case isFalse notReached =>
    rcases andThen_eq_ok returned with ⟨⟨plan, planned⟩, planning, rest⟩
    rcases andThen_eq_ok rest with ⟨numNew, splitting, rest⟩
    rcases planEncoder_eq_ok planning with ⟨_, isPlanned⟩
    have second : PassSteps env stepActiveK .running pass planned :=
      first.tail (PassStep.plan ref _ _ plan planning)
    have plannedLoop : InLoop planned ref := by
      rw [isPlanned]
      exact inLoop.carry rfl rfl
    have limits := numNewTokensRunning_le truncated ref
    have planBound := planEncoder_bound planning
    have splitBound : numNew <= max 0 plan.numNewTokens := by
      split at splitting
      · exact mambaBlockAlignedSplit_bound splitting
      cases splitting
      exact Int.le_max_right _ _
    split at rest
    · cases rest
      exact ⟨second.tail passOver, fun _ => plannedLoop.toOrdered.passOver⟩
    case isFalse notZero =>
      rcases andThen_eq_ok rest with ⟨⟨granted, _⟩, allocation, rest⟩
      have steps := @allocateOrPreempt_steps _ _ _ _ _ _ env stepActiveK _ _ plannedLoop allocation
      cases granted with
      | none =>
        cases rest
        exact ⟨second.trans steps, fun given => by cases given⟩
      | some blocks =>
        rcases andThen_eq_ok rest with ⟨_, commits, rest⟩
        cases rest
        rcases steps with ⟨middle, scheduler, more, fromPlanned, middleLoop, slots, rfl⟩
        have kept : Kept ref truncated middle := by
          rw [isPlanned] at fromPlanned
          exact ⟨fromPlanned.object, fromPlanned.placeholders, fromPlanned.config⟩
        rcases allocateSlots_eq_ok slots with
          ⟨_, naturalTokens, _, _, natural, _, isScheduler⟩
        have natural : numNew = (naturalTokens : Int) := natural
        have runs : Runs stepActiveK middle ref numNew blocks plan scheduler after := by
          refine ⟨mem_of_mem_take middleLoop.reached, middleLoop.fresh, ?_, ?_, by omega,
            ?_, ?_, slots, commits⟩
          · rw [request, kept.object]
            exact Bool.eq_false_iff.mpr notReached
          · rw [kept.specTokenIds]
            exact short
          · rw [kept.numTokensToCompute]
            omega
          rw [request, kept.object, kept.config]
          have inside := limits.2
          rw [request] at inside
          omega
        refine ⟨(second.trans more).tail (run ref numNew blocks plan runs), ?_⟩
        intro _
        refine InLoop.commitRunning (?_ : InLoop (middle.withScheduler scheduler) ref) commits
        rw [isScheduler]
        exact middleLoop.carry rfl rfl

theorem scheduleRunning_steps (ordered : Ordered pass)
    (returned : scheduleRunning env stepActiveK fuel pass = .ok after) :
    PassSteps env stepActiveK .running pass after := by
  induction fuel generalizing pass with
  | zero =>
    cases returned
    exact ReflTransGen.refl
  | succ fuel ih =>
    rw [scheduleRunning] at returned
    split at returned
    · cases returned
      exact ReflTransGen.refl
    case h_2 ref found =>
      split at returned
      · rcases andThen_eq_ok returned with ⟨⟨_, _⟩, visit, rest⟩
        have steps := visitRunning_steps ordered found visit
        split at rest
        case isTrue continues => exact steps.1.trans (ih (steps.2 continues) rest)
        · cases rest
          exact steps.1
      · cases returned
        exact ReflTransGen.refl

variable {name : QueueName}

omit [DecidableEq H] in
theorem popFrom_eq_ok (returned : pass.popFrom name = .ok (ref, after)) :
    ∃ rest, peekRequest (pass.scheduler.queue name) = some ref /\
      (pass.scheduler.queue name).Perm (ref :: rest) /\
      after = pass.withScheduler (pass.scheduler.setQueue name rest) := by
  rw [popFrom] at returned
  split at returned
  · cases returned
  case h_2 first rest popped =>
    cases returned
    obtain ⟨front, parts⟩ := popRequest_eq_some _ _ popped
    exact ⟨rest, front, parts, rfl⟩

omit [DecidableEq H] in
/-- A waiting request enters the step and the running queue. -/
theorem admitRequest_eq_ok
    (returned : pass.admitRequest ref numNew numComputedTokens plan = .ok after) :
    ∃ newReqs resumedReqs blocks cache inputs budget,
      ((pass.request ref).status = .waiting /\ newReqs = pass.scheduledNewReqs ++ [ref] /\
          resumedReqs = pass.scheduledResumedReqs \/
        (pass.request ref).status = .preempted /\ newReqs = pass.scheduledNewReqs /\
          resumedReqs = pass.scheduledResumedReqs ++ [ref]) /\
      after =
        { pass with
          scheduler :=
            { pass.scheduler with
              running := pass.scheduler.running ++ [ref]
              objects := update pass.scheduler.objects ref
                { pass.scheduler.objects ref with
                  status := .running, numComputedTokens := numComputedTokens }
              encoderCacheManager := cache }
          scheduledNewReqs := newReqs
          scheduledResumedReqs := resumedReqs
          scheduledLoras :=
            match pass.scheduler.config.maxLoras, (pass.request ref).loraIntId with
            | some _, some lora =>
              if lora ∈ pass.scheduledLoras then pass.scheduledLoras
              else lora :: pass.scheduledLoras
            | _, _ => pass.scheduledLoras
          reqToNewBlocks := blocks
          numScheduledTokens := pass.numScheduledTokens.set (pass.request ref).requestId numNew
          tokenBudget := pass.tokenBudget - numNew
          scheduledEncoderInputs := inputs
          encoderComputeBudget := budget } := by
  obtain ⟨_, entering, rest⟩ := andThen_eq_ok returned
  obtain ⟨cache, inputs, budget, rfl⟩ := commitEncoder_eq_ok rest
  split at entering
  case h_1 isWaiting =>
    cases entering
    exact ⟨_, _, _, cache, inputs, budget, Or.inl ⟨isWaiting, rfl, rfl⟩, rfl⟩
  case h_2 isPreempted =>
    cases entering
    exact ⟨_, _, _, cache, inputs, budget, Or.inr ⟨isPreempted, rfl, rfl⟩, rfl⟩
  · cases entering

variable {scheduler promotedTo : Scheduler H}

section

omit [DecidableEq H]

/-- A load or a promotion changes the status and the computed tokens of the object, the
cache and the lists of loads. -/
def afterLoad (scheduler : Scheduler H) (ref : Ref) (manager : KVCache.KVCacheManager H)
    (failed finished : List RequestId) (numComputedTokens : Int) (status : RequestStatus) :
    Scheduler H :=
  { scheduler with
    kvCacheManager := manager
    failedRecvingKvReqIds := failed
    finishedRecvingKvReqIds := finished
    objects := update scheduler.objects ref
      { scheduler.objects ref with numComputedTokens := numComputedTokens, status := status } }

theorem afterLoad_self {manager : KVCache.KVCacheManager H}
    {failed finished : List RequestId} :
    { scheduler with
      kvCacheManager := manager
      failedRecvingKvReqIds := failed
      finishedRecvingKvReqIds := finished } =
    afterLoad scheduler ref manager failed finished (scheduler.objects ref).numComputedTokens
      (scheduler.objects ref).status := by
  rw [afterLoad, update_eq_self_iff.mpr rfl]

end

theorem updateWaitingForRemoteKv_eq_ok
    (returned : scheduler.updateWaitingForRemoteKv ref = .ok promotedTo) :
    ∃ manager numComputedTokens failed finished, promotedTo =
      afterLoad scheduler ref manager failed finished numComputedTokens
        (scheduler.objects ref).status := by
  obtain ⟨_, _, rest⟩ := andThen_eq_ok returned
  obtain ⟨_, loaded, rest⟩ := andThen_eq_ok rest
  cases rest
  split at loaded
  · obtain ⟨_, keeping, rest⟩ := andThen_eq_ok loaded
    cases rest
    split at keeping
    · obtain ⟨_, _, manager, _, _, _, rfl⟩ := kvCacheBlocks_eq_ok keeping
      exact ⟨manager, _, _, _, afterLoad_self⟩
    obtain ⟨manager, _, rfl⟩ := kvFree_eq_ok keeping
    exact ⟨manager, _, _, _, afterLoad_self⟩
  obtain ⟨_, keeping, rest⟩ := andThen_eq_ok loaded
  obtain ⟨_, _, manager, _, _, _, rfl⟩ := kvCacheBlocks_eq_ok keeping
  split at rest
  · cases rest
    exact ⟨manager, (scheduler.objects ref).numTokens - 1, _, _, rfl⟩
  cases rest
  exact ⟨manager, _, _, _, afterLoad_self⟩

/-- A request is made ready, or keeps its status. -/
def Promotes (scheduler : Scheduler H) (ref : Ref) (promoted : Bool) (promotedTo : Scheduler H) :
    Prop :=
  ∃ manager numComputedTokens status failed finished,
    (promoted = true -> (status = .waiting \/ status = .preempted) /\
      (scheduler.objects ref).status ≠ .waitingForStreamingReq) /\
    (promoted = false -> status = (scheduler.objects ref).status) /\
    promotedTo = afterLoad scheduler ref manager failed finished numComputedTokens status

omit [DecidableEq H] in
theorem Promotes.refl (scheduler : Scheduler H) (ref : Ref) :
    Promotes scheduler ref false scheduler :=
  ⟨_, _, _, _, _, nofun, fun _ => rfl, afterLoad_self⟩

theorem tryPromote_eq_ok
    (returned : scheduler.tryPromoteBlockedWaitingRequest env ref = .ok (promoted, promotedTo)) :
    isBlockedWaitingStatus (scheduler.objects ref).status = true /\
      Promotes scheduler ref promoted promotedTo := by
  rw [tryPromoteBlockedWaitingRequest] at returned
  split at returned
  case h_1 isLoading =>
    refine ⟨by rw [isLoading]; rfl, ?_⟩
    split at returned
    · cases returned
      exact Promotes.refl scheduler ref
    obtain ⟨_, loading, rest⟩ := andThen_eq_ok returned
    obtain ⟨manager, numComputedTokens, failed, finished, rfl⟩ :=
      updateWaitingForRemoteKv_eq_ok loading
    cases rest
    refine ⟨manager, numComputedTokens, if (scheduler.objects ref).numPreemptions ≠ 0 then
      .preempted else .waiting, failed, finished, ?_, (fun given => by cases given), ?_⟩
    · intro _
      rw [isLoading]
      refine ⟨?_, fun given => by cases given⟩
      split
      · exact Or.inr rfl
      · exact Or.inl rfl
    · simp only [afterLoad, Scheduler.modify, update_idem, update_self]
  case h_2 isGrammar =>
    refine ⟨by rw [isGrammar]; rfl, ?_⟩
    split at returned
    · cases returned
      refine ⟨scheduler.kvCacheManager, (scheduler.objects ref).numComputedTokens, .waiting,
        scheduler.failedRecvingKvReqIds, scheduler.finishedRecvingKvReqIds, ?_,
        (fun given => by cases given), rfl⟩
      intro _
      rw [isGrammar]
      exact ⟨Or.inl rfl, fun given => by cases given⟩
    · cases returned
      exact Promotes.refl scheduler ref
  case h_3 isStreaming =>
    refine ⟨by rw [isStreaming]; rfl, ?_⟩
    obtain ⟨_, _, rest⟩ := andThen_eq_ok returned
    cases rest
    exact Promotes.refl scheduler ref
  · cases returned

theorem queue_tryPromote
    (returned : scheduler.tryPromoteBlockedWaitingRequest env ref = .ok (promoted, promotedTo))
    (name : QueueName) : promotedTo.queue name = scheduler.queue name := by
  obtain ⟨_, _, _, _, _, _, _, _, rfl⟩ :=
    tryPromote_eq_ok returned
  cases name <;> rfl

theorem tryPromote_ready
    (returned : scheduler.tryPromoteBlockedWaitingRequest env ref = .ok (true, promotedTo)) :
    isBlockedWaitingStatus (promotedTo.objects ref).status = false := by
  rcases tryPromote_eq_ok returned with ⟨_, _, _, _, _, _, outcome, _, rfl⟩
  dsimp only [afterLoad]
  rw [update_self]
  rcases (outcome rfl).1 with rfl | rfl <;> rfl

omit [DecidableEq H] in
theorem numNewTokensWaiting_le
    (found : pass.numNewTokensWaiting request numComputedTokens = some numNew) :
    numNew <= request.numTokens - numComputedTokens := by
  rw [numNewTokensWaiting] at found
  split at found
  · split at found
    · cases found
    rw [<- Option.some.inj found]
    omega
  split at found
  · cases found
  rw [<- Option.some.inj found]
  omega

variable {computed : ComputedTokens}

omit [DecidableEq H] in
/-- The first part of planning: the tokens of the plan are within those that
are not computed, and there are some. -/
theorem planWaiting_tokens {result : Option EncoderPlan} (returned :
      (match pass.numNewTokensWaiting request computed.numComputedTokens with
      | none => .ok (none, pass)
      | some numNew =>
          andThen (require (0 < numNew) .noNewTokens) (fun _ =>
            andThen (pass.planEncoder env request computed.numComputedTokens numNew) (fun planned =>
                if request.hasEncoderInputs /\ planned.1.numNewTokens = 0 then .ok (none, planned.2)
                else .ok (some planned.1, planned.2))) :
        Except SchedulerError (Option EncoderPlan × SchedulePass H)) = .ok (result, after)) :
    (after = pass \/ ∃ numNew plan,
      pass.planEncoder env request computed.numComputedTokens numNew = .ok (plan, after)) /\
    (∀ plan, result = some plan -> plan.numNewTokens ≠ 0 /\
      plan.numNewTokens <= max 0 (request.numTokens - computed.numComputedTokens)) := by
  cases limit : pass.numNewTokensWaiting request computed.numComputedTokens with
  | none =>
    simp only [limit] at returned
    cases returned
    exact ⟨Or.inl rfl, nofun⟩
  | some numNew =>
    simp only [limit] at returned
    obtain ⟨_, required, rest⟩ := andThen_eq_ok returned
    obtain ⟨⟨plan, _⟩, planning, rest⟩ := andThen_eq_ok rest
    have positive := require_eq_ok required
    have bound := planEncoder_bound planning
    have limited := numNewTokensWaiting_le limit
    dsimp only at rest
    split at rest
    · cases rest
      exact ⟨Or.inr ⟨numNew, plan, planning⟩, nofun⟩
    case isFalse scheduled =>
      cases rest
      refine ⟨Or.inr ⟨numNew, plan, planning⟩, ?_⟩
      intro other isPlan
      cases isPlan
      refine ⟨?_, by omega⟩
      intro isZero
      rw [planEncoder] at planning
      split at planning
      case isTrue hasInputs => exact scheduled ⟨hasInputs, isZero⟩
      · cases planning
        exact absurd isZero (Int.ne_of_gt positive)

omit [DecidableEq H] in
/-- Planning a waiting request is at most a step of the encoder cache, and the
tokens stay within those that are not computed. -/
theorem planWaiting_eq_ok {result : Option (Int × EncoderPlan)}
    (returned : pass.planWaiting env request computed = .ok (result, after)) :
    (after = pass \/ ∃ numNew plan,
      pass.planEncoder env request computed.numComputedTokens numNew = .ok (plan, after)) /\
    (∀ numNew plan, result = some (numNew, plan) ->
      computed.loadKvAsync = false -> numNew ≠ 0 /\
        numNew <= max 0 (request.numTokens - computed.numComputedTokens)) := by
  obtain ⟨⟨first, planned⟩, planning, rest⟩ := andThen_eq_ok returned
  have isAfter : after = planned := by
    cases first with
    | none =>
      cases rest
      rfl
    | some plan =>
      dsimp only at rest
      split at rest
      · obtain ⟨_, _, rest⟩ := andThen_eq_ok rest
        split at rest <;> (cases rest; rfl)
      cases rest
      rfl
  subst isAfter
  cases async : computed.loadKvAsync with
  | true =>
    rw [async, if_pos rfl] at planning
    obtain ⟨_, _, planning⟩ := andThen_eq_ok planning
    cases planning
    exact ⟨Or.inl rfl, nofun⟩
  | false =>
    rw [async, if_neg Bool.false_ne_true] at planning
    have tokens := planWaiting_tokens planning
    refine ⟨tokens.1, ?_⟩
    intro numNew plan isResult _
    cases first with
    | none =>
      cases rest
      cases isResult
    | some firstPlan =>
      have firstTokens := tokens.2 firstPlan rfl
      dsimp only at rest
      split at rest
      · obtain ⟨_, splitting, rest⟩ := andThen_eq_ok rest
        have bound := mambaBlockAlignedSplit_bound splitting
        split at rest
        · cases rest
          cases isResult
        case isFalse notZero =>
          cases rest
          cases isResult
          exact ⟨notZero, by omega⟩
      cases rest
      cases isResult
      exact firstTokens

section

variable (front : peekRequest (pass.scheduler.queue name) = some ref)
  (ready : isBlockedWaitingStatus (pass.request ref).status = false)
include front ready

theorem placeWaiting_steps (found : pass.lookupComputed env ref = .ok (some computed))
    (bounded : computed.loadKvAsync = false -> numNew ≠ 0 /\
        numNew <= max 0 ((pass.request ref).numTokens - computed.numComputedTokens))
    (spare : pass.exceedsLoras (pass.request ref) = false)
    (returned : pass.placeWaiting name ref computed numNew plan = .ok (goesOn, after)) :
    PassSteps env stepActiveK .waiting pass after := by
  obtain ⟨_, _, rest⟩ := andThen_eq_ok returned
  split at rest
  · cases rest
    exact ReflTransGen.single (untouch name ref front)
  obtain ⟨⟨granted, scheduler⟩, allocation, rest⟩ := andThen_eq_ok rest
  obtain ⟨_, naturalTokens, _, _, natural, _, same⟩ :=
    allocateSlots_eq_ok allocation
  have natural : numNew = (naturalTokens : Int) := natural
  cases granted with
  | none =>
    cases rest
    have sameRequest : pass.request ref = (pass.withScheduler scheduler).request ref := by
      rw [same]
      rfl
    refine (ReflTransGen.single (refuse ref _ allocation)).tail ?_
    rw [sameRequest]
    refine untouch name ref ?_
    rw [same]
    cases name <;> exact front
  | some blocks =>
    obtain ⟨⟨popped, _⟩, popping, placed⟩ := andThen_eq_ok rest
    obtain ⟨_, poppedFront, _, _⟩ := popFrom_eq_ok popping
    have isRef : popped = ref := by
      have sameQueue : (pass.withScheduler scheduler).scheduler.queue name =
          pass.scheduler.queue name := by
        rw [same]
        cases name <;> rfl
      rw [sameQueue, front] at poppedFront
      exact (Option.some.inj poppedFront).symm
    subst isRef
    split at placed
    case isTrue loads =>
      cases placed
      exact ReflTransGen.single (PassStep.load name popped computed numNew plan
        blocks loads ⟨front, ready, found, allocation, popping⟩)
    case isFalse present =>
      obtain ⟨_, entering, placed⟩ := andThen_eq_ok placed
      cases placed
      have present := Bool.eq_false_iff.mpr present
      have limits := bounded present
      exact ReflTransGen.single (PassStep.enter name popped computed numNew
        plan blocks ⟨⟨front, ready, found, allocation, popping⟩, present, by omega, by omega,
          spare, entering⟩)

theorem visitReady_steps (returned : pass.visitReady env name ref = .ok (goesOn, after)) :
    PassSteps env stepActiveK .waiting pass after := by
  rw [visitReady] at returned
  split at returned
  · obtain ⟨_, skip, rest⟩ := andThen_eq_ok returned
    cases rest
    exact ReflTransGen.single (PassStep.skip name skip)
  case isFalse spare =>
    obtain ⟨found, lookup, rest⟩ := andThen_eq_ok returned
    cases found with
    | none =>
      obtain ⟨_, skip, rest⟩ := andThen_eq_ok rest
      cases rest
      exact ReflTransGen.single (PassStep.skip name skip)
    | some computed =>
      obtain ⟨⟨result, planned⟩, planning, rest⟩ := andThen_eq_ok rest
      obtain ⟨step, tokens⟩ := planWaiting_eq_ok planning
      have steps : PassSteps env stepActiveK .waiting pass planned := by
        rcases step with rfl | ⟨_, _, planEncoder⟩
        · exact ReflTransGen.refl
        · exact ReflTransGen.single (PassStep.plan ref _ _ _ planEncoder)
      have same : ∃ cache, planned =
          pass.withScheduler { pass.scheduler with encoderCacheManager := cache } := by
        rcases step with rfl | ⟨_, _, planEncoder⟩
        · exact ⟨planned.scheduler.encoderCacheManager, rfl⟩
        · exact planEncoder_eq_ok planEncoder
      cases result with
      | none =>
        cases rest
        exact steps
      | some plannedTokens =>
        refine steps.trans ?_
        obtain ⟨_, rfl⟩ := same
        refine placeWaiting_steps ?_ ready lookup (tokens plannedTokens.1 plannedTokens.2 rfl)
          (Bool.eq_false_iff.mpr spare) rest
        cases name <;> exact front

end

theorem visitWaiting_steps (front : peekRequest (pass.scheduler.queue name) = some ref)
    (returned : pass.visitWaiting env name ref = .ok (goesOn, after)) :
    PassSteps env stepActiveK .waiting pass after := by
  rw [visitWaiting] at returned
  split at returned
  · obtain ⟨⟨_, scheduler⟩, tried, rest⟩ := andThen_eq_ok returned
    have step : PassStep env stepActiveK .waiting pass (pass.withScheduler scheduler) :=
      PassStep.promote name ref front tried
    refine ReflTransGen.head step ?_
    split at rest
    case isTrue isPromoted =>
      subst isPromoted
      refine visitReady_steps ?_ (tryPromote_ready tried) rest
      rw [withScheduler, queue_tryPromote tried]
      exact front
    · obtain ⟨_, skip, rest⟩ := andThen_eq_ok rest
      cases rest
      exact ReflTransGen.single (PassStep.skip name skip)
  case isFalse ready => exact visitReady_steps front (Bool.eq_false_iff.mpr ready) returned

theorem scheduleWaiting_steps (returned : scheduleWaiting env fuel pass = .ok after) :
    PassSteps env stepActiveK .waiting pass after := by
  induction fuel generalizing pass with
  | zero =>
    cases returned
    exact ReflTransGen.refl
  | succ fuel ih =>
    rw [scheduleWaiting] at returned
    split at returned
    · cases returned
      exact ReflTransGen.refl
    split at returned
    · cases returned
      exact ReflTransGen.refl
    split at returned
    · cases returned
      exact ReflTransGen.refl
    case h_2 ref front =>
      obtain ⟨⟨_, visited⟩, visit, rest⟩ := andThen_eq_ok returned
      have steps : PassSteps env stepActiveK .waiting pass visited := visitWaiting_steps front visit
      split at rest
      · exact steps.trans (ih rest)
      cases rest
      exact steps

omit [DecidableEq H] in
theorem recordLoras_eq_ok (recorded : pass.recordLoras = .ok after) :
    ∃ loras, after = { pass with scheduledLoras := loras } := by
  rw [recordLoras] at recorded
  split at recorded
  · cases recorded
    exact ⟨_, rfl⟩
  obtain ⟨_, _, rest⟩ := andThen_eq_ok recorded
  cases rest
  exact ⟨_, rfl⟩

/-- The loop over the running requests neither sets anything aside nor admits
anything. -/
theorem PassStep.admits_nothing (step : PassStep env stepActiveK .running pass after) :
    after.admissions = pass.admissions := by
  cases step with
  | truncate ref isRunning => rfl
  | passOver => rfl
  | plan ref numComputedTokens numNew plan planned =>
    obtain ⟨_, rfl⟩ := planEncoder_eq_ok planned
    rfl
  | refuse ref args refused => rfl
  | preempt victim apart preempted =>
    obtain ⟨_, _, taken, _, rfl⟩ := preemptOne_eq_ok preempted
    obtain ⟨_, _, _, same⟩ := takeVictim_scheduler taken
    exact same
  | run ref numNew blocks plan runs =>
    obtain ⟨_, _, _, rfl⟩ := commitRunning_eq_ok runs.committed
    rfl
  | loras recorded =>
    obtain ⟨_, rfl⟩ := recordLoras_eq_ok recorded
    rfl

theorem PassSteps.admits_nothing (steps : PassSteps env stepActiveK .running pass after) :
    after.admissions = pass.admissions := by
  induction steps with
  | refl => rfl
  | tail _ step ih => exact step.admits_nothing.trans ih

omit [DecidableEq H] in
theorem requeueSkipped_of_nil (nothing : pass.stepSkippedWaiting = []) :
    pass.requeueSkipped = pass := by
  rw [requeueSkipped, nothing]
  cases policy : pass.scheduler.config.policy <;>
    simp only [prependRequests, Heap.drain, foldl_nil, withScheduler, length_nil]

end SchedulePass

namespace Scheduler

variable {H : Type} [DecidableEq H] {scheduler after : Scheduler H} {env : ScheduleEnv}
  {output : SchedulerOutput}

/-- The part of `schedule` that chooses the requests of the step. -/
def schedulePass (scheduler : Scheduler H) (env : ScheduleEnv) :
    Except SchedulerError (SchedulePass H) :=
  andThen
    (SchedulePass.scheduleRunning env scheduler.activeNumSpecTokens (scheduler.running.length + 1)
      (SchedulePass.start scheduler))
    (fun pass => andThen pass.recordLoras (fun pass => pass.admitWaiting env))

/-- After the requests are chosen, `schedule` checks its limits, builds the
output and advances the requests. -/
theorem schedule_eq (scheduler : Scheduler H) (env : ScheduleEnv) : scheduler.schedule env =
      andThen (scheduler.schedulePass env) (fun pass =>
        andThen pass.checkConstraints (fun _ =>
          andThen (pass.makeOutput scheduler.activeNumSpecTokens) (fun made =>
            andThen (made.2.updateAfterSchedule made.1) (fun after => .ok (made.1, after))))) := by
  rw [schedule, schedulePass]
  cases scheduleRunning env scheduler.activeNumSpecTokens
      (scheduler.running.length + 1) (start scheduler) with
  | error error => rfl
  | ok ran =>
    dsimp only [andThen]
    cases ran.recordLoras with
    | error error => rfl
    | ok recorded => rfl

/-- The choice of the requests in small steps: the running requests, and the
waiting ones if nothing was preempted. -/
theorem schedulePass_eq_ok {pass : SchedulePass H} (distinct : scheduler.running.Nodup)
    (returned : scheduler.schedulePass env = .ok pass) :
    ∃ ran admitted, PassSteps env scheduler.activeNumSpecTokens .running
        (start scheduler) ran /\
      PassSteps env scheduler.activeNumSpecTokens .waiting ran admitted /\
      (ran.preemptedReqs ≠ [] -> admitted = ran) /\ pass = admitted.requeueSkipped := by
  obtain ⟨_, runs, rest⟩ := andThen_eq_ok returned
  obtain ⟨ran, recorded, admits⟩ := andThen_eq_ok rest
  have ordered : Ordered (start scheduler) :=
    ⟨distinct, nodup_nil, fun other member => absurd member not_mem_nil⟩
  have steps : PassSteps env scheduler.activeNumSpecTokens .running
      (start scheduler) ran :=
    (scheduleRunning_steps ordered runs).tail (PassStep.loras recorded)
  have nothing : ran.stepSkippedWaiting = [] := congrArg Prod.fst steps.admits_nothing
  rw [admitWaiting] at admits
  split at admits
  case isTrue noVictims =>
    obtain ⟨admitted, waits, rest⟩ := andThen_eq_ok admits
    cases rest
    exact ⟨ran, admitted, steps, scheduleWaiting_steps waits,
      fun victims => absurd noVictims.1 victims, rfl⟩
  · cases admits
    exact ⟨pass, pass, steps, ReflTransGen.refl, fun _ => rfl, (requeueSkipped_of_nil nothing).symm⟩

end Scheduler

end Vllm.Sched
