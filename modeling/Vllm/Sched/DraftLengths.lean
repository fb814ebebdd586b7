import Vllm.Sched.LoraLimit
import Vllm.Sched.RequestSteps

namespace Vllm.Sched

open Foundation Function Scheduler SchedulePass PassSteps List
open KVCache (RequestId BlockId)

/-!
# The number of drafts of a step

With asynchronous scheduling the drafts of a request are placeholders, one list
that all requests share.  When a running request is visited, its list is cut in
place to the number of drafts that the controller allows in this step.  So the
shared list follows the controller downwards and stays short when the controller
goes up again.

As long as the shared list has at least the allowed number of placeholders at
every call of `schedule`, a request that gets all the tokens it asks for gets
exactly the allowed number of drafts.
-/

variable {H : Type}

namespace Scheduler

variable (scheduler : Scheduler H)

/-- The tokens that a running request asks for: its own ones, its drafts up to a
limit and those on the way, less what is computed. -/
def tokensAsked (limit : Nat) (ref : Ref) : Int :=
  let request := scheduler.objects ref
  request.numTokens + (min limit (scheduler.specTokenIds ref).length : Nat) +
    request.numOutputPlaceholders - request.numComputedTokens

/-- The id of an object. -/
abbrev idOf (ref : Ref) : RequestId := (scheduler.objects ref).requestId

/-- Dropping the drafts of a request changes its object at most. -/
theorem clearSpec_eq (ref : Ref) : ∃ specTokenIds, scheduler.clearSpec ref =
      { scheduler with
        objects := update scheduler.objects ref
          { scheduler.objects ref with specTokenIds := specTokenIds } } := by
  rw [clearSpec]
  split
  · refine ⟨(scheduler.objects ref).specTokenIds, ?_⟩
    rw [update_eq_self_iff.mpr rfl]
  · exact ⟨.own [], rfl⟩

end Scheduler

/-- Of a request only the drafts have changed, and it keeps the shared list. -/
def Untouched (before after : Request H) : Prop :=
  after = { before with specTokenIds := after.specTokenIds } /\
    (before.specTokenIds = .shared -> after.specTokenIds = .shared)

/-- What the drafts of a step depend on. -/
structure DraftView (H : Type) where
  config : SchedulerConfig H
  objects : Ref -> Request H
  running : List Ref
  placeholders : List Token
  runningReqs : List Ref
  admittedReqs : List Ref
  tokens : RequestId -> Option Int
  entries : RequestId -> Option SpecTokenIds

variable {ref victim : Ref} {numNew : Int}

namespace DraftView

variable (view : DraftView H)

def read : SpecTokenIds -> List Token
  | .shared => view.placeholders
  | .own tokenIds => tokenIds

def count : Option SpecTokenIds -> Nat
  | none => 0
  | some specTokenIds => (view.read specTokenIds).length

def numDrafts (view : DraftView H) (requestId : RequestId) : Nat :=
  view.count (view.entries requestId)

/-- While a step is put together: who is in the step and who is as before, and
that everybody has at most the allowed number of drafts.  If the shared list is
long enough when the step begins, it stays so, and a holder of the shared list
that got all it asked for has exactly the allowed number. -/
structure Drafting (first : Scheduler H) (limit : Nat) (view : DraftView H) : Prop where
  config : view.config = first.config
  ids : ∀ ref, (view.objects ref).requestId = first.idOf ref
  untouched : ∀ ref, (view.objects ref).status = .running ->
    ref ∈ view.runningReqs ++ view.admittedReqs \/ Untouched (first.objects ref) (view.objects ref)
  inRunning : view.runningReqs ++ view.admittedReqs ⊆ view.running
  distinct : view.runningReqs.Nodup
  ran : ∀ ref ∈ view.runningReqs, (first.objects ref).status = .running
  keyed : ∀ ref ∈ view.runningReqs ++ view.admittedReqs, view.tokens (first.idOf ref) ≠ none
  drafted : ∀ id, view.entries id ≠ none -> ∃ ref ∈ view.runningReqs, first.idOf ref = id
  enough : limit <= first.specTokenPlaceholders.length -> limit <= view.placeholders.length
  short : ∀ id, view.numDrafts id <= limit
  exact : limit <= first.specTokenPlaceholders.length -> ∀ ref ∈ view.runningReqs,
    (first.objects ref).specTokenIds = .shared ->
    view.tokens (first.idOf ref) = some (first.tokensAsked limit ref) ->
    view.numDrafts (first.idOf ref) = limit

variable {first : Scheduler H} {limit : Nat} {view}

/-- Cutting the shared list cuts the drafts of those who hold it. -/
theorem numDrafts_cut (view : DraftView H) (limit : Nat) (id : RequestId) :
    { view with placeholders := view.placeholders.take limit }.numDrafts id = view.numDrafts id \/
      { view with placeholders := view.placeholders.take limit }.numDrafts id =
        min limit (view.numDrafts id) := by
  rw [numDrafts, numDrafts]
  cases view.entries id with
  | none => exact Or.inl rfl
  | some entry =>
    cases entry with
    | own tokenIds => exact Or.inl rfl
    | shared => exact Or.inr length_take

theorem Drafting.cut (drafting : Drafting first limit view) :
    Drafting first limit { view with placeholders := view.placeholders.take limit } := by
  have same : ∀ id, { view with placeholders := view.placeholders.take limit }.numDrafts id =
      view.numDrafts id := by
    intro id
    rcases numDrafts_cut view limit id with same | isMin
    · exact same
    · exact isMin.trans (Nat.min_eq_right (drafting.short id))
  refine ⟨drafting.config, drafting.ids, drafting.untouched, drafting.inRunning, drafting.distinct,
    drafting.ran, drafting.keyed, drafting.drafted, ?_, ?_, ?_⟩
  · intro enough
    dsimp only
    rw [length_take]
    exact Nat.le_min.mpr ⟨Nat.le_refl limit, drafting.enough enough⟩
  · intro id
    rw [same]
    exact drafting.short id
  intro enough ref member shared asked
  rw [same]
  exact drafting.exact enough ref member shared asked

/-- An object changes that does not run, or of which only the drafts change. -/
theorem Drafting.change {request : Request H} (drafting : Drafting first limit view)
    (sameId : request.requestId = (view.objects ref).requestId)
    (allowed : request.status = .running -> ref ∈ view.runningReqs ++ view.admittedReqs \/
      Untouched (first.objects ref) request) :
    Drafting first limit { view with objects := update view.objects ref request } := by
  refine ⟨drafting.config, ?_, ?_, drafting.inRunning, drafting.distinct, drafting.ran,
    drafting.keyed, drafting.drafted, drafting.enough, drafting.short, drafting.exact⟩
  · intro other
    dsimp only
    by_cases same : other = ref
    · rw [same, update_self, sameId, drafting.ids]
    · rw [update_of_ne same, drafting.ids]
  intro other
  dsimp only
  by_cases same : other = ref
  · rw [same, update_self]
    exact allowed
  rw [update_of_ne same]
  exact drafting.untouched other

/-- What an untouched holder of the shared list asks for. -/
theorem tokensAsked_eq (enough : limit <= first.specTokenPlaceholders.length)
    (untouched : Untouched (first.objects ref) (view.objects ref))
    (shared : (first.objects ref).specTokenIds = .shared) :
    first.tokensAsked limit ref = (view.objects ref).numTokens + limit +
      (view.objects ref).numOutputPlaceholders - (view.objects ref).numComputedTokens := by
  have drafts : min limit (first.specTokenIds ref).length = limit := by
    rw [specTokenIds, shared]
    exact Nat.min_eq_left enough
  rw [tokensAsked, drafts, untouched.1]
  rfl

/-- The entry of a running request: its drafts as far as its tokens cover
them. -/
def entryFor (view : DraftView H) (ref : Ref) (numNewTokens : Int) : Option SpecTokenIds :=
  let request := view.objects ref
  let spare := numNewTokens + request.numComputedTokens - request.numTokens -
    request.numOutputPlaceholders
  if view.read request.specTokenIds = [] \/ spare <= 0 then none
  else if spare < (view.read request.specTokenIds).length then
    some (.own ((view.read request.specTokenIds).take spare.toNat))
  else some request.specTokenIds

section

variable (drafting : Drafting first limit view)
include drafting

/-- A running request gets the right number of drafts. -/
theorem Drafting.numDrafts_entryFor (untouched : Untouched (first.objects ref) (view.objects ref))
    (few : (view.read (view.objects ref).specTokenIds).length <= limit) :
    view.count (view.entryFor ref numNew) <= limit /\
    (limit <= first.specTokenPlaceholders.length -> (first.objects ref).specTokenIds = .shared ->
      numNew = first.tokensAsked limit ref -> view.count (view.entryFor ref numNew) = limit) := by
  have sharedLength (enough : limit <= first.specTokenPlaceholders.length)
      (shared : (first.objects ref).specTokenIds = .shared) :
      (view.read (view.objects ref).specTokenIds).length = limit := by
    rw [untouched.2 shared] at few ⊢
    exact few.antisymm (drafting.enough enough)
  rw [entryFor]
  split
  case isTrue nothing =>
    refine ⟨Nat.zero_le _, ?_⟩
    intro enough shared asked
    rw [tokensAsked_eq enough untouched shared] at asked
    rcases nothing with isNil | noSpare
    · rw [<- sharedLength enough shared, isNil]
      rfl
    change 0 = limit
    omega
  · split
    case isTrue less =>
      dsimp only [count, read]
      rw [length_take]
      refine ⟨by omega, ?_⟩
      intro enough shared asked
      rw [tokensAsked_eq enough untouched shared] at asked
      rw [sharedLength enough shared] at less
      omega
    · exact ⟨few, fun enough shared _ => sharedLength enough shared⟩

theorem Drafting.run (isRunning : ref ∈ view.running) (status : (view.objects ref).status = .running)
    (fresh : ref ∉ view.runningReqs ++ view.admittedReqs)
    (others : ∀ other ∈ view.running, first.idOf other = first.idOf ref -> other = ref)
    (few : (view.read (view.objects ref).specTokenIds).length <= limit) :
    Drafting first limit
      { view with
        runningReqs := view.runningReqs ++ [ref]
        tokens := update view.tokens (first.idOf ref) (some numNew)
        entries := update view.entries (first.idOf ref) (view.entryFor ref numNew) } := by
  have untouched := (drafting.untouched ref status).resolve_left fresh
  have own := @numDrafts_entryFor _ ref numNew _ _ _ drafting untouched few
  have otherId : ∀ other ∈ view.runningReqs ++ view.admittedReqs,
      first.idOf other ≠ first.idOf ref := by
    intro other member same
    exact fresh (others other (drafting.inRunning member) same ▸ member)
  have members : ∀ other, other ∈ view.runningReqs ++ [ref] ++ view.admittedReqs <->
      other ∈ view.runningReqs ++ view.admittedReqs \/ other = ref := by
    intro other
    simp only [mem_append, mem_singleton]
    tauto
  refine ⟨drafting.config, drafting.ids, ?_, ?_, ?_, ?_, ?_, ?_, drafting.enough, ?_, ?_⟩
  · intro other isStatus
    exact (drafting.untouched other isStatus).imp_left (fun inStep => (members other).mpr (Or.inl inStep))
  · intro other member
    rcases (members other).mp member with inStep | rfl
    · exact drafting.inRunning inStep
    · exact isRunning
  · rw [nodup_append]
    refine ⟨drafting.distinct, nodup_singleton ref, ?_⟩
    rintro other member last isLast rfl
    rw [mem_singleton.mp isLast] at member
    exact fresh (mem_append_left _ member)
  · intro other member
    rcases mem_append.mp member with inStep | isRef
    · exact drafting.ran other inStep
    · rw [mem_singleton.mp isRef, <- status, untouched.1]
  · intro other member
    dsimp only
    rcases (members other).mp member with inStep | rfl
    · rw [update_of_ne (otherId other inStep)]
      exact drafting.keyed other inStep
    rw [update_self]
    exact nofun
  · intro id some
    by_cases same : id = first.idOf ref
    · exact ⟨ref, mem_append_right _ (mem_singleton_self ref), same.symm⟩
    dsimp only at some
    rw [update_of_ne same] at some
    rcases drafting.drafted id some with ⟨other, member, isId⟩
    exact ⟨other, mem_append_left _ member, isId⟩
  · intro id
    rw [numDrafts]
    dsimp only
    by_cases same : id = first.idOf ref
    · rw [same, update_self]
      exact own.1
    rw [update_of_ne same]
    exact drafting.short id
  intro enough other member shared asked
  rw [numDrafts]
  dsimp only at asked ⊢
  rcases mem_append.mp member with inStep | isRef
  · have different := otherId other (mem_append_left _ inStep)
    rw [update_of_ne different] at asked ⊢
    exact drafting.exact enough other inStep shared asked
  rw [mem_singleton.mp isRef] at shared asked ⊢
  rw [update_self] at asked ⊢
  exact own.2 enough shared (Option.some.inj asked)

/-- A request leaves the running queue, and the step if it was in it. -/
theorem Drafting.leave {running runningReqs : List Ref} {tokens : RequestId -> Option Int}
    {entries : RequestId -> Option SpecTokenIds} (nothingAdmitted : view.admittedReqs = [])
    (parts : view.running.Perm (victim :: running))
    (others : ∀ other ∈ view.running, first.idOf other = first.idOf victim -> other = victim)
    (notRunning : (view.objects victim).status ≠ .running)
    (isReqs : runningReqs = view.runningReqs.erase victim)
    (sameTokens : ∀ id, id ≠ first.idOf victim -> tokens id = view.tokens id)
    (sameEntries : ∀ id, id ≠ first.idOf victim -> entries id = view.entries id)
    (noEntry : entries (first.idOf victim) = none) :
    Drafting first limit
      { view with
        running := running
        runningReqs := runningReqs
        tokens := tokens
        entries := entries } := by
  have members : ∀ ref, ref ∈ runningReqs ++ view.admittedReqs <->
      ref ≠ victim /\ ref ∈ view.runningReqs := by
    intro ref
    rw [nothingAdmitted, append_nil, isReqs]
    exact drafting.distinct.mem_erase_iff
  have inRunning : ∀ ref ∈ view.runningReqs, ref ∈ view.running := by
    intro ref member
    exact drafting.inRunning (mem_append_left _ member)
  have otherId : ∀ ref, ref ≠ victim -> ref ∈ view.runningReqs ->
      first.idOf ref ≠ first.idOf victim := by
    intro ref different member same
    exact different (others ref (inRunning ref member) same)
  refine ⟨drafting.config, drafting.ids, ?_, ?_, ?_, ?_, ?_, ?_, drafting.enough, ?_, ?_⟩
  · intro ref status
    rcases drafting.untouched ref status with inStep | same
    · refine Or.inl ((members ref).mpr ⟨?_, ?_⟩)
      · rintro rfl
        exact notRunning status
      · rwa [nothingAdmitted, append_nil] at inStep
    · exact Or.inr same
  · intro ref member
    rcases (members ref).mp member with ⟨different, inStep⟩
    exact (mem_cons.mp (parts.mem_iff.mp (inRunning ref inStep))).resolve_left different
  · rw [isReqs]
    exact drafting.distinct.erase victim
  · intro ref member
    exact drafting.ran ref ((members ref).mp (mem_append_left _ member)).2
  · intro ref member
    rcases (members ref).mp member with ⟨different, inStep⟩
    dsimp only
    rw [sameTokens _ (otherId ref different inStep)]
    exact drafting.keyed ref (mem_append_left _ inStep)
  · intro id some
    dsimp only at some
    by_cases same : id = first.idOf victim
    · rw [same, noEntry] at some
      exact absurd rfl some
    rw [sameEntries id same] at some
    rcases drafting.drafted id some with ⟨ref, member, isId⟩
    refine ⟨ref, ?_, isId⟩
    have inStep := (members ref).mpr ⟨fun isVictim => same (isId ▸ isVictim ▸ rfl), member⟩
    rwa [nothingAdmitted, append_nil] at inStep
  · intro id
    rw [numDrafts]
    dsimp only
    by_cases same : id = first.idOf victim
    · rw [same, noEntry]
      exact Nat.zero_le _
    rw [sameEntries id same]
    exact drafting.short id
  intro enough ref member shared asked
  rcases (members ref).mp (mem_append_left _ member) with ⟨different, inStep⟩
  have differentId := otherId ref different inStep
  rw [numDrafts]
  dsimp only at asked ⊢
  rw [sameTokens _ differentId] at asked
  rw [sameEntries _ differentId]
  exact drafting.exact enough ref inStep shared asked

theorem Drafting.enter {admittedReqs : List Ref}
    (others : ∀ other ∈ view.running, first.idOf other ≠ first.idOf ref)
    (members : ∀ other, other ∈ admittedReqs <-> other ∈ view.admittedReqs \/ other = ref) :
    Drafting first limit
      { view with
        running := view.running ++ [ref]
        admittedReqs := admittedReqs
        tokens := update view.tokens (first.idOf ref) (some numNew) } := by
  have inStep : ∀ other, other ∈ view.runningReqs ++ admittedReqs <->
      other ∈ view.runningReqs ++ view.admittedReqs \/ other = ref := by
    intro other
    simp only [mem_append, members]
    tauto
  refine ⟨drafting.config, drafting.ids, ?_, ?_, drafting.distinct, drafting.ran, ?_,
    drafting.drafted, drafting.enough, drafting.short, ?_⟩
  · intro other status
    exact (drafting.untouched other status).imp_left (fun before => (inStep other).mpr (Or.inl before))
  · intro other member
    rcases (inStep other).mp member with before | rfl
    · exact mem_append_left _ (drafting.inRunning before)
    · exact mem_append_right _ (mem_singleton_self _)
  · intro other member
    dsimp only
    rcases (inStep other).mp member with before | rfl
    · rw [update_of_ne (others other (drafting.inRunning before))]
      exact drafting.keyed other before
    rw [update_self]
    exact nofun
  · intro enough other member shared asked
    have different := others other (drafting.inRunning (mem_append_left _ member))
    dsimp only at asked
    rw [update_of_ne different] at asked
    exact drafting.exact enough other member shared asked

end

end DraftView

theorem get?_set_eq_update {K V : Type} [DecidableEq K] (dict : Dict K V) (key : K) (value : V) :
    (dict.set key value).get? = update dict.get? key (some value) := by
  funext other
  rw [Dict.get?_set, update_apply]

namespace SchedulePass

open DraftView (Drafting)

variable {pass after : SchedulePass H} {first : Scheduler H} {limit : Nat}

def draftView (pass : SchedulePass H) : DraftView H where
  config := pass.scheduler.config
  objects := pass.scheduler.objects
  running := pass.scheduler.running
  placeholders := pass.scheduler.specTokenPlaceholders
  runningReqs := pass.scheduledRunningReqs
  admittedReqs := pass.scheduledNewReqs ++ pass.scheduledResumedReqs
  tokens := pass.numScheduledTokens.get?
  entries := pass.scheduledSpecDecodeTokens.get?

section

variable (drafting : Drafting first limit pass.draftView)
include drafting

theorem eq_of_idOf (sound : pass.census.Sound) (registered : pass.census.Registered ref) :
    ∀ other ∈ pass.scheduler.running, first.idOf other = first.idOf ref -> other = ref := by
  intro other member same
  have known : pass.census.Registered other := (member_runs member sound).1
  have sameId : pass.census.requestId other = pass.census.requestId ref :=
    (drafting.ids other).trans (same.trans (drafting.ids ref).symm)
  rw [Census.Registered, sameId, registered] at known
  exact (Option.some.inj known).symm

theorem noEntry_of_absent (sound : pass.census.Sound) (registered : pass.census.Registered ref)
    (absent : ref ∉ pass.scheduledRunningReqs) :
    pass.scheduledSpecDecodeTokens.get? (first.idOf ref) = none := by
  by_contra some
  rcases drafting.drafted _ some with ⟨other, inStep, same⟩
  have inRunning := drafting.inRunning (mem_append_left _ inStep)
  exact absent (eq_of_idOf drafting sound registered other inRunning same ▸ inStep)

theorem truncateSpec_drafting :
    Drafting first limit (pass.withScheduler (pass.scheduler.truncateSpec ref limit)).draftView := by
  rw [withScheduler, truncateSpec]
  split
  · exact drafting.cut
  case h_2 tokenIds isOwn =>
    refine drafting.change rfl ?_
    intro status
    rcases drafting.untouched ref status with inStep | ⟨same, shared⟩
    · exact Or.inl inStep
    refine Or.inr ⟨?_, ?_⟩
    · rw [show pass.scheduler.objects ref = _ from same]
    intro isShared
    rw [show (pass.scheduler.objects ref).specTokenIds = _ from shared isShared] at isOwn
    cases isOwn

theorem preemptOne_drafting (sound : pass.census.Sound) (nothing : pass.draftView.admittedReqs = [])
    (apart : pass.scheduler.config.policy = .fcfs -> victim ∉ pass.scheduledRunningReqs)
    (preempted : pass.preemptOne = .ok (victim, after)) :
    Drafting first limit after.draftView := by
  rcases preemptOne_eq_ok preempted with ⟨_, _, taken, preemption, rfl⟩
  rcases takeVictim_eq_ok taken with ⟨_, parts, outcome⟩
  rcases preemptRequest_eq_ok preemption with ⟨_, _, _, rfl⟩
  have member : victim ∈ pass.scheduler.running := parts.mem_iff.mpr mem_cons_self
  have registered := (member_runs member sound).1
  have others := eq_of_idOf drafting sound registered
  have isId : (pass.scheduler.objects victim).requestId = first.idOf victim := drafting.ids victim
  have marked : Drafting first limit { pass.draftView with
      objects := update pass.scheduler.objects victim
        (pass.scheduler.preemptedRequest victim) } := drafting.change rfl nofun
  have stopped : (update pass.scheduler.objects victim
      (pass.scheduler.preemptedRequest victim) victim).status ≠ .running := by
    rw [update_self]
    exact nofun
  rcases outcome with ⟨late, rfl⟩ | ⟨_, _, rfl⟩
  · have absent : victim ∉ pass.scheduledRunningReqs := fun inStep => apart (late inStep) inStep
    have noEntry := noEntry_of_absent drafting sound registered absent
    exact marked.leave nothing parts others stopped (erase_of_not_mem absent).symm
      (fun _ _ => rfl) (fun _ _ => rfl) noEntry
  refine marked.leave nothing parts others stopped rfl ?_ ?_ ?_ <;> rw [<- isId]
  · exact fun _ different => Dict.get?_erase_of_ne _ different
  · exact fun _ different => Dict.get?_erase_of_ne _ different
  · exact Dict.get?_erase_self _ _

end

theorem scheduleSpec_entries (pass : SchedulePass H) (numNew : Int)
    (noEntry : pass.scheduledSpecDecodeTokens.get? (pass.request ref).requestId = none) :
    (pass.scheduleSpec ref numNew).scheduledSpecDecodeTokens.get? =
      update pass.scheduledSpecDecodeTokens.get? (pass.request ref).requestId
        (pass.draftView.entryFor ref numNew) := by
  have unchanged : update pass.scheduledSpecDecodeTokens.get? (pass.request ref).requestId
      none = pass.scheduledSpecDecodeTokens.get? := update_eq_self_iff.mpr noEntry.symm
  rw [scheduleSpec]
  split
  case isTrue isNil =>
    rw [show pass.draftView.entryFor ref numNew = none from if_pos (Or.inl isNil), unchanged]
  case isFalse notNil =>
    dsimp only
    split
    case isTrue positive =>
      refine (get?_set_eq_update _ _ _).trans (congrArg _ ?_)
      refine Eq.trans ?_ (if_neg (not_or.mpr ⟨notNil, Int.not_le.mpr positive⟩)).symm
      split
      case isTrue less => exact (if_pos less).symm
      case isFalse enough => exact (if_neg enough).symm
    case isFalse notPositive =>
      have nothing : pass.draftView.entryFor ref numNew = none :=
        if_pos (Or.inr (Int.not_lt.mp notPositive))
      rw [nothing, unchanged]
      rfl

variable [DecidableEq H] {env : ScheduleEnv} {phase : PassPhase}

theorem run_drafting {blocks : List (List BlockId)} {plan : EncoderPlan} {scheduler : Scheduler H}
    (drafting : Drafting first limit pass.draftView) (sound : pass.census.Sound)
    (nothing : pass.draftView.admittedReqs = [])
    (runs : Runs limit pass ref numNew blocks plan scheduler after) :
    Drafting first limit after.draftView := by
  rcases member_runs runs.isRunning sound with ⟨registered, status, _, _⟩
  have fresh : ref ∉ pass.draftView.runningReqs ++ pass.draftView.admittedReqs := by
    rw [nothing, append_nil]
    exact runs.fresh
  have others := eq_of_idOf drafting sound registered
  have isId : (pass.scheduler.objects ref).requestId = first.idOf ref := drafting.ids ref
  have entered := @Drafting.run _ ref numNew _ _ _ drafting runs.isRunning status fresh
    others runs.short
  have noEntry := noEntry_of_absent drafting sound registered runs.fresh
  rcases allocateSlots_eq_ok runs.allocated with ⟨_, _, manager, _, _, _, rfl⟩
  rcases commitRunning_eq_ok runs.committed with ⟨_, _, _, rfl⟩
  have isEntries := scheduleSpec_entries (pass.withScheduler
    { pass.scheduler with kvCacheManager := manager }) numNew (isId ▸ noEntry)
  have isTokens := get?_set_eq_update pass.numScheduledTokens (first.idOf ref) numNew
  rcases clearSpec_eq { pass.scheduler with kvCacheManager := manager } ref with
    ⟨_, isCleared⟩
  simp only [withScheduler, request, isId] at isEntries
  simp only [draftView, withScheduler, request, isId, isEntries, isTokens, isCleared]
  refine entered.change isId.symm (fun _ => Or.inl ?_)
  exact mem_append_left _ (mem_append_right _ (mem_singleton_self ref))

theorem PassStep.drafting (step : PassStep env limit phase pass after) (sound : pass.census.Sound)
    (nothing : phase = .running -> pass.draftView.admittedReqs = [])
    (drafting : Drafting first limit pass.draftView) : Drafting first limit after.draftView := by
  cases step with
  | truncate ref isRunning => exact truncateSpec_drafting drafting
  | passOver => exact drafting
  | plan ref numComputedTokens numNew plan planned =>
    rcases planEncoder_eq_ok planned with ⟨_, rfl⟩
    exact drafting
  | refuse ref args refused =>
    rcases allocateSlots_eq_ok refused with ⟨_, _, _, _, _, _, rfl⟩
    exact drafting
  | preempt victim apart preempted =>
    exact preemptOne_drafting drafting sound (nothing rfl) apart preempted
  | run ref numNew blocks plan runs =>
    exact run_drafting drafting sound (nothing rfl) runs
  | loras recorded =>
    rcases recordLoras_eq_ok recorded with ⟨_, rfl⟩
    exact drafting
  | @promote pass scheduler isPromoted name ref front tried =>
    have waits := front_waits front sound
    rcases tryPromote_eq_ok tried with ⟨_, _, _, status, _, _, promoted, unpromoted, rfl⟩
    refine drafting.change rfl ?_
    intro isRunning
    have isRunning : status = .running := isRunning
    cases isPromoted with
    | true => rcases (promoted rfl).1 with same | same <;> cases same.symm.trans isRunning
    | false => exact absurd ((unpromoted rfl).symm.trans isRunning) waits.2.2.1
  | skip name skipped =>
    rcases andThen_eq_ok skipped with ⟨⟨_, _⟩, popped, rest⟩
    cases rest
    rcases popFrom_eq_ok popped with ⟨_, _, _, rfl⟩
    cases name <;> exact drafting
  | untouch name ref front =>
    rw [untouchEncoder]
    split <;> exact drafting
  | load name ref computed numNew plan blocks loads leaves =>
    rcases allocateSlots_eq_ok leaves.allocated with ⟨_, _, _, _, _, _, isScheduler⟩
    rcases popFrom_eq_ok leaves.popped with ⟨_, _, _, isMiddle⟩
    have loading : Drafting first limit { pass.draftView with
        objects := update pass.scheduler.objects ref
          { pass.scheduler.objects ref with
            status := .waitingForRemoteKvs
            numComputedTokens := computed.numComputedTokens } } :=
      drafting.change rfl fun given => by cases given
    rw [isMiddle, isScheduler]
    cases name <;>
      (simp only [draftView, startLoading, setAside, withScheduler, Scheduler.modify,
        update_idem, update_self]
       exact loading)
  | @enter _ middle _ scheduler name ref computed numNew plan blocks enters =>
    have waits := Scheduler.front_waits enters.front sound
    have others : ∀ other ∈ pass.scheduler.running, first.idOf other ≠ first.idOf ref := by
      intro other member same
      rw [eq_of_idOf drafting sound waits.1 other member same] at member
      exact count_eq_zero.mp waits.2.2.2.1 member
    have isId : (pass.scheduler.objects ref).requestId = first.idOf ref := drafting.ids ref
    rcases allocateSlots_eq_ok enters.allocated with ⟨_, _, _, _, _, _, isScheduler⟩
    rcases popFrom_eq_ok enters.popped with ⟨_, _, _, isMiddle⟩
    rcases admitRequest_eq_ok enters.entered with
      ⟨newReqs, resumedReqs, _, _, _, _, outcome, rfl⟩
    have sameReqs : middle.scheduledNewReqs = pass.scheduledNewReqs /\
        middle.scheduledResumedReqs = pass.scheduledResumedReqs := by
      rw [isMiddle]
      exact ⟨rfl, rfl⟩
    have members : ∀ other, other ∈ newReqs ++ resumedReqs <->
        other ∈ pass.scheduledNewReqs ++ pass.scheduledResumedReqs \/ other = ref := by
      intro other
      rw [sameReqs.1, sameReqs.2] at outcome
      rcases outcome with ⟨_, rfl, rfl⟩ | ⟨_, rfl, rfl⟩ <;>
        (simp only [mem_append, mem_singleton]; tauto)
    have isTokens := get?_set_eq_update pass.numScheduledTokens (first.idOf ref) numNew
    have joined := @Drafting.enter _ ref numNew _ _ _ drafting _ others members
    rw [isMiddle, isScheduler]
    cases name <;>
      (simp only [draftView, withScheduler, request, setQueue, isId, isTokens]
       refine joined.change isId.symm (fun _ => Or.inl ?_)
       exact mem_append_right _ ((members ref).mpr (Or.inr rfl)))

theorem PassSteps.drafting (steps : PassSteps env limit phase pass after)
    (sound : pass.census.Sound)
    (nothing : phase = .running -> pass.draftView.admittedReqs = [])
    (drafting : Drafting first limit pass.draftView) : Drafting first limit after.draftView := by
  induction steps with
  | refl => exact drafting
  | tail before step ih =>
    refine step.drafting (PassSteps.sound before sound) ?_ ih
    rintro rfl
    exact (congrArg (fun admissions => admissions.2.1 ++ admissions.2.2)
      (admits_nothing before)).trans (nothing rfl)

/-- The number of drafts that a step has for a request. -/
def numDrafts (pass : SchedulePass H) (requestId : RequestId) : Nat :=
  match pass.scheduledSpecDecodeTokens.get? requestId with
  | none => 0
  | some specTokenIds => (pass.scheduler.readSpec specTokenIds).length

omit [DecidableEq H] in
theorem numDrafts_draftView (pass : SchedulePass H) (requestId : RequestId) :
    pass.draftView.numDrafts requestId = pass.numDrafts requestId := by
  rw [DraftView.numDrafts, numDrafts]
  dsimp only [draftView]
  cases pass.scheduledSpecDecodeTokens.get? requestId with
  | none => rfl
  | some specTokenIds => cases specTokenIds <;> rfl

end SchedulePass

/-- If the request runs and is past its prefill, it has the shared list. -/
def Request.HoldsPlaceholders (request : Request H) : Prop :=
  request.status = .running -> request.isPrefillChunk = false -> request.specTokenIds = .shared

variable {config : SchedulerConfig H}

theorem RequestStep.holdsPlaceholders {request after : Request H}
    (step : RequestStep config request after) (holds : request.HoldsPlaceholders) :
    after.HoldsPlaceholders := by
  cases step with
  | create args =>
    intro running
    rcases requestInit_status config.blockHasher args with status | status <;>
      (rw [status] at running; cases running)
  | queue updates => exact holds
  | compute numComputedTokens => exact holds
  | absorb drafts modelOutput requestId =>
    rcases observedRequest_eq with
      ⟨_, _, isObserved⟩
    have spec := absorbed_spec config modelOutput requestId
      (observedRequest drafts (modelOutput.sampledTokenIds requestId) request)
    rw [isObserved] at spec ⊢
    intro running pastPrefill
    rw [spec.specTokenIds]
    rw [spec.isPrefillChunk] at pastPrefill
    refine holds ?_ pastPrefill
    cases stopped : (absorbed config modelOutput requestId _).1.2 with
    | false => exact (spec.status stopped).symm.trans running
    | true =>
      have finished := spec.finished stopped
      rw [running] at finished
      cases finished
  | finish status finished =>
    intro running
    rw [show status = .running from running] at finished
    cases finished
  | discard => exact holds
  | resume promptTokenIds update => exact nofun
  | await => exact nofun
  | preempt specTokenIds => exact nofun

theorem RequestSteps.holdsPlaceholders {request after : Request H}
    (steps : RequestSteps config request after) (holds : request.HoldsPlaceholders) :
    after.HoldsPlaceholders := by
  induction steps with
  | refl => exact holds
  | tail _ step ih => exact step.holdsPlaceholders ih

namespace Scheduler

/-- Requests that run and are past their prefill hold the shared list. -/
def HoldsPlaceholders (scheduler : Scheduler H) : Prop :=
  ∀ ref, (scheduler.objects ref).HoldsPlaceholders

variable {scheduler after : Scheduler H}

/-- The requests that the entries of a step name are changed, and no others. -/
theorem forScheduled_eq_ok {change : RequestId -> Int -> Request H -> Request H}
    {entries : List (RequestId × Int)} (returned : forScheduled change entries scheduler = .ok after) :
    after = { scheduler with objects := after.objects } /\ ∀ ref,
      ((∃ entry ∈ entries, scheduler.requests.get? entry.1 = some ref) ->
        ∃ id numTokens request, after.objects ref = change id numTokens request) /\
      ((∀ entry ∈ entries, scheduler.requests.get? entry.1 ≠ some ref) ->
        after.objects ref = scheduler.objects ref) := by
  induction entries generalizing scheduler with
  | nil =>
    cases returned
    refine ⟨rfl, fun ref => ⟨?_, fun _ => rfl⟩⟩
    rintro ⟨_, member, _⟩
    cases member
  | cons entry rest ih =>
    rw [forScheduled] at returned
    split at returned
    · cases returned
    case h_2 changed found =>
      rcases ih returned with ⟨same, effect⟩
      refine ⟨same, fun ref => ⟨?_, ?_⟩⟩
      · rintro ⟨other, member, isRef⟩
        by_cases again : ∃ entry ∈ rest, scheduler.requests.get? entry.1 = some ref
        · exact (effect ref).1 again
        have untouched := (effect ref).2 (fun entry inRest isRef => again ⟨entry, inRest, isRef⟩)
        rcases mem_cons.mp member with rfl | inRest
        · rw [show scheduler.requests.get? _ = _ from found] at isRef
          cases isRef
          exact ⟨_, _, _, untouched.trans (objects_modify_self _ _)⟩
        · exact absurd ⟨other, inRest, isRef⟩ again
      intro unnamed
      rw [(effect ref).2 (fun entry inRest => unnamed entry (mem_cons_of_mem _ inRest))]
      apply objects_modify_of_ne
      rintro rfl
      exact unnamed _ mem_cons_self found

variable [DecidableEq H] {env : ScheduleEnv} {limit : Nat} {output : SchedulerOutput}

/-- What is known of the drafts when the requests of a step are chosen. -/
theorem schedulePass_drafting {pass : SchedulePass H} (sound : (scheduler.census []).Sound)
    (returned : scheduler.schedulePass env = .ok pass) :
    DraftView.Drafting scheduler scheduler.activeNumSpecTokens pass.draftView := by
  rcases schedulePass_eq_ok (running_nodup sound) returned with ⟨_, _, runs, admits, _, rfl⟩
  have first : DraftView.Drafting scheduler scheduler.activeNumSpecTokens
      (start scheduler).draftView := by
    refine ⟨rfl, fun _ => rfl, fun ref _ => Or.inr ⟨rfl, id⟩, nil_subset _, nodup_nil,
      ?_, ?_, ?_, id, fun _ => Nat.zero_le _, ?_⟩
    · exact fun ref member => absurd member not_mem_nil
    · exact fun ref member => absurd member not_mem_nil
    · exact fun id some => absurd rfl some
    · exact fun _ ref member => absurd member not_mem_nil
  have ranDrafting := drafting runs sound (fun _ => rfl) first
  have admittedDrafting := drafting admits (PassSteps.sound runs sound) nofun ranDrafting
  exact admittedDrafting

/-- A step hands the shared list to the requests whose prefill it completes, and
the others keep it. -/
theorem schedule_holdsPlaceholders (isAsync : scheduler.config.asyncScheduling = true)
    (sound : (scheduler.census []).Sound) (holds : scheduler.HoldsPlaceholders)
    (returned : scheduler.schedule env = .ok (output, after)) :
    after.config = scheduler.config /\ after.HoldsPlaceholders := by
  rw [schedule_eq] at returned
  rcases andThen_eq_ok returned with ⟨pass, chosen, rest⟩
  rcases andThen_eq_ok rest with ⟨_, _, rest⟩
  rcases andThen_eq_ok rest with ⟨⟨_, _⟩, makes, rest⟩
  rcases andThen_eq_ok rest with ⟨_, updates, rest⟩
  cases rest
  have drafting := schedulePass_drafting sound chosen
  have passSound := schedulePass_sound chosen sound
  rcases andThen_eq_ok makes with ⟨_, _, rest⟩
  rcases andThen_eq_ok rest with ⟨_, _, rest⟩
  cases rest
  rcases andThen_eq_ok updates with ⟨advanced, advances, expects⟩
  rcases forScheduled_eq_ok advances with ⟨isAdvanced, advanceEffect⟩
  have sameConfig : advanced.config = scheduler.config := by
    rw [isAdvanced]
    exact drafting.config
  have sameRequests : advanced.requests = pass.scheduler.requests := by rw [isAdvanced]
  rw [sameConfig, if_pos isAsync] at expects
  rcases forScheduled_eq_ok expects with ⟨isAfter, expectEffect⟩
  rw [sameRequests] at expectEffect
  refine ⟨?_, fun ref status pastPrefill => ?_⟩
  · rw [isAfter]
  by_cases named : ∃ entry ∈ pass.numScheduledTokens.entries,
      pass.scheduler.requests.get? entry.1 = some ref
  · rcases (expectEffect ref).1 named with ⟨_, _, _, isAfter⟩
    rw [isAfter, expectOutput] at pastPrefill ⊢
    split
    case isTrue isPrefill =>
      rw [if_pos isPrefill, isPrefill] at pastPrefill
      cases pastPrefill
    · rfl
  have unnamed : ∀ entry ∈ pass.numScheduledTokens.entries,
      pass.scheduler.requests.get? entry.1 ≠ some ref :=
    fun entry member isRef => named ⟨entry, member, isRef⟩
  have same : after.objects ref = pass.scheduler.objects ref :=
    ((expectEffect ref).2 unnamed).trans ((advanceEffect ref).2 unnamed)
  rw [same] at status pastPrefill ⊢
  rcases drafting.untouched ref status with inStep | ⟨isSame, shared⟩
  · have registered := (member_runs (drafting.inRunning inStep) passSound).1
    have isId : (pass.scheduler.objects ref).requestId = scheduler.idOf ref := drafting.ids ref
    rcases Option.ne_none_iff_exists'.mp (drafting.keyed ref inStep) with ⟨numTokens, found⟩
    rcases mem_map.mp ((Dict.mem_keys_iff _ _).mpr ⟨numTokens, found⟩) with
      ⟨entry, member, isKey⟩
    refine absurd ?_ (unnamed entry member)
    rw [isKey, <- isId]
    exact registered
  have isSame : pass.scheduler.objects ref = _ := isSame
  rw [isSame] at status pastPrefill
  exact shared (holds ref status pastPrefill)

end Scheduler

namespace Engine

variable (engine : Engine H)

/-- A call of `schedule` finds as many placeholders as the controller allows
drafts, and drafts come from the scheduler only. -/
def PlaceholdersSuffice : EngineOp -> Prop
  | .schedule _ =>
    engine.scheduler.activeNumSpecTokens <= engine.scheduler.specTokenPlaceholders.length
  | .updateDraftTokenIds _ => False
  | _ => True

instance : (op : EngineOp) -> Decidable (engine.PlaceholdersSuffice op)
  | .schedule _ => inferInstanceAs (Decidable (_ <= _))
  | .updateDraftTokenIds _ => .isFalse id
  | .addRequest _ _ | .updateFromOutput _ _ | .finishRequests _ _ _ | .resetPrefixCache _
  | .updateDraftTokenIdsInOutput _ | .resetEncoderCache | .setPauseState _ => .isTrue trivial

variable [DecidableEq H]

/-- The condition on calls: late stops find their requests, and the shared list is
long enough. -/
def DraftsFit (engine : Engine H) (op : EngineOp) : Prop :=
  engine.LateStopsFit op /\ engine.PlaceholdersSuffice op

instance (engine : Engine H) (op : EngineOp) : Decidable (engine.DraftsFit op) :=
  inferInstanceAs (Decidable (_ /\ _))

/-- What holds in every state of a run of such calls. -/
structure SharesDrafts (setup : Setup H) (engine : Engine H) : Prop where
  config : engine.scheduler.config = setup.config
  sound : (engine.scheduler.census []).Sound
  holds : engine.scheduler.HoldsPlaceholders

omit [DecidableEq H] in
theorem start_sharesDrafts {setup : Setup H} {engine : Engine H}
    (started : start setup = .ok engine) : SharesDrafts setup engine := by
  refine ⟨?_, start_sound started, ?_⟩
  · rcases andThen_eq_ok started with ⟨_, _, rest⟩
    cases rest
    rfl
  rcases andThen_eq_ok started with ⟨_, _, rest⟩
  cases rest
  exact fun _ => nofun

theorem SharesDrafts.next {setup : Setup H} {engine after : Engine H} {op : EngineOp}
    (isAsync : setup.config.asyncScheduling = true) (shares : SharesDrafts setup engine)
    (fits : engine.DraftsFit op) (stepped : engine.next op = .ok after) :
    SharesDrafts setup after := by
  rcases fits with ⟨lateStops, enough⟩
  have sound := next_sound lateStops stepped shares.sound
  have plain : IsPlainCall op -> SharesDrafts setup after := by
    intro isPlain
    have changes := next_changes isPlain stepped
    exact ⟨changes.config.trans shares.config, sound,
      fun ref => (changes.objects ref).holdsPlaceholders (shares.holds ref)⟩
  cases op with
  | schedule env =>
    rcases andThen_eq_ok stepped with ⟨_, scheduling, rest⟩
    cases rest
    have async : engine.scheduler.config.asyncScheduling = true := by rw [shares.config, isAsync]
    rcases schedule_holdsPlaceholders async shares.sound shares.holds scheduling
      with ⟨config, holds⟩
    exact ⟨config.trans shares.config, sound, holds⟩
  | updateDraftTokenIds drafts => exact enough.elim
  | addRequest | updateFromOutput | finishRequests | resetPrefixCache
  | updateDraftTokenIdsInOutput | resetEncoderCache | setPauseState => exact plain trivial

/-- In every run of the asynchronous scheduler in which each call of `schedule`
finds as many placeholders as the controller allows drafts, no request has more
drafts in a step than allowed, and a running request past its prefill that gets
all the tokens it asks for has exactly the allowed number. -/
theorem drafts_follow_active_k (setup : Setup H) (isAsync : setup.config.asyncScheduling = true)
    {engine : Engine H} (reachable : ((system setup).restrict DraftsFit).Reachable engine)
    {env : ScheduleEnv} (fits : engine.DraftsFit (.schedule env)) {pass : SchedulePass H}
    (scheduled : engine.scheduler.schedulePass env = .ok pass) :
    (∀ requestId, pass.numDrafts requestId <= engine.scheduler.activeNumSpecTokens) /\
    ∀ ref ∈ pass.scheduledRunningReqs, (engine.scheduler.objects ref).isPrefillChunk = false ->
      pass.numScheduledTokens.get? (engine.scheduler.objects ref).requestId =
        some (engine.scheduler.tokensAsked engine.scheduler.activeNumSpecTokens ref) ->
      pass.numDrafts (engine.scheduler.objects ref).requestId =
        engine.scheduler.activeNumSpecTokens := by
  have shares : SharesDrafts setup engine := by
    refine System.Reachable.invariant (SharesDrafts setup) ?_ ?_ reachable
    · intro engine started
      exact start_sharesDrafts started
    intro engine op after _ shares step
    exact shares.next isAsync step.1 step.2
  have drafting := schedulePass_drafting shares.sound scheduled
  constructor
  · intro requestId
    rw [<- numDrafts_draftView]
    exact drafting.short requestId
  intro ref member pastPrefill asked
  rw [<- numDrafts_draftView]
  exact drafting.exact fits.2 ref member (shares.holds ref (drafting.ran ref member) pastPrefill) asked

def draftSetup : Setup Nat :=
  { smallSetup 20 with
    config :=
      { smallConfig with
        maxNumScheduledTokens := 32, maxModelLen := 160, numSpecTokens := some 16
        cacheBlockSize := 16, blockSize := 16 }
    kvCacheConfig := .noPrefixCache [⟨⟨16, KVCache.zero_lt_sixteen, .fullAttention, 0⟩, false⟩] 16 }

/-- A request is added, and each step returns some number of tokens for it. -/
def draftOps (numTokens : List Nat) : List EngineOp :=
  .addRequest quietConnector { smallRequest "a" [1, 2, 3] false with maxTokens := 120 } ::
    numTokens.flatMap (fun count =>
      [.schedule quietSchedule, .updateFromOutput quietConnector (sampled [("a", .replicate count 7)])])

variable (engine : Engine Nat) (pass : SchedulePass Nat)

/-- The controller allows sixteen drafts, and the request is past its prefill and
gets all the tokens it asks for. -/
def AsksForSixteen : Prop :=
  engine.scheduler.activeNumSpecTokens = 16 /\
    (engine.scheduler.objects 0).isPrefillChunk = false /\ 0 ∈ pass.scheduledRunningReqs /\
    pass.numScheduledTokens.get? (engine.scheduler.objects 0).requestId =
      some (engine.scheduler.tokensAsked engine.scheduler.activeNumSpecTokens 0)

instance : Decidable (AsksForSixteen engine pass) :=
  inferInstanceAs (Decidable (_ /\ _))

theorem exists_pass {ran : Option (Engine Nat)} {property : Engine Nat -> SchedulePass Nat -> Prop}
    [∀ engine pass, Decidable (property engine pass)] (isTrue : ran.any (fun engine =>
      match engine.scheduler.schedulePass quietSchedule with
      | .error _ => false
      | .ok pass => decide (property engine pass)) = true) :
    ∃ engine pass, ran = some engine /\
      engine.scheduler.schedulePass quietSchedule = .ok pass /\ property engine pass := by
  cases ran with
  | none => cases isTrue
  | some engine =>
    rw [Option.any_some] at isTrue
    split at isTrue
    · cases isTrue
    case h_2 pass scheduled => exact ⟨engine, pass, rfl, scheduled, of_decide_eq_true isTrue⟩

theorem drafts_follow_active_k_sixteen :
    ∃ engine pass, runWhere DraftsFit draftSetup (draftOps [1]) = some engine /\
      engine.scheduler.schedulePass quietSchedule = .ok pass /\ AsksForSixteen engine pass /\
      pass.numDrafts (engine.scheduler.objects 0).requestId = 16 := by
  rcases @exists_pass (runWhere DraftsFit draftSetup (draftOps [1]))
    (fun engine pass => engine.DraftsFit (.schedule quietSchedule) /\ AsksForSixteen engine pass) _
    (by decide +kernel) with ⟨engine, pass, isEngine, scheduled, fits, asks⟩
  have ⟨isSixteen, pastPrefill, running, asked⟩ := asks
  have drafts := drafts_follow_active_k draftSetup rfl (reachable_runWhere isEngine) fits scheduled
  refine ⟨engine, pass, isEngine, scheduled, asks, ?_⟩
  rw [drafts.2 0 running pastPrefill asked, isSixteen]

/-- Eight steps in which no draft is accepted lower the limit to fourteen, and ten
steps in which half of them are accepted raise it to sixteen again.  The request
gets fourteen drafts. -/
theorem risen_limit_not_followed :
    ∃ engine pass, (system draftSetup).Reachable engine /\
      engine.scheduler.schedulePass quietSchedule = .ok pass /\ AsksForSixteen engine pass /\
      pass.numDrafts (engine.scheduler.objects 0).requestId = 14 := by
  rcases @exists_pass
    (runFrom draftSetup (draftOps ([1] ++ .replicate 8 1 ++ .replicate 10 8)))
    (fun engine pass => AsksForSixteen engine pass /\
      pass.numDrafts (engine.scheduler.objects 0).requestId = 14) _ (by decide +kernel) with
    ⟨engine, pass, isEngine, scheduled, asks, fourteen⟩
  exact ⟨engine, pass, reachable_runFrom isEngine, scheduled, asks, fourteen⟩

/-- In every run in which late stops find their requests where the clean-up
expects them, each request of a step runs and has a number of tokens, and drafts
are those of running requests of the step, also when preemptions took requests
out of the step again. -/
theorem step_entries_agree {H : Type} [DecidableEq H] (setup : Setup H) {engine : Engine H}
    (reachable : ((system setup).restrict LateStopsFit).Reachable engine) {env : ScheduleEnv}
    {pass : SchedulePass H} (scheduled : engine.scheduler.schedulePass env = .ok pass) :
    (∀ ref ∈ pass.scheduledReqs, ref ∈ pass.scheduler.running /\
        pass.numScheduledTokens.get? (pass.request ref).requestId ≠ none) /\
      ∀ requestId, pass.scheduledSpecDecodeTokens.get? requestId ≠ none ->
        ∃ ref ∈ pass.scheduledRunningReqs, (pass.request ref).requestId = requestId := by
  have sound : (engine.scheduler.census []).Sound := by
    refine reachable.invariant (fun engine => (engine.scheduler.census []).Sound) ?_ ?_
    · exact fun engine started => start_sound started
    · exact fun engine op after _ sound step => next_sound step.1 step.2 sound
  have drafting := schedulePass_drafting sound scheduled
  constructor
  · intro ref member
    rw [SchedulePass.scheduledReqs, append_assoc] at member
    refine ⟨drafting.inRunning member, ?_⟩
    rw [show (pass.request ref).requestId = engine.scheduler.idOf ref from drafting.ids ref]
    exact drafting.keyed ref member
  intro requestId drafted
  rcases drafting.drafted requestId drafted with ⟨ref, member, same⟩
  exact ⟨ref, member, (drafting.ids ref).trans same⟩

/-- A request is past its prefill when a second one is added. -/
def joiningOps : List EngineOp :=
  draftOps [1] ++ [.addRequest quietConnector (smallRequest "b" [4, 5] false)]

theorem step_entries_agree_joining :
    ∃ engine pass, runWhere LateStopsFit draftSetup joiningOps = some engine /\
      engine.scheduler.schedulePass quietSchedule = .ok pass /\
      pass.scheduledRunningReqs = [0] /\ pass.scheduledNewReqs = [1] /\
      (0 ∈ pass.scheduler.running /\ 1 ∈ pass.scheduler.running) /\
      pass.scheduledSpecDecodeTokens.get? "a" ≠ none /\ (pass.request 0).requestId = "a" := by
  rcases @exists_pass (runWhere LateStopsFit draftSetup joiningOps)
    (fun _ pass => pass.scheduledRunningReqs = [0] /\ pass.scheduledNewReqs = [1] /\
      pass.scheduledSpecDecodeTokens.get? "a" ≠ none) _
    (by decide +kernel) with ⟨engine, pass, isEngine, scheduled, runs, joins, drafted⟩
  have agree := step_entries_agree draftSetup (reachable_runWhere isEngine) scheduled
  have members : pass.scheduledReqs = [0] ++ [1] ++ pass.scheduledResumedReqs := by
    rw [SchedulePass.scheduledReqs, runs, joins]
  have first := agree.1 0 (members ▸ mem_cons_self)
  have second := agree.1 1 (members ▸ mem_cons_of_mem _ mem_cons_self)
  refine ⟨engine, pass, isEngine, scheduled, runs, joins, ⟨first.1, second.1⟩, drafted, ?_⟩
  rcases agree.2 "a" drafted with ⟨ref, member, isId⟩
  rw [runs, mem_singleton] at member
  exact member ▸ isId

end Engine

end Vllm.Sched
