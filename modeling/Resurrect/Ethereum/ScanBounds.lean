import Resurrect.Ethereum.ScanLogs

/-! # The scan against any provider

The search and the chunk loop as machines over unbounded numbers, moved by the
answers alone. A scan asks what they say, whatever it is answered: so it stays
inside the window, its words never wrap, and it comes to an end.
-/

namespace Resurrect.Ethereum

open Resurrect.Core Interaction Word64

variable {history trace : List (Event RegistryProvider)} {target : ProviderQuery}

/-- What a bisection has left to halve. -/
structure SearchState where
  low : Nat
  high : Nat
  deriving DecidableEq, Repr

namespace SearchState

def middle (state : SearchState) : Nat := state.low + (state.high - state.low) / 2

def advance (cutoff : Nat) (state : SearchState) : Event RegistryProvider → SearchState
  | ⟨.block _, .ok (some block)⟩ =>
    if block.timestamp.toNat < cutoff then { state with low := state.middle + 1 }
    else { state with high := state.middle }
  | _ => state

def after (cutoff : Nat) (state : SearchState) (history : List (Event RegistryProvider)) : SearchState :=
  history.foldl (advance cutoff) state

end SearchState

/-- A search that has still to ask, what of its interval is left, and the block it asks for. -/
structure Probes (first last : Nat) (asked : Nat) (state : SearchState) (target : ProviderQuery) : Prop where
  low : first ≤ state.low
  nonempty : state.low < state.high
  high : state.high ≤ last
  halved : 2 ^ asked * (state.high - state.low) ≤ last - first
  target : ∃ middle : UInt64, target = .block (.number middle) ∧ middle.toNat = state.middle

theorem Probes.widen {first last inner outer asked : Nat} {state : SearchState} (h : Probes inner outer asked state target)
    (hLow : first ≤ inner) (hHigh : outer ≤ last) (hHalf : 2 * (outer - inner) ≤ last - first) :
    Probes first last (asked + 1) state target where
  low := hLow.trans h.low
  nonempty := h.nonempty
  high := h.high.trans hHigh
  halved := by
    have hInner := h.halved
    rw [Nat.pow_succ, Nat.mul_right_comm]
    omega
  target := h.target

theorem Probes.asked_lt {first last asked : Nat} {state : SearchState} (h : Probes first last asked state target)
    (hLast : last < 2 ^ 64) : asked < 64 := by
  have hHalved := h.halved
  have hNonempty := h.nonempty
  by_contra hMany
  have hPow : 2 ^ 64 ≤ 2 ^ asked := Nat.pow_le_pow_right (by decide) (not_lt.mp hMany)
  have hMul := Nat.le_mul_of_pos_right (2 ^ asked) (Nat.sub_pos_of_lt hNonempty)
  omega

theorem after_cons (cutoff : Nat) (state : SearchState) (event : Event RegistryProvider)
    (rest : List (Event RegistryProvider)) :
    state.after cutoff (event :: rest) = (state.advance cutoff event).after cutoff rest := rfl

/-- One answer moves the search as it moves the interval. -/
theorem advance_probe {cutoff low high middle : UInt64} (hMiddle : middle.toNat = SearchState.middle ⟨low.toNat, high.toNat⟩)
    (hLess : middle.toNat < high.toNat) (block : BlockInfo) :
    SearchState.advance cutoff.toNat ⟨low.toNat, high.toNat⟩ ⟨.block (.number middle), .ok (some block)⟩ =
      if block.timestamp < cutoff then ⟨(middle + 1).toNat, high.toNat⟩ else ⟨low.toNat, middle.toNat⟩ := by
  rw [SearchState.advance, ← hMiddle, toNat_add_one_of_lt hLess]
  simp only [UInt64.lt_iff_toNat_lt]

theorem invokes_searchLoop_probes {cutoff low high : UInt64} (h : Invokes (searchLoop cutoff low high) history target) :
    Probes low.toNat high.toNat history.length
      (SearchState.after cutoff.toNat ⟨low.toNat, high.toNat⟩ history) target := by
  fun_induction searchLoop cutoff low high generalizing history
  case case1 low high hLt middle ihHigh ihLow =>
    have hMiddle : middle.toNat = SearchState.middle ⟨low.toNat, high.toNat⟩ := toNat_midpoint hLt
    have hLess : middle.toNat < high.toNat := midpoint_lt hLt
    have hNext := toNat_add_one_of_lt hLess
    have hHalf : middle.toNat = low.toNat + (high.toNat - low.toNat) / 2 := hMiddle
    rw [UInt64.lt_iff_toNat_lt] at hLt
    obtain h | ⟨probe, block, rest, rfl, hProbe, hRest⟩ := invokes_bind.mp h
    · obtain ⟨rfl, rfl⟩ := invokes_requiredBlock.mp h
      exact ⟨le_refl _, hLt, le_refl _, by simp [SearchState.after], middle, rfl, hMiddle⟩
    · rw [returns_requiredBlock] at hProbe
      subst hProbe
      rw [List.singleton_append, List.length_cons, after_cons, advance_probe hMiddle hLess]
      split at hRest
      · rename_i hOld
        rw [if_pos hOld]
        exact (ihHigh hRest).widen (by omega) (le_refl _) (by omega)
      · rename_i hRecent
        rw [if_neg hRecent]
        exact (ihLow hRest).widen (le_refl _) hLess.le (by omega)
  case case2 => exact absurd h invokes_pure

theorem returns_searchLoop_mem {cutoff low high start : UInt64} (h : Returns (searchLoop cutoff low high) trace start)
    (hLe : low.toNat ≤ high.toNat) : low.toNat ≤ start.toNat ∧ start.toNat ≤ high.toNat := by
  fun_induction searchLoop cutoff low high generalizing trace
  case case1 low high hLt middle ihHigh ihLow =>
    have hMiddle : middle.toNat = low.toNat + (high.toNat - low.toNat) / 2 := toNat_midpoint hLt
    have hLess : middle.toNat < high.toNat := midpoint_lt hLt
    have hNext := toNat_add_one_of_lt hLess
    obtain ⟨probe, block, rest, rfl, -, hRest⟩ := returns_bind.mp h
    split at hRest
    · have hStart := ihHigh hRest (by omega)
      omega
    · have hStart := ihLow hRest (by omega)
      omega
  case case2 low high hLt =>
    obtain ⟨-, rfl⟩ := returns_pure.mp h
    exact ⟨le_refl _, hLe⟩

/-- The search for the first block: at most 64 probes, all of them below the head and none before the deployment, each
where the unbounded bisection puts it. -/
structure SearchBounds (deployment head cutoff : UInt64) : Prop where
  queries : ∀ history target, Invokes (findStartBlock deployment head cutoff) history target → history.length < 64
  probes : ∀ history target, Invokes (findStartBlock deployment head cutoff) history target →
    ∃ middle, target = .block (.number middle) ∧ deployment ≤ middle ∧ middle < head ∧
      middle.toNat = (SearchState.after cutoff.toNat ⟨deployment.toNat, head.toNat⟩ history).middle
  start : ∀ trace start, Returns (findStartBlock deployment head cutoff) trace start → deployment ≤ start ∧ start ≤ head

theorem searchBounds {deployment head : UInt64} (hDeployed : deployment ≤ head) (cutoff : UInt64) :
    SearchBounds deployment head cutoff := by
  have hLe := UInt64.le_iff_toNat_le.mp hDeployed
  have hProbes : ∀ history target, Invokes (findStartBlock deployment head cutoff) history target →
      Probes deployment.toNat head.toNat history.length
        (SearchState.after cutoff.toNat ⟨deployment.toNat, head.toNat⟩ history) target := by
    intro history target h
    rw [findStartBlock] at h
    split at h
    · exact absurd h invokes_pure
    · exact invokes_searchLoop_probes h
  refine ⟨fun history target h => (hProbes history target h).asked_lt head.toNat_lt, fun history target h => ?_,
    fun trace start h => ?_⟩
  · obtain ⟨hLow, hNonempty, hHigh, -, middle, rfl, hMiddle⟩ := hProbes history target h
    refine ⟨middle, rfl, ?_, ?_, hMiddle⟩
    · rw [UInt64.le_iff_toNat_le, hMiddle, SearchState.middle]
      omega
    · rw [UInt64.lt_iff_toNat_lt, hMiddle, SearchState.middle]
      omega
  · rw [UInt64.le_iff_toNat_le, UInt64.le_iff_toNat_le]
    rw [findStartBlock] at h
    split at h
    · obtain ⟨-, rfl⟩ := returns_pure.mp h
      rw [toNat_min]
      omega
    · exact returns_searchLoop_mem h hLe

/-- Where a chunked scan stands: the next block to read, the chunk size, and the counts. -/
structure ChunkState where
  fromBlock : Nat
  chunkSize : Nat
  logsProcessed : Nat
  recordsRejected : Nat
  chunkReductions : Nat
  deriving DecidableEq, Repr

/-- The settings of a chunked scan, the block it ends with, and the logs it counts as rejected. -/
structure ChunkLimits where
  minimum : Nat
  cap : Nat
  head : Nat
  rejects : Announcement → Bool

namespace ChunkState

def last (limits : ChunkLimits) (state : ChunkState) : Nat :=
  min (state.fromBlock + (state.chunkSize - 1)) limits.head

def advance (limits : ChunkLimits) (state : ChunkState) : Event RegistryProvider → ChunkState
  | ⟨.announcements .., .ok logs⟩ => { state with
      fromBlock := state.last limits + 1
      logsProcessed := state.logsProcessed + (logs.take (limits.cap - state.logsProcessed)).length
      recordsRejected := state.recordsRejected +
        (logs.take (limits.cap - state.logsProcessed)).countP limits.rejects }
  | ⟨.announcements .., .error (.rangeLimit _)⟩ => { state with
      chunkSize := max (state.chunkSize / 2) limits.minimum
      chunkReductions := state.chunkReductions + 1 }
  | _ => state

def after (limits : ChunkLimits) (state : ChunkState) (history : List (Event RegistryProvider)) : ChunkState :=
  history.foldl (advance limits) state

end ChunkState

/-- The range of a request that was served. -/
def servedRange : Event RegistryProvider → Option (Nat × Nat)
  | ⟨.announcements _ _ fromBlock toBlock, .ok _⟩ => some (fromBlock.toNat, toBlock.toNat)
  | _ => none

/-- A request that was refused as too large. -/
def refused : Event RegistryProvider → Bool
  | ⟨.announcements .., .error (.rangeLimit _)⟩ => true
  | _ => false

def servedRanges (history : List (Event RegistryProvider)) : List (Nat × Nat) := history.filterMap servedRange

/-- Ranges up to `last` that begin where the one before has ended, the first at `next`. -/
def Consecutive (last : Nat) : Nat → List (Nat × Nat) → Prop
  | _, [] => True
  | next, (first, final) :: rest => first = next ∧ first ≤ final ∧ final ≤ last ∧ Consecutive last (final + 1) rest

section Course

variable (descriptor : NetworkDescriptor) (limits : ChunkLimits)

/-- The request a chunked scan makes where it stands. -/
structure Requests (state : ChunkState) (query : ProviderQuery) : Prop where
  inWindow : state.fromBlock ≤ limits.head
  underCap : state.logsProcessed < limits.cap
  query : ∃ fromBlock toBlock : UInt64,
    query = .announcements descriptor.registry.address descriptor.namespace fromBlock toBlock ∧
      fromBlock.toNat = state.fromBlock ∧ toBlock.toNat = state.last limits

/-- A scan that goes on: each request is the one that is due, and a refusal is retried only above the minimum. -/
def Course : ChunkState → List (Event RegistryProvider) → Prop
  | _, [] => True
  | state, event :: rest => Requests descriptor limits state event.query ∧
      ((servedRange event).isSome ∨ refused event ∧ limits.minimum < state.chunkSize) ∧
      Course (state.advance limits event) rest

variable {descriptor limits} {state : ChunkState}

theorem course_nil : Course descriptor limits state [] := trivial

theorem after_concat (state : ChunkState) (history : List (Event RegistryProvider)) (event : Event RegistryProvider) :
    state.after limits (history ++ [event]) = (state.after limits history).advance limits event := by
  rw [ChunkState.after, List.foldl_append]
  rfl

theorem Course.concat (h : Course descriptor limits state history) (event : Event RegistryProvider)
    (hRequests : Requests descriptor limits (state.after limits history) event.query)
    (hGoesOn : (servedRange event).isSome ∨ refused event ∧ limits.minimum < (state.after limits history).chunkSize) :
    Course descriptor limits state (history ++ [event]) := by
  induction history generalizing state with
  | nil => exact ⟨hRequests, hGoesOn, course_nil⟩
  | cons first rest ih =>
    obtain ⟨hFirst, hFirstGoesOn, hRest⟩ := h
    exact ⟨hFirst, hFirstGoesOn, ih hRest hRequests hGoesOn⟩

/-- What one answer does to a scan that goes on. -/
inductive ChunkStep (limits : ChunkLimits) (state : ChunkState) : Event RegistryProvider → ChunkState → Prop
  | served {address : Address} {ns : Namespace} {fromBlock toBlock : UInt64} {logs : List Announcement}
      (hFrom : fromBlock.toNat = state.fromBlock) (hTo : toBlock.toNat = state.last limits)
      (hOrder : state.fromBlock ≤ state.last limits) (hHead : state.last limits ≤ limits.head) :
      ChunkStep limits state ⟨.announcements address ns fromBlock toBlock, .ok logs⟩
        ⟨state.last limits + 1, state.chunkSize,
          state.logsProcessed + (logs.take (limits.cap - state.logsProcessed)).length,
          state.recordsRejected + (logs.take (limits.cap - state.logsProcessed)).countP limits.rejects,
          state.chunkReductions⟩
  | refused {address : Address} {ns : Namespace} {fromBlock toBlock : UInt64} {message : String}
      (hChunk : limits.minimum < state.chunkSize) :
      ChunkStep limits state ⟨.announcements address ns fromBlock toBlock, .error (.rangeLimit message)⟩
        ⟨state.fromBlock, max (state.chunkSize / 2) limits.minimum, state.logsProcessed, state.recordsRejected,
          state.chunkReductions + 1⟩

theorem chunkStep_advance {event : Event RegistryProvider} (hRequests : Requests descriptor limits state event.query)
    (hGoesOn : (servedRange event).isSome ∨ refused event ∧ limits.minimum < state.chunkSize) :
    ChunkStep limits state event (state.advance limits event) := by
  obtain ⟨query, answer⟩ := event
  obtain ⟨hWindow, -, fromBlock, toBlock, hQuery, hFrom, hTo⟩ := hRequests
  dsimp only at hQuery
  subst hQuery
  have hOrder : state.fromBlock ≤ state.last limits := le_min (Nat.le_add_right ..) hWindow
  match answer, hGoesOn with
  | .ok logs, _ => exact .served hFrom hTo hOrder (min_le_right ..)
  | .error (.rangeLimit message), .inr ⟨_, hChunk⟩ => exact .refused hChunk

/-- How far the chunk size has come down from the first one. -/
structure Halved (minimum first : Nat) (state : ChunkState) : Prop where
  reductions : 2 ^ state.chunkReductions ≤ first
  chunkSize : minimum < state.chunkSize → state.chunkSize * 2 ^ state.chunkReductions ≤ first

/-- What a scan has done between two points. -/
structure Advanced (limits : ChunkLimits) (before after : ChunkState) (history : List (Event RegistryProvider)) : Prop where
  chunkSize : min before.chunkSize limits.minimum ≤ after.chunkSize
  underCap : before.logsProcessed ≤ limits.cap → after.logsProcessed ≤ limits.cap
  counted : before.recordsRejected ≤ before.logsProcessed → after.recordsRejected ≤ after.logsProcessed
  ranges : Consecutive limits.head before.fromBlock (servedRanges history)
  progress : history.length + before.fromBlock + before.chunkReductions ≤ after.fromBlock + after.chunkReductions
  halved : ∀ first, Halved limits.minimum first before → Halved limits.minimum first after

theorem ChunkStep.halved {event : Event RegistryProvider} {next : ChunkState} (h : ChunkStep limits state event next)
    (hMinimum : 1 ≤ limits.minimum) {first : Nat} (hHalved : Halved limits.minimum first state) :
    Halved limits.minimum first next := by
  cases h with
  | served => exact ⟨hHalved.reductions, hHalved.chunkSize⟩
  | refused hChunk =>
    have hSize := hHalved.chunkSize hChunk
    have hTwo : 2 * 2 ^ state.chunkReductions ≤ state.chunkSize * 2 ^ state.chunkReductions :=
      Nat.mul_le_mul_right _ (by omega)
    refine ⟨?_, fun hStill => ?_⟩
    · rw [Nat.pow_succ]
      omega
    · dsimp only at hStill ⊢
      have hHalf : max (state.chunkSize / 2) limits.minimum = state.chunkSize / 2 := by omega
      have hLe : state.chunkSize / 2 * 2 ≤ state.chunkSize := Nat.div_mul_le_self _ _
      calc max (state.chunkSize / 2) limits.minimum * 2 ^ (state.chunkReductions + 1)
          = state.chunkSize / 2 * 2 * 2 ^ state.chunkReductions := by rw [hHalf, Nat.pow_succ]; ring
        _ ≤ state.chunkSize * 2 ^ state.chunkReductions := Nat.mul_le_mul_right _ hLe
        _ ≤ first := hSize

theorem ChunkStep.then {event : Event RegistryProvider} {next after : ChunkState} {rest : List (Event RegistryProvider)}
    (h : ChunkStep limits state event next) (hMinimum : 1 ≤ limits.minimum) (hRest : Advanced limits next after rest) :
    Advanced limits state after (event :: rest) := by
  have hHalved := fun first (hFirst : Halved limits.minimum first state) => hRest.halved first (h.halved hMinimum hFirst)
  obtain ⟨hChunk, hCap, hCounted, hRanges, hProgress, -⟩ := hRest
  cases h with
  | @served _ _ _ _ logs hFrom hTo hOrder hHead =>
    have hTaken : (logs.take (limits.cap - state.logsProcessed)).length ≤ limits.cap - state.logsProcessed :=
      List.length_take_le _ _
    have hRejected := @List.countP_le_length _ limits.rejects (logs.take (limits.cap - state.logsProcessed))
    dsimp only at hChunk hCap hCounted hRanges hProgress
    refine ⟨hChunk, fun hUnder => hCap (by omega), fun hLess => hCounted (by omega), ?_, ?_, hHalved⟩
    · exact ⟨hFrom, by rw [hFrom, hTo]; exact hOrder, by rw [hTo]; exact hHead, by rw [hTo]; exact hRanges⟩
    · rw [List.length_cons]
      omega
  | refused hLarge =>
    dsimp only at hChunk hCap hCounted hRanges hProgress
    refine ⟨by omega, hCap, hCounted, hRanges, ?_, hHalved⟩
    rw [List.length_cons]
    omega

theorem Course.advanced (h : Course descriptor limits state history) (hMinimum : 1 ≤ limits.minimum) :
    Advanced limits state (state.after limits history) history := by
  induction history generalizing state with
  | nil => exact ⟨min_le_left .., id, id, trivial, by simp [ChunkState.after], fun _ => id⟩
  | cons event rest ih =>
    obtain ⟨hRequests, hGoesOn, hRest⟩ := h
    exact (chunkStep_advance hRequests hGoesOn).then hMinimum (ih hRest)

theorem Course.last_step {event : Event RegistryProvider} (h : Course descriptor limits state (history ++ [event])) :
    ChunkStep limits (state.after limits history) event (state.after limits (history ++ [event])) := by
  induction history generalizing state with
  | nil =>
    obtain ⟨hRequests, hGoesOn, -⟩ := h
    exact chunkStep_advance hRequests hGoesOn
  | cons first rest ih =>
    obtain ⟨-, -, hRest⟩ := h
    exact ih hRest

theorem Halved.reductions_lt {minimum first : Nat} (h : Halved minimum first state) (hFirst : first < 2 ^ 64) :
    state.chunkReductions < 64 := by
  have hReductions := h.reductions
  by_contra hMany
  have hPow : 2 ^ 64 ≤ 2 ^ state.chunkReductions := Nat.pow_le_pow_right (by decide) (not_lt.mp hMany)
  omega

theorem ChunkStep.decreases {event : Event RegistryProvider} {next : ChunkState} (h : ChunkStep limits state event next)
    (hMinimum : 1 ≤ limits.minimum) (hRefused : Ethereum.refused event) : next.chunkSize < state.chunkSize := by
  cases h with
  | served => cases hRefused
  | @refused _ _ _ _ _ hChunk =>
    change max (state.chunkSize / 2) limits.minimum < state.chunkSize
    omega

theorem width_le_chunkSize {last : UInt64} (hLast : last.toNat = state.last limits) (hChunk : 1 ≤ state.chunkSize) :
    last.toNat - state.fromBlock + 1 ≤ state.chunkSize := by
  rw [hLast, ChunkState.last]
  omega

theorem servedRanges_append (first second : List (Event RegistryProvider)) :
    servedRanges (first ++ second) = servedRanges first ++ servedRanges second :=
  List.filterMap_append ..

end Course

section Loop

variable {keccak256 : Bytes → B256} {self : RegistryScanner} {descriptor : NetworkDescriptor}
  {constants : RegistryConstants} {head : BlockInfo} {minimumChunkSize fromBlock chunkSize : UInt64}
  {chunkReductions : Nat} {progress : LogProgress}

def RegistryScanner.limits (self : RegistryScanner) (descriptor : NetworkDescriptor) (constants : RegistryConstants)
    (head : BlockInfo) (minimumChunkSize : UInt64) : ChunkLimits where
  minimum := minimumChunkSize.toNat
  cap := self.config.maxLogsPerScan
  head := head.number.toNat
  rejects log := (self.codecs.validateAnnouncement log (self.policy descriptor constants head)).toOption.isNone

/-- Where the loop over words stands. -/
def LogProgress.stand (progress : LogProgress) (fromBlock chunkSize : UInt64) (chunkReductions : Nat) : ChunkState :=
  ⟨fromBlock.toNat, chunkSize.toNat, progress.logsProcessed, progress.recordsRejected, chunkReductions⟩

theorem toNat_chunkEnd (fromBlock chunkSize head : UInt64) : (chunkEnd fromBlock chunkSize head).toNat =
    min (fromBlock.toNat + (chunkSize.toNat - 1)) head.toNat := by
  have hHead := head.toNat_lt
  have hOne : (1 : UInt64).toNat = 1 := rfl
  rw [chunkEnd, toNat_min, toNat_saturatingAdd, toNat_saturatingSub, hOne]
  omega

theorem requests_chunk (descriptor : NetworkDescriptor) (constants : RegistryConstants) (minimumChunkSize : UInt64)
    (chunkReductions : Nat) {toBlock : UInt64} (hRange : fromBlock ≤ head.number ∧ progress.logsProcessed < self.config.maxLogsPerScan)
    (hTo : toBlock = chunkEnd fromBlock chunkSize head.number) :
    Requests descriptor (self.limits descriptor constants head minimumChunkSize)
      (progress.stand fromBlock chunkSize chunkReductions)
      (.announcements descriptor.registry.address descriptor.namespace fromBlock toBlock) where
  inWindow := UInt64.le_iff_toNat_le.mp hRange.1
  underCap := hRange.2
  query := ⟨fromBlock, toBlock, rfl, rfl, by rw [hTo, toNat_chunkEnd]; rfl⟩

theorem advance_served (keccak256 : Bytes → B256) {toBlock : UInt64}
    (hTo : toBlock = chunkEnd fromBlock chunkSize head.number) (announcements : List Announcement) :
    ChunkState.advance (self.limits descriptor constants head minimumChunkSize)
        (progress.stand fromBlock chunkSize chunkReductions)
        ⟨.announcements descriptor.registry.address descriptor.namespace fromBlock toBlock, .ok announcements⟩ =
      { ((announcements.take (self.config.maxLogsPerScan - progress.logsProcessed)).foldl
          (self.processAnnouncement keccak256 (self.policy descriptor constants head)) progress).stand
            fromBlock chunkSize chunkReductions with fromBlock := toBlock.toNat + 1 } := by
  rw [foldl_processAnnouncement, hTo, toNat_chunkEnd]
  rfl

theorem advance_next (keccak256 : Bytes → B256) {toBlock : UInt64}
    (hTo : toBlock = chunkEnd fromBlock chunkSize head.number) (hEnd : toBlock ≠ head.number)
    (announcements : List Announcement) :
    ChunkState.advance (self.limits descriptor constants head minimumChunkSize)
        (progress.stand fromBlock chunkSize chunkReductions)
        ⟨.announcements descriptor.registry.address descriptor.namespace fromBlock toBlock, .ok announcements⟩ =
      ((announcements.take (self.config.maxLogsPerScan - progress.logsProcessed)).foldl
        (self.processAnnouncement keccak256 (self.policy descriptor constants head)) progress).stand
          (toBlock + 1) chunkSize chunkReductions := by
  rw [advance_served keccak256 hTo, LogProgress.stand, LogProgress.stand]
  subst hTo
  rw [toNat_add_one_of_lt (chunkEnd_lt hEnd)]

theorem advance_refused (self : RegistryScanner) (descriptor : NetworkDescriptor) (constants : RegistryConstants)
    (head : BlockInfo) (minimumChunkSize fromBlock chunkSize toBlock : UInt64) (chunkReductions : Nat)
    (progress : LogProgress) (message : String) :
    ChunkState.advance (self.limits descriptor constants head minimumChunkSize)
        (progress.stand fromBlock chunkSize chunkReductions)
        ⟨.announcements descriptor.registry.address descriptor.namespace fromBlock toBlock, .error (.rangeLimit message)⟩ =
      progress.stand fromBlock (max (chunkSize / 2) minimumChunkSize) (chunkReductions + 1) := by
  rw [LogProgress.stand, LogProgress.stand, toNat_max, UInt64.toNat_div]
  rfl

/-- What a scan reports is what the machine has counted. -/
structure Counts (logsProcessed recordsRejected chunkReductions : Nat) (state : ChunkState) : Prop where
  logsProcessed : logsProcessed = state.logsProcessed
  recordsRejected : recordsRejected = state.recordsRejected
  chunkReductions : chunkReductions = state.chunkReductions

/-- How a loop ends: with the counts of the machine, or refused its last request, as too large only at the minimum. -/
inductive LoopEnd (descriptor : NetworkDescriptor) (limits : ChunkLimits) (start : ChunkState) :
    List (Event RegistryProvider) → Except ScanError (LogProgress × Nat) → Prop
  | finished {trace : List (Event RegistryProvider)} {progress : LogProgress} {chunkReductions : Nat}
      (hCourse : Course descriptor limits start trace)
      (hCounts : Counts progress.logsProcessed progress.recordsRejected chunkReductions (start.after limits trace)) :
      LoopEnd descriptor limits start trace (.ok (progress, chunkReductions))
  | failed {history : List (Event RegistryProvider)} {address : Address} {ns : Namespace} {first last : UInt64}
      {failure : ProviderError} (hCourse : Course descriptor limits start history)
      (hRequests : Requests descriptor limits (start.after limits history) (.announcements address ns first last))
      (hSmall : ∀ message, failure = .rangeLimit message → (start.after limits history).chunkSize ≤ limits.minimum) :
      LoopEnd descriptor limits start (history ++ [⟨.announcements address ns first last, .error failure⟩])
        (.error (.provider failure))

/-- The loop over words follows the machine over numbers. -/
theorem guarantees_scanLoop {start : ChunkState}
    (hCourse : Course descriptor (self.limits descriptor constants head minimumChunkSize) start history)
    (hState : start.after (self.limits descriptor constants head minimumChunkSize) history =
      progress.stand fromBlock chunkSize chunkReductions) :
    Guarantees (fun history target =>
        Course descriptor (self.limits descriptor constants head minimumChunkSize) start history ∧
          Requests descriptor (self.limits descriptor constants head minimumChunkSize)
            (start.after (self.limits descriptor constants head minimumChunkSize) history) target)
      (LoopEnd descriptor (self.limits descriptor constants head minimumChunkSize) start) history
      (self.scanLoop keccak256 descriptor constants head minimumChunkSize fromBlock chunkSize chunkReductions
        progress).run := by
  fun_induction RegistryScanner.scanLoop self keccak256 descriptor constants head minimumChunkSize fromBlock chunkSize
    chunkReductions progress generalizing history
  case case1 fromBlock chunkSize chunkReductions progress hRange toBlock ihNext ihReduced =>
    have hRequests := requests_chunk descriptor constants minimumChunkSize chunkReductions hRange
      (rfl : toBlock = _)
    rw [← hState] at hRequests
    rw [ExceptT.run_bind_lift]
    refine .ask_bind ⟨hCourse, hRequests⟩ fun answer => ?_
    split
    · rename_i announcements
      have hNext := hCourse.concat ⟨.announcements descriptor.registry.address descriptor.namespace fromBlock toBlock,
        .ok announcements⟩ hRequests (.inl rfl)
      dsimp only
      split
      · refine .pure (.finished hNext ?_)
        rw [after_concat, hState, advance_served keccak256 rfl]
        exact ⟨rfl, rfl, rfl⟩
      · rename_i hEnd
        exact ihNext announcements hEnd hNext (by rw [after_concat, hState, advance_next keccak256 rfl hEnd])
    · rename_i message
      split
      · rename_i hChunk
        refine ihReduced hChunk (hCourse.concat _ hRequests (.inr ⟨rfl, ?_⟩)) ?_
        · rw [hState]
          exact UInt64.lt_iff_toNat_lt.mp hChunk
        · rw [after_concat, hState, advance_refused]
      · rename_i hChunk
        refine .pure (.failed hCourse hRequests fun _ _ => ?_)
        rw [hState]
        exact UInt64.le_iff_toNat_le.mp (UInt64.not_lt.mp hChunk)
    · rename_i failure hFailure
      exact .pure (.failed hCourse hRequests fun message hMessage => absurd hMessage (hFailure message))
  case case2 =>
    refine .pure (.finished hCourse ?_)
    rw [hState]
    exact ⟨rfl, rfl, rfl⟩

end Loop

section Scan

variable (keccak256 : Bytes → B256) (self : RegistryScanner) (descriptor : NetworkDescriptor) (localNodeId : Bytes)
  (constants : RegistryConstants) (startBlock : UInt64) (head : BlockInfo)

def RegistryScanner.scanLimits : ChunkLimits :=
  self.limits descriptor constants head (max self.config.minimumChunkSize 1)

/-- Where a chunked scan from `startBlock` stands after a history, in unbounded numbers. -/
def RegistryScanner.scanned (history : List (Event RegistryProvider)) : ChunkState :=
  ChunkState.after (self.scanLimits descriptor constants head)
    ⟨startBlock.toNat, (max self.config.initialChunkSize 1).toNat, 0, 0, 0⟩ history

/-- A provider that refuses no range of at most `width` blocks as too large. -/
def AnswersUpTo (width : Nat) (trace : List (Event RegistryProvider)) : Prop :=
  ∀ address ns first last message,
    ⟨.announcements address ns first last, .error (.rangeLimit message)⟩ ∈ trace → width < last.toNat - first.toNat + 1

/-- The chunked scan: every word it computes is the unbounded machine's, its requests stay in the window and within the
chunk size, and its counts within their caps. -/
structure LogScanBounds : Prop where
  queries : ∀ history target,
    Invokes (self.scanLogs keccak256 descriptor localNodeId constants startBlock head) history target →
    history.length + startBlock.toNat ≤ head.number.toNat + 63
  requests : ∀ history target,
    Invokes (self.scanLogs keccak256 descriptor localNodeId constants startBlock head) history target →
    ∃ first last, target = .announcements descriptor.registry.address descriptor.namespace first last ∧
      startBlock ≤ first ∧ first ≤ last ∧ last ≤ head.number ∧
      first.toNat = (self.scanned descriptor constants startBlock head history).fromBlock ∧
      last.toNat = (self.scanned descriptor constants startBlock head history).last
        (self.scanLimits descriptor constants head) ∧
      last.toNat - first.toNat + 1 ≤ (self.scanned descriptor constants startBlock head history).chunkSize
  served : ∀ history,
    (∃ target, Invokes (self.scanLogs keccak256 descriptor localNodeId constants startBlock head) history target) ∨
    (∃ outcome, Returns (self.scanLogs keccak256 descriptor localNodeId constants startBlock head) history outcome) ∨
    (∃ error, Throws (self.scanLogs keccak256 descriptor localNodeId constants startBlock head) history error) →
    Consecutive head.number.toNat startBlock.toNat (servedRanges history)
  chunkSize : ∀ history target,
    Invokes (self.scanLogs keccak256 descriptor localNodeId constants startBlock head) history target →
    min self.config.initialChunkSize.toNat self.config.minimumChunkSize.toNat ≤
      (self.scanned descriptor constants startBlock head history).chunkSize
  retried : ∀ history event target,
    Invokes (self.scanLogs keccak256 descriptor localNodeId constants startBlock head) (history ++ [event]) target →
    refused event →
    (self.scanned descriptor constants startBlock head (history ++ [event])).chunkSize <
      (self.scanned descriptor constants startBlock head history).chunkSize
  counts : ∀ history target,
    Invokes (self.scanLogs keccak256 descriptor localNodeId constants startBlock head) history target →
    (self.scanned descriptor constants startBlock head history).logsProcessed < self.config.maxLogsPerScan ∧
      (self.scanned descriptor constants startBlock head history).recordsRejected ≤
        (self.scanned descriptor constants startBlock head history).logsProcessed ∧
      (self.scanned descriptor constants startBlock head history).chunkReductions < 64
  outcome : ∀ trace outcome,
    Returns (self.scanLogs keccak256 descriptor localNodeId constants startBlock head) trace outcome →
    Counts outcome.logsProcessed outcome.recordsRejected outcome.chunkReductions
        (self.scanned descriptor constants startBlock head trace) ∧
      outcome.logsProcessed ≤ self.config.maxLogsPerScan ∧ outcome.recordsRejected ≤ outcome.logsProcessed ∧
      outcome.chunkReductions < 64
  rangeLimit : ∀ width trace message, max 1 self.config.minimumChunkSize.toNat ≤ width → AnswersUpTo width trace →
    ¬ Throws (self.scanLogs keccak256 descriptor localNodeId constants startBlock head) trace
      (.provider (.rangeLimit message))

variable {keccak256 self descriptor localNodeId constants startBlock head}

theorem invokes_scanLogs_course (h : Invokes (self.scanLogs keccak256 descriptor localNodeId constants startBlock head) history
      target) :
    Course descriptor (self.scanLimits descriptor constants head) (self.scanned descriptor constants startBlock head [])
        history ∧
      Requests descriptor (self.scanLimits descriptor constants head)
        (self.scanned descriptor constants startBlock head history) target := by
  rw [RegistryScanner.scanLogs] at h
  obtain h | ⟨trace, result, rest, rfl, -, hRest⟩ := invokes_bind.mp h
  · exact (guarantees_scanLoop course_nil rfl).reaches h
  · exact absurd hRest invokes_pure

theorem returns_scanLogs_course {outcome : LogScanOutcome}
    (h : Returns (self.scanLogs keccak256 descriptor localNodeId constants startBlock head) trace outcome) :
    Course descriptor (self.scanLimits descriptor constants head) (self.scanned descriptor constants startBlock head [])
        trace ∧
      Counts outcome.logsProcessed outcome.recordsRejected outcome.chunkReductions
        (self.scanned descriptor constants startBlock head trace) := by
  rw [RegistryScanner.scanLogs] at h
  obtain ⟨loop, result, rest, rfl, hLoop, hRest⟩ := returns_bind.mp h
  obtain ⟨rfl, rfl⟩ := returns_pure.mp hRest
  rw [List.append_nil]
  obtain ⟨hCourse, hCounts⟩ := (guarantees_scanLoop course_nil rfl).runs hLoop
  exact ⟨hCourse, hCounts⟩

theorem throws_scanLogs_course {error : ScanError}
    (h : Throws (self.scanLogs keccak256 descriptor localNodeId constants startBlock head) trace error) :
    LoopEnd descriptor (self.scanLimits descriptor constants head) (self.scanned descriptor constants startBlock head [])
      trace (.error error) := by
  rw [RegistryScanner.scanLogs] at h
  obtain h | ⟨loop, result, rest, rfl, -, hRest⟩ := throws_bind.mp h
  · exact (guarantees_scanLoop course_nil rfl).runs h
  · exact absurd hRest throws_pure

theorem one_le_max_one (chunk : UInt64) : 1 ≤ (max chunk 1).toNat := by
  have hOne : (1 : UInt64).toNat = 1 := rfl
  rw [toNat_max, hOne]
  exact le_max_right ..

theorem halved_start : Halved (self.scanLimits descriptor constants head).minimum (max self.config.initialChunkSize 1).toNat
    (self.scanned descriptor constants startBlock head []) := by
  refine ⟨one_le_max_one _, fun _ => ?_⟩
  exact (Nat.mul_one _).le

/-- What a scan has done after a history in which it went on. -/
theorem advanced_scanned (h : Course descriptor (self.scanLimits descriptor constants head)
      (self.scanned descriptor constants startBlock head []) history) :
    Advanced (self.scanLimits descriptor constants head) (self.scanned descriptor constants startBlock head [])
      (self.scanned descriptor constants startBlock head history) history :=
  h.advanced (one_le_max_one _)

theorem chunkReductions_lt (h : Course descriptor (self.scanLimits descriptor constants head)
      (self.scanned descriptor constants startBlock head []) history) :
    (self.scanned descriptor constants startBlock head history).chunkReductions < 64 :=
  ((advanced_scanned h).halved _ halved_start).reductions_lt (UInt64.toNat_lt _)

theorem min_le_scanned (h : Course descriptor (self.scanLimits descriptor constants head)
      (self.scanned descriptor constants startBlock head []) history) :
    1 ≤ (self.scanned descriptor constants startBlock head history).chunkSize ∧
      min self.config.initialChunkSize.toNat self.config.minimumChunkSize.toNat ≤
        (self.scanned descriptor constants startBlock head history).chunkSize := by
  have hChunk : min (max self.config.initialChunkSize 1).toNat (max self.config.minimumChunkSize 1).toNat ≤
      (self.scanned descriptor constants startBlock head history).chunkSize := (advanced_scanned h).chunkSize
  have hOne : (1 : UInt64).toNat = 1 := rfl
  rw [toNat_max, toNat_max, hOne] at hChunk
  omega

variable (keccak256 self descriptor localNodeId constants startBlock head)

theorem logScanBounds : LogScanBounds keccak256 self descriptor localNodeId constants startBlock head where
  queries history target h := by
    obtain ⟨hCourse, hRequests⟩ := invokes_scanLogs_course h
    have hReductions := chunkReductions_lt hCourse
    have hWindow : (self.scanned descriptor constants startBlock head history).fromBlock ≤ head.number.toNat :=
      hRequests.inWindow
    have hProgress : history.length + startBlock.toNat + 0 ≤ _ := (advanced_scanned hCourse).progress
    omega
  requests history target h := by
    obtain ⟨hCourse, -, -, first, last, rfl, hFirst, hLast⟩ := invokes_scanLogs_course h
    obtain ⟨hStart, hOrder, hHead⟩ := invokes_scanLogs h
    refine ⟨first, last, rfl, hStart, hOrder, hHead, hFirst, hLast, ?_⟩
    rw [hFirst]
    exact width_le_chunkSize hLast (min_le_scanned hCourse).1
  served history h := by
    obtain ⟨target, h⟩ | ⟨outcome, h⟩ | ⟨error, h⟩ := h
    · exact (advanced_scanned (invokes_scanLogs_course h).1).ranges
    · exact (advanced_scanned (returns_scanLogs_course h).1).ranges
    · cases throws_scanLogs_course h with
      | failed hCourse =>
        rw [servedRanges_append]
        exact (List.append_nil _).symm ▸ (advanced_scanned hCourse).ranges
  chunkSize history target h := (min_le_scanned (invokes_scanLogs_course h).1).2
  retried history event target h hRefused :=
    (invokes_scanLogs_course h).1.last_step.decreases (one_le_max_one _) hRefused
  counts history target h := by
    obtain ⟨hCourse, hRequests⟩ := invokes_scanLogs_course h
    exact ⟨hRequests.underCap, (advanced_scanned hCourse).counted (le_refl 0), chunkReductions_lt hCourse⟩
  outcome trace outcome h := by
    obtain ⟨hCourse, hCounts⟩ := returns_scanLogs_course h
    have hAdvanced := advanced_scanned hCourse
    refine ⟨hCounts, ?_, ?_, ?_⟩
    · rw [hCounts.logsProcessed]
      exact hAdvanced.underCap (Nat.zero_le _)
    · rw [hCounts.logsProcessed, hCounts.recordsRejected]
      exact hAdvanced.counted (le_refl 0)
    · rw [hCounts.chunkReductions]
      exact chunkReductions_lt hCourse
  rangeLimit width trace message hWidth hAnswers h := by
    cases throws_scanLogs_course h with
    | @failed history address ns first last _ hCourse hRequests hSmall =>
      obtain ⟨-, -, first', last', hQuery, hFirst, hLast⟩ := hRequests
      cases hQuery
      have hWide : width < last.toNat - first.toNat + 1 :=
        hAnswers _ _ _ _ message (List.mem_append_right _ (List.mem_singleton_self _))
      have hNarrow := width_le_chunkSize hLast (min_le_scanned hCourse).1
      rw [← hFirst] at hNarrow
      have hChunk : _ ≤ (max self.config.minimumChunkSize 1).toNat := hSmall message rfl
      have hOne : (1 : UInt64).toNat = 1 := rfl
      rw [toNat_max, hOne] at hChunk
      omega

/-- Whatever the provider answers, the search and the chunked scan it leads to stay within their bounds. -/
theorem scan_in_bounds (cutoff : UInt64) (hDeployed : descriptor.registry.deploymentBlock ≤ head.number) :
    SearchBounds descriptor.registry.deploymentBlock head.number cutoff ∧
      LogScanBounds keccak256 self descriptor localNodeId constants startBlock head :=
  ⟨searchBounds hDeployed cutoff, logScanBounds keccak256 self descriptor localNodeId constants startBlock head⟩

end Scan

/-- At the last blocks a word can number. -/
theorem scan_in_bounds_top : SearchBounds developmentDescriptor.registry.deploymentBlock
      (dailyBlock 18446744073709551615).number 18446744073709551615 ∧
    LogScanBounds busyKeccak busyScanner developmentDescriptor [1] ⟨1, 7776000, 4096⟩ 18446744073709551612
      (dailyBlock 18446744073709551615) :=
  scan_in_bounds busyKeccak busyScanner developmentDescriptor [1] ⟨1, 7776000, 4096⟩ 18446744073709551612
    (dailyBlock 18446744073709551615) 18446744073709551615 (by decide)

end Resurrect.Ethereum
