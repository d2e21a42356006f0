import Resurrect.Node.DrawnDelays
import Resurrect.Node.ScanPacing

/-! # Runs of the supervisor

What the status file says and how long the supervisor waits, told from the run
alone: the statuses written before, and the rounds right before this one that
drew a delay. The two variables of the loop are what these come to.
-/

namespace Resurrect.Node

open Resurrect.Core Interaction Bootstrap

section Observations

def drew : Event SupervisorIO → Bool
  | ⟨.randomRange _, _⟩ => true
  | _ => false

def statusOf : Event SupervisorIO → Option NodeStatus
  | ⟨.writeAtomicJson _ status, _⟩ => some status
  | _ => none

def snapshotOf : Event SupervisorIO → Option TelemetrySnapshot
  | ⟨.telemetrySnapshot, snapshot⟩ => some snapshot
  | _ => none

def clockOf : Event SupervisorIO → Option UInt64
  | ⟨.unixTime, now⟩ => some now
  | _ => none

/-- The text of a publication that was refused. -/
def refusalOf : Event SupervisorIO → Option String
  | ⟨.adapter (.announce _), .error error⟩ => some error.toString
  | _ => none

def searchedOf : Event SupervisorIO → Option Source
  | ⟨.adapter (.discover source _), _⟩ => some source
  | _ => none

variable (history : List (Event SupervisorIO))

def statuses : List NodeStatus := history.filterMap statusOf

def snapshots : List TelemetrySnapshot := history.filterMap snapshotOf

def clocks : List UInt64 := history.filterMap clockOf

def refusals : List String := history.filterMap refusalOf

/-- The stage of the source asked last. -/
def lastStage : BootstrapState := ((history.filterMap searchedOf).getLast?.map Source.state).getD .start

/-- The source named by the latest status that names one. -/
def latestVia : Option BootstrapState := ((statuses history).filterMap NodeStatus.connectedVia).getLast?

/-- How many rounds right before the next one drew a delay. -/
def retries (rounds : List (List (Event SupervisorIO))) : Nat := (rounds.reverse.takeWhile (·.any drew)).length

end Observations

theorem latestVia_append (first second : List (Event SupervisorIO)) :
    latestVia (first ++ second) = (latestVia second).or (latestVia first) := by
  rw [latestVia, statuses, List.filterMap_append, List.filterMap_append, List.getLast?_append]
  rfl

theorem latestVia_append_silent {first rest : List (Event SupervisorIO)} (h : statuses rest = []) :
    latestVia (first ++ rest) = latestVia first := by
  rw [latestVia_append, latestVia, h]
  rfl

theorem retries_concat (rounds : List (List (Event SupervisorIO))) (round : List (Event SupervisorIO)) :
    retries (rounds ++ [round]) = if round.any drew then retries rounds + 1 else 0 := by
  rw [retries, List.reverse_append, List.reverse_singleton, List.singleton_append, List.takeWhile_cons]
  split
  · rfl
  · rfl

/-- The span a retry may wait for, after so many of them. -/
def backoffNanos (policy : SupervisorPolicy) (retries : Nat) : Nat :=
  min (policy.initialBackoff.asNanos * 2 ^ min retries 20) policy.maximumBackoff.asNanos

/-- A wait between two rounds: the poll interval of a healthy node, or a delay drawn from the upper half of
the backoff. -/
inductive Rested (supervisor : Supervisor) (retries : Nat) (round : List (Event SupervisorIO)) (delay : Duration) : Prop
  | healthy {count : Nat} (hReadings : readings round = [count])
      (hCount : connectionTarget supervisor.policy.bootstrap ≤ count)
      (hDelay : delay = supervisor.policy.connectedPollInterval) : Rested supervisor retries round delay
  | isolated {counts : List Nat} (last : Nat) (hReadings : readings round = counts ++ [last])
      (hCounts : ∀ count ∈ counts, count < connectionTarget supervisor.policy.bootstrap)
      (hLower : backoffNanos supervisor.policy retries / 2 ≤ delay.asNanos)
      (hUpper : delay.asNanos ≤ backoffNanos supervisor.policy retries) : Rested supervisor retries round delay

/-- What a status says of a cycle that has ended: its outcome as it is, or a backoff and its error. -/
inductive ReportsCycle (status : NodeStatus) : Except BootstrapError BootstrapOutcome → Prop
  | outcome {outcome : BootstrapOutcome} (hState : status.state = outcome.state)
      (hTransitions : status.transitions = outcome.transitions) (hVia : status.connectedVia = outcome.connectedVia)
      (hError : status.lastError = none) : ReportsCycle status (.ok outcome)
  | failure {error : BootstrapError} (hState : status.state = .backoff) (hTransitions : status.transitions = [.backoff])
      (hVia : status.connectedVia = none) (hError : status.lastError = some error.toString) :
      ReportsCycle status (.error error)

/-- The answers a status is made of, once the counters and the clock have been read. -/
def counted (registry : TelemetrySnapshot) (updatedAt : UInt64) : List (Event SupervisorIO) :=
  [⟨.telemetrySnapshot, registry⟩, ⟨.unixTime, updatedAt⟩]

/-- A round that was below the target, up to the reading behind its cycle. -/
def searchOf (first : Nat) (cycle : List (Event Adapters)) (last : Nat) : List (Event SupervisorIO) :=
  [⟨.adapter .connectedPeers, first⟩] ++ cycle.map adapterPart.event ++ [⟨.adapter .connectedPeers, last⟩]

/-- Where the rest of a status comes from: a node found healthy repeats the source named last, one that is not
has run a cycle to its end and reports that. -/
inductive Reported (supervisor : Supervisor) (named : Option BootstrapState) (round : List (Event SupervisorIO))
    (status : NodeStatus) : Prop
  | healthy (hReadings : readings round = [status.connectedPeers])
      (hCount : connectionTarget supervisor.policy.bootstrap ≤ status.connectedPeers)
      (hState : status.state = .connected) (hTransitions : status.transitions = [.connected])
      (hVia : status.connectedVia = named) : Reported supervisor named round status
  | searched (first : Nat) {cycle : List (Event Adapters)} {result : Except BootstrapError BootstrapOutcome}
      (hCycle : ((⟨supervisor.policy.bootstrap⟩ : BootstrapController).runCycle supervisor.namespace).Runs cycle result)
      (hRound : round = searchOf first cycle status.connectedPeers ++ counted status.registry status.updatedAt)
      (hReports : ReportsCycle status result) {counts : List Nat}
      (hReadings : readings round = counts ++ [status.connectedPeers])
      (hState : status.state = if ∃ count ∈ counts, connectionTarget supervisor.policy.bootstrap ≤ count
        then .connected else .backoff)
      (hVia : status.connectedVia = if status.state = .connected then some (lastStage round) else none) :
      Reported supervisor named round status

/-- A status agrees with the answers of its own round, `named` being the source named before it. -/
structure TrueStatus (supervisor : Supervisor) (named : Option BootstrapState) (round : List (Event SupervisorIO))
    (status : NodeStatus) : Prop where
  peerId_eq : status.peerId = supervisor.peerId
  snapshots_eq : snapshots round = [status.registry]
  clocks_eq : clocks round = [status.updatedAt]
  refusals_eq : refusals round = status.lastError.toList
  ends : status.transitions.getLast? = some status.state
  reported : Reported supervisor named round status

section Round

variable {supervisor : Supervisor} {state : SupervisorState} {history : List (Event SupervisorIO)}

def RoundInvokes (supervisor : Supervisor) (state : SupervisorState) (history : List (Event SupervisorIO)) :
    SupervisorQuery → Prop
  | .writeAtomicJson path status => supervisor.statusFile = some path ∧
      TrueStatus supervisor state.lastConnectedVia history status
  | .waitOrShutdown delay => Rested supervisor state.attempts.toNat history delay
  | _ => True

def RoundLeaves (supervisor : Supervisor) (state : SupervisorState) (round : List (Event SupervisorIO)) :
    RoundEnd → Prop
  | .inl next => next.attempts.toNat = (if round.any drew then min (state.attempts.toNat + 1) 4294967295 else 0) ∧
      (supervisor.statusFile.isSome → next.lastConnectedVia = (latestVia round).or state.lastConnectedVia)
  | .inr _ => True

/-- The part of a round before its counters are read and its status is written. -/
structure Unreported (history : List (Event SupervisorIO)) (counts : List Nat) (refused : Option String) : Prop where
  undrawn : history.any drew = false
  readings_eq : readings history = counts
  statuses_eq : statuses history = []
  snapshots_eq : snapshots history = []
  clocks_eq : clocks history = []
  refusals_eq : refusals history = refused.toList

/-- What writing the status adds to the round. -/
def published (supervisor : Supervisor) (status : NodeStatus) (answer : Except SupervisorError Unit) :
    List (Event SupervisorIO) :=
  match supervisor.statusFile with
  | none => []
  | some path => [⟨.writeAtomicJson path status, answer⟩]

theorem guarantees_publishStatus {status : NodeStatus}
    (hTrue : TrueStatus supervisor state.lastConnectedVia history status) :
    Guarantees (RoundInvokes supervisor state)
      (fun trace answer => trace = history ++ published supervisor status answer) history
      (supervisor.publishStatus status) := by
  cases hFile : supervisor.statusFile with
  | none =>
    simp only [Supervisor.publishStatus, published, hFile, List.append_nil]
    exact .pure rfl
  | some path =>
    simp only [Supervisor.publishStatus, published, hFile]
    have hInvoked : RoundInvokes supervisor state history (.writeAtomicJson path status) := ⟨hFile, hTrue⟩
    exact Guarantees.ask (I := SupervisorIO) hInvoked fun answer => rfl

@[simp] theorem readings_published (status : NodeStatus) (answer : Except SupervisorError Unit) :
    readings (published supervisor status answer) = [] := by
  rw [published]
  split <;> rfl

@[simp] theorem any_drew_published (status : NodeStatus) (answer : Except SupervisorError Unit) :
    (published supervisor status answer).any drew = false := by
  rw [published]
  split <;> rfl

theorem latestVia_published (hFile : supervisor.statusFile.isSome) (status : NodeStatus)
    (answer : Except SupervisorError Unit) :
    latestVia (published supervisor status answer) = status.connectedVia := by
  obtain ⟨path, hPath⟩ := Option.isSome_iff_exists.mp hFile
  rw [published, hPath]
  cases hVia : status.connectedVia <;> simp [latestVia, statuses, statusOf, hVia]

theorem readings_append (first second : List (Event SupervisorIO)) :
    readings (first ++ second) = readings first ++ readings second := List.filterMap_append

theorem append_counted (registry : TelemetrySnapshot) (updatedAt : UInt64) :
    history ++ [⟨.telemetrySnapshot, registry⟩] ++ [⟨.unixTime, updatedAt⟩] = history ++ counted registry updatedAt :=
  List.append_assoc ..

theorem lastStage_append_silent {rest : List (Event SupervisorIO)} (h : rest.filterMap searchedOf = []) :
    lastStage (history ++ rest) = lastStage history := by
  rw [lastStage, List.filterMap_append, h, List.append_nil]
  rfl

namespace Unreported

variable {counts : List Nat} {refused : Option String} {registry : TelemetrySnapshot} {updatedAt : UInt64}
  {status : NodeStatus} {answer : Except SupervisorError Unit}

theorem latestVia (h : Unreported history counts refused) : latestVia history = none := by
  rw [Node.latestVia, h.statuses_eq]
  rfl

theorem trueStatus (h : Unreported history counts refused) (hPeer : status.peerId = supervisor.peerId)
    (hRegistry : status.registry = registry) (hClock : status.updatedAt = updatedAt)
    (hError : status.lastError = refused) (hEnds : status.transitions.getLast? = some status.state)
    (hReported : Reported supervisor state.lastConnectedVia (history ++ counted registry updatedAt) status) :
    TrueStatus supervisor state.lastConnectedVia (history ++ counted registry updatedAt) status where
  peerId_eq := hPeer
  snapshots_eq := by
    rw [snapshots, List.filterMap_append, ← snapshots, h.snapshots_eq, hRegistry]
    rfl
  clocks_eq := by
    rw [clocks, List.filterMap_append, ← clocks, h.clocks_eq, hClock]
    rfl
  refusals_eq := by
    rw [refusals, List.filterMap_append, ← refusals, h.refusals_eq, hError]
    exact List.append_nil _
  ends := hEnds
  reported := hReported

theorem readings_counted (h : Unreported history counts refused) :
    readings (history ++ counted registry updatedAt) = counts := by
  rw [readings_append, h.readings_eq]
  exact List.append_nil counts

theorem undrawn_published (h : Unreported history counts refused) :
    (history ++ counted registry updatedAt ++ published supervisor status answer).any drew = false := by
  rw [List.any_append, List.any_append, h.undrawn, any_drew_published]
  rfl

theorem latestVia_published (h : Unreported history counts refused) (hFile : supervisor.statusFile.isSome) :
    Node.latestVia (history ++ counted registry updatedAt ++ published supervisor status answer) =
      status.connectedVia := by
  rw [latestVia_append, latestVia_append, Node.latestVia_published hFile, h.latestVia]
  exact Option.or_none

end Unreported

theorem guarantees_renew (count : Nat) :
    Guarantees (RoundInvokes supervisor state) (fun trace refused => Unreported trace [count] refused)
      [⟨.adapter .connectedPeers, count⟩] supervisor.renew := by
  rw [Supervisor.renew]
  refine .ask_bind trivial fun due => ?_
  cases due with
  | false => exact .pure ⟨rfl, rfl, rfl, rfl, rfl, rfl⟩
  | true =>
    refine .ask_bind trivial fun announced => ?_
    cases announced with
    | error error => exact .pure ⟨rfl, rfl, rfl, rfl, rfl, rfl⟩
    | ok => exact .pure ⟨rfl, rfl, rfl, rfl, rfl, rfl⟩

theorem guarantees_maintain {count : Nat} (hCount : connectionTarget supervisor.policy.bootstrap ≤ count) :
    Guarantees (RoundInvokes supervisor state) (RoundLeaves supervisor state) [⟨.adapter .connectedPeers, count⟩]
      (supervisor.maintain state count) := by
  rw [Supervisor.maintain]
  refine (guarantees_renew count).bind fun trace refused hTrace => ?_
  refine .ask_bind trivial fun registry => ?_
  refine .ask_bind trivial fun updatedAt => ?_
  rw [append_counted]
  apply Guarantees.bind
  · apply guarantees_publishStatus
    exact hTrace.trueStatus rfl rfl rfl rfl rfl (.healthy hTrace.readings_counted hCount rfl rfl rfl)
  rintro _ answer rfl
  cases answer with
  | error error => exact .pure trivial
  | ok =>
    refine .ask_bind (.healthy ?_ hCount rfl) fun stopped => ?_
    · rw [readings_append, hTrace.readings_counted, readings_published]
      rfl
    cases stopped with
    | true => exact .pure trivial
    | false =>
      refine .pure ⟨?_, fun hFile => ?_⟩
      · rw [List.any_append, hTrace.undrawn_published]
        rfl
      · rw [latestVia_append_silent rfl, hTrace.latestVia_published hFile]
        exact Option.or_self.symm

theorem toNat_nextAttempts (attempts : UInt32) :
    (if attempts = 4294967295 then attempts else attempts + 1).toNat = min (attempts.toNat + 1) 4294967295 := by
  have hLt := attempts.toNat_lt
  have hMost : (4294967295 : UInt32).toNat = 4294967295 := rfl
  have hOne : (1 : UInt32).toNat = 1 := rfl
  split
  · rename_i h
    rw [h, hMost]
    rfl
  · rename_i h
    rw [← UInt32.toNat_inj, hMost] at h
    rw [UInt32.toNat_add, hOne]
    omega

theorem guarantees_backoffWithJitter :
    Guarantees (RoundInvokes supervisor state)
      (fun trace delay => ∃ maximum drawn, trace = history ++ [⟨.randomRange maximum, drawn⟩] ∧
        backoffNanos supervisor.policy state.attempts.toNat / 2 ≤ delay.asNanos ∧
        delay.asNanos ≤ backoffNanos supervisor.policy state.attempts.toNat) history
      (backoffWithJitter supervisor.policy.initialBackoff supervisor.policy.maximumBackoff state.attempts) := by
  rw [backoffWithJitter]
  refine .ask_bind trivial fun drawn => .pure ⟨_, drawn, rfl, ?_⟩
  have hDrawn := jittered_mem _ drawn.property
  rwa [asNanos_exponentialBackoff] at hDrawn

theorem connectedViaAfter_eq (result : Except BootstrapError BootstrapOutcome) (previous : Option BootstrapState) :
    connectedViaAfter result previous = (CycleReport.ofResult result).connectedVia.or previous := by
  cases result with
  | ok outcome => exact Option.orElse_eq_or
  | error error => rfl

/-- The end of a round whose cycle has ended, its reading and its report being those of the answers so far. -/
theorem guarantees_conclude {result : Except BootstrapError BootstrapOutcome} {counts : List Nat} {first : Nat}
    {cycle : List (Event Adapters)} (hHistory : history = [⟨.adapter .connectedPeers, first⟩] ++
      cycle.map adapterPart.event)
    (hCycle : ((⟨supervisor.policy.bootstrap⟩ : BootstrapController).runCycle supervisor.namespace).Runs cycle result)
    (hTrace : Unreported history counts (CycleReport.ofResult result).lastError)
    (hState : (CycleReport.ofResult result).state = if ∃ count ∈ counts,
    connectionTarget supervisor.policy.bootstrap ≤ count
      then .connected else .backoff)
    (hVia : (CycleReport.ofResult result).connectedVia =
      if (CycleReport.ofResult result).state = .connected then some (lastStage history) else none)
    (hEnds : (CycleReport.ofResult result).transitions.getLast? = some (CycleReport.ofResult result).state) :
    Guarantees (RoundInvokes supervisor state) (RoundLeaves supervisor state) history
      (supervisor.conclude state result) := by
  rw [Supervisor.conclude]
  refine .ask_bind trivial fun last => ?_
  refine .ask_bind trivial fun registry => ?_
  refine .ask_bind trivial fun updatedAt => ?_
  rw [append_counted]
  have hRead : Unreported (history ++ [⟨.adapter .connectedPeers, last⟩]) (counts ++ [last])
      (CycleReport.ofResult result).lastError := by
    obtain ⟨hUndrawn, hReadings, hStatuses, hSnapshots, hClocks, hRefusals⟩ := hTrace
    refine ⟨?_, ?_, ?_, ?_, ?_, ?_⟩
    · rw [List.any_append, hUndrawn]
      rfl
    · rw [readings_append, hReadings]
      rfl
    · rw [statuses, List.filterMap_append, ← statuses, hStatuses]
      rfl
    · rw [snapshots, List.filterMap_append, ← snapshots, hSnapshots]
      rfl
    · rw [clocks, List.filterMap_append, ← clocks, hClocks]
      rfl
    · rw [refusals, List.filterMap_append, ← refusals, hRefusals]
      exact List.append_nil _
  apply Guarantees.bind
  · apply guarantees_publishStatus
    refine hRead.trueStatus rfl rfl rfl rfl hEnds (.searched first hCycle ?_ ?_ hRead.readings_counted hState ?_)
    · rw [hHistory]
      rfl
    · cases result with
      | ok outcome => exact .outcome rfl rfl rfl rfl
      | error error => exact .failure rfl rfl rfl rfl
    · rw [hVia, List.append_assoc, lastStage_append_silent rfl]
  rintro _ answer rfl
  cases answer with
  | error error => exact .pure trivial
  | ok =>
    change Guarantees _ _ _ (if (CycleReport.ofResult result).state = .connected then _ else _)
    by_cases hConnected : (CycleReport.ofResult result).state = .connected
    · rw [if_pos hConnected]
      refine .pure ⟨?_, fun hFile => ?_⟩
      · rw [hRead.undrawn_published]
        rfl
      · rw [hRead.latestVia_published hFile]
        exact connectedViaAfter_eq result state.lastConnectedVia
    · rw [if_neg hConnected]
      have hBelow : ∀ count ∈ counts, count < connectionTarget supervisor.policy.bootstrap := by
        intro count hMem
        by_contra hReached
        exact hConnected (hState.trans (if_pos ⟨count, hMem, not_lt.mp hReached⟩))
      refine guarantees_backoffWithJitter.bind fun _ delay hDelay => ?_
      obtain ⟨maximum, drawn, rfl, hLower, hUpper⟩ := hDelay
      refine .ask_bind (.isolated last ?_ hBelow hLower hUpper) fun stopped => ?_
      · rw [readings_append, readings_append, hRead.readings_counted, readings_published, List.append_nil]
        exact List.append_nil _
      cases stopped with
      | true => exact .pure trivial
      | false =>
        refine .pure ⟨?_, fun hFile => ?_⟩
        · rw [List.any_append, List.any_append, hRead.undrawn_published]
          exact toNat_nextAttempts state.attempts
        · rw [latestVia_append_silent rfl, latestVia_append_silent rfl, hRead.latestVia_published hFile]
          exact connectedViaAfter_eq result state.lastConnectedVia

end Round

section Cycle

variable {supervisor : Supervisor} {state : SupervisorState} {controller : BootstrapController}
  {inner : List (Event Adapters)} {result : Except BootstrapError BootstrapOutcome}

theorem filterMap_lift_eq_nil {α : Type} {f : Event SupervisorIO → Option α}
    (h : ∀ event : Event Adapters, f (adapterPart.event event) = none) (inner : List (Event Adapters)) :
    (inner.map adapterPart.event).filterMap f = [] := by
  rw [List.filterMap_map, List.filterMap_eq_nil_iff]
  exact fun event _ => h event

theorem any_drew_lift (inner : List (Event Adapters)) : (inner.map adapterPart.event).any drew = false := by
  rw [List.any_map, List.any_eq_false]
  rintro ⟨query, answer⟩ -
  rintro ⟨⟩

theorem searchedOf_lift (event : Event Adapters) : searchedOf (adapterPart.event event) = sourceOf event := by
  obtain ⟨query, answer⟩ := event
  cases query <;> rfl

theorem lastStage_lift (inner : List (Event Adapters)) (before : List (Event SupervisorIO))
    (hBefore : before.filterMap searchedOf = []) :
    lastStage (before ++ inner.map adapterPart.event) = stageAfter inner := by
  have hSources : (inner.map adapterPart.event).filterMap searchedOf = sources inner := by
    rw [List.filterMap_map, sources]
    exact List.filterMap_congr fun event _ => searchedOf_lift event
  rw [lastStage, List.filterMap_append, hBefore, List.nil_append, hSources]
  rfl

def refusedText : Except BootstrapError Unit → Option String
  | .ok () => none
  | .error error => some error.toString

theorem refusals_lift (inner : List (Event Adapters)) :
    refusals (inner.map adapterPart.event) = (announcements inner).filterMap refusedText := by
  rw [refusals, List.filterMap_map, announcements, List.filterMap_filterMap]
  apply List.filterMap_congr
  rintro ⟨query, answer⟩ -
  cases query with
  | announce ttl => cases answer <;> rfl
  | _ => rfl

/-- A cycle publishes once at most, and its report carries the refusal of that publication. -/
theorem refusals_of_cycleResult (h : CycleResult controller inner result) :
    refusals (inner.map adapterPart.event) = (CycleReport.ofResult result).lastError.toList := by
  rw [refusals_lift]
  cases result with
  | error error =>
    rw [(h.error_iff error).mp rfl]
    rfl
  | ok outcome =>
    by_cases hBelow : ∀ count ∈ checks inner, count < controller.connectionTarget
    · obtain ⟨-, ⟨-, hNone⟩ | ⟨answer, -, hOne⟩⟩ := h.isolated hBelow
      · rw [hNone]
        rfl
      · cases answer with
        | ok => rw [hOne]; rfl
        | error error => cases (h.error_iff error).mpr hOne
    · push Not at hBelow
      obtain ⟨_, hResult, hConnected⟩ := h.connected_iff.mpr hBelow
      obtain rfl := Except.ok.inj hResult
      rw [(h.connected outcome rfl hConnected).1]
      rfl

theorem state_of_cycleResult (h : CycleResult controller inner result) :
    (CycleReport.ofResult result).state =
      if ∃ count ∈ checks inner, controller.connectionTarget ≤ count then .connected else .backoff := by
  split
  · rename_i hReached
    obtain ⟨outcome, rfl, hConnected⟩ := h.connected_iff.mpr hReached
    exact hConnected
  · rename_i hBelow
    cases result with
    | error error => rfl
    | ok outcome =>
      exact (h.backoff outcome rfl fun hConnected => hBelow (h.connected_iff.mp ⟨outcome, rfl, hConnected⟩)).1

theorem connectedVia_of_cycleResult (h : CycleResult controller inner result) :
    (CycleReport.ofResult result).connectedVia =
      if (CycleReport.ofResult result).state = .connected then some (stageAfter inner) else none := by
  split
  · rename_i hConnected
    cases result with
    | error error => cases hConnected
    | ok outcome =>
      obtain ⟨-, -, before, count, rfl, -, -, hVia⟩ := h.connected outcome rfl hConnected
      have hStage : stageAfter (before ++ [⟨.connectedPeers, count⟩]) = stageAfter before := by
        rw [stageAfter, sources_concat]
        exact congrArg (fun asked => (asked.getLast?.map Source.state).getD .start) (List.append_nil _)
      rw [hStage]
      exact hVia
  · rename_i hNot
    cases result with
    | error error => rfl
    | ok outcome => exact (h.backoff outcome rfl hNot).2.1

theorem ends_of_cycleResult (h : CycleResult controller inner result) :
    (CycleReport.ofResult result).transitions.getLast? = some (CycleReport.ofResult result).state := by
  cases result with
  | error error => rfl
  | ok outcome => exact (h.transitions_eq outcome rfl).2

theorem unreported_of_cycleResult (h : CycleResult controller inner result) (count : Nat) :
    Unreported ([⟨.adapter .connectedPeers, count⟩] ++ inner.map adapterPart.event) (count :: checks inner)
      (CycleReport.ofResult result).lastError where
  undrawn := by
    rw [List.any_append, any_drew_lift]
    rfl
  readings_eq := by
    rw [readings_append, readings_lift]
    rfl
  statuses_eq := by
    rw [statuses, List.filterMap_append, filterMap_lift_eq_nil fun _ => rfl]
    rfl
  snapshots_eq := by
    rw [snapshots, List.filterMap_append, filterMap_lift_eq_nil fun _ => rfl]
    rfl
  clocks_eq := by
    rw [clocks, List.filterMap_append, filterMap_lift_eq_nil fun _ => rfl]
    rfl
  refusals_eq := by
    rw [refusals, List.filterMap_append, ← refusals, ← refusals, refusals_of_cycleResult h]
    rfl

theorem guarantees_cycleResult (ns : Namespace) (count : Nat) :
    Guarantees (RoundInvokes supervisor state)
      (fun trace result => ∃ inner, trace = [⟨.adapter .connectedPeers, count⟩] ++ inner.map adapterPart.event ∧
        (controller.runCycle ns).Runs inner result ∧ CycleResult controller inner result)
      [⟨.adapter .connectedPeers, count⟩] (adapterPart.lift (controller.runCycle ns)) where
  reaches hReaches := by
    obtain ⟨inner, query, -, rfl, -⟩ := adapterPart.reaches_lift.mp hReaches
    trivial
  runs hRuns := by
    obtain ⟨inner, rfl, hInner⟩ := adapterPart.runs_lift.mp hRuns
    exact ⟨inner, rfl, hInner, (guarantees_runCycle controller ns).runs hInner⟩

end Cycle

/-- What one round may invoke, and what it leaves for the next. -/
theorem guarantees_round_reports (supervisor : Supervisor) (state : SupervisorState) :
    Guarantees (RoundInvokes supervisor state) (RoundLeaves supervisor state) [] (supervisor.round state) := by
  rw [Supervisor.round]
  refine .ask_bind trivial fun count => ?_
  split
  · rename_i hGoal
    exact guarantees_maintain hGoal
  · rename_i hGoal
    refine (guarantees_cycleResult supervisor.namespace count).bind fun trace result hTrace => ?_
    obtain ⟨inner, rfl, hCycle, hResult⟩ := hTrace
    apply guarantees_conclude rfl hCycle (unreported_of_cycleResult hResult count)
    · rw [state_of_cycleResult hResult, ← connectionTarget_eq ⟨supervisor.policy.bootstrap⟩]
      simp only [List.mem_cons, exists_eq_or_imp, hGoal, false_or]
    · rw [lastStage_lift inner _ rfl]
      exact connectedVia_of_cycleResult hResult
    · exact ends_of_cycleResult hResult

section Run

variable {supervisor : Supervisor} {rounds : List (List (Event SupervisorIO))} {current : List (Event SupervisorIO)}
  {state : SupervisorState}

/-- The two variables of the loop, told from the rounds completed. -/
theorem state_of_rounds (h : Rounds supervisor.round .new rounds state) :
    state.attempts.toNat = min (retries rounds) 4294967295 ∧
      (supervisor.statusFile.isSome → state.lastConnectedVia = latestVia rounds.flatten) := by
  induction h with
  | nil => exact ⟨rfl, fun _ => rfl⟩
  | @concat rounds round state next hRounds hRound ih =>
    obtain ⟨hAttempts, hVia⟩ := ih
    obtain ⟨hNext, hNamed⟩ := (guarantees_round_reports supervisor state).runs hRound
    rw [List.nil_append] at hNext hNamed
    constructor
    · rw [hNext, retries_concat, hAttempts]
      split
      · omega
      · rfl
    · intro hFile
      rw [hNamed hFile, hVia hFile, List.flatten_append, List.flatten_singleton, latestVia_append]

/-- In every run, each wait of a healthy node is the poll interval, and each other one is drawn from the upper half of
the backoff for the number of retries right before it. -/
theorem retries_back_off {delay : Duration} (hRun : supervisor.RunReaches rounds current (.waitOrShutdown delay)) :
    Rested supervisor (retries rounds) current delay := by
  obtain ⟨state, hRounds, hCurrent⟩ := hRun
  have hRested : Rested supervisor state.attempts.toNat current delay :=
    (guarantees_round_reports supervisor state).reaches hCurrent
  have hBackoff : backoffNanos supervisor.policy state.attempts.toNat = backoffNanos supervisor.policy
    (retries rounds) := by
    have hTwenty : min (min (retries rounds) 4294967295) 20 = min (retries rounds) 20 := by omega
    rw [backoffNanos, (state_of_rounds hRounds).1, hTwenty]
    rfl
  cases hRested with
  | healthy hReadings hCount hDelay => exact .healthy hReadings hCount hDelay
  | isolated last hReadings hCounts hLower hUpper =>
    rw [hBackoff] at hLower hUpper
    exact .isolated last hReadings hCounts hLower hUpper

/-- A search that finds nobody, up to the wait behind it. -/
def emptyPart (drawn : Event SupervisorIO) : List (Event SupervisorIO) :=
  searchPart ++ [⟨.adapter (.discover .registry testNamespace), .ok []⟩, ⟨.adapter .eligible, false⟩,
    ⟨.adapter .connectedPeers, (0 : Nat)⟩, ⟨.telemetrySnapshot, noCounters⟩, ⟨.unixTime, (1000 : UInt64)⟩, drawn]

def firstDraw : Event SupervisorIO := ⟨.randomRange 2500000000, ⟨0, by decide⟩⟩

def secondDraw : Event SupervisorIO := ⟨.randomRange 5000000000, ⟨5000000000, by decide⟩⟩

theorem retries_back_off_second :
    Rested seedSupervisor 1 (emptyPart secondDraw) ⟨10, 0⟩ := by
  have hRounds : Rounds seedSupervisor.round .new
      [emptyPart firstDraw ++ [⟨.waitOrShutdown ⟨2, 500000000⟩, false⟩]] ⟨1, none⟩ :=
    .concat .nil (Prog.runs_of_replay (by decide +kernel))
  have hWait : (seedSupervisor.round ⟨1, none⟩).Reaches (emptyPart secondDraw) (.waitOrShutdown ⟨10, 0⟩) :=
    Prog.reaches_of_awaits (by decide +kernel)
  exact retries_back_off ⟨_, hRounds, hWait⟩

/-- Every status written in a run agrees with the answers of its round, and repeats the source named before it. -/
theorem statuses_true {path : String} {status : NodeStatus}
    (hRun : supervisor.RunReaches rounds current (.writeAtomicJson path status)) :
    supervisor.statusFile = some path ∧ TrueStatus supervisor (latestVia rounds.flatten) current status := by
  obtain ⟨state, hRounds, hCurrent⟩ := hRun
  obtain ⟨hFile, hTrue⟩ := (guarantees_round_reports supervisor state).reaches hCurrent
  rw [(state_of_rounds hRounds).2 (by rw [hFile]; rfl)] at hTrue
  exact ⟨hFile, hTrue⟩

def reportingSupervisor : Supervisor := { seedSupervisor with statusFile := some "status.json" }

/-- What the first cycle reports once its scan has found a peer. -/
def scanStatus : NodeStatus where
  peerId := seedSupervisor.peerId
  state := .connected
  connectedPeers := 1
  connectedVia := some .resurrectScan
  transitions := [.start, .cacheDiscovery, .nativeDiscovery, .resurrectScan, .dialing, .resurrectScan, .connected]
  registry := noCounters
  lastError := none
  updatedAt := 1000

def refusedRenewal : List (Event SupervisorIO) :=
  [⟨.adapter .connectedPeers, (2 : Nat)⟩, ⟨.renewalDue, true⟩,
    ⟨.adapter (.announce ⟨2592000, 0⟩), .error (.announcement "no gas")⟩, ⟨.telemetrySnapshot, noCounters⟩,
    ⟨.unixTime, (1015 : UInt64)⟩]

/-- A healthy node whose renewal is refused still names the scan that connected it. -/
theorem statuses_true_renewal : TrueStatus reportingSupervisor (some .resurrectScan) refusedRenewal
    ⟨seedSupervisor.peerId, .connected, 2, some .resurrectScan, [.connected], noCounters,
      some "self-announcement failed: no gas", 1015⟩ := by
  have hRounds : Rounds reportingSupervisor.round .new
      [scanRound ++ [⟨.writeAtomicJson "status.json" scanStatus, .ok ()⟩]] dialedState :=
    .concat .nil (Prog.runs_of_replay (by decide +kernel))
  have hWrite : (reportingSupervisor.round dialedState).Reaches refusedRenewal (.writeAtomicJson "status.json"
      ⟨seedSupervisor.peerId, .connected, 2, some .resurrectScan, [.connected], noCounters,
        some "self-announcement failed: no gas", 1015⟩) :=
    Prog.reaches_of_awaits (by decide)
  exact (statuses_true ⟨_, hRounds, hWrite⟩).2

end Run

end Resurrect.Node
