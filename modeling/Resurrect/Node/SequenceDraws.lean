import Resurrect.Core.CandidateStore
import Resurrect.Node.AnnounceRuns
import Resurrect.Node.Rediscovery

/-! # Sequences across restarts

The counter lives in the process and starts from the clock. Between two restarts
it only counts draws, and the clock runs ahead of it: whatever becomes of the
attempts, what is handed to the provider later has the greater sequence.
-/

namespace Resurrect.Node

open Resurrect.Core Interaction Ethereum Bootstrap Libp2p

/-- A call of `announce`, and the time at which it draws its sequence if it comes so far. It returns, or it is
dropped while it awaits an answer. -/
structure Attempt where
  ttl : Duration
  found : AnnouncerState
  time : Duration
  answered : List (Event AnnouncerIO)
  ending : AnnouncerQuery ⊕ (Except BootstrapError Unit × AnnouncerState)

/-- A record as it was handed to the provider, with the sequence drawn for it. -/
structure Submission where
  sequence : UInt64
  record : Bytes
  deriving DecidableEq, Repr

/-- The queries of `announce` behind its draw. -/
def behindDraw : AnnouncerQuery → Bool
  | .provider (.announce ..) => true
  | .systemTime => true
  | .randomRange _ => true
  | _ => false

namespace Attempt

variable {library : Library} (announcer : RegistryAnnouncer library) (self : Attempt)

def Made : Prop :=
  match self.ending with
  | .inl target => (announcer.announce self.ttl self.found).Reaches self.answered target
  | .inr result => (announcer.announce self.ttl self.found).Runs self.answered result

def invoked : List AnnouncerQuery :=
  self.answered.map Event.query ++
    match self.ending with
    | .inl target => [target]
    | .inr _ => []

def submissions : List Submission :=
  (self.invoked.filterMap submittedRecord).map fun record => ⟨self.found.sequence, record⟩

/-- The counter as the attempt leaves it. Nothing is awaited between the draw and the submission. -/
def sequenceAfter : UInt64 :=
  match self.ending with
  | .inl target => if behindDraw target then self.found.sequence + 1 else self.found.sequence
  | .inr (_, left) => left.sequence

def draws : Bool := decide (self.sequenceAfter ≠ self.found.sequence)

end Attempt

/-- The attempts in the order of their draws, each starting from the counter the one before it left. -/
def Counts : UInt64 → List Attempt → Prop
  | _, [] => True
  | counter, attempt :: rest => attempt.found.sequence = counter ∧ Counts attempt.sequenceAfter rest

/-- A process: its announcer is created, and then asked to announce any number of times. -/
structure Process (library : Library) where
  announcer : RegistryAnnouncer library
  constructed : Duration
  attempts : List Attempt

namespace Process

structure Valid {library : Library} (process : Process library) : Prop where
  made : ∀ attempt ∈ process.attempts, attempt.Made process.announcer
  counts : Counts (AnnouncerState.new (some process.constructed)).sequence process.attempts

variable {library : Library} (self : Process library)

def submissions : List Submission := self.attempts.flatMap Attempt.submissions

def drawTimes : List Duration := (self.attempts.filter Attempt.draws).map Attempt.time

def times : List Duration := self.constructed :: self.drawTimes

end Process

/-- A clock that never goes back and whose microseconds fit, draws no faster than one a microsecond, and a
microsecond between the last draw of a process and the next process. -/
structure Timeline {library : Library} (processes : List (Process library)) : Prop where
  monotone : (processes.flatMap Process.times).Pairwise fun earlier later => earlier.asNanos ≤ later.asNanos
  fits : ∀ process ∈ processes, ∀ time ∈ process.times, time.asNanos / 1000 < 18446744073709551616
  paced : ∀ process ∈ processes, ∀ k time, process.drawTimes[k]? = some time →
    process.constructed.asNanos + k * 1000 ≤ time.asNanos
  restarts : processes.IsChain fun earlier later => ∀ last, earlier.drawTimes.getLast? = some last →
    last.asNanos + 1000 ≤ later.constructed.asNanos

/-- What becomes of an attempt: the counter stays and nothing is submitted, or one sequence is drawn and at most the
record signed under it is submitted. -/
inductive Attempt.Outcome {library : Library} (announcer : RegistryAnnouncer library) (attempt : Attempt) : Prop
  | undrawn (hAfter : attempt.sequenceAfter = attempt.found.sequence) (hNone : attempt.submissions = [])
  | unsubmitted (hAfter : attempt.sequenceAfter = attempt.found.sequence + 1) (hNone : attempt.submissions = [])
  | submitted {record : Bytes} (hAfter : attempt.sequenceAfter = attempt.found.sequence + 1)
      (hSign : signPeerRecord library announcer.keypair attempt.found.sequence announcer.addresses = .ok record)
      (hOne : attempt.submissions = [⟨attempt.found.sequence, record⟩])

section Attempts

theorem Attempt.Outcome.submissions {library : Library} {announcer : RegistryAnnouncer library} {attempt : Attempt}
    (h : attempt.Outcome announcer) : (∀ submission ∈ attempt.submissions, submission.sequence = attempt.found.sequence) ∧
      attempt.submissions.Pairwise fun earlier later => earlier.sequence < later.sequence := by
  cases h with
  | undrawn hAfter hNone => simp [hNone]
  | unsubmitted hAfter hNone => simp [hNone]
  | submitted hAfter hSign hOne => simp [hOne]

theorem Attempt.Outcome.signed {library : Library} {announcer : RegistryAnnouncer library} {attempt : Attempt}
    (h : attempt.Outcome announcer) : ∀ submission ∈ attempt.submissions,
      signPeerRecord library announcer.keypair submission.sequence announcer.addresses = .ok submission.record := by
  cases h with
  | undrawn hAfter hNone => simp [hNone]
  | unsubmitted hAfter hNone => simp [hNone]
  | submitted hAfter hSign hOne => simpa [hOne] using hSign

variable {library : Library} {announcer : RegistryAnnouncer library} {ttl : Duration} {found : AnnouncerState}
  {time : Duration} {answered : List (Event AnnouncerIO)}

def recordsOf (trace : List (Event AnnouncerIO)) : List Bytes := trace.filterMap fun event => submittedRecord event.query

@[simp] theorem recordsOf_append (first second : List (Event AnnouncerIO)) :
    recordsOf (first ++ second) = recordsOf first ++ recordsOf second := List.filterMap_append

theorem recordsOf_eq_nil {trace : List (Event AnnouncerIO)} (h : ∀ event ∈ trace, submits event.query = false) :
    recordsOf trace = [] := by
  apply List.filterMap_eq_nil_iff.mpr
  intro event hMem
  simpa [submits] using h event hMem

theorem recordsOf_checks {trace : List (Event AnnouncerIO)} {checked : Except BootstrapError UInt32}
    (h : (announcer.checkRegistry ttl).run.Runs trace checked) : recordsOf trace = [] :=
  recordsOf_eq_nil (RegistryAnnouncer.not_submits_checks h)

theorem not_behindDraw_of_check {history : List (Event AnnouncerIO)} {target : AnnouncerQuery}
    (h : Invokes (announcer.checkRegistry ttl) history target) : behindDraw target = false := by
  obtain rfl | ⟨address, rfl⟩ := RegistryAnnouncer.invokes_checkRegistry h
  · rfl
  · rfl

theorem submissions_returned (result : Except BootstrapError Unit × AnnouncerState) :
    (Attempt.mk ttl found time answered (.inr result)).submissions =
      (recordsOf answered).map fun record => ⟨found.sequence, record⟩ := by
  rw [Attempt.submissions, Attempt.invoked, recordsOf]
  dsimp only
  rw [List.append_nil, List.filterMap_map]
  rfl

theorem submissions_dropped (target : AnnouncerQuery) :
    (Attempt.mk ttl found time answered (.inl target)).submissions =
      (recordsOf answered ++ (submittedRecord target).toList).map fun record => ⟨found.sequence, record⟩ := by
  have hTarget : [target].filterMap submittedRecord = (submittedRecord target).toList := by
    cases hRecord : submittedRecord target <;> simp [hRecord]
  rw [Attempt.submissions, Attempt.invoked, recordsOf]
  dsimp only
  rw [List.filterMap_append, List.filterMap_map, hTarget]
  rfl

theorem outcome_of_runs {result : Except BootstrapError Unit × AnnouncerState}
    (h : (announcer.announce ttl found).Runs answered result) :
    Attempt.Outcome announcer ⟨ttl, found, time, answered, .inr result⟩ := by
  cases RegistryAnnouncer.announceRun_of_runs h with
  | ineligible hEligible => exact .undrawn rfl (by rw [submissions_returned]; rfl)
  | unchecked hCheck => exact .undrawn rfl (by rw [submissions_returned, recordsOf_checks hCheck]; rfl)
  | attempted hCheck hPublish =>
    have hChecks := recordsOf_checks hCheck
    cases hPublish with
    | unsigned hSign =>
      refine .unsubmitted rfl ?_
      rw [submissions_returned, recordsOf_append, hChecks]
      rfl
    | refused hSign =>
      refine .submitted rfl hSign ?_
      rw [submissions_returned, recordsOf_append, hChecks]
      rfl
    | unclocked hSign =>
      refine .submitted rfl hSign ?_
      rw [submissions_returned, recordsOf_append, hChecks]
      rfl
    | @scheduled record transaction time drawn renewalAfter hSign hRenewal =>
      refine .submitted rfl hSign ?_
      have hDrawn : recordsOf (⟨.systemTime, some time⟩ :: drawn) = [] :=
        recordsOf_eq_nil (List.forall_mem_cons.mpr ⟨rfl, (runs_jitteredRenewal hRenewal).1⟩)
      rw [submissions_returned, recordsOf_append, hChecks, ← List.singleton_append, recordsOf_append, hDrawn]
      rfl

theorem outcome_of_reaches {target : AnnouncerQuery} (h : (announcer.announce ttl found).Reaches answered target) :
    Attempt.Outcome announcer ⟨ttl, found, time, answered, .inl target⟩ := by
  obtain h | ⟨checks, checked, published, rfl, hCheck, h⟩ := RegistryAnnouncer.reaches_announce h
  · have hAnswered : recordsOf answered = [] := by
      apply recordsOf_eq_nil
      intro event hMem
      obtain ⟨before, after, rfl⟩ := List.append_of_mem hMem
      exact RegistryAnnouncer.not_submits_of_check (Prog.Reaches.before h)
    have hTarget : submittedRecord target = none := by
      simpa [submits] using RegistryAnnouncer.not_submits_of_check h
    refine .undrawn (if_neg (by simp [not_behindDraw_of_check h])) ?_
    rw [submissions_dropped, hAnswered, hTarget]
    rfl
  · obtain ⟨record, hSign, ⟨rfl, rfl⟩ | ⟨transaction, later, rfl, hLater, hTarget⟩⟩ :=
      RegistryAnnouncer.reaches_publish h
    · refine .submitted rfl hSign ?_
      rw [submissions_dropped, recordsOf_append, recordsOf_checks hCheck]
      rfl
    · have hQuiet : submittedRecord target = none ∧ behindDraw target = true := by
        obtain rfl | ⟨maximum, rfl⟩ := hTarget
        · exact ⟨rfl, rfl⟩
        · exact ⟨rfl, rfl⟩
      refine .submitted (if_pos hQuiet.2) hSign ?_
      rw [submissions_dropped, recordsOf_append, recordsOf_checks hCheck, ← List.singleton_append, recordsOf_append,
        recordsOf_eq_nil hLater, hQuiet.1]
      rfl

theorem Attempt.Made.outcome {attempt : Attempt} (h : attempt.Made announcer) : attempt.Outcome announcer := by
  obtain ⟨ttl, found, time, answered, target | result⟩ := attempt
  · exact outcome_of_reaches h
  · exact outcome_of_runs h

end Attempts

section Counting

variable {library : Library} {announcer : RegistryAnnouncer library}

def drawCount (attempts : List Attempt) : Nat := (attempts.filter Attempt.draws).length

theorem succ_ne_self (counter : UInt64) : counter + 1 ≠ counter := by
  intro h
  have hNat := congrArg UInt64.toNat h
  have hLt := counter.toNat_lt
  rw [UInt64.toNat_add, UInt64.toNat_one] at hNat
  omega

theorem Attempt.sequenceAfter_of_not_draws (attempt : Attempt) (hDraws : ¬ attempt.draws) :
    attempt.sequenceAfter = attempt.found.sequence := by
  simpa [Attempt.draws] using hDraws

theorem Attempt.Outcome.sequenceAfter_of_draws {attempt : Attempt} (h : attempt.Outcome announcer)
    (hDraws : attempt.draws) : attempt.sequenceAfter = attempt.found.sequence + 1 := by
  cases h with
  | undrawn hAfter hNone => exact absurd hAfter (of_decide_eq_true hDraws)
  | unsubmitted hAfter hNone => exact hAfter
  | submitted hAfter hSign hOne => exact hAfter

theorem Attempt.Outcome.submissions_of_not_draws {attempt : Attempt} (h : attempt.Outcome announcer)
    (hDraws : ¬ attempt.draws) : attempt.submissions = [] := by
  cases h with
  | undrawn hAfter hNone => exact hNone
  | unsubmitted hAfter hNone => exact hNone
  | submitted hAfter hSign hOne =>
    rw [attempt.sequenceAfter_of_not_draws hDraws] at hAfter
    exact absurd hAfter.symm (succ_ne_self _)

/-- The submissions of attempts that draw at most to the end of the counter's range lie between the counter's first
and its last value, in order. -/
theorem Counts.ordered {counter : UInt64} {attempts : List Attempt} (h : Counts counter attempts)
    (hMade : ∀ attempt ∈ attempts, attempt.Made announcer)
    (hFits : counter.toNat + drawCount attempts ≤ 18446744073709551616) :
    (∀ submission ∈ attempts.flatMap Attempt.submissions, counter.toNat ≤ submission.sequence.toNat ∧
      submission.sequence.toNat < counter.toNat + drawCount attempts) ∧
    (attempts.flatMap Attempt.submissions).Pairwise fun earlier later => earlier.sequence < later.sequence := by
  induction attempts generalizing counter with
  | nil => simp
  | cons attempt rest ih =>
    obtain ⟨hFound, hRest⟩ := h
    have hRestMade : ∀ other ∈ rest, other.Made announcer := fun other hMem => hMade other (List.mem_cons_of_mem _ hMem)
    have hOutcome := (hMade attempt (List.mem_cons_self ..)).outcome
    rw [List.flatMap_cons]
    by_cases hDraws : attempt.draws
    · have hCount : drawCount (attempt :: rest) = drawCount rest + 1 := by
        rw [drawCount, List.filter_cons_of_pos hDraws, List.length_cons, drawCount]
      rw [hCount] at hFits ⊢
      rw [hOutcome.sequenceAfter_of_draws hDraws, hFound] at hRest
      -- the last draw may wrap the counter, but then nothing is drawn any more
      have hNext : (counter + 1).toNat = counter.toNat + 1 ∨ (counter + 1).toNat = 0 ∧ drawCount rest = 0 := by
        have hLt := counter.toNat_lt
        rw [UInt64.toNat_add, UInt64.toNat_one]
        omega
      obtain ⟨hWithin, hOrdered⟩ := ih hRest hRestMade (by omega)
      have hLater : ∀ submission ∈ rest.flatMap Attempt.submissions, counter.toNat < submission.sequence.toNat ∧
          submission.sequence.toNat < counter.toNat + (drawCount rest + 1) := by
        intro submission hMem
        have hBounds := hWithin submission hMem
        omega
      obtain ⟨hHead, hSingle⟩ := hOutcome.submissions
      rw [hFound] at hHead
      constructor
      · intro submission hMem
        obtain hMem | hMem := List.mem_append.mp hMem
        · rw [hHead submission hMem]
          omega
        · exact ⟨(hLater submission hMem).1.le, (hLater submission hMem).2⟩
      · refine List.pairwise_append.mpr ⟨hSingle, hOrdered, fun earlier hEarlier later hLate => ?_⟩
        rw [hHead earlier hEarlier, UInt64.lt_iff_toNat_lt]
        exact (hLater later hLate).1
    · have hCount : drawCount (attempt :: rest) = drawCount rest := by
        rw [drawCount, List.filter_cons_of_neg hDraws, drawCount]
      rw [attempt.sequenceAfter_of_not_draws hDraws, hFound] at hRest
      rw [hOutcome.submissions_of_not_draws hDraws, List.nil_append, hCount]
      rw [hCount] at hFits
      exact ih hRest hRestMade hFits

end Counting

section Processes

variable {library : Library} {processes : List (Process library)} {process : Process library}

def micros (time : Duration) : Nat := time.asNanos / 1000

theorem toNat_sequenceNow {time : Duration} (h : time.asNanos / 1000 < 18446744073709551616) :
    (sequenceNow (some time)).toNat = micros time := by
  rw [sequenceNow, if_pos h, UInt64.toNat_ofNat_of_lt' h, micros]

theorem drawCount_eq (process : Process library) : drawCount process.attempts = process.drawTimes.length := by
  rw [drawCount, Process.drawTimes, List.length_map]

/-- Counting from its construction, a process does not get ahead of the clock. -/
theorem Timeline.micros_last (h : Timeline processes) (hMem : process ∈ processes) {last : Duration}
    (hLast : process.drawTimes.getLast? = some last) :
    micros process.constructed + drawCount process.attempts ≤ micros last + 1 := by
  rw [List.getLast?_eq_getElem?] at hLast
  have hPaced := h.paced process hMem _ last hLast
  rw [drawCount_eq, micros, micros]
  omega

theorem Timeline.fits_counter (h : Timeline processes) (hMem : process ∈ processes) :
    (sequenceNow (some process.constructed)).toNat + drawCount process.attempts ≤ 18446744073709551616 := by
  rw [toNat_sequenceNow (h.fits process hMem _ (List.mem_cons_self ..))]
  cases hLast : process.drawTimes.getLast? with
  | none =>
    have hNone := List.getLast?_eq_none_iff.mp hLast
    have hFits := h.fits process hMem _ (List.mem_cons_self ..)
    rw [drawCount_eq, hNone, micros, List.length_nil]
    omega
  | some last =>
    have hLe := h.micros_last hMem hLast
    have hFits := h.fits process hMem last (List.mem_cons_of_mem _ (List.mem_of_getLast? hLast))
    rw [micros, micros] at *
    omega

theorem Timeline.of_cons (h : Timeline (process :: processes)) : Timeline processes where
  monotone := by
    have hMonotone := h.monotone
    rw [List.flatMap_cons] at hMonotone
    exact (List.pairwise_append.mp hMonotone).2.1
  fits other hMem := h.fits other (List.mem_cons_of_mem _ hMem)
  paced other hMem := h.paced other (List.mem_cons_of_mem _ hMem)
  restarts := h.restarts.of_cons

/-- A process is constructed after the last draw of every process before it. -/
theorem Timeline.constructed_after (h : Timeline (process :: processes)) {last : Duration}
    (hLast : process.drawTimes.getLast? = some last) : ∀ later ∈ processes, micros last < micros later.constructed := by
  cases processes with
  | nil => simp
  | cons next rest =>
    have hNext := (List.isChain_cons_cons.mp h.restarts).1 last hLast
    have hMonotone := h.of_cons.monotone
    rw [List.flatMap_cons, Process.times, List.cons_append, List.pairwise_cons] at hMonotone
    intro later hMem
    have hLe : next.constructed.asNanos ≤ later.constructed.asNanos := by
      obtain rfl | hMem := List.mem_cons.mp hMem
      · exact le_rfl
      · refine hMonotone.1 _ (List.mem_append_right _ (List.mem_flatMap.mpr ⟨later, hMem, ?_⟩))
        exact List.mem_cons_self ..
    rw [micros, micros]
    omega

theorem Process.Valid.ordered (hValid : process.Valid) (h : Timeline processes) (hMem : process ∈ processes) :
    (∀ submission ∈ process.submissions, micros process.constructed ≤ submission.sequence.toNat ∧
      submission.sequence.toNat < micros process.constructed + drawCount process.attempts) ∧
    process.submissions.Pairwise fun earlier later => earlier.sequence < later.sequence := by
  rw [← toNat_sequenceNow (h.fits process hMem _ (List.mem_cons_self ..))]
  exact hValid.counts.ordered hValid.made (h.fits_counter hMem)

theorem increasing_sequences (hValid : ∀ process ∈ processes, process.Valid) (h : Timeline processes) :
    (processes.flatMap Process.submissions).Pairwise fun earlier later => earlier.sequence < later.sequence := by
  induction processes with
  | nil => exact .nil
  | cons process rest ih =>
    have hHere := (hValid process (List.mem_cons_self ..)).ordered h (List.mem_cons_self ..)
    rw [List.flatMap_cons, List.pairwise_append]
    refine ⟨hHere.2, ih (fun other hMem => hValid other (List.mem_cons_of_mem _ hMem)) h.of_cons, ?_⟩
    intro earlier hEarlier later hLater
    obtain ⟨next, hNext, hLater⟩ := List.mem_flatMap.mp hLater
    have hBefore := hHere.1 earlier hEarlier
    have hAfter := ((hValid next (List.mem_cons_of_mem _ hNext)).ordered h (List.mem_cons_of_mem _ hNext)).1 later hLater
    cases hLast : process.drawTimes.getLast? with
    | none =>
      have hNone := List.getLast?_eq_none_iff.mp hLast
      rw [drawCount_eq, hNone, List.length_nil] at hBefore
      omega
    | some last =>
      have hAhead := h.micros_last (List.mem_cons_self ..) hLast
      have hConstructed := h.constructed_after hLast next hNext
      rw [UInt64.lt_iff_toNat_lt]
      omega

end Processes

/-- Over any number of restarts and attempts, however they end, what is handed to the provider is signed under
sequences that strictly increase, so that a later record supersedes an earlier one. -/
theorem sequences_increase {library : Library} {processes : List (Process library)}
    (hValid : ∀ process ∈ processes, process.Valid) (hTimeline : Timeline processes) :
    (∀ process ∈ processes, ∀ submission ∈ process.submissions, signPeerRecord library process.announcer.keypair
      submission.sequence process.announcer.addresses = .ok submission.record) ∧
    (processes.flatMap Process.submissions).Pairwise fun earlier later => earlier.sequence < later.sequence ∧
      ∀ older newer : PeerCandidate, older.sequence = earlier.sequence → newer.sequence = later.sequence →
        compareFreshness newer older = .gt := by
  constructor
  · intro process hMem submission hSubmission
    obtain ⟨attempt, hAttempt, hSubmission⟩ := List.mem_flatMap.mp hSubmission
    exact ((hValid process hMem).made attempt hAttempt).outcome.signed submission hSubmission
  · refine (increasing_sequences hValid hTimeline).imp fun hLt => ⟨hLt, ?_⟩
    rintro older newer hOlder hNewer
    rw [compareFreshness_eq_gt, PeerCandidate.freshness, PeerCandidate.freshness, Prod.Lex.toLex_lt_toLex]
    left
    rw [hOlder, hNewer]
    exact UInt64.lt_iff_toNat_lt.mp hLt

def vectorChecks : List (Event AnnouncerIO) := vectorAnnouncement.take 2

/-- The provider refuses the first record of the first process. -/
def refusedAttempt : Attempt where
  ttl := ⟨2592000, 0⟩
  found := ⟨42, 0, 0⟩
  time := ⟨0, 42000⟩
  answered := vectorChecks ++ [⟨vectorAnnouncer.submission 2592000 browserRecord, .error .readOnly⟩]
  ending := .inr (.error (.announcement "registry provider is read-only"), ⟨43, 0, 0⟩)

def restartedAnnouncer : RegistryAnnouncer vectorLibrary := { vectorAnnouncer with addresses := [.native] }

def nativeRecord : Bytes :=
  (sealedEnvelope vectorLibrary () (recordPayload vectorLibrary () 43 [.native]).encodeToVec nativeSignature).encodeToVec

/-- The second process goes down while the provider has its record. -/
def droppedAttempt : Attempt where
  ttl := ⟨2592000, 0⟩
  found := ⟨43, 0, 0⟩
  time := ⟨0, 43000⟩
  answered := vectorChecks
  ending := .inl (restartedAnnouncer.submission 2592000 nativeRecord)

def restartedProcesses : List (Process vectorLibrary) :=
  [⟨vectorAnnouncer, ⟨0, 42000⟩, [refusedAttempt]⟩, ⟨restartedAnnouncer, ⟨0, 43000⟩, [droppedAttempt]⟩]

theorem paced_of_single {process : Process vectorLibrary} {only : Duration} (h : process.drawTimes = [only])
    (hLe : process.constructed.asNanos ≤ only.asNanos) (k : Nat) (time : Duration)
    (hTime : process.drawTimes[k]? = some time) : process.constructed.asNanos + k * 1000 ≤ time.asNanos := by
  rw [h, List.getElem?_singleton] at hTime
  split at hTime
  · rename_i hFirst
    rw [hFirst, ← Option.some.inj hTime]
    omega
  · cases hTime

theorem sequences_increase_restarted :
    restartedProcesses.flatMap Process.submissions = [⟨42, browserRecord⟩, ⟨43, nativeRecord⟩] ∧
    (restartedProcesses.flatMap Process.submissions).Pairwise fun earlier later => earlier.sequence < later.sequence := by
  have hRefused : refusedAttempt.Made vectorAnnouncer := Prog.runs_of_replay (by decide +kernel)
  have hDropped : droppedAttempt.Made restartedAnnouncer := Prog.reaches_of_awaits (by decide +kernel)
  have hValid : ∀ process ∈ restartedProcesses, process.Valid := by
    intro process hMem
    obtain rfl | hMem := List.mem_cons.mp hMem
    · exact ⟨List.forall_mem_singleton.mpr hRefused, by decide, trivial⟩
    · rw [List.mem_singleton.mp hMem]
      exact ⟨List.forall_mem_singleton.mpr hDropped, by decide, trivial⟩
  have hTimeline : Timeline restartedProcesses := by
    constructor
    · decide
    · decide
    · intro process hMem
      rw [restartedProcesses] at hMem
      obtain rfl | hMem := List.mem_cons.mp hMem
      · exact paced_of_single rfl (by decide)
      · rw [List.mem_singleton.mp hMem]
        exact paced_of_single rfl (by decide)
    · refine List.isChain_cons_cons.mpr ⟨?_, .singleton _⟩
      rintro last ⟨⟩
      decide
  exact ⟨by decide +kernel, (sequences_increase hValid hTimeline).2.imp fun h => h.1⟩

end Resurrect.Node
