import Resurrect.Bootstrap.CycleContract
import Resurrect.Node.AnnounceRuns
import Resurrect.Node.Rediscovery
import Resurrect.Node.ScanPacing

/-! # The spacing of renewals

One supervisor over one announcer. Promotion of an isolated node and renewal of a
connected one share the renewal time; `announce` does not look at it again, so
everything rests on what the supervisor asks right before.
-/

namespace Resurrect.Node

open Resurrect.Core Interaction Ethereum Bootstrap Libp2p

variable {library : Library}

attribute [local irreducible] jitteredRenewal

/-- The announcer's part in what the supervisor runs over. -/
def RegistryAnnouncer.service (announcer : RegistryAnnouncer library) : (query : SupervisorQuery) → AnnouncerState →
    Option (Prog AnnouncerIO ( SupervisorIO.Answer query × AnnouncerState))
  | .renewalDue, state => some do
      let due ← announcer.renewalDue state
      pure (due, state)
  | .adapter .eligible, state => some do
      let eligible ← announcer.promotionEligible state
      pure (eligible, state)
  | .adapter (.announce ttl), state => some (announcer.announce ttl state)
  | _, _ => none

/-- An answered query of the supervisor's, and what the announcer asked to answer it. -/
structure Exchange where
  event : Event SupervisorIO
  served : List (Event AnnouncerIO)
  before : AnnouncerState
  after : AnnouncerState

namespace Exchange

def Serves (announcer : RegistryAnnouncer library) (exchange : Exchange) : Prop :=
  match announcer.service exchange.event.query exchange.before with
  | some program => program.Runs exchange.served (exchange.event.answer, exchange.after)
  | none => exchange.served = [] ∧ exchange.after = exchange.before

/-- A publication as the host sees it: `announce` returned `Ok` and handed a record to the provider. -/
def succeeded (exchange : Exchange) : Bool :=
  match exchange.event with
  | ⟨.adapter (.announce _), .ok ()⟩ => exchange.served.any fun event => submits event.query
  | _ => false

end Exchange

/-- Exchanges that hand the announcer's state on. -/
def Linked : AnnouncerState → List Exchange → AnnouncerState → Prop
  | first, [], last => first = last
  | first, exchange :: rest, last => exchange.before = first ∧ Linked exchange.after rest last

/-- The renewal time that the last successful announce recorded. -/
def renewalRecorded (exchanges : List Exchange) : UInt64 :=
  (((exchanges.filter Exchange.succeeded).getLast?).map fun exchange => exchange.after.nextRenewal).getD 0

/-- The completed rounds, the round the supervisor is in, and the query the announcer now awaits an answer to. -/
structure SeedRun where
  rounds : List (List Exchange)
  current : List Exchange
  target : SupervisorQuery
  state : AnnouncerState
  served : List (Event AnnouncerIO)
  pending : AnnouncerQuery

namespace SeedRun

variable (self : SeedRun)

def exchanges : List Exchange := self.rounds.flatten ++ self.current

def trace : List (Event AnnouncerIO) := self.exchanges.flatMap Exchange.served ++ self.served

end SeedRun

structure SeedRun.Valid (supervisor : Supervisor) (announcer : RegistryAnnouncer library) (created : Option Duration)
    (run : SeedRun) : Prop where
  outer : supervisor.RunReaches (run.rounds.map fun round => round.map Exchange.event)
    (run.current.map Exchange.event) run.target
  linked : Linked (.new created) run.exchanges run.state
  serves : ∀ exchange ∈ run.exchanges, exchange.Serves announcer
  inFlight : ∃ program, announcer.service run.target run.state = some program ∧ program.Reaches run.served run.pending

/-- When each query of the announcer's is asked and answered, by a clock from 1970 on that never goes back; it counts
its seconds in a signed 64-bit word. -/
structure Clocked (asked answered : Nat → Duration) (trace : List (Event AnnouncerIO)) : Prop where
  answers : ∀ i, (asked i).asNanos ≤ (answered i).asNanos
  proceeds : ∀ i, (answered i).asNanos ≤ (asked (i + 1)).asNanos
  fits : ∀ i, (answered i).secs.toNat < 9223372036854775808
  reads : ∀ before reading after, trace = before ++ ⟨.systemTime, reading⟩ :: after → ∃ now, reading = some now ∧
    (asked before.length).asNanos ≤ now.asNanos ∧ now.asNanos ≤ (answered before.length).asNanos

/-- The least number of seconds between a publication with this TTL and the next. -/
def RegistryAnnouncer.renewalGap (announcer : RegistryAnnouncer library) (ttl : UInt32) : Nat :=
  max 1 (min announcer.renewalInterval.secs.toNat (max 1 (ttl.toNat / 2)) - 24 * 60 * 60)

section Supervisor

variable {supervisor : Supervisor} {history : List (Event SupervisorIO)} {target : SupervisorQuery}

def asksAnnounce : SupervisorQuery → Bool
  | .adapter (.announce _) => true
  | _ => false

def permits : Event SupervisorIO → Bool
  | ⟨.renewalDue, due⟩ => due
  | ⟨.adapter .eligible, eligible⟩ => eligible
  | _ => false

/-- The publisher was asked and agreed, and has announced nothing yet. -/
structure Permitted (history : List (Event SupervisorIO)) : Prop where
  permitted : ∃ event ∈ history, permits event
  unannounced : ∀ event ∈ history, asksAnnounce event.query = false

theorem not_asksAnnounce_of_housekeeping {query : SupervisorQuery} (h : Housekeeping query) : asksAnnounce query = false := by
  rw [Housekeeping.eq_def] at h
  split at h <;> first | rfl | cases h

theorem permitted_of_allowed {controller : BootstrapController} {ns : Namespace} {inner : List (Event Adapters)}
    {ttl : Duration} (h : Allowed controller ns inner (.announce ttl)) : Permitted (inner.map adapterPart.event) := by
  obtain ⟨-, -, hEligible, hNone, -⟩ := h
  constructor
  · have hMem : true ∈ eligibilities inner := by simp [hEligible]
    obtain ⟨⟨query, answer⟩, hMem, hEvent⟩ := List.mem_filterMap.mp hMem
    refine ⟨adapterPart.event ⟨query, answer⟩, List.mem_map_of_mem hMem, ?_⟩
    cases query with
    | eligible => exact Option.some.inj hEvent
    | _ => cases hEvent
  · intro event hMem
    obtain ⟨⟨query, answer⟩, hInner, rfl⟩ := List.mem_map.mp hMem
    cases query with
    | announce ttl =>
      have hAnswer : answer ∈ announcements inner := List.mem_filterMap.mpr ⟨⟨.announce ttl, answer⟩, hInner, rfl⟩
      rw [hNone] at hAnswer
      cases hAnswer
    | _ => rfl

theorem Permitted.cons {event : Event SupervisorIO} (h : Permitted history) (hEvent : asksAnnounce event.query = false) :
    Permitted (event :: history) where
  permitted := by
    obtain ⟨other, hMem, hPermits⟩ := h.permitted
    exact ⟨other, List.mem_cons_of_mem _ hMem, hPermits⟩
  unannounced := by
    intro other hMem
    obtain rfl | hMem := List.mem_cons.mp hMem
    · exact hEvent
    · exact h.unannounced other hMem

/-- The publisher is asked for permission in the very round that announces, and announces at most once in it. -/
theorem permitted_of_round {state : SupervisorState} (h : (supervisor.round state).Reaches history target)
    (hAsks : asksAnnounce target) : Permitted history := by
  rw [Supervisor.round] at h
  obtain ⟨-, rfl⟩ | ⟨count, rest, rfl, hRest⟩ := Prog.reaches_ask_bind.mp h
  · cases hAsks
  split at hRest
  · obtain hRenew | hHousekeeping := reaches_maintain hRest
    · obtain ⟨-, rfl⟩ | ⟨rfl, rfl⟩ := reaches_renew hRenew
      · cases hAsks
      · exact ⟨⟨_, List.mem_cons_of_mem _ (List.mem_cons_self ..), rfl⟩, by simp [asksAnnounce]⟩
    · rw [not_asksAnnounce_of_housekeeping hHousekeeping] at hAsks
      cases hAsks
  · obtain hCycle | ⟨first, result, second, rfl, -, hConclude⟩ := Prog.reaches_bind.mp hRest
    · obtain ⟨inner, query, rfl, rfl, hInner⟩ := adapterPart.reaches_lift.mp hCycle
      have hAllowed := (guarantees_runCycle ⟨supervisor.policy.bootstrap⟩ supervisor.namespace).reaches hInner
      cases query with
      | announce ttl => exact (permitted_of_allowed hAllowed).cons rfl
      | _ => cases hAsks
    · rw [not_asksAnnounce_of_housekeeping (asks_conclude _ _ _ _ hConclude)] at hAsks
      cases hAsks

theorem permitted_of_run {rounds : List (List (Event SupervisorIO))} {current : List (Event SupervisorIO)}
    (h : supervisor.RunReaches rounds current target) {before : List (Event SupervisorIO)} {query : SupervisorQuery}
    (hInvoked : InvokedIn (rounds.flatten ++ current) target before query) (hAsks : asksAnnounce query) :
    ∃ earlier part, before = earlier ++ part ∧ Permitted part := by
  obtain ⟨state, hRounds, hCurrent⟩ := h
  obtain ⟨earlier, round, later, part, rfl, rfl, event, rest, rfl, rfl⟩ | ⟨part, rfl, hPart⟩ := hInvoked.round
  · obtain ⟨begun, next, hRound⟩ := hRounds.runs_of_mem (List.mem_append_right _ (List.mem_cons_self ..))
    exact ⟨_, part, rfl, permitted_of_round hRound.reaches hAsks⟩
  · exact ⟨_, part, rfl, permitted_of_round (hCurrent.of_invokedIn hPart) hAsks⟩

end Supervisor

theorem linked_append {first last : AnnouncerState} {before after : List Exchange} :
    Linked first (before ++ after) last ↔ ∃ between, Linked first before between ∧ Linked between after last := by
  induction before generalizing first with
  | nil => simp [Linked]
  | cons exchange rest ih => simp [Linked, ih, and_assoc]

section Exchanges

variable {announcer : RegistryAnnouncer library} {exchange : Exchange}

theorem renewalDue_true {state : AnnouncerState} {trace : List (Event AnnouncerIO)}
    (h : (announcer.renewalDue state).Runs trace true) :
    ∃ now, trace = [⟨.systemTime, some now⟩] ∧ state.nextRenewal ≤ now.secs := by
  rw [RegistryAnnouncer.renewalDue] at h
  split at h
  · obtain ⟨reading, rest, rfl, hRest⟩ := Prog.runs_ask_bind.mp h
    cases reading with
    | none => cases hRest.2
    | some now =>
      obtain ⟨rfl, hDue⟩ := Prog.runs_pure.mp hRest
      exact ⟨now, rfl, of_decide_eq_true hDue.symm⟩
  · cases h.2

theorem asks_renewalDue (state : AnnouncerState) : (announcer.renewalDue state).Asks fun query => submits query = false := by
  rw [RegistryAnnouncer.renewalDue]
  split
  · refine Prog.asks_ask_bind rfl fun reading => ?_
    split <;> exact Prog.asks_pure _
  · exact Prog.asks_pure _

theorem asks_promotionEligible (state : AnnouncerState) :
    (announcer.promotionEligible state).Asks fun query => submits query = false := by
  rw [RegistryAnnouncer.promotionEligible]
  split
  · exact asks_renewalDue state
  · exact Prog.asks_pure _

namespace Exchange

theorem Serves.announced {ttl : Duration} {answer : Except BootstrapError Unit} (h : exchange.Serves announcer)
    (hEvent : exchange.event = ⟨.adapter (.announce ttl), answer⟩) :
    announcer.AnnounceRun ttl exchange.before exchange.served (answer, exchange.after) := by
  obtain ⟨event, served, before, after⟩ := exchange
  cases hEvent
  exact RegistryAnnouncer.announceRun_of_runs h

/-- Whatever else the announcer is asked, it keeps its state and submits nothing. -/
theorem Serves.keeps (h : exchange.Serves announcer) (hQuery : asksAnnounce exchange.event.query = false) :
    exchange.after = exchange.before ∧ ∀ event ∈ exchange.served, submits event.query = false := by
  obtain ⟨⟨query, answer⟩, served, before, after⟩ := exchange
  cases query with
  | renewalDue =>
    obtain ⟨first, due, second, rfl, hRuns, rfl, hAfter⟩ := Prog.runs_bind.mp h
    rw [List.append_nil]
    exact ⟨(Prod.mk.inj hAfter).2, (asks_renewalDue before).runs hRuns⟩
  | adapter query =>
    cases query with
    | eligible =>
      obtain ⟨first, eligible, second, rfl, hRuns, rfl, hAfter⟩ := Prog.runs_bind.mp h
      rw [List.append_nil]
      exact ⟨(Prod.mk.inj hAfter).2, (asks_promotionEligible before).runs hRuns⟩
    | announce ttl => cases hQuery
    | _ => exact ⟨h.2, by simp [show served = [] from h.1]⟩
  | _ => exact ⟨h.2, by simp [show served = [] from h.1]⟩

theorem Serves.due (h : exchange.Serves announcer) (hPermits : permits exchange.event) :
    ∃ now, exchange.served = [⟨.systemTime, some now⟩] ∧ exchange.before.nextRenewal ≤ now.secs := by
  obtain ⟨⟨query, answer⟩, served, before, after⟩ := exchange
  cases query with
  | renewalDue =>
    cases hPermits
    obtain ⟨first, due, second, rfl, hRuns, rfl, hAfter⟩ := Prog.runs_bind.mp h
    obtain ⟨rfl, -⟩ := Prod.mk.inj hAfter
    rw [List.append_nil]
    exact renewalDue_true hRuns
  | adapter query =>
    cases query with
    | eligible =>
      cases hPermits
      obtain ⟨first, eligible, second, rfl, hRuns, rfl, hAfter⟩ := Prog.runs_bind.mp h
      obtain ⟨rfl, -⟩ := Prod.mk.inj hAfter
      rw [List.append_nil]
      rw [RegistryAnnouncer.promotionEligible] at hRuns
      split at hRuns
      · exact renewalDue_true hRuns
      · cases hRuns.2
    | _ => cases hPermits
  | _ => cases hPermits

end Exchange

end Exchanges

section Clock

variable {asked answered : Nat → Duration} {trace : List (Event AnnouncerIO)}

theorem secs_le {earlier later : Duration} (h : earlier.asNanos ≤ later.asNanos) : earlier.secs.toNat ≤ later.secs.toNat := by
  have hEarlier := earlier.nanos.isLt
  have hLater := later.nanos.isLt
  rw [Duration.asNanos, Duration.asNanos, Duration.nanosPerSec] at h
  omega

theorem Clocked.asked_le (h : Clocked asked answered trace) {i j : Nat} (hLe : i ≤ j) :
    (asked i).asNanos ≤ (asked j).asNanos := by
  induction j, hLe using Nat.le_induction with
  | base => exact le_rfl
  | succ j hLe ih => exact ih.trans ((h.answers j).trans (h.proceeds j))

theorem Clocked.answered_le (h : Clocked asked answered trace) {i j : Nat} (hLt : i < j) :
    (answered i).secs.toNat ≤ (asked j).secs.toNat :=
  secs_le ((h.proceeds i).trans (h.asked_le hLt))

end Clock

section Schedule

variable {announcer : RegistryAnnouncer library} {asked answered : Nat → Duration} {first state : AnnouncerState}
  {exchanges : List Exchange} {exchange : Exchange} {rest : List (Event AnnouncerIO)}

def servedBy (exchanges : List Exchange) : List (Event AnnouncerIO) := exchanges.flatMap Exchange.served

@[simp] theorem servedBy_append (before after : List Exchange) :
    servedBy (before ++ after) = servedBy before ++ servedBy after := List.flatMap_append

@[simp] theorem servedBy_cons (exchange : Exchange) (after : List Exchange) :
    servedBy (exchange :: after) = exchange.served ++ servedBy after := List.flatMap_cons

theorem servedBy_concat (before : List Exchange) (exchange : Exchange) :
    servedBy (before ++ [exchange]) = servedBy before ++ exchange.served := by simp [servedBy]

theorem Linked.unchanged {others : List Exchange} (h : Linked first others state)
    (hServes : ∀ other ∈ others, other.Serves announcer)
    (hQuiet : ∀ other ∈ others, asksAnnounce other.event.query = false) : state = first := by
  induction others generalizing first with
  | nil => exact h.symm
  | cons other others ih =>
    obtain ⟨hBefore, hRest⟩ := h
    have hKeeps := (hServes other (List.mem_cons_self ..)).keeps (hQuiet other (List.mem_cons_self ..))
    rw [ih hRest (fun next hMem => hServes next (List.mem_cons_of_mem _ hMem))
      fun next hMem => hQuiet next (List.mem_cons_of_mem _ hMem), hKeeps.1, hBefore]

/-- Right after permission, and before anything is announced, the clock has reached the renewal time. -/
theorem due_of_permitted {earlier part : List Exchange} (hPermitted : Permitted (part.map Exchange.event))
    (hLinked : Linked first (earlier ++ part) state) (hServes : ∀ exchange ∈ part, exchange.Serves announcer)
    (hClock : Clocked asked answered (servedBy (earlier ++ part) ++ rest)) :
    state.nextRenewal.toNat ≤ (asked (servedBy (earlier ++ part)).length).secs.toNat := by
  obtain ⟨event, hMem, hPermits⟩ := hPermitted.permitted
  obtain ⟨exchange, hExchange, rfl⟩ := List.mem_map.mp hMem
  obtain ⟨before, after, rfl⟩ := List.append_of_mem hExchange
  have hQuiet : ∀ other ∈ before ++ exchange :: after, asksAnnounce other.event.query = false := fun other hOther =>
    hPermitted.unannounced _ (List.mem_map_of_mem hOther)
  obtain ⟨middle, -, hLinked⟩ := linked_append.mp hLinked
  have hSame := hLinked.unchanged hServes hQuiet
  obtain ⟨between, hBefore, hBetween, -⟩ := linked_append.mp hLinked
  have hSameBefore := hBefore.unchanged (fun other hOther => hServes other (List.mem_append_left _ hOther))
    fun other hOther => hQuiet other (List.mem_append_left _ hOther)
  obtain ⟨now, hServed, hDue⟩ := (hServes exchange hExchange).due hPermits
  rw [hBetween, hSameBefore, ← hSame] at hDue
  obtain ⟨reading, hReading, -, hAnswered⟩ := hClock.reads (servedBy earlier ++ servedBy before) (some now)
    (servedBy after ++ rest) (by simp [hServed])
  cases hReading
  calc state.nextRenewal.toNat ≤ now.secs.toNat := UInt64.le_iff_toNat_le.mp hDue
    _ ≤ (answered (servedBy earlier ++ servedBy before).length).secs.toNat := secs_le hAnswered
    _ ≤ _ := hClock.answered_le (by simp [hServed])

/-- `event` is the provider's confirmation of a submission with the given TTL. -/
def confirms (ttl : UInt32) : Event AnnouncerIO → Prop
  | ⟨.provider (.announce _ _ _ supplied _), .ok _⟩ => supplied = ttl
  | _ => False

theorem not_confirms {ttl : UInt32} {event : Event AnnouncerIO} (h : submits event.query = false) :
    ¬ confirms ttl event := by
  rw [confirms.eq_def]
  split
  · cases h
  · exact id

/-- The schedule after some exchanges: the renewal time is that of the last success, and keeps every publication's
distance. -/
structure Scheduled (announcer : RegistryAnnouncer library) (answered : Nat → Duration) (exchanges : List Exchange)
    (state : AnnouncerState) : Prop where
  recorded : state.nextRenewal = renewalRecorded exchanges
  spaced : ∀ before event after ttl, servedBy exchanges = before ++ event :: after → confirms ttl event →
    (answered before.length).secs.toNat + announcer.renewalGap ttl ≤ state.nextRenewal.toNat

theorem renewalRecorded_concat (exchanges : List Exchange) (exchange : Exchange) :
    renewalRecorded (exchanges ++ [exchange]) =
      if exchange.succeeded then exchange.after.nextRenewal else renewalRecorded exchanges := by
  rw [renewalRecorded, List.filter_append]
  split
  · rename_i hSucceeded
    rw [List.filter_cons_of_pos hSucceeded, List.filter_nil, List.getLast?_append]
    rfl
  · rename_i hFailed
    rw [List.filter_cons_of_neg hFailed, List.filter_nil, List.append_nil, renewalRecorded]

/-- An exchange without a confirmation that leaves the renewal time as it is. -/
theorem Scheduled.unconfirmed (h : Scheduled announcer answered exchanges state)
    (hRenewal : exchange.after.nextRenewal = state.nextRenewal) (hFailed : exchange.succeeded = false)
    (hNone : ∀ event ∈ exchange.served, ∀ ttl, ¬ confirms ttl event) :
    Scheduled announcer answered (exchanges ++ [exchange]) exchange.after where
  recorded := by
    rw [renewalRecorded_concat, hFailed, hRenewal]
    exact h.recorded
  spaced := by
    intro before event after ttl hSplit hConfirms
    rw [hRenewal]
    rw [servedBy_concat] at hSplit
    obtain ⟨more, hEarlier, -⟩ | ⟨more, rfl, hServed⟩ := append_eq_append_cons hSplit
    · exact h.spaced before event more ttl hEarlier hConfirms
    · exact absurd hConfirms (hNone event (hServed ▸ List.mem_append_right _ (List.mem_cons_self ..)) ttl)

theorem toNat_baseRenewal (announcer : RegistryAnnouncer library) (ttl : UInt32) :
    (announcer.baseRenewal ttl).toNat = min announcer.renewalInterval.secs.toNat (max 1 (ttl.toNat / 2)) := by
  rw [RegistryAnnouncer.baseRenewal, Word64.toNat_min, Word64.toNat_max, UInt64.toNat_div, UInt32.toNat_toUInt64,
    max_comm]
  rfl

theorem renewalGap_le {ttl : UInt32} {drawn : List (Event AnnouncerIO)} {renewalAfter : UInt64}
    (hInterval : 1 ≤ announcer.renewalInterval.secs.toNat)
    (h : (jitteredRenewal (announcer.baseRenewal ttl) ttl.toUInt64).Runs drawn renewalAfter) :
    announcer.renewalGap ttl ≤ renewalAfter.toNat ∧ announcer.renewalGap ttl ≤ 4294967296 := by
  have hBase := toNat_baseRenewal announcer ttl
  have hAfter := le_renewalAfter h (by omega)
  have hTtl := ttl.toNat_lt
  rw [hBase] at hAfter
  rw [RegistryAnnouncer.renewalGap]
  omega

/-- A confirmed publication schedules the next one behind itself, and so behind every earlier one. -/
theorem Scheduled.confirmed (h : Scheduled announcer answered exchanges state)
    (hClock : Clocked asked answered (servedBy (exchanges ++ [exchange]) ++ rest))
    (hDue : state.nextRenewal.toNat ≤ (asked (servedBy exchanges).length).secs.toNat)
    {checks drawn : List (Event AnnouncerIO)} {checked : UInt32} {record : Bytes} {transaction : B256} {time : Duration}
    {renewalAfter : UInt64}
    (hServed : exchange.served =
      checks ++ ⟨announcer.submission checked record, .ok transaction⟩ :: ⟨.systemTime, some time⟩ :: drawn)
    (hChecks : ∀ event ∈ checks, submits event.query = false) (hDrawn : ∀ event ∈ drawn, submits event.query = false)
    (hSucceeded : exchange.succeeded = true)
    (hGap : announcer.renewalGap checked ≤ renewalAfter.toNat ∧ announcer.renewalGap checked ≤ 4294967296)
    (hAfter : exchange.after.nextRenewal = Word64.saturatingAdd time.secs renewalAfter) :
    Scheduled announcer answered (exchanges ++ [exchange]) exchange.after := by
  rw [servedBy_concat, hServed] at hClock
  obtain ⟨now, hNow, hAsked, hAnswered⟩ := hClock.reads
    (servedBy exchanges ++ checks ++ [⟨announcer.submission checked record, .ok transaction⟩]) (some time)
    (drawn ++ rest) (by simp)
  cases hNow
  have hFits := (secs_le hAnswered).trans_lt (hClock.fits _)
  have hNext : time.secs.toNat + announcer.renewalGap checked ≤ exchange.after.nextRenewal.toNat := by
    rw [hAfter, Word64.toNat_saturatingAdd]
    omega
  constructor
  · rw [renewalRecorded_concat, if_pos hSucceeded]
  · intro before event after ttl hSplit hConfirms
    rw [servedBy_concat, hServed] at hSplit
    obtain ⟨more, hEarlier, -⟩ | ⟨more, rfl, hOwn⟩ := append_eq_append_cons hSplit
    · calc (answered before.length).secs.toNat + announcer.renewalGap ttl
          ≤ state.nextRenewal.toNat := h.spaced before event more ttl hEarlier hConfirms
        _ ≤ (asked (servedBy exchanges).length).secs.toNat := hDue
        _ ≤ time.secs.toNat := secs_le ((hClock.asked_le (by simp)).trans hAsked)
        _ ≤ exchange.after.nextRenewal.toNat := by omega
    obtain ⟨later, hIn, -⟩ | ⟨later, rfl, hPublish⟩ := append_eq_append_cons hOwn
    · exact absurd hConfirms (not_confirms (hChecks event (hIn ▸ List.mem_append_right _ (List.mem_cons_self ..))))
    cases later with
    | nil =>
      obtain ⟨rfl, -⟩ := List.cons.inj hPublish
      obtain rfl : checked = ttl := hConfirms
      have hLe : (answered (servedBy exchanges ++ (checks ++ [])).length).secs.toNat ≤ time.secs.toNat :=
        (hClock.answered_le (by simp)).trans (secs_le hAsked)
      omega
    | cons head later =>
      have hMem : event ∈ (⟨.systemTime, some time⟩ :: drawn : List (Event AnnouncerIO)) := by
        rw [(List.cons.inj hPublish).2]
        exact List.mem_append_right _ (List.mem_cons_self ..)
      obtain rfl | hMem := List.mem_cons.mp hMem
      · exact hConfirms.elim
      · exact absurd hConfirms (not_confirms (hDrawn event hMem))

theorem Scheduled.published (h : Scheduled announcer answered exchanges state)
    (hClock : Clocked asked answered (servedBy (exchanges ++ [exchange]) ++ rest))
    (hDue : state.nextRenewal.toNat ≤ (asked (servedBy exchanges).length).secs.toNat)
    (hInterval : 1 ≤ announcer.renewalInterval.secs.toNat) (hBefore : exchange.before = state) {ttl : Duration}
    {answer : Except BootstrapError Unit} (hEvent : exchange.event = ⟨.adapter (.announce ttl), answer⟩)
    (hRun : announcer.AnnounceRun ttl exchange.before exchange.served (answer, exchange.after)) :
    Scheduled announcer answered (exchanges ++ [exchange]) exchange.after := by
  obtain ⟨event, served, before, after⟩ := exchange
  dsimp only at hBefore hEvent hRun
  subst hBefore hEvent
  cases hRun with
  | ineligible hEligible =>
    exact h.unconfirmed rfl rfl (by simp)
  | unchecked hCheck =>
    exact h.unconfirmed rfl rfl fun event hMem ttl hConfirms =>
      not_confirms (RegistryAnnouncer.not_submits_checks hCheck event hMem) hConfirms
  | @attempted checks published checked result hCheck hPublish =>
    have hChecks : ∀ event ∈ checks, ∀ ttl, ¬ confirms ttl event := fun event hMem ttl =>
      not_confirms (RegistryAnnouncer.not_submits_checks hCheck event hMem)
    cases hPublish with
    | unsigned hSign => exact h.unconfirmed rfl rfl (by simpa using hChecks)
    | refused hSign =>
      refine h.unconfirmed rfl rfl fun event hMem ttl => ?_
      obtain hMem | hMem := List.mem_append.mp hMem
      · exact hChecks event hMem ttl
      · rw [List.mem_singleton.mp hMem]
        exact id
    | @unclocked record transaction hSign =>
      obtain ⟨now, hNow, -⟩ := hClock.reads
        (servedBy exchanges ++ checks ++ [⟨announcer.submission checked record, .ok transaction⟩]) none rest
        (by simp [servedBy])
      cases hNow
    | @scheduled record transaction time drawn renewalAfter hSign hRenewal =>
      refine h.confirmed hClock hDue rfl (RegistryAnnouncer.not_submits_checks hCheck) (runs_jitteredRenewal hRenewal).1
        ?_ (renewalGap_le hInterval hRenewal) rfl
      simp [Exchange.succeeded, submits, submittedRecord, RegistryAnnouncer.submission]

/-- Whatever the announcer is asked next, the schedule stays true. -/
theorem Scheduled.concat (h : Scheduled announcer answered exchanges state)
    (hClock : Clocked asked answered (servedBy (exchanges ++ [exchange]) ++ rest))
    (hInterval : 1 ≤ announcer.renewalInterval.secs.toNat) (hBefore : exchange.before = state)
    (hServes : exchange.Serves announcer)
    (hDue : asksAnnounce exchange.event.query → state.nextRenewal.toNat ≤ (asked (servedBy exchanges).length).secs.toNat) :
    Scheduled announcer answered (exchanges ++ [exchange]) exchange.after := by
  by_cases hAsks : asksAnnounce exchange.event.query
  · obtain ⟨⟨query, answer⟩, served, before, after⟩ := exchange
    cases query with
    | adapter query =>
      cases query with
      | announce ttl => exact h.published hClock (hDue hAsks) hInterval hBefore rfl (hServes.announced rfl)
      | _ => cases hAsks
    | _ => cases hAsks
  · obtain ⟨hKeeps, hQuiet⟩ := hServes.keeps (by simpa using hAsks)
    refine h.unconfirmed (by rw [hKeeps, hBefore]) ?_ fun event hMem ttl => not_confirms (hQuiet event hMem)
    obtain ⟨⟨query, answer⟩, served, before, after⟩ := exchange
    cases query with
    | adapter query =>
      cases query with
      | announce ttl => exact absurd rfl hAsks
      | _ => rfl
    | _ => rfl

/-- Permission stands before each announcement. -/
def Guarded (exchanges : List Exchange) : Prop :=
  ∀ before exchange after, exchanges = before ++ exchange :: after → asksAnnounce exchange.event.query →
    ∃ earlier part, before = earlier ++ part ∧ Permitted (part.map Exchange.event)

theorem scheduled_of_guarded (hGuarded : Guarded exchanges) (hLinked : Linked first exchanges state)
    (hFirst : first.nextRenewal = 0) (hServes : ∀ exchange ∈ exchanges, exchange.Serves announcer)
    (hClock : Clocked asked answered (servedBy exchanges ++ rest))
    (hInterval : 1 ≤ announcer.renewalInterval.secs.toNat) : Scheduled announcer answered exchanges state := by
  induction exchanges using List.reverseRecOn generalizing state rest with
  | nil =>
    cases hLinked
    exact ⟨hFirst, by simp [servedBy]⟩
  | append_singleton exchanges exchange ih =>
    obtain ⟨between, hBefore, hExchange, rfl⟩ := linked_append.mp hLinked
    have hEarlier : ∀ other ∈ exchanges, other.Serves announcer := fun other hMem =>
      hServes other (List.mem_append_left _ hMem)
    have hClock' : Clocked asked answered (servedBy exchanges ++ (exchange.served ++ rest)) := by
      rwa [servedBy_concat, List.append_assoc] at hClock
    have hScheduled := ih (fun before other after hSplit => hGuarded before other (after ++ [exchange]) (by simp [hSplit]))
      hBefore hEarlier hClock'
    refine hScheduled.concat hClock hInterval hExchange (hServes exchange (List.mem_append_right _ (List.mem_singleton_self _)))
      fun hAsks => ?_
    obtain ⟨earlier, part, rfl, hPermitted⟩ := hGuarded exchanges exchange [] rfl hAsks
    exact due_of_permitted hPermitted hBefore (fun other hMem => hEarlier other (List.mem_append_right _ hMem)) hClock'

end Schedule

section Runs

variable {supervisor : Supervisor} {announcer : RegistryAnnouncer library} {created : Option Duration} {run : SeedRun}

theorem exists_of_map_append {exchanges : List Exchange} {earlier part : List (Event SupervisorIO)}
    (h : exchanges.map Exchange.event = earlier ++ part) :
    ∃ before after, exchanges = before ++ after ∧ after.map Exchange.event = part := by
  obtain ⟨before, after, rfl, -, hAfter⟩ := List.map_eq_append_iff.mp h
  exact ⟨before, after, rfl, hAfter⟩

theorem SeedRun.map_exchanges (run : SeedRun) : run.exchanges.map Exchange.event =
    (run.rounds.map fun round => round.map Exchange.event).flatten ++ run.current.map Exchange.event := by
  rw [SeedRun.exchanges, List.map_append, List.map_flatten]

theorem SeedRun.Valid.guarded (h : run.Valid supervisor announcer created) : Guarded run.exchanges := by
  intro before exchange after hSplit hAsks
  have hInvoked : InvokedIn ((run.rounds.map fun round => round.map Exchange.event).flatten ++
      run.current.map Exchange.event) run.target (before.map Exchange.event) exchange.event.query := by
    refine .inr ⟨exchange.event, after.map Exchange.event, ?_, rfl⟩
    rw [← run.map_exchanges, hSplit, List.map_append, List.map_cons]
  obtain ⟨earlier, part, hBefore, hPermitted⟩ := permitted_of_run h.outer hInvoked hAsks
  obtain ⟨first, second, rfl, rfl⟩ := exists_of_map_append hBefore
  exact ⟨first, second, rfl, hPermitted⟩

/-- A submission is in flight only while the supervisor awaits `announce`, after checks and nothing else. -/
theorem SeedRun.Valid.submitting (h : run.Valid supervisor announcer created) (hSubmits : submits run.pending) :
    asksAnnounce run.target ∧ ∀ event ∈ run.served, submits event.query = false := by
  obtain ⟨program, hService, hReaches⟩ := h.inFlight
  obtain ⟨rounds, current, target, state, served, pending⟩ := run
  dsimp only at hService hReaches hSubmits ⊢
  have hQuiet : ∀ {α : Type} {p : Prog AnnouncerIO α}, p.Asks (fun query => submits query = false) →
      ¬ p.Reaches served pending := by
    intro α p hAsks hReaches
    rw [hAsks _ _ hReaches] at hSubmits
    cases hSubmits
  cases target with
  | renewalDue =>
    cases hService
    exact absurd hReaches (hQuiet ((asks_renewalDue _).bind fun due => Prog.asks_pure _))
  | adapter query =>
    cases query with
    | eligible =>
      cases hService
      exact absurd hReaches (hQuiet ((asks_promotionEligible _).bind fun eligible => Prog.asks_pure _))
    | announce ttl =>
      cases hService
      refine ⟨rfl, ?_⟩
      obtain hCheck | ⟨checks, checked, published, hServed, hCheck, hPublish⟩ := RegistryAnnouncer.reaches_announce hReaches
      · rw [RegistryAnnouncer.not_submits_of_check hCheck] at hSubmits
        cases hSubmits
      · obtain ⟨record, -, ⟨rfl, -⟩ | ⟨transaction, later, -, -, hLater⟩⟩ := RegistryAnnouncer.reaches_publish hPublish
        · rw [hServed, List.append_nil]
          exact RegistryAnnouncer.not_submits_checks hCheck
        · obtain hTime | ⟨maximum, hDraw⟩ := hLater
          · rw [hTime] at hSubmits
            cases hSubmits
          · rw [hDraw] at hSubmits
            cases hSubmits
    | _ => cases hService
  | _ => cases hService

end Runs

/-- A seed submits only when the clock has reached the renewal time of its last success, at most once in a round, and
at the renewal's distance from every publication before; an attempt that fails leaves the schedule alone. -/
theorem renewals_spaced {supervisor : Supervisor} {announcer : RegistryAnnouncer library} {created : Option Duration}
    {run : SeedRun} {asked answered : Nat → Duration} (hRun : run.Valid supervisor announcer created)
    (hClock : Clocked asked answered run.trace) (hInterval : 1 ≤ announcer.renewalInterval.secs) :
    (submits run.pending →
      renewalRecorded run.exchanges ≤ (asked run.trace.length).secs ∧
      (∀ exchange ∈ run.current, ∀ event ∈ exchange.served, submits event.query = false) ∧
      (∀ event ∈ run.served, submits event.query = false) ∧
      ∀ before event after ttl, run.trace = before ++ event :: after → confirms ttl event →
        (answered before.length).secs.toNat + announcer.renewalGap ttl ≤ (asked run.trace.length).secs.toNat) ∧
    ∀ exchange ∈ run.exchanges, ∀ ttl error, exchange.event = ⟨.adapter (.announce ttl), .error error⟩ →
      exchange.after.nextRenewal = exchange.before.nextRenewal ∧
      exchange.after.announcements = exchange.before.announcements := by
  refine ⟨fun hSubmits => ?_, fun exchange hMem ttl error hEvent => ((hRun.serves exchange hMem).announced hEvent).failed⟩
  obtain ⟨hAsks, hServed⟩ := hRun.submitting hSubmits
  have hScheduled := scheduled_of_guarded hRun.guarded hRun.linked rfl hRun.serves hClock
    (UInt64.le_iff_toNat_le.mp hInterval)
  obtain ⟨state, -, hCurrent⟩ := hRun.outer
  have hRound := permitted_of_round hCurrent hAsks
  have hDue : run.state.nextRenewal.toNat ≤ (asked run.trace.length).secs.toNat := by
    have hReached := due_of_permitted hRound hRun.linked
      (fun exchange hMem => hRun.serves exchange (List.mem_append_right _ hMem)) hClock
    refine hReached.trans (secs_le (hClock.asked_le ?_))
    rw [SeedRun.trace, List.length_append]
    exact Nat.le_add_right _ _
  refine ⟨?_, fun exchange hMem => ?_, hServed, fun before event after ttl hSplit hConfirms => ?_⟩
  · rw [← hScheduled.recorded]
    exact UInt64.le_iff_toNat_le.mpr hDue
  · exact ((hRun.serves exchange (List.mem_append_right _ hMem)).keeps
      (hRound.unannounced _ (List.mem_map_of_mem hMem))).2
  · obtain ⟨more, hEarlier, -⟩ | ⟨more, rfl, hLate⟩ := append_eq_append_cons hSplit
    · exact (hScheduled.spaced before event more ttl hEarlier hConfirms).trans hDue
    · exact absurd hConfirms (not_confirms (hServed event (hLate ▸ List.mem_append_right _ (List.mem_cons_self ..))))

/-- The Ed25519 signature of the browser vector's key on its record under the next sequence. -/
def renewedSignature : Bytes :=
  [0x3d, 0x5e, 0x70, 0xfe, 0xed, 0x5c, 0x45, 0x9d, 0x8a, 0x7e, 0x41, 0x0b, 0xdc, 0xd5, 0x2a, 0xac,
    0xe9, 0xb5, 0x02, 0x13, 0xf9, 0x3b, 0x66, 0x27, 0xdc, 0x04, 0x35, 0xee, 0x27, 0xd8, 0x78, 0xc1,
    0xea, 0x50, 0x23, 0x73, 0xa2, 0x8e, 0x68, 0xbc, 0x56, 0x98, 0x43, 0xd0, 0x82, 0x0f, 0xcc, 0xd5,
    0x14, 0xae, 0x9d, 0xe6, 0x1a, 0xcc, 0x5a, 0xd2, 0x82, 0xd9, 0x14, 0x55, 0x4c, 0x5e, 0xb4, 0x0b]

def renewingLibrary : Library :=
  { vectorLibrary with
    sign := fun keypair message =>
      if message = vectorMessage 43 .browser then .ok renewedSignature else vectorLibrary.sign keypair message }

def renewingAnnouncer : RegistryAnnouncer renewingLibrary :=
  ⟨developmentDescriptor, (), [VectorAddress.browser], true, ⟨43200, 0⟩⟩

def renewedRecord : Bytes :=
  (sealedEnvelope renewingLibrary () (recordPayload renewingLibrary () 43 [VectorAddress.browser]).encodeToVec
    renewedSignature).encodeToVec

/-- A quarter of an hour after its first publication the seed is about to publish again. -/
def renewalRun : SeedRun :=
  let created : AnnouncerState := ⟨42, 0, 0⟩
  let announced : AnnouncerState := ⟨43, 8209001, 1⟩
  { rounds := [[
      ⟨⟨.adapter .connectedPeers, (1 : Nat)⟩, [], created, created⟩,
      ⟨⟨.renewalDue, true⟩, [⟨.systemTime, some ⟨8208000, 0⟩⟩], created, created⟩,
      ⟨⟨.adapter (.announce ⟨2592000, 0⟩), .ok ()⟩, vectorAnnouncement, created, announced⟩,
      ⟨⟨.telemetrySnapshot, noCounters⟩, [], announced, announced⟩,
      ⟨⟨.unixTime, (8208000 : UInt64)⟩, [], announced, announced⟩,
      ⟨⟨.waitOrShutdown ⟨15, 0⟩, false⟩, [], announced, announced⟩]]
    current := [
      ⟨⟨.adapter .connectedPeers, (1 : Nat)⟩, [], announced, announced⟩,
      ⟨⟨.renewalDue, true⟩, [⟨.systemTime, some ⟨8209001, 0⟩⟩], announced, announced⟩]
    target := .adapter (.announce ⟨2592000, 0⟩)
    state := announced
    served := vectorAnnouncement.take 2
    pending := renewingAnnouncer.submission 2592000 renewedRecord }

def renewalTime (i : Nat) : Duration := if i < 6 then ⟨8208000, 0⟩ else ⟨8209001, 0⟩

theorem valid_renewalRun : renewalRun.Valid seedSupervisor renewingAnnouncer (some ⟨0, 42000⟩) := by
  constructor
  · exact ⟨.new, .concat .nil (Prog.runs_of_replay (by decide)), Prog.reaches_of_awaits (by decide)⟩
  · exact ⟨by decide, rfl, rfl, rfl, rfl, rfl, rfl, rfl, rfl⟩
  · have hAnnounced : (renewingAnnouncer.announce ⟨2592000, 0⟩ ⟨42, 0, 0⟩).Runs vectorAnnouncement
        (.ok (), ⟨43, 8209001, 1⟩) := Prog.runs_of_replay (by decide +kernel)
    have hDue : (renewingAnnouncer.renewalDue ⟨42, 0, 0⟩).Runs [⟨.systemTime, some ⟨8208000, 0⟩⟩] true :=
      Prog.runs_of_replay (by decide)
    have hDueAgain : (renewingAnnouncer.renewalDue ⟨43, 8209001, 1⟩).Runs [⟨.systemTime, some ⟨8209001, 0⟩⟩] true :=
      Prog.runs_of_replay (by decide)
    intro exchange hMem
    simp only [SeedRun.exchanges, renewalRun, List.flatten_singleton, List.cons_append, List.nil_append, List.mem_cons,
      List.not_mem_nil, or_false] at hMem
    obtain rfl | rfl | rfl | rfl | rfl | rfl | rfl | rfl := hMem
    · exact ⟨rfl, rfl⟩
    · exact Prog.runs_bind.mpr ⟨_, true, [], rfl, hDue, rfl, rfl⟩
    · exact hAnnounced
    · exact ⟨rfl, rfl⟩
    · exact ⟨rfl, rfl⟩
    · exact ⟨rfl, rfl⟩
    · exact ⟨rfl, rfl⟩
    · exact Prog.runs_bind.mpr ⟨_, true, [], rfl, hDueAgain, rfl, rfl⟩
  · exact ⟨_, rfl, Prog.reaches_of_awaits (by decide +kernel)⟩

theorem clocked_renewalRun : Clocked renewalTime renewalTime renewalRun.trace where
  answers _ := le_rfl
  proceeds i := by
    rw [renewalTime, renewalTime]
    split <;> split <;> first | omega | decide
  fits i := by
    rw [renewalTime]
    split <;> decide
  reads before reading after hTrace := by
    have hAt : renewalRun.trace[before.length]? = some ⟨.systemTime, reading⟩ := by
      rw [hTrace]
      simp
    generalize before.length = i at hAt
    match i, hAt with
    | 0, hAt => cases hAt; exact ⟨_, rfl, by decide⟩
    | 4, hAt => cases hAt; exact ⟨_, rfl, by decide⟩
    | 6, hAt => cases hAt; exact ⟨_, rfl, by decide⟩
    | i + 9, hAt => cases hAt

theorem renewals_spaced_quarterHour : renewalRecorded renewalRun.exchanges ≤ (renewalTime 9).secs ∧
    (renewalTime 3).secs.toNat + 1 ≤ (renewalTime 9).secs.toNat := by
  obtain ⟨hSubmitting, -⟩ := renewals_spaced valid_renewalRun clocked_renewalRun (by decide)
  obtain ⟨hDue, -, -, hSpaced⟩ := hSubmitting rfl
  have hGap : renewingAnnouncer.renewalGap 2592000 = 1 := by decide
  have hFirst := hSpaced (renewalRun.trace.take 3) _ _ 2592000 rfl rfl
  rw [hGap] at hFirst
  exact ⟨hDue, hFirst⟩

end Resurrect.Node
