import Resurrect.Browser.PeerDiscovery
import Mathlib.Data.List.Induction

/-! # One gated scan at a time

What the journal says about one call is told by where its body stands: a `Story`.
Every step adds to the story of one call at most, so that the whole journal is
known call by call, and the guard flag is set exactly while a body is active.
-/

namespace Resurrect.Browser

variable {PeerId Multiaddr : Type}

namespace Entry

def call : Entry PeerId Multiaddr → Option CallId
  | .stopped => none
  | .collapsed call => some call
  | .called call => some call
  | .gated call _ => some call
  | .clientScan call => some call
  | .settled call _ => some call
  | .dispatched call _ => some call
  | .returned call _ => some call
  | .rejected call => some call

end Entry

/-- The part of a journal that is about one call. -/
def entriesOf (call : CallId) (journal : List (Entry PeerId Multiaddr)) : List (Entry PeerId Multiaddr) :=
  journal.filter fun entry => entry.call = some call

theorem entriesOf_append (call : CallId) (journal entries : List (Entry PeerId Multiaddr)) :
    entriesOf call (journal ++ entries) = entriesOf call journal ++ entriesOf call entries := List.filter_append ..

theorem entriesOf_own {call : CallId} {entries : List (Entry PeerId Multiaddr)}
    (h : ∀ entry ∈ entries, entry.call = some call) : entriesOf call entries = entries :=
  List.filter_eq_self.mpr fun entry hMem => decide_eq_true (h entry hMem)

theorem entriesOf_other (call : CallId) {other : CallId} {entries : List (Entry PeerId Multiaddr)}
    (h : ∀ entry ∈ entries, entry.call = some call) (hOther : other ≠ call) : entriesOf other entries = [] := by
  apply List.filter_eq_nil_iff.mpr
  intro entry hMem
  rw [decide_eq_true_eq, h entry hMem, Option.some_inj]
  exact hOther.symm

variable (parsers : Parsers PeerId Multiaddr)

def peersOf (candidates : List BrowserPeerCandidate) : List (PeerInfo PeerId Multiaddr) :=
  candidates.filterMap (toPeerInfo parsers)

/-- A call that has passed its gate and asked the client. -/
def asked (call : CallId) : List (Entry PeerId Multiaddr) :=
  [.called call, .gated call (.ok true), .clientScan call]

/-- A call whose scan came back with candidates, and the peers it has dispatched since. -/
def emitted (call : CallId) (candidates : List BrowserPeerCandidate) (peers : List (PeerInfo PeerId Multiaddr)) :
    List (Entry PeerId Multiaddr) :=
  asked call ++ [.settled call (.ok candidates)] ++ peers.map (.dispatched call)

/-- What the journal says about a call, and where its body then stands. -/
inductive Story (call : CallId) : List (Entry PeerId Multiaddr) → Option Phase → Prop
  | unheard : Story call [] none
  | collapsed : Story call [.collapsed call] none
  | gate : Story call [.called call] (some .gate)
  | closed : Story call [.called call, .gated call (.ok false), .returned call 0] none
  | gateFailed (error : String) : Story call [.called call, .gated call (.error error)] (some .failed)
  | client : Story call (asked call) (some .client)
  | scanFailed (error : String) : Story call (asked call ++ [.settled call (.error error)]) (some .failed)
  | emitting {candidates rest : List BrowserPeerCandidate} {peers : List (PeerInfo PeerId Multiaddr)}
      (h : peersOf parsers candidates = peers ++ peersOf parsers rest) :
      Story call (emitted call candidates peers) (some (.emitting rest peers.length))
  | returned {candidates rest : List BrowserPeerCandidate} {peers : List (PeerInfo PeerId Multiaddr)}
      (h : peersOf parsers candidates = peers ++ peersOf parsers rest) :
      Story call (emitted call candidates peers ++ [.returned call peers.length]) none
  | failed {entries : List (Entry PeerId Multiaddr)} {outcome : Entry PeerId Multiaddr}
      (h : Story call entries (some .failed)) (hOutcome : outcome = .returned call 0 ∨ outcome = .rejected call) :
      Story call (entries ++ [outcome]) none

namespace PeerDiscovery

variable {parsers} {self : PeerDiscovery PeerId Multiaddr} {call : CallId}

variable (parsers) in
/-- The guard flag goes with the one active body, and the one interval with the running flag. -/
structure Sound (discovery : PeerDiscovery PeerId Multiaddr) : Prop where
  story : ∀ call, Story parsers call (entriesOf call discovery.journal) (discovery.bodies.lookup call)
  fresh : ∀ call, discovery.calls ≤ call → entriesOf call discovery.journal = [] ∧ call ∉ discovery.bodies
  single : ∀ call ∈ discovery.bodies, ∀ other ∈ discovery.bodies, call = other
  guarded : discovery.scanning = true ↔ ∃ call, call ∈ discovery.bodies
  timed : discovery.intervals = discovery.timer.toList ∧ (discovery.running = true ↔ discovery.timer.isSome)

theorem story_append (call : CallId) {bodies : AList fun _ : CallId => Phase} {entries : List (Entry PeerId Multiaddr)}
    (h : ∀ call, Story parsers call (entriesOf call self.journal) (self.bodies.lookup call))
    (hOwn : ∀ entry ∈ entries, entry.call = some call)
    (hStory : Story parsers call (entriesOf call self.journal ++ entries) (bodies.lookup call))
    (hOthers : ∀ other ≠ call, bodies.lookup other = self.bodies.lookup other) (other : CallId) :
    Story parsers other (entriesOf other (self.journal ++ entries)) (bodies.lookup other) := by
  rw [entriesOf_append]
  by_cases hOther : other = call
  · rw [hOther, entriesOf_own hOwn]
    exact hStory
  · rw [entriesOf_other call hOwn hOther, List.append_nil, hOthers other hOther]
    exact h other

theorem fresh_append {entries : List (Entry PeerId Multiaddr)}
    (h : ∀ call, self.calls ≤ call → entriesOf call self.journal = [] ∧ call ∉ self.bodies)
    (hMem : call ∈ self.bodies) (hOwn : ∀ entry ∈ entries, entry.call = some call) {other : CallId}
    (hFresh : self.calls ≤ other) : entriesOf other (self.journal ++ entries) = [] := by
  have hOther : other ≠ call := by
    rintro rfl
    exact (h other hFresh).2 hMem
  rw [entriesOf_append, entriesOf_other call hOwn hOther, (h other hFresh).1, List.append_nil]

theorem Sound.advance (h : self.Sound parsers) (hMem : call ∈ self.bodies) {phase : Phase}
    {entries : List (Entry PeerId Multiaddr)} (hOwn : ∀ entry ∈ entries, entry.call = some call)
    (hStory : Story parsers call (entriesOf call self.journal ++ entries) (some phase)) :
    (self.advance call phase entries).Sound parsers where
  story := by
    apply story_append call h.story hOwn
    · change Story parsers call _ ((self.bodies.insert call phase).lookup call)
      rwa [AList.lookup_insert]
    · intro other hOther
      exact AList.lookup_insert_ne hOther
  fresh other hFresh := by
    refine ⟨fresh_append h.fresh hMem hOwn hFresh, ?_⟩
    intro hOther
    obtain rfl | hOther := AList.mem_insert _ |>.mp hOther
    · exact (h.fresh other hFresh).2 hMem
    · exact (h.fresh other hFresh).2 hOther
  single other hOther another hAnother := by
    have hBodies : ∀ other, other ∈ self.bodies.insert call phase → other ∈ self.bodies := by
      intro other hOther
      obtain rfl | hOther := AList.mem_insert _ |>.mp hOther
      · exact hMem
      · exact hOther
    exact h.single other (hBodies other hOther) another (hBodies another hAnother)
  guarded := by
    constructor
    · intro _
      exact ⟨call, AList.mem_insert _ |>.mpr (.inl rfl)⟩
    · intro _
      exact h.guarded.mpr ⟨call, hMem⟩
  timed := h.timed

theorem Sound.finish (h : self.Sound parsers) (hMem : call ∈ self.bodies)
    {entries : List (Entry PeerId Multiaddr)} (hOwn : ∀ entry ∈ entries, entry.call = some call)
    (hStory : Story parsers call (entriesOf call self.journal ++ entries) none) :
    (self.finish call entries).Sound parsers where
  story := by
    apply story_append call h.story hOwn
    · change Story parsers call _ ((self.bodies.erase call).lookup call)
      rwa [AList.lookup_erase]
    · intro other hOther
      exact AList.lookup_erase_ne hOther
  fresh other hFresh :=
    ⟨fresh_append h.fresh hMem hOwn hFresh, fun hOther => (h.fresh other hFresh).2 (AList.mem_erase.mp hOther).2⟩
  single other hOther another hAnother :=
    h.single other (AList.mem_erase.mp hOther).2 another (AList.mem_erase.mp hAnother).2
  guarded := by
    constructor
    · intro hScanning
      cases hScanning
    · rintro ⟨other, hOther⟩
      obtain ⟨hNe, hOther⟩ := AList.mem_erase.mp hOther
      exact absurd (h.single other hOther call hMem) hNe
  timed := h.timed

theorem sound_new : (new : PeerDiscovery PeerId Multiaddr).Sound parsers where
  story _ := .unheard
  fresh _ _ := ⟨rfl, AList.notMem_empty _⟩
  single call hMem := absurd hMem (AList.notMem_empty call)
  guarded := by
    constructor
    · intro hScanning
      cases hScanning
    · rintro ⟨call, hMem⟩
      exact absurd hMem (AList.notMem_empty call)
  timed := ⟨rfl, by simp [new]⟩

theorem Sound.start (h : self.Sound parsers) : self.start.Sound parsers := by
  rw [PeerDiscovery.start]
  split
  · exact h
  rename_i hStopped
  obtain ⟨hIntervals, hRunning⟩ := h.timed
  have hTimer : self.timer = none := Option.not_isSome_iff_eq_none.mp fun hSome => hStopped (hRunning.mpr hSome)
  refine ⟨h.story, h.fresh, h.single, h.guarded, ?_, by simp⟩
  change self.timers :: self.intervals = [self.timers]
  rw [hIntervals, hTimer]
  rfl

theorem Sound.stop (h : self.Sound parsers) : self.stop.Sound parsers := by
  have hEntries : ∀ call, entriesOf call (self.journal ++ [.stopped]) = entriesOf call self.journal := by
    intro call
    rw [entriesOf_append]
    exact List.append_nil _
  obtain ⟨hIntervals, hRunning⟩ := h.timed
  rw [PeerDiscovery.stop]
  split
  · rename_i hTimer
    refine ⟨?_, ?_, h.single, h.guarded, hIntervals, by simp [hTimer]⟩
    · intro call
      rw [hEntries]
      exact h.story call
    · intro call
      rw [hEntries]
      exact h.fresh call
  · rename_i timer hTimer
    refine ⟨?_, ?_, h.single, h.guarded, ?_, by simp⟩
    · intro call
      rw [hEntries]
      exact h.story call
    · intro call
      rw [hEntries]
      exact h.fresh call
    · rw [hIntervals, hTimer]
      simp

/-- A call with a new number says nothing of the numbers still to come. -/
theorem Sound.fresh_call (h : self.Sound parsers) {entry : Entry PeerId Multiaddr} (hOwn : entry.call = some self.calls)
    {call : CallId} (hFresh : self.calls + 1 ≤ call) : entriesOf call (self.journal ++ [entry]) = [] := by
  have hOther : entriesOf call [entry] = [] :=
    entriesOf_other self.calls (by simpa using hOwn) (Nat.lt_of_succ_le hFresh).ne'
  rw [entriesOf_append, hOther, List.append_nil]
  exact (h.fresh call (Nat.le_of_succ_le hFresh)).1

theorem Sound.scanOnce (h : self.Sound parsers) : self.scanOnce.Sound parsers := by
  obtain ⟨hUnheard, hIdle⟩ := h.fresh self.calls le_rfl
  rw [PeerDiscovery.scanOnce]
  split
  · refine ⟨?_, ?_, h.single, h.guarded, h.timed⟩
    · apply story_append self.calls h.story (by simp [Entry.call])
      · rw [hUnheard, AList.lookup_eq_none.mpr hIdle]
        exact .collapsed
      · intro other _
        rfl
    · intro call hFresh
      exact ⟨h.fresh_call rfl hFresh, (h.fresh call (Nat.le_of_succ_le hFresh)).2⟩
  · rename_i hClear
    have hNone : ∀ call, call ∉ self.bodies := fun call hMem => hClear (h.guarded.mpr ⟨call, hMem⟩)
    have hOnly : ∀ call, call ∈ self.bodies.insert self.calls .gate ↔ call = self.calls := by
      intro call
      rw [AList.mem_insert, or_iff_left (hNone call)]
    refine ⟨?_, ?_, ?_, ?_, h.timed⟩
    · apply story_append self.calls h.story (by simp [Entry.call])
      · rw [hUnheard, AList.lookup_insert]
        exact .gate
      · intro other hOther
        exact AList.lookup_insert_ne hOther
    · intro call hFresh
      exact ⟨h.fresh_call rfl hFresh, fun hMem => (Nat.lt_of_succ_le hFresh).ne' ((hOnly call).mp hMem)⟩
    · intro call hCall other hOther
      rw [(hOnly call).mp hCall, (hOnly other).mp hOther]
    · exact ⟨fun _ => ⟨self.calls, (hOnly _).mpr rfl⟩, fun _ => rfl⟩

section Bodies

variable (h : self.Sound parsers)

include h

omit h in
theorem mem_of_lookup {phase : Phase} (hLookup : self.bodies.lookup call = some phase) : call ∈ self.bodies :=
  AList.lookup_isSome.mp (hLookup ▸ rfl)

theorem Sound.storyOf {phase : Phase} (hLookup : self.bodies.lookup call = some phase) :
    Story parsers call (entriesOf call self.journal) (some phase) := hLookup ▸ h.story call

theorem Sound.gate (outcome : Except String Bool) : (self.gate call outcome).Sound parsers := by
  rw [PeerDiscovery.gate.eq_def]
  split
  · rename_i hLookup
    have hMem : call ∈ self.bodies := mem_of_lookup hLookup
    have hStory : entriesOf call self.journal = [.called call] := by
      have hGate := h.storyOf hLookup
      generalize entriesOf call self.journal = entries at hGate
      cases hGate
      rfl
    split
    · apply h.advance hMem (by simp [Entry.call])
      rw [hStory]
      exact .client
    · apply h.finish hMem (by simp [Entry.call])
      rw [hStory]
      exact .closed
    · apply h.advance hMem (by simp [Entry.call])
      rw [hStory]
      exact .gateFailed _
  · exact h

theorem Sound.settle (report : Report) : (self.settle call report).Sound parsers := by
  rw [PeerDiscovery.settle.eq_def]
  split
  · rename_i hLookup
    have hMem : call ∈ self.bodies := mem_of_lookup hLookup
    have hStory : entriesOf call self.journal = asked call := by
      have hClient := h.storyOf hLookup
      generalize entriesOf call self.journal = entries at hClient
      cases hClient
      rfl
    split
    · rename_i candidates
      apply h.advance hMem (by simp [Entry.call])
      rw [hStory]
      exact @Story.emitting _ _ parsers call candidates candidates [] rfl
    · apply h.advance hMem (by simp [Entry.call])
      rw [hStory]
      exact .scanFailed _
  · exact h

/-- In its loop a call has dispatched what precedes the candidates that are left. -/
theorem Sound.emitting {rest : List BrowserPeerCandidate} {count : Nat}
    (hLookup : self.bodies.lookup call = some (.emitting rest count)) : ∃ candidates peers,
      peersOf parsers candidates = peers ++ peersOf parsers rest ∧ count = peers.length ∧
        entriesOf call self.journal = emitted call candidates peers := by
  have hEmitting := h.storyOf hLookup
  generalize entriesOf call self.journal = entries at hEmitting
  cases hEmitting with
  | emitting hPeers => exact ⟨_, _, hPeers, rfl, rfl⟩

theorem Sound.emit : (self.emit parsers call).Sound parsers := by
  rw [PeerDiscovery.emit]
  split
  · rename_i hLookup
    have hMem : call ∈ self.bodies := mem_of_lookup hLookup
    obtain ⟨candidates, peers, hPeers, rfl, hStory⟩ := h.emitting hLookup
    apply h.finish hMem (by simp [Entry.call])
    rw [hStory]
    exact .returned hPeers
  · rename_i candidate rest count hLookup
    have hMem : call ∈ self.bodies := mem_of_lookup hLookup
    obtain ⟨candidates, peers, hPeers, rfl, hStory⟩ := h.emitting hLookup
    split
    · apply h.finish hMem (by simp [Entry.call])
      rw [hStory]
      exact .returned hPeers
    split
    · rename_i hNone
      apply h.advance hMem (by simp [Entry.call])
      rw [hStory, List.append_nil]
      rw [peersOf, peersOf, List.filterMap_cons_none hNone] at hPeers
      exact .emitting hPeers
    · rename_i peer hSome
      apply h.advance hMem (by simp [Entry.call])
      rw [peersOf, peersOf, List.filterMap_cons_some hSome] at hPeers
      have hNext : peersOf parsers candidates = (peers ++ [peer]) ++ peersOf parsers rest := by
        rw [List.append_assoc]
        exact hPeers
      have hEmitted : emitted call candidates peers ++ [.dispatched call peer] =
          emitted call candidates (peers ++ [peer]) := by
        rw [emitted, emitted, List.map_append, List.append_assoc]
        rfl
      have hLength : peers.length + 1 = (peers ++ [peer]).length := by rw [List.length_append, List.length_singleton]
      rw [hStory, hEmitted, hLength]
      exact .emitting hNext
  · exact h

theorem Sound.onError (outcome : Except String Unit) : (self.onError call outcome).Sound parsers := by
  rw [PeerDiscovery.onError.eq_def]
  split
  · rename_i hLookup
    have hMem : call ∈ self.bodies := mem_of_lookup hLookup
    split
    · exact h.finish hMem (by simp [Entry.call]) (.failed (h.storyOf hLookup) (.inl rfl))
    · exact h.finish hMem (by simp [Entry.call]) (.failed (h.storyOf hLookup) (.inr rfl))
  · exact h

theorem Sound.step (input : DiscoveryInput) : (self.step parsers input).Sound parsers := by
  cases input with
  | start => exact h.start
  | stop => exact h.stop
  | tick timer =>
    rw [PeerDiscovery.step]
    split
    · exact h.scanOnce
    · exact h
  | scanOnce => exact h.scanOnce
  | gate call outcome => exact h.gate outcome
  | settle call report => exact h.settle report
  | emit call => exact h.emit
  | onError call outcome => exact h.onError outcome

end Bodies

variable (parsers) in
theorem sound_run (inputs : List DiscoveryInput) : (run parsers inputs).Sound parsers := by
  induction inputs using List.reverseRecOn with
  | nil => exact sound_new
  | append_singleton inputs input ih =>
    rw [run_append]
    exact ih.step input

end PeerDiscovery

section Journal

variable {parsers} {call : CallId} {entries : List (Entry PeerId Multiaddr)} {phase : Option Phase}

/-- A call to the client that has not come back. -/
def Outstanding (journal : List (Entry PeerId Multiaddr)) (call : CallId) : Prop :=
  .clientScan call ∈ journal ∧ ∀ report, .settled call report ∉ journal

/-- A call that got past the guard and has not come to its end. -/
def Active (journal : List (Entry PeerId Multiaddr)) (call : CallId) : Prop :=
  .called call ∈ journal ∧ (∀ emitted, .returned call emitted ∉ journal) ∧ .rejected call ∉ journal

theorem mem_entriesOf {journal : List (Entry PeerId Multiaddr)} {entry : Entry PeerId Multiaddr}
    (hCall : entry.call = some call) : entry ∈ entriesOf call journal ↔ entry ∈ journal := by
  rw [entriesOf, List.mem_filter, decide_eq_true_eq, and_iff_left hCall]

theorem outstanding_entriesOf {journal : List (Entry PeerId Multiaddr)} :
    Outstanding (entriesOf call journal) call ↔ Outstanding journal call :=
  and_congr (mem_entriesOf rfl) (forall_congr' fun _ => not_congr (mem_entriesOf rfl))

theorem active_entriesOf {journal : List (Entry PeerId Multiaddr)} :
    Active (entriesOf call journal) call ↔ Active journal call :=
  and_congr (mem_entriesOf rfl) (and_congr (forall_congr' fun _ => not_congr (mem_entriesOf rfl))
    (not_congr (mem_entriesOf rfl)))

theorem Story.outstanding (h : Story parsers call entries phase) : Outstanding entries call ↔ phase = some .client := by
  cases h with
  | failed h hOutcome =>
    obtain rfl | rfl := hOutcome
    · cases h <;> simp [Outstanding, asked]
    · cases h <;> simp [Outstanding, asked]
  | _ => simp [Outstanding, asked, emitted]

theorem Story.active (h : Story parsers call entries phase) : Active entries call ↔ phase.isSome := by
  cases h with
  | failed h hOutcome =>
    obtain rfl | rfl := hOutcome
    · exact iff_of_false (fun hActive => hActive.2.1 0 (by simp)) (by simp)
    · exact iff_of_false (fun hActive => hActive.2.2 (by simp)) (by simp)
  | gate => simp [Active]
  | _ => simp [Active, asked, emitted]

/-- The client is asked once, behind a gate that the call itself has passed. -/
theorem Story.asks (h : Story parsers call entries phase) (hMem : .clientScan call ∈ entries) :
    ∃ rest, entries = asked call ++ rest ∧ .clientScan call ∉ rest := by
  cases h with
  | failed h hOutcome =>
    obtain rfl | rfl := hOutcome
    · cases h with
      | gateFailed error => simp at hMem
      | scanFailed error => exact ⟨_, List.append_assoc .., by simp⟩
    · cases h with
      | gateFailed error => simp at hMem
      | scanFailed error => exact ⟨_, List.append_assoc .., by simp⟩
  | client => exact ⟨[], by simp, by simp⟩
  | scanFailed error => exact ⟨_, rfl, by simp⟩
  | emitting hPeers => exact ⟨_, by rw [emitted, List.append_assoc], by simp⟩
  | returned hPeers => exact ⟨_, by rw [emitted, List.append_assoc, List.append_assoc], by simp⟩
  | _ => simp at hMem

theorem Story.before_clientScan {before after : List (Entry PeerId Multiaddr)}
    (h : Story parsers call (before ++ .clientScan call :: after) phase) :
    before = [.called call, .gated call (.ok true)] := by
  obtain ⟨rest, hEntries, hRest⟩ := h.asks (by simp)
  obtain _ | ⟨first, _ | ⟨second, _ | ⟨third, before⟩⟩⟩ := before
  · simp [asked] at hEntries
  · simp [asked] at hEntries
  · simp only [asked, List.cons_append, List.nil_append, List.cons.injEq] at hEntries
    rw [hEntries.1, hEntries.2.1]
  · simp only [asked, List.cons_append, List.nil_append, List.cons.injEq] at hEntries
    exact absurd (hEntries.2.2.2 ▸ by simp) hRest

end Journal

namespace PeerDiscovery

/-- What is promised of the scans of a discovery, in the terms of its journal and of the host's intervals. -/
structure OneGatedScan (discovery : PeerDiscovery PeerId Multiaddr) : Prop where
  outstanding : ∀ call other, Outstanding discovery.journal call → Outstanding discovery.journal other → call = other
  gated : ∀ before call after, discovery.journal = before ++ .clientScan call :: after →
    ∃ earlier between later, before = earlier ++ .called call :: (between ++ .gated call (.ok true) :: later)
  once : ∀ before call after, discovery.journal = before ++ .clientScan call :: after → .clientScan call ∉ before
  clear : (∀ call, ¬ Active discovery.journal call) → discovery.scanning = false
  started : discovery.isStarted = true → ∃ timer, discovery.intervals = [timer]
  stopped : discovery.isStarted = false → discovery.intervals = []

variable {parsers} {self : PeerDiscovery PeerId Multiaddr}

theorem Sound.lookup_client (h : self.Sound parsers) {call : CallId} (hOutstanding : Outstanding self.journal call) :
    self.bodies.lookup call = some .client := (h.story call).outstanding.mp (outstanding_entriesOf.mpr hOutstanding)

theorem Sound.entriesOf_before (h : self.Sound parsers) {before after : List (Entry PeerId Multiaddr)}
    {call : CallId} (hJournal : self.journal = before ++ .clientScan call :: after) :
    entriesOf call before = [.called call, .gated call (.ok true)] := by
  have hStory := h.story call
  have hSplit : entriesOf call (.clientScan call :: after) = .clientScan call :: entriesOf call after :=
    List.filter_cons_of_pos (decide_eq_true rfl)
  rw [hJournal, entriesOf_append, hSplit] at hStory
  exact hStory.before_clientScan

theorem Sound.called_of_clientScan (h : self.Sound parsers) {before after : List (Entry PeerId Multiaddr)}
    {call : CallId} (hJournal : self.journal = before ++ .clientScan call :: after) :
    ∃ earlier between later, before = earlier ++ .called call :: (between ++ .gated call (.ok true) :: later) := by
  obtain ⟨earlier, rest, rfl, -, -, hRest⟩ := List.filter_eq_cons_iff.mp (h.entriesOf_before hJournal)
  obtain ⟨between, later, rfl, -⟩ := List.filter_eq_cons_iff.mp hRest
  exact ⟨earlier, between, later, rfl⟩

/-- In every state of every run there is at most one scan, behind its own gate, of a call that asks once, and one
interval while started. -/
theorem oneGatedScan_run (parsers : Parsers PeerId Multiaddr) (inputs : List DiscoveryInput) :
    (run parsers inputs).OneGatedScan := by
  have h := sound_run parsers inputs
  obtain ⟨hIntervals, hRunning⟩ := h.timed
  constructor
  · intro call other hCall hOther
    exact h.single call (mem_of_lookup (h.lookup_client hCall)) other (mem_of_lookup (h.lookup_client hOther))
  · intro before call after hJournal
    exact h.called_of_clientScan hJournal
  · intro before call after hJournal hMem
    have hEarlier := (mem_entriesOf rfl).mpr hMem
    rw [h.entriesOf_before hJournal] at hEarlier
    simp at hEarlier
  · intro hIdle
    apply Bool.eq_false_iff.mpr
    intro hScanning
    obtain ⟨call, hMem⟩ := h.guarded.mp hScanning
    exact hIdle call (active_entriesOf.mp ((h.story call).active.mpr (AList.lookup_isSome.mpr hMem)))
  · intro hStarted
    obtain ⟨timer, hTimer⟩ := Option.isSome_iff_exists.mp (hRunning.mp hStarted)
    exact ⟨timer, by rw [hIntervals, hTimer]; rfl⟩
  · intro hStopped
    have hTimer : (run parsers inputs).timer = none := by
      apply Option.not_isSome_iff_eq_none.mp
      intro hSome
      exact absurd (hRunning.mpr hSome) (Bool.eq_false_iff.mp hStopped)
    rw [hIntervals, hTimer]
    rfl

end PeerDiscovery

end Resurrect.Browser
