import Resurrect.Browser.ScanGuard

/-! # What a scan hands to the host

The emission law is about each entry of the journal and what precedes it. The code
decides on the running flag alone: it keeps the law just where, at every decision
with something left to dispatch, the flag says whether a stop has come in between.
-/

namespace Resurrect.Browser

variable {PeerId Multiaddr : Type}

/-- A `stop()` has happened since the call began. -/
def StoppedSince (journal : List (Entry PeerId Multiaddr)) (call : CallId) : Prop :=
  ∃ before after, journal = before ++ .called call :: after ∧ .stopped ∈ after

def dispatches (call : CallId) (journal : List (Entry PeerId Multiaddr)) : List (PeerInfo PeerId Multiaddr) :=
  journal.filterMap fun entry => match entry with
    | .dispatched other peer => if other = call then some peer else none
    | _ => none

variable (parsers : Parsers PeerId Multiaddr)

/-- A dispatch is the next convertible candidate of its call, and never behind a stop; a call whose scan came back
returns with all of them dispatched, unless a stop has happened. -/
def LawfulEntry (before : List (Entry PeerId Multiaddr)) : Entry PeerId Multiaddr → Prop
  | .dispatched call peer => ¬ StoppedSince before call ∧ ∃ candidates, .settled call (.ok candidates) ∈ before ∧
      dispatches call before ++ [peer] <+: peersOf parsers candidates
  | .returned call _ => ∀ candidates, .settled call (.ok candidates) ∈ before → ¬ StoppedSince before call →
      dispatches call before = peersOf parsers candidates
  | _ => True

/-- The emission law, of a whole journal. -/
def Lawful (journal : List (Entry PeerId Multiaddr)) : Prop :=
  ∀ before entry after, journal = before ++ entry :: after → LawfulEntry parsers before entry

variable {parsers} {journal : List (Entry PeerId Multiaddr)} {call : CallId}

theorem lawful_nil : Lawful parsers ([] : List (Entry PeerId Multiaddr)) := by
  intro before entry after h
  simp at h

theorem lawful_concat {entry : Entry PeerId Multiaddr} :
    Lawful parsers (journal ++ [entry]) ↔ Lawful parsers journal ∧ LawfulEntry parsers journal entry := by
  constructor
  · intro h
    constructor
    · rintro before other after rfl
      exact h before other (after ++ [entry]) (by simp)
    · exact h journal entry [] rfl
  · rintro ⟨hJournal, hEntry⟩ before other after hSplit
    obtain rfl | ⟨init, last, rfl⟩ := List.eq_nil_or_concat after
    · obtain ⟨rfl, hLast⟩ := List.append_inj' hSplit rfl
      cases hLast
      exact hEntry
    · rw [List.concat_eq_append, ← List.cons_append, ← List.append_assoc] at hSplit
      obtain ⟨rfl, -⟩ := List.append_inj' hSplit rfl
      exact hJournal before other init rfl

theorem dispatches_entriesOf : dispatches call (entriesOf call journal) = dispatches call journal := by
  rw [dispatches, entriesOf, List.filterMap_filter]
  apply List.filterMap_congr
  intro entry _
  cases entry with
  | dispatched other peer =>
    by_cases hOther : other = call
    · simp [Entry.call, hOther]
    · simp [Entry.call, hOther]
  | _ => simp

theorem dispatches_emitted (candidates : List BrowserPeerCandidate) (peers : List (PeerInfo PeerId Multiaddr)) :
    dispatches call (emitted call candidates peers) = peers := by
  simp [dispatches, emitted, asked, List.filterMap_map]

namespace PeerDiscovery

variable {self : PeerDiscovery PeerId Multiaddr}

variable (parsers) in
/-- Where there is something left to dispatch, the running flag is set just if no stop has come since the call began. -/
def Attuned (self : PeerDiscovery PeerId Multiaddr) : DiscoveryInput → Prop
  | .emit call => ∀ candidate rest count, self.bodies.lookup call = some (.emitting (candidate :: rest) count) →
      if self.running then toPeerInfo parsers candidate ≠ none → ¬ StoppedSince self.journal call
      else peersOf parsers (candidate :: rest) ≠ [] → StoppedSince self.journal call
  | _ => True

theorem lawful_concat_of_true {entry : Entry PeerId Multiaddr} (h : LawfulEntry parsers journal entry) :
    Lawful parsers (journal ++ [entry]) ↔ Lawful parsers journal := by
  rw [lawful_concat, and_iff_left h]

theorem lawful_returned {count : Nat} (h : ∀ candidates, .settled call (.ok candidates) ∉ journal) :
    LawfulEntry parsers journal (.returned call count) := fun candidates hMem => absurd hMem (h candidates)

theorem unsettled_of_failed {entries : List (Entry PeerId Multiaddr)}
    (h : Story parsers call entries (some .failed)) (candidates : List BrowserPeerCandidate) :
    .settled call (.ok candidates) ∉ entries := by
  cases h <;> simp [asked]

section Steps

theorem lawful_stop : Lawful parsers self.stop.journal ↔ Lawful parsers self.journal := by
  rw [stop]
  split
  · exact lawful_concat_of_true trivial
  · exact lawful_concat_of_true trivial

theorem lawful_scanOnce : Lawful parsers self.scanOnce.journal ↔ Lawful parsers self.journal := by
  rw [scanOnce]
  split
  · exact lawful_concat_of_true trivial
  · exact lawful_concat_of_true trivial

theorem lawful_start : Lawful parsers self.start.journal ↔ Lawful parsers self.journal := by
  rw [start]
  split <;> rfl

theorem lawful_settle (report : Report) :
    Lawful parsers (self.settle call report).journal ↔ Lawful parsers self.journal := by
  rw [settle.eq_def]
  split
  · split
    · exact lawful_concat_of_true trivial
    · exact lawful_concat_of_true trivial
  · rfl

variable (h : self.Sound parsers)

include h

theorem Sound.lawful_gate (outcome : Except String Bool) :
    Lawful parsers (self.gate call outcome).journal ↔ Lawful parsers self.journal := by
  rw [gate.eq_def]
  split
  · rename_i hLookup
    have hGated : ∀ outcome, Lawful parsers (self.journal ++ [.gated call outcome]) ↔ Lawful parsers self.journal :=
      fun outcome => lawful_concat_of_true trivial
    split
    · have hAsked : LawfulEntry parsers (self.journal ++ [.gated call (.ok true)]) (.clientScan call) := trivial
      change Lawful parsers (self.journal ++ ([.gated call _] ++ [.clientScan call])) ↔ _
      rw [← List.append_assoc, lawful_concat_of_true hAsked, hGated]
    · change Lawful parsers (self.journal ++ ([.gated call _] ++ [.returned call 0])) ↔ _
      have hUnsettled : ∀ candidates, .settled call (.ok candidates) ∉ self.journal ++ [.gated call (.ok false)] := by
        intro candidates hMem
        have hStory := h.storyOf hLookup
        rw [← mem_entriesOf rfl, entriesOf_append] at hMem
        generalize entriesOf call self.journal = entries at hStory hMem
        cases hStory
        simp [entriesOf, Entry.call] at hMem
      rw [← List.append_assoc, lawful_concat_of_true (lawful_returned hUnsettled), hGated]
    · exact hGated _
  · rfl

theorem Sound.lawful_onError (outcome : Except String Unit) :
    Lawful parsers (self.onError call outcome).journal ↔ Lawful parsers self.journal := by
  rw [onError.eq_def]
  split
  · rename_i hLookup
    have hUnsettled : ∀ candidates, .settled call (.ok candidates) ∉ self.journal := by
      intro candidates hMem
      exact unsettled_of_failed (h.storyOf hLookup) candidates ((mem_entriesOf rfl).mpr hMem)
    split
    · exact lawful_concat_of_true (lawful_returned hUnsettled)
    · exact lawful_concat_of_true trivial
  · rfl

/-- A call in its loop has dispatched a first part of the peers of its one report. -/
theorem Sound.dispatched {rest : List BrowserPeerCandidate} {count : Nat}
    (hLookup : self.bodies.lookup call = some (.emitting rest count)) : ∃ candidates,
      .settled call (.ok candidates) ∈ self.journal ∧
      (∀ other, .settled call (.ok other) ∈ self.journal → other = candidates) ∧
      peersOf parsers candidates = dispatches call self.journal ++ peersOf parsers rest := by
  obtain ⟨candidates, peers, hPeers, -, hStory⟩ := h.emitting hLookup
  refine ⟨candidates, ?_, ?_, ?_⟩
  · rw [← mem_entriesOf rfl, hStory]
    simp [emitted, asked]
  · intro other hMem
    rw [← mem_entriesOf rfl, hStory] at hMem
    simpa [emitted, asked] using hMem
  · rw [← dispatches_entriesOf, hStory, dispatches_emitted]
    exact hPeers

/-- A call that ends its loop does so lawfully if nothing is left to dispatch, or a stop has come. -/
theorem Sound.lawful_end {rest : List BrowserPeerCandidate} {count : Nat}
    (hLookup : self.bodies.lookup call = some (.emitting rest count)) :
    Lawful parsers (self.journal ++ [.returned call count]) ↔
      Lawful parsers self.journal ∧ (peersOf parsers rest ≠ [] → StoppedSince self.journal call) := by
  obtain ⟨candidates, hSettled, hOnly, hPeers⟩ := h.dispatched hLookup
  rw [lawful_concat]
  apply and_congr_right
  intro _
  constructor
  · intro hReturned hLeft
    by_contra hGoing
    have hAll := hReturned candidates hSettled hGoing
    rw [hPeers, List.self_eq_append_right] at hAll
    exact hLeft hAll
  · intro hStopped other hMem hGoing
    obtain rfl := hOnly other hMem
    have hNil : peersOf parsers rest = [] := by
      by_contra hLeft
      exact hGoing (hStopped hLeft)
    rw [hPeers, hNil, List.append_nil]

omit h in
theorem attuned_of_lookup {candidate : BrowserPeerCandidate} {rest : List BrowserPeerCandidate} {count : Nat}
    (hLookup : self.bodies.lookup call = some (.emitting (candidate :: rest) count)) :
    self.Attuned parsers (.emit call) ↔
      if self.running then toPeerInfo parsers candidate ≠ none → ¬ StoppedSince self.journal call
      else peersOf parsers (candidate :: rest) ≠ [] → StoppedSince self.journal call := by
  constructor
  · intro hAttuned
    exact hAttuned candidate rest count hLookup
  · intro hAttuned other others total hOther
    cases hLookup.symm.trans hOther
    exact hAttuned

omit h in
theorem attuned_of_not_emitting (hLookup : ∀ candidate rest count,
    self.bodies.lookup call ≠ some (.emitting (candidate :: rest) count)) : self.Attuned parsers (.emit call) :=
  fun candidate rest count hEmitting => absurd hEmitting (hLookup candidate rest count)

/-- A dispatch is lawful if no stop has come; its place in the order is right in any case. -/
theorem Sound.lawful_dispatch {candidate : BrowserPeerCandidate} {rest : List BrowserPeerCandidate} {count : Nat}
    {peer : PeerInfo PeerId Multiaddr} (hPeer : toPeerInfo parsers candidate = some peer)
    (hLookup : self.bodies.lookup call = some (.emitting (candidate :: rest) count)) :
    Lawful parsers (self.journal ++ [.dispatched call peer]) ↔
      Lawful parsers self.journal ∧ ¬ StoppedSince self.journal call := by
  obtain ⟨candidates, hSettled, -, hPeers⟩ := h.dispatched hLookup
  have hNext : dispatches call self.journal ++ [peer] <+: peersOf parsers candidates := by
    rw [hPeers, peersOf, List.filterMap_cons_some hPeer, List.prefix_append_right_inj]
    exact List.prefix_append [peer] _
  rw [lawful_concat]
  apply and_congr_right
  intro _
  exact and_iff_left ⟨candidates, hSettled, hNext⟩

theorem Sound.lawful_emit : Lawful parsers (self.emit parsers call).journal ↔
    Lawful parsers self.journal ∧ self.Attuned parsers (.emit call) := by
  rw [PeerDiscovery.emit]
  split
  · rename_i count hLookup
    have hAttuned : self.Attuned parsers (.emit call) := by
      apply attuned_of_not_emitting
      intro candidate rest total hEmitting
      cases hLookup.symm.trans hEmitting
    refine (h.lawful_end hLookup).trans (and_congr_right fun _ => iff_of_true ?_ hAttuned)
    intro hLeft
    exact absurd rfl hLeft
  · rename_i candidate rest count hLookup
    rw [attuned_of_lookup hLookup]
    split
    · rename_i hRunning
      rw [if_neg (by simpa using hRunning)]
      exact h.lawful_end hLookup
    · rename_i hRunning
      rw [if_pos (by simpa using hRunning)]
      split
      · rename_i hNone
        have hSame : Lawful parsers (self.journal ++ []) ↔ Lawful parsers self.journal := by rw [List.append_nil]
        exact hSame.trans (and_iff_left fun hSome => absurd hNone hSome).symm
      · rename_i peer hPeer
        refine (h.lawful_dispatch hPeer hLookup).trans (and_congr_right fun _ => ?_)
        rw [forall_prop_of_true (hPeer ▸ Option.some_ne_none peer)]
  · rename_i hOther
    rw [and_iff_left (attuned_of_not_emitting hOther)]

end Steps

theorem Sound.lawful_step (h : self.Sound parsers) (input : DiscoveryInput) :
    Lawful parsers (self.step parsers input).journal ↔ Lawful parsers self.journal ∧ self.Attuned parsers input := by
  cases input with
  | start => exact lawful_start.trans (and_iff_left trivial).symm
  | stop => exact lawful_stop.trans (and_iff_left trivial).symm
  | tick timer =>
    rw [PeerDiscovery.step]
    split
    · exact lawful_scanOnce.trans (and_iff_left trivial).symm
    · exact (and_iff_left trivial).symm
  | scanOnce => exact lawful_scanOnce.trans (and_iff_left trivial).symm
  | gate call outcome => exact (h.lawful_gate outcome).trans (and_iff_left trivial).symm
  | settle call report => exact (lawful_settle report).trans (and_iff_left trivial).symm
  | emit call => exact h.lawful_emit
  | onError call outcome => exact (h.lawful_onError outcome).trans (and_iff_left trivial).symm

/-- The emission law holds of a run exactly when the running flag is attuned at every step of it. -/
theorem lawful_iff_attuned (parsers : Parsers PeerId Multiaddr) (inputs : List DiscoveryInput) :
    Lawful parsers (run parsers inputs).journal ↔
      ∀ before input, before ++ [input] <+: inputs → (run parsers before).Attuned parsers input := by
  induction inputs using List.reverseRecOn with
  | nil =>
    refine iff_of_true lawful_nil fun before input hPrefix => ?_
    have hLength := hPrefix.length_le
    simp at hLength
  | append_singleton inputs input ih =>
    rw [run_append, (sound_run parsers inputs).lawful_step, ih]
    constructor
    · rintro ⟨hEarlier, hLast⟩ before other hPrefix
      obtain hEq | hPrefix := List.prefix_concat_iff.mp hPrefix
      · obtain ⟨rfl, hInput⟩ := List.append_inj' hEq rfl
        cases hInput
        exact hLast
      · exact hEarlier before other hPrefix
    · intro h
      exact ⟨fun before other hPrefix => h before other (hPrefix.trans (List.prefix_append _ _)),
        h inputs input List.prefix_rfl⟩

/-- Parsers that take every text as it is. -/
def plainParsers : Parsers String String := ⟨some, some⟩

def seedCandidate : BrowserPeerCandidate where
  peerId := "12D3KooWEyoppNCUx8Yx66oV9fJnriXwCcXwDDUA2kj6vnc6iDEp"
  sequence := 8
  endpoints := ["/ip4/127.0.0.1/tcp/4001/ws"]
  rawSignedRecord := "0x01"
  validUntil := 200
  blockNumber := 12
  logIndex := 0

/-- Stopped and started again while the client is still scanning. -/
def restarted : List DiscoveryInput :=
  [.start, .scanOnce, .gate 0 (.ok true), .stop, .start, .settle 0 (.ok [seedCandidate]), .emit 0]

/-- Called without ever having been started. -/
def neverStarted : List DiscoveryInput :=
  [.scanOnce, .gate 0 (.ok true), .settle 0 (.ok [seedCandidate]), .emit 0]

/-- The restarted discovery dispatches behind the stop; the one never started swallows its candidate. -/
theorem restarted_emits : ¬ Lawful plainParsers (run plainParsers restarted).journal ∧
    ¬ Lawful plainParsers (run plainParsers neverStarted).journal := by
  constructor
  · intro h
    obtain ⟨hGoing, -⟩ := h [.called 0, .gated 0 (.ok true), .clientScan 0, .stopped, .settled 0 (.ok [seedCandidate])]
      (.dispatched 0 ⟨seedCandidate.peerId, seedCandidate.endpoints⟩) [] rfl
    exact hGoing ⟨[], _, rfl, by simp⟩
  · intro h
    have hAll := h [.called 0, .gated 0 (.ok true), .clientScan 0, .settled 0 (.ok [seedCandidate])]
      (.returned 0 0) [] rfl [seedCandidate] (by simp)
    have hGoing : ¬ StoppedSince ([.called 0, .gated 0 (.ok true), .clientScan 0, .settled 0 (.ok [seedCandidate])] :
        List (Entry String String)) 0 := by
      rintro ⟨before, after, hSplit, hStopped⟩
      have hMem : (.stopped : Entry String String) ∈ before ++ .called 0 :: after := by simp [hStopped]
      rw [← hSplit] at hMem
      simp at hMem
    cases hAll hGoing

end PeerDiscovery

end Resurrect.Browser
