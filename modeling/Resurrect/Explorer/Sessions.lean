import Resurrect.Explorer.LivePeers
import Resurrect.Foundation.Handover

/-! # No session is forgotten, unless it was overtaken

The page keeps one probe session, which scans and probes close and replace. Its runs
are those of a slot that tasks hand over, so a session that is neither closed nor
kept was opened while another task was between closing and replacing.
-/

namespace Resurrect.Explorer

open Interaction Browser

inductive Task where
  | scan (number : Nat)
  | probe (number : Nat)
  deriving DecidableEq, Repr

namespace Page

variable {platform : Platform} {keccak256 : Bytes → Core.B256} {self other : Page}

/-- The task has called the `close` of what it found, and has not assigned `activeProbe` yet. -/
def Midway (self : Page) : Task → Prop
  | .scan number => ∃ network source, self.board.scans number = some ⟨network, source, .closing⟩
  | .probe number => ∃ card, self.probes[number]? = some ⟨card, .closing⟩ ∨ self.probes[number]? = some ⟨card, .probing⟩

def Opened (self : Page) (session : Nat) : Prop := ∃ card result, self.probes[session]? = some ⟨card, .live result⟩

/-- The probe of the session succeeded while another task was midway. -/
def Overtaken (platform : Platform) (keccak256 : Bytes → Core.B256) (inputs : List PageInput) (session : Nat) : Prop :=
  ∃ before result after card task, inputs = before ++ .probed session (.ok result) :: after ∧
    (run platform keccak256 before).probes[session]? = some ⟨card, .probing⟩ ∧
    (run platform keccak256 before).Midway task ∧ task ≠ .probe session

def slot (self : Page) (raced : Set Nat) : Handover.Slot Task Nat where
  active := self.activeProbe
  opened := {session | self.Opened session}
  closed := {session | session ∈ self.closed}
  midway := {task | self.Midway task}
  raced := raced

theorem overtaken_concat {inputs : List PageInput} {input : PageInput} {session : Nat} :
    Overtaken platform keccak256 (inputs ++ [input]) session ↔ Overtaken platform keccak256 inputs session ∨
      ∃ result card task, input = .probed session (.ok result) ∧
        (run platform keccak256 inputs).probes[session]? = some ⟨card, .probing⟩ ∧
        (run platform keccak256 inputs).Midway task ∧ task ≠ .probe session := by
  constructor
  · rintro ⟨before, result, after, card, task, hInputs, hRest⟩
    obtain rfl | ⟨earlier, last, rfl⟩ := List.eq_nil_or_concat after
    · obtain ⟨rfl, hInput⟩ := List.append_inj' hInputs rfl
      exact .inr ⟨result, card, task, List.singleton_inj.mp hInput, hRest⟩
    · rw [List.concat_eq_append, ← List.cons_append, ← List.append_assoc] at hInputs
      obtain ⟨rfl, -⟩ := List.append_inj' hInputs rfl
      exact .inl ⟨before, result, earlier, card, task, rfl, hRest⟩
  · rintro (⟨before, result, after, card, task, rfl, hRest⟩ | ⟨result, card, task, rfl, hRest⟩)
    · exact ⟨before, result, after ++ [input], card, task, by simp, hRest⟩
    · exact ⟨inputs, result, [], card, task, rfl, hRest⟩

section Handovers

variable {raced : Set Nat}

theorem handover_keep (hActive : other.activeProbe = self.activeProbe) (hClosed : other.closed = self.closed)
    (hOpened : ∀ session, other.Opened session ↔ self.Opened session)
    (hMidway : ∀ task, other.Midway task → self.Midway task) :
    Handover.Step (self.slot raced) (other.slot raced) :=
  .keep hActive (Set.ext hOpened) (congrArg (fun closed => {session | session ∈ closed}) hClosed) rfl hMidway

theorem handover_close (hActive : other.activeProbe = self.activeProbe)
    (hClosed : other.closed = self.activeProbe.toList ++ self.closed)
    (hOpened : ∀ session, other.Opened session ↔ self.Opened session) :
    Handover.Step (self.slot raced) (other.slot raced) := by
  refine .close hActive (Set.ext hOpened) (Set.ext fun session => ?_) rfl
  change session ∈ other.closed ↔ session ∈ self.closed ∨ self.activeProbe = some session
  rw [hClosed, List.mem_append, Option.mem_toList, or_comm]

theorem opened_congr (hProbes : other.probes = self.probes) (session : Nat) :
    other.Opened session ↔ self.Opened session := by
  rw [Opened, Opened, hProbes]

theorem handover_idle (hActive : other.activeProbe = self.activeProbe) (hClosed : other.closed = self.closed)
    (hScans : other.board.scans = self.board.scans) (hProbes : other.probes = self.probes) :
    Handover.Step (self.slot raced) (other.slot raced) := by
  refine handover_keep hActive hClosed (opened_congr hProbes) fun task hTask => ?_
  cases task with
  | scan number =>
    rw [Midway, hScans] at hTask
    exact hTask
  | probe number =>
    rw [Midway, hProbes] at hTask
    exact hTask

/-- Where a scan has moved on, no other is midway. -/
theorem midway_board {number : Nat} {next : Scan} (hNext : next.phase ≠ .closing)
    (hScans : other.board.scans = Function.update self.board.scans number (some next))
    (hProbes : other.probes = self.probes) (task : Task) (h : other.Midway task) : self.Midway task := by
  cases task with
  | scan asked =>
    obtain ⟨network, source, hScan⟩ := h
    rw [hScans] at hScan
    by_cases hEq : asked = number
    · rw [hEq, Function.update_self] at hScan
      cases hScan
      exact absurd rfl hNext
    · rw [Function.update_of_ne hEq] at hScan
      exact ⟨network, source, hScan⟩
  | probe asked =>
    rw [Midway, hProbes] at h
    exact h

theorem unopened {probe card : Nat} {phase : ProbePhase} (hProbe : self.probes[probe]? = some ⟨card, phase⟩)
    (hPhase : ∀ result, phase ≠ .live result) : ¬ self.Opened probe := by
  rintro ⟨_, result, h⟩
  rw [hProbe] at h
  cases h
  exact hPhase result rfl

theorem opened_update {probe card : Nat} {phase next : ProbePhase}
    (hProbe : self.probes[probe]? = some ⟨card, phase⟩) (hPhase : ∀ result, phase ≠ .live result)
    (hProbes : other.probes = self.probes.set probe ⟨card, next⟩) (hNext : ∀ result, next ≠ .live result)
    (session : Nat) : other.Opened session ↔ self.Opened session := by
  rw [Opened, hProbes]
  by_cases hEq : session = probe
  · subst hEq
    refine iff_of_false ?_ (unopened hProbe hPhase)
    rintro ⟨_, result, h⟩
    rw [List.getElem?_set_self'] at h
    obtain ⟨_, -, h⟩ := Option.map_eq_some_iff.mp h
    cases h
    exact hNext result rfl
  · rw [List.getElem?_set_ne (Ne.symm hEq), Opened]

theorem midway_update {probe card : Nat} {phase : ProbePhase} (hScans : other.board.scans = self.board.scans)
    (hProbes : other.probes = self.probes.set probe ⟨card, phase⟩)
    (hPhase : phase = .closing ∨ phase = .probing → self.Midway (.probe probe)) (task : Task) (h : other.Midway task) :
    self.Midway task := by
  cases task with
  | scan asked =>
    rw [Midway, hScans] at h
    exact h
  | probe asked =>
    rw [Midway, hProbes] at h
    by_cases hEq : asked = probe
    · subst hEq
      rw [List.getElem?_set_self'] at h
      obtain ⟨_, h | h⟩ := h
      · obtain ⟨_, -, h⟩ := Option.map_eq_some_iff.mp h
        cases h
        exact hPhase (.inl rfl)
      · obtain ⟨_, -, h⟩ := Option.map_eq_some_iff.mp h
        cases h
        exact hPhase (.inr rfl)
    · rw [List.getElem?_set_ne (Ne.symm hEq)] at h
      exact h

theorem handover_offline {probe card : Nat} {phase : ProbePhase} (hProbe : self.probes[probe]? = some ⟨card, phase⟩)
    (hPhase : ∀ result, phase ≠ .live result) (error : String) :
    Handover.Step (self.slot raced) ((self.offline probe card error).slot raced) :=
  handover_keep rfl rfl (opened_update hProbe hPhase rfl nofun)
    (midway_update rfl rfl (by rintro (h | h) <;> cases h))

/-- A probe that has just begun has not called anything. -/
theorem handover_runProbe {card : Nat} (hActive : other.activeProbe = self.activeProbe)
    (hClosed : other.closed = self.closed)
    (hScans : other.board.scans = self.board.scans) (hProbes : other.probes = self.probes ++ [⟨card, .importing⟩]) :
    Handover.Step (self.slot raced) (other.slot raced) := by
  have hOther : ∀ (probe task : Nat) (phase : ProbePhase), phase ≠ .importing →
      (other.probes[probe]? = some ⟨task, phase⟩ ↔ self.probes[probe]? = some ⟨task, phase⟩) := by
    intro probe task phase hPhase
    rw [hProbes, List.getElem?_append]
    split
    · rfl
    · rename_i hLength
      rw [List.getElem?_eq_none (Nat.le_of_not_lt hLength), List.getElem?_singleton]
      split
      · simp [Ne.symm hPhase]
      · rfl
  refine handover_keep hActive hClosed (fun session => ?_) fun task hTask => ?_
  · exact exists_congr fun task => exists_congr fun result => hOther session task _ nofun
  · cases task with
    | scan number =>
      rw [Midway, hScans] at hTask
      exact hTask
    | probe number =>
      obtain ⟨card, hClosing | hProbing⟩ := hTask
      · exact ⟨card, .inl ((hOther number card .closing nofun).mp hClosing)⟩
      · exact ⟨card, .inr ((hOther number card .probing nofun).mp hProbing)⟩

theorem handover_scanSingleProvider (fields : Fields) (label : String) :
    Handover.Step (self.slot raced) ((self.scanSingleProvider keccak256 fields label).slot raced) := by
  rw [scanSingleProvider]
  split
  · exact handover_idle rfl rfl rfl rfl
  · exact handover_close rfl rfl (opened_congr rfl)

theorem handover_board {board : Board} (number : Nat) (next : Scan) (hNext : next.phase ≠ .closing)
    (hScans : board.scans = Function.update self.board.scans number (some next)) :
    Handover.Step (self.slot raced) (slot { self with board := board } raced) :=
  handover_keep rfl rfl (opened_congr rfl) (midway_board hNext hScans rfl)

theorem scans_attempt (board : Board) (number : Nat) (network : Network) (failures : List RpcAttemptFailure) :
    ∃ next : Scan, next.phase ≠ .closing ∧
      (board.attempt number network failures).scans = Function.update board.scans number (some next) := by
  rw [Board.attempt]
  split
  · refine ⟨⟨network, .defaults, .asking failures⟩, by rintro ⟨⟩, ?_⟩
    split <;> rfl
  · refine ⟨⟨network, .defaults, .settled (.exhausted failures)⟩, by rintro ⟨⟩, ?_⟩
    split <;> rfl

theorem handover_finish (number : Nat) (network : Network) (source : Source) (provider : String)
    (failures : List RpcAttemptFailure) (report : ScanReport) :
    Handover.Step (self.slot raced)
      ((self.finish platform number network source provider failures report).slot raced) := by
  have hNext : (Scan.mk network source (.settled (.found provider failures report))).phase ≠ .closing := nofun
  rw [finish]
  split
  · exact handover_board number _ hNext rfl
  rw [renderReport]
  split
  · exact handover_board number _ hNext rfl
  · exact handover_keep rfl rfl (opened_congr rfl) (midway_board hNext rfl rfl)

theorem overtaken_probed {inputs : List PageInput} {probe card : Nat} {result : PeerProbeResult}
    (hProbe : (run platform keccak256 inputs).probes[probe]? = some ⟨card, .probing⟩) :
    {session | Overtaken platform keccak256 (inputs ++ [.probed probe (.ok result)]) session} =
      {session | Overtaken platform keccak256 inputs session} ∪
        {session | session = probe ∧ ∃ task ∈ {task | (run platform keccak256 inputs).Midway task},
          task ≠ .probe probe} := by
  refine Set.ext fun session => overtaken_concat.trans (or_congr_right ⟨?_, ?_⟩)
  · rintro ⟨_, _, task, hInput, -, hTask, hNe⟩
    cases hInput
    exact ⟨rfl, task, hTask, hNe⟩
  · rintro ⟨rfl, task, hTask, hNe⟩
    exact ⟨result, card, task, rfl, hProbe, hTask, hNe⟩

/-- A probe that succeeds puts its session in the place of the last. -/
theorem handover_probed {inputs : List PageInput} {probe card : Nat} {result : PeerProbeResult}
    (hProbe : (run platform keccak256 inputs).probes[probe]? = some ⟨card, .probing⟩)
    (hActive : other.activeProbe = some probe) (hClosed : other.closed = (run platform keccak256 inputs).closed)
    (hScans : other.board.scans = (run platform keccak256 inputs).board.scans)
    (hProbes : other.probes = (run platform keccak256 inputs).probes.set probe ⟨card, .live result⟩) :
    Handover.Step ((run platform keccak256 inputs).slot {session | Overtaken platform keccak256 inputs session})
      (other.slot {session | Overtaken platform keccak256 (inputs ++ [.probed probe (.ok result)]) session}) := by
  have hLength : probe < (run platform keccak256 inputs).probes.length := (List.getElem?_eq_some_iff.mp hProbe).choose
  have hOwn : other.probes[probe]? = some ⟨card, .live result⟩ := by
    rw [hProbes, List.getElem?_set_self hLength]
  refine .install (.probe probe) probe ⟨card, .inr hProbe⟩ hActive (Set.ext fun session => ?_)
    (congrArg (fun closed => {session | session ∈ closed}) hClosed) (overtaken_probed hProbe) fun task hTask => ⟨?_, ?_⟩
  · by_cases hEq : session = probe
    · subst hEq
      exact iff_of_true ⟨card, result, hOwn⟩ (.inl rfl)
    · refine Iff.trans ?_ (or_iff_right hEq).symm
      change other.Opened session ↔ Opened _ session
      rw [Opened, hProbes, List.getElem?_set_ne (Ne.symm hEq), Opened]
  · exact midway_update hScans hProbes (by rintro (h | h) <;> cases h) task hTask
  · rintro rfl
    obtain ⟨_, h | h⟩ := hTask
    · rw [hOwn] at h
      cases h
    · rw [hOwn] at h
      cases h

/-- A step keeps what was overtaken, unless it is the success of a probe. -/
theorem handover_unprobed (input : PageInput) (hInput : ∀ session result card, input = .probed session (.ok result) →
    self.probes[session]? ≠ some ⟨card, .probing⟩) :
    Handover.Step (self.slot raced) ((self.step platform keccak256 input).slot raced) := by
  cases input with
  | submitScan fields =>
    rw [step, scanDefaults]
    split
    · exact handover_idle rfl rfl rfl rfl
    split
    · exact handover_idle rfl rfl rfl rfl
    · exact handover_close rfl rfl (opened_congr rfl)
  | submitRpc fields url =>
    rw [step]
    split
    · exact handover_idle rfl rfl rfl rfl
    rw [scanCustomRpc]
    split
    · exact handover_idle rfl rfl rfl rfl
    split
    · exact handover_idle rfl rfl rfl rfl
    · exact handover_scanSingleProvider fields _
  | clickWallet fields ethereum =>
    rw [step]
    split
    · exact handover_idle rfl rfl rfl rfl
    rw [scanWallet]
    split
    · exact handover_scanSingleProvider fields _
    · exact handover_idle rfl rfl rfl rfl
  | begun number outcome =>
    rw [step, begun]
    split
    · rename_i network source hScan
      split
      · exact handover_board number ⟨network, source, .settled (.unbegun _)⟩ (by rintro ⟨⟩) rfl
      · exact .clear (.scan number) ⟨network, source, hScan⟩ rfl rfl rfl rfl
    · exact handover_idle rfl rfl rfl rfl
  | answered number outcome =>
    rw [step, answered]
    split
    · rename_i network failures hScan
      split
      · exact handover_finish ..
      · rename_i endpoint error hEndpoint
        obtain ⟨next, hNext, hScans⟩ := scans_attempt self.board number network (failures ++ [⟨endpoint, error⟩])
        exact handover_board number next hNext hScans
      · exact handover_idle rfl rfl rfl rfl
    · rename_i network label failures hScan
      split
      · exact handover_finish ..
      · rename_i error
        refine handover_board number ⟨network, .single label, .settled (.failed error)⟩ (by rintro ⟨⟩) ?_
        rw [Board.fail]
        split <;> rfl
    · exact handover_idle rfl rfl rfl rfl
  | clickPing card =>
    rw [step, runProbe]
    split
    · exact handover_idle rfl rfl rfl rfl
    split
    · exact handover_idle rfl rfl rfl rfl
    · exact handover_runProbe rfl rfl rfl rfl
  | imported probe outcome =>
    rw [step, imported]
    split
    · rename_i card hProbe
      split
      · exact handover_offline hProbe (by rintro _ ⟨⟩) _
      · exact handover_close rfl rfl (opened_update hProbe (by rintro _ ⟨⟩) rfl (by rintro _ ⟨⟩))
    · exact handover_idle rfl rfl rfl rfl
  | closed probe outcome =>
    rw [step, closeSettled]
    split
    · rename_i card hProbe
      split
      · exact handover_offline hProbe (by rintro _ ⟨⟩) _
      · exact handover_keep rfl rfl (opened_update hProbe (by rintro _ ⟨⟩) rfl (by rintro _ ⟨⟩))
          (midway_update rfl rfl fun _ => ⟨card, .inl hProbe⟩)
    · exact handover_idle rfl rfl rfl rfl
  | probed probe outcome =>
    rw [step, probed]
    split
    · rename_i card hProbe
      split
      · exact handover_offline hProbe (by rintro _ ⟨⟩) _
      · exact absurd hProbe (hInput _ _ card rfl)
    · exact handover_idle rfl rfl rfl rfl
  | pagehide => exact handover_close rfl rfl (opened_congr rfl)

end Handovers

/-- Every step of a run is a step of the slot. -/
theorem handover_step (inputs : List PageInput) (input : PageInput) :
    Handover.Step ((run platform keccak256 inputs).slot {session | Overtaken platform keccak256 inputs session})
      ((run platform keccak256 (inputs ++ [input])).slot
        {session | Overtaken platform keccak256 (inputs ++ [input]) session}) := by
  rw [run_append]
  by_cases hProbed : ∃ session result card, input = .probed session (.ok result) ∧
      (run platform keccak256 inputs).probes[session]? = some ⟨card, .probing⟩
  · obtain ⟨probe, result, card, rfl, hProbe⟩ := hProbed
    rw [step, probed, hProbe]
    exact handover_probed hProbe rfl rfl rfl rfl
  · have hSame : {session | Overtaken platform keccak256 (inputs ++ [input]) session} =
        {session | Overtaken platform keccak256 inputs session} := by
      refine Set.ext fun session => overtaken_concat.trans (or_iff_left ?_)
      rintro ⟨result, card, _, hEq, hProbe, -⟩
      exact hProbed ⟨session, result, card, hEq, hProbe⟩
    rw [hSame]
    exact handover_unprobed input fun session result card hEq hProbe => hProbed ⟨session, result, card, hEq, hProbe⟩

theorem handover_run (platform : Platform) (keccak256 : Bytes → Core.B256) (inputs : List PageInput) :
    Relation.ReflTransGen Handover.Step Handover.Slot.empty
    ((run platform keccak256 inputs).slot {session | Overtaken platform keccak256 inputs session}) := by
  induction inputs using List.reverseRecOn with
  | nil =>
    have hNone : ∀ session, ¬ Overtaken platform keccak256 [] session := by
      rintro session ⟨before, _, _, _, _, hInputs, -⟩
      cases before <;> cases hInputs
    have hEmpty : (run platform keccak256 []).slot {session | Overtaken platform keccak256 [] session} = .empty := by
      rw [slot, Handover.Slot.empty, Handover.Slot.mk.injEq]
      refine ⟨rfl, Set.eq_empty_of_forall_notMem ?_, Set.eq_empty_of_forall_notMem nofun,
        Set.eq_empty_of_forall_notMem ?_, Set.eq_empty_of_forall_notMem hNone⟩
      · rintro session ⟨_, _, ⟨⟩⟩
      · rintro (number | number)
        · rintro ⟨_, _, ⟨⟩⟩
        · rintro ⟨_, ⟨⟨⟩⟩ | ⟨⟨⟩⟩⟩
    rw [hEmpty]
  | append_singleton inputs input ih => exact ih.tail (handover_step inputs input)

end Page

/-- Whatever is pressed, and in whatever order the promises settle, the run is one of the slot, and a session that was
opened is closed, or it is the one the page keeps, or its probe succeeded while another task was between closing the
last session and replacing it; and leaving the page closes it unless it was overtaken so. -/
theorem sessions_accounted (platform : Platform) (keccak256 : Bytes → Core.B256) (inputs : List PageInput) :
    Relation.ReflTransGen Handover.Step Handover.Slot.empty
      ((Page.run platform keccak256 inputs).slot {session | Page.Overtaken platform keccak256 inputs session}) ∧
    ∀ session, (Page.run platform keccak256 inputs).Opened session →
      (session ∈ (Page.run platform keccak256 inputs).closed ∨
        (Page.run platform keccak256 inputs).activeProbe = some session ∨
        Page.Overtaken platform keccak256 inputs session) ∧
      (session ∈ (Page.run platform keccak256 (inputs ++ [.pagehide])).closed ∨
        Page.Overtaken platform keccak256 inputs session) := by
  have hRun := Page.handover_run platform keccak256 inputs
  refine ⟨hRun, fun session hOpened => ?_⟩
  have hSession := (Handover.accounted_of_run hRun).opened session hOpened
  refine ⟨hSession, ?_⟩
  rw [Page.run_append]
  obtain hClosed | hActive | hOvertaken := hSession
  · exact .inl (List.mem_append_right _ hClosed)
  · exact .inl (List.mem_append_left _ (Option.mem_toList.mpr hActive))
  · exact .inr hOvertaken

theorem Page.Run.eq_run {platform : Platform} {keccak256 : Bytes → Core.B256} {library : ProbeLibrary}
    {localeCompare : String → String → Int} {inputs : List PageInput} {page : Page}
    (h : Page.Run platform keccak256 library localeCompare inputs page) :
    Page.run platform keccak256 inputs = page := by
  induction h with
  | nil => rfl
  | concat h input hAdmits ih => rw [Page.run_append, ih]

section Overtaking

/-- The visitor scans again while a ping is under way, and the ping succeeds before the scan has begun. -/
def overtaking : List PageInput :=
  ping ++ [.submitScan ⟨"resurrect", "1"⟩] ++
    [.probed 0 (.ok (probeResult visitLibrary pingTarget signerId pingAnswer))] ++
    [.begun 2 (.ok ())]

def overtook : Page :=
  ((pinging.beginScan visitNetwork .defaults).probed 0
    (.ok (probeResult visitLibrary pingTarget signerId pingAnswer))).begun 2 (.ok ())

theorem run_overtaking : Page.Run visitPlatform visitKeccak visitLibrary (fun _ _ => 0) overtaking overtook := by
  have hSubmit : pinging.step visitPlatform visitKeccak (.submitScan ⟨"resurrect", "1"⟩) =
      pinging.beginScan visitNetwork .defaults := by
    rw [Page.step, Page.scanDefaults, if_neg (by decide), selectedNetwork_visit]
  have hScanned : Page.Run visitPlatform visitKeccak visitLibrary (fun _ _ => 0)
    (ping ++ [.submitScan ⟨"resurrect", "1"⟩])
      (pinging.beginScan visitNetwork .defaults) := hSubmit ▸ .concat run_pinging _ trivial
  refine .concat (.concat hScanned (.probed 0 (.ok _)) fun task card hTask hCard => ?_) (.begun 2 (.ok ())) trivial
  cases hTask
  cases hCard
  exact ⟨_, returns_ping⟩

/-- The session of the ping is open, and the page has no hold on it any more. -/
theorem sessions_accounted_overtaking : overtook.Opened 0 ∧ overtook.closed = [] ∧ overtook.activeProbe = none ∧
    Page.Overtaken visitPlatform visitKeccak overtaking 0 := by
  have hOpened : overtook.Opened 0 := ⟨0, probeResult visitLibrary pingTarget signerId pingAnswer, rfl⟩
  have hRun : Page.run visitPlatform visitKeccak overtaking = overtook := run_overtaking.eq_run
  obtain ⟨hSession, -⟩ := (sessions_accounted visitPlatform visitKeccak overtaking).2 0 (hRun ▸ hOpened)
  refine ⟨hOpened, rfl, rfl, ?_⟩
  obtain hClosed | hActive | hOvertaken := hSession
  · rw [hRun] at hClosed
    cases hClosed
  · rw [hRun] at hActive
    cases hActive
  · exact hOvertaken

end Overtaking

end Resurrect.Explorer
