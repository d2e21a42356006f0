import Resurrect.Browser.SharedWorld
import Resurrect.Explorer.Page

/-! # One scan at a time

What holds of the page after any run: the scans settle in turn, the controls are
disabled exactly while the latest one is not done, and what the page says of a
scan is how the latest one ended.
-/

namespace Resurrect.Explorer

open Hex Interaction Browser

section Sources

/-- The label under which a source shows its provider after `failures` that failed. -/
def Source.provider : Source → Nat → Option String
  | .defaults, failures => (defaultRpcEndpoints[failures]?).map PublicRpcEndpoint.name
  | .single label, failures => if failures = 0 then some label else none

/-- The endpoints that have failed when `failures` of them have. -/
def Source.passed : Source → Nat → List PublicRpcEndpoint
  | .defaults, failures => defaultRpcEndpoints.take failures
  | .single _, _ => []

def Passed (source : Source) (failures : List RpcAttemptFailure) : Prop :=
  failures.map RpcAttemptFailure.endpoint = source.passed failures.length

theorem passed_nil (source : Source) : Passed source [] := by cases source <;> rfl

theorem Passed.concat {failures : List RpcAttemptFailure} (h : Passed .defaults failures) {endpoint : PublicRpcEndpoint}
    (hNext : defaultRpcEndpoints[failures.length]? = some endpoint) (error : String) :
    Passed .defaults (failures ++ [⟨endpoint, error⟩]) := by
  rw [Passed, Source.passed] at h
  rw [Passed, Source.passed, List.map_append, h, List.length_append, List.length_singleton, List.take_add_one, hNext]
  rfl

end Sources

/-- How a scan can stand, given the descriptors that can be selected and the reports that a scan can return. -/
structure Scan.Sound (selectable : Network → Prop) (returns : NetworkDescriptor → ScanReport → Prop) (scan : Scan) :
    Prop where
  selected : selectable scan.network
  asking : ∀ failures, scan.phase = .asking failures →
    Passed scan.source failures ∧ ∃ provider, scan.source.provider failures.length = some provider
  found : ∀ provider failures report, scan.phase = .settled (.found provider failures report) →
    Passed scan.source failures ∧ scan.source.provider failures.length = some provider ∧
      returns scan.network.descriptor report
  exhausted : ∀ failures, scan.phase = .settled (.exhausted failures) →
    scan.source = .defaults ∧ failures.map RpcAttemptFailure.endpoint = defaultRpcEndpoints

/-- Begun and done: what is not the latest scan. -/
def Scan.Past (self : Scan) : Prop := ∃ outcome, self.phase = .settled outcome ∧ ∀ error, outcome ≠ .unbegun error

/-- The cards in the list are those of the report's candidates, in order; without any, a message is shown. -/
def Board.Lists (self : Board) (candidates : List BrowserPeerCandidate) (report : ScanReport) : Prop :=
  match self.peerList with
  | .empty _ => report.candidates = []
  | .peers cards => cards.map (candidates[·]?) = report.candidates.map some

/-- The report is listed, or its list gave way to the error of a provider that could not be used since. -/
def Board.Shows (self : Board) (candidates : List BrowserPeerCandidate) (report : ScanReport) : Prop :=
  self.Lists candidates report ∨
    self.peerList = .empty "scan incomplete." ∧ self.formError.isSome ∧ self.status.1 = .error

/-- What the page says while the latest scan stands as it does. -/
def Board.Tells (platform : Platform) (self : Board) (candidates : List BrowserPeerCandidate) : Option ScanPhase → Prop
  | none => self.busy = false ∧ self.scanSummary = none ∧ self.status.1 ≠ .connected
  | some .closing => self.busy = true ∧ self.scanSummary = none
  | some (.asking _) => self.busy = true ∧ self.scanSummary = none
  | some (.settled (.unbegun _)) => self.busy = true ∧ self.scanSummary = none
  | some (.settled (.found _ _ report)) => self.busy = false ∧ self.scanSummary = some (Page.metrics platform report) ∧
      self.Shows candidates report
  | some (.settled (.exhausted _)) => self.busy = false ∧ self.scanSummary = none ∧ self.status.1 ≠ .connected
  | some (.settled (.failed _)) => self.busy = false ∧ self.scanSummary = none ∧ self.status.1 ≠ .connected

def Board.latest (self : Board) : Option ScanPhase := (self.scans self.scanNumber).map Scan.phase

structure Board.Orderly (platform : Platform) (selectable : Network → Prop)
    (returns : NetworkDescriptor → ScanReport → Prop) (candidates : List BrowserPeerCandidate)
    (board : Board) : Prop where
  known : ∀ number, (board.scans number).isSome ↔ 0 < number ∧ number ≤ board.scanNumber
  sound : ∀ number scan, board.scans number = some scan → scan.Sound selectable returns
  past : ∀ number scan, board.scans number = some scan → number ≠ board.scanNumber → scan.Past
  tells : board.Tells platform candidates board.latest

namespace Board

variable {platform : Platform} {selectable : Network → Prop} {returns : NetworkDescriptor → ScanReport → Prop}
  {candidates : List BrowserPeerCandidate} {self other : Board}

/-- An error that is shown leaves the scans alone. -/
theorem Orderly.of_error (h : self.Orderly platform selectable returns candidates)
    (hNumber : other.scanNumber = self.scanNumber)
    (hScans : other.scans = self.scans) (hBusy : other.busy = self.busy)
    (hSummary : other.scanSummary = self.scanSummary) (hStatus : other.status.1 = .error)
    (hList : other.peerList = self.peerList ∧ other.formError = self.formError ∨
      other.peerList = .empty "scan incomplete." ∧ other.formError.isSome) :
    other.Orderly platform selectable returns candidates where
  known := by
    rw [hScans, hNumber]
    exact h.known
  sound := by
    rw [hScans]
    exact h.sound
  past := by
    rw [hScans, hNumber]
    exact h.past
  tells := by
    have hTells := h.tells
    have hLatest : other.latest = self.latest := by rw [latest, latest, hScans, hNumber]
    rw [hLatest]
    have hShows : ∀ report, self.Shows candidates report → other.Shows candidates report := by
      intro report hShown
      obtain ⟨hSame, hForm⟩ | ⟨hEmpty, hForm⟩ := hList
      · obtain hLists | ⟨hEmpty, hError, -⟩ := hShown
        · rw [Lists, ← hSame] at hLists
          exact .inl hLists
        · exact .inr ⟨hSame.trans hEmpty, hForm ▸ hError, hStatus⟩
      · exact .inr ⟨hEmpty, hForm, hStatus⟩
    generalize self.latest = phase at hTells ⊢
    unfold Tells at hTells ⊢
    split at hTells <;> simp_all

/-- A scan that is not done is the latest one. -/
theorem Orderly.eq_scanNumber (h : self.Orderly platform selectable returns candidates) {number : Nat} {scan : Scan}
    (hScan : self.scans number = some scan) (hPending : ¬ scan.Past) : number = self.scanNumber := by
  by_contra hNe
  exact hPending (h.past number scan hScan hNe)

theorem Orderly.tells_of (h : self.Orderly platform selectable returns candidates) {scan : Scan}
    (hScan : self.scans self.scanNumber = some scan) : self.Tells platform candidates (some scan.phase) := by
  have hTells := h.tells
  rwa [latest, hScan] at hTells

/-- Only the latest scan moves. -/
theorem Orderly.update (h : self.Orderly platform selectable returns candidates) {others : List BrowserPeerCandidate}
    {scan : Scan} (hScan : self.scans self.scanNumber = some scan) (next : Scan)
    (hSound : next.Sound selectable returns)
    (hNumber : other.scanNumber = self.scanNumber)
    (hScans : other.scans = Function.update self.scans self.scanNumber (some next))
    (hTells : other.Tells platform others (some next.phase)) : other.Orderly platform selectable returns others where
  known number := by
    rw [hScans, hNumber, ← h.known number]
    by_cases hEq : number = self.scanNumber
    · rw [hEq, Function.update_self, hScan]
      rfl
    · rw [Function.update_of_ne hEq]
  sound number held hHeld := by
    rw [hScans] at hHeld
    by_cases hEq : number = self.scanNumber
    · rw [hEq, Function.update_self] at hHeld
      cases hHeld
      exact hSound
    · rw [Function.update_of_ne hEq] at hHeld
      exact h.sound number held hHeld
  past number held hHeld hNe := by
    rw [hNumber] at hNe
    rw [hScans, Function.update_of_ne hNe] at hHeld
    exact h.past number held hHeld hNe
  tells := by
    rwa [latest, hScans, hNumber, Function.update_self]

/-- No scan is under way when the next one begins. -/
theorem Orderly.beginScan (h : self.Orderly platform selectable returns candidates) (hBusy : self.busy = false)
    {network : Network} (hSelected : selectable network) (source : Source) :
    (self.beginScan network source).Orderly platform selectable returns candidates where
  known number := by
    change (Function.update self.scans (self.scanNumber + 1) (some _) number).isSome ↔
      0 < number ∧ number ≤ self.scanNumber + 1
    by_cases hEq : number = self.scanNumber + 1
    · rw [hEq, Function.update_self]
      simp
    · rw [Function.update_of_ne hEq, h.known number]
      omega
  sound number held hHeld := by
    change Function.update self.scans (self.scanNumber + 1) (some _) number = some held at hHeld
    by_cases hEq : number = self.scanNumber + 1
    · rw [hEq, Function.update_self] at hHeld
      cases hHeld
      exact ⟨hSelected, nofun, nofun, nofun⟩
    · rw [Function.update_of_ne hEq] at hHeld
      exact h.sound number held hHeld
  past number held hHeld hNe := by
    change number ≠ self.scanNumber + 1 at hNe
    change Function.update self.scans (self.scanNumber + 1) (some _) number = some held at hHeld
    rw [Function.update_of_ne hNe] at hHeld
    by_cases hEq : number = self.scanNumber
    · -- The one before had ended, or the controls would be disabled.
      subst hEq
      have hTells := h.tells_of hHeld
      rw [Scan.Past]
      cases hPhase : held.phase with
      | closing =>
        rw [hPhase, Tells, hBusy] at hTells
        cases hTells.1
      | asking failures =>
        rw [hPhase, Tells, hBusy] at hTells
        cases hTells.1
      | settled outcome =>
        refine ⟨outcome, rfl, ?_⟩
        rintro error rfl
        rw [hPhase, Tells, hBusy] at hTells
        cases hTells.1
    · exact h.past number held hHeld hEq
  tells := by
    change Tells platform _ candidates
      ((Function.update self.scans (self.scanNumber + 1) (some _) (self.scanNumber + 1)).map
      Scan.phase)
    rw [Function.update_self]
    exact ⟨rfl, rfl⟩

/-- A round of the loop over the endpoints keeps the order, whether it asks the next one or gives up. -/
theorem Orderly.attempt (h : self.Orderly platform selectable returns candidates) {scan : Scan} {network : Network}
    (hScan : self.scans self.scanNumber = some scan) (hSelected : selectable network)
    {failures : List RpcAttemptFailure}
    (hPassed : Passed .defaults failures) (hBusy : self.busy = true) (hSummary : self.scanSummary = none) :
    (self.attempt self.scanNumber network failures).Orderly platform selectable returns candidates := by
  rw [Board.attempt]
  split
  · rename_i endpoint hEndpoint
    rw [if_neg (not_not.mpr rfl)]
    refine h.update hScan ⟨network, .defaults, .asking failures⟩ ⟨hSelected, ?_, nofun, nofun⟩ rfl rfl
      ⟨hBusy, hSummary⟩
    rintro _ ⟨⟩
    exact ⟨hPassed, endpoint.name, by rw [Source.provider, hEndpoint, Option.map_some]⟩
  · rename_i hNone
    rw [if_neg (not_not.mpr rfl)]
    refine h.update hScan ⟨network, .defaults, .settled (.exhausted failures)⟩ ⟨hSelected, nofun, nofun, ?_⟩ rfl rfl
      ⟨rfl, hSummary, nofun⟩
    rintro _ ⟨⟩
    rw [Passed, Source.passed, List.take_of_length_le (List.getElem?_eq_none_iff.mp hNone)] at hPassed
    exact ⟨rfl, hPassed⟩

theorem Orderly.proceed (h : self.Orderly platform selectable returns candidates) {scan : Scan} {network : Network}
    {source : Source} (hScan : self.scans self.scanNumber = some scan) (hSelected : selectable network)
    (hBusy : self.busy = true) (hSummary : self.scanSummary = none) :
    (self.proceed self.scanNumber network source).Orderly platform selectable returns candidates := by
  cases source with
  | defaults =>
    have hHidden : Orderly platform selectable returns candidates { self with fallback := false } :=
      ⟨h.known, h.sound, h.past, h.tells⟩
    exact hHidden.attempt hScan hSelected (passed_nil _) hBusy hSummary
  | single label =>
    refine h.update hScan ⟨network, .single label, .asking []⟩ ⟨hSelected, ?_, nofun, nofun⟩ rfl rfl
      ⟨hBusy, hSummary⟩
    rintro _ ⟨⟩
    exact ⟨passed_nil _, label, rfl⟩

theorem Orderly.fail (h : self.Orderly platform selectable returns candidates) {scan : Scan} {network : Network}
    (hScan : self.scans self.scanNumber = some scan) (hSelected : selectable network)
    (hSummary : self.scanSummary = none)
    (source : Source) (error : String) :
    (self.fail self.scanNumber network source error).Orderly platform selectable returns candidates := by
  rw [Board.fail, if_neg (not_not.mpr rfl)]
  exact h.update hScan ⟨network, source, .settled (.failed error)⟩ ⟨hSelected, nofun, nofun, nofun⟩ rfl rfl
    ⟨rfl, hSummary, nofun⟩

end Board

theorem map_getElem?_append {α : Type} (shown added : List α) :
    (List.range' shown.length added.length).map ((shown ++ added)[·]?) = added.map some := by
  refine List.ext_getElem (by simp) fun i hLeft hRight => ?_
  rw [List.length_map] at hRight
  simp [hRight]

def Page.candidates (self : Page) : List BrowserPeerCandidate := self.cards.map Card.candidate

section Admissible

variable (platform : Platform) (keccak256 : Bytes → Core.B256) (library : ProbeLibrary)
  (localeCompare : String → String → Int)

def Selectable (network : Network) : Prop := ∃ fields, selectedNetwork keccak256 fields = .ok network

def Returned (descriptor : NetworkDescriptor) (report : ScanReport) : Prop :=
  ∃ trace, Returns (scanRegistry keccak256 (decodeBrowserPeerRecord library.toRecordLibrary) localeCompare descriptor
    explorerScanOptions) trace report

/-- Whatever a provider or a libp2p node answers, a report is one that `scanRegistry` returns on some answers, and a
session one that `probePeer` does. -/
def Page.Admits (page : Page) : PageInput → Prop
  | .answered asked (.ok report) => ∀ scan, page.board.scans asked = some scan →
      Returned keccak256 library localeCompare scan.network.descriptor report
  | .probed probe (.ok result) => ∀ task card, page.probes[probe]? = some task → page.cards[task.card]? = some card →
      ∃ trace, Returns (probePeer library card.candidate) trace result
  | _ => True

inductive Page.Run : List PageInput → Page → Prop
  | nil : Run [] .new
  | concat {inputs : List PageInput} {page : Page} (h : Run inputs page) (input : PageInput)
      (hAdmits : page.Admits keccak256 library localeCompare input) :
      Run (inputs ++ [input]) (page.step platform keccak256 input)

def Page.Orderly (page : Page) : Prop :=
  page.board.Orderly platform (Selectable keccak256) (Returned keccak256 library localeCompare) page.candidates

end Admissible

namespace Page

variable {platform : Platform} {keccak256 : Bytes → Core.B256} {library : ProbeLibrary}
  {localeCompare : String → String → Int} {self other : Page}

@[simp] theorem candidates_setView (card : Nat) (view : CardView) :
    (self.setView card view).candidates = self.candidates := by
  rw [candidates, candidates, setView]
  refine List.ext_getElem? fun i => ?_
  rw [List.getElem?_map, List.getElem?_map, List.getElem?_modify]
  cases self.cards[i]? with
  | none => rfl
  | some shown =>
    change some (Card.candidate (if card = i then _ else shown)) = some shown.candidate
    split <;> rfl

/-- What leaves the board and the candidates on the cards alone keeps the order. -/
theorem Orderly.of_eq (h : self.Orderly platform keccak256 library localeCompare) (hBoard : other.board = self.board)
    (hCandidates : other.candidates = self.candidates) : other.Orderly platform keccak256 library localeCompare := by
  rw [Orderly, hBoard, hCandidates]
  exact h

theorem Orderly.invalidNamespace (h : self.Orderly platform keccak256 library localeCompare) (error : String) :
    Orderly platform keccak256 library localeCompare { self with board := self.board.invalidNamespace error } :=
  Board.Orderly.of_error h rfl rfl rfl rfl rfl (.inl ⟨rfl, rfl⟩)

theorem Orderly.showProviderError (h : self.Orderly platform keccak256 library localeCompare) (error : String) :
    (self.showProviderError error).Orderly platform keccak256 library localeCompare :=
  Board.Orderly.of_error h rfl rfl rfl rfl rfl (.inr ⟨rfl, rfl⟩)

theorem Orderly.beginScan (h : self.Orderly platform keccak256 library localeCompare) (hBusy : self.board.busy = false)
    {fields : Fields} {network : Network} (hSelected : selectedNetwork keccak256 fields = .ok network)
    (source : Source) :
    (self.beginScan network source).Orderly platform keccak256 library localeCompare :=
  Board.Orderly.beginScan h hBusy ⟨fields, hSelected⟩ source

theorem Orderly.scanDefaults (h : self.Orderly platform keccak256 library localeCompare) (fields : Fields) :
    (self.scanDefaults keccak256 fields).Orderly platform keccak256 library localeCompare := by
  rw [Page.scanDefaults]
  split
  · exact h
  rename_i hBusy
  rw [Bool.not_eq_true] at hBusy
  split
  · exact h.invalidNamespace _
  · rename_i network hSelected
    exact h.beginScan hBusy hSelected .defaults

theorem Orderly.scanSingleProvider (h : self.Orderly platform keccak256 library localeCompare)
    (hBusy : self.board.busy = false) (fields : Fields) (label : String) :
    (self.scanSingleProvider keccak256 fields label).Orderly platform keccak256 library localeCompare := by
  rw [Page.scanSingleProvider]
  split
  · exact h.invalidNamespace _
  · rename_i network hSelected
    exact h.beginScan hBusy hSelected (.single label)

theorem Orderly.scanCustomRpc (h : self.Orderly platform keccak256 library localeCompare)
    (hBusy : self.board.busy = false) (fields : Fields) (value : String) :
    (self.scanCustomRpc platform keccak256 fields value).Orderly platform keccak256 library localeCompare := by
  rw [Page.scanCustomRpc]
  split
  · exact h.showProviderError _
  split
  · exact h
  · exact h.scanSingleProvider hBusy fields _

theorem Orderly.scanWallet (h : self.Orderly platform keccak256 library localeCompare)
    (hBusy : self.board.busy = false) (fields : Fields) (ethereum : Bool) :
    (self.scanWallet keccak256 fields ethereum).Orderly platform keccak256 library localeCompare := by
  rw [Page.scanWallet]
  split
  · exact h.scanSingleProvider hBusy fields _
  · exact h.showProviderError _

theorem Orderly.begun (h : self.Orderly platform keccak256 library localeCompare) (number : Nat)
    (outcome : Except String Unit) : (self.begun number outcome).Orderly platform keccak256 library localeCompare := by
  rw [Page.begun]
  split
  case h_2 => exact h
  rename_i network source hScan
  obtain rfl := Board.Orderly.eq_scanNumber h hScan (by rintro ⟨_, hPhase, -⟩; cases hPhase)
  obtain ⟨hBusy, hSummary⟩ := Board.Orderly.tells_of h hScan
  have hSelected := (h.sound _ _ hScan).selected
  split
  · exact Board.Orderly.update h hScan ⟨network, source, .settled (.unbegun _)⟩ ⟨hSelected, nofun, nofun, nofun⟩ rfl rfl
      ⟨hBusy, hSummary⟩
  · exact Board.Orderly.proceed h hScan hSelected hBusy hSummary

/-- A report is shown once it is there. -/
theorem Orderly.finish (h : self.Orderly platform keccak256 library localeCompare) {network : Network} {source : Source}
    {failures : List RpcAttemptFailure}
    (hScan : self.board.scans self.board.scanNumber = some ⟨network, source, .asking failures⟩)
    {provider : String} (hProvider : source.provider failures.length = some provider) {report : ScanReport}
    (hReport : Returned keccak256 library localeCompare network.descriptor report) :
    (self.finish platform self.board.scanNumber network source provider failures report).Orderly
      platform keccak256 library localeCompare := by
  have hSound := h.sound _ _ hScan
  have hFound : Scan.Sound (Selectable keccak256) (Returned keccak256 library localeCompare)
      ⟨network, source, .settled (.found provider failures report)⟩ := by
    refine ⟨hSound.selected, nofun, ?_, nofun⟩
    rintro _ _ _ ⟨⟩
    exact ⟨(hSound.asking failures rfl).1, hProvider, hReport⟩
  rw [Page.finish, if_neg (not_not.mpr rfl), renderReport]
  split
  · rename_i hNone
    exact Board.Orderly.update h hScan _ hFound rfl rfl ⟨rfl, rfl, .inl hNone⟩
  · refine Board.Orderly.update h hScan _ hFound rfl rfl ⟨rfl, rfl, .inl ?_⟩
    have hCards : (self.cards ++ report.candidates.map fun candidate => (⟨candidate, .announced⟩ : Card)).map
      Card.candidate =
        self.candidates ++ report.candidates := by
      rw [List.map_append, List.map_map]
      exact congrArg (self.candidates ++ ·) (List.map_id _)
    have hLength : self.cards.length = self.candidates.length := (List.length_map _).symm
    change (List.range' self.cards.length report.candidates.length).map
      ((List.map Card.candidate (self.cards ++ _))[·]?) = report.candidates.map some
    rw [hCards, hLength]
    exact map_getElem?_append self.candidates report.candidates

theorem Orderly.answered (h : self.Orderly platform keccak256 library localeCompare) {number : Nat}
    {outcome : Except String ScanReport}
    (hAdmits : self.Admits keccak256 library localeCompare (.answered number outcome)) :
    (self.answered platform number outcome).Orderly platform keccak256 library localeCompare := by
  have hReturned : ∀ report, outcome = .ok report → ∀ scan, self.board.scans number = some scan →
      Returned keccak256 library localeCompare scan.network.descriptor report := by
    rintro report rfl
    exact hAdmits
  clear hAdmits
  rw [Page.answered]
  split
  · rename_i network failures hScan
    obtain rfl := Board.Orderly.eq_scanNumber h hScan (by rintro ⟨_, hPhase, -⟩; cases hPhase)
    obtain ⟨hBusy, hSummary⟩ := Board.Orderly.tells_of h hScan
    have hSound := h.sound _ _ hScan
    split
    · rename_i endpoint report hEndpoint
      have hProvider : Source.provider .defaults failures.length = some endpoint.name := by
        rw [Source.provider, hEndpoint, Option.map_some]
      have hReport := hReturned report rfl _ hScan
      exact h.finish hScan hProvider hReport
    · rename_i endpoint error hEndpoint
      have hPassed : Passed .defaults (failures ++ [⟨endpoint, error⟩]) :=
        (hSound.asking failures rfl).1.concat hEndpoint error
      exact Board.Orderly.attempt h hScan hSound.selected hPassed hBusy hSummary
    · exact h
  · rename_i network label failures hScan
    obtain rfl := Board.Orderly.eq_scanNumber h hScan (by rintro ⟨_, hPhase, -⟩; cases hPhase)
    obtain ⟨hBusy, hSummary⟩ := Board.Orderly.tells_of h hScan
    have hSound := h.sound _ _ hScan
    split
    · rename_i report
      obtain ⟨provider, hProvider⟩ := (hSound.asking failures rfl).2
      have hLabel : Source.provider (.single label) failures.length = some label := by
        rw [Source.provider] at hProvider ⊢
        split at hProvider
        · rename_i hNone
          rw [if_pos hNone]
        · cases hProvider
      have hReport := hReturned report rfl _ hScan
      exact h.finish hScan hLabel hReport
    · exact Board.Orderly.fail h hScan hSound.selected hSummary _ _
  · exact h

/-- What a probe does leaves the scans alone. -/
theorem Orderly.offline (h : self.Orderly platform keccak256 library localeCompare) (probe card : Nat)
    (error : String) :
    (self.offline probe card error).Orderly platform keccak256 library localeCompare :=
  h.of_eq rfl (candidates_setView card _)

theorem Orderly.step (h : self.Orderly platform keccak256 library localeCompare) {input : PageInput}
    (hAdmits : self.Admits keccak256 library localeCompare input) :
    (self.step platform keccak256 input).Orderly platform keccak256 library localeCompare := by
  cases input with
  | submitScan fields => exact h.scanDefaults fields
  | submitRpc fields url =>
    rw [Page.step]
    split
    · exact h
    · rename_i hBusy
      exact h.scanCustomRpc (Bool.not_eq_true _ ▸ hBusy) fields url
  | clickWallet fields ethereum =>
    rw [Page.step]
    split
    · exact h
    · rename_i hBusy
      exact h.scanWallet (Bool.not_eq_true _ ▸ hBusy) fields ethereum
  | begun number outcome => exact h.begun number outcome
  | answered number outcome => exact h.answered hAdmits
  | clickPing card =>
    rw [Page.step, runProbe]
    split
    · exact h
    split
    · exact h
    · exact h.of_eq rfl (candidates_setView card _)
  | imported probe outcome =>
    rw [Page.step, Page.imported]
    split
    · split
      · exact h.offline _ _ _
      · exact h.of_eq rfl rfl
    · exact h
  | closed probe outcome =>
    rw [Page.step, closeSettled]
    split
    · split
      · exact h.offline _ _ _
      · exact h.of_eq rfl rfl
    · exact h
  | probed probe outcome =>
    rw [Page.step, Page.probed]
    split
    · rename_i card hProbe
      split
      · exact h.offline _ _ _
      · exact h.of_eq rfl (candidates_setView card _)
    · exact h
  | pagehide => exact h.of_eq rfl rfl

section Stuck

end Stuck

theorem Orderly.shows (h : self.Orderly platform keccak256 library localeCompare) {scan : Scan} {provider : String}
    {failures : List RpcAttemptFailure} {report : ScanReport}
    (hScan : self.board.scans self.board.scanNumber = some scan)
    (hPhase : scan.phase = .settled (.found provider failures report)) : self.board.Shows self.candidates report := by
  have hTells := Board.Orderly.tells_of h hScan
  rw [hPhase] at hTells
  exact hTells.2.2

/-- A page that says it has found something lists it. -/
theorem Orderly.connected (h : self.Orderly platform keccak256 library localeCompare)
    (hConnected : self.board.status.1 = .connected) (hBusy : self.board.busy = false) :
    ∃ scan provider failures report, self.board.scans self.board.scanNumber = some scan ∧
      scan.phase = .settled (.found provider failures report) ∧ self.board.Lists self.candidates report := by
  have hTells := h.tells
  rw [Board.latest] at hTells
  cases hScan : self.board.scans self.board.scanNumber with
  | none =>
    rw [hScan] at hTells
    exact absurd hConnected hTells.2.2
  | some scan =>
    have hTells := Board.Orderly.tells_of h hScan
    refine ⟨scan, ?_⟩
    cases hPhase : scan.phase with
    | closing =>
      rw [hPhase, Board.Tells, hBusy] at hTells
      cases hTells.1
    | asking failures =>
      rw [hPhase, Board.Tells, hBusy] at hTells
      cases hTells.1
    | settled outcome =>
      rw [hPhase] at hTells
      cases outcome with
      | found provider failures report =>
        obtain hLists | ⟨-, -, hError⟩ := h.shows hScan hPhase
        · exact ⟨provider, failures, report, rfl, rfl, hLists⟩
        · cases hConnected.symm.trans hError
      | exhausted failures => exact absurd hConnected hTells.2.2
      | failed error => exact absurd hConnected hTells.2.2
      | unbegun error =>
        rw [Board.Tells, hBusy] at hTells
        cases hTells.1

end Page

section Visit

open Libp2p (browserRecord)

/-- The hash of the default namespace, and that of the registry's address. -/
def visitKeccak (input : Bytes) : Core.B256 :=
  if input = Core.namespacePreimage "resurrect" 1 then
    0x71572bed5372559cfc007b7da8b411f2d96091816cdf057de65151b984a74e90
  else 0x62975a1b8662eff16ffcf06ef690d06b76460bed34daaa28ebd0e1f35e15ba38

def visitNamespace : String :=
  hexText (Hex.ofNat 64 0x71572bed5372559cfc007b7da8b411f2d96091816cdf057de65151b984a74e90)

def visitNetwork : Network := ⟨mainnet visitKeccak visitNamespace, "resurrect", 1, "resurrect:v1", visitNamespace⟩

theorem selectedNetwork_visit : selectedNetwork visitKeccak ⟨"resurrect", "1"⟩ = .ok visitNetwork := by
  have hHash : namespaceHash visitKeccak (trim "resurrect") 1 =
      0x71572bed5372559cfc007b7da8b411f2d96091816cdf057de65151b984a74e90 := by decide +kernel
  refine selectedNetwork_eq_ok.mpr ⟨_, resolveNamespace_eq_ok.mpr ⟨by decide, 1, rfl, rfl⟩, ?_⟩
  rw [hHash]
  rfl

/-- The data of the event that announces the record until the given time. -/
def visitData : List Char :=
  Hex.ofNat 64 0x6a500000 ++ Hex.ofNat 64 64 ++ Hex.ofNat 64 175 ++ spell browserRecord ++ List.replicate 34 '0'

def visitLog : RpcLog where
  address := ethereumMainnetRegistryAddress visitKeccak
  topics := [peerAnnouncedTopic, visitNamespace, quantity 2]
  data := hexText visitData
  blockNumber := quantity 25943060
  logIndex := quantity 3
  removed := false

theorem length_browserRecord : browserRecord.length = 175 := by decide +kernel

theorem visitData_eq_spell : visitData = spell (Abi.word 0x6a500000 ++ Abi.word 64 ++ Abi.word browserRecord.length ++
    browserRecord ++ List.replicate (Abi.padding browserRecord.length) 0) := by
  rw [spell_append, spell_append, spell_append, spell_append, spell_replicate_zero, Abi.spell_word, Abi.spell_word,
    Abi.spell_word, length_browserRecord]
  rfl

theorem canonical_visitData : Canonical visitData 0x6a500000 175 := by
  have hFits : browserRecord.length < Abi.wordLimit := by
    rw [length_browserRecord]
    decide
  have hRaw : Abi.encodeUintBytes 0x6a500000 browserRecord = some _ := Abi.encodeUintBytes_eq_some.mpr ⟨hFits, rfl⟩
  have hLower := (congrArg (List.map Char.toLower) visitData_eq_spell).trans (map_toLower_spell _)
  have hCanonical := (canonical_of_lower_eq (by decide) hRaw hLower).1
  rwa [length_browserRecord] at hCanonical

theorem extract_visitData : visitData.extract 192 542 = spell browserRecord := by
  have hHead : (Hex.ofNat 64 0x6a500000 ++ Hex.ofNat 64 64 ++ Hex.ofNat 64 175).length = 192 := by
    simp only [List.length_append, Hex.length_ofNat]
  have hRecord : (spell browserRecord).length = 350 := by rw [length_spell, length_browserRecord]
  rw [visitData, List.append_assoc _ (spell browserRecord), List.extract_eq_take_drop, List.drop_left' hHead]
  exact List.take_left' hRecord

theorem decode_visitData :
    decodeAnnouncementData (hexText visitData) = .ok (0x6a500000, hexText (spell browserRecord)) :=
  decodeAnnouncementData_eq_ok.mpr ⟨175, canonical_visitData, congrArg hexText extract_visitData.symm⟩

theorem openAndCertify_visit : visitLibrary.openAndCertify = openSample := rfl

theorem createFromProtobuf_visit : visitLibrary.createFromProtobuf SampleAddress.direct.payload =
    .ok ⟨(), [(.direct, none)], 42⟩ := by
  have hRead : visitLibrary.createFromProtobuf SampleAddress.direct.payload =
    (readSample SampleAddress.direct.payload).map fun record =>
      ⟨record.peerId, record.multiaddrs.map fun address => (address, none), record.seqNumber⟩ := rfl
  rw [hRead, readSample_payload]
  rfl

theorem presented_visit :
    Presented visitLibrary.toRecordLibrary (hexText (spell browserRecord)) ⟨none, none⟩ browserRecord
    ⟨(), codec, SampleAddress.direct.payload⟩ ⟨(), [(.direct, none)], 42⟩ where
  read := (presented_sample .direct).read
  size := (presented_sample .direct).size
  opened := by
    rw [openAndCertify_visit]
    exact openSample_record .direct
  payloadType := rfl
  decoded := createFromProtobuf_visit
  signer := rfl
  cap := ⟨16, by decide, by decide⟩

theorem decode_visitRecord :
    decodeBrowserPeerRecord visitLibrary.toRecordLibrary (hexText (spell browserRecord)) 0x6a500000
    25943060 3 ⟨none, none⟩ = .ok visitCandidate := by
  have hEndpoints :
      endpointsOf visitLibrary.toRecordLibrary ⟨(), [(.direct, none)], 42⟩ false = [SampleAddress.direct.text] := by
    decide +kernel
  refine decodeBrowserPeerRecord_eq_ok.mpr ⟨browserRecord, _, _, presented_visit, ?_, ?_⟩
  · exact ne_of_eq_of_ne hEndpoints (List.cons_ne_nil _ _)
  · exact congrArg (fun endpoints => (⟨signerId, 42, endpoints, _, _, _, _⟩ : BrowserPeerCandidate)) hEndpoints.symm

theorem decode_visitLog : decodeLog (decodeBrowserPeerRecord visitLibrary.toRecordLibrary) visitNetwork.descriptor
    explorerScanOptions 0x6a000000 visitLog = .ok visitCandidate := by
  have hTopic : toLowerCase peerAnnouncedTopic = peerAnnouncedTopic := by decide +kernel
  have hSource : ¬ visitLog.removed ∧
    toLowerCase visitLog.address = toLowerCase visitNetwork.descriptor.registry.address :=
    ⟨Bool.false_ne_true, rfl⟩
  have hEvent : visitLog.topics[0]?.map toLowerCase = some peerAnnouncedTopic ∧
      visitLog.topics[1]?.map toLowerCase = some (toLowerCase visitNetwork.descriptor.namespace) :=
    ⟨congrArg some hTopic, rfl⟩
  have hType : bigInt (quantity 2) ∈ visitNetwork.descriptor.acceptedRecordTypes ∧ bigInt (quantity 2) = 2 := by
    rw [bigInt_quantity]
    exact ⟨List.mem_singleton_self _, rfl⟩
  have hTypeTopic : visitLog.topics[2]? = some (quantity 2) := rfl
  have hData : decodeAnnouncementData visitLog.data = .ok (0x6a500000, hexText (spell browserRecord)) :=
    decode_visitData
  have hBlock : bigInt visitLog.blockNumber = 25943060 := bigInt_quantity _
  have hIndex : bigInt visitLog.logIndex = 3 := bigInt_quantity _
  rw [decodeLog, ensure_of hSource, ensure_of hEvent, hTypeTopic]
  refine bind_eq_ok.mpr ⟨(), rfl, bind_eq_ok.mpr ⟨(), rfl, ?_⟩⟩
  refine bind_eq_ok.mpr
    ⟨(), ensure_of hType _, bind_eq_ok.mpr ⟨_, hData, bind_eq_ok.mpr ⟨(), ensure_of (by decide) _, ?_⟩⟩⟩
  rw [hBlock, hIndex]
  exact decode_visitRecord

def visitReport : ScanReport := ⟨25943058, 25943070, 0x6a000000, 1, 0, 0, [visitCandidate]⟩

def visitHead : RpcBlock :=
  ⟨quantity 25943082, "0x6a000000", "0x0000000000000000000000000000000000000000000000000000000000000064"⟩

def visitChecks : List (Event RegistryProvider) :=
  [⟨.ethChainId, .ok (.string "0x1")⟩,
    ⟨.ethCall (ethereumMainnetRegistryAddress visitKeccak) versionSelector, .ok (.string "0x01")⟩,
    ⟨.ethCall (ethereumMainnetRegistryAddress visitKeccak) maxTtlSelector, .ok (.string "0x76a700")⟩,
    ⟨.ethCall (ethereumMainnetRegistryAddress visitKeccak) maxRecordBytesSelector, .ok (.string "0x1000")⟩]

def visitLatest : List (Event RegistryProvider) :=
  [⟨.ethGetBlockByNumber "latest",
    .ok (.object [("number", .string (quantity 25943082)), ("timestamp", .string "0x6a000000"),
    ("hash", .string "0x0000000000000000000000000000000000000000000000000000000000000064")])⟩]

def visitLogs : List (Event RegistryProvider) :=
  [⟨.ethGetLogs visitNetwork.descriptor.registry.address [peerAnnouncedTopic, visitNetwork.descriptor.namespace]
    (quantity 25943058) (quantity 25943070), .ok (.array ([visitLog].map logJson))⟩]

theorem wellFormed_visitLog : visitLog.WellFormed where
  address := by decide +kernel
  topics := by
    have hTopic : isHexValue peerAnnouncedTopic := by decide +kernel
    have hName : isHexValue visitNamespace := isHexValue_word _
    simp [visitLog, hTopic, hName, isHexValue_quantity]
  data := by
    refine isHexValue_hexText (List.ne_nil_of_length_pos ?_) canonical_visitData.digits
    rw [canonical_visitData.size]
    decide
  blockNumber := isHexValue_quantity _
  logIndex := isHexValue_quantity _

theorem process_visitLog :
    processLog visitKeccak (decodeBrowserPeerRecord visitLibrary.toRecordLibrary) visitNetwork.descriptor
    explorerScanOptions visitHead ⟨0, 0, ∅⟩ visitLog = ⟨1, 0, AssocMap.write ∅ signerId visitCandidate⟩ := by
  have hTime : bigInt visitHead.timestamp = 0x6a000000 := by decide +kernel
  rw [processLog, hTime, decode_visitLog]
  rfl

theorem returns_visitLogs : Returns (scanChunks visitKeccak (decodeBrowserPeerRecord visitLibrary.toRecordLibrary)
    visitNetwork.descriptor explorerScanOptions 25943070 visitHead 25943058 10000 0 ⟨0, 0, ∅⟩) visitLogs
    (⟨1, 0, AssocMap.write ∅ signerId visitCandidate⟩, 0) := by
  have hLogs : asLogs (.array ([visitLog].map logJson)) = .ok [visitLog] :=
    asLogs_logJson (by simpa using wellFormed_visitLog)
  have hEnd : chunkEnd 25943058 10000 25943070 = 25943070 := by decide
  rw [scanChunks, dif_pos (by decide)]
  dsimp only
  rw [hEnd]
  refine returns_bind.mpr ⟨visitLogs, .ok (.array ([visitLog].map logJson)), [], (List.append_nil _).symm,
    returns_lift.mpr (Prog.runs_ask.mpr rfl), ?_⟩
  have hBind : (Except.ok (.array ([visitLog].map logJson)) >>= asLogs : Except String _) = .ok [visitLog] :=
    bind_eq_ok.mpr ⟨_, rfl, hLogs⟩
  rw [hBind]
  dsimp only
  rw [dif_pos rfl]
  rw [List.take_of_length_le (by decide), List.foldl_cons, List.foldl_nil, process_visitLog]
  exact returns_pure.mpr ⟨rfl, rfl⟩

theorem returned_visit : Returned visitKeccak visitLibrary (fun _ _ => 0) visitNetwork.descriptor visitReport := by
  refine ⟨visitChecks ++ (visitLatest ++ (visitLogs ++ [])), ?_⟩
  rw [scanRegistry]
  refine returns_bind.mpr ⟨[], (), _, rfl, returns_checked.mpr ⟨rfl, by decide⟩, ?_⟩
  refine returns_bind.mpr ⟨visitChecks, (), _, rfl, Prog.runs_of_replay (by decide +kernel), ?_⟩
  refine returns_bind.mpr ⟨visitLatest, ⟨25943070, visitHead, 25943058⟩, _, rfl,
    Prog.runs_of_replay (by decide +kernel), ?_⟩
  refine returns_bind.mpr ⟨visitLogs, _, [], rfl, returns_visitLogs, returns_pure.mpr ⟨rfl, ?_⟩⟩
  rfl

def visitPlatform : Platform := ⟨fun _ => .error "Invalid URL", toString, toString⟩

/-- One visit: the default namespace, a first endpoint that is refused, a second one that answers. -/
def visit : List PageInput :=
  [.submitScan ⟨"resurrect", "1"⟩, .begun 1 (.ok ()), .answered 1 (.error "JSON-RPC HTTP error 429"),
    .answered 1 (.ok visitReport)]

def asked : Page :=
  ((Page.new.beginScan visitNetwork .defaults).begun 1 (.ok ())).answered visitPlatform 1
    (.error "JSON-RPC HTTP error 429")

def visited : Page := asked.answered visitPlatform 1 (.ok visitReport)

theorem run_visit : Page.Run visitPlatform visitKeccak visitLibrary (fun _ _ => 0) visit visited := by
  have hSubmit : Page.new.step visitPlatform visitKeccak (.submitScan ⟨"resurrect", "1"⟩) =
      Page.new.beginScan visitNetwork .defaults := by
    rw [Page.step, Page.scanDefaults, if_neg (by decide), selectedNetwork_visit]
  have hAsked : asked.board.scans 1 = some ⟨visitNetwork, .defaults,
      .asking [⟨⟨"MEV Blocker", "https://rpc.mevblocker.io"⟩, "JSON-RPC HTTP error 429"⟩]⟩ := rfl
  have hFirst : Page.Run visitPlatform visitKeccak visitLibrary (fun _ _ => 0) [.submitScan ⟨"resurrect", "1"⟩]
      (Page.new.beginScan visitNetwork .defaults) := hSubmit ▸ .concat .nil _ trivial
  have hSecond : Page.Run visitPlatform visitKeccak visitLibrary (fun _ _ => 0) _ asked :=
    .concat (.concat hFirst (.begun 1 (.ok ())) trivial) (.answered 1 (.error "JSON-RPC HTTP error 429")) trivial
  refine .concat hSecond (.answered 1 (.ok visitReport)) fun scan hScan => ?_
  rw [hAsked] at hScan
  cases hScan
  exact returned_visit

end Visit

end Resurrect.Explorer
