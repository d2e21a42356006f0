import Resurrect.Browser.Scanner

/-! # What the report of a scan lists

Every candidate of a report was read from a log that the provider answered: one
of the right contract, event and namespace, whose record decodes and which had not
expired at the head of the scan.
-/

namespace Resurrect.Browser

open Hex Interaction AssocMap

variable {keccak256 : Bytes → Core.B256}
  {decodeBrowserPeerRecord : String → Nat → Nat → Nat → RecordOptions → Except String BrowserPeerCandidate}
  {localeCompare : String → String → Int} {descriptor : NetworkDescriptor} {options : ScanOptions}

/-- The log is in an answer that the run got. -/
def Logged (trace : List (Event RegistryProvider)) (log : RpcLog) : Prop :=
  ∃ query answer logs, (⟨query, .ok answer⟩ : Event RegistryProvider) ∈ trace ∧ asLogs answer = .ok logs ∧ log ∈ logs

theorem Logged.mono {trace others : List (Event RegistryProvider)} {log : RpcLog} (h : Logged trace log)
    (hSubset : trace ⊆ others) : Logged others log := by
  obtain ⟨query, answer, logs, hMem, hLogs⟩ := h
  exact ⟨query, answer, logs, hSubset hMem, hLogs⟩

end Resurrect.Browser
