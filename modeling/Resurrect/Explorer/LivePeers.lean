import Resurrect.Browser.Findings
import Resurrect.Explorer.PageRuns

/-! # What a card says of its peer

A card stands for a record that was announced, and says that the peer is live only
when a connection authenticated it as the peer that signed the record.
-/

namespace Resurrect.Explorer

open Hex Interaction Browser

section Cards

variable {platform : Platform} {keccak256 : Bytes → Core.B256} {self : Page}

end Cards

section Vouched

variable {platform : Platform} {keccak256 : Bytes → Core.B256} {library : ProbeLibrary}
  {localeCompare : String → String → Int} {page : Page}

end Vouched

section Ping

def pingAnswer : Identified :=
  ⟨signerId, some "resurrect-node", some "/resurrect/1.0.0", ["/ipfs/ping/1.0.0", "/ipfs/id/1.0.0"]⟩

def pinging : Page := ((visited.runProbe 0).imported 0 (.ok ())).closeSettled 0 (.ok ())

/-- A visit and a ping, up to the moment at which its probe is under way. -/
def ping : List PageInput := visit ++ [.clickPing 0] ++ [.imported 0 (.ok ())] ++ [.closed 0 (.ok ())]

theorem run_pinging : Page.Run visitPlatform visitKeccak visitLibrary (fun _ _ => 0) ping pinging :=
  .concat (.concat (.concat run_visit (.clickPing 0) trivial) (.imported 0 (.ok ())) trivial) (.closed 0 (.ok ()))
    trivial

theorem returns_ping : Returns (probePeer visitLibrary visitCandidate)
    (⟨.createLibp2p, .ok ()⟩ :: exchange pingTarget signerId pingAnswer)
    (probeResult visitLibrary pingTarget signerId pingAnswer) :=
  returns_probePeer.mpr ⟨_, pingTarget, pingAnswer, rfl, qualified_ping, rfl, rfl, rfl⟩

end Ping

end Resurrect.Explorer
