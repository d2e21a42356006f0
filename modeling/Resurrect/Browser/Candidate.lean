import Mathlib.Data.Option.Basic
import Mathlib.Order.Basic

/-! # Peer candidates of the browser client -/

namespace Resurrect.Browser

/-- A verified record and where it was announced. The integers are arbitrary precision. -/
structure BrowserPeerCandidate where
  peerId : String
  sequence : Nat
  endpoints : List String
  rawSignedRecord : String
  validUntil : Nat
  blockNumber : Nat
  logIndex : Nat
  deriving DecidableEq, Repr

end Resurrect.Browser
