import Resurrect.Foundation.Interaction
import Resurrect.Foundation.Varint

/-! # The identity file

`load_or_create_identity` as a program before a filesystem: it reads the file, and
where there is none it makes a key and writes it straight under the final path.
-/

namespace Resurrect.Node

open Interaction

structure Path where
  rooted : Bool
  components : List String
  deriving DecidableEq, Repr

/-- Neither the root nor the empty path has one. -/
def Path.parent (self : Path) : Option Path :=
  match self.components with
  | [] => none
  | _ :: _ => some { self with components := self.components.dropLast }

inductive ErrorKind where
  | notFound
  | alreadyExists
  | writeZero
  | other
  deriving DecidableEq, Repr

structure IoError where
  kind : ErrorKind
  message : String
  deriving DecidableEq, Repr

inductive IdentityError where
  | io (error : IoError)
  | decode (error : String)
  deriving DecidableEq, Repr

def IdentityError.message : IdentityError → String
  | .io error => "identity file error: " ++ error.message
  | .decode error => "invalid libp2p identity: " ++ error

/-- What an Ed25519 key is generated from. -/
abbrev Seed := Vector UInt8 32

/-- libp2p's keypairs and their protobuf encoding. -/
structure IdentityLibrary where
  Keypair : Type
  generateEd25519 : Seed → Keypair
  toProtobufEncoding : Keypair → Except String Bytes
  fromProtobufEncoding : Bytes → Except String Keypair

/-- Generated keys are encoded and read back, and what lacks the end of an encoding is no key. -/
structure IdentityLibrary.Lawful (library : IdentityLibrary) : Prop where
  encodes : ∀ seed, ∃ encoded, library.toProtobufEncoding (library.generateEd25519 seed) = .ok encoded
  decodes : ∀ {seed encoded}, library.toProtobufEncoding (library.generateEd25519 seed) = .ok encoded →
    library.fromProtobufEncoding encoded = .ok (library.generateEd25519 seed)
  truncated : ∀ {seed encoded bytes}, library.toProtobufEncoding (library.generateEd25519 seed) = .ok encoded →
    bytes <+: encoded → bytes ≠ encoded → ∃ error, library.fromProtobufEncoding bytes = .error error

inductive IdentityQuery where
  | read (path : Path)
  | createDirAll (path : Path)
  | randomness
  | createNew (path : Path) (mode : Nat)
  | write (position : Nat) (bytes : Bytes)
  | syncAll
  deriving DecidableEq, Repr

/-- The operating system: its filesystem and its randomness. A write says how many bytes it took. -/
abbrev Os : Interface where
  Query := IdentityQuery
  Answer
    | .read _ => Except IoError Bytes
    | .createDirAll _ => Except IoError Unit
    | .randomness => Seed
    | .createNew _ _ => Except IoError Unit
    | .write _ bytes => Except IoError {count : Nat // count ≤ bytes.length}
    | .syncAll => Except IoError Unit

instance : DecidableEq Os.Query := inferInstanceAs (DecidableEq IdentityQuery)

namespace Os

def read (path : Path) : Prog Os (Except IoError Bytes) := Prog.ask (I := Os) (.read path)

def createDirAll (path : Path) : Prog Os (Except IoError Unit) := Prog.ask (I := Os) (.createDirAll path)

def randomness : Prog Os Seed := Prog.ask (I := Os) .randomness

def createNew (path : Path) (mode : Nat) : Prog Os (Except IoError Unit) :=
  Prog.ask (I := Os) (.createNew path mode)

/-- One `write` at the handle's position, tried again while it is interrupted. -/
def write (position : Nat) (bytes : Bytes) : Prog Os (Except IoError {count : Nat // count ≤ bytes.length}) :=
  Prog.ask (I := Os) (.write position bytes)

def syncAll : Prog Os (Except IoError Unit) := Prog.ask (I := Os) .syncAll

end Os

/-- The loop of `write_all`, `position` bytes into the file. -/
def writeAll (position : Nat) (bytes : Bytes) : ExceptT IoError (Prog Os) Unit :=
  if bytes = [] then pure ()
  else do
    let count ← attempt id (Os.write position bytes)
    if 0 < count.val then writeAll (position + count.val) (bytes.drop count.val)
    else throw ⟨.writeZero, "failed to write whole buffer"⟩
termination_by bytes.length
decreasing_by
  rename_i hSome hCount
  have := List.length_pos_iff.mpr hSome
  rw [List.length_drop]
  omega

def writePrivateFile (path : Path) (bytes : Bytes) : ExceptT IoError (Prog Os) Unit := do
  attempt id (Os.createNew path 0o600)
  writeAll 0 bytes
  attempt id Os.syncAll

def createParent (path : Path) : ExceptT IdentityError (Prog Os) Unit :=
  match path.parent with
  | some parent => attempt .io (Os.createDirAll parent)
  | none => pure ()

section Program

variable (library : IdentityLibrary) (path : Path)

/-- What `load_or_create_identity` does once it found no file. -/
def createIdentity : ExceptT IdentityError (Prog Os) library.Keypair := do
  createParent path
  let seed ← ExceptT.lift Os.randomness
  let keypair := library.generateEd25519 seed
  let encoded ← ExceptT.mk (pure ((library.toProtobufEncoding keypair).mapError .decode))
  attempt .io (writePrivateFile path encoded).run
  pure keypair

def loadOrCreateIdentity : ExceptT IdentityError (Prog Os) library.Keypair := do
  match ← ExceptT.lift (Os.read path) with
  | .ok bytes => ExceptT.mk (pure ((library.fromProtobufEncoding bytes).mapError .decode))
  | .error error =>
    if error.kind = .notFound then createIdentity library path
    else throw (.io error)

end Program

end Resurrect.Node
