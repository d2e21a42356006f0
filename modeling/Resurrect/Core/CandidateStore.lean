import Resurrect.Core.PeerRecord
import Resurrect.Foundation.BoundedSample
import Resurrect.Foundation.AssocMap
import Mathlib.Data.Prod.Lex
import Mathlib.Order.Fin.Basic

/-! # The bounded candidate store

One record per identity, the freshest by (sequence, announcement block, log
index), for at most `maxCandidates` identities, those whose seeded hash is least.
The store refines `BoundedSample.IsSample`: each branch of `insert` is one rule.
-/

namespace Resurrect.Core

open BoundedSample AssocMap

def compareFreshness (left right : PeerCandidate) : Ordering :=
  (compare left.sequence right.sequence).then
    ((compare (left.announcementBlock.getD 0) (right.announcementBlock.getD 0)).then
      (compare (left.announcementLogIndex.getD 0) (right.announcementLogIndex.getD 0)))

structure CandidateStoreConfig where
  maxCandidates : Nat
  samplingSeed : B256
  deriving DecidableEq, Repr

inductive CandidateInsert where
  | inserted
  | replaced
  | stale
  | sampledOut
  deriving DecidableEq, Repr

/-- A record under its own identity key, and never more identities than the cap. -/
structure CandidateStore where
  config : CandidateStoreConfig
  candidates : AList fun _ : Bytes => PeerCandidate
  cap_pos : 0 < config.maxCandidates
  size_le : candidates.keys.length ≤ config.maxCandidates
  keyed : ∀ identity, ∀ candidate ∈ candidates.lookup identity, candidate.identityKey = identity

namespace CandidateStore

/-- An empty store. A zero candidate cap is promoted to one. -/
def new (config : CandidateStoreConfig) : CandidateStore where
  config := { config with maxCandidates := max config.maxCandidates 1 }
  candidates := ∅
  cap_pos := by simp
  size_le := by simp
  keyed := by simp

def get (self : CandidateStore) (recordType : UInt32) (peerId : Bytes) : Option PeerCandidate :=
  self.candidates.lookup (toBeBytes recordType ++ peerId)

theorem keyed_insert {candidates : AList fun _ : Bytes => PeerCandidate} (candidate : PeerCandidate)
    (h : ∀ identity, ∀ other ∈ candidates.lookup identity, other.identityKey = identity) :
    ∀ identity, ∀ other ∈ (candidates.insert candidate.identityKey candidate).lookup identity,
      other.identityKey = identity := by
  intro identity other hOther
  by_cases hEq : identity = candidate.identityKey
  · subst hEq
    rw [AList.lookup_insert] at hOther
    obtain rfl := Option.some.inj hOther
    rfl
  · rw [AList.lookup_insert_ne hEq] at hOther
    exact h identity other hOther

theorem keyed_erase {candidates : AList fun _ : Bytes => PeerCandidate} (worst : Bytes)
    (h : ∀ identity, ∀ other ∈ candidates.lookup identity, other.identityKey = identity) :
    ∀ identity, ∀ other ∈ (candidates.erase worst).lookup identity, other.identityKey = identity := by
  intro identity other hOther
  by_cases hEq : identity = worst
  · rw [hEq, AList.lookup_erase] at hOther
    cases hOther
  · rw [AList.lookup_erase_ne hEq] at hOther
    exact h identity other hOther

def put (self : CandidateStore) (candidate : PeerCandidate)
    (h : candidate.identityKey ∈ self.candidates.keys ∨
      self.candidates.keys.length < self.config.maxCandidates) : CandidateStore where
  config := self.config
  candidates := self.candidates.insert candidate.identityKey candidate
  cap_pos := self.cap_pos
  size_le := by
    have hSize := self.size_le
    rw [length_keys_insert]
    split
    · exact hSize
    · obtain h | h := h
      · contradiction
      · exact h
  keyed := keyed_insert candidate self.keyed

def remove (self : CandidateStore) (identity : Bytes) : CandidateStore where
  config := self.config
  candidates := self.candidates.erase identity
  cap_pos := self.cap_pos
  size_le := (length_keys_erase_le _ _).trans self.size_le
  keyed := keyed_erase identity self.keyed

theorem room_after_remove (self : CandidateStore) {worst : Bytes}
    (h : worst ∈ self.candidates.keys) :
    (self.remove worst).candidates.keys.length < (self.remove worst).config.maxCandidates := by
  have hPos := List.length_pos_of_mem h
  have hSize := self.size_le
  change (self.candidates.erase worst).keys.length < self.config.maxCandidates
  rw [length_keys_erase _ h]
  omega

section Scored

variable (keccak256 : Bytes → B256)

def score (self : CandidateStore) (identity : Bytes) : B256 :=
  keccak256 (toBytes32 self.config.samplingSeed ++ identity)

def insert (self : CandidateStore) (candidate : PeerCandidate) : CandidateInsert × CandidateStore :=
  match hExisting : self.candidates.lookup candidate.identityKey with
  | some existing =>
    if compareFreshness candidate existing = .gt then
      (.replaced, self.put candidate (.inl (mem_keys_of_lookup hExisting)))
    else (.stale, self)
  | none =>
    if hRoom : self.candidates.keys.length < self.config.maxCandidates then
      (.inserted, self.put candidate (.inr hRoom))
    else
      match hWorst : maxByKey (self.score keccak256) self.candidates.keys with
      | none => (.inserted, self.put candidate (.inr (by
          rw [maxByKey_eq_none.mp hWorst]
          exact self.cap_pos)))
      | some worst =>
        if self.score keccak256 candidate.identityKey < self.score keccak256 worst then
          (.inserted, (self.remove worst).put candidate
            (.inr (self.room_after_remove (maxByKey_spec hWorst).1)))
        else (.sampledOut, self)

def ranked (self : CandidateStore) : List PeerCandidate :=
  (sortByKey (fun entry => self.score keccak256 entry.1) self.candidates.entries).map (·.2)

def insertAll (self : CandidateStore) (offers : List PeerCandidate) : CandidateStore :=
  offers.foldl (fun store candidate => (store.insert keccak256 candidate).2) self

theorem insertAll_append (self : CandidateStore) (offers more : List PeerCandidate) :
    self.insertAll keccak256 (offers ++ more) = (self.insertAll keccak256 offers).insertAll keccak256 more :=
  List.foldl_append

end Scored

end CandidateStore

/-- What freshness compares, as one ordered key. -/
def PeerCandidate.freshness (candidate : PeerCandidate) : ℕ ×ₗ ℕ ×ₗ ℕ :=
  toLex (candidate.sequence.toNat, toLex ((candidate.announcementBlock.getD 0).toNat,
    (candidate.announcementLogIndex.getD 0).toNat))

theorem compare_eq_compare_toNat (a b : UInt64) : compare a b = compare a.toNat b.toNat := by
  rw [Nat.compare_eq_ite_lt]
  change compareOfLessAndEq a b = _
  simp only [compareOfLessAndEq, UInt64.lt_iff_toNat_lt, ← UInt64.toNat_inj]
  grind

theorem compareFreshness_eq_gt {left right : PeerCandidate} :
    compareFreshness left right = .gt ↔ right.freshness < left.freshness := by
  simp only [compareFreshness, compare_eq_compare_toNat, Ordering.then_eq_gt, Nat.compare_eq_gt,
    Nat.compare_eq_eq, PeerCandidate.freshness, Prod.Lex.lt_iff, ofLex_toLex]
  simp only [eq_comm]

end Resurrect.Core
