import Resurrect.Node.Announcer

/-! # How an announcement attempt goes

Everything a run of `announce` can do: it is ineligible, it fails one of the
checks, or it goes on to `publish`, which submits at most one record and only
then reads the clock and schedules the next renewal.
-/

namespace Resurrect.Node

open Resurrect.Core Interaction Ethereum Bootstrap Libp2p

/-- The record that a query hands to the provider. -/
def submittedRecord : AnnouncerQuery → Option Bytes
  | .provider (.announce _ _ _ _ record) => some record
  | _ => none

def submits (query : AnnouncerQuery) : Bool := (submittedRecord query).isSome

section Renewal

variable {base ttl : UInt64} {trace : List (Event AnnouncerIO)} {renewalAfter : UInt64}

theorem toNat_renewalWindow (base ttl : UInt64) : (renewalWindow base ttl).toNat =
    min (min 86400 (base.toNat - 1)) (ttl.toNat - base.toNat - 1) := by
  rw [renewalWindow, Word64.toNat_min, Word64.toNat_min, Word64.toNat_saturatingSub, Word64.toNat_saturatingSub,
    Word64.toNat_saturatingSub]
  rfl

theorem runs_jitteredRenewal (h : (jitteredRenewal base ttl).Runs trace renewalAfter) :
    (∀ event ∈ trace, submits event.query = false) ∧
      base.toNat - (renewalWindow base ttl).toNat ≤ renewalAfter.toNat := by
  rw [jitteredRenewal] at h
  split at h
  · obtain ⟨rfl, rfl⟩ := h
    exact ⟨by simp, Nat.sub_le ..⟩
  · obtain ⟨drawn, rest, rfl, rfl, rfl⟩ := Prog.runs_ask_bind.mp h
    refine ⟨by simp [submits, submittedRecord], ?_⟩
    rw [Word64.toNat_saturatingAdd, Word64.toNat_saturatingSub]
    have hBase := base.toNat_lt
    omega

theorem le_renewalAfter (h : (jitteredRenewal base ttl).Runs trace renewalAfter) (hBase : 1 ≤ base.toNat) :
    max 1 (base.toNat - 86400) ≤ renewalAfter.toNat := by
  have hLe := (runs_jitteredRenewal h).2
  rw [toNat_renewalWindow] at hLe
  omega

end Renewal

-- nothing below looks into the window
attribute [local irreducible] jitteredRenewal

namespace RegistryAnnouncer

variable {library : Library} (self : RegistryAnnouncer library)

def submission (ttl : UInt32) (record : Bytes) : AnnouncerQuery :=
  .provider (.announce self.descriptor.registry.address self.descriptor.namespace recordTypeLibp2p ttl record)

def baseRenewal (ttl : UInt32) : UInt64 := min self.renewalInterval.secs (max (ttl.toUInt64 / 2) 1)

/-- Every run of `publish`: signing fails, the provider refuses, the clock predates the epoch, or the next renewal
is scheduled. -/
inductive PublishRun (ttl : UInt32) (state : AnnouncerState) :
    List (Event AnnouncerIO) → Except BootstrapError Unit × AnnouncerState → Prop
  | unsigned {error : SignedPeerRecordError}
      (hSign : signPeerRecord library self.keypair state.sequence self.addresses = .error error) :
      PublishRun ttl state [] (.error (.announcement error.toString), { state with sequence := state.sequence + 1 })
  | refused {record : Bytes} {error : ProviderError}
      (hSign : signPeerRecord library self.keypair state.sequence self.addresses = .ok record) :
      PublishRun ttl state [⟨self.submission ttl record, .error error⟩]
        (.error (.announcement error.toString), { state with sequence := state.sequence + 1 })
  | unclocked {record : Bytes} {transaction : B256}
      (hSign : signPeerRecord library self.keypair state.sequence self.addresses = .ok record) :
      PublishRun ttl state [⟨self.submission ttl record, .ok transaction⟩, ⟨.systemTime, none⟩]
        (.error (.announcement "system clock predates the Unix epoch"), { state with sequence := state.sequence + 1 })
  | scheduled {record : Bytes} {transaction : B256} {time : Duration} {drawn : List (Event AnnouncerIO)}
      {renewalAfter : UInt64}
      (hSign : signPeerRecord library self.keypair state.sequence self.addresses = .ok record)
      (hRenewal : (jitteredRenewal (self.baseRenewal ttl) ttl.toUInt64).Runs drawn renewalAfter) :
      PublishRun ttl state
        (⟨self.submission ttl record, .ok transaction⟩ :: ⟨.systemTime, some time⟩ :: drawn)
        (.ok (), {
          sequence := state.sequence + 1
          nextRenewal := Word64.saturatingAdd time.secs renewalAfter
          announcements := state.announcements + 1 })

/-- Every run of `announce`. -/
inductive AnnounceRun (ttl : Duration) (state : AnnouncerState) :
    List (Event AnnouncerIO) → Except BootstrapError Unit × AnnouncerState → Prop
  | ineligible (hEligible : self.eligible = false) : AnnounceRun ttl state [] (.ok (), state)
  | unchecked {trace : List (Event AnnouncerIO)} {error : BootstrapError}
      (hCheck : (self.checkRegistry ttl).run.Runs trace (.error error)) :
      AnnounceRun ttl state trace (.error error, state)
  | attempted {checks published : List (Event AnnouncerIO)} {checked : UInt32}
      {result : Except BootstrapError Unit × AnnouncerState}
      (hCheck : Returns (self.checkRegistry ttl) checks checked) (hPublish : self.PublishRun checked state published result) :
      AnnounceRun ttl state (checks ++ published) result

section Runs

variable {self : RegistryAnnouncer library} {trace history : List (Event AnnouncerIO)} {target : AnnouncerQuery}
  {state : AnnouncerState} {result : Except BootstrapError Unit × AnnouncerState}

theorem not_submits_of_check {ttl : Duration} (h : Invokes (self.checkRegistry ttl) history target) :
    submits target = false := by
  obtain rfl | ⟨address, rfl⟩ := invokes_checkRegistry h
  · rfl
  · rfl

theorem not_submits_checks {ttl : Duration} {checked : Except BootstrapError UInt32}
    (h : (self.checkRegistry ttl).run.Runs trace checked) : ∀ event ∈ trace, submits event.query = false :=
  Prog.Asks.runs (fun _ _ => not_submits_of_check) h

theorem runs_submission {ttl : UInt32} {record : Bytes} {answer : Except ProviderError B256} :
    (publisherPart.lift (RegistryProvider.announce self.descriptor.registry.address self.descriptor.namespace
      recordTypeLibp2p ttl record)).Runs trace answer ↔ trace = [⟨self.submission ttl record, answer⟩] := by
  rw [publisherPart.runs_lift]
  constructor
  · rintro ⟨inner, rfl, hInner⟩
    rw [Prog.runs_ask.mp hInner]
    rfl
  · rintro rfl
    exact ⟨[⟨.announce _ _ _ _ _, answer⟩], rfl, Prog.runs_ask.mpr rfl⟩

theorem reaches_submission {ttl : UInt32} {record : Bytes} :
    (publisherPart.lift (RegistryProvider.announce self.descriptor.registry.address self.descriptor.namespace
      recordTypeLibp2p ttl record)).Reaches history target ↔ history = [] ∧ target = self.submission ttl record := by
  rw [publisherPart.reaches_lift]
  constructor
  · rintro ⟨inner, query, rfl, rfl, hInner⟩
    obtain ⟨rfl, rfl⟩ := Prog.reaches_ask.mp hInner
    exact ⟨rfl, rfl⟩
  · rintro ⟨rfl, rfl⟩
    exact ⟨[], _, rfl, rfl, Prog.reaches_ask.mpr ⟨rfl, rfl⟩⟩

theorem publishRun_of_runs {ttl : UInt32} (h : (self.publish ttl state).Runs trace result) :
    self.PublishRun ttl state trace result := by
  rw [publish] at h
  dsimp only at h
  split at h
  · rename_i error hSign
    obtain ⟨rfl, rfl⟩ := h
    exact .unsigned hSign
  rename_i record hSign
  obtain ⟨first, answer, rest, rfl, hAnnounce, h⟩ := Prog.runs_bind.mp h
  rw [runs_submission.mp hAnnounce]
  split at h
  · obtain ⟨rfl, rfl⟩ := h
    exact .refused hSign
  obtain ⟨time, rest, rfl, hRest⟩ := Prog.runs_ask_bind.mp h
  cases time with
  | none =>
    obtain ⟨rfl, rfl⟩ := Prog.runs_pure.mp hRest
    exact .unclocked hSign
  | some time =>
    obtain ⟨drawn, renewalAfter, rest, rfl, hDrawn, rfl, rfl⟩ := Prog.runs_bind.mp hRest
    rw [List.append_nil]
    exact .scheduled hSign hDrawn

theorem announceRun_of_runs {ttl : Duration} (h : (self.announce ttl state).Runs trace result) :
    self.AnnounceRun ttl state trace result := by
  rw [announce] at h
  split at h
  · rename_i hEligible
    obtain ⟨rfl, rfl⟩ := h
    exact .ineligible (by simpa using hEligible)
  obtain ⟨checks, checked, published, rfl, hCheck, h⟩ := Prog.runs_bind.mp h
  cases checked with
  | error error =>
    obtain ⟨rfl, rfl⟩ := h
    rw [List.append_nil]
    exact .unchecked hCheck
  | ok checked => exact .attempted hCheck (publishRun_of_runs h)

/-- An attempt that fails leaves the schedule alone. -/
theorem AnnounceRun.failed {ttl : Duration} {error : BootstrapError} {next : AnnouncerState}
    (h : self.AnnounceRun ttl state trace (.error error, next)) :
    next.nextRenewal = state.nextRenewal ∧ next.announcements = state.announcements := by
  cases h with
  | unchecked hCheck => exact ⟨rfl, rfl⟩
  | attempted hCheck hPublish => cases hPublish <;> exact ⟨rfl, rfl⟩

/-- Where an attempt can be cut off: at a check, or at a query of `publish`, which submits before anything else. -/
theorem reaches_announce {ttl : Duration} (h : (self.announce ttl state).Reaches history target) :
    (Invokes (self.checkRegistry ttl) history target) ∨
    ∃ checks checked published, history = checks ++ published ∧ Returns (self.checkRegistry ttl) checks checked ∧
      (self.publish checked state).Reaches published target := by
  rw [announce] at h
  split at h
  · exact absurd h Prog.reaches_pure
  obtain h | ⟨checks, checked, published, rfl, hCheck, h⟩ := Prog.reaches_bind.mp h
  · exact .inl h
  cases checked with
  | error error => exact absurd h Prog.reaches_pure
  | ok checked => exact .inr ⟨checks, checked, published, rfl, hCheck, h⟩

theorem reaches_publish {ttl : UInt32} (h : (self.publish ttl state).Reaches history target) :
    ∃ record, signPeerRecord library self.keypair state.sequence self.addresses = .ok record ∧
      ((history = [] ∧ target = self.submission ttl record) ∨
        ∃ transaction later, history = ⟨self.submission ttl record, .ok transaction⟩ :: later ∧
          (∀ event ∈ later, submits event.query = false) ∧
          (target = .systemTime ∨ ∃ maximum, target = .randomRange maximum)) := by
  rw [publish] at h
  dsimp only at h
  split at h
  · exact absurd h Prog.reaches_pure
  rename_i record hSign
  refine ⟨record, hSign, ?_⟩
  obtain h | ⟨first, answer, rest, rfl, hAnnounce, h⟩ := Prog.reaches_bind.mp h
  · exact .inl (reaches_submission.mp h)
  rw [runs_submission.mp hAnnounce]
  cases answer with
  | error error => exact absurd h Prog.reaches_pure
  | ok transaction =>
    refine .inr ⟨transaction, rest, rfl, ?_⟩
    obtain ⟨rfl, rfl⟩ | ⟨time, rest, rfl, hRest⟩ := Prog.reaches_ask_bind.mp h
    · exact ⟨by simp, .inl rfl⟩
    cases time with
    | none => exact absurd hRest Prog.reaches_pure
    | some time =>
      obtain hRest | ⟨drawn, after, rest, -, -, hRest⟩ := Prog.reaches_bind.mp hRest
      · obtain ⟨rfl, hTarget⟩ := reaches_jitteredRenewal hRest
        exact ⟨by simp [submits, submittedRecord], .inr hTarget⟩
      · exact absurd hRest Prog.reaches_pure

end Runs

end RegistryAnnouncer

end Resurrect.Node
