import Resurrect.Node.RenewalSpacing

/-! # Drawn delays

The two delays a node draws: until the next renewal of its announcement, and
until the next bootstrap cycle. What can be drawn is an interval, and nothing on
the way to it overflows or is clamped.
-/

namespace Resurrect.Node

open Resurrect.Core Interaction Bootstrap Libp2p

section Renewal

variable {base ttl delay : UInt64} {trace : List (Event AnnouncerIO)}

/-- How far the delay until the next renewal may stray from its base. -/
def renewalReach (base ttl : Nat) : Nat := min (min 86400 (base - 1)) (ttl - base - 1)

theorem toNat_doubled (window : UInt64) (h : window.toNat ≤ 86400) :
    (min (window.toNat * 2) 18446744073709551615).toUInt64.toNat = window.toNat * 2 := by
  have hMin : min (window.toNat * 2) 18446744073709551615 = window.toNat * 2 := by omega
  have hSize : UInt64.size = 18446744073709551616 := rfl
  rw [hMin]
  exact UInt64.toNat_ofNat_of_lt' (by omega)

/-- The delays from a base below the lifetime: an interval around it, with each step exact. -/
structure RenewalDelays (base ttl : UInt64) : Prop where
  base_pos : 1 ≤ base.toNat
  base_lt : base.toNat + 1 ≤ ttl.toNat
  window : (renewalWindow base ttl).toNat = renewalReach base.toNat ttl.toNat
  window_le : renewalReach base.toNat ttl.toNat ≤ 24 * 60 * 60
  starts : 1 ≤ base.toNat - renewalReach base.toNat ttl.toNat
  expires : base.toNat + renewalReach base.toNat ttl.toNat < ttl.toNat
  steps : ∀ trace delay, (jitteredRenewal base ttl).Runs trace delay →
    (trace = [] ∧ renewalReach base.toNat ttl.toNat = 0 ∧ delay = base) ∨
    ∃ maximum drawn, trace = [⟨.randomRange maximum, drawn⟩] ∧
      maximum.toNat = 2 * renewalReach base.toNat ttl.toNat ∧
      delay.toNat = base.toNat - renewalReach base.toNat ttl.toNat + drawn.val.toNat
  delays : ∀ delay : UInt64, (∃ trace, (jitteredRenewal base ttl).Runs trace delay) ↔
    base.toNat - renewalReach base.toNat ttl.toNat ≤ delay.toNat ∧
      delay.toNat ≤ base.toNat + renewalReach base.toNat ttl.toNat

theorem renewalReach_lt (hPos : 1 ≤ base.toNat) (hLt : base.toNat < ttl.toNat) :
    renewalReach base.toNat ttl.toNat ≤ 86400 ∧ renewalReach base.toNat ttl.toNat + 1 ≤ base.toNat ∧
      base.toNat + renewalReach base.toNat ttl.toNat < ttl.toNat := by
  rw [renewalReach]
  omega

theorem toNat_delay (hPos : 1 ≤ base.toNat) (hLt : base.toNat < ttl.toNat) {drawn : UInt64}
    (hDrawn : drawn.toNat ≤ 2 * renewalReach base.toNat ttl.toNat) :
    (Word64.saturatingAdd (Word64.saturatingSub base (renewalWindow base ttl)) drawn).toNat =
      base.toNat - renewalReach base.toNat ttl.toNat + drawn.toNat := by
  have hTtl := ttl.toNat_lt
  have hWindow : (renewalWindow base ttl).toNat = renewalReach base.toNat ttl.toNat := toNat_renewalWindow base ttl
  obtain ⟨-, hStarts, hExpires⟩ := renewalReach_lt hPos hLt
  rw [Word64.toNat_saturatingAdd, Word64.toNat_saturatingSub, hWindow]
  omega

/-- A run of `jittered_renewal` draws nothing where the window is empty, and one number otherwise. -/
theorem runs_jitteredRenewal_iff (hPos : 1 ≤ base.toNat) (hLt : base.toNat < ttl.toNat) :
    (jitteredRenewal base ttl).Runs trace delay ↔
      (trace = [] ∧ renewalReach base.toNat ttl.toNat = 0 ∧ delay = base) ∨
      0 < renewalReach base.toNat ttl.toNat ∧ ∃ (maximum : UInt64) (drawn : {drawn : UInt64 // drawn ≤ maximum}),
        trace = [⟨.randomRange maximum, drawn⟩] ∧ maximum.toNat = 2 * renewalReach base.toNat ttl.toNat ∧
        delay.toNat = base.toNat - renewalReach base.toNat ttl.toNat + drawn.val.toNat := by
  have hWindow : (renewalWindow base ttl).toNat = renewalReach base.toNat ttl.toNat := toNat_renewalWindow base ttl
  have hTwice : (renewalWindow base ttl).toNat * 2 = 2 * renewalReach base.toNat ttl.toNat := by
    rw [hWindow, Nat.mul_comm]
  have hDoubled := (toNat_doubled (renewalWindow base ttl) (hWindow.trans_le (renewalReach_lt hPos hLt).1)).trans hTwice
  rw [jitteredRenewal]
  split
  · rename_i hZero
    have hNone : renewalReach base.toNat ttl.toNat = 0 := by rw [← hWindow, hZero]; rfl
    rw [Prog.runs_pure]
    constructor
    · rintro ⟨rfl, rfl⟩
      exact .inl ⟨rfl, hNone, rfl⟩
    · rintro (⟨rfl, -, rfl⟩ | ⟨hSome, -⟩)
      · exact ⟨rfl, rfl⟩
      · omega
  · rename_i hSome
    have hReach : 0 < renewalReach base.toNat ttl.toNat := by
      rw [← hWindow]
      exact Nat.pos_of_ne_zero fun hZero => hSome (UInt64.toNat_inj.mp hZero)
    rw [ AnnouncerIO.randomRange, Prog.runs_ask_bind]
    constructor
    · rintro ⟨drawn, rest, rfl, rfl, rfl⟩
      have hDrawn := UInt64.le_iff_toNat_le.mp drawn.property
      exact .inr ⟨hReach, _, drawn, rfl, hDoubled, toNat_delay hPos hLt (hDrawn.trans_eq hDoubled)⟩
    · rintro (⟨-, hZero, -⟩ | ⟨-, maximum, drawn, rfl, hMaximum, hDelay⟩)
      · omega
      obtain rfl : maximum = _ := UInt64.toNat_inj.mp (hMaximum.trans hDoubled.symm)
      have hDrawn := UInt64.le_iff_toNat_le.mp drawn.property
      refine ⟨drawn, [], rfl, rfl, UInt64.toNat_inj.mp ?_⟩
      rw [hDelay, toNat_delay hPos hLt (hDrawn.trans_eq hDoubled)]

theorem exists_delay_iff (hPos : 1 ≤ base.toNat) (hLt : base.toNat < ttl.toNat) :
    (∃ trace, (jitteredRenewal base ttl).Runs trace delay) ↔
      base.toNat - renewalReach base.toNat ttl.toNat ≤ delay.toNat ∧
        delay.toNat ≤ base.toNat + renewalReach base.toNat ttl.toNat := by
  obtain ⟨-, hStarts, hExpires⟩ := renewalReach_lt hPos hLt
  have hTtl := ttl.toNat_lt
  constructor
  · rintro ⟨trace, hRuns⟩
    obtain ⟨-, hNone, rfl⟩ | ⟨-, maximum, drawn, -, hMaximum, hDelay⟩ := (runs_jitteredRenewal_iff hPos hLt).mp hRuns
    · omega
    · have hDrawn := UInt64.le_iff_toNat_le.mp drawn.property
      omega
  · rintro ⟨hLow, hHigh⟩
    obtain hNone | hReach := Nat.eq_zero_or_pos (renewalReach base.toNat ttl.toNat)
    · refine ⟨[], (runs_jitteredRenewal_iff hPos hLt).mpr (.inl ⟨rfl, hNone, UInt64.toNat_inj.mp ?_⟩)⟩
      omega
    -- the draw that makes up the distance from the lower end
    obtain ⟨maximum, hMaximum⟩ : ∃ maximum : UInt64, maximum.toNat = 2 * renewalReach base.toNat ttl.toNat :=
      ⟨_, UInt64.toNat_ofNat_of_lt' (show _ < 18446744073709551616 by omega)⟩
    obtain ⟨drawn, hDrawn⟩ : ∃ drawn : UInt64,
        drawn.toNat = delay.toNat - (base.toNat - renewalReach base.toNat ttl.toNat) :=
      ⟨_, UInt64.toNat_ofNat_of_lt' (show _ < 18446744073709551616 by omega)⟩
    have hLe : drawn ≤ maximum := by
      rw [UInt64.le_iff_toNat_le]
      omega
    refine ⟨[⟨.randomRange maximum, ⟨drawn, hLe⟩⟩], (runs_jitteredRenewal_iff hPos hLt).mpr
      (.inr ⟨hReach, maximum, ⟨drawn, hLe⟩, rfl, hMaximum, ?_⟩)⟩
    rw [hDrawn]
    omega

theorem renewalDelays_of_lt (hPos : 1 ≤ base.toNat) (hLt : base.toNat < ttl.toNat) : RenewalDelays base ttl where
  base_pos := hPos
  base_lt := hLt
  window := toNat_renewalWindow base ttl
  window_le := (renewalReach_lt hPos hLt).1
  starts := Nat.le_sub_of_add_le (Nat.add_comm _ _ ▸ (renewalReach_lt hPos hLt).2.1)
  expires := (renewalReach_lt hPos hLt).2.2
  steps trace delay hRuns := by
    obtain hNone | ⟨-, hSome⟩ := (runs_jitteredRenewal_iff hPos hLt).mp hRuns
    · exact .inl hNone
    · exact .inr hSome
  delays delay := exists_delay_iff hPos hLt

theorem RegistryAnnouncer.baseRenewal_lt {library : Library} (announcer : RegistryAnnouncer library) {ttl : UInt32}
    (hInterval : 1 ≤ announcer.renewalInterval.secs.toNat) (hTtl : 2 ≤ ttl.toNat) :
    1 ≤ (announcer.baseRenewal ttl).toNat ∧ (announcer.baseRenewal ttl).toNat < ttl.toUInt64.toNat := by
  have hTwo : (2 : UInt64).toNat = 2 := rfl
  have hOne : (1 : UInt64).toNat = 1 := rfl
  rw [RegistryAnnouncer.baseRenewal, Word64.toNat_min, Word64.toNat_max, UInt64.toNat_div, UInt32.toNat_toUInt64, hTwo, hOne]
  omega

/-- The next renewal comes before the record expires, in an interval around its base of a day to either side at most; a
record of one second is renewed after one. -/
theorem renewal_before_expiry {library : Library} (announcer : RegistryAnnouncer library) (ttl : UInt32)
    (hInterval : 1 ≤ announcer.renewalInterval.secs.toNat) :
    (2 ≤ ttl.toNat → RenewalDelays (announcer.baseRenewal ttl) ttl.toUInt64) ∧
    (ttl.toNat = 1 → ∀ delay : UInt64,
      (∃ trace, (jitteredRenewal (announcer.baseRenewal ttl) ttl.toUInt64).Runs trace delay) ↔ delay = 1) := by
  constructor
  · intro hTtl
    obtain ⟨hPos, hLt⟩ := announcer.baseRenewal_lt hInterval hTtl
    exact renewalDelays_of_lt hPos hLt
  · intro hTtl delay
    have hBase : announcer.baseRenewal ttl = 1 := by
      have hTwo : (2 : UInt64).toNat = 2 := rfl
      have hOne : (1 : UInt64).toNat = 1 := rfl
      rw [← UInt64.toNat_inj, RegistryAnnouncer.baseRenewal, Word64.toNat_min, Word64.toNat_max, UInt64.toNat_div,
        UInt32.toNat_toUInt64, hTwo, hOne]
      omega
    have hWindow : renewalWindow 1 ttl.toUInt64 = 0 := by
      rw [← UInt64.toNat_inj, toNat_renewalWindow]
      exact Nat.min_eq_zero_iff.mpr (.inl rfl)
    rw [hBase, jitteredRenewal, if_pos hWindow]
    simp

/-- A fortnight's interval and records of thirty days: between thirteen and fifteen days. -/
theorem renewal_before_expiry_fortnight :
    let announcer := { renewingAnnouncer with renewalInterval := ⟨14 * 86400, 0⟩ }
    (∀ delay : UInt64, (∃ trace, (jitteredRenewal (announcer.baseRenewal 2592000) 2592000).Runs trace delay) ↔
      13 * 86400 ≤ delay.toNat ∧ delay.toNat ≤ 15 * 86400) ∧
    ∀ delay : UInt64, (∃ trace, (jitteredRenewal (announcer.baseRenewal 1) 1).Runs trace delay) ↔ delay = 1 :=
  ⟨((renewal_before_expiry { renewingAnnouncer with renewalInterval := ⟨14 * 86400, 0⟩ } 2592000 (by decide)).1
      (by decide)).delays,
    (renewal_before_expiry { renewingAnnouncer with renewalInterval := ⟨14 * 86400, 0⟩ } 1 (by decide)).2 rfl⟩

end Renewal

section Backoff

variable {initial maximum base : Duration} {attempt : UInt32}

theorem toNat_one_shiftLeft {shift : UInt32} (h : shift.toNat ≤ 20) : ((1 : UInt32) <<< shift).toNat = 2 ^ shift.toNat := by
  have hPow : 2 ^ shift.toNat ≤ 2 ^ 20 := Nat.pow_le_pow_right (by decide) h
  have hMod : shift.toNat % 32 = shift.toNat := Nat.mod_eq_of_lt (by omega)
  have hOne : (1 : UInt32).toNat = 1 := rfl
  rw [UInt32.toNat_shiftLeft, hOne, hMod, Nat.one_shiftLeft]
  exact Nat.mod_eq_of_lt (hPow.trans_lt (by decide))

theorem toNat_min_twenty (attempt : UInt32) : (min attempt 20).toNat = min attempt.toNat 20 := by
  have hTwenty : (20 : UInt32).toNat = 20 := rfl
  change (if attempt ≤ 20 then attempt else 20).toNat = _
  split
  · rename_i h
    rw [UInt32.le_iff_toNat_le] at h
    omega
  · rename_i h
    rw [UInt32.le_iff_toNat_le] at h
    omega

theorem asNanos_shorter (first second : Duration) :
    (first.shorter second).asNanos = min first.asNanos second.asNanos := by
  rw [Duration.shorter]
  split <;> omega

/-- Doubled with each attempt, twenty times at most. -/
theorem asNanos_exponentialBackoff (initial maximum : Duration) (attempt : UInt32) :
    (exponentialBackoff initial maximum attempt).asNanos =
      min (initial.asNanos * 2 ^ min attempt.toNat 20) maximum.asNanos := by
  have hMaximum := maximum.asNanos_le
  have hFactor : ((1 : UInt32) <<< min attempt 20).toNat = 2 ^ min attempt.toNat 20 := by
    rw [toNat_one_shiftLeft (by rw [toNat_min_twenty]; omega), toNat_min_twenty]
  rw [exponentialBackoff, asNanos_shorter, Duration.saturatingMul, Duration.asNanos_ofNanos, hFactor]
  omega

/-- Stopping at twenty doublings makes no difference up to the twentieth attempt, where the cap is reached by then, and
where there is nothing to double. -/
theorem min_doubled_eq_iff {start cap doublings : Nat} :
    min (start * 2 ^ min doublings 20) cap = min (start * 2 ^ doublings) cap ↔
      doublings ≤ 20 ∨ cap ≤ start * 2 ^ 20 ∨ start = 0 := by
  by_cases hFew : doublings ≤ 20
  · rw [min_eq_left hFew]
    exact iff_of_true rfl (.inl hFew)
  have hTwenty : min doublings 20 = 20 := by omega
  have hPow : 2 ^ 20 < 2 ^ doublings := Nat.pow_lt_pow_right (by decide) (by omega)
  rw [hTwenty, or_iff_right hFew]
  obtain rfl | hStart := Nat.eq_zero_or_pos start
  · simp
  have hGrows : start * 2 ^ 20 < start * 2 ^ doublings := Nat.mul_lt_mul_of_pos_left hPow hStart
  generalize start * 2 ^ 20 = few at hGrows
  generalize start * 2 ^ doublings = many at hGrows
  omega

theorem runs_backoffWithJitter {trace : List (Event SupervisorIO)} {delay : Duration} :
    (backoffWithJitter initial maximum attempt).Runs trace delay ↔
      ∃ drawn : {drawn : UInt64 // drawn ≤ jitterWindow (exponentialBackoff initial maximum attempt)},
        trace = [⟨.randomRange (jitterWindow (exponentialBackoff initial maximum attempt)), drawn⟩] ∧
        delay = jittered (exponentialBackoff initial maximum attempt) drawn := by
  rw [backoffWithJitter, SupervisorIO.randomRange, Prog.runs_ask_bind]
  constructor
  · rintro ⟨drawn, rest, rfl, rfl, rfl⟩
    exact ⟨drawn, rfl, rfl⟩
  · rintro ⟨drawn, rfl, rfl⟩
    exact ⟨drawn, [], rfl, rfl, rfl⟩

/-- The backoff doubles up to its cap, in twenty doublings at most; what is drawn from it is at least half of it and at
most all of it, for any spans whatsoever. -/
theorem backoff_doubles_to_cap (initial maximum : Duration) (attempt : UInt32) :
    (exponentialBackoff initial maximum attempt).asNanos =
      min (initial.asNanos * 2 ^ min attempt.toNat 20) maximum.asNanos ∧
    (∀ later, attempt ≤ later →
      (exponentialBackoff initial maximum attempt).asNanos ≤ (exponentialBackoff initial maximum later).asNanos) ∧
    ((exponentialBackoff initial maximum attempt).asNanos = min (initial.asNanos * 2 ^ attempt.toNat) maximum.asNanos ↔
      attempt.toNat ≤ 20 ∨ maximum.asNanos ≤ initial.asNanos * 2 ^ 20 ∨ initial.asNanos = 0) ∧
    ((∃ enough, ∀ later, enough ≤ later → (exponentialBackoff initial maximum later).asNanos = maximum.asNanos) ↔
      maximum.asNanos ≤ initial.asNanos * 2 ^ 20) ∧
    ∀ trace delay, (backoffWithJitter initial maximum attempt).Runs trace delay →
      ∃ drawn, trace = [⟨.randomRange (jitterWindow (exponentialBackoff initial maximum attempt)), drawn⟩] ∧
        delay.asNanos = (exponentialBackoff initial maximum attempt).asNanos / 2 + drawn.val.toNat ∧
        delay.asNanos ≤ (exponentialBackoff initial maximum attempt).asNanos := by
  refine ⟨asNanos_exponentialBackoff .., fun later hLater => ?_, ?_, ?_, fun trace delay hRuns => ?_⟩
  · rw [UInt32.le_iff_toNat_le] at hLater
    have hPow : 2 ^ min attempt.toNat 20 ≤ 2 ^ min later.toNat 20 := Nat.pow_le_pow_right (by decide) (by omega)
    have hGrows := Nat.mul_le_mul_left initial.asNanos hPow
    rw [asNanos_exponentialBackoff, asNanos_exponentialBackoff]
    omega
  · rw [asNanos_exponentialBackoff]
    exact min_doubled_eq_iff
  · constructor
    · rintro ⟨enough, hEnough⟩
      have hLast := hEnough 0xffffffff (UInt32.le_iff_toNat_le.mpr (Nat.le_pred_of_lt enough.toNat_lt))
      have hTwenty : min (0xffffffff : UInt32).toNat 20 = 20 := by decide
      rw [asNanos_exponentialBackoff, hTwenty] at hLast
      omega
    · intro hCap
      refine ⟨20, fun later hLater => ?_⟩
      have hTwenty : min later.toNat 20 = 20 := min_eq_right (UInt32.le_iff_toNat_le.mp hLater)
      rw [asNanos_exponentialBackoff, hTwenty, min_eq_right hCap]
  · obtain ⟨drawn, rfl, rfl⟩ := runs_backoffWithJitter.mp hRuns
    exact ⟨drawn, rfl, (asNanos_jittered _ drawn.property).1, (jittered_mem _ drawn.property).2⟩

/-- From a millisecond, twenty doublings come to 1048.576 seconds, and a cap of an hour is never reached. -/
theorem backoff_misses_cap :
    (exponentialBackoff ⟨0, 1000000⟩ ⟨3600, 0⟩ 30).asNanos = 1048576000000 ∧
    min (Duration.asNanos ⟨0, 1000000⟩ * 2 ^ 30) (Duration.asNanos ⟨3600, 0⟩) = 3600000000000 ∧
    ∀ later, 20 ≤ later → (exponentialBackoff ⟨0, 1000000⟩ ⟨3600, 0⟩ later).asNanos ≠ Duration.asNanos ⟨3600, 0⟩ := by
  refine ⟨by decide, by decide, fun later hLater => ?_⟩
  have hTwenty : min later.toNat 20 = 20 := min_eq_right (UInt32.le_iff_toNat_le.mp hLater)
  rw [asNanos_exponentialBackoff, hTwenty]
  decide

end Backoff

end Resurrect.Node
