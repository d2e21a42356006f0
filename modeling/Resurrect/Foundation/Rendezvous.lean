import Resurrect.Foundation.AssocMap
import Mathlib.Data.Multiset.Count
import Mathlib.Data.Multiset.AddSub
import Mathlib.Data.Finset.Dedup
import Mathlib.Tactic.TypeStar

/-! # Tickets waiting for keys

A board holds the keys that are present and, for every key, the tickets that
wait for it. A ticket is refused, confirmed or left to wait; a key that becomes
present releases its tickets with success, a failure without. What is published
about the present keys follows every change of them. `Consistent` is kept by
every step: nobody waits for a present key, and each ticket is answered exactly
once, waits once under its own key, or was pruned after its holder departed.
-/

namespace Resurrect.Rendezvous

variable {κ ω π : Type*}

structure Answer (κ ω π : Type*) where
  ticket : ω
  success : Bool
  present : Finset κ
  published : π

structure Board (κ ω π : Type*) where
  present : Finset κ
  published : π
  waiters : AList fun _ : κ => List ω
  taken : List (ω × Option κ)
  answers : List (Answer κ ω π)
  departed : Finset ω
  pruned : Finset ω

namespace Board

def take (self : Board κ ω π) (ticket : ω) (own : Option κ) : Board κ ω π :=
  { self with taken := self.taken ++ [(ticket, own)] }

def answer (self : Board κ ω π) (tickets : List ω) (success : Bool) : Board κ ω π :=
  { self with answers := self.answers ++
      tickets.map fun ticket => ⟨ticket, success, self.present, self.published⟩ }

def publish (self : Board κ ω π) (present : Finset κ) (published : π) : Board κ ω π :=
  { self with present, published }

theorem map_ticket (present : Finset κ) (published : π) (tickets : List ω) (success : Bool) :
    (tickets.map fun t => Answer.mk t success present published).map Answer.ticket = tickets := by
  rw [List.map_map]
  exact List.map_id _

/-- All tickets that wait, under any key. -/
def held (self : Board κ ω π) : List ω := self.waiters.entries.flatMap fun entry => entry.2

/-- The keys that are waited for, once for every ticket. -/
def awaited (self : Board κ ω π) : List κ :=
  self.waiters.entries.flatMap fun entry => entry.2.map fun _ => entry.1

theorem length_awaited (self : Board κ ω π) : self.awaited.length = self.held.length := by
  simp only [awaited, held, List.length_flatMap, List.length_map]

section Keys

variable [DecidableEq κ]

def waiting (self : Board κ ω π) (key : κ) : List ω := (self.waiters.lookup key).getD []

def wait (self : Board κ ω π) (ticket : ω) (key : κ) : Board κ ω π :=
  { self with waiters := self.waiters.insert key (self.waiting key ++ [ticket]) }

def release (self : Board κ ω π) (key : κ) (success : Bool) : Board κ ω π :=
  { self.answer (self.waiting key) success with waiters := self.waiters.erase key }

theorem waiting_wait (self : Board κ ω π) (ticket : ω) (key other : κ) : (self.wait ticket key).waiting other =
    if other = key then self.waiting key ++ [ticket] else self.waiting other := by
  rw [waiting, wait]
  split
  · rename_i hEq
    rw [hEq, AList.lookup_insert, Option.getD_some]
  · rename_i hNe
    rw [AList.lookup_insert_ne hNe, waiting]

theorem waiting_release (self : Board κ ω π) (key : κ) (success : Bool) (other : κ) :
    (self.release key success).waiting other = if other = key then [] else self.waiting other := by
  rw [waiting, release]
  split
  · rename_i hEq
    rw [hEq, AList.lookup_erase, Option.getD_none]
  · rename_i hNe
    rw [AList.lookup_erase_ne hNe, waiting]

theorem mem_held {self : Board κ ω π} {ticket : ω} : ticket ∈ self.held ↔ ∃ key, ticket ∈ self.waiting key := by
  rw [held, List.mem_flatMap]
  constructor
  · rintro ⟨⟨key, tickets⟩, hEntry, hMem⟩
    refine ⟨key, ?_⟩
    rw [waiting, AList.mem_lookup_iff.mpr hEntry, Option.getD_some]
    exact hMem
  · rintro ⟨key, hMem⟩
    rw [waiting] at hMem
    cases hLookup : self.waiters.lookup key with
    | none =>
      rw [hLookup] at hMem
      cases hMem
    | some tickets =>
      rw [hLookup] at hMem
      exact ⟨⟨key, tickets⟩, AList.mem_lookup_iff.mp hLookup, hMem⟩

theorem held_wait {self : Board κ ω π} {ticket other : ω} {key : κ} (h : other ∈ (self.wait ticket key).held) :
    other ∈ self.held ∨ other = ticket := by
  obtain ⟨own, hMem⟩ := mem_held.mp h
  rw [waiting_wait] at hMem
  split at hMem
  · obtain hMem | hMem := List.mem_append.mp hMem
    · exact .inl (mem_held.mpr ⟨key, hMem⟩)
    · exact .inr (List.mem_singleton.mp hMem)
  · exact .inl (mem_held.mpr ⟨own, hMem⟩)

theorem count_entries {entries : List (Sigma fun _ : κ => List ω)} (hKeys : entries.NodupKeys) (key : κ) :
    (entries.flatMap fun entry => entry.2.map fun _ => entry.1).count key =
      ((entries.dlookup key).getD []).length := by
  induction entries with
  | nil => rfl
  | cons entry entries ih =>
    obtain ⟨other, tickets⟩ := entry
    rw [List.nodupKeys_cons] at hKeys
    rw [List.flatMap_cons, List.count_append, ih hKeys.2, List.map_const', List.count_replicate]
    by_cases hEq : other = key
    · subst hEq
      rw [List.dlookup_cons_eq, List.dlookup_eq_none.mpr hKeys.1, beq_self_eq_true, if_pos rfl]
      rfl
    · rw [List.dlookup_cons_ne _ _ (Ne.symm hEq), beq_false_of_ne hEq, if_neg Bool.false_ne_true, Nat.zero_add]

theorem count_awaited (self : Board κ ω π) (key : κ) : self.awaited.count key = (self.waiting key).length :=
  count_entries self.waiters.nodupKeys key

theorem awaited_wait (self : Board κ ω π) (ticket : ω) (key : κ) :
    (self.wait ticket key).awaited.Perm (self.awaited ++ [key]) := by
  apply List.perm_iff_count.mpr
  intro other
  rw [List.count_append, count_awaited, count_awaited, waiting_wait, List.count_singleton]
  by_cases hEq : other = key
  · rw [if_pos hEq, if_pos (beq_iff_eq.mpr hEq.symm), hEq, List.length_append]
    rfl
  · rw [if_neg hEq, if_neg fun h => hEq (beq_iff_eq.mp h).symm]
    rfl

theorem awaited_release (self : Board κ ω π) (key : κ) (success : Bool) :
    (self.release key success).awaited.Perm (self.awaited.filter (· ≠ key)) := by
  apply List.perm_iff_count.mpr
  intro other
  rw [count_awaited, waiting_release]
  by_cases hEq : other = key
  · have hGone : key ∉ self.awaited.filter (· ≠ key) := by simp
    rw [if_pos hEq, hEq, List.count_eq_zero.mpr hGone]
    rfl
  · have hKept : (self.awaited.filter (· ≠ key)).count other = self.awaited.count other :=
      List.count_filter (decide_eq_true hEq)
    rw [if_neg hEq, hKept, count_awaited]

theorem notMem_awaited {self : Board κ ω π} {key : κ} (hNone : key ∉ self.waiters) : key ∉ self.awaited := by
  rw [← List.count_eq_zero, count_awaited, waiting, AList.lookup_eq_none.mpr hNone]
  rfl

end Keys

section Tickets

variable [DecidableEq ω]

def depart (self : Board κ ω π) (ticket : ω) : Board κ ω π :=
  { self with departed := insert ticket self.departed }

def answered (self : Board κ ω π) (ticket : ω) : Nat := (self.answers.map Answer.ticket).count ticket

theorem answered_answer (self : Board κ ω π) (tickets : List ω) (success : Bool) (ticket : ω) :
    (self.answer tickets success).answered ticket = self.answered ticket + tickets.count ticket := by
  rw [answered, answer, List.map_append, map_ticket, List.count_append]
  rfl

/-- The tickets of a key whose holders are still there, if there are any. -/
def remaining (departed : Finset ω) (tickets : List ω) : Option (List ω) :=
  match tickets.filter fun ticket => ticket ∉ departed with
  | [] => none
  | kept => some kept

theorem getD_remaining (departed : Finset ω) (tickets : List ω) :
    (remaining departed tickets).getD [] = tickets.filter fun ticket => ticket ∉ departed := by
  rw [remaining]
  split
  · rename_i hNil
    rw [hNil, Option.getD_none]
  · rw [Option.getD_some]

theorem remaining_ne_nil {departed : Finset ω} {tickets kept : List ω}
    (h : remaining departed tickets = some kept) : kept ≠ [] := by
  rw [remaining] at h
  split at h
  · cases h
  · rename_i hNe
    rw [← Option.some.inj h]
    exact hNe

/-- The tickets that are dropped when those of departed holders are. -/
def dropped (self : Board κ ω π) : Finset ω := self.held.toFinset.filter (· ∈ self.departed)

variable [DecidableEq κ]

def prune (self : Board κ ω π) : Board κ ω π :=
  { self with
    waiters := AssocMap.mapMaybe self.waiters (remaining self.departed)
    pruned := self.pruned ∪ self.dropped }

theorem waiting_prune (self : Board κ ω π) (key : κ) :
    self.prune.waiting key = (self.waiting key).filter fun ticket => ticket ∉ self.departed := by
  rw [waiting, prune, AssocMap.lookup_mapMaybe, waiting]
  cases self.waiters.lookup key with
  | none => rfl
  | some tickets => exact getD_remaining self.departed tickets

theorem held_prune {self : Board κ ω π} {ticket : ω} (h : ticket ∈ self.prune.held) :
    ticket ∈ self.held ∧ ticket ∉ self.departed := by
  obtain ⟨key, hMem⟩ := mem_held.mp h
  rw [waiting_prune, List.mem_filter] at hMem
  exact ⟨mem_held.mpr ⟨key, hMem.1⟩, of_decide_eq_true hMem.2⟩

theorem mem_dropped {self : Board κ ω π} {ticket : ω} :
    ticket ∈ self.dropped ↔ ticket ∈ self.departed ∧ ∃ key, ticket ∈ self.waiting key := by
  rw [dropped, Finset.mem_filter, List.mem_toFinset, mem_held, and_comm]

def waits (self : Board κ ω π) (ticket : ω) (own : Option κ) : Nat :=
  (own.elim [] self.waiting).count ticket

end Tickets

end Board

section Fresh

variable {board : Board κ ω π} {ticket : ω} {own : Option κ}

theorem mem_answer {tickets : List ω} {success : Bool} {answer : Answer κ ω π}
    (hMem : answer ∈ (board.answer tickets success).answers) :
    answer ∈ board.answers ∨ answer.ticket ∈ tickets ∧ answer.success = success ∧
      answer.present = board.present ∧ answer.published = board.published := by
  obtain hMem | hMem := List.mem_append.mp hMem
  · exact .inl hMem
  · obtain ⟨other, hOther, rfl⟩ := List.mem_map.mp hMem
    exact .inr ⟨hOther, rfl, rfl, rfl⟩

theorem ne_of_fresh {request : ω × Option κ} (hFresh : ticket ∉ board.taken.map Prod.fst)
    (hTaken : request ∈ board.taken) : request.1 ≠ ticket :=
  fun hEq => hFresh (hEq ▸ List.mem_map_of_mem hTaken)

theorem mem_take {other : ω} (hTaken : other ∈ board.taken.map Prod.fst) :
    other ∈ (board.take ticket own).taken.map Prod.fst := by
  rw [Board.take, List.map_append]
  exact List.mem_append_left _ hTaken

theorem self_mem_take : ticket ∈ (board.take ticket own).taken.map Prod.fst := by
  rw [Board.take, List.map_append]
  exact List.mem_append_right _ (List.mem_singleton.mpr rfl)

end Fresh

section Consistency

variable [DecidableEq κ] [DecidableEq ω]

structure Consistent (shown : π → Finset κ → Prop) (board : Board κ ω π) : Prop where
  shown_present : shown board.published board.present
  disjoint : ∀ key ∈ board.present, key ∉ board.waiters
  nonempty : ∀ key tickets, board.waiters.lookup key = some tickets → tickets ≠ []
  fresh : (board.taken.map Prod.fst).Nodup
  own : ∀ key, ∀ ticket ∈ board.waiting key, (ticket, some key) ∈ board.taken
  answered_taken : ∀ answer ∈ board.answers, answer.ticket ∈ board.taken.map Prod.fst
  pruned_taken : ∀ ticket ∈ board.pruned, ticket ∈ board.taken.map Prod.fst
  pruned_departed : board.pruned ⊆ board.departed
  accounted : ∀ request ∈ board.taken, board.answered request.1 + board.waits request.1 request.2 +
    (if request.1 ∈ board.pruned then 1 else 0) = 1
  confirmed : ∀ answer ∈ board.answers, answer.success = true →
    ∃ key ∈ answer.present, (answer.ticket, some key) ∈ board.taken ∧ shown answer.published answer.present

variable {shown : π → Finset κ → Prop} {board : Board κ ω π} {ticket : ω} {key : κ} {own : Option κ}

theorem answered_eq_zero (h : Consistent shown board) (hFresh : ticket ∉ board.taken.map Prod.fst) :
    board.answered ticket = 0 := by
  apply List.count_eq_zero.mpr
  intro hMem
  obtain ⟨answer, hAnswer, rfl⟩ := List.mem_map.mp hMem
  exact hFresh (h.answered_taken answer hAnswer)

theorem not_waiting (h : Consistent shown board) (hFresh : ticket ∉ board.taken.map Prod.fst) (key : κ) :
    ticket ∉ board.waiting key :=
  fun hMem => hFresh (List.mem_map_of_mem (h.own key ticket hMem))

theorem waits_eq_zero (hNot : ∀ key, ticket ∉ board.waiting key) (own : Option κ) : board.waits ticket own = 0 := by
  apply List.count_eq_zero.mpr
  cases own with
  | none => exact List.not_mem_nil
  | some key => exact hNot key

/-- A ticket waits under its own key only. -/
theorem own_eq (h : Consistent shown board) (hTaken : (ticket, own) ∈ board.taken)
    (hWaits : ticket ∈ board.waiting key) : own = some key := by
  have hPair := List.inj_on_of_nodup_map h.fresh hTaken (h.own key ticket hWaits) rfl
  exact congrArg Prod.snd hPair

theorem nodup_take (h : Consistent shown board) (hFresh : ticket ∉ board.taken.map Prod.fst) :
    ((board.take ticket own).taken.map Prod.fst).Nodup := by
  rw [Board.take, List.map_append, List.map_singleton]
  exact List.Nodup.append h.fresh (List.nodup_singleton _) (List.disjoint_singleton.mpr hFresh)

/-- A fresh ticket that is answered at once. -/
theorem Consistent.answer_fresh (h : Consistent shown board) (hFresh : ticket ∉ board.taken.map Prod.fst)
    {success : Bool} (hSuccess : success = true → ∃ key ∈ board.present, own = some key) :
    Consistent shown ((board.take ticket own).answer [ticket] success) where
  shown_present := h.shown_present
  disjoint := h.disjoint
  nonempty := h.nonempty
  fresh := nodup_take h hFresh
  own key other hMem := List.mem_append_left _ (h.own key other hMem)
  answered_taken answer hMem := by
    obtain hMem | ⟨hTicket, -⟩ := mem_answer hMem
    · exact mem_take (h.answered_taken answer hMem)
    · rw [List.mem_singleton.mp hTicket]
      exact self_mem_take
  pruned_taken other hMem := mem_take (h.pruned_taken other hMem)
  pruned_departed := h.pruned_departed
  accounted request hMem := by
    rw [Board.answered_answer]
    obtain hMem | hMem := List.mem_append.mp hMem
    · rw [List.count_eq_zero.mpr fun hEq => ne_of_fresh hFresh hMem (List.mem_singleton.mp hEq)]
      exact h.accounted request hMem
    · obtain rfl := List.mem_singleton.mp hMem
      have hAnswered : (board.take ticket own).answered ticket = 0 :=
        show board.answered ticket = 0 from answered_eq_zero h hFresh
      have hWaits : ((board.take ticket own).answer [ticket] success).waits ticket own = 0 :=
        waits_eq_zero (not_waiting h hFresh) own
      have hPruned : ticket ∉ ((board.take ticket own).answer [ticket] success).pruned :=
        fun hPruned => hFresh (h.pruned_taken ticket hPruned)
      rw [hAnswered, hWaits, if_neg hPruned, List.count_singleton_self]
  confirmed answer hMem hTrue := by
    obtain hMem | ⟨hTicket, hEq, hPresent, hPublished⟩ := mem_answer hMem
    · obtain ⟨key, hKey, hTaken, hShown⟩ := h.confirmed answer hMem hTrue
      exact ⟨key, hKey, List.mem_append_left _ hTaken, hShown⟩
    · obtain ⟨key, hKey, rfl⟩ := hSuccess (hEq.symm.trans hTrue)
      rw [hPresent, hPublished, List.mem_singleton.mp hTicket]
      exact ⟨key, hKey, List.mem_append_right _ (List.mem_singleton.mpr rfl), h.shown_present⟩

theorem Consistent.publish (h : Consistent shown board) {present : Finset κ} {published : π}
    (hShown : shown published present) (hDisjoint : ∀ key ∈ present, key ∉ board.waiters) :
    Consistent shown (board.publish present published) where
  shown_present := hShown
  disjoint := hDisjoint
  nonempty := h.nonempty
  fresh := h.fresh
  own := h.own
  answered_taken := h.answered_taken
  pruned_taken := h.pruned_taken
  pruned_departed := h.pruned_departed
  accounted := h.accounted
  confirmed := h.confirmed

theorem Consistent.depart (h : Consistent shown board) (ticket : ω) : Consistent shown (board.depart ticket) where
  shown_present := h.shown_present
  disjoint := h.disjoint
  nonempty := h.nonempty
  fresh := h.fresh
  own := h.own
  answered_taken := h.answered_taken
  pruned_taken := h.pruned_taken
  pruned_departed := h.pruned_departed.trans (Finset.subset_insert ticket board.departed)
  accounted := h.accounted
  confirmed := h.confirmed

theorem Consistent.prune (h : Consistent shown board) : Consistent shown board.prune where
  shown_present := h.shown_present
  disjoint key hKey := by
    have hNone := AList.lookup_eq_none.mpr (h.disjoint key hKey)
    rw [← AList.lookup_eq_none, Board.prune, AssocMap.lookup_mapMaybe, hNone, Option.bind_none]
  nonempty key tickets hLookup := by
    rw [Board.prune, AssocMap.lookup_mapMaybe] at hLookup
    obtain ⟨held, -, hKept⟩ := Option.bind_eq_some_iff.mp hLookup
    exact Board.remaining_ne_nil hKept
  fresh := h.fresh
  own key ticket hMem := by
    rw [Board.waiting_prune] at hMem
    exact h.own key ticket (List.mem_of_mem_filter hMem)
  answered_taken := h.answered_taken
  pruned_taken ticket hMem := by
    obtain hMem | hMem := Finset.mem_union.mp hMem
    · exact h.pruned_taken ticket hMem
    · obtain ⟨-, key, hWaits⟩ := Board.mem_dropped.mp hMem
      exact List.mem_map_of_mem (h.own key ticket hWaits)
  pruned_departed := Finset.union_subset h.pruned_departed fun ticket hMem => (Board.mem_dropped.mp hMem).1
  accounted := by
    rintro ⟨ticket, own⟩ hTaken
    have hOne := h.accounted _ hTaken
    by_cases hMem : ticket ∈ board.dropped
    · obtain ⟨hDeparted, key, hWaits⟩ := Board.mem_dropped.mp hMem
      obtain rfl := own_eq h hTaken hWaits
      have hPos : 0 < board.waits ticket (some key) := List.count_pos_iff.mpr hWaits
      have hGone : board.prune.waits ticket (some key) = 0 := by
        apply List.count_eq_zero.mpr
        rw [Option.elim_some, Board.waiting_prune]
        intro hKept
        exact of_decide_eq_true (List.mem_filter.mp hKept).2 hDeparted
      have hPruned : ticket ∈ board.prune.pruned := Finset.mem_union_right _ hMem
      rw [hGone, if_pos hPruned]
      change board.answered ticket + 0 + 1 = 1
      dsimp only at hOne
      omega
    · have hKept : board.prune.waits ticket own = board.waits ticket own := by
        cases own with
        | none => rfl
        | some key =>
          rw [Board.waits, Board.waits, Option.elim_some, Option.elim_some, Board.waiting_prune]
          by_cases hDeparted : ticket ∈ board.departed
          · have hNot : ticket ∉ board.waiting key := fun hWaits =>
              hMem (Board.mem_dropped.mpr ⟨hDeparted, key, hWaits⟩)
            rw [List.count_eq_zero.mpr hNot, List.count_eq_zero.mpr fun h => hNot (List.mem_of_mem_filter h)]
          · exact List.count_filter (decide_eq_true hDeparted)
      have hPruned : ticket ∈ board.prune.pruned ↔ ticket ∈ board.pruned := by
        rw [Board.prune, Finset.mem_union, or_iff_left hMem]
      rw [hKept, if_congr hPruned rfl rfl]
      exact hOne
  confirmed := h.confirmed

theorem Consistent.wait_fresh (h : Consistent shown board) (hFresh : ticket ∉ board.taken.map Prod.fst)
    (hAbsent : key ∉ board.present) : Consistent shown ((board.take ticket (some key)).wait ticket key) where
  shown_present := h.shown_present
  disjoint other hOther hMem := by
    obtain hEq | hMem := AList.mem_insert _ |>.mp hMem
    · exact hAbsent (hEq ▸ hOther)
    · exact h.disjoint other hOther hMem
  nonempty other tickets hLookup := by
    by_cases hEq : other = key
    · rw [hEq, Board.wait, AList.lookup_insert] at hLookup
      rw [← Option.some.inj hLookup]
      exact List.append_ne_nil_of_right_ne_nil _ (List.cons_ne_nil _ _)
    · rw [Board.wait, AList.lookup_insert_ne hEq] at hLookup
      exact h.nonempty other tickets hLookup
  fresh := nodup_take h hFresh
  own other waiter hMem := by
    rw [Board.waiting_wait] at hMem
    split at hMem
    · rename_i hEq
      rw [hEq]
      obtain hMem | hMem := List.mem_append.mp hMem
      · exact List.mem_append_left _ (h.own key waiter hMem)
      · rw [List.mem_singleton.mp hMem]
        exact List.mem_append_right _ (List.mem_singleton.mpr rfl)
    · exact List.mem_append_left _ (h.own other waiter hMem)
  answered_taken answer hMem := mem_take (h.answered_taken answer hMem)
  pruned_taken other hMem := mem_take (h.pruned_taken other hMem)
  pruned_departed := h.pruned_departed
  accounted := by
    have hWaits : ∀ (other : ω) (own : Option κ),
        ((board.take ticket (some key)).wait ticket key).waits other own =
          board.waits other own + if own = some key then [ticket].count other else 0 := by
      intro other own
      cases own with
      | none => rfl
      | some own =>
        rw [Board.waits, Option.elim_some, Board.waiting_wait]
        by_cases hEq : own = key
        · rw [if_pos hEq, if_pos (congrArg some hEq), hEq, List.count_append]
          rfl
        · rw [if_neg hEq, if_neg fun h => hEq (Option.some.inj h)]
          rfl
    rintro ⟨other, own⟩ hMem
    rw [hWaits]
    obtain hMem | hMem := List.mem_append.mp hMem
    · have hOther : [ticket].count other = 0 :=
        List.count_eq_zero.mpr fun hEq => ne_of_fresh hFresh hMem (List.mem_singleton.mp hEq)
      rw [hOther, ite_self]
      exact h.accounted _ hMem
    · obtain ⟨rfl, rfl⟩ := Prod.mk.inj (List.mem_singleton.mp hMem)
      have hAnswered : ((board.take other (some key)).wait other key).answered other = 0 :=
        show board.answered other = 0 from answered_eq_zero h hFresh
      have hPruned : other ∉ ((board.take other (some key)).wait other key).pruned :=
        fun hPruned => hFresh (h.pruned_taken other hPruned)
      rw [hAnswered, waits_eq_zero (not_waiting h hFresh), if_neg hPruned, if_pos rfl,
        List.count_singleton_self]
  confirmed answer hMem hTrue := by
    obtain ⟨key, hKey, hTaken, hShown⟩ := h.confirmed answer hMem hTrue
    exact ⟨key, hKey, List.mem_append_left _ hTaken, hShown⟩

/-- All tickets of a key are answered; with success only while it is present. -/
theorem Consistent.release (h : Consistent shown board) {present : Finset κ} {published : π} {success : Bool}
    (hShown : shown published present) (hDisjoint : ∀ other ∈ present, other ≠ key → other ∉ board.waiters)
    (hSuccess : success = true → key ∈ present) :
    Consistent shown ((board.publish present published).release key success) where
  shown_present := hShown
  disjoint other hOther hMem := by
    obtain ⟨hNe, hMem⟩ := AList.mem_erase.mp hMem
    exact hDisjoint other hOther hNe hMem
  nonempty other tickets hLookup := by
    by_cases hEq : other = key
    · rw [hEq, Board.release, AList.lookup_erase] at hLookup
      cases hLookup
    · rw [Board.release, AList.lookup_erase_ne hEq] at hLookup
      exact h.nonempty other tickets hLookup
  fresh := h.fresh
  own other waiter hMem := by
    rw [Board.waiting_release] at hMem
    split at hMem
    · cases hMem
    · exact h.own other waiter hMem
  answered_taken answer hMem := by
    obtain hMem | ⟨hTicket, -⟩ := mem_answer hMem
    · exact h.answered_taken answer hMem
    · exact List.mem_map_of_mem (h.own key _ hTicket)
  pruned_taken := h.pruned_taken
  pruned_departed := h.pruned_departed
  accounted := by
    rintro ⟨ticket, own⟩ hTaken
    have hOne := h.accounted _ hTaken
    have hAnswered : ((board.publish present published).release key success).answered ticket =
        board.answered ticket + (board.waiting key).count ticket :=
      Board.answered_answer (board.publish present published) (board.waiting key) success ticket
    have hWaits : (board.waiting key).count ticket +
        ((board.publish present published).release key success).waits ticket own = board.waits ticket own := by
      by_cases hEq : own = some key
      · rw [hEq, Board.waits, Option.elim_some, Board.waiting_release, if_pos rfl]
        rfl
      · have hNot : (board.waiting key).count ticket = 0 :=
          List.count_eq_zero.mpr fun hMem => hEq (own_eq h hTaken hMem)
        rw [hNot, Nat.zero_add]
        cases own with
        | none => rfl
        | some other =>
          rw [Board.waits, Option.elim_some, Board.waiting_release, if_neg fun h => hEq (congrArg some h)]
          rfl
    rw [← hWaits, ← Nat.add_assoc] at hOne
    rw [hAnswered]
    exact hOne
  confirmed answer hMem hTrue := by
    obtain hMem | ⟨hTicket, hEq, hPresent, hPublished⟩ := mem_answer hMem
    · exact h.confirmed answer hMem hTrue
    · rw [hPresent, hPublished]
      exact ⟨key, hSuccess (hEq.symm.trans hTrue), h.own key _ hTicket, hShown⟩

theorem waits_le_one (h : Consistent shown board) (key : κ) (ticket : ω) :
    (board.waiting key).count ticket ≤ 1 := by
  by_cases hMem : ticket ∈ board.waiting key
  · have hOne := h.accounted _ (h.own key ticket hMem)
    have hWaits : board.waits ticket (some key) = (board.waiting key).count ticket := rfl
    rw [hWaits] at hOne
    omega
  · rw [List.count_eq_zero.mpr hMem]
    exact Nat.zero_le 1

theorem nodup_held (h : Consistent shown board) : board.held.Nodup := by
  have hWaiting : ∀ entry ∈ board.waiters.entries, board.waiting entry.1 = entry.2 := by
    rintro ⟨key, tickets⟩ hEntry
    rw [Board.waiting, AList.mem_lookup_iff.mpr hEntry, Option.getD_some]
  rw [Board.held, List.nodup_flatMap]
  constructor
  · intro entry hEntry
    rw [← hWaiting entry hEntry, List.nodup_iff_count_le_one]
    exact waits_le_one h entry.1
  · apply (List.nodupKeys_iff_pairwise.mp board.waiters.nodupKeys).imp_of_mem
    intro left right hLeft hRight hNe ticket hMemLeft hMemRight
    have hWaitsLeft : ticket ∈ board.waiting left.1 := (hWaiting left hLeft).symm ▸ hMemLeft
    have hWaitsRight : ticket ∈ board.waiting right.1 := (hWaiting right hRight).symm ▸ hMemRight
    exact hNe (Option.some.inj (own_eq h (h.own left.1 ticket hWaitsLeft) hWaitsRight))

/-- The tickets that wait are those taken and neither answered nor pruned. -/
theorem held_perm (h : Consistent shown board) :
    board.held.Perm ((board.taken.map Prod.fst).filter fun ticket =>
      board.answered ticket = 0 ∧ ticket ∉ board.pruned) := by
  apply (List.perm_ext_iff_of_nodup (nodup_held h) (h.fresh.filter _)).mpr
  intro ticket
  rw [Board.mem_held, List.mem_filter, decide_eq_true_iff]
  constructor
  · rintro ⟨key, hMem⟩
    have hTaken := h.own key ticket hMem
    have hOne := h.accounted _ hTaken
    have hPos : 0 < board.waits ticket (some key) := List.count_pos_iff.mpr hMem
    dsimp only at hOne
    refine ⟨List.mem_map_of_mem hTaken, by omega, fun hPruned => ?_⟩
    rw [if_pos hPruned] at hOne
    omega
  · rintro ⟨hTaken, hUnanswered, hKept⟩
    obtain ⟨⟨other, own⟩, hRequest, rfl⟩ := List.mem_map.mp hTaken
    have hOne := h.accounted _ hRequest
    dsimp only at hOne hUnanswered hKept
    rw [hUnanswered, if_neg hKept] at hOne
    have hPos : 0 < board.waits other own := by omega
    cases own with
    | none => cases hPos
    | some key => exact ⟨key, List.count_pos_iff.mp hPos⟩

theorem not_held_of_answered (h : Consistent shown board) {answer : Answer κ ω π} (hMem : answer ∈ board.answers) :
    answer.ticket ∉ board.held := by
  intro hHeld
  have hUnanswered := (List.mem_filter.mp ((held_perm h).subset hHeld)).2
  rw [decide_eq_true_iff] at hUnanswered
  exact List.count_eq_zero.mp hUnanswered.1 (List.mem_map_of_mem hMem)

/-- One event, under a relation saying when what is published shows the present keys. -/
inductive Step (shown : π → Finset κ → Prop) (board : Board κ ω π) : Board κ ω π → Prop
  | refuse {ticket : ω} {own : Option κ} (hFresh : ticket ∉ board.taken.map Prod.fst) :
      Step shown board ((board.take ticket own).answer [ticket] false)
  | confirm {ticket : ω} {key : κ} (hFresh : ticket ∉ board.taken.map Prod.fst) (hPresent : key ∈ board.present) :
      Step shown board ((board.take ticket (some key)).answer [ticket] true)
  | wait {ticket : ω} {key : κ} (hFresh : ticket ∉ board.taken.map Prod.fst) (hAbsent : key ∉ board.present) :
      Step shown board ((board.take ticket (some key)).wait ticket key)
  | enter {key : κ} {published : π} (hShown : shown published (insert key board.present)) :
      Step shown board ((board.publish (insert key board.present) published).release key true)
  | leave {key : κ} {published : π} (hShown : shown published (board.present.erase key)) :
      Step shown board (board.publish (board.present.erase key) published)
  | republish {published : π} (hShown : shown published board.present) :
      Step shown board (board.publish board.present published)
  | fail {key : κ} : Step shown board (board.release key false)
  | depart {ticket : ω} : Step shown board (board.depart ticket)
  | prune : Step shown board board.prune

theorem Step.consistent {next : Board κ ω π} (hStep : Step shown board next) (h : Consistent shown board) :
    Consistent shown next := by
  cases hStep with
  | refuse hFresh => exact h.answer_fresh hFresh (fun hFalse => by cases hFalse)
  | confirm hFresh hPresent => exact h.answer_fresh hFresh fun _ => ⟨_, hPresent, rfl⟩
  | wait hFresh hAbsent => exact h.wait_fresh hFresh hAbsent
  | @enter key _ hShown =>
    apply h.release hShown
    · intro other hOther hNe
      exact h.disjoint other (Finset.mem_of_mem_insert_of_ne hOther hNe)
    · exact fun _ => Finset.mem_insert_self key board.present
  | leave hShown => exact h.publish hShown fun key hKey => h.disjoint key (Finset.mem_of_mem_erase hKey)
  | republish hShown => exact h.publish hShown h.disjoint
  | fail => exact h.release h.shown_present (fun other hOther _ => h.disjoint other hOther) (fun hFalse => by cases hFalse)
  | depart => exact h.depart _
  | prune => exact h.prune

end Consistency

section Links

/-- A link to a key opens, or closes and leaves so many others to that key. -/
inductive LinkEvent (κ : Type*) where
  | opened (key : κ)
  | closed (key : κ) (remaining : Nat)

variable [DecidableEq κ]

def LinkEvent.links (links : Multiset κ) : LinkEvent κ → Multiset κ
  | .opened key => key ::ₘ links
  | .closed key _ => links.erase key

def LinkEvent.present (present : Finset κ) : LinkEvent κ → Finset κ
  | .opened key => insert key present
  | .closed key remaining => if remaining = 0 then present.erase key else present

/-- The open links, one entry for each. -/
def openLinks (events : List (LinkEvent κ)) : Multiset κ := events.foldl LinkEvent.links 0

def presentKeys (events : List (LinkEvent κ)) : Finset κ := events.foldl LinkEvent.present ∅

/-- Every closing tells how many links to its key remain. -/
def TrueCounts : Multiset κ → List (LinkEvent κ) → Prop
  | _, [] => True
  | links, .opened key :: events => TrueCounts (key ::ₘ links) events
  | links, .closed key remaining :: events =>
    remaining = (links.erase key).count key ∧ TrueCounts (links.erase key) events

/-- Closing one of several links keeps the key, closing its last one removes it. -/
theorem toFinset_close (links : Multiset κ) (key : κ) : (links.erase key).toFinset =
    if (links.erase key).count key = 0 then links.toFinset.erase key else links.toFinset := by
  ext other
  rw [Multiset.mem_toFinset]
  split
  · rename_i hZero
    rw [Finset.mem_erase, Multiset.mem_toFinset]
    constructor
    · intro hOther
      exact ⟨fun hEq => Multiset.count_eq_zero.mp hZero (hEq ▸ hOther), Multiset.mem_of_mem_erase hOther⟩
    · rintro ⟨hNe, hOther⟩
      exact (Multiset.mem_erase_of_ne hNe).mpr hOther
  · rename_i hMore
    rw [Multiset.mem_toFinset]
    constructor
    · exact Multiset.mem_of_mem_erase
    · intro hOther
      by_cases hEq : other = key
      · rw [hEq]
        exact Multiset.count_pos.mp (Nat.pos_of_ne_zero hMore)
      · exact (Multiset.mem_erase_of_ne hEq).mpr hOther

theorem foldl_present {links : Multiset κ} {events : List (LinkEvent κ)} (h : TrueCounts links events) :
    events.foldl LinkEvent.present links.toFinset = (events.foldl LinkEvent.links links).toFinset := by
  induction events generalizing links with
  | nil => rfl
  | cons event events ih =>
    rw [List.foldl_cons, List.foldl_cons]
    cases event with
    | opened key =>
      rw [LinkEvent.present, LinkEvent.links, ← Multiset.toFinset_cons]
      exact ih h
    | closed key remaining =>
      obtain ⟨hCount, hRest⟩ := h
      rw [LinkEvent.present, LinkEvent.links, hCount, ← toFinset_close]
      exact ih hRest

/-- With true counts, the present keys are those with an open link. -/
theorem presentKeys_eq {events : List (LinkEvent κ)} (h : TrueCounts 0 events) :
    presentKeys events = (openLinks events).toFinset := foldl_present h

end Links

end Resurrect.Rendezvous
