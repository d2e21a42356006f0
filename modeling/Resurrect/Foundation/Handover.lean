import Mathlib.Data.Set.Insert
import Mathlib.Logic.Relation

/-! # A slot that tasks replace a handle in

Each task closes the handle in the slot, waits, and then puts a handle of its own
there or empties the slot. Two tasks that are between the two at once may replace a
handle that neither has closed.
-/

namespace Resurrect.Handover

/-- `midway` are the tasks between closing and replacing, `raced` the handles put in while another task was there. -/
structure Slot (Task Handle : Type*) where
  active : Option Handle
  opened : Set Handle
  closed : Set Handle
  midway : Set Task
  raced : Set Handle

variable {Task Handle : Type*}

def Slot.empty : Slot Task Handle := ⟨none, ∅, ∅, ∅, ∅⟩

inductive Step (slot next : Slot Task Handle) : Prop where
  | keep (hActive : next.active = slot.active) (hOpened : next.opened = slot.opened)
      (hClosed : next.closed = slot.closed)
      (hRaced : next.raced = slot.raced) (hMidway : next.midway ⊆ slot.midway)
  | close (hActive : next.active = slot.active) (hOpened : next.opened = slot.opened)
      (hClosed : next.closed = slot.closed ∪ {handle | slot.active = some handle}) (hRaced : next.raced = slot.raced)
  | clear (task : Task) (hTask : task ∈ slot.midway) (hActive : next.active = none)
      (hOpened : next.opened = slot.opened)
      (hClosed : next.closed = slot.closed) (hRaced : next.raced = slot.raced)
  | install (task : Task) (handle : Handle) (hTask : task ∈ slot.midway) (hActive : next.active = some handle)
      (hOpened : next.opened = insert handle slot.opened) (hClosed : next.closed = slot.closed)
      (hRaced : next.raced = slot.raced ∪ {other | other = handle ∧ ∃ rival ∈ slot.midway, rival ≠ task})
      (hMidway : next.midway ⊆ slot.midway \ {task})

/-- The second clause carries the first: while the handle in the slot is open and was put there alone, no task is
between closing and replacing, for a task that starts afterwards closes that handle first. -/
structure Slot.Accounted (slot : Slot Task Handle) : Prop where
  opened : ∀ handle ∈ slot.opened, handle ∈ slot.closed ∨ slot.active = some handle ∨ handle ∈ slot.raced
  active : ∀ handle, slot.active = some handle → handle ∈ slot.closed ∨ handle ∈ slot.raced ∨ slot.midway = ∅

theorem Slot.accounted_empty : (empty : Slot Task Handle).Accounted := ⟨nofun, nofun⟩

/-- Whoever replaces the handle in the slot has closed it, or it was put there in a race. -/
theorem Slot.Accounted.replaced {slot : Slot Task Handle} (h : slot.Accounted) {task : Task}
    (hTask : task ∈ slot.midway)
    {handle : Handle} (hOpened : handle ∈ slot.opened) : handle ∈ slot.closed ∨ handle ∈ slot.raced := by
  obtain hClosed | hActive | hRaced := h.opened handle hOpened
  · exact .inl hClosed
  · obtain hClosed | hRaced | hNone := h.active handle hActive
    · exact .inl hClosed
    · exact .inr hRaced
    · rw [hNone] at hTask
      exact hTask.elim
  · exact .inr hRaced

theorem Step.accounted {slot next : Slot Task Handle} (hStep : Step slot next) (h : slot.Accounted) :
    next.Accounted := by
  cases hStep with
  | keep hActive hOpened hClosed hRaced hMidway =>
    refine ⟨?_, ?_⟩
    · rw [hActive, hOpened, hClosed, hRaced]
      exact h.opened
    · intro handle hHandle
      rw [hActive] at hHandle
      rw [hClosed, hRaced]
      obtain hDone | hRace | hNone := h.active handle hHandle
      · exact .inl hDone
      · exact .inr (.inl hRace)
      · rw [hNone] at hMidway
        exact .inr (.inr (Set.subset_empty_iff.mp hMidway))
  | close hActive hOpened hClosed hRaced =>
    refine ⟨?_, ?_⟩
    · intro handle hHandle
      rw [hOpened] at hHandle
      rw [hActive, hClosed, hRaced]
      exact (h.opened handle hHandle).imp_left .inl
    · intro handle hHandle
      rw [hActive] at hHandle
      rw [hClosed]
      exact .inl (.inr hHandle)
  | clear task hTask hActive hOpened hClosed hRaced =>
    refine ⟨?_, ?_⟩
    · intro handle hHandle
      rw [hOpened] at hHandle
      rw [hClosed, hRaced]
      exact (h.replaced hTask hHandle).imp_right .inr
    · intro handle hHandle
      rw [hActive] at hHandle
      cases hHandle
  | install task handle hTask hActive hOpened hClosed hRaced hMidway =>
    refine ⟨?_, ?_⟩
    · intro other hOther
      rw [hOpened] at hOther
      rw [hActive, hClosed, hRaced]
      obtain rfl | hOther := hOther
      · exact .inr (.inl rfl)
      · exact (h.replaced hTask hOther).imp_right fun hRace => .inr (.inl hRace)
    · intro other hOther
      rw [hActive] at hOther
      obtain rfl := Option.some.inj hOther
      rw [hRaced]
      by_cases hRival : ∃ rival ∈ slot.midway, rival ≠ task
      · exact .inr (.inl (.inr ⟨rfl, hRival⟩))
      · refine .inr (.inr (Set.eq_empty_of_forall_notMem fun rival hMem => hRival ?_))
        obtain ⟨hOld, hNe⟩ := hMidway hMem
        exact ⟨rival, hOld, hNe⟩

theorem accounted_of_run {slot : Slot Task Handle} (h : Relation.ReflTransGen Step .empty slot) : slot.Accounted := by
  induction h with
  | refl => exact Slot.accounted_empty
  | tail hRun hStep ih => exact hStep.accounted ih

end Resurrect.Handover
