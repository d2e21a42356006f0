import Resurrect.Node.IdentityCalls

/-! # One identity file and many calls

The disk of one path, what a filesystem that works answers from it, and what its
failures are like. Over every run of any number of calls at most one made the
file, and the file is what that one has written: so two calls that return an
identity return the same.
-/

namespace Resurrect.Node.IdentityFile

open Interaction

/-- The directory of the path, and the file in it. -/
structure Disk where
  directory : Bool
  file : Option Bytes
  deriving DecidableEq, Repr

/-- No file yet. A path without a parent is in no directory. -/
def Disk.absent (path : Path) (made : Bool) : Disk := ⟨made && path.parent.isSome, none⟩

def overwritten (content : Bytes) (position : Nat) (bytes : Bytes) : Bytes :=
  content.take position ++ bytes ++ content.drop (position + bytes.length)

/-- The answers of a working filesystem. A write may take a part of the bytes, but not nothing. -/
inductive Works : Disk → Event Os → Disk → Prop
  | read {disk : Disk} {path : Path} {bytes : Bytes} (hFile : disk.file = some bytes) :
      Works disk ⟨.read path, .ok bytes⟩ disk
  | missing {disk : Disk} {path : Path} {error : IoError} (hFile : disk.file = none) (hKind : error.kind = .notFound) :
      Works disk ⟨.read path, .error error⟩ disk
  | createDirAll {disk : Disk} {path : Path} : Works disk ⟨.createDirAll path, .ok ()⟩ { disk with directory := true }
  | randomness {disk : Disk} {seed : Seed} : Works disk ⟨.randomness, seed⟩ disk
  | createNew {disk : Disk} {path : Path} {mode : Nat} (hFile : disk.file = none) (hDirectory : disk.directory = true) :
      Works disk ⟨.createNew path mode, .ok ()⟩ { disk with file := some [] }
  | occupied {disk : Disk} {path : Path} {mode : Nat} {error : IoError} (hFile : disk.file ≠ none)
      (hKind : error.kind = .alreadyExists) : Works disk ⟨.createNew path mode, .error error⟩ disk
  | homeless {disk : Disk} {path : Path} {mode : Nat} {error : IoError} (hFile : disk.file = none)
      (hDirectory : disk.directory = false) (hKind : error.kind = .notFound) :
      Works disk ⟨.createNew path mode, .error error⟩ disk
  | write {disk : Disk} {position : Nat} {bytes content : Bytes} {count : {count : Nat // count ≤ bytes.length}}
      (hFile : disk.file = some content) (hCount : 0 < count.val) :
      Works disk ⟨.write position bytes, .ok count⟩
        { disk with file := some (overwritten content position (bytes.take count.val)) }
  | syncAll {disk : Disk} : Works disk ⟨.syncAll, .ok ()⟩ disk

/-- The failures. Directories may have been made before the error, of the file nothing. -/
inductive Fails : Disk → Event Os → Disk → Prop
  | read {disk : Disk} {path : Path} {error : IoError} : Fails disk ⟨.read path, .error error⟩ disk
  | createDirAll {disk : Disk} {path : Path} {error : IoError} {made : Bool} (hMade : disk.directory = true → made = true) :
      Fails disk ⟨.createDirAll path, .error error⟩ { disk with directory := made }
  | createNew {disk : Disk} {path : Path} {mode : Nat} {error : IoError} :
      Fails disk ⟨.createNew path mode, .error error⟩ disk
  | write {disk : Disk} {position : Nat} {bytes : Bytes} {error : IoError} :
      Fails disk ⟨.write position bytes, .error error⟩ disk
  | stalled {disk : Disk} {position : Nat} {bytes : Bytes} :
      Fails disk ⟨.write position bytes, .ok ⟨0, Nat.zero_le _⟩⟩ disk
  | syncAll {disk : Disk} {error : IoError} : Fails disk ⟨.syncAll, .error error⟩ disk

section System

variable (library : IdentityLibrary) (path : Path)

def identitySystem : System Os Disk (Except IdentityError library.Keypair) where
  program := (loadOrCreateIdentity library path).run
  works := Works
  fails := Fails

end System

section Invariant

/-- What one answer does to the file: nothing, make it, or write on. -/
inductive Effect (disk : Disk) (event : Event Os) : Disk → Prop
  | quiet {after : Disk} (hFile : after.file = disk.file) (hCreates : ¬ Creates event) (hWrote : wrote event = [])
      (hRead : ∀ path bytes, event = ⟨.read path, .ok bytes⟩ → disk.file = some bytes)
      (hKept : disk.directory = true → after.directory = true)
      (hMade : ∀ path, event = ⟨.createDirAll path, .ok ()⟩ → after.directory = true)
      (hUnmade : after.directory = true → disk.directory = true ∨ ∃ path, event.query = .createDirAll path) :
      Effect disk event after
  | create {path : Path} {mode : Nat} (hEvent : event = ⟨.createNew path mode, .ok ()⟩) (hFile : disk.file = none)
      (hDirectory : disk.directory = true) : Effect disk event { disk with file := some [] }
  | write {position : Nat} {bytes content : Bytes} {count : {count : Nat // count ≤ bytes.length}}
      (hEvent : event = ⟨.write position bytes, .ok count⟩) (hFile : disk.file = some content) :
      Effect disk event { disk with file := some (overwritten content position (bytes.take count.val)) }

theorem effect_of_unmoved {disk : Disk} {event : Event Os} (hCreates : ¬ Creates event) (hWrote : wrote event = [])
    (hRead : ∀ path bytes, event = ⟨.read path, .ok bytes⟩ → disk.file = some bytes)
    (hMade : ∀ path, event ≠ ⟨.createDirAll path, .ok ()⟩) : Effect disk event disk :=
  .quiet rfl hCreates hWrote hRead id (fun path h => absurd h (hMade path)) .inl

theorem effect_of_works {disk after : Disk} {event : Event Os} (h : Works disk event after) :
    Effect disk event after := by
  cases h with
  | read hFile =>
    refine effect_of_unmoved id rfl (fun path bytes h => ?_) (fun path h => by cases h)
    cases h
    exact hFile
  | createNew hFile hDirectory => exact .create rfl hFile hDirectory
  | write hFile hCount => exact .write rfl hFile
  | createDirAll =>
    exact .quiet rfl id rfl (fun _ _ h => by cases h) (fun _ => rfl) (fun _ _ => rfl) fun _ => .inr ⟨_, rfl⟩
  | occupied | homeless =>
    exact effect_of_unmoved (fun h => by cases h) rfl (fun _ _ h => by cases h) (fun _ h => by cases h)
  | missing | randomness | syncAll =>
    exact effect_of_unmoved id rfl (fun _ _ h => by cases h) (fun _ h => by cases h)

theorem effect_of_fails {disk after : Disk} {event : Event Os} (h : Fails disk event after) :
    Effect disk event after := by
  cases h with
  | createDirAll hMade =>
    exact .quiet rfl id rfl (fun _ _ h => by cases h) hMade (fun _ h => by cases h) fun _ => .inr ⟨_, rfl⟩
  | createNew => exact effect_of_unmoved (fun h => by cases h) rfl (fun _ _ h => by cases h) (fun _ h => by cases h)
  | read | write | stalled | syncAll =>
    exact effect_of_unmoved id rfl (fun _ _ h => by cases h) (fun _ h => by cases h)

variable {library : IdentityLibrary} {path : Path}

/-- At most one call made the file, and the file is what that call has written. -/
structure Held (library : IdentityLibrary) (path : Path) (pool : Pool Os Disk) : Prop where
  stands : ∀ index, (identitySystem library path).program.Stands (pool.thread index).history
  file : ∀ index, Created (pool.thread index).history → pool.shared.file = some (written (pool.thread index).history)
  made : ∀ content, pool.shared.file = some content → ∃ index, Created (pool.thread index).history
  sole : ∀ first second, Created (pool.thread first).history → Created (pool.thread second).history → first = second
  read : ∀ index path bytes, ⟨.read path, .ok bytes⟩ ∈ (pool.thread index).history →
    ∃ content, pool.shared.file = some content ∧ bytes <+: content
  directory : ∀ index path, ⟨.createDirAll path, .ok ()⟩ ∈ (pool.thread index).history → pool.shared.directory = true
  housed : ∀ content, pool.shared.file = some content → pool.shared.directory = true
  homeless : path.parent = none → pool.shared.directory = false

theorem held_absent (made : Bool) : Held library path (.fresh (.absent path made)) where
  stands _ := Prog.stands_nil _
  file _ := by
    rintro ⟨event, hMem, -⟩
    cases hMem
  made _ hFile := by cases hFile
  sole first second := by
    rintro ⟨event, hMem, -⟩
    cases hMem
  read _ _ _ hMem := by cases hMem
  directory _ _ hMem := by cases hMem
  housed _ hFile := by cases hFile
  homeless hParent := by
    change (made && path.parent.isSome) = false
    rw [hParent]
    exact Bool.and_false _

variable {pool : Pool Os Disk} {index : Nat} {event : Event Os} {works : Bool} {after : Disk}

theorem Held.file_eq_none (h : Held library path pool) (hFile : pool.shared.file = none) (index : Nat) :
    ¬ Created (pool.thread index).history := by
  intro hCreated
  rw [h.file index hCreated] at hFile
  cases hFile

theorem Held.stands_answered (h : Held library path pool)
    (hReaches : (identitySystem library path).program.Reaches (pool.thread index).history event.query) (other : Nat) :
    (identitySystem library path).program.Stands ((pool.answered index event works after).thread other).history := by
  rw [Pool.history_answered]
  split
  · exact hReaches.stands
  · exact h.stands other

/-- Where the answered event neither makes the file nor writes to it, who made it and what was written stay. -/
theorem created_answered (hCreates : ¬ Creates event) (other : Nat) :
    Created ((pool.answered index event works after).thread other).history ↔ Created (pool.thread other).history := by
  rw [Pool.history_answered]
  split
  · rename_i hEq
    rw [created_concat, hEq]
    exact or_iff_left hCreates
  · exact Iff.rfl

theorem written_answered (hWrote : wrote event = []) (other : Nat) :
    written ((pool.answered index event works after).thread other).history = written (pool.thread other).history := by
  rw [Pool.history_answered]
  split
  · rename_i hEq
    rw [written_concat, hWrote, List.append_nil, hEq]
  · rfl

/-- An event of a history after an answer is the answered one, or was there before. -/
theorem mem_answered {other : Nat} {old : Event Os}
    (h : old ∈ ((pool.answered index event works after).thread other).history) :
    old = event ∨ old ∈ (pool.thread other).history := by
  rw [Pool.history_answered] at h
  split at h
  · rename_i hEq
    rw [hEq]
    obtain hOld | hNew := List.mem_append.mp h
    · exact .inr hOld
    · exact .inl (List.mem_singleton.mp hNew)
  · exact .inr h

section Steps

variable (hLawful : library.Lawful) (hHeld : Held library path pool)
  (hReaches : (identitySystem library path).program.Reaches (pool.thread index).history event.query)

include hLawful hHeld hReaches

theorem Held.quiet (hFile : after.file = pool.shared.file) (hCreates : ¬ Creates event) (hWrote : wrote event = [])
    (hRead : ∀ path bytes, event = ⟨.read path, .ok bytes⟩ → pool.shared.file = some bytes)
    (hKept : pool.shared.directory = true → after.directory = true)
    (hMade : ∀ path, event = ⟨.createDirAll path, .ok ()⟩ → after.directory = true)
    (hUnmade : after.directory = true → pool.shared.directory = true ∨ ∃ path, event.query = .createDirAll path) :
    Held library path (pool.answered index event works after) where
  stands := hHeld.stands_answered hReaches
  file other hCreated := by
    rw [written_answered hWrote]
    exact hFile.trans (hHeld.file other ((created_answered hCreates other).mp hCreated))
  made content hContent := by
    obtain ⟨other, hCreated⟩ := hHeld.made content (hFile.symm.trans hContent)
    exact ⟨other, (created_answered hCreates other).mpr hCreated⟩
  sole first second hFirst hSecond :=
    hHeld.sole first second ((created_answered hCreates first).mp hFirst) ((created_answered hCreates second).mp hSecond)
  read other path bytes hMem := by
    change ∃ content, after.file = some content ∧ bytes <+: content
    rw [hFile]
    obtain hNew | hOld := mem_answered hMem
    · exact ⟨bytes, hRead path bytes hNew.symm, List.prefix_rfl⟩
    · exact hHeld.read other path bytes hOld
  directory other path hMem := by
    obtain hNew | hOld := mem_answered hMem
    · exact hMade path hNew.symm
    · exact hKept (hHeld.directory other path hOld)
  housed content hContent := hKept (hHeld.housed content (hFile.symm.trans hContent))
  homeless hParent := by
    by_contra hDirectory
    obtain hBefore | ⟨parent, hQuery⟩ := hUnmade (Bool.eq_true_of_not_eq_false hDirectory)
    · rw [hHeld.homeless hParent] at hBefore
      cases hBefore
    · have hPlace := (asking_of_reaches hLawful hReaches).place
      rw [hQuery] at hPlace
      cases hParent.symm.trans hPlace

theorem Held.create {path' : Path} {mode : Nat} (hEvent : event = ⟨.createNew path' mode, .ok ()⟩)
    (hFile : pool.shared.file = none) (hDirectory : pool.shared.directory = true) :
    Held library path (pool.answered index event works { pool.shared with file := some [] }) := by
  have hNobody := hHeld.file_eq_none hFile
  have hOnly : ∀ other,
      Created ((pool.answered index event works { pool.shared with file := some [] }).thread other).history →
        other = index := by
    intro other hCreated
    rw [Pool.history_answered] at hCreated
    split at hCreated
    · assumption
    · exact absurd hCreated (hNobody other)
  have hCreated : Created ((pool.thread index).history ++ [event]) := created_concat.mpr (.inr (by rw [hEvent]; rfl))
  have hPlace := (asking_of_reaches hLawful hReaches).place
  rw [hEvent] at hPlace
  have hWritten : written ((pool.thread index).history ++ [event]) = [] := by
    rw [written_concat, hPlace.1, hEvent]
    rfl
  exact {
    stands := hHeld.stands_answered hReaches
    file := by
      intro other hOther
      obtain rfl := hOnly other hOther
      rw [Pool.answered_self]
      exact congrArg some hWritten.symm
    made := by
      intro content _
      refine ⟨index, ?_⟩
      rw [Pool.answered_self]
      exact hCreated
    sole := fun first second hFirst hSecond => (hOnly first hFirst).trans (hOnly second hSecond).symm
    read := by
      intro other path bytes hMem
      obtain hNew | hOld := mem_answered hMem
      · rw [hEvent] at hNew
        cases hNew
      · obtain ⟨content, hContent, -⟩ := hHeld.read other path bytes hOld
        rw [hFile] at hContent
        cases hContent
    directory := fun _ _ _ => hDirectory
    housed := fun _ _ => hDirectory
    homeless := hHeld.homeless }

theorem Held.write {position : Nat} {bytes content : Bytes} {count : {count : Nat // count ≤ bytes.length}}
    (hEvent : event = ⟨.write position bytes, .ok count⟩) (hFile : pool.shared.file = some content) :
    Held library path (pool.answered index event works
      { pool.shared with file := some (overwritten content position (bytes.take count.val)) }) := by
  have hPlace := (asking_of_reaches hLawful hReaches).place
  rw [hEvent] at hPlace
  obtain ⟨hCreated, rfl, -⟩ := hPlace
  obtain rfl : content = written (pool.thread index).history :=
    Option.some.inj (hFile.symm.trans (hHeld.file index hCreated))
  rw [overwritten, List.take_length, List.drop_eq_nil_of_le (Nat.le_add_right ..), List.append_nil]
  have hWrote : wrote event = bytes.take count.val := by rw [hEvent]; rfl
  have hCreates : ¬ Creates event := by rw [hEvent]; exact id
  have hOnly : ∀ other, Created (pool.thread other).history → other = index :=
    fun other hOther => hHeld.sole other index hOther hCreated
  exact {
    stands := hHeld.stands_answered hReaches
    file := by
      intro other hOther
      obtain rfl := hOnly other ((created_answered hCreates other).mp hOther)
      rw [Pool.answered_self, written_concat, hWrote]
      rfl
    made := fun _ _ => ⟨index, (created_answered hCreates index).mpr hCreated⟩
    sole := fun first second hFirst hSecond => (hOnly first ((created_answered hCreates first).mp hFirst)).trans
      (hOnly second ((created_answered hCreates second).mp hSecond)).symm
    read := by
      intro other path bytes' hMem
      refine ⟨_, rfl, ?_⟩
      obtain hNew | hOld := mem_answered hMem
      · rw [hEvent] at hNew
        cases hNew
      · obtain ⟨content, hContent, hPart⟩ := hHeld.read other path bytes' hOld
        obtain rfl := Option.some.inj (hFile.symm.trans hContent)
        exact hPart.trans (List.prefix_append ..)
    directory := by
      intro other path hMem
      obtain hNew | hOld := mem_answered hMem
      · rw [hEvent] at hNew
        cases hNew
      · exact hHeld.directory other path hOld
    housed := fun _ _ => hHeld.housed _ hFile
    homeless := hHeld.homeless }

theorem Held.effect (h : Effect pool.shared event after) : Held library path (pool.answered index event works after) := by
  cases h with
  | quiet hFile hCreates hWrote hRead hKept hMade hUnmade =>
    exact hHeld.quiet hLawful hReaches hFile hCreates hWrote hRead hKept hMade hUnmade
  | create hEvent hFile hDirectory => exact hHeld.create hLawful hReaches hEvent hFile hDirectory
  | write hEvent hFile => exact hHeld.write hLawful hReaches hEvent hFile

end Steps

theorem Held.crash (hHeld : Held library path pool) : Held library path (pool.crash index) := by
  have hHistory := @Pool.history_crash _ _ pool index
  exact {
    stands := fun other => by rw [hHistory]; exact hHeld.stands other
    file := fun other hCreated => by rw [hHistory] at hCreated ⊢; exact hHeld.file other hCreated
    made := fun content hFile => by simpa only [hHistory] using hHeld.made content hFile
    sole := fun first second hFirst hSecond => by
      rw [hHistory] at hFirst hSecond
      exact hHeld.sole first second hFirst hSecond
    read := fun other path bytes hMem => by rw [hHistory] at hMem; exact hHeld.read other path bytes hMem
    directory := fun other path hMem => by rw [hHistory] at hMem; exact hHeld.directory other path hMem
    housed := hHeld.housed
    homeless := hHeld.homeless }

theorem Held.step (hLawful : library.Lawful) {next : Pool Os Disk} {move : Move Os}
    (hHeld : Held library path pool) (hStep : (identitySystem library path).Step pool move next) :
    Held library path next := by
  cases hStep with
  | serve hAlive hReaches hWorks => exact hHeld.effect hLawful hReaches (effect_of_works hWorks)
  | fault hAlive hReaches hFails => exact hHeld.effect hLawful hReaches (effect_of_fails hFails)
  | crash => exact hHeld.crash

theorem held_run (hLawful : library.Lawful) {made : Bool} {steps : List (Pool Os Disk × Move Os)}
    {final : Pool Os Disk}
    (hRun : (identitySystem library path).Run (.fresh (.absent path made)) steps final) : Held library path final :=
  hRun.invariant (held_absent made) fun _ _ _ hHeld hStep => hHeld.step hLawful hStep

end Invariant

section Identity

variable {library : IdentityLibrary} {path : Path} {pool : Pool Os Disk}

/-- Whatever a call returned, it is what the file now holds: half a key is no key, so nobody read one. -/
theorem content_of_returned (hLawful : library.Lawful) (hHeld : Held library path pool) {index : Nat}
    {keypair : library.Keypair}
    (hRuns : (identitySystem library path).program.Runs (pool.thread index).history (.ok keypair)) :
    ∃ content, pool.shared.file = some content ∧ library.fromProtobufEncoding content = .ok keypair := by
  obtain ⟨-, -, ⟨location, bytes, hMem, hKey⟩ | ⟨hCreated, hKey⟩⟩ := returned_of_runs hLawful hRuns
  · obtain ⟨content, hContent, hPart⟩ := hHeld.read index location bytes hMem
    obtain ⟨creator, hCreated⟩ := hHeld.made content hContent
    obtain ⟨encoded, ⟨seed, -, hEncoded⟩, hWritten⟩ := keyed_of_stands hLawful (hHeld.stands creator) hCreated
    obtain rfl := Option.some.inj (hContent.symm.trans (hHeld.file creator hCreated))
    have hWhole : bytes = encoded := by
      by_contra hTorn
      obtain ⟨error, hError⟩ := hLawful.truncated hEncoded (hPart.trans hWritten) hTorn
      rw [hKey] at hError
      cases hError
    subst hWhole
    rw [hWritten.eq_of_length_le hPart.length_le] at hContent
    exact ⟨bytes, hContent, hKey⟩
  · exact ⟨_, hHeld.file index hCreated, hKey⟩

/-- Two calls that succeed return one identity, however they were interleaved. -/
theorem same_identity (hLawful : library.Lawful) (hHeld : Held library path pool) {first second : Nat}
    {keypair other : library.Keypair}
    (hFirst : (identitySystem library path).program.Runs (pool.thread first).history (.ok keypair))
    (hSecond : (identitySystem library path).program.Runs (pool.thread second).history (.ok other)) :
    keypair = other := by
  obtain ⟨content, hContent, hKey⟩ := content_of_returned hLawful hHeld hFirst
  obtain ⟨again, hAgain, hOther⟩ := content_of_returned hLawful hHeld hSecond
  obtain rfl := Option.some.inj (hContent.symm.trans hAgain)
  exact Except.ok.inj (hKey.symm.trans hOther)

end Identity

end Resurrect.Node.IdentityFile
