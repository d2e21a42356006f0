import Resurrect.Node.IdentityDisk

/-! # Creating the identity is not atomic

Any number of calls of `load_or_create_identity` on one path, each answered by a
filesystem that works or fails, stopped at any point. Two calls never return two
identities. But the key is written under its final name, so a call that made the
file and has not written its last byte leaves what no later call can read, and of
two calls that found no file the one that comes second to make it fails.
-/

namespace Resurrect.Node.IdentityFile

open Interaction

section Claim

variable (library : IdentityLibrary) (path : Path)

/-- Atomic creation, after the calls of `pool`: a call the filesystem worked for did not fail, the calls that
succeeded agree, and one more call alone succeeds and agrees with them. -/
structure Atomic (pool : Pool Os Disk) : Prop where
  returned : ∀ index result, (pool.thread index).worked = true →
    (identitySystem library path).program.Runs (pool.thread index).history result → ∃ keypair, result = .ok keypair
  same : ∀ first second keypair other,
    (identitySystem library path).program.Runs (pool.thread first).history (.ok keypair) →
    (identitySystem library path).program.Runs (pool.thread second).history (.ok other) → keypair = other
  later : ∀ env : Environment Os Disk, env.Working Works →
    ∃ keypair, ((identitySystem library path).program.play env pool.shared).1 = .ok keypair ∧
      ∀ index earlier, (identitySystem library path).program.Runs (pool.thread index).history (.ok earlier) →
        keypair = earlier

/-- No call, be it stopped or not, is between making the file and the last byte of its key. -/
def Settled (pool : Pool Os Disk) : Prop := ∀ index, ¬ Unfinished library (pool.thread index).history

/-- No call that the filesystem works for reads the file while it is unfinished, or is to make it when it is made. -/
def Calm (pool : Pool Os Disk) : Move Os → Prop
  | .serve index ⟨.read _, _⟩ => (pool.thread index).worked = true → Settled library pool
  | .serve index ⟨.createNew _ _, _⟩ =>
      (pool.thread index).worked = true → ∀ other, ¬ Created (pool.thread other).history
  | _ => True

end Claim

section File

variable {library : IdentityLibrary} {path : Path} {pool : Pool Os Disk}

theorem readable_of_settled (hLawful : library.Lawful) (hHeld : Held library path pool) (hSettled : Settled library pool)
    {content : Bytes} (hContent : pool.shared.file = some content) :
    ∃ keypair, library.fromProtobufEncoding content = .ok keypair := by
  obtain ⟨creator, hCreated⟩ := hHeld.made content hContent
  obtain rfl := Option.some.inj (hContent.symm.trans (hHeld.file creator hCreated))
  by_contra hUnreadable
  refine hSettled creator ⟨hCreated, fun encoded hDrew hWhole => hUnreadable ?_⟩
  obtain ⟨seed, -, hEncoded⟩ := hDrew
  rw [hWhole]
  exact ⟨_, hLawful.decodes hEncoded⟩

theorem torn_of_unfinished (hLawful : library.Lawful) (hHeld : Held library path pool) {index : Nat}
    (hUnfinished : Unfinished library (pool.thread index).history) :
    ∃ content error, pool.shared.file = some content ∧ library.fromProtobufEncoding content = .error error := by
  obtain ⟨hCreated, hPartial⟩ := hUnfinished
  obtain ⟨encoded, hDrew, hPart⟩ := keyed_of_stands hLawful (hHeld.stands index) hCreated
  have hTorn := hPartial encoded hDrew
  obtain ⟨seed, -, hEncoded⟩ := hDrew
  obtain ⟨error, hError⟩ := hLawful.truncated hEncoded hPart hTorn
  exact ⟨_, error, hHeld.file index hCreated, hError⟩

end File

section Answers

variable {disk after : Disk} {path : Path}

theorem Works.read_cases {answer : Except IoError Bytes} (h : Works disk ⟨.read path, answer⟩ after) : after = disk ∧
    ((∃ content, disk.file = some content ∧ answer = .ok content) ∨
      disk.file = none ∧ ∃ error : IoError, answer = .error error ∧ error.kind = .notFound) := by
  cases h with
  | read hFile => exact ⟨rfl, .inl ⟨_, hFile, rfl⟩⟩
  | missing hFile hKind => exact ⟨rfl, .inr ⟨hFile, _, rfl, hKind⟩⟩

theorem Works.createDirAll_cases {answer : Except IoError Unit} (h : Works disk ⟨.createDirAll path, answer⟩ after) :
    answer = .ok () ∧ after = { disk with directory := true } := by
  cases h
  exact ⟨rfl, rfl⟩

theorem Works.createNew_cases {mode : Nat} {answer : Except IoError Unit}
    (h : Works disk ⟨.createNew path mode, answer⟩ after) (hFile : disk.file = none) :
    (disk.directory = true ∧ answer = .ok () ∧ after = { disk with file := some [] }) ∨
      disk.directory = false ∧ ∃ error, answer = .error error := by
  cases h with
  | createNew _ hDirectory => exact .inl ⟨hDirectory, rfl, rfl⟩
  | occupied hOccupied => exact absurd hFile hOccupied
  | homeless _ hDirectory => exact .inr ⟨hDirectory, _, rfl⟩

theorem Works.write_cases {position : Nat} {bytes : Bytes} {answer : Except IoError {count : Nat // count ≤ bytes.length}}
    (h : Works disk ⟨.write position bytes, answer⟩ after) :
    after.file ≠ none ∧ ∃ count : {count : Nat // count ≤ bytes.length}, answer = .ok count ∧ 0 < count.val := by
  cases h with
  | write hFile hCount => exact ⟨Option.some_ne_none _, _, rfl, hCount⟩

theorem Works.syncAll_cases {answer : Except IoError Unit} (h : Works disk ⟨.syncAll, answer⟩ after) :
    answer = .ok () := by
  cases h
  rfl

theorem Works.randomness_cases {seed : Seed} (h : Works disk ⟨.randomness, seed⟩ after) : after = disk := by
  cases h
  rfl

end Answers

section Alone

variable {library : IdentityLibrary} {path : Path} {env : Environment Os Disk} (hEnv : env.Working Works)
  {disk : Disk}

include hEnv

theorem play_present {content : Bytes} (hFile : disk.file = some content) :
    ((loadOrCreateIdentity library path).run.play env disk).1 =
      (library.fromProtobufEncoding content).mapError .decode := by
  have hWorks := hEnv disk ⟨.read path, .ok content⟩ disk (.read hFile)
  obtain ⟨-, ⟨again, hAgain, hAnswer⟩ | ⟨hNone, -⟩⟩ := hWorks.read_cases
  · rw [hFile] at hAgain
    obtain rfl := Option.some.inj hAgain
    rw [loadOrCreateIdentity, play_lift_bind, Os.read, play_ask, hAnswer]
    rfl
  · cases hFile.symm.trans hNone

theorem play_missing (hFile : disk.file = none) : (loadOrCreateIdentity library path).run.play env disk =
    (createIdentity library path).run.play env disk := by
  have hWorks := hEnv disk ⟨.read path, .error ⟨.notFound, ""⟩⟩ disk (.missing hFile rfl)
  obtain ⟨hNext, ⟨content, hContent, -⟩ | ⟨-, error, hAnswer, hKind⟩⟩ := hWorks.read_cases
  · cases hFile.symm.trans hContent
  · rw [loadOrCreateIdentity, play_lift_bind, Os.read, play_ask, hNext, hAnswer]
    dsimp only
    rw [if_pos hKind]

theorem play_writeAll (position : Nat) (bytes : Bytes) (hFile : disk.file ≠ none) :
    ∃ after, (writeAll position bytes).run.play env disk = (.ok (), after) := by
  induction position, bytes using writeAll.induct generalizing disk with
  | case1 position => exact ⟨disk, by rw [writeAll, if_pos rfl]; rfl⟩
  | case2 position bytes hSome ih =>
    obtain ⟨content, hContent⟩ := Option.ne_none_iff_exists'.mp hFile
    have hWorks := hEnv disk ⟨.write position bytes, .ok ⟨bytes.length, Nat.le_refl _⟩⟩ _
      (.write hContent (List.length_pos_iff.mpr hSome))
    obtain ⟨hStill, count, hAnswer, hCount⟩ := hWorks.write_cases
    obtain ⟨after, hAfter⟩ := ih count hCount hStill
    refine ⟨after, ?_⟩
    rw [writeAll, if_neg hSome, play_run_bind, play_attempt, Os.write, play_ask, hAnswer]
    dsimp only [Except.mapError]
    rw [if_pos hCount]
    exact hAfter

theorem play_writePrivateFile {bytes : Bytes} (hFile : disk.file = none) (hDirectory : disk.directory = true) :
    ((writePrivateFile path bytes).run.play env disk).1 = .ok () := by
  have hWorks := hEnv disk ⟨.createNew path 0o600, .ok ()⟩ _ (.createNew hFile hDirectory)
  obtain ⟨-, hAnswer, hNext⟩ | ⟨hHomeless, -⟩ := hWorks.createNew_cases hFile
  · have hMade : (env.next disk (.createNew path 0o600)).file ≠ none := by
      rw [hNext]
      exact Option.some_ne_none _
    obtain ⟨after, hAfter⟩ := play_writeAll hEnv 0 bytes hMade
    have hSync := (hEnv after ⟨.syncAll, .ok ()⟩ after .syncAll).syncAll_cases
    rw [writePrivateFile, play_run_bind, play_attempt, Os.createNew, play_ask, hAnswer]
    dsimp only [Except.mapError]
    rw [play_run_bind_ok hAfter, play_attempt, Os.syncAll, play_ask, hSync]
    rfl
  · rw [hDirectory] at hHomeless
    cases hHomeless

theorem play_writePrivateFile_homeless {bytes : Bytes} (hFile : disk.file = none) (hDirectory : disk.directory = false) :
    ∃ error, ((writePrivateFile path bytes).run.play env disk).1 = .error error := by
  have hWorks := hEnv disk ⟨.createNew path 0o600, .error ⟨.notFound, ""⟩⟩ disk (.homeless hFile hDirectory rfl)
  obtain ⟨hDirectory', -⟩ | ⟨-, error, hAnswer⟩ := hWorks.createNew_cases hFile
  · rw [hDirectory] at hDirectory'
    cases hDirectory'
  · refine ⟨error, ?_⟩
    rw [writePrivateFile, play_run_bind, play_attempt, Os.createNew, play_ask, hAnswer]
    rfl

theorem play_createParent {parent : Path} (hParent : path.parent = some parent) :
    (createParent path).run.play env disk = (.ok (), { disk with directory := true }) := by
  have hWorks := hEnv disk ⟨.createDirAll parent, .ok ()⟩ _ .createDirAll
  obtain ⟨hAnswer, hNext⟩ := hWorks.createDirAll_cases
  rw [createParent, hParent]
  dsimp only
  rw [play_attempt, Os.createDirAll, play_ask, hAnswer, hNext]
  rfl

/-- Once its directory is there, a call draws a key and ends as the writing of its file ends. -/
theorem play_createIdentity (hLawful : library.Lawful) {made : Disk}
    (hMade : (createParent path).run.play env disk = (.ok (), made)) : ∃ keypair encoded,
      ((createIdentity library path).run.play env disk).1 =
        (((writePrivateFile path encoded).run.play env made).1.mapError .io).map fun _ => keypair := by
  have hNext := (hEnv made ⟨.randomness, Vector.replicate 32 0⟩ _ .randomness).randomness_cases
  obtain ⟨encoded, hEncoded⟩ := hLawful.encodes (env.answer made .randomness)
  refine ⟨library.generateEd25519 (env.answer made .randomness), encoded, ?_⟩
  rw [createIdentity, play_run_bind_ok hMade, play_lift_bind, Os.randomness, play_ask, hNext]
  dsimp only
  rw [hEncoded]
  change ((attempt IdentityError.io (writePrivateFile path encoded).run >>= fun _ => pure _).run.play env made).1 = _
  rw [play_run_bind, play_attempt]
  cases (writePrivateFile path encoded).run.play env made with
  | mk result after =>
    cases result with
    | ok => rfl
    | error error => rfl

/-- A call alone that finds no file makes one, if only the path is in a directory. -/
theorem play_absent (hLawful : library.Lawful) (hParent : path.parent.isSome) (hFile : disk.file = none) :
    ∃ keypair, ((loadOrCreateIdentity library path).run.play env disk).1 = .ok keypair := by
  obtain ⟨parent, hParent⟩ := Option.isSome_iff_exists.mp hParent
  obtain ⟨keypair, encoded, hPlay⟩ := play_createIdentity hEnv hLawful (play_createParent hEnv hParent)
  refine ⟨keypair, ?_⟩
  have hWritten : ((writePrivateFile path encoded).run.play env { disk with directory := true }).1 = .ok () :=
    play_writePrivateFile hEnv hFile rfl
  rw [play_missing hEnv hFile, hPlay, hWritten]
  rfl

theorem play_homeless (hLawful : library.Lawful) (hParent : path.parent = none) (hFile : disk.file = none)
    (hDirectory : disk.directory = false) :
    ∃ error, ((loadOrCreateIdentity library path).run.play env disk).1 = .error error := by
  have hMade : (createParent path).run.play env disk = (.ok (), disk) := by
    rw [createParent, hParent]
    rfl
  obtain ⟨keypair, encoded, hPlay⟩ := play_createIdentity hEnv hLawful hMade
  obtain ⟨error, hError⟩ := play_writePrivateFile_homeless hEnv hFile hDirectory
  refine ⟨.io error, ?_⟩
  rw [play_missing hEnv hFile, hPlay, hError]
  rfl

end Alone

section Steady

def Disk.answer (disk : Disk) : (query : IdentityQuery) → Os.Answer query
  | .read _ =>
    match disk.file with
    | some content => .ok content
    | none => .error ⟨.notFound, "No such file or directory (os error 2)"⟩
  | .createDirAll _ => .ok ()
  | .randomness => Vector.replicate 32 0
  | .createNew _ _ =>
    match disk.file with
    | some _ => .error ⟨.alreadyExists, "File exists (os error 17)"⟩
    | none =>
      if disk.directory then .ok ()
      else .error ⟨.notFound, "No such file or directory (os error 2)"⟩
  | .write _ bytes => .ok ⟨bytes.length, Nat.le_refl _⟩
  | .syncAll => .ok ()

def Disk.next (disk : Disk) : IdentityQuery → Disk
  | .createDirAll _ => { disk with directory := true }
  | .createNew _ _ => if disk.file = none ∧ disk.directory = true then { disk with file := some [] } else disk
  | .write position bytes =>
    match disk.file with
    | some content => { disk with file := some (overwritten content position bytes) }
    | none => disk
  | _ => disk

/-- A filesystem that works, and takes at once all it is given to write. -/
def steady : Environment Os Disk := ⟨Disk.answer, Disk.next⟩

theorem steady_working : steady.Working Works := by
  rintro ⟨directory, file⟩ event after h
  cases h with
  | read hFile =>
    obtain rfl := hFile
    exact .read rfl
  | missing hFile hKind =>
    obtain rfl := hFile
    exact .missing rfl rfl
  | createDirAll => exact .createDirAll
  | randomness => exact .randomness
  | createNew hFile hDirectory =>
    obtain rfl := hFile
    obtain rfl := hDirectory
    exact .createNew rfl rfl
  | occupied hFile hKind =>
    obtain ⟨content, rfl⟩ := Option.ne_none_iff_exists'.mp hFile
    exact .occupied hFile rfl
  | homeless hFile hDirectory hKind =>
    obtain rfl := hFile
    obtain rfl := hDirectory
    exact .homeless rfl rfl rfl
  | @write position bytes content count hFile hCount =>
    obtain rfl := hFile
    have hLength : 0 < bytes.length := Nat.lt_of_lt_of_le hCount count.property
    have hWorks := @Works.write ⟨directory, some content⟩ position bytes content ⟨bytes.length, Nat.le_refl _⟩ rfl hLength
    rwa [List.take_length] at hWorks
  | syncAll => exact .syncAll

end Steady

section Atomicity

variable {library : IdentityLibrary} {path : Path} {pool : Pool Os Disk}

theorem later_of_settled (hLawful : library.Lawful) (hHeld : Held library path pool) (hParent : path.parent.isSome)
    (hSettled : Settled library pool) {env : Environment Os Disk} (hEnv : env.Working Works) :
    ∃ keypair, ((identitySystem library path).program.play env pool.shared).1 = .ok keypair ∧
      ∀ index earlier, (identitySystem library path).program.Runs (pool.thread index).history (.ok earlier) →
        keypair = earlier := by
  cases hFile : pool.shared.file with
  | none =>
    obtain ⟨keypair, hPlay⟩ := play_absent hEnv hLawful hParent hFile
    refine ⟨keypair, hPlay, fun index earlier hRuns => ?_⟩
    obtain ⟨content, hContent, -⟩ := content_of_returned hLawful hHeld hRuns
    cases hFile.symm.trans hContent
  | some content =>
    obtain ⟨keypair, hKey⟩ := readable_of_settled hLawful hHeld hSettled hFile
    refine ⟨keypair, (play_present hEnv hFile).trans (by rw [hKey]; rfl), fun index earlier hRuns => ?_⟩
    obtain ⟨again, hAgain, hEarlier⟩ := content_of_returned hLawful hHeld hRuns
    obtain rfl := Option.some.inj (hFile.symm.trans hAgain)
    exact Except.ok.inj (hKey.symm.trans hEarlier)

/-- While a key is half written, a call alone fails however well the filesystem works. -/
theorem play_torn (hLawful : library.Lawful) (hHeld : Held library path pool) {index : Nat}
    (hUnfinished : Unfinished library (pool.thread index).history) {env : Environment Os Disk}
    (hEnv : env.Working Works) :
    ∃ error, ((identitySystem library path).program.play env pool.shared).1 = .error error := by
  obtain ⟨content, error, hContent, hError⟩ := torn_of_unfinished hLawful hHeld hUnfinished
  exact ⟨.decode error, (play_present hEnv hContent).trans (by rw [hError]; rfl)⟩

theorem Atomic.parent (hLawful : library.Lawful) (hHeld : Held library path pool) (h : Atomic library path pool) :
    path.parent.isSome := by
  by_contra hParent
  have hNone := Option.not_isSome_iff_eq_none.mp hParent
  have hDirectory := hHeld.homeless hNone
  have hFile : pool.shared.file = none := by
    by_contra hSome
    obtain ⟨content, hContent⟩ := Option.ne_none_iff_exists'.mp hSome
    rw [hHeld.housed content hContent] at hDirectory
    cases hDirectory
  obtain ⟨error, hError⟩ := play_homeless steady_working hLawful hNone hFile hDirectory
  obtain ⟨keypair, hOk, -⟩ := h.later steady steady_working
  cases hError.symm.trans hOk

theorem Atomic.settled (hLawful : library.Lawful) (hHeld : Held library path pool) (h : Atomic library path pool) :
    Settled library pool := by
  intro index hUnfinished
  obtain ⟨error, hError⟩ := play_torn hLawful hHeld hUnfinished steady_working
  obtain ⟨keypair, hOk, -⟩ := h.later steady steady_working
  cases hError.symm.trans hOk

/-- In a calm step, what the filesystem answers where it works is nothing a call returns an error for. -/
theorem sound_of_served (hLawful : library.Lawful) (hHeld : Held library path pool) (hParent : path.parent.isSome)
    {index : Nat} {event : Event Os} {after : Disk}
    (hReaches : (identitySystem library path).program.Reaches (pool.thread index).history event.query)
    (hWorks : Works pool.shared event after) (hCalm : Calm library pool (.serve index event))
    (hWorked : (pool.thread index).worked = true) : Sound library event := by
  cases hWorks with
  | read hFile => exact readable_of_settled hLawful hHeld (hCalm hWorked) hFile
  | @missing path error hFile hKind => exact ⟨error, rfl, hKind⟩
  | occupied hFile hKind =>
    obtain ⟨content, hContent⟩ := Option.ne_none_iff_exists'.mp hFile
    obtain ⟨creator, hCreated⟩ := hHeld.made content hContent
    exact absurd hCreated (hCalm hWorked creator)
  | homeless hFile hDirectory hKind =>
    obtain ⟨parent, hParent⟩ := Option.isSome_iff_exists.mp hParent
    have hPlace := (asking_of_reaches hLawful hReaches).place
    rw [hHeld.directory index parent (hPlace.2 parent hParent)] at hDirectory
    cases hDirectory
  | @write position bytes content count hFile hCount => exact ⟨count, rfl, hCount⟩
  | randomness => exact trivial
  | createDirAll | createNew | syncAll => exact rfl

/-- Only what is not calm makes a served call return an error. -/
theorem calm_of_sound (hLawful : library.Lawful) (hHeld : Held library path pool) {index : Nat}
    {event : Event Os} {after : Disk} (hWorks : Works pool.shared event after)
    (hSound : (pool.thread index).worked = true → Sound library event) : Calm library pool (.serve index event) := by
  cases hWorks with
  | read hFile =>
    intro hWorked other hUnfinished
    obtain ⟨content, error, hContent, hError⟩ := torn_of_unfinished hLawful hHeld hUnfinished
    obtain ⟨keypair, hKey⟩ := hSound hWorked
    obtain rfl := Option.some.inj (hFile.symm.trans hContent)
    cases hKey.symm.trans hError
  | missing hFile hKind => exact fun _ other hUnfinished => hHeld.file_eq_none hFile other hUnfinished.1
  | createNew hFile hDirectory => exact fun _ other => hHeld.file_eq_none hFile other
  | homeless hFile hDirectory hKind => exact fun _ other => hHeld.file_eq_none hFile other
  | occupied hFile hKind =>
    intro hWorked
    cases hSound hWorked
  | randomness | createDirAll | write | syncAll => trivial

/-- Every answer to a call that the filesystem worked for is sound. -/
def Undisturbed (library : IdentityLibrary) (pool : Pool Os Disk) : Prop :=
  ∀ index, (pool.thread index).worked = true → ∀ event ∈ (pool.thread index).history, Sound library event

theorem Undisturbed.step (hLawful : library.Lawful) (hHeld : Held library path pool) (hParent : path.parent.isSome)
    (h : Undisturbed library pool) {next : Pool Os Disk} {move : Move Os}
    (hCalm : Calm library pool move) (hStep : (identitySystem library path).Step pool move next) :
    Undisturbed library next := by
  intro index hWorked old hMem
  obtain ⟨hHistory, hSame⟩ | ⟨event, hReaches, hHistory, ⟨rfl, hWorks, hSame⟩ | ⟨-, -, hFaulted⟩⟩ :=
    hStep.thread_cases index
  · rw [hHistory] at hMem
    exact h index (hSame.symm.trans hWorked) old hMem
  · have hBefore := hSame.symm.trans hWorked
    rw [hHistory] at hMem
    obtain hOld | hNew := List.mem_append.mp hMem
    · exact h index hBefore old hOld
    · rw [List.mem_singleton.mp hNew]
      exact sound_of_served hLawful hHeld hParent hReaches hWorks hCalm hBefore
  · cases hFaulted.symm.trans hWorked

theorem Undisturbed.returned (hLawful : library.Lawful) (h : Undisturbed library pool) {index : Nat}
    {result : Except IdentityError library.Keypair} (hWorked : (pool.thread index).worked = true)
    (hRuns : (identitySystem library path).program.Runs (pool.thread index).history result) :
    ∃ keypair, result = .ok keypair := by
  cases result with
  | ok keypair => exact ⟨keypair, rfl⟩
  | error error =>
    obtain ⟨event, hMem, hUnsound⟩ := (failed_of_runs hLawful hRuns).cause
    exact absurd (h index hWorked event hMem) hUnsound

theorem undisturbed_run (hLawful : library.Lawful) (hParent : path.parent.isSome) {made : Bool}
    {steps : List (Pool Os Disk × Move Os)} {final : Pool Os Disk}
    (hRun : (identitySystem library path).Run (.fresh (.absent path made)) steps final)
    (hCalm : ∀ entry ∈ steps, Calm library entry.1 entry.2) : Undisturbed library final := by
  induction hRun with
  | nil => exact fun _ _ _ hMem => by cases hMem
  | concat hRun hStep ih =>
    obtain ⟨hEarlier, hLast⟩ := List.forall_mem_append.mp hCalm
    exact (ih hEarlier).step hLawful (held_run hLawful hRun) hParent (hLast _ (List.mem_singleton_self _)) hStep

/-- In a run after which creation was atomic, no served step was made while it was not calm. -/
theorem Atomic.calm (hLawful : library.Lawful) {made : Bool} {steps : List (Pool Os Disk × Move Os)}
    {final : Pool Os Disk}
    (hRun : (identitySystem library path).Run (.fresh (.absent path made)) steps final)
    (h : Atomic library path final) : ∀ entry ∈ steps, Calm library entry.1 entry.2 := by
  rintro ⟨before, move⟩ hMem
  obtain ⟨earlier, next, hEarlier, hStep⟩ := hRun.step_of_mem hMem
  have hHeld := held_run hLawful hEarlier
  cases hStep with
  | @serve index event after hAlive hReaches hWorks =>
    refine calm_of_sound hLawful hHeld hWorks fun hWorked => ?_
    by_contra hUnsound
    -- the call returned this error and still stands so at the end
    obtain ⟨error, hRuns⟩ := error_of_not_sound hLawful hReaches hUnsound
    obtain ⟨hHistory, hStill⟩ := hRun.finished hMem hRuns
    rw [← hHistory] at hRuns
    obtain ⟨keypair, hOk⟩ := h.returned index (.error error) (hStill.trans hWorked) hRuns
    cases hOk
  | fault => trivial
  | crash => trivial

/-- When the creation of an identity is atomic: the path lies in a directory, no call that the filesystem worked for
read the file while another had it half written or came second to make it, and none has it half written now. -/
theorem identity_creation_atomic_iff (hLawful : library.Lawful) {made : Bool}
    {steps : List (Pool Os Disk × Move Os)} {final : Pool Os Disk}
    (hRun : (identitySystem library path).Run (.fresh (.absent path made)) steps final) :
    Atomic library path final ↔
      path.parent.isSome ∧ (∀ entry ∈ steps, Calm library entry.1 entry.2) ∧ Settled library final := by
  have hHeld := held_run hLawful hRun
  constructor
  · intro h
    exact ⟨h.parent hLawful hHeld, h.calm hLawful hRun, h.settled hLawful hHeld⟩
  · rintro ⟨hParent, hCalm, hSettled⟩
    have hUndisturbed := undisturbed_run hLawful hParent hRun hCalm
    exact {
      returned := fun _ _ hWorked hRuns => hUndisturbed.returned hLawful hWorked hRuns
      same := fun _ _ _ _ hFirst hSecond => same_identity hLawful hHeld hFirst hSecond
      later := fun _ hEnv => later_of_settled hLawful hHeld hParent hSettled hEnv }

end Atomicity

section Sample

/-- The Ed25519 key of the seed of sevens. -/
def sevensEncoding : Bytes :=
  [0x08, 0x01, 0x12, 0x40] ++ List.replicate 32 7 ++
    [0xea, 0x4a, 0x6c, 0x63, 0xe2, 0x9c, 0x52, 0x0a, 0xbe, 0xf5, 0x50, 0x7b, 0x13, 0x2e, 0xc5, 0xf9,
      0x95, 0x47, 0x76, 0xae, 0xbe, 0xbe, 0x7b, 0x92, 0x42, 0x1e, 0xea, 0x69, 0x14, 0x46, 0xd2, 0x2c]

def sevensLibrary : IdentityLibrary where
  Keypair := Unit
  generateEd25519 _ := ()
  toProtobufEncoding _ := .ok sevensEncoding
  fromProtobufEncoding bytes := if bytes = sevensEncoding then .ok () else .error "failed to decode private key bytes"

theorem sevensLibrary_lawful : sevensLibrary.Lawful where
  encodes _ := ⟨sevensEncoding, rfl⟩
  decodes hEncoded := by
    obtain rfl := Except.ok.inj hEncoded
    have hKey : (if sevensEncoding = sevensEncoding then .ok () else .error "failed to decode private key bytes" :
      Except String Unit) = .ok () := if_pos rfl
    exact hKey
  truncated hEncoded _ hTorn := by
    obtain rfl := Except.ok.inj hEncoded
    exact ⟨_, if_neg hTorn⟩

def identityKey : Path := ⟨true, ["var", "lib", "resurrect", "identity.key"]⟩

def absentError : IoError := ⟨.notFound, "No such file or directory (os error 2)"⟩

/-- The answers of a call up to its first write. -/
def opening : List (Event Os) :=
  [⟨.read identityKey, .error absentError⟩, ⟨.createDirAll ⟨true, ["var", "lib", "resurrect"]⟩, .ok ()⟩,
    ⟨.randomness, Vector.replicate 32 7⟩, ⟨.createNew identityKey 0o600, .ok ()⟩]

/-- The write then takes `count` bytes. -/
def creating (count : {count : Nat // count ≤ sevensEncoding.length}) : List (Event Os) :=
  opening ++ [⟨.write 0 sevensEncoding, .ok count⟩]

theorem creating_run (count : {count : Nat // count ≤ sevensEncoding.length}) (hCount : 0 < count.val) :
    ∃ steps final, (identitySystem sevensLibrary identityKey).Run (.fresh (.absent identityKey true)) steps final ∧
      steps.map Prod.snd = (creating count).map (.serve 0) ∧
      final.shared = ⟨true, some (sevensEncoding.take count.val)⟩ ∧ final.thread 0 = ⟨creating count, true, false⟩ ∧
      ∀ index, index ≠ 0 → final.thread index = .fresh := by
  have hReaches : (identitySystem sevensLibrary identityKey).program.Reaches opening (.write 0 sevensEncoding) :=
    Prog.reaches_of_awaits (by decide +kernel)
  have hServes : System.Serves Works (.absent identityKey true) opening ⟨true, some []⟩ :=
    .concat (.concat (.concat (.concat .nil (.missing rfl rfl)) .createDirAll) .randomness) (.createNew rfl rfl)
  have hWrite := @Works.write ⟨true, some []⟩ 0 sevensEncoding [] count rfl hCount
  have hFile : overwritten [] 0 (sevensEncoding.take count.val) = sevensEncoding.take count.val := by simp [overwritten]
  rw [hFile] at hWrite
  exact System.run_alone (hServes.concat hWrite)
    (@Prog.Reaches.stands _ _ _ opening ⟨.write 0 sevensEncoding, .ok count⟩ hReaches)

/-- A call stopped after its first byte leaves what no later call reads. -/
theorem creating_torn : ∃ steps final,
    (identitySystem sevensLibrary identityKey).Run (.fresh (.absent identityKey true)) steps final ∧
      steps.map Prod.snd = (creating ⟨1, by decide⟩).map (.serve 0) ++ [.crash 0] ∧
      ¬ Atomic sevensLibrary identityKey final := by
  obtain ⟨steps, pool, hRun, hMoves, hShared, -, -⟩ := creating_run ⟨1, by decide⟩ (by decide)
  refine ⟨_, _, hRun.concat (@System.Step.crash _ _ _ _ pool 0), ?_, fun h => ?_⟩
  · rw [List.map_append, hMoves]
    rfl
  · obtain ⟨keypair, hOk, -⟩ := h.later steady steady_working
    have hFile : (pool.crash 0).shared.file = some [0x08] := by
      change pool.shared.file = _
      rw [hShared]
      rfl
    have hUnreadable : sevensLibrary.fromProtobufEncoding [0x08] = .error "failed to decode private key bytes" := rfl
    have hPlay := (play_present steady_working hFile).symm.trans hOk
    rw [hUnreadable] at hPlay
    cases hPlay

/-- One that wrote its last byte leaves the key that every later call returns. -/
theorem creating_whole : ∃ steps final,
    (identitySystem sevensLibrary identityKey).Run (.fresh (.absent identityKey true)) steps final ∧
      steps.map Prod.snd = (creating ⟨sevensEncoding.length, Nat.le_refl _⟩).map (.serve 0) ∧
      Atomic sevensLibrary identityKey final := by
  obtain ⟨steps, final, hRun, hMoves, -, hThread, hOthers⟩ :=
    creating_run ⟨sevensEncoding.length, Nat.le_refl _⟩ (by decide)
  have hSettled : Settled sevensLibrary final := by
    intro index hUnfinished
    by_cases hIndex : index = 0
    · rw [hIndex, hThread] at hUnfinished
      exact hUnfinished.2 sevensEncoding ⟨Vector.replicate 32 7, by simp [creating, opening], rfl⟩ rfl
    · rw [hOthers index hIndex] at hUnfinished
      obtain ⟨⟨event, hMem, -⟩, -⟩ := hUnfinished
      cases hMem
  have hGoesOn : ∀ event ∈ creating ⟨sevensEncoding.length, Nat.le_refl _⟩, GoesOn event := by
    simp [creating, opening, GoesOn, absentError, sevensEncoding]
  have hCalm : ∀ entry ∈ steps, Calm sevensLibrary entry.1 entry.2 := by
    rintro ⟨before, move⟩ hMem
    obtain ⟨event, hEvent, rfl⟩ := List.mem_map.mp (hMoves ▸ List.mem_map_of_mem (f := Prod.snd) hMem)
    obtain ⟨earlier, next, hEarlier, hStep⟩ := hRun.step_of_mem hMem
    cases hStep with
    | serve hAlive hReaches hWorks =>
      exact calm_of_sound sevensLibrary_lawful (held_run sevensLibrary_lawful hEarlier) hWorks fun _ =>
        sound_of_goesOn (hGoesOn event hEvent)
  exact ⟨steps, final, hRun, hMoves,
    (identity_creation_atomic_iff sevensLibrary_lawful hRun).mpr ⟨rfl, hCalm, hSettled⟩⟩

end Sample

end Resurrect.Node.IdentityFile
