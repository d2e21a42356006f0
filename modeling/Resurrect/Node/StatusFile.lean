import Resurrect.Foundation.CrashTriple
import Resurrect.Node.IdentityDisk
import Resurrect.Node.Supervisor

/-! # The status file

`write_atomic_json`: the status is written beside its file and renamed over it.
Whatever fails, and wherever a process is stopped, a reader finds what was there
before or one whole status, as long as the file beside it is another file.
-/

namespace Resurrect.Node

open Interaction

namespace Path

def fileName (self : Path) : Option String :=
  match self.components.getLast? with
  | some name => if name = ".." then none else some name
  | none => none

/-- `rsplit_file_at_dot`: what stands before the last dot, and after it. A leading dot is part of the name. -/
def splitAtDot (name : List Char) : Option (List Char) × Option (List Char) :=
  let after := (name.reverse.takeWhile (· ≠ '.')).reverse
  match name.reverse.dropWhile (· ≠ '.') with
  | [] => (none, some after)
  | _ :: [] => (some name, none)
  | _ :: before => (some before.reverse, some after)

def fileStem (self : Path) : Option (List Char) :=
  self.fileName.bind fun name => (splitAtDot name.toList).1 <|> (splitAtDot name.toList).2

def extension (self : Path) : Option (List Char) :=
  self.fileName.bind fun name => (splitAtDot name.toList).1.bind fun _ => (splitAtDot name.toList).2

def withExtension (self : Path) (extension : List Char) : Path :=
  match self.fileStem with
  | none => self
  | some stem => { self with
      components := self.components.dropLast ++
        [String.ofList (if extension = [] then stem else stem ++ '.' :: extension)] }

end Path

inductive FileQuery where
  | os (query : IdentityQuery)
  | create (path : Path)
  | rename (source target : Path)
  deriving DecidableEq, Repr

/-- The filesystem `tokio::fs` works on. Creating a file empties one that is there. -/
abbrev FileSystem : Interface where
  Query := FileQuery
  Answer
    | .os query => Os.Answer query
    | .create _ => Except IoError Unit
    | .rename .. => Except IoError Unit

instance : DecidableEq FileSystem.Query := inferInstanceAs (DecidableEq FileQuery)

def osPart : Embedding Os FileSystem where
  query := .os
  answer _ := Equiv.refl _

namespace FileSystem

def create (path : Path) : Prog FileSystem (Except IoError Unit) := Prog.ask (I := FileSystem) (.create path)

def rename (source target : Path) : Prog FileSystem (Except IoError Unit) :=
  Prog.ask (I := FileSystem) (.rename source target)

/-- `tokio::fs::write`. -/
def write (path : Path) (bytes : Bytes) : ExceptT IoError (Prog FileSystem) Unit := do
  attempt id (create path)
  attempt id (osPart.lift (writeAll 0 bytes).run)

end FileSystem

def SupervisorError.ofIo (error : IoError) : SupervisorError := .io error.message

section Program

variable (toVecPretty : NodeStatus → Except String Bytes)

/-- The bytes of a status, with the newline behind them. -/
def statusBytes (status : NodeStatus) : Except SupervisorError Bytes := do
  let bytes ← (toVecPretty status).mapError SupervisorError.json
  pure (bytes ++ [10])

def createDirectory (path : Path) : ExceptT SupervisorError (Prog FileSystem) Unit :=
  match path.parent with
  | some parent => attempt .ofIo (osPart.lift (Os.createDirAll parent))
  | none => pure ()

def writeAtomicJson (path : Path) (status : NodeStatus) : ExceptT SupervisorError (Prog FileSystem) Unit := do
  createDirectory path
  let temporary := path.withExtension ['t', 'm', 'p']
  let bytes ← ExceptT.mk (pure (statusBytes toVecPretty status))
  attempt .ofIo (FileSystem.write temporary bytes).run
  attempt .ofIo (FileSystem.rename temporary path)

end Program

section Names

variable {path : Path} {extension : List Char}

theorem dropWhile_dot {name before : List Char} {dot : Char}
    (h : name.reverse.dropWhile (· ≠ '.') = dot :: before) :
    name = before.reverse ++ '.' :: (name.reverse.takeWhile (· ≠ '.')).reverse := by
  have hDot : dot = '.' := by
    have hHead := List.head?_dropWhile_not (· ≠ '.') name.reverse
    rw [h] at hHead
    simpa using hHead
  have hSplit := List.takeWhile_append_dropWhile (p := (· ≠ '.')) (l := name.reverse)
  rw [h, hDot] at hSplit
  have hName := congrArg List.reverse hSplit
  rw [List.reverse_reverse, List.reverse_append, List.reverse_cons, List.append_assoc] at hName
  exact hName.symm

theorem splitAtDot_cases (name : List Char) : Path.splitAtDot name = (none, some name) ∨
    Path.splitAtDot name = (some name, none) ∨
    ∃ before after, name = before ++ '.' :: after ∧ Path.splitAtDot name = (some before, some after) := by
  rw [Path.splitAtDot]
  split
  · rename_i hNone
    have hSplit := List.takeWhile_append_dropWhile (p := (· ≠ '.')) (l := name.reverse)
    rw [hNone, List.append_nil] at hSplit
    rw [hSplit, List.reverse_reverse]
    exact .inl rfl
  · exact .inr (.inl rfl)
  · rename_i dot before hNonempty hRest
    exact .inr (.inr ⟨_, _, dropWhile_dot hRest, rfl⟩)

theorem components_of_fileName {name : String} (h : path.fileName = some name) :
    path.components = path.components.dropLast ++ [name] := by
  rw [Path.fileName] at h
  split at h
  · rename_i last hLast
    split at h
    · cases h
    · obtain rfl := Option.some.inj h
      obtain ⟨before, hBefore⟩ := List.getLast?_eq_some_iff.mp hLast
      rw [hBefore, List.dropLast_concat]
  · cases h

theorem withExtension_eq_iff {name : String} {stem : List Char} (hName : path.fileName = some name)
    (hStem : path.fileStem = some stem) (hSome : extension ≠ []) :
    path.withExtension extension = path ↔ stem ++ '.' :: extension = name.toList := by
  have hComponents := components_of_fileName hName
  rw [Path.withExtension, hStem]
  dsimp only
  rw [if_neg hSome]
  constructor
  · intro h
    have hSame := congrArg Path.components h
    dsimp only at hSame
    rw [hComponents, List.dropLast_concat] at hSame
    obtain ⟨-, hLast⟩ := List.append_inj' hSame rfl
    rw [← List.head_eq_of_cons_eq hLast, String.toList_ofList]
  · intro h
    rw [h, String.ofList_toList, ← hComponents]

/-- The file beside another is that file where it has the extension already, or where there is no file name to
change. -/
theorem withExtension_eq_self_iff (hSome : extension ≠ []) :
    path.withExtension extension = path ↔ path.fileName = none ∨ path.extension = some extension := by
  cases hName : path.fileName with
  | none =>
    have hStem : path.fileStem = none := by rw [Path.fileStem, hName]; rfl
    rw [Path.withExtension, hStem]
    exact iff_of_true rfl (.inl rfl)
  | some name =>
    rw [Path.extension, hName]
    obtain hSplit | hSplit | ⟨before, after, hDot, hSplit⟩ := splitAtDot_cases name.toList
    · have hStem : path.fileStem = some name.toList := by
        rw [Path.fileStem, hName, Option.bind_some, hSplit]
        rfl
      rw [withExtension_eq_iff hName hStem hSome]
      simp [hSplit]
    · have hStem : path.fileStem = some name.toList := by
        rw [Path.fileStem, hName, Option.bind_some, hSplit]
        rfl
      rw [withExtension_eq_iff hName hStem hSome]
      simp [hSplit]
    · have hStem : path.fileStem = some before := by
        rw [Path.fileStem, hName, Option.bind_some, hSplit]
        rfl
      rw [withExtension_eq_iff hName hStem hSome, Option.bind_some, hSplit, hDot]
      simp [eq_comm]

end Names

/-- The files of a disk, and the one that is open for writing. -/
structure Files where
  content : Path → Option Bytes
  handle : Option Path

/-- What the filesystem answers, whether it works or fails: a failed call leaves the files as they were, a write may
take any part of the bytes, and renaming is one step. -/
inductive Files.Answers : Files → Event FileSystem → Files → Prop
  | createDirAll {files : Files} {path : Path} {answer : Except IoError Unit} :
      Files.Answers files ⟨.os (.createDirAll path), answer⟩ files
  | create {files : Files} {path : Path} (hName : path.fileName ≠ none) :
      Files.Answers files ⟨.create path, .ok ()⟩ ⟨Function.update files.content path (some []), some path⟩
  | notCreated {files : Files} {path : Path} {error : IoError} :
      Files.Answers files ⟨.create path, .error error⟩ files
  | write {files : Files} {path : Path} {content bytes : Bytes} {position : Nat}
      {count : {count : Nat // count ≤ bytes.length}} (hHandle : files.handle = some path)
      (hContent : files.content path = some content) :
      Files.Answers files ⟨.os (.write position bytes), .ok count⟩ { files with
        content := Function.update files.content path
          (some (IdentityFile.overwritten content position (bytes.take count.val))) }
  | notWritten {files : Files} {position : Nat} {bytes : Bytes} {error : IoError} :
      Files.Answers files ⟨.os (.write position bytes), .error error⟩ files
  | rename {files : Files} {source target : Path} {bytes : Bytes} (hSource : files.content source = some bytes) :
      Files.Answers files ⟨.rename source target, .ok ()⟩ { files with
        content := Function.update (Function.update files.content source none) target (some bytes) }
  | notRenamed {files : Files} {source target : Path} {error : IoError} :
      Files.Answers files ⟨.rename source target, .error error⟩ files

/-- One call and the answers it got; it may have been stopped among them. -/
structure StatusWrite where
  status : NodeStatus
  trace : List (Event FileSystem)

section Register

variable (toVecPretty : NodeStatus → Except String Bytes) (path : Path)

/-- Calls one after another, by any number of processes. -/
inductive StatusWrites (before : Files) : List StatusWrite → Files → Prop
  | nil : StatusWrites before [] before
  | concat {writes : List StatusWrite} {write : StatusWrite} {middle after : Files}
      (hWrites : StatusWrites before writes middle)
      (hStands : (writeAtomicJson toVecPretty path write.status).run.Stands write.trace)
      (hAnswered : Answered Files.Answers middle write.trace after) : StatusWrites before (writes ++ [write]) after

/-- A register that is set whole: by a call that returns, not by one that fails, and by one that is stopped perhaps. -/
inductive Register (first : Option Bytes) : List StatusWrite → Option Bytes → Prop
  | unwritten : Register first [] first
  | set {writes : List StatusWrite} {write : StatusWrite} {old : Option Bytes} {bytes : Bytes}
      (hWrites : Register first writes old) (hBytes : statusBytes toVecPretty write.status = .ok bytes)
      (hUnfailed : ∀ error, ¬ (writeAtomicJson toVecPretty path write.status).run.Runs write.trace (.error error)) :
      Register first (writes ++ [write]) (some bytes)
  | kept {writes : List StatusWrite} {write : StatusWrite} {old : Option Bytes} (hWrites : Register first writes old)
      (hUnreturned : ¬ (writeAtomicJson toVecPretty path write.status).run.Runs write.trace (.ok ())) :
      Register first (writes ++ [write]) old

end Register

section Whole

variable {toVecPretty : NodeStatus → Except String Bytes} {path : Path} {old : Option Bytes}

/-- The file beside has taken the first `position` bytes. -/
structure Beside (path temporary : Path) (old : Option Bytes) (taken : Bytes) (files : Files) : Prop where
  other : path ≠ temporary
  content_eq : files.content path = old
  handle_eq : files.handle = some temporary
  taken_eq : files.content temporary = some taken

theorem overwritten_length (taken bytes : Bytes) : IdentityFile.overwritten taken taken.length bytes = taken ++
    bytes := by
  rw [IdentityFile.overwritten, List.take_length, List.drop_eq_nil_of_le (Nat.le_add_right ..), List.append_nil]

/-- A write leaves the file of the status as it was, and adds to the one beside. -/
theorem triple_write {temporary : Path} {taken rest : Bytes} :
    Triple (fun files event after => Files.Answers files (osPart.event event) after)
      (Beside path temporary old taken) (Os.write taken.length rest)
      (Triple.Leaves (fun count => Beside path temporary old (taken ++ rest.take count.val))
        fun _ files => files.content path = old) fun files => files.content path = old := by
  refine Triple.ask (I := Os) (fun files h => h.content_eq) fun files answer after h hAnswer => ?_
  obtain ⟨hOther, hContent, hHandle, hTaken⟩ := h
  cases hAnswer with
  | @write opened content _ _ count hOpen hOld =>
    obtain rfl := Option.some.inj (hOpen.symm.trans hHandle)
    obtain rfl := Option.some.inj (hOld.symm.trans hTaken)
    have hKept : Function.update files.content opened
        (some (IdentityFile.overwritten content content.length (rest.take count.val))) path = old := by
      rw [Function.update_of_ne hOther, hContent]
    exact ⟨⟨hOther, hKept, hHandle, (Function.update_self ..).trans (congrArg some (overwritten_length ..))⟩, hKept⟩
  | notWritten => exact ⟨hContent, hContent⟩

theorem triple_writeAll {temporary : Path} {taken rest : Bytes} {position : Nat} (hPosition : position = taken.length) :
    Triple (fun files event after => Files.Answers files (osPart.event event) after)
      (Beside path temporary old taken) (writeAll position rest).run
      (Triple.Leaves (fun _ => Beside path temporary old (taken ++ rest)) fun _ files => files.content path = old)
      fun files => files.content path = old := by
  induction position, rest using writeAll.induct generalizing taken with
  | case1 position =>
    rw [writeAll, if_pos rfl, List.append_nil]
    exact .pure (fun _ => id) fun _ h => h.content_eq
  | case2 position rest hSome ih =>
    rw [writeAll, if_neg hSome]
    rw [hPosition]
    refine Triple.run_bind (Triple.attempt triple_write ?_ fun _ _ => id) (fun _ _ => id) fun count => ?_
    · exact fun _ _ h => h.content_eq
    split
    · rename_i hCount
      have hTaken : (taken ++ rest.take count.val).length = taken.length + count.val := by
        rw [List.length_append, List.length_take, Nat.min_eq_left count.property]
      have hNext := ih count hCount (by rw [hTaken, hPosition])
      rw [List.append_assoc, List.take_append_drop] at hNext
      rw [hPosition] at hNext
      exact hNext
    · exact .pure (fun _ h => h.content_eq) fun _ h => h.content_eq

theorem triple_create (hPath : path.extension ≠ some ['t', 'm', 'p']) :
    Triple Files.Answers (fun files => files.content path = old)
      (FileSystem.create (path.withExtension ['t', 'm', 'p']))
      (Triple.Leaves (fun _ => Beside path (path.withExtension ['t', 'm', 'p']) old []) fun _ files =>
        files.content path = old) fun files => files.content path = old := by
  refine Triple.ask (I := FileSystem) (fun files h => h) fun files answer after h hAnswer => ?_
  cases hAnswer with
  | create hName =>
    -- a path without a file name is its own neighbour, and cannot be created
    have hOther : path ≠ path.withExtension ['t', 'm', 'p'] := by
      intro hSame
      obtain hNone | hTmp := (withExtension_eq_self_iff (by simp)).mp hSame.symm
      · rw [← hSame] at hName
        exact hName hNone
      · exact hPath hTmp
    have hKept : Function.update files.content (path.withExtension ['t', 'm', 'p']) (some []) path = old := by
      rw [Function.update_of_ne hOther, h]
    exact ⟨⟨hOther, hKept, rfl, Function.update_self ..⟩, hKept⟩
  | notCreated => exact ⟨h, h⟩

theorem triple_fsWrite (hPath : path.extension ≠ some ['t', 'm', 'p']) (bytes : Bytes) :
    Triple Files.Answers (fun files => files.content path = old)
      (FileSystem.write (path.withExtension ['t', 'm', 'p']) bytes).run
      (Triple.Leaves (fun _ => Beside path (path.withExtension ['t', 'm', 'p']) old bytes) fun _ files =>
        files.content path = old) fun files => files.content path = old := by
  refine Triple.run_bind (Triple.attempt (triple_create hPath) ?_ fun _ _ => id) (fun _ _ => id) fun _ => ?_
  · exact fun _ _ h => h.content_eq
  apply Triple.attempt (Triple.lift osPart (triple_writeAll rfl))
  · exact fun _ _ h => h.content_eq
  · exact fun _ _ => id

/-- Only the renaming touches the file of the status, and it leaves the whole of it. -/
theorem triple_rename {temporary : Path} (bytes : Bytes) :
    Triple Files.Answers (Beside path temporary old bytes) (FileSystem.rename temporary path)
      (Triple.Leaves (fun _ files => files.content path = some bytes) fun _ files => files.content path = old)
      fun files => files.content path = old ∨ files.content path = some bytes := by
  refine Triple.ask (I := FileSystem) (fun files h => .inl h.content_eq) fun files answer after h hAnswer => ?_
  cases hAnswer with
  | @rename _ _ content hSource =>
    obtain rfl := Option.some.inj (hSource.symm.trans h.taken_eq)
    exact ⟨Function.update_self .., .inr (Function.update_self ..)⟩
  | notRenamed => exact ⟨h.content_eq, .inl h.content_eq⟩

theorem triple_createDirectory :
    Triple Files.Answers (fun files => files.content path = old) (createDirectory path).run
      (Triple.Leaves (fun _ files => files.content path = old) fun _ files => files.content path = old)
      fun files => files.content path = old := by
  rw [createDirectory]
  split
  · refine Triple.attempt
      (Triple.lift osPart (Triple.ask (I := Os) (fun _ => id) fun files answer after h hAnswer => ?_))
      (fun _ _ => id) fun _ _ => id
    cases hAnswer with
    | createDirAll => cases answer <;> exact ⟨h, h⟩
  · exact .pure (fun _ => id) fun _ => id

/-- One call: it replaces the whole file by its status where it returns, leaves it where it fails, and where it is
stopped one or the other. -/
theorem triple_writeAtomicJson (hPath : path.extension ≠ some ['t', 'm', 'p']) (status : NodeStatus) :
    Triple Files.Answers (fun files => files.content path = old) (writeAtomicJson toVecPretty path status).run
      (Triple.Leaves
        (fun _ files => ∃ bytes, statusBytes toVecPretty status = .ok bytes ∧ files.content path = some bytes)
        fun _ files => files.content path = old)
      fun files => files.content path = old ∨
        ∃ bytes, statusBytes toVecPretty status = .ok bytes ∧ files.content path = some bytes := by
  have hEncode : Triple Files.Answers (fun files => files.content path = old)
      (ExceptT.mk (pure (statusBytes toVecPretty status)) : ExceptT SupervisorError (Prog FileSystem) Bytes).run
      (Triple.Leaves (fun bytes files => statusBytes toVecPretty status = .ok bytes ∧ files.content path = old)
        fun _ files => files.content path = old) fun files => files.content path = old := by
    refine .pure (fun files h => ?_) fun _ => id
    cases hBytes : statusBytes toVecPretty status with
    | ok bytes => exact ⟨rfl, h⟩
    | error error => exact h
  rw [writeAtomicJson]
  refine Triple.run_bind (triple_createDirectory.mono (fun _ => id) (fun _ _ => id) fun _ => .inl) (fun _ _ => .inl)
    fun _ => ?_
  refine Triple.run_bind (hEncode.mono (fun _ => id) (fun _ _ => id) fun _ => .inl) (fun _ _ => .inl) fun bytes => ?_
  refine Triple.assume fun hBytes => ?_
  refine Triple.run_bind (Triple.attempt ((triple_fsWrite hPath bytes).mono (fun _ => id) (fun _ _ => id) fun _ => .inl)
    ?_ fun _ _ => .inl) (fun _ _ => .inl) fun _ => ?_
  · exact fun _ _ h => .inl h.content_eq
  refine Triple.attempt ((triple_rename bytes).mono (fun _ => id) ?_ ?_) ?_ fun _ _ => .inl
  · rintro (error | value) files h
    · exact h
    · exact ⟨bytes, hBytes, h⟩
  · rintro files (h | h)
    · exact .inl h
    · exact .inr ⟨bytes, hBytes, h⟩
  · exact fun _ _ => .inr

theorem register_of_statusWrites (hPath : path.extension ≠ some ['t', 'm', 'p']) {before after : Files}
    {writes : List StatusWrite} (h : StatusWrites toVecPretty path before writes after) :
    Register toVecPretty path (before.content path) writes (after.content path) := by
  induction h with
  | nil => exact .unwritten
  | @concat writes write middle after hWrites hStands hAnswered ih =>
    have hTriple : Triple Files.Answers (fun files => files.content path = middle.content path)
        (writeAtomicJson toVecPretty path write.status).run _ _ := triple_writeAtomicJson hPath write.status
    obtain ⟨target, hReaches⟩ | ⟨result, hRuns⟩ := hStands
    · obtain hOld | ⟨bytes, hBytes, hNew⟩ := hTriple.stops rfl (.inl ⟨target, hReaches⟩) hAnswered
      · rw [hOld]
        exact .kept ih fun hRuns => hRuns.not_reaches hReaches
      · rw [hNew]
        exact .set ih hBytes fun error hRuns => hRuns.not_reaches hReaches
    · have hLeaves := hTriple.runs rfl hRuns hAnswered
      cases result with
      | ok value =>
        obtain ⟨bytes, hBytes, hNew⟩ := hLeaves
        rw [hNew]
        exact .set ih hBytes fun error hOther => by cases hRuns.unique hOther
      | error error =>
        have hOld : after.content path = middle.content path := hLeaves
        rw [hOld]
        exact .kept ih fun hOther => by cases hRuns.unique hOther

/-- What a register shows ends in a newline, or was there before. -/
theorem Register.whole {first content : Option Bytes} {writes : List StatusWrite}
    (h : Register toVecPretty path first writes content) :
    content = first ∨ ∃ bytes, content = some bytes ∧ bytes ≠ [] := by
  induction h with
  | unwritten => exact .inl rfl
  | @set _ write _ bytes _ hBytes =>
    refine .inr ⟨bytes, rfl, ?_⟩
    rw [statusBytes] at hBytes
    obtain ⟨text, -, hText⟩ := bind_eq_ok.mp hBytes
    cases hText
    exact List.append_ne_nil_of_right_ne_nil text (List.cons_ne_nil 10 [])
  | kept _ _ ih => exact ih

end Whole

/-- A filesystem on which nothing is there yet. -/
def Files.empty : Files := ⟨fun _ => none, none⟩

section Torn

variable {toVecPretty : NodeStatus → Except String Bytes} {path : Path}

/-- The file beside is the file itself: a call stopped right after creating it leaves it empty. -/
theorem torn_of_extension (hPath : path.extension = some ['t', 'm', 'p']) {status : NodeStatus} {bytes : Bytes}
    (hBytes : toVecPretty status = .ok bytes) : ∃ writes after, StatusWrites toVecPretty path .empty writes after ∧
      after.content path = some [] := by
  have hSame : path.withExtension ['t', 'm', 'p'] = path := (withExtension_eq_self_iff (by simp)).mpr (.inr hPath)
  have hName : path.fileName ≠ none := by
    intro hNone
    rw [Path.extension, hNone] at hPath
    cases hPath
  obtain ⟨name, hName'⟩ := Option.ne_none_iff_exists'.mp hName
  obtain ⟨parent, hParent⟩ : ∃ parent, path.parent = some parent := by
    rw [Path.parent, components_of_fileName hName']
    cases path.components.dropLast <;> exact ⟨_, rfl⟩
  have hDirectory : Returns (createDirectory path) [⟨.os (.createDirAll parent), .ok ()⟩] () := by
    rw [createDirectory, hParent]
    exact returns_attempt.mpr (osPart.runs_lift.mpr ⟨[⟨.createDirAll parent, .ok ()⟩], rfl, Prog.runs_ask.mpr rfl⟩)
  have hStatus : statusBytes toVecPretty status = .ok (bytes ++ [10]) := by
    rw [statusBytes, hBytes]
    rfl
  have hCreate : (writeAtomicJson toVecPretty path status).run.Reaches [⟨.os (.createDirAll parent), .ok ()⟩]
      (.create path) := by
    refine invokes_bind.mpr (.inr ⟨_, (), [], rfl, hDirectory, ?_⟩)
    refine invokes_bind.mpr (.inr ⟨[], bytes ++ [10], [], rfl, ⟨rfl, hStatus.symm⟩, ?_⟩)
    rw [hSame]
    refine invokes_bind.mpr (.inl (invokes_attempt.mpr ?_))
    exact invokes_bind.mpr (.inl (invokes_attempt.mpr (Prog.reaches_ask.mpr ⟨rfl, rfl⟩)))
  have hStands : (writeAtomicJson toVecPretty path status).run.Stands
      ([⟨.os (.createDirAll parent), .ok ()⟩] ++ [⟨.create path, .ok ()⟩]) := Prog.Reaches.stands hCreate
  refine ⟨[⟨status, [⟨.os (.createDirAll parent), .ok ()⟩, ⟨.create path, .ok ()⟩]⟩], _,
    .concat .nil hStands (.cons .createDirAll (.cons (.create hName) .nil)), ?_⟩
  exact Function.update_self ..

end Torn

/-- The status file is a register that each call sets as a whole or not at all, through failures and stops anywhere,
unless its name already ends in what the file beside it is called by. -/
theorem statusFile_register_iff (toVecPretty : NodeStatus → Except String Bytes) (path : Path)
    (hSome : ∃ status bytes, toVecPretty status = .ok bytes) :
    (∀ before writes after, StatusWrites toVecPretty path before writes after →
      Register toVecPretty path (before.content path) writes (after.content path)) ↔
    path.extension ≠ some ['t', 'm', 'p'] := by
  constructor
  · intro h hPath
    obtain ⟨status, bytes, hBytes⟩ := hSome
    obtain ⟨writes, after, hWrites, hEmpty⟩ := torn_of_extension hPath hBytes
    have hRegister := h _ _ _ hWrites
    rw [hEmpty] at hRegister
    obtain hNone | ⟨whole, hWhole, hLine⟩ := hRegister.whole
    · cases hNone
    · obtain rfl := Option.some.inj hWhole
      exact hLine rfl
  · exact fun hPath before writes after => register_of_statusWrites hPath

/-- The status of a node whose first cycle failed, and its text. -/
def failedStatus : NodeStatus :=
  ⟨"12D3KooWEyoppNCUx8Yx66oV9fJnriXwCcXwDDUA2kj6vnc6iDEp", .backoff, 0, none, [.backoff], ⟨1, 0, 0, 0, 0, 0⟩,
    some "self-announcement failed: no gas", 1000⟩

def failedText : String :=
  "\x7b\n  \"peerId\": \"12D3KooWEyoppNCUx8Yx66oV9fJnriXwCcXwDDUA2kj6vnc6iDEp\",\n  \"state\": \"BACKOFF\",\n" ++
  "  \"connectedPeers\": 0,\n  \"connectedVia\": null,\n  \"transitions\": [\n    \"BACKOFF\"\n  ],\n" ++
  "  \"registry\": \x7b\n    \"scans\": 1,\n    \"scanFailures\": 0,\n    \"logsProcessed\": 0,\n" ++
  "    \"rejectedRecords\": 0,\n    \"reorgs\": 0,\n    \"announcements\": 0\n  \x7d,\n" ++
  "  \"lastError\": \"self-announcement failed: no gas\",\n  \"updatedAt\": 1000\n\x7d"

/-- Writes that one status and no other. -/
def failedPretty (status : NodeStatus) : Except String Bytes :=
  if status = failedStatus then .ok failedText.toUTF8.toList else .error "another status"

theorem statusFile_register_iff_json :
    (∀ before writes after, StatusWrites failedPretty ⟨true, ["run", "status.json"]⟩ before writes after →
      Register failedPretty ⟨true, ["run", "status.json"]⟩ (before.content ⟨true, ["run", "status.json"]⟩) writes
        (after.content ⟨true, ["run", "status.json"]⟩)) ∧
    ¬ ∀ before writes after, StatusWrites failedPretty ⟨true, ["run", "status.tmp"]⟩ before writes after →
      Register failedPretty ⟨true, ["run", "status.tmp"]⟩ (before.content ⟨true, ["run", "status.tmp"]⟩) writes
        (after.content ⟨true, ["run", "status.tmp"]⟩) := by
  have hSome : ∃ status bytes, failedPretty status = .ok bytes := ⟨failedStatus, _, if_pos rfl⟩
  constructor
  · exact (statusFile_register_iff failedPretty ⟨true, ["run", "status.json"]⟩ hSome).mpr (by decide)
  · intro h
    exact (statusFile_register_iff failedPretty ⟨true, ["run", "status.tmp"]⟩ hSome).mp h (by decide)

end Resurrect.Node
