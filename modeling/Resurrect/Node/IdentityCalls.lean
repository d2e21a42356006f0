import Resurrect.Foundation.Interleaving
import Resurrect.Node.Identity

/-! # What a call has done when it asks and when it returns

The events of one call of `load_or_create_identity` say whether it made the file,
which key it drew and how much of it is written. Walking the program once gives
what is known at each of its queries and at its end: it goes on only after good
answers, writes the next bytes of its own key, and an error has its cause.
-/

namespace Resurrect.Node.IdentityFile

open Interaction

/-- The answers a call goes on after. -/
def GoesOn : Event Os → Prop
  | ⟨.read _, answer⟩ => ∃ error : IoError, answer = .error error ∧ error.kind = .notFound
  | ⟨.createDirAll _, answer⟩ => answer = .ok ()
  | ⟨.randomness, _⟩ => True
  | ⟨.createNew _ _, answer⟩ => answer = .ok ()
  | ⟨.write _ bytes, answer⟩ => ∃ count : {count : Nat // count ≤ bytes.length}, answer = .ok count ∧ 0 < count.val
  | ⟨.syncAll, answer⟩ => answer = .ok ()

/-- The answers a call returns no error for. -/
def Sound (library : IdentityLibrary) : Event Os → Prop
  | ⟨.read _, .ok bytes⟩ => ∃ keypair, library.fromProtobufEncoding bytes = .ok keypair
  | event => GoesOn event

def Creates : Event Os → Prop
  | ⟨.createNew _ _, answer⟩ => answer = .ok ()
  | _ => False

def Created (history : List (Event Os)) : Prop := ∃ event ∈ history, Creates event

def wrote : Event Os → Bytes
  | ⟨.write _ bytes, .ok count⟩ => bytes.take count.val
  | _ => []

/-- What a call has written, one write after the other. -/
def written (history : List (Event Os)) : Bytes := history.flatMap wrote

/-- The call drew the key of this encoding. -/
def Drew (library : IdentityLibrary) (history : List (Event Os)) (encoded : Bytes) : Prop :=
  ∃ seed : Seed, ⟨.randomness, seed⟩ ∈ history ∧
    library.toProtobufEncoding (library.generateEd25519 seed) = .ok encoded

/-- The call made the file and has not written its whole key. -/
def Unfinished (library : IdentityLibrary) (history : List (Event Os)) : Prop :=
  Created history ∧ ∀ encoded, Drew library history encoded → written history ≠ encoded

section Histories

variable {library : IdentityLibrary} {history : List (Event Os)} {event : Event Os}

theorem sound_of_goesOn (h : GoesOn event) : Sound library event := by
  obtain ⟨query, answer⟩ := event
  cases query with
  | read path =>
    obtain ⟨error, rfl, hKind⟩ := h
    exact ⟨error, rfl, hKind⟩
  | _ => exact h

theorem created_concat : Created (history ++ [event]) ↔ Created history ∨ Creates event := by
  simp [Created, or_and_right, exists_or]

theorem written_concat : written (history ++ [event]) = written history ++ wrote event := by
  simp [written]

theorem Drew.concat {encoded : Bytes} (h : Drew library history encoded) : Drew library (history ++ [event]) encoded := by
  obtain ⟨seed, hMem, hEncoded⟩ := h
  exact ⟨seed, List.mem_append_left _ hMem, hEncoded⟩

theorem quiet_of_not_goesOn (h : ¬ GoesOn event) : ¬ Creates event ∧ wrote event = [] := by
  obtain ⟨query, answer⟩ := event
  cases query with
  | createNew path mode => exact ⟨h, rfl⟩
  | write position bytes =>
    refine ⟨id, ?_⟩
    cases answer with
    | error error => rfl
    | ok count =>
      have hZero : count.val = 0 := by
        by_contra hCount
        exact h ⟨count, rfl, Nat.pos_of_ne_zero hCount⟩
      rw [wrote, hZero, List.take_zero]
  | _ => exact ⟨id, rfl⟩

end Histories

section Stages

variable (library : IdentityLibrary) (path : Path) (history : List (Event Os))

/-- What a call that made the file has written is the start of its own key. -/
def Keyed : Prop := Created history → ∃ encoded, Drew library history encoded ∧ written history <+: encoded

/-- Where a call stands when it asks. -/
def Place : IdentityQuery → Prop
  | .read _ => history = []
  | .createDirAll directory => path.parent = some directory
  | .createNew _ _ => written history = [] ∧
      ∀ directory, path.parent = some directory → ⟨.createDirAll directory, .ok ()⟩ ∈ history
  | .write position bytes => Created history ∧ position = (written history).length ∧
      ∃ encoded, Drew library history encoded ∧ encoded = written history ++ bytes
  | _ => True

structure Asking (query : IdentityQuery) : Prop where
  goesOn : ∀ event ∈ history, GoesOn event
  keyed : Keyed library history
  place : Place library path history query

structure Failed : Prop where
  keyed : Keyed library history
  cause : ∃ event ∈ history, ¬ Sound library event

structure Returned (keypair : library.Keypair) : Prop where
  keyed : Keyed library history
  sound : ∀ event ∈ history, Sound library event
  origin : (∃ path bytes, ⟨.read path, .ok bytes⟩ ∈ history ∧ library.fromProtobufEncoding bytes = .ok keypair) ∨
    Created history ∧ library.fromProtobufEncoding (written history) = .ok keypair

/-- Before the file is made. -/
structure Preparing : Prop where
  goesOn : ∀ event ∈ history, GoesOn event
  uncreated : ¬ Created history
  unwritten : written history = []

/-- With `rest` of the key still to write. -/
structure Writing (encoded rest : Bytes) : Prop where
  goesOn : ∀ event ∈ history, GoesOn event
  created : Created history
  drew : Drew library history encoded
  split : encoded = written history ++ rest

end Stages

section Guarantees

variable {library : IdentityLibrary} {path : Path} {history : List (Event Os)} {event : Event Os}
  {encoded rest : Bytes}

theorem goesOn_concat (h : ∀ event ∈ history, GoesOn event) (hEvent : GoesOn event) :
    ∀ other ∈ history ++ [event], GoesOn other :=
  List.forall_mem_append.mpr ⟨h, List.forall_mem_singleton.mpr hEvent⟩

theorem Asking.failed {query : IdentityQuery} (h : Asking library path history query) (hEvent : ¬ Sound library event) :
    Failed library (history ++ [event]) where
  keyed hCreated := by
    obtain ⟨hQuiet, hWrote⟩ := quiet_of_not_goesOn (mt sound_of_goesOn hEvent)
    obtain ⟨encoded, hDrew, hPart⟩ := h.keyed ((created_concat.mp hCreated).resolve_right hQuiet)
    rw [written_concat, hWrote, List.append_nil]
    exact ⟨encoded, hDrew.concat, hPart⟩
  cause := ⟨event, List.mem_append_right _ (List.mem_singleton_self _), hEvent⟩

theorem Preparing.asking {query : IdentityQuery} (h : Preparing history) (hPlace : Place library path history query) :
    Asking library path history query := ⟨h.goesOn, fun hCreated => absurd hCreated h.uncreated, hPlace⟩

theorem preparing_nil : Preparing [] where
  goesOn _ hMem := by cases hMem
  uncreated := by
    rintro ⟨event, hMem, -⟩
    cases hMem
  unwritten := rfl

theorem Preparing.concat (h : Preparing history) (hEvent : GoesOn event) (hQuiet : ¬ Creates event)
    (hWrote : wrote event = []) : Preparing (history ++ [event]) where
  goesOn := goesOn_concat h.goesOn hEvent
  uncreated hCreated := (created_concat.mp hCreated).elim h.uncreated hQuiet
  unwritten := by rw [written_concat, h.unwritten, hWrote, List.append_nil]

theorem Writing.keyed (h : Writing library history encoded rest) : Keyed library history :=
  fun _ => ⟨encoded, h.drew, rest, h.split.symm⟩

theorem Writing.concat (h : Writing library history encoded rest) (hEvent : GoesOn event) {after : Bytes}
    (hWrote : rest = wrote event ++ after) : Writing library (history ++ [event]) encoded after where
  goesOn := goesOn_concat h.goesOn hEvent
  created := created_concat.mpr (.inl h.created)
  drew := h.drew.concat
  split := by rw [written_concat, List.append_assoc, ← hWrote, h.split]

theorem guarantees_writeAll {position : Nat} (h : Writing library history encoded rest)
    (hPosition : position = (written history).length) :
    Guarantees (Asking library path) (Ends (fun trace _ => Writing library trace encoded []) fun trace _ =>
      Failed library trace) history (writeAll position rest).run := by
  induction position, rest using writeAll.induct generalizing history with
  | case1 position =>
    rw [writeAll, if_pos rfl]
    exact Guarantees.pure h
  | case2 position rest hSome ih =>
    have hAsking : Asking library path history (.write position rest) :=
      ⟨h.goesOn, h.keyed, h.created, hPosition, encoded, h.drew, h.split⟩
    have hWrite : Guarantees (Asking library path)
        (Ends (fun trace count => trace = history ++ [⟨.write position rest, .ok count⟩]) fun trace _ =>
          Failed library trace) history (Os.write position rest) := by
      rw [Os.write]
      refine Guarantees.ask (I := Os) hAsking fun answer => ?_
      cases answer with
      | ok count => rfl
      | error error =>
        refine hAsking.failed fun hSound => ?_
        obtain ⟨count, hAnswer, -⟩ := hSound
        cases hAnswer
    rw [writeAll, if_neg hSome]
    refine (Guarantees.attempt hWrite).run_bind fun before count hBefore => ?_
    obtain rfl := hBefore
    split
    · rename_i hCount
      have hGoesOn : GoesOn ⟨.write position rest, .ok count⟩ := ⟨count, rfl, hCount⟩
      refine ih count hCount (h.concat hGoesOn (List.take_append_drop count.val rest).symm) ?_
      rw [written_concat, List.length_append, ← hPosition, wrote, List.length_take, Nat.min_eq_left count.property]
    · rename_i hCount
      refine Guarantees.pure (hAsking.failed fun hSound => ?_)
      obtain ⟨other, hAnswer, hPositive⟩ := hSound
      cases hAnswer
      exact hCount hPositive

theorem guarantees_writePrivateFile (h : Preparing history) (hDrew : Drew library history encoded)
    (hDirectory : ∀ directory, path.parent = some directory → ⟨.createDirAll directory, .ok ()⟩ ∈ history) :
    Guarantees (Asking library path) (Ends (fun trace _ => Writing library trace encoded []) fun trace _ =>
      Failed library trace) history (writePrivateFile path encoded).run := by
  have hAsking : Asking library path history (.createNew path 0o600) := h.asking ⟨h.unwritten, hDirectory⟩
  have hCreate : Guarantees (Asking library path)
      (Ends (fun trace _ => trace = history ++ [⟨.createNew path 0o600, .ok ()⟩]) fun trace _ =>
        Failed library trace) history (Os.createNew path 0o600) := by
    rw [Os.createNew]
    refine Guarantees.ask (I := Os) hAsking fun answer => ?_
    cases answer with
    | ok => rfl
    | error error => exact hAsking.failed fun hSound => (by cases hSound)
  refine (Guarantees.attempt hCreate).run_bind fun before _ hBefore => ?_
  obtain rfl := hBefore
  have hWriting : Writing library (history ++ [⟨.createNew path 0o600, .ok ()⟩]) encoded encoded :=
    { goesOn := goesOn_concat h.goesOn rfl
      created := created_concat.mpr (.inr rfl)
      drew := hDrew.concat
      split := by rw [written_concat, h.unwritten]; rfl }
  have hPosition : 0 = (written (history ++ [⟨.createNew path 0o600, .ok ()⟩])).length := by
    rw [written_concat, h.unwritten]
    rfl
  refine (guarantees_writeAll hWriting hPosition).run_bind fun trace _ hTrace => ?_
  have hSyncing : Asking library path trace .syncAll := ⟨hTrace.goesOn, hTrace.keyed, trivial⟩
  have hSynced : GoesOn ⟨.syncAll, .ok ()⟩ := rfl
  rw [Os.syncAll]
  refine Guarantees.attempt (Guarantees.ask (I := Os) hSyncing fun answer => ?_)
  cases answer with
  | ok => exact hTrace.concat hSynced rfl
  | error error => exact hSyncing.failed fun hSound => (by cases hSound)

theorem guarantees_createParent (h : Preparing history) :
    Guarantees (Asking library path) (Ends (fun trace _ => Preparing trace ∧
      ∀ directory, path.parent = some directory → ⟨.createDirAll directory, .ok ()⟩ ∈ trace) fun trace _ =>
        Failed library trace) history (createParent path).run := by
  rw [createParent]
  cases hParent : path.parent with
  | none => exact Guarantees.pure ⟨h, fun directory hDirectory => by cases hDirectory⟩
  | some parent =>
    have hAsking : Asking library path history (.createDirAll parent) := h.asking hParent
    have hCreated : GoesOn ⟨.createDirAll parent, .ok ()⟩ := rfl
    dsimp only
    rw [Os.createDirAll]
    refine Guarantees.attempt (Guarantees.ask (I := Os) hAsking fun answer => ?_)
    cases answer with
    | ok =>
      refine ⟨h.concat hCreated id rfl, fun directory hDirectory => ?_⟩
      obtain rfl := Option.some.inj hDirectory
      exact List.mem_append_right _ (List.mem_singleton_self _)
    | error error => exact hAsking.failed fun hSound => (by cases hSound)

theorem guarantees_createIdentity (hLawful : library.Lawful) (h : Preparing history) :
    Guarantees (Asking library path) (Ends (Returned library) fun trace _ => Failed library trace) history
      (createIdentity library path).run := by
  rw [createIdentity]
  refine (guarantees_createParent h).run_bind fun before _ hBefore => ?_
  obtain ⟨hPreparing, hDirectory⟩ := hBefore
  have hAsking : Asking library path before .randomness := hPreparing.asking trivial
  have hDraw : Guarantees (Asking library path) (fun trace seed => trace = before ++ [⟨.randomness, seed⟩]) before
      Os.randomness := Guarantees.ask (I := Os) hAsking fun seed => rfl
  refine Guarantees.lift_bind hDraw fun trace seed hTrace => ?_
  obtain rfl := hTrace
  obtain ⟨encoded, hEncoded⟩ := hLawful.encodes seed
  have hDrawn : Preparing (before ++ [⟨.randomness, seed⟩]) := hPreparing.concat trivial id rfl
  have hDrew : Drew library (before ++ [⟨.randomness, seed⟩]) encoded :=
    ⟨seed, List.mem_append_right _ (List.mem_singleton_self _), hEncoded⟩
  have hStill : ∀ directory, path.parent = some directory →
      ⟨.createDirAll directory, .ok ()⟩ ∈ before ++ [⟨.randomness, seed⟩] :=
    fun directory hParent => List.mem_append_left _ (hDirectory directory hParent)
  dsimp only
  rw [hEncoded]
  refine (Guarantees.attempt (guarantees_writePrivateFile hDrawn hDrew hStill)).run_bind fun after _ hAfter => ?_
  have hWhole : encoded = written after := hAfter.split.trans (List.append_nil _)
  refine Guarantees.pure ⟨hAfter.keyed, fun event hMem => sound_of_goesOn (hAfter.goesOn event hMem),
    .inr ⟨hAfter.created, ?_⟩⟩
  rw [← hWhole]
  exact hLawful.decodes hEncoded

theorem guarantees_loadOrCreateIdentity (hLawful : library.Lawful) :
    Guarantees (Asking library path) (Ends (Returned library) fun trace _ => Failed library trace) []
      (loadOrCreateIdentity library path).run := by
  have hAsking : Asking library path [] (.read path) := preparing_nil.asking rfl
  have hRead : Guarantees (Asking library path) (fun trace answer => trace = [⟨.read path, answer⟩]) []
      (Os.read path) := Guarantees.ask (I := Os) hAsking fun answer => rfl
  rw [loadOrCreateIdentity]
  refine Guarantees.lift_bind hRead fun trace answer hTrace => ?_
  obtain rfl := hTrace
  cases answer with
  | ok bytes =>
    dsimp only
    cases hKey : library.fromProtobufEncoding bytes with
    | ok keypair =>
      refine Guarantees.pure ⟨fun hCreated => ?_, ?_, .inl ⟨path, bytes, List.mem_singleton_self _, hKey⟩⟩
      · obtain ⟨event, hMem, hCreates⟩ := hCreated
        cases List.mem_singleton.mp hMem
        exact hCreates.elim
      · exact List.forall_mem_singleton.mpr ⟨keypair, hKey⟩
    | error error =>
      refine Guarantees.pure (hAsking.failed fun hSound => ?_)
      obtain ⟨keypair, hOk⟩ := hSound
      rw [hKey] at hOk
      cases hOk
  | error error =>
    dsimp only
    split
    · rename_i hKind
      have hAbsent : GoesOn ⟨.read path, .error error⟩ := ⟨error, rfl, hKind⟩
      exact guarantees_createIdentity hLawful (preparing_nil.concat hAbsent id rfl)
    · rename_i hKind
      refine Guarantees.pure (hAsking.failed fun hSound => ?_)
      obtain ⟨other, hOther, hNotFound⟩ := hSound
      cases hOther
      exact hKind hNotFound

end Guarantees

section Calls

variable {library : IdentityLibrary} {path : Path} {history : List (Event Os)}

theorem asking_of_reaches (hLawful : library.Lawful) {query : IdentityQuery}
    (h : (loadOrCreateIdentity library path).run.Reaches history query) : Asking library path history query :=
  (guarantees_loadOrCreateIdentity hLawful).reaches h

theorem returned_of_runs (hLawful : library.Lawful) {keypair : library.Keypair}
    (h : (loadOrCreateIdentity library path).run.Runs history (.ok keypair)) : Returned library history keypair :=
  (guarantees_loadOrCreateIdentity hLawful).runs h

theorem failed_of_runs (hLawful : library.Lawful) {error : IdentityError}
    (h : (loadOrCreateIdentity library path).run.Runs history (.error error)) : Failed library history :=
  (guarantees_loadOrCreateIdentity hLawful).runs h

theorem keyed_of_stands (hLawful : library.Lawful) (h : (loadOrCreateIdentity library path).run.Stands history) :
    Keyed library history := by
  obtain ⟨query, hReaches⟩ | ⟨result, hRuns⟩ := h
  · exact (asking_of_reaches hLawful hReaches).keyed
  · cases result with
    | ok keypair => exact (returned_of_runs hLawful hRuns).keyed
    | error error => exact (failed_of_runs hLawful hRuns).keyed

/-- An answer that is not sound is the last one: the call returns an error. -/
theorem error_of_not_sound (hLawful : library.Lawful) {event : Event Os}
    (h : (loadOrCreateIdentity library path).run.Reaches history event.query) (hEvent : ¬ Sound library event) :
    ∃ error, (loadOrCreateIdentity library path).run.Runs (history ++ [event]) (.error error) := by
  have hMem : event ∈ history ++ [event] := List.mem_append_right _ (List.mem_singleton_self _)
  obtain ⟨query, hReaches⟩ | ⟨result, hRuns⟩ := h.stands
  · exact absurd (sound_of_goesOn ((asking_of_reaches hLawful hReaches).goesOn event hMem)) hEvent
  · cases result with
    | ok keypair => exact absurd ((returned_of_runs hLawful hRuns).sound event hMem) hEvent
    | error error => exact ⟨error, hRuns⟩

end Calls

end Resurrect.Node.IdentityFile
