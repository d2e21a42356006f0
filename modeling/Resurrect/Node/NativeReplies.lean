import Resurrect.Node.HostBoard

/-! # What native discovery replies

The reply to a native-candidates command lists what configured peers, mDNS and
identify have told of, and nothing else: a verified record is kept beside it and
never read. So a verified peer is in a reply exactly where those three tell of it.
-/

namespace Resurrect.Node

open Resurrect.Core Libp2p

variable {PeerId Multiaddr : Type}

inductive Handled (PeerId Multiaddr : Type) where
  | command (closed : Finset Sender) (dialed : Except String Unit) (command : Command)
  | swarm (event : SwarmEvent PeerId Multiaddr)

/-- The verified records that were added, in order. -/
def Handled.verified : Handled PeerId Multiaddr → Option PeerCandidate
  | .command _ _ (.addVerified peer) => some peer
  | _ => none

def Handled.reported : Handled PeerId Multiaddr → Option (SwarmEvent PeerId Multiaddr)
  | .command .. => none
  | .swarm event => some event

section Hearsay

variable [DecidableEq PeerId] [DecidableEq Multiaddr]

/-- Whether an address of a peer was told of and has not expired since. -/
def SwarmEvent.hear (peerId : PeerId) (address : Multiaddr) (heard : Bool) : SwarmEvent PeerId Multiaddr → Bool
  | .mdnsDiscovered peers => heard || decide ((peerId, address) ∈ peers)
  | .mdnsExpired peers => heard && decide ((peerId, address) ∉ peers)
  | .identifyReceived peer listenAddrs => heard || decide (peerId = peer ∧ address ∈ listenAddrs)
  | _ => heard

def heard (configured : List (PeerId × Multiaddr)) (events : List (SwarmEvent PeerId Multiaddr)) (peerId : PeerId)
    (address : Multiaddr) : Bool :=
  events.foldl (SwarmEvent.hear peerId address) (decide ((peerId, address) ∈ configured))

/-- Whether a peer was identified, be it without an address, and no address of it has expired since. -/
def SwarmEvent.meet (peerId : PeerId) (met : Bool) : SwarmEvent PeerId Multiaddr → Bool
  | .mdnsExpired peers => met && decide (peerId ∉ peers.map Prod.fst)
  | .identifyReceived peer _ => met || decide (peerId = peer)
  | _ => met

def met (events : List (SwarmEvent PeerId Multiaddr)) (peerId : PeerId) : Bool :=
  events.foldl (SwarmEvent.meet peerId) false

/-- A native map that lists the peers and addresses told of. -/
structure Lists (native : AList fun _ : PeerId => List Multiaddr) (heard : PeerId → Multiaddr → Prop)
    (met : PeerId → Prop) : Prop where
  address : ∀ peerId address, address ∈ (native.lookup peerId).getD [] ↔ heard peerId address
  nodup : ∀ peerId, ((native.lookup peerId).getD []).Nodup
  peer : ∀ peerId, peerId ∈ native ↔ (∃ address, heard peerId address) ∨ met peerId

namespace Lists

variable {native : AList fun _ : PeerId => List Multiaddr} {heard : PeerId → Multiaddr → Prop} {met : PeerId → Prop}

omit [DecidableEq Multiaddr] in
theorem congr (h : Lists native heard met) {heard' : PeerId → Multiaddr → Prop} {met' : PeerId → Prop}
    (hHeard : ∀ peerId address, heard peerId address ↔ heard' peerId address)
    (hMet : ∀ peerId, met peerId ↔ met' peerId) : Lists native heard' met' where
  address peerId address := (h.address peerId address).trans (hHeard peerId address)
  nodup := h.nodup
  peer peerId := (h.peer peerId).trans (or_congr (exists_congr (hHeard peerId)) (hMet peerId))

omit [DecidableEq Multiaddr] in
theorem empty : Lists (∅ : AList fun _ : PeerId => List Multiaddr) (fun _ _ => False) fun _ => False where
  address peerId address := by simp
  nodup peerId := by simp
  peer peerId := by simp

theorem mem_foldl_insert (held addresses : List Multiaddr) (address : Multiaddr) :
    address ∈ addresses.foldl (fun held address => held.insert address) held ↔ address ∈ held ∨ address ∈ addresses := by
  induction addresses generalizing held with
  | nil => simp
  | cons first rest ih =>
    rw [List.foldl_cons, ih, List.mem_insert_iff, List.mem_cons]
    tauto

theorem nodup_foldl_insert {held : List Multiaddr} (h : held.Nodup) (addresses : List Multiaddr) :
    (addresses.foldl (fun held address => held.insert address) held).Nodup := by
  induction addresses generalizing held with
  | nil => exact h
  | cons first rest ih => exact ih h.insert

theorem lookup_addNative (native : AList fun _ : PeerId => List Multiaddr) (peer peerId : PeerId)
    (addresses : List Multiaddr) : (EventLoop.addNative native peer addresses).lookup peerId =
      if peerId = peer then
        some (addresses.foldl (fun held address => held.insert address) ((native.lookup peer).getD []))
      else native.lookup peerId := by
  rw [EventLoop.addNative]
  split
  · rename_i hPeer
    rw [hPeer, AList.lookup_insert]
  · rename_i hPeer
    rw [AList.lookup_insert_ne hPeer]

theorem addNative (h : Lists native heard met) (peer : PeerId) (addresses : List Multiaddr) :
    Lists (EventLoop.addNative native peer addresses) (fun peerId address => heard peerId address ∨
      peerId = peer ∧ address ∈ addresses) (fun peerId => met peerId ∨ peerId = peer) where
  address peerId address := by
    rw [lookup_addNative]
    split
    · rename_i hPeer
      subst hPeer
      rw [Option.getD_some, mem_foldl_insert, h.address]
      simp
    · rename_i hPeer
      rw [h.address]
      simp [hPeer]
  nodup peerId := by
    rw [lookup_addNative]
    split
    · exact nodup_foldl_insert (h.nodup peer) addresses
    · exact h.nodup peerId
  peer peerId := by
    rw [EventLoop.addNative, AList.mem_insert, h.peer]
    simp only [exists_or]
    tauto

theorem lookup_removeNative (native : AList fun _ : PeerId => List Multiaddr) (peer peerId : PeerId)
    (address : Multiaddr) : ((EventLoop.removeNative native peer address).lookup peerId).getD [] =
      if peerId = peer then ((native.lookup peer).getD []).erase address else (native.lookup peerId).getD [] := by
  rw [EventLoop.removeNative]
  cases hLookup : native.lookup peer with
  | none =>
    dsimp only
    split
    · rename_i hPeer
      rw [hPeer, hLookup]
      rfl
    · rfl
  | some addresses =>
    dsimp only
    rw [Option.getD_some]
    split
    · rename_i hLast
      rw [hLast]
      split
      · rename_i hPeer
        rw [hPeer, AList.lookup_erase]
        rfl
      · rename_i hPeer
        rw [AList.lookup_erase_ne hPeer]
    · split
      · rename_i hPeer
        rw [hPeer, AList.lookup_insert]
        rfl
      · rename_i hPeer
        rw [AList.lookup_insert_ne hPeer]

theorem mem_removeNative (native : AList fun _ : PeerId => List Multiaddr) (peer peerId : PeerId) (address : Multiaddr) :
    peerId ∈ EventLoop.removeNative native peer address ↔
      if peerId = peer then ((native.lookup peer).getD []).erase address ≠ [] else peerId ∈ native := by
  rw [EventLoop.removeNative]
  cases hLookup : native.lookup peer with
  | none =>
    have hAbsent : peer ∉ native := AList.lookup_eq_none.mp hLookup
    dsimp only
    split
    · rename_i hPeer
      simp [hPeer, hAbsent]
    · rfl
  | some addresses =>
    dsimp only
    rw [Option.getD_some]
    split
    · rename_i hLast
      rw [AList.mem_erase]
      split
      · rename_i hPeer
        simp [hPeer, hLast]
      · rename_i hPeer
        simp [hPeer]
    · rename_i hMore
      rw [AList.mem_insert]
      split
      · rename_i hPeer
        simp [hPeer, hMore]
      · rename_i hPeer
        simp [hPeer]

theorem removeNative (h : Lists native heard met) (peer : PeerId) (address : Multiaddr) :
    Lists (EventLoop.removeNative native peer address)
      (fun peerId other => heard peerId other ∧ ¬ (peerId = peer ∧ other = address))
      (fun peerId => met peerId ∧ peerId ≠ peer) where
  address peerId other := by
    rw [lookup_removeNative]
    split
    · rename_i hPeer
      subst hPeer
      rw [(h.nodup peerId).mem_erase_iff, h.address]
      tauto
    · rename_i hPeer
      rw [h.address]
      tauto
  nodup peerId := by
    rw [lookup_removeNative]
    split
    · exact (h.nodup peer).erase address
    · exact h.nodup peerId
  peer peerId := by
    rw [mem_removeNative]
    split
    · rename_i hPeer
      subst hPeer
      simp only [ne_eq, List.eq_nil_iff_forall_not_mem, not_forall, not_not, (h.nodup peerId).mem_erase_iff, h.address,
        not_true_eq_false, and_false, or_false, true_and]
      exact exists_congr fun other => and_comm
    · rename_i hPeer
      rw [h.peer]
      simp [hPeer]

theorem tell (h : Lists native heard met) (peer : PeerId) (address : Multiaddr) :
    Lists (EventLoop.addNative native peer [address])
      (fun peerId other => heard peerId other ∨ (peerId, other) = (peer, address)) met where
  address peerId other := by
    rw [(h.addNative peer [address]).address, List.mem_singleton, Prod.mk.injEq]
  nodup := (h.addNative peer [address]).nodup
  peer peerId := by
    rw [(h.addNative peer [address]).peer]
    simp only [List.mem_singleton, Prod.mk.injEq, exists_or, exists_and_left, exists_eq, and_true]
    tauto

theorem discovered (h : Lists native heard met) (peers : List (PeerId × Multiaddr)) :
    Lists (peers.foldl (fun native peer => EventLoop.addNative native peer.1 [peer.2]) native)
      (fun peerId address => heard peerId address ∨ (peerId, address) ∈ peers) met := by
  induction peers generalizing native heard with
  | nil => exact h.congr (by simp) fun _ => Iff.rfl
  | cons first rest ih =>
    refine (ih (h.tell first.1 first.2)).congr (fun peerId address => ?_) fun _ => Iff.rfl
    rw [List.mem_cons, or_assoc]

theorem expired (h : Lists native heard met) (peers : List (PeerId × Multiaddr)) :
    Lists (peers.foldl (fun native peer => EventLoop.removeNative native peer.1 peer.2) native)
      (fun peerId address => heard peerId address ∧ (peerId, address) ∉ peers)
      (fun peerId => met peerId ∧ peerId ∉ peers.map Prod.fst) := by
  induction peers generalizing native heard met with
  | nil => exact h.congr (by simp) (by simp)
  | cons first rest ih =>
    refine (ih (h.removeNative first.1 first.2)).congr (fun peerId address => ?_) fun peerId => ?_
    · rw [List.mem_cons, not_or, and_assoc, Prod.ext_iff]
    · rw [List.map_cons, List.mem_cons, not_or, and_assoc]

end Lists

end Hearsay

namespace EventLoop

variable [DecidableEq PeerId] {self : EventLoop PeerId Multiaddr}

theorem complete_eq (self : EventLoop PeerId Multiaddr) (peerId : PeerId) (result : Except HostError Unit) :
    (self.complete peerId result).native = self.native ∧
      (self.complete peerId result).journal.replies = self.journal.replies := by
  rw [complete]
  split
  · exact ⟨rfl, rfl⟩
  · rw [foldl_send]
    exact ⟨rfl, rfl⟩

variable (addressing : HostAddressing PeerId Multiaddr)

theorem dial_eq (self : EventLoop PeerId Multiaddr) (peer : PeerCandidate) (sender : Sender)
    (dialed : Except String Unit) : (self.dial addressing peer sender dialed).native = self.native ∧
      (self.dial addressing peer sender dialed).journal.replies = self.journal.replies := by
  obtain ⟨error, hEq⟩ | ⟨peerId, -, -, hEq⟩ | ⟨peerId, -, -, hEq⟩ :=
    @dial_cases _ _ addressing _ self peer sender dialed
  · rw [hEq]
    exact ⟨rfl, rfl⟩
  · rw [hEq]
    exact ⟨rfl, rfl⟩
  · rw [hEq]
    exact ⟨rfl, rfl⟩

/-- No command changes the map that native candidates are read from. -/
theorem native_handleCommand (self : EventLoop PeerId Multiaddr) (closed : Finset Sender) (dialed : Except String Unit)
    (command : Command) : (self.handleCommand addressing closed dialed command).native = self.native := by
  cases command with
  | dial peer sender => exact (dial_eq addressing _ peer sender dialed).1
  | addVerified peer =>
    rw [handleCommand]
    split <;> rfl
  | nativeCandidates sender => rfl
  | pruneDialWaiters => rfl
  | shutdown sender => rfl

/-- The replies to a command. -/
def replyTo (self : EventLoop PeerId Multiaddr) : Command → List (Sender × List PeerCandidate)
  | .nativeCandidates sender => [(sender, self.nativeCandidates addressing)]
  | _ => []

theorem replies_handleCommand (self : EventLoop PeerId Multiaddr) (closed : Finset Sender) (dialed : Except String Unit)
    (command : Command) : (self.handleCommand addressing closed dialed command).journal.replies =
      self.journal.replies ++ self.replyTo addressing command := by
  cases command with
  | dial peer sender =>
    exact (dial_eq addressing (self.receive ⟨peer, sender⟩) peer sender dialed).2.trans (List.append_nil _).symm
  | addVerified peer =>
    refine Eq.trans ?_ (List.append_nil _).symm
    rw [handleCommand]
    split <;> rfl
  | nativeCandidates sender => rfl
  | pruneDialWaiters => exact (List.append_nil _).symm
  | shutdown sender => exact (List.append_nil _).symm

variable [DecidableEq Multiaddr]

theorem replies_handleSwarm (self : EventLoop PeerId Multiaddr) (event : SwarmEvent PeerId Multiaddr) :
    (self.handleSwarm addressing event).journal.replies = self.journal.replies := by
  cases event with
  | connectionEstablished peerId connectionId => exact (complete_eq _ peerId _).2
  | connectionClosed peerId connectionId numEstablished =>
    rw [handleSwarm]
    split <;> rfl
  | outgoingConnectionError peerId connectionId error =>
    cases peerId with
    | none => rfl
    | some peerId => exact (complete_eq self peerId _).2
  | _ => rfl

/-- What one swarm event does to the map, it does to what was told of. -/
theorem lists_handleSwarm {heard : PeerId → Multiaddr → Bool} {met : PeerId → Bool}
    (h : Lists self.native (fun peerId address => heard peerId address) fun peerId => met peerId)
    (event : SwarmEvent PeerId Multiaddr) :
    Lists (self.handleSwarm addressing event).native
      (fun peerId address => event.hear peerId address (heard peerId address))
      (fun peerId => event.meet peerId (met peerId)) := by
  cases event with
  | mdnsDiscovered peers => exact (h.discovered peers).congr (by simp [SwarmEvent.hear]) fun _ => Iff.rfl
  | mdnsExpired peers => exact (h.expired peers).congr (by simp [SwarmEvent.hear]) (by simp [SwarmEvent.meet])
  | identifyReceived peer listenAddrs =>
    exact (h.addNative peer listenAddrs).congr (by simp [SwarmEvent.hear]) (by simp [SwarmEvent.meet])
  | connectionEstablished peerId connectionId =>
    rw [handleSwarm, (complete_eq _ peerId _).1]
    exact h
  | connectionClosed peerId connectionId numEstablished =>
    rw [handleSwarm]
    split <;> exact h
  | outgoingConnectionError peerId connectionId error =>
    cases peerId with
    | none => exact h
    | some peerId =>
      rw [handleSwarm, (complete_eq self peerId _).1]
      exact h
  | newListenAddr address => exact h
  | expiredListenAddr address => exact h
  | other => exact h

def handle (self : EventLoop PeerId Multiaddr) : Handled PeerId Multiaddr → EventLoop PeerId Multiaddr
  | .command closed dialed command => self.handleCommand addressing closed dialed command
  | .swarm event => self.handleSwarm addressing event

/-- The event loop after the commands and swarm events it has handled. -/
def after (localPeerId : PeerId) (configuredPeers : List (PeerId × Multiaddr)) (handled : List (Handled PeerId Multiaddr)) :
    EventLoop PeerId Multiaddr :=
  handled.foldl (handle addressing) (.new addressing localPeerId configuredPeers)

variable {addressing} {localPeerId : PeerId} {configuredPeers : List (PeerId × Multiaddr)}

theorem after_concat (handled : List (Handled PeerId Multiaddr)) (event : Handled PeerId Multiaddr) :
    after addressing localPeerId configuredPeers (handled ++ [event]) =
      (after addressing localPeerId configuredPeers handled).handle addressing event := by
  rw [after, List.foldl_append]
  rfl

/-- What native candidates are read from is what the swarm and the configuration have told. -/
theorem lists_after (addressing : HostAddressing PeerId Multiaddr) (localPeerId : PeerId)
    (configuredPeers : List (PeerId × Multiaddr))
    (handled : List (Handled PeerId Multiaddr)) :
    Lists (after addressing localPeerId configuredPeers handled).native
      (fun peerId address => heard configuredPeers (handled.filterMap Handled.reported) peerId address)
      (fun peerId => met (handled.filterMap Handled.reported) peerId) := by
  induction handled using List.reverseRecOn with
  | nil => exact (Lists.empty.discovered configuredPeers).congr (by simp [heard]) (by simp [met])
  | append_singleton handled event ih =>
    rw [after_concat, List.filterMap_append]
    cases event with
    | command closed dialed command =>
      rw [handle, native_handleCommand, List.filterMap_cons_none rfl, List.filterMap_nil, List.append_nil]
      exact ih
    | swarm event =>
      exact (lists_handleSwarm addressing ih event).congr (by simp [heard, Handled.reported])
        (by simp [met, Handled.reported])

end EventLoop

section Replies

variable [DecidableEq PeerId] [DecidableEq Multiaddr] (addressing : HostAddressing PeerId Multiaddr)
  (localPeerId : PeerId) (configuredPeers : List (PeerId × Multiaddr))

/-- A record of the peer that no record of it outranks. -/
structure Newest (added : List PeerCandidate) (peerId : PeerId) (record : PeerCandidate) : Prop where
  mem : record ∈ added
  identity : addressing.fromBytes record.peerId = some peerId
  highest : ∀ other ∈ added, addressing.fromBytes other.peerId = some peerId → other.sequence ≤ record.sequence

/-- A reply has a candidate for each libp2p peer added as verified, with the endpoints of a newest record of it. -/
def OffersVerified (added reply : List PeerCandidate) : Prop :=
  ∀ peerId, (∃ record ∈ added, addressing.fromBytes record.peerId = some peerId) →
    ∃ record, Newest addressing added peerId record ∧
      ∃ candidate ∈ reply, addressing.fromBytes candidate.peerId = some peerId ∧ record.endpoints ⊆ candidate.endpoints

/-- Every reply of a run offers the peers that were verified before it. -/
def RepliesOffer (handled : List (Handled PeerId Multiaddr)) : Prop :=
  ∀ before event rest, handled = before ++ event :: rest → ∀ sender reply,
    (EventLoop.after addressing localPeerId configuredPeers (before ++ [event])).journal.replies =
      (EventLoop.after addressing localPeerId configuredPeers before).journal.replies ++ [(sender, reply)] →
    OffersVerified addressing (before.filterMap Handled.verified) reply

/-- Whether the swarm and the configuration alone have told of each verified peer, with the endpoints of a newest
record. -/
def ToldOf (added : List PeerCandidate) (events : List (SwarmEvent PeerId Multiaddr)) : Prop :=
  ∀ peerId, (∃ record ∈ added, addressing.fromBytes record.peerId = some peerId) →
    ∃ record, Newest addressing added peerId record ∧
      ((∃ address, heard configuredPeers events peerId address) ∨ met events peerId) ∧
      ∀ endpoint ∈ record.endpoints, ∃ address, heard configuredPeers events peerId address ∧
        addressing.addressToString address = endpoint.address

variable {addressing localPeerId configuredPeers}

omit [DecidableEq Multiaddr] in
/-- A reply offers endpoints for a peer where they were told of. -/
theorem offers_iff (hRead : ∀ peerId, addressing.fromBytes (addressing.toBytes peerId) = some peerId)
    {self : EventLoop PeerId Multiaddr} {heard : PeerId → Multiaddr → Prop} {met : PeerId → Prop}
    (h : Lists self.native heard met) (peerId : PeerId) (endpoints : List Endpoint) :
    (∃ candidate ∈ self.nativeCandidates addressing,
        addressing.fromBytes candidate.peerId = some peerId ∧ endpoints ⊆ candidate.endpoints) ↔
      ((∃ address, heard peerId address) ∨ met peerId) ∧
        ∀ endpoint ∈ endpoints, ∃ address,
          heard peerId address ∧ addressing.addressToString address = endpoint.address := by
  rw [← h.peer]
  constructor
  · rintro ⟨candidate, hMem, hIdentity, hEndpoints⟩
    obtain ⟨⟨peer, addresses⟩, hEntry, rfl⟩ := List.mem_map.mp hMem
    obtain rfl : peer = peerId := Option.some.inj ((hRead peer).symm.trans hIdentity)
    have hLookup : self.native.lookup peer = some addresses := AList.mem_lookup_iff.mpr hEntry
    refine ⟨AList.lookup_isSome.mp (by rw [hLookup]; rfl), fun endpoint hEndpoint => ?_⟩
    obtain ⟨address, hAddress, rfl⟩ := List.mem_map.mp (hEndpoints hEndpoint)
    refine ⟨address, (h.address peer address).mp ?_, rfl⟩
    rwa [hLookup, Option.getD_some]
  · rintro ⟨hPeer, hTold⟩
    obtain ⟨addresses, hLookup⟩ := Option.isSome_iff_exists.mp (AList.lookup_isSome.mpr hPeer)
    refine ⟨_, List.mem_map_of_mem (AList.mem_lookup_iff.mp hLookup), hRead peerId, fun endpoint hEndpoint => ?_⟩
    obtain ⟨address, hHeard, hText⟩ := hTold endpoint hEndpoint
    refine List.mem_map.mpr ⟨address, ?_, by rw [hText]⟩
    have hAddress := (h.address peerId address).mpr hHeard
    rwa [hLookup, Option.getD_some] at hAddress

theorem offersVerified_iff (hRead : ∀ peerId, addressing.fromBytes (addressing.toBytes peerId) = some peerId)
    (before : List (Handled PeerId Multiaddr)) :
    OffersVerified addressing (before.filterMap Handled.verified)
        ((EventLoop.after addressing localPeerId configuredPeers before).nativeCandidates addressing) ↔
      ToldOf addressing configuredPeers (before.filterMap Handled.verified) (before.filterMap Handled.reported) := by
  have hLists := EventLoop.lists_after addressing localPeerId configuredPeers before
  refine forall_congr' fun peerId => imp_congr_right fun _ => exists_congr fun record => and_congr_right fun _ => ?_
  exact offers_iff hRead hLists peerId record.endpoints

/-- An event is answered with a reply just where it is a native-candidates command. -/
theorem replies_handle_iff {self : EventLoop PeerId Multiaddr} {event : Handled PeerId Multiaddr} {sender : Sender}
    {reply : List PeerCandidate} :
    (self.handle addressing event).journal.replies = self.journal.replies ++ [(sender, reply)] ↔
      (∃ closed dialed, event = .command closed dialed (.nativeCandidates sender)) ∧
        reply = self.nativeCandidates addressing := by
  cases event with
  | command closed dialed command =>
    rw [EventLoop.handle, EventLoop.replies_handleCommand, List.append_cancel_left_eq]
    cases command with
    | nativeCandidates asker =>
      rw [EventLoop.replyTo, List.singleton_inj, Prod.mk.injEq]
      constructor
      · rintro ⟨rfl, rfl⟩
        exact ⟨⟨closed, dialed, rfl⟩, rfl⟩
      · rintro ⟨⟨_, _, hEvent⟩, rfl⟩
        cases hEvent
        exact ⟨rfl, rfl⟩
    | _ => simp [EventLoop.replyTo]
  | swarm event =>
    rw [EventLoop.handle, EventLoop.replies_handleSwarm]
    simp

/-- A run's replies offer its verified peers just where the swarm and the configuration tell of them. -/
theorem repliesOffer_iff_toldOf (addressing : HostAddressing PeerId Multiaddr)
    (hRead : ∀ peerId, addressing.fromBytes (addressing.toBytes peerId) = some peerId) (localPeerId : PeerId)
    (configuredPeers : List (PeerId × Multiaddr)) (handled : List (Handled PeerId Multiaddr)) :
    RepliesOffer addressing localPeerId configuredPeers handled ↔
      ∀ before closed dialed sender rest, handled = before ++ .command closed dialed (.nativeCandidates sender) :: rest →
        ToldOf addressing configuredPeers (before.filterMap Handled.verified) (before.filterMap Handled.reported) := by
  constructor
  · rintro hOffer before closed dialed sender rest rfl
    apply (offersVerified_iff hRead before).mp
    apply hOffer before _ rest rfl sender
    rw [EventLoop.after_concat]
    exact replies_handle_iff.mpr ⟨⟨closed, dialed, rfl⟩, rfl⟩
  · rintro hTold before event rest rfl sender reply hReply
    rw [EventLoop.after_concat] at hReply
    obtain ⟨⟨closed, dialed, rfl⟩, rfl⟩ := replies_handle_iff.mp hReply
    exact (offersVerified_iff hRead before).mpr (hTold before closed dialed sender rest rfl)

end Replies

/-- A peer that identify has told of, after it was added as verified. -/
theorem repliesOffer_iff_toldOf_identified : RepliesOffer inlineHost 3 []
    [.command ∅ (.ok ()) (.addVerified (inlineCandidate 7)), .swarm (.identifyReceived 7 ["/ip4/192.0.2.1/tcp/4001"]),
      .command ∅ (.ok ()) (.nativeCandidates 0)] := by
  refine (repliesOffer_iff_toldOf inlineHost (fun _ => rfl) 3 [] _).mpr ?_
  intro before closed dialed sender rest hSplit
  match before with
  | [] => cases hSplit
  | [_] => cases hSplit
  | [_, _] =>
    cases hSplit
    rintro peerId ⟨record, hMem, hIdentity⟩
    obtain rfl : record = inlineCandidate 7 := List.mem_singleton.mp hMem
    cases hIdentity
    refine ⟨inlineCandidate 7, ⟨hMem, rfl, ?_⟩, .inr rfl, ?_⟩
    · intro other hOther _
      rw [List.mem_singleton.mp hOther]
      exact UInt64.le_refl _
    · intro endpoint hEndpoint
      exact ⟨"/ip4/192.0.2.1/tcp/4001", rfl, by rw [List.mem_singleton.mp hEndpoint]; rfl⟩
  | _ :: _ :: _ :: before => simp at hSplit

/-- A verified peer that nothing else has told of is missing in the reply. -/
theorem repliesOffer_verifiedOnly : ¬ RepliesOffer inlineHost 3 []
    [.command ∅ (.ok ()) (.addVerified (inlineCandidate 7)), .command ∅ (.ok ()) (.nativeCandidates 0)] := by
  intro h
  obtain ⟨record, -, candidate, hMem, -⟩ := h [.command ∅ (.ok ()) (.addVerified (inlineCandidate 7))]
    (.command ∅ (.ok ()) (.nativeCandidates 0)) [] rfl 0 [] (by decide) 7
    ⟨inlineCandidate 7, by decide, by decide⟩
  cases hMem

end Resurrect.Node
