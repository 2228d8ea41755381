import WebrtcCaller.Client.PeerTasks

/-!
# What a signal does to the roster

A signal can only add the ids it names, and only a known sender reaches the
native library. A blank service that enters a room shows everybody listed and
offers to each of them once; from then on it follows the members signal by
signal.
-/

namespace WebrtcCaller

/-- The ids a signal introduces. -/
def Signal.named : Signal → List (Option String)
  | .onJoinToRoom connections _ => connections.getD []
  | .onRemoteJoinToRoom socketId => [socketId]
  | _ => []

/-- The sender of a relayed signal. -/
def Signal.sender : Signal → Option (Option String)
  | .onRemoteIceCandidate socketId _ => some socketId
  | .onReceiveOffer socketId _ => some socketId
  | .onReceiverAnswer socketId _ => some socketId
  | _ => none

/-- A relayed signal introduces nobody. -/
theorem Signal.named_of_sender {signal : Signal} {socketId : Option String}
    (h : signal.sender = some socketId) : signal.named = [] := by
  cases signal with
  | onJoinToRoom connections myId => cases h
  | onRemoteJoinToRoom socketId => cases h
  | _ => rfl

/-- The answer to an own join. -/
def Signal.isJoin : Signal → Bool
  | .onJoinToRoom _ _ => true
  | _ => false

/-- A relayed signal is no join. -/
theorem Signal.isJoin_of_sender {signal : Signal} (h : signal.sender.isSome) :
    signal.isJoin = false := by
  cases signal with
  | onJoinToRoom connections myId => cases h
  | _ => rfl

/-- Among signals that are no joins there is no join. -/
theorem Signal.filter_isJoin {signals : List Signal}
    (h : ∀ signal ∈ signals, signal.isJoin = false) :
    signals.filter Signal.isJoin = [] := by
  rw [List.filter_eq_nil_iff]
  intro signal hs
  rw [h signal hs]
  exact Bool.false_ne_true

/-- Every id of the roster satisfies `K`. -/
structure Roster.Within (K : Option String → Prop) (v : Roster) : Prop where
  listed : ∀ id ∈ v.connectionIdArray, K id
  keyed : ∀ id ∈ v.connectionPeerDic, K id

namespace Roster.Within

variable {K : Option String → Prop} {v w : Roster}

theorem mono {K' : Option String → Prop} (h : v.Within K) (hK : ∀ id, K id → K' id) :
    v.Within K' :=
  ⟨fun id hid => hK id (h.listed id hid), fun id hid => hK id (h.keyed id hid)⟩

/-- Connecting to enclosed ids keeps the roster enclosed. -/
theorem filled (h : v.Within K) {ids : List (Option String)} (hids : ∀ id ∈ ids, K id)
    (hw : v.Filled ids w) : w.Within K := by
  refine ⟨fun id hid => h.listed id (hw.connectionIdArray_eq ▸ hid), fun id hid => ?_⟩
  rcases (hw.mem_iff id).mp hid with hid | hid
  · exact h.keyed id hid
  · exact hids id hid

theorem entering (h : v.Within K) {connections : List (Option String)}
    (hc : ∀ id ∈ connections, K id) (myId : Option String) :
    (v.entering connections myId).Within K := by
  refine ⟨fun id hid => ?_, h.keyed⟩
  rcases List.mem_append.mp hid with hid | hid
  · exact h.listed id hid
  · exact hc id hid

theorem joined (h : v.Within K) {socketId : Option String} (hs : K socketId) (peer : Peer) :
    (v.joined socketId peer).Within K := by
  refine ⟨fun id hid => ?_, fun id hid => ?_⟩
  · rcases List.mem_append.mp hid with hid | hid
    · exact h.listed id hid
    · exact List.mem_singleton.mp hid ▸ hs
  · rcases (AList.mem_insert _).mp hid with rfl | hid
    · exact hs
    · exact h.keyed id hid

/-- Whoever leaves leaves the others enclosed. -/
theorem left (h : v.Within K) (connectionId : Option String) : (v.left connectionId).Within K :=
  ⟨fun id hid => h.listed id (List.mem_of_mem_erase hid),
    fun id hid => h.keyed id (AList.mem_erase.mp hid).2⟩

/-- An empty roster is enclosed. -/
theorem emptied (h : v.Within K) : v.emptied.Within K := by
  have hfold (ids : List (Option String)) (v : Roster) (h : v.Within K) :
      (ids.foldl Roster.left v).Within K := by
    induction ids generalizing v with
    | nil => exact h
    | cons id ids ih => exact ih _ (h.left id)
  exact ⟨nofun, (hfold _ v h).keyed⟩

end Roster.Within

/-- What a signal may make of the roster `v`. -/
inductive Roster.Follows (v : Roster) : Signal → Roster → Prop
  | same {signal : Signal} : v.Follows signal v
  | entered {connections told : List (Option String)} {myId : Option String} {w : Roster}
      (hsub : told ⊆ v.connectionIdArray ++ connections)
      (hw : (v.entering connections myId).Filled told w) :
      v.Follows (.onJoinToRoom (some connections) myId) w
  | joined {socketId : Option String} (peer : Peer) :
      v.Follows (.onRemoteJoinToRoom socketId) (v.joined socketId peer)
  | left {socketId : Option String} : v.Follows (.onRemoteOutRoom socketId) (v.left socketId)

/-- A callback stays within the ids it names. -/
theorem Roster.Follows.within {K : Option String → Prop} {v w : Roster} {signal : Signal}
    (h : v.Follows signal w) (hv : v.Within K) (hK : ∀ id ∈ signal.named, K id) :
    w.Within K := by
  cases h with
  | same => exact hv
  | entered hsub hw =>
    have hent := hv.entering hK v.myId
    exact (hv.entering hK _).filled (fun id hid => hent.listed id (hsub hid)) hw
  | joined peer => exact hv.joined (hK _ (List.mem_singleton_self _)) peer
  | left => exact hv.left _

namespace PeerService

section AnySignal

variable (native : Native) (video : Bool) (mediaType : Int32) {K : Option String → Prop}

/-- A signal changes the roster as it says, whether its task returns or raises, and it
makes no native call towards a sender without a peer. -/
theorem callback_follows {v : Roster} (signal : Signal) :
    Task.Triple (·.roster = v) (callback native video mediaType signal)
      (fun _ s => v.Follows signal s.roster) (fun s => v.Follows signal s.roster)
      (fun e => e.isRemote = true →
        ∃ socketId ∈ v.connectionPeerDic, signal.sender = some socketId) := by
  have hat (s : PeerService) (hs : s.roster = v) : At v false false s := ⟨hs, nofun, nofun⟩
  have hsame (s : PeerService) (hs : At v false false s) : v.Follows signal s.roster :=
    hs.roster_eq ▸ .same
  cases signal with
  | onJoinToRoom connections myId =>
    refine .bind (Q := fun _ => At v false false)
      (.modify fun s hs => (hat s hs).congr rfl rfl rfl) fun _ => ?_
    cases connections with
    | none =>
      refine .bind (Q := fun _ _ => False) (.bind (Q := fun _ _ => False) (.ofExcept ?_ ?_) ?_) ?_
      · exact fun a s hs ha => by cases ha
      · exact fun e s hs _ => hsame s hs
      · exact fun _ s hs => hs.elim
      · exact fun _ s hs => hs.elim
    | some connections =>
      refine .bind (Q := fun _ s => v.Follows (.onJoinToRoom connections myId) s.roster) ?_
        fun _ => ?_
      · refine (enterRoom_spec connections myId).conseq (fun _ hs => hs) ?_ ?_ ?_
        · rintro _ s ⟨w, hs, hfill⟩
          exact hs.roster_eq ▸ .entered (List.Subset.refl _) hfill
        · rintro s ⟨_, told, hsub, hfill⟩
          exact .entered hsub hfill
        · intro e he hr
          rw [he.2] at hr
          cases hr
      · intro s hs
        rw [run_createOffers s]
        refine ⟨fun _ _ => hs, nofun, fun e he hr => ?_⟩
        obtain ⟨entry, _, rfl⟩ := List.mem_map.mp he
        cases hr
  | onRemoteJoinToRoom socketId =>
    refine (onRemoteJoinToRoom_spec socketId).conseq hat ?_ ?_ ?_
    · rintro _ s (⟨peer, _, hs⟩ | ⟨hs, _⟩)
      · exact hs.roster_eq ▸ .joined peer
      · exact hs ▸ .same
    · exact fun s hs => hs.1 ▸ .same
    · intro e he hr
      rw [he.2] at hr
      cases hr
  | onRemoteOutRoom socketId =>
    refine (closePeerConnection_spec (E := fun _ => False) socketId).conseq hat ?_
      (fun _ he => he.elim) ?_
    · exact fun _ s hs => hs.roster_eq ▸ .left
    · intro e he hr
      rw [he.2] at hr
      cases hr
  | onRemoteIceCandidate socketId iceCandidate =>
    exact (onRemoteIceCandidate_spec native socketId iceCandidate).conseq hat
      (fun _ => hsame) hsame fun e he hr => ⟨socketId, he.2 hr, rfl⟩
  | onReceiveOffer socketId sdp =>
    exact (onReceiveOffer_spec native socketId sdp).conseq hat
      (fun _ => hsame) hsame fun e he hr => ⟨socketId, he.2 hr, rfl⟩
  | onReceiverAnswer socketId sdp =>
    exact (onReceiverAnswer_spec native socketId sdp).conseq hat
      (fun _ => hsame) hsame fun e he hr => ⟨socketId, he.2 hr, rfl⟩

/-- A signal adds nobody but those it names. -/
theorem callback_spec {v : Roster} (hv : v.Within K) (signal : Signal)
    (hK : ∀ id ∈ signal.named, K id) :
    Task.Triple (·.roster = v) (callback native video mediaType signal)
      (fun _ s => s.roster.Within K) (·.roster.Within K)
      (fun e => e.isRemote = true →
        ∃ socketId ∈ v.connectionPeerDic, signal.sender = some socketId) :=
  (callback_follows native video mediaType signal).conseq (fun _ hs => hs)
    (fun _ _ hs => hs.within hv hK) (fun _ hs => hs.within hv hK) fun _ hw => hw

end AnySignal

end PeerService

/-- The roster lists exactly `ids`, each with its peer, for the member `me`. -/
structure Roster.Shows (ids : List (Option String)) (me : Option String) (v : Roster) : Prop where
  connectionIdArray_eq : v.connectionIdArray = ids
  mem_iff : ∀ id, id ∈ v.connectionPeerDic ↔ id ∈ ids
  socketId_eq : ∀ id p, v.connectionPeerDic.lookup id = some p → p.socketId = id
  myId_eq : v.myId = me
  context_eq : v.context = true

namespace PeerService

/-- The service is in the call and shows exactly `ids`. -/
def Ready (ids : List (Option String)) (me : Option String) (service : PeerService) : Prop :=
  ∃ v : Roster, At v true true service ∧ v.Shows ids me

/-- The service has heard of nobody. -/
structure Blank (service : PeerService) : Prop where
  connectionIdArray_eq : service.connectionIdArray = []
  connectionPeerDic_eq : service.connectionPeerDic = ∅

variable (native : Native) (video : Bool) (mediaType : Int32)
variable {ids : List (Option String)} {me : Option String} {service : PeerService}

/-- Entering the room with a blank service. -/
theorem Blank.ready (h : service.Blank) (hc : service.context = true)
    (connections : List (Option String)) (me : Option String) :
    Ready connections me
      ((onJoinToRoom (some connections) me video mediaType).run service).state := by
  obtain ⟨s', plain, w, hrun, _, hat, hfill⟩ := run_onJoinToRoom connections me video mediaType hc
  rw [hrun]
  have hids : service.connectionIdArray ++ connections = connections := by
    rw [h.connectionIdArray_eq, List.nil_append]
  have hdic : (service.roster.entering connections me).connectionPeerDic = ∅ :=
    h.connectionPeerDic_eq
  rw [hids] at hfill
  refine ⟨w, hat, hfill.connectionIdArray_eq.trans hids, fun id => ?_, hfill.socketId_eq ?_,
    hfill.myId_eq, hfill.context_eq.trans hc⟩
  · rw [hfill.mem_iff, hdic]
    simp
  · intro id p hl
    rw [hdic, AList.lookup_empty] at hl
    cases hl

/-- An announced newcomer is added at the end. -/
theorem Ready.remoteJoin (h : Ready ids me service) (socketId : Option String) :
    Ready (ids ++ [socketId]) me ((onRemoteJoinToRoom socketId).run service).state := by
  obtain ⟨v, hat, hv⟩ := h
  have hm := onRemoteJoinToRoom_spec socketId service hat
  have hstate : ∃ peer : Peer, peer.socketId = socketId ∧
      At (v.joined socketId peer) true true ((onRemoteJoinToRoom socketId).run service).state := by
    cases hval : ((onRemoteJoinToRoom socketId).run service).value with
    | error e => cases (hm.raised e hval).2
    | ok _ =>
      rcases hm.returned _ hval with hpeer | ⟨_, hc⟩
      · exact hpeer
      · rw [hv.context_eq] at hc
        cases hc
  obtain ⟨peer, hp, hat'⟩ := hstate
  refine ⟨_, hat', congrArg (· ++ [socketId]) hv.connectionIdArray_eq, fun id => ?_, ?_,
    hv.myId_eq, hv.context_eq⟩
  · have := hv.mem_iff id
    simp only [Roster.joined, AList.mem_insert, List.mem_append, List.mem_singleton, this]
    exact or_comm
  · intro id p hl
    by_cases he : id = socketId
    · subst he
      rw [Roster.joined, AList.lookup_insert] at hl
      exact Option.some.inj hl ▸ hp
    · rw [Roster.joined, AList.lookup_insert_ne he] at hl
      exact hv.socketId_eq id p hl

/-- Whoever leaves is taken out of the peers. -/
theorem Ready.remoteOut (h : Ready ids me service) (hn : ids.Nodup) (socketId : Option String) :
    Ready (ids.erase socketId) me ((onRemoteOutRoom socketId).run service).state := by
  obtain ⟨v, hat, hv⟩ := h
  obtain ⟨_, _, hat'⟩ := Task.Triple.returns (closePeerConnection_spec socketId) hat
  refine ⟨_, hat', congrArg (·.erase socketId) hv.connectionIdArray_eq, fun id => ?_, ?_,
    hv.myId_eq, hv.context_eq⟩
  · rw [Roster.left, AList.mem_erase, hv.mem_iff, hn.mem_erase_iff]
  · intro id p hl
    have hne : id ≠ socketId := by
      rintro rfl
      rw [Roster.left, AList.lookup_erase] at hl
      cases hl
    rw [Roster.left, AList.lookup_erase_ne hne] at hl
    exact hv.socketId_eq id p hl

/-- A relayed signal keeps the roster, the factory and the stream. -/
theorem relayed_keeps {signal : Signal} (hs : signal.sender.isSome) {v : Roster} {f l : Bool}
    (hat : At v f l service) :
    At v f l ((callback native video mediaType signal).run service).state := by
  cases signal with
  | onRemoteIceCandidate socketId iceCandidate =>
    exact (onRemoteIceCandidate_spec native socketId iceCandidate).state hat
  | onReceiveOffer socketId sdp => exact (onReceiveOffer_spec native socketId sdp).state hat
  | onReceiverAnswer socketId sdp => exact (onReceiverAnswer_spec native socketId sdp).state hat
  | onJoinToRoom connections myId => cases hs
  | onRemoteJoinToRoom socketId => cases hs
  | onRemoteOutRoom socketId => cases hs

/-- A relayed signal leaves the peers as they are. -/
theorem Ready.relayed (h : Ready ids me service) {signal : Signal} (hs : signal.sender.isSome) :
    Ready ids me ((callback native video mediaType signal).run service).state := by
  obtain ⟨v, hat, hv⟩ := h
  exact ⟨v, relayed_keeps native video mediaType hs hat, hv⟩

/-- A relayed signal keeps everything the roster says. -/
theorem roster_relayed {signal : Signal} (hs : signal.sender.isSome) :
    ((callback native video mediaType signal).run service).state.roster = service.roster := by
  have hat : At service.roster false false service := ⟨rfl, nofun, nofun⟩
  exact (relayed_keeps native video mediaType hs hat).roster_eq

/-- A blank roster makes a blank service. -/
theorem Blank.of_roster {service' : PeerService} (h : service.Blank)
    (hr : service'.roster = service.roster) : service'.Blank :=
  ⟨(congrArg Roster.connectionIdArray hr).trans h.connectionIdArray_eq,
    (congrArg Roster.connectionPeerDic hr).trans h.connectionPeerDic_eq⟩

section LaterSignals

variable {signal : Signal} (hs : signal.isJoin = false)

include hs

/-- No signal but `onJoinToRoom` makes an offer. -/
theorem not_isOffer_callback :
    ∀ e ∈ ((callback native video mediaType signal).run service).out, e.isOffer = false := by
  have hat : At service.roster false false service := ⟨rfl, nofun, nofun⟩
  intro e he
  cases signal with
  | onJoinToRoom connections myId => cases hs
  | onRemoteJoinToRoom socketId =>
    exact ((onRemoteJoinToRoom_spec socketId _ hat).emitted e he).1
  | onRemoteOutRoom socketId =>
    have hspec := closePeerConnection_spec (E := fun _ => True) socketId _ hat
    exact (hspec.emitted e he).1
  | onRemoteIceCandidate socketId iceCandidate =>
    exact ((onRemoteIceCandidate_spec native socketId iceCandidate _ hat).emitted e he).1
  | onReceiveOffer socketId sdp =>
    exact ((onReceiveOffer_spec native socketId sdp _ hat).emitted e he).1
  | onReceiverAnswer socketId sdp =>
    exact ((onReceiverAnswer_spec native socketId sdp _ hat).emitted e he).1

/-- Nor does it change the own id or take the context away. -/
theorem identity_callback :
    ((callback native video mediaType signal).run service).state.myId = service.myId ∧
      ((callback native video mediaType signal).run service).state.context = service.context := by
  have hat : At service.roster false false service := ⟨rfl, nofun, nofun⟩
  have hof {s : PeerService} {v : Roster} (hr : s.roster = v) (hm : v.myId = service.myId)
      (hc : v.context = service.context) : s.myId = service.myId ∧ s.context = service.context :=
    ⟨(congrArg Roster.myId hr).trans hm, (congrArg Roster.context hr).trans hc⟩
  cases signal with
  | onJoinToRoom connections myId => cases hs
  | onRemoteJoinToRoom socketId =>
    have hspec : Task.Triple (At service.roster false false) (onRemoteJoinToRoom socketId)
        (fun _ s => s.myId = service.myId ∧ s.context = service.context)
        (fun s => s.myId = service.myId ∧ s.context = service.context) Effect.Plain := by
      refine (onRemoteJoinToRoom_spec socketId).conseq (fun _ h => h) (fun _ s h => ?_)
        (fun s h => hof h.1 rfl rfl) (fun _ h => h)
      rcases h with ⟨peer, _, h⟩ | ⟨h, _⟩
      · exact hof h.roster_eq rfl rfl
      · exact hof h rfl rfl
    exact hspec.state hat
  | onRemoteOutRoom socketId =>
    obtain ⟨_, _, h⟩ := Task.Triple.returns (closePeerConnection_spec socketId) hat
    exact hof h.roster_eq rfl rfl
  | _ => exact hof (roster_relayed native video mediaType rfl) rfl rfl

/-- Nor does it lose the factory and the stream. -/
theorem held_callback (hc : service.context = true) (h : At service.roster true true service) :
    At ((callback native video mediaType signal).run service).state.roster true true
      ((callback native video mediaType signal).run service).state := by
  have hof {s : PeerService} {v : Roster} (hat : At v true true s) : At s.roster true true s :=
    hat.roster_eq.symm ▸ hat
  cases signal with
  | onJoinToRoom connections myId => cases hs
  | onRemoteJoinToRoom socketId =>
    have hspec : Task.Triple (At service.roster true true) (onRemoteJoinToRoom socketId)
        (fun _ s => At s.roster true true s) (fun s => At s.roster true true s) Effect.Plain := by
      refine (onRemoteJoinToRoom_spec socketId).conseq (fun _ h => h) (fun _ s h => ?_)
        (fun s h => (by cases h.2)) (fun _ h => h)
      rcases h with ⟨peer, _, h⟩ | ⟨_, hnone⟩
      · exact hof h
      · cases hc.symm.trans hnone
    exact hspec.state h
  | onRemoteOutRoom socketId =>
    obtain ⟨_, _, h⟩ := Task.Triple.returns (closePeerConnection_spec socketId) h
    exact hof h
  | _ => exact hof (relayed_keeps native video mediaType rfl h)

end LaterSignals

/-- A blank service that enters the room offers once to everybody listed, and to nobody else. -/
theorem Blank.offers (h : service.Blank) (hc : service.context = true)
    (connections : List (Option String)) (me id : Option String) :
    ((onJoinToRoom (some connections) me video mediaType).run service).out.countP
      (Effect.offersTo id) = if id ∈ connections then 1 else 0 := by
  obtain ⟨s', plain, w, hrun, hplain, _, hfill⟩ :=
    run_onJoinToRoom connections me video mediaType hc
  have hids : service.connectionIdArray ++ connections = connections := by
    rw [h.connectionIdArray_eq, List.nil_append]
  have hdic : (service.roster.entering connections me).connectionPeerDic = ∅ :=
    h.connectionPeerDic_eq
  rw [hids] at hfill
  have hsocket : ∀ entry ∈ w.connectionPeerDic.entries, entry.2.socketId = entry.1 := by
    intro entry hentry
    refine hfill.socketId_eq ?_ entry.1 entry.2 (AList.mem_lookup_iff.mpr hentry)
    intro id p hl
    rw [hdic, AList.lookup_empty] at hl
    cases hl
  have hzero : plain.countP (Effect.offersTo id) = 0 :=
    Effect.countP_offersTo (fun e he => (hplain e he).1) id
  have hkeys : (w.connectionPeerDic.entries.map fun entry =>
      Effect.createOffer entry.2).countP (Effect.offersTo id) =
        w.connectionPeerDic.keys.count id := by
    rw [List.countP_map, AList.keys, List.keys, List.count, List.countP_map]
    refine List.countP_congr fun entry hentry => ?_
    simp [Effect.offersTo, hsocket entry hentry]
  have hmem : id ∈ w.connectionPeerDic.keys ↔ id ∈ connections := by
    rw [← AList.mem_keys, hfill.mem_iff, hdic]
    simp
  rw [hrun, List.countP_append, hzero, hkeys, w.connectionPeerDic.keys_nodup.count, Nat.zero_add]
  simp only [hmem]

/-- Leaving the room changes nothing that a blank service says. -/
theorem Blank.roster_exitRoom (h : service.Blank) :
    (exitRoom.run service).state.roster = service.roster := by
  have hspec := exitRoom_spec (E := fun s => s.roster = service.roster.emptied)
    (v := service.roster)
  have hempty : service.roster.emptied = service.roster := by
    simp only [Roster.emptied, roster, h.connectionIdArray_eq, List.foldl_nil]
  exact (hspec.state rfl).trans hempty

/-- Leaving the room makes no offer. -/
theorem not_isOffer_exitRoom : ∀ e ∈ (exitRoom.run service).out, e.isOffer = false := by
  intro e he
  have hspec := exitRoom_spec (E := fun _ => True) (v := service.roster) service rfl
  exact (hspec.emitted e he).1

end PeerService

end WebrtcCaller
