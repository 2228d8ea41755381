import WebrtcCaller.Client.Ledger

/-!
# What a task loses

Each task keeps the accounts of a call. It loses a connection exactly when it puts another
in its place, which `onJoinToRoom` does for an id listed twice or already keyed and
`onRemoteJoinToRoom` for an id already keyed.
-/

namespace WebrtcCaller

namespace PeerService

section Runs

variable {service : PeerService}

/-- With the factory at hand, a peer is one new connection. -/
theorem run_newPeer (hf : service.peerFactory.isSome) (id : Option String) :
    (newPeer id).run service = ⟨.ok ⟨service.created, id⟩,
      { service with created := service.created + 1 },
      [.create .peerConnection service.created]⟩ := by
  obtain ⟨factory, hfactory⟩ := Option.isSome_iff_exists.mp hf
  rw [newPeer, Task.run_bind, run_ensureFactory_of_some hfactory]
  rfl

/-- A connection is made and put under its id. -/
theorem run_connect (hf : service.peerFactory.isSome) (id : Option String) :
    Task.run (do
        let peer ← newPeer id
        putPeer id peer) service = ⟨.ok (), { service with
          created := service.created + 1
          connectionPeerDic := service.connectionPeerDic.insert id ⟨service.created, id⟩ },
        [.create .peerConnection service.created]⟩ := by
  rw [Task.run_bind, run_newPeer hf]
  rfl

/-- A capturer, a helper and a video source are made. -/
theorem run_createVideo (service : PeerService) :
    createVideo.run service = ⟨.ok (), { service with
        captureAndroid := some service.created
        surfaceTextureHelper := some (service.created + 1)
        videoSource := some (service.created + 2)
        created := service.created + 3 },
      [.create .captureAndroid service.created, .create .surfaceTextureHelper (service.created + 1),
        .create .videoSource (service.created + 2)]⟩ := by
  simp [createVideo, create]

/-- The streams are added without any other call. -/
theorem run_addStreams {stream : Nat} (hs : service.localStream = some stream) :
    addStreams.run service = ⟨.ok (), service,
      service.connectionPeerDic.entries.map fun entry => .addStream entry.2 stream⟩ := by
  have hbody (entry : Sigma fun _ : Option String => Peer) :
      (addStream entry.2).run service = ⟨.ok (), service, [.addStream entry.2 stream]⟩ := by
    rw [addStream, Task.run_bind, run_ensureLocalStream_of_some hs]
    simp [hs, deref]
  rw [List.map_eq_flatMap]
  exact Task.run_forM_emit hbody _

/-- A relayed signal touches nothing but the role. -/
theorem relayed_spec (native : Native) (videoEnable : Bool) (mediaType : Int32) {signal : Signal}
    (hs : signal.sender.isSome) (service : PeerService) :
    Task.Triple (fun s => ∃ role, s = { service with role := role })
      (callback native videoEnable mediaType signal)
      (fun _ s => ∃ role, s = { service with role := role })
      (fun s => ∃ role, s = { service with role := role }) (fun e => e.isNeutral = true) := by
  have hset (mPeer : Option Peer) (type : SdpType) (description : Option String) :
      Task.Triple (fun s => ∃ role, s = { service with role := role })
        (setRemoteDescription native mPeer type description)
        (fun _ s => ∃ role, s = { service with role := role })
        (fun s => ∃ role, s = { service with role := role }) (fun e => e.isNeutral = true) := by
    refine .whenSome (fun peer => ?_) fun _ hs _ => hs
    split
    · exact .emit rfl fun _ hs => hs.1
    · exact .raise fun _ hs => hs.1
  cases signal with
  | onRemoteIceCandidate socketId iceCandidate =>
    refine .whenSome (fun peer => ?_) fun _ hs _ => hs
    split
    · exact .emit rfl fun _ hs => hs.1
    · exact .raise fun _ hs => hs.1
  | onReceiveOffer socketId sdp =>
    refine .bind (Q := fun _ s => ∃ role, s = { service with role := role }) (.modify ?_)
      fun _ => ?_
    · rintro s ⟨role, rfl⟩
      exact ⟨some .Receiver, rfl⟩
    refine .get_bind fun s hs => ?_
    refine .bind (Q := fun _ s => ∃ role, s = { service with role := role }) (.ofExcept ?_ ?_)
      fun description => hset _ _ _
    · exact fun _ s' hs' _ => hs' ▸ hs
    · exact fun _ s' hs' _ => hs' ▸ hs
  | onReceiverAnswer socketId sdp =>
    exact .get_bind fun s hs => (hset _ _ _).pre fun s' hs' => hs' ▸ hs
  | onJoinToRoom connections myId => cases hs
  | onRemoteJoinToRoom socketId => cases hs
  | onRemoteOutRoom socketId => cases hs

end Runs

namespace Accounts

variable {log : List Effect} {service service' : PeerService} {lost : List Nat}

/-- The capturer, its helper and its source. -/
theorem createVideo (h : Accounts log service lost) (hf : service.peerFactory.isSome)
    (hl : service.localStream.isSome) (hcapture : service.captureAndroid = none)
    (hhelper : service.surfaceTextureHelper = none) (hvideo : service.videoSource = none) :
    Accounts (log ++ (createVideo.run service).out) (createVideo.run service).state lost := by
  have hready (resource : Resource) : resource = .peerFactory ∧ service.context = true ∨
      service.peerFactory.isSome ∧ (resource = .localStream ∨ service.localStream.isSome) :=
    Or.inr ⟨hf, Or.inr hl⟩
  have h₁ := h.hold .captureAndroid { service with
    captureAndroid := some service.created
    created := service.created + 1 }
    (by decide) hcapture (hready _) (by intro r; cases r <;> rfl) rfl rfl rfl
  have h₂ := h₁.hold .surfaceTextureHelper { service with
    captureAndroid := some service.created
    surfaceTextureHelper := some (service.created + 1)
    created := service.created + 2 }
    (by decide) hhelper (hready _) (by intro r; cases r <;> rfl) rfl rfl rfl
  have h₃ := h₂.hold .videoSource { service with
    captureAndroid := some service.created
    surfaceTextureHelper := some (service.created + 1)
    videoSource := some (service.created + 2)
    created := service.created + 3 }
    (by decide) hvideo (hready _) (by intro r; cases r <;> rfl) rfl rfl rfl
  rw [List.append_assoc, List.append_assoc] at h₃
  rw [run_createVideo]
  exact h₃

/-- A local stream is made from tracks the service then holds. -/
theorem createLocalStream (h : Accounts log service lost) (hf : service.peerFactory.isSome)
    (hnone : service.localStream = none) :
    ∃ service' out, createLocalStream.run service = ⟨.ok (), service', out⟩ ∧
      Accounts (log ++ out) service' lost ∧ service'.localStream.isSome ∧
      service'.peerFactory = service.peerFactory ∧ service'.roster = service.roster := by
  obtain ⟨factory, hfactory⟩ := Option.isSome_iff_exists.mp hf
  have hfields := h.unstreamed hnone
  have h₁ := h.hold .localStream { service with
    localStream := some service.created
    created := service.created + 1 }
    (by decide) hnone (Or.inr ⟨hf, Or.inl rfl⟩) (by intro r; cases r <;> rfl) rfl rfl rfl
  have h₂ := h₁.hold .audioSource { service with
    localStream := some service.created
    audioSource := some (service.created + 1)
    created := service.created + 2 }
    (by decide) (hfields .audioSource (by decide) (by decide)) (Or.inr ⟨hf, Or.inr rfl⟩)
    (by intro r; cases r <;> rfl) rfl rfl rfl
  rw [List.append_assoc] at h₂
  have hview {s : PeerService} {out : List Effect} (h : Accounts (log ++ out) s lost) :
      Accounts (log ++ (out ++ if service.viewCallback then
        [.onSetLocalStream service.created service.myId] else [])) s lost := by
    rw [← List.append_assoc]
    refine h.neutral (fun e he => ?_) (fun _ => rfl) rfl rfl id
    split at he
    · rw [List.mem_singleton.mp he]
      rfl
    · cases he
  cases hvideo : service.videoEnable with
  | false =>
    refine ⟨_, _, ?_, hview h₂, rfl, rfl, rfl⟩
    cases hv : service.viewCallback <;>
      simp [PeerService.createLocalStream, create, deref, hfactory, hvideo, hv]
  | true =>
    have h₅ := h₂.createVideo hf rfl (hfields .captureAndroid (by decide) (by decide))
      (hfields .surfaceTextureHelper (by decide) (by decide))
      (hfields .videoSource (by decide) (by decide))
    rw [List.append_assoc] at h₅
    refine ⟨_, _, ?_, hview h₅, rfl, rfl, rfl⟩
    cases hv : service.viewCallback <;>
      simp [PeerService.createLocalStream, run_createVideo, create, deref, hfactory, hvideo, hv]

/-- There is a local stream afterwards, and every resource is accounted for. -/
theorem ensureLocalStream (h : Accounts log service lost) (hf : service.peerFactory.isSome) :
    ∃ service' out, ensureLocalStream.run service = ⟨.ok (), service', out⟩ ∧
      Accounts (log ++ out) service' lost ∧ service'.localStream.isSome ∧
      service'.peerFactory = service.peerFactory ∧ service'.roster = service.roster := by
  cases hstream : service.localStream with
  | some stream =>
    refine ⟨service, [], run_ensureLocalStream_of_some hstream, ?_, ?_, rfl, rfl⟩
    · rw [List.append_nil]
      exact h
    · rw [hstream]
      rfl
  | none =>
    obtain ⟨service', out, hrun, hrest⟩ := h.createLocalStream hf hstream
    refine ⟨service', out, ?_, hrest⟩
    rw [PeerService.ensureLocalStream, Task.run_whenever, hstream]
    exact hrun

/-- The factory where it is missing. -/
theorem ensureFactory (h : Accounts log service lost) (hc : service.context = true) :
    ∃ service' out, ensureFactory.run service = ⟨.ok (), service', out⟩ ∧
      Accounts (log ++ out) service' lost ∧ service'.peerFactory.isSome ∧
      service'.roster = service.roster := by
  cases hfactory : service.peerFactory with
  | some factory =>
    refine ⟨service, [], run_ensureFactory_of_some hfactory, ?_, ?_, rfl⟩
    · rw [List.append_nil]
      exact h
    · rw [hfactory]
      rfl
  | none =>
    refine ⟨_, _, run_ensureFactory hfactory hc, ?_, rfl, rfl⟩
    exact h.hold .peerFactory _ nofun hfactory (Or.inl ⟨rfl, hc⟩) (by intro r; cases r <;> rfl)
      rfl rfl rfl

/-- The loop of `createPeerConnections` loses nothing exactly when every id is new to the map. -/
theorem peersLoop (ids : List (Option String)) (h : Accounts log service lost)
    (hf : service.peerFactory.isSome) :
    ∃ service' out more,
      Task.run (ids.forM fun str => do
        let peer ← newPeer str
        putPeer str peer) service = ⟨.ok (), service', out⟩ ∧
      Accounts (log ++ out) service' (lost ++ more) ∧
      service'.localStream = service.localStream ∧
      (more = [] ↔ ids.Nodup ∧ ∀ id ∈ ids, id ∉ service.connectionPeerDic) := by
  induction ids generalizing log service lost with
  | nil => exact ⟨service, [], [], rfl, by simpa using h, rfl, by simp⟩
  | cons id ids ih =>
    obtain ⟨service', out, more, hrun, haccounts, hstream, hmore⟩ := ih (h.connect id hf) hf
    refine ⟨service', [.create .peerConnection service.created] ++ out,
      (service.connectionPeerDic.lookup id).toList.map (·.pc) ++ more, ?_, ?_, hstream, ?_⟩
    · rw [Task.run_forM_cons, run_connect hf, Outcome.andThen_ok, hrun]
    · rw [List.append_assoc, List.append_assoc] at haccounts
      exact haccounts
    · rw [List.append_eq_nil_iff, lookup_pcs_eq_nil, hmore, List.nodup_cons, List.forall_mem_cons]
      simp only [AList.mem_insert, not_or]
      constructor
      · rintro ⟨hid, hnodup, hids⟩
        exact ⟨⟨fun hmem => (hids id hmem).1 rfl, hnodup⟩, hid, fun id' hmem => (hids id' hmem).2⟩
      · rintro ⟨⟨hnot, hnodup⟩, hid, hids⟩
        refine ⟨hid, hnodup, fun id' hmem => ⟨?_, hids id' hmem⟩⟩
        rintro rfl
        exact hnot hmem

/-- What the last part of `onJoinToRoom` loses. -/
theorem populate (h : Accounts log service lost) (hf : service.peerFactory.isSome) :
    ∃ service' out more, populate.run service = ⟨.ok (), service', out⟩ ∧
      Accounts (log ++ out) service' (lost ++ more) ∧
      (more = [] ↔ service.connectionIdArray.Nodup ∧
        ∀ id ∈ service.connectionIdArray, id ∉ service.connectionPeerDic) := by
  obtain ⟨s₁, out₁, hrun₁, h₁, hstream₁, hfactory₁, hroster₁⟩ := h.ensureLocalStream hf
  have hids : s₁.connectionIdArray = service.connectionIdArray :=
    congrArg Roster.connectionIdArray hroster₁
  have hdic : s₁.connectionPeerDic = service.connectionPeerDic :=
    congrArg Roster.connectionPeerDic hroster₁
  obtain ⟨s₂, out₂, more, hrun₂, h₂, hstream₂, hmore⟩ :=
    h₁.peersLoop s₁.connectionIdArray (hfactory₁ ▸ hf)
  obtain ⟨stream, hstream⟩ := Option.isSome_iff_exists.mp (hstream₂ ▸ hstream₁)
  have hpeers : createPeerConnections.run s₁ = ⟨.ok (), s₂, out₂⟩ := by
    rw [createPeerConnections, Task.run_bind, Task.run_get, Outcome.andThen_ok, hrun₂]
    rfl
  rw [hids, hdic] at hmore
  refine ⟨{ s₂ with role := if s₂.connectionPeerDic.entries = [] then s₂.role else some .Caller },
    out₁ ++ (out₂ ++ ((s₂.connectionPeerDic.entries.map fun entry => .addStream entry.2 stream) ++
      s₂.connectionPeerDic.entries.map fun entry => .createOffer entry.2)), more, ?_, ?_, hmore⟩
  · rw [PeerService.populate, Task.run_bind, hrun₁, Outcome.andThen_ok, Task.run_bind, hpeers,
      Outcome.andThen_ok, Task.run_bind, run_addStreams hstream, Outcome.andThen_ok,
      run_createOffers]
  · rw [← List.append_assoc, ← List.append_assoc]
    refine h₂.neutral (fun e he => ?_) (fun resource => ?_) rfl rfl id
    · rcases List.mem_append.mp he with he | he
      · obtain ⟨entry, _, rfl⟩ := List.mem_map.mp he
        rfl
      · obtain ⟨entry, _, rfl⟩ := List.mem_map.mp he
        rfl
    · cases resource <;> rfl

end Accounts

variable (native : Native)

/-- What the task of an event emits. -/
def out (service : PeerService) (event : PeerEvent) : List Effect :=
  ((task native event).run service).out

/-- Everything emitted along a run of a new service. -/
def emitted (events : List PeerEvent) : List Effect :=
  outputs (step native) (out native) init events

/-- The task puts no connection in the place of another. -/
def Apart (service : PeerService) : PeerEvent → Prop
  | .signal _ _ (.onJoinToRoom (some connections) _) => service.context = true →
    (service.connectionIdArray ++ connections).Nodup ∧
      ∀ id ∈ service.connectionIdArray ++ connections, id ∉ service.connectionPeerDic
  | .signal _ _ (.onRemoteJoinToRoom socketId) => socketId ∉ service.connectionPeerDic
  | _ => True

namespace Accounts

variable {log : List Effect} {service : PeerService} {lost : List Nat}

/-- Entering a room loses a connection exactly when one is put in the place of another. -/
theorem onJoinToRoom (h : Accounts log service lost) (connections : Option (List (Option String)))
    (myId : Option String) (videoEnable : Bool) (mediaType : Int32) :
    ∃ more, Accounts (log ++ out native service (.signal videoEnable mediaType
        (.onJoinToRoom connections myId)))
      (step native service (.signal videoEnable mediaType (.onJoinToRoom connections myId)))
      (lost ++ more) ∧
      (more = [] ↔ service.Apart (.signal videoEnable mediaType
        (.onJoinToRoom connections myId))) := by
  cases connections with
  | none =>
    refine ⟨[], ?_, iff_of_true rfl trivial⟩
    rw [List.append_nil]
    refine h.neutral nofun (fun resource => ?_) rfl rfl id
    cases resource <;> rfl
  | some connections =>
    have hentering : Accounts log (service.entering connections myId videoEnable mediaType)
        lost := by
      rw [← List.append_nil log]
      exact h.neutral nofun (fun resource => by cases resource <;> rfl) rfl rfl id
    simp only [out, step, task, callback, run_onJoinToRoom_some]
    cases hc : service.context with
    | false =>
      have hnone : service.peerFactory = none := by
        cases hf : service.peerFactory with
        | none => rfl
        | some factory =>
          rw [h.context_of_factory (by rw [hf]; rfl)] at hc
          cases hc
      refine ⟨[], ?_, iff_of_true rfl fun hc' => by rw [hc] at hc'; cases hc'⟩
      rw [run_ensureFactory_raise]
      · simpa using hentering
      · exact hnone
      · exact hc
    | true =>
      obtain ⟨s₁, out₁, hrun₁, h₁, hf₁, hroster₁⟩ := hentering.ensureFactory hc
      obtain ⟨s₂, out₂, more, hrun₂, h₂, hmore⟩ := h₁.populate hf₁
      rw [hrun₁, Outcome.andThen_ok, hrun₂]
      refine ⟨more, ?_, ?_⟩
      · rw [← List.append_assoc]
        exact h₂
      · have hids : s₁.connectionIdArray = service.connectionIdArray ++ connections :=
          congrArg Roster.connectionIdArray hroster₁
        have hdic : s₁.connectionPeerDic = service.connectionPeerDic :=
          congrArg Roster.connectionPeerDic hroster₁
        rw [hids, hdic] at hmore
        exact hmore.trans ⟨fun happart _ => happart, fun happart => happart hc⟩

/-- An announced newcomer that was known already is lost. -/
theorem onRemoteJoinToRoom (h : Accounts log service lost) (socketId : Option String) :
    ∃ more, Accounts (log ++ ((onRemoteJoinToRoom socketId).run service).out)
      ((onRemoteJoinToRoom socketId).run service).state (lost ++ more) ∧
      (more = [] ↔ socketId ∉ service.connectionPeerDic) := by
  cases hf : service.peerFactory with
  | none =>
    have hnone : service.localStream = none := by
      cases hs : service.localStream with
      | none => rfl
      | some stream =>
        have hsome := h.streamed (by rw [hs]; rfl)
        rw [hf] at hsome
        cases hsome
    have hnobody : socketId ∉ service.connectionPeerDic := by
      intro hid
      have hsome := h.peered socketId hid
      rw [hf] at hsome
      cases hsome
    refine ⟨[], ?_, iff_of_true rfl hnobody⟩
    rw [PeerService.onRemoteJoinToRoom, Task.run_bind, run_ensureLocalStream_raise hnone hf]
    simpa using h
  | some factory =>
    obtain ⟨s₁, out₁, hrun₁, h₁, hstream₁, hfactory₁, hroster₁⟩ :=
      h.ensureLocalStream (by rw [hf]; rfl)
    have hdic : s₁.connectionPeerDic = service.connectionPeerDic :=
      congrArg Roster.connectionPeerDic hroster₁
    obtain ⟨stream, hstream⟩ := Option.isSome_iff_exists.mp hstream₁
    have hf₁ : s₁.peerFactory.isSome := by
      rw [hfactory₁, hf]
      rfl
    refine ⟨(s₁.connectionPeerDic.lookup socketId).toList.map (·.pc), ?_, ?_⟩
    · rw [PeerService.onRemoteJoinToRoom, Task.run_bind, hrun₁, Outcome.andThen_ok,
        Task.run_swallow, Task.run_bind, run_newPeer hf₁]
      simp only [Outcome.andThen_ok, Task.run_bind, Task.run_get, hstream, deref,
        Task.run_ofExcept, Task.run_emit, Task.run_modify, putPeer, List.nil_append]
      rw [← List.append_assoc, ← List.append_assoc]
      refine (h₁.connect socketId hf₁).neutral (fun e he => ?_) (fun resource => ?_) rfl rfl id
      · rw [List.append_nil, List.mem_singleton] at he
        rw [he]
        rfl
      · cases resource with
        | localStream => exact hstream.symm
        | _ => rfl
    · rw [hdic]
      exact lookup_pcs_eq_nil _ _

/-- Of the peer that has left everything is closed or disposed of. -/
theorem onRemoteOutRoom (h : Accounts log service lost) (socketId : Option String) :
    Accounts (log ++ ((onRemoteOutRoom socketId).run service).out)
      ((onRemoteOutRoom socketId).run service).state lost := by
  rw [PeerService.onRemoteOutRoom, run_closePeerConnection, ← List.append_assoc]
  have hclosed : Accounts _ { service with
      connectionPeerDic := service.connectionPeerDic.erase socketId
      connectionIdArray := service.connectionIdArray.erase socketId } lost :=
    h.disconnect socketId (fun resource => by cases resource <;> rfl) rfl rfl rfl
  rw [List.map_map] at hclosed
  refine hclosed.neutral (fun e he => ?_) (fun _ => rfl) rfl rfl id
  split at he
  · rw [List.mem_singleton.mp he]
    rfl
  · cases he

/-- A relayed message makes nothing and loses nothing. -/
theorem relayed (h : Accounts log service lost) {videoEnable : Bool} {mediaType : Int32}
    {signal : Signal} (hs : signal.sender.isSome) :
    Accounts (log ++ out native service (.signal videoEnable mediaType signal))
      (PeerService.step native service (.signal videoEnable mediaType signal)) lost := by
  have hspec := relayed_spec native videoEnable mediaType hs service
  obtain ⟨role, hrole⟩ := hspec.state ⟨service.role, rfl⟩
  have hstep : PeerService.step native service (.signal videoEnable mediaType signal) =
      { service with role := role } := hrole
  rw [hstep]
  refine h.neutral (hspec service ⟨service.role, rfl⟩).emitted (fun resource => ?_) rfl rfl id
  cases resource <;> rfl

/-- What an event before the hang-up loses. -/
theorem step (h : Accounts log service lost) {event : PeerEvent} (hevent : event ≠ .exitRoom) :
    ∃ more, Accounts (log ++ out native service event) (step native service event)
      (lost ++ more) ∧ (more = [] ↔ service.Apart event) := by
  have hneutral (h' : Accounts (log ++ out native service event)
      (PeerService.step native service event) lost) (hapart : service.Apart event) :
      ∃ more, Accounts (log ++ out native service event) (PeerService.step native service event)
        (lost ++ more) ∧ (more = [] ↔ service.Apart event) := by
    refine ⟨[], ?_, iff_of_true rfl hapart⟩
    rw [List.append_nil]
    exact h'
  cases event with
  | initContext =>
    refine hneutral (h.neutral nofun (fun resource => ?_) rfl rfl fun _ => rfl) trivial
    cases resource <;> rfl
  | setViewCallback set =>
    refine hneutral (h.neutral nofun (fun resource => ?_) rfl rfl id) trivial
    cases resource <;> rfl
  | exitRoom => exact absurd rfl hevent
  | signal videoEnable mediaType signal =>
    cases signal with
    | onJoinToRoom connections myId =>
      exact h.onJoinToRoom native connections myId videoEnable mediaType
    | onRemoteJoinToRoom socketId => exact h.onRemoteJoinToRoom socketId
    | onRemoteOutRoom socketId => exact hneutral (h.onRemoteOutRoom socketId) trivial
    | _ => exact hneutral (h.relayed native rfl) trivial

/-- What the events before the hang-up lose. -/
theorem run (h : Accounts log service lost) {events : List PeerEvent}
    (hevents : ∀ event ∈ events, event ≠ .exitRoom) :
    ∃ more, Accounts (log ++ outputs (PeerService.step native) (out native) service events)
        (events.foldl (PeerService.step native) service) (lost ++ more) ∧
      (more = [] ↔ Along (PeerService.step native) Apart service events) := by
  induction events generalizing log service lost with
  | nil => exact ⟨[], by simpa [outputs] using h, iff_of_true rfl trivial⟩
  | cons event events ih =>
    obtain ⟨hevent, hrest⟩ := List.forall_mem_cons.mp hevents
    obtain ⟨first, h₁, hfirst⟩ := h.step native hevent
    obtain ⟨more, h₂, hmore⟩ := ih h₁ hrest
    refine ⟨first ++ more, ?_, ?_⟩
    · rw [List.append_assoc, List.append_assoc] at h₂
      exact h₂
    · rw [List.append_eq_nil_iff, hfirst, hmore]
      rfl

end Accounts

end PeerService

end WebrtcCaller
