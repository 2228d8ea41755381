import WebrtcCaller.Client.Roster
import WebrtcCaller.Core.Run

/-!
# After the call has been hung up

`exitRoom` closes every connection of a service, clears its id list and releases what it
holds, but it keeps the local stream and the context. A task that is still queued behind
it may find the stream and make a new factory and a new connection. The run lemma below
says which events leave the service as `exitRoom` has left it: exactly those that find
nothing to rebuild the call from.
-/

namespace WebrtcCaller

/-- What happens to a peer service: the calls of its user and the tasks of its executor. -/
inductive PeerEvent where
  | initContext
  | setViewCallback (set : Bool)
  | signal (videoEnable : Bool) (mediaType : Int32) (signal : Signal)
  | exitRoom

/-- The creation of a connection or of the factory behind the connections. -/
def Effect.revives : Effect → Bool
  | .create .peerConnection _ => true
  | .create .peerFactory _ => true
  | _ => false

namespace PeerService

variable (native : Native)

/-- The task of the executor for each event. -/
def task : PeerEvent → PeerTask Unit
  | .initContext => Task.modify initContext
  | .setViewCallback set => Task.modify fun service => { service with viewCallback := set }
  | .signal videoEnable mediaType signal => callback native videoEnable mediaType signal
  | .exitRoom => exitRoom

/-- The service after an event, whether or not its task has raised. -/
def step (service : PeerService) (event : PeerEvent) : PeerService :=
  ((task native event).run service).state

/-- The service after a run. -/
def after (events : List PeerEvent) : PeerService := events.foldl (step native) init

section Lazily

variable {service : PeerService} {number : Nat}

/-- A factory that exists is kept. -/
theorem run_ensureFactory_of_some (h : service.peerFactory = some number) :
    ensureFactory.run service = ⟨.ok (), service, []⟩ := by
  simp [ensureFactory, h]

/-- Without a context there is no factory. -/
theorem run_ensureFactory_raise (h : service.peerFactory = none) (hc : service.context = false) :
    ensureFactory.run service = ⟨.error .nullPointer, service, []⟩ := by
  simp [ensureFactory, createConnectionFactory, h, hc]

/-- A factory is made from the context. -/
theorem run_ensureFactory (h : service.peerFactory = none) (hc : service.context = true) :
    ensureFactory.run service =
      ⟨.ok (), { service with peerFactory := some service.created, created := service.created + 1 },
        [.create .peerFactory service.created]⟩ := by
  simp [ensureFactory, createConnectionFactory, create, h, hc]

/-- A local stream that exists is kept. -/
theorem run_ensureLocalStream_of_some (h : service.localStream = some number) :
    ensureLocalStream.run service = ⟨.ok (), service, []⟩ := by
  simp [ensureLocalStream, h]

/-- Without a factory there is no stream. -/
theorem run_ensureLocalStream_raise (h : service.localStream = none)
    (hf : service.peerFactory = none) :
    ensureLocalStream.run service = ⟨.error .nullPointer, service, []⟩ := by
  simp [ensureLocalStream, createLocalStream, deref, h, hf]

/-- The service while it enters a room, before it looks for its factory. -/
def entering (service : PeerService) (connections : List (Option String)) (myId : Option String)
    (videoEnable : Bool) (mediaType : Int32) : PeerService :=
  { service with
    videoEnable := videoEnable
    mediaType := mediaType
    connectionIdArray := service.connectionIdArray ++ connections
    myId := myId }

/-- What `onJoinToRoom` does once the factory is there. -/
def populate : PeerTask Unit := do
  ensureLocalStream
  createPeerConnections
  addStreams
  createOffers

/-- Nothing is emitted before the factory is there. -/
theorem run_onJoinToRoom_some (connections : List (Option String)) (myId : Option String)
    (videoEnable : Bool) (mediaType : Int32) (service : PeerService) :
    (onJoinToRoom (some connections) myId videoEnable mediaType).run service =
      (ensureFactory.run (service.entering connections myId videoEnable mediaType)).andThen
        fun _ => populate := by
  simp only [onJoinToRoom, enterRoom, deref, Task.bind_assoc, Task.run_bind, Task.run_modify,
    Task.run_ofExcept, Outcome.andThen_ok, List.nil_append]
  rfl

end Lazily

section Leaving

variable {service : PeerService}

/-- The connections closed for `ids`, in order. -/
def closings : List (Option String) → (AList fun _ : Option String => Peer) → List Nat
  | [], _ => []
  | id :: ids, dic => ((dic.lookup id).toList.map (·.pc)) ++ closings ids (dic.erase id)

/-- Closing a connection forgets its peer, if there is one. -/
theorem run_closePeerConnection (id : Option String) (service : PeerService) :
    (closePeerConnection id).run service =
      ⟨.ok (), { service with
          connectionPeerDic := service.connectionPeerDic.erase id
          connectionIdArray := service.connectionIdArray.erase id },
        ((service.connectionPeerDic.lookup id).toList.map fun peer => .close peer.pc) ++
          if service.viewCallback then [.onCloseWithId id] else []⟩ := by
  cases hp : service.connectionPeerDic.lookup id with
  | none => cases hv : service.viewCallback <;> simp [closePeerConnection, hp, hv]
  | some peer => cases hv : service.viewCallback <;> simp [closePeerConnection, hp, hv]

/-- Closing a list of connections forgets all of their peers. -/
theorem run_closePeerConnections (ids : List (Option String)) (h : service.viewCallback = false) :
    Task.run (ids.forM closePeerConnection) service =
      ⟨.ok (), { service with
          connectionPeerDic := ids.foldl (fun dic id => dic.erase id) service.connectionPeerDic
          connectionIdArray := ids.foldl List.erase service.connectionIdArray },
        (closings ids service.connectionPeerDic).map .close⟩ := by
  induction ids generalizing service with
  | nil => rfl
  | cons id ids ih =>
    rw [Task.run_forM_cons, run_closePeerConnection, Outcome.andThen_ok, ih]
    · simp [closings, h]
    · exact h

/-- Releasing a field that is cleared afterwards. -/
theorem run_release (resource : Resource) (field : PeerService → Option Nat)
    (clear : PeerService → PeerService) (hclear : ∀ s, field s = none → clear s = s)
    (s : PeerService) : (release resource field clear).run s =
      ⟨.ok (), clear s, (field s).toList.map (.dispose resource)⟩ := by
  cases hs : field s with
  | none => simp [release, hs, hclear s hs]
  | some number => simp [release, hs]

/-- What `exitRoom` leaves of a service. -/
def exited (service : PeerService) : PeerService :=
  { service with
    viewCallback := false
    connectionIdArray := []
    connectionPeerDic := service.connectionIdArray.foldl (fun dic id => dic.erase id)
      service.connectionPeerDic
    audioSource := none
    videoSource := none
    captureAndroid := none
    surfaceTextureHelper := none
    peerFactory := none
    webSocket := false }

/-- What `exitRoom` emits once the connections are closed. -/
def disposals (service : PeerService) : List Effect :=
  service.audioSource.toList.map (.dispose .audioSource) ++
  (service.videoSource.toList.map (.dispose .videoSource) ++
  (service.captureAndroid.toList.flatMap (fun number =>
    [.stopCapture number, .dispose .captureAndroid number]) ++
  (service.surfaceTextureHelper.toList.map (.dispose .surfaceTextureHelper) ++
  (service.peerFactory.toList.map (.dispose .peerFactory) ++
  if service.webSocket then [.closeWebSocket] else []))))

/-- Leaving closes the listed connections and disposes of what the service holds. -/
theorem run_exitRoom (service : PeerService) : exitRoom.run service = ⟨.ok (), service.exited,
    (closings service.connectionIdArray service.connectionPeerDic).map .close ++
      disposals service⟩ := by
  have hclose : Task.run (service.connectionIdArray.forM closePeerConnection)
      { service with viewCallback := false } = _ :=
    run_closePeerConnections service.connectionIdArray rfl
  have haudio := run_release .audioSource (·.audioSource)
    (fun service => { service with audioSource := none }) fun s hs => by rw [← hs]
  have hvideo := run_release .videoSource (·.videoSource)
    (fun service => { service with videoSource := none }) fun s hs => by rw [← hs]
  have hhelper := run_release .surfaceTextureHelper (·.surfaceTextureHelper)
    (fun service => { service with surfaceTextureHelper := none })
    fun s hs => by rw [← hs]
  have hfactory := run_release .peerFactory (·.peerFactory)
    (fun service => { service with peerFactory := none }) fun s hs => by rw [← hs]
  have hcapture (s : PeerService) : Task.run (Task.whenSome (·.captureAndroid) fun number => do
        Task.emit (.stopCapture number)
        Task.emit (.dispose .captureAndroid number)
        Task.modify fun service => { service with captureAndroid := none } : PeerTask Unit) s =
      ⟨.ok (), { s with captureAndroid := none }, s.captureAndroid.toList.flatMap fun number =>
        [.stopCapture number, .dispose .captureAndroid number]⟩ := by
    cases hs : s.captureAndroid with
    | none =>
      cases s
      simp_all
    | some number => simp [hs]
  have hsocket (s : PeerService) : Task.run (Task.whenever (·.webSocket) do
        Task.emit .closeWebSocket
        Task.modify fun service => { service with webSocket := false } : PeerTask Unit) s =
      ⟨.ok (), { s with webSocket := false }, if s.webSocket then [.closeWebSocket] else []⟩ := by
    cases hs : s.webSocket with
    | false =>
      cases s
      simp_all
    | true => simp [hs]
  simp only [exitRoom, Task.run_bind, Task.run_modify, Task.run_get, Outcome.andThen_ok, hclose,
    haudio, hvideo, hcapture, hhelper, hfactory, hsocket, List.nil_append]
  rfl

/-- A peer that is erased for every listed id is gone. -/
theorem mem_foldl_erase (ids : List (Option String)) (dic : AList fun _ : Option String => Peer)
    (id : Option String) :
    id ∈ ids.foldl (fun dic id => dic.erase id) dic ↔ id ∈ dic ∧ id ∉ ids := by
  induction ids generalizing dic with
  | nil => simp
  | cons id' ids ih =>
    rw [List.foldl_cons, ih, AList.mem_erase, List.mem_cons, not_or]
    tauto

end Leaving

end PeerService

/-- Every peer is listed. -/
def Roster.Listed (v : Roster) : Prop := ∀ id ∈ v.connectionPeerDic, id ∈ v.connectionIdArray

/-- A callback that follows the roster lists the peers it adds. -/
theorem Roster.Follows.listed {v w : Roster} {signal : Signal} (h : v.Follows signal w)
    (hv : v.Listed) : w.Listed := by
  cases h with
  | same => exact hv
  | entered hsub hw =>
    intro id hid
    rw [hw.connectionIdArray_eq]
    rcases (hw.mem_iff id).mp hid with hid | hid
    · exact List.mem_append_left _ (hv id hid)
    · exact hsub hid
  | joined peer =>
    intro id hid
    rcases (AList.mem_insert _).mp hid with rfl | hid
    · exact List.mem_append_right _ (List.mem_singleton_self _)
    · exact List.mem_append_left _ (hv id hid)
  | left =>
    intro id hid
    obtain ⟨hne, hid⟩ := AList.mem_erase.mp hid
    exact (List.mem_erase_of_ne hne).mpr (hv id hid)

namespace PeerService

variable {native : Native} {service : PeerService}

/-- A dictionary without keys is the empty one. -/
theorem eq_empty_of_not_mem {dic : AList fun _ : Option String => Peer}
    (h : ∀ id, id ∉ dic) : dic = ∅ := by
  refine AList.ext ?_
  cases he : dic.entries with
  | nil => rfl
  | cons entry entries =>
    refine absurd ?_ (h entry.1)
    rw [AList.mem_keys, AList.keys, he]
    exact List.mem_cons_self ..

/-- A blank service lists nobody and knows nobody. -/
theorem Blank.listed (h : service.Blank) : service.roster.Listed := by
  intro id hid
  rw [show service.roster.connectionPeerDic = ∅ from h.connectionPeerDic_eq] at hid
  exact absurd hid (AList.notMem_empty id)

/-- What is left after an exit is blank, if every peer was listed. -/
theorem blank_exited (h : service.roster.Listed) : service.exited.Blank := by
  refine ⟨rfl, eq_empty_of_not_mem fun id hid => ?_⟩
  obtain ⟨hid, hnot⟩ := (mem_foldl_erase _ _ id).mp hid
  exact hnot (h id hid)

/-- Every event keeps the peers listed. -/
theorem listed_step (h : service.roster.Listed) (event : PeerEvent) :
    (step native service event).roster.Listed := by
  cases event with
  | initContext => exact h
  | setViewCallback set => exact h
  | signal videoEnable mediaType signal =>
    exact ((callback_follows native videoEnable mediaType signal).state rfl).listed h
  | exitRoom =>
    change ((exitRoom.run service).state).roster.Listed
    rw [run_exitRoom]
    exact (blank_exited h).listed

/-- In every reachable state the peers are listed. -/
theorem listed_after (native : Native) (events : List PeerEvent) :
    (after native events).roster.Listed := by
  have hinit : init.Blank := ⟨rfl, rfl⟩
  exact List.foldlRecOn (motive := fun s : PeerService => s.roster.Listed) events (step native)
    hinit.listed fun s hs event _ => listed_step hs event

/-- An exit at the end of a run leaves what an exit leaves. -/
theorem after_exitRoom (native : Native) (events : List PeerEvent) :
    after native (events ++ [.exitRoom]) = (after native events).exited := by
  rw [after, List.foldl_append]
  change (exitRoom.run (after native events)).state = _
  rw [run_exitRoom]

/-- The service has nobody and no factory. -/
structure Vacated (service : PeerService) : Prop where
  blank : service.Blank
  peerFactory_eq : service.peerFactory = none

/-- The event finds nothing to rebuild the call from. -/
def Quiet (service : PeerService) : PeerEvent → Prop
  | .signal _ _ (.onJoinToRoom connections _) =>
    connections = none ∨ connections = some [] ∧ service.context = false
  | .signal _ _ (.onRemoteJoinToRoom _) => service.localStream = none ∨ service.context = false
  | _ => True

/-- The task creates no connection and no factory. -/
def Inert (native : Native) (service : PeerService) (event : PeerEvent) : Prop :=
  ∀ e ∈ ((task native event).run service).out, e.revives = false

/-- Whether a service is vacated is decided by three of its fields. -/
theorem Vacated.congr {s s' : PeerService} (h : s.Vacated)
    (hids : s'.connectionIdArray = s.connectionIdArray)
    (hdic : s'.connectionPeerDic = s.connectionPeerDic)
    (hfactory : s'.peerFactory = s.peerFactory) : s'.Vacated :=
  ⟨⟨hids.trans h.blank.connectionIdArray_eq, hdic.trans h.blank.connectionPeerDic_eq⟩,
    hfactory.trans h.peerFactory_eq⟩

/-- A vacated service finds no peer. -/
theorem Vacated.lookup_eq (h : service.Vacated) (id : Option String) :
    service.connectionPeerDic.lookup id = none := by
  rw [h.blank.connectionPeerDic_eq, AList.lookup_empty]

/-- A callback that is quiet for a vacated service does nothing. -/
theorem Vacated.quiet_signal (h : service.Vacated) {videoEnable : Bool} {mediaType : Int32}
    {signal : Signal} (hq : service.Quiet (.signal videoEnable mediaType signal)) :
    (step native service (.signal videoEnable mediaType signal)).Vacated ∧
      Inert native service (.signal videoEnable mediaType signal) := by
  have hfactory := h.peerFactory_eq
  have hnobody := h.lookup_eq
  cases signal with
  | onJoinToRoom connections myId =>
    rcases hq with rfl | ⟨rfl, hc⟩
    · simp only [step, Inert, task, callback, onJoinToRoom, enterRoom, deref, Task.run_bind,
        Task.run_modify, Task.run_ofExcept, Outcome.andThen_ok, Outcome.andThen_error]
      exact ⟨h.congr rfl rfl rfl, List.forall_mem_nil _⟩
    · simp only [step, Inert, task, callback, run_onJoinToRoom_some]
      rw [run_ensureFactory_raise]
      · exact ⟨h.congr (List.append_nil _) rfl rfl, List.forall_mem_nil _⟩
      · exact hfactory
      · exact hc
  | onRemoteJoinToRoom socketId =>
    have hrun : ((onRemoteJoinToRoom socketId).run service).state = service ∧
        ((onRemoteJoinToRoom socketId).run service).out = [] := by
      cases hstream : service.localStream with
      | none =>
        rw [onRemoteJoinToRoom, Task.run_bind, run_ensureLocalStream_raise hstream hfactory]
        exact ⟨rfl, rfl⟩
      | some number =>
        have hc : service.context = false := hq.resolve_left (by simp [hstream])
        rw [onRemoteJoinToRoom, Task.run_bind, run_ensureLocalStream_of_some hstream]
        simp only [Outcome.andThen_ok, Task.run_swallow, newPeer, Task.run_bind]
        rw [run_ensureFactory_raise hfactory hc]
        exact ⟨rfl, rfl⟩
    simp only [step, Inert, task, callback, hrun]
    exact ⟨h, List.forall_mem_nil _⟩
  | onRemoteOutRoom socketId =>
    have hids : service.connectionIdArray.erase socketId = service.connectionIdArray := by
      rw [h.blank.connectionIdArray_eq]
      rfl
    have hdic : service.connectionPeerDic.erase socketId = service.connectionPeerDic := by
      rw [h.blank.connectionPeerDic_eq]
      rfl
    simp only [step, Inert, task, callback, onRemoteOutRoom, run_closePeerConnection, hnobody,
      Option.toList_none, List.map_nil, List.nil_append]
    refine ⟨h.congr hids hdic rfl, fun e he => ?_⟩
    split at he
    · rw [List.mem_singleton.mp he]
      rfl
    · cases he
  | onRemoteIceCandidate socketId iceCandidate =>
    simp only [step, Inert, task, callback, onRemoteIceCandidate, Task.run_whenSome, hnobody]
    exact ⟨h, List.forall_mem_nil _⟩
  | onReceiveOffer socketId sdp =>
    simp only [step, Inert, task, callback, onReceiveOffer, setRemoteDescription, Task.run_bind,
      Task.run_modify, Task.run_get, Task.run_ofExcept, Outcome.andThen_ok, hnobody]
    generalize (if service.videoEnable = true then preferred sdp else .ok sdp) = description
    cases description with
    | error e => exact ⟨h.congr rfl rfl rfl, List.forall_mem_nil _⟩
    | ok description => exact ⟨h.congr rfl rfl rfl, List.forall_mem_nil _⟩
  | onReceiverAnswer socketId sdp =>
    simp only [step, Inert, task, callback, onReceiverAnswer, setRemoteDescription, Task.run_bind,
      Task.run_get, Outcome.andThen_ok, Task.run_whenSome, hnobody]
    exact ⟨h, List.forall_mem_nil _⟩

theorem Vacated.quiet (h : service.Vacated) {event : PeerEvent} (hq : service.Quiet event) :
    (step native service event).Vacated ∧ Inert native service event := by
  cases event with
  | initContext => exact ⟨h.congr rfl rfl rfl, List.forall_mem_nil _⟩
  | setViewCallback set => exact ⟨h.congr rfl rfl rfl, List.forall_mem_nil _⟩
  | signal videoEnable mediaType signal => exact h.quiet_signal hq
  | exitRoom =>
    simp only [step, Inert, task, run_exitRoom]
    refine ⟨⟨blank_exited h.blank.listed, rfl⟩, fun e he => ?_⟩
    simp only [disposals, List.mem_append, List.mem_map, List.mem_flatMap, List.mem_cons,
      List.not_mem_nil, or_false] at he
    rcases he with ⟨_, _, rfl⟩ | ⟨_, _, rfl⟩ | ⟨_, _, rfl⟩ | ⟨_, _, rfl | rfl⟩ | ⟨_, _, rfl⟩ |
      ⟨_, _, rfl⟩ | he
    all_goals try rfl
    split at he
    · rw [List.mem_singleton.mp he]
      rfl
    · cases he

/-- An event that is not quiet does something, even where it leaves the service blank. -/
theorem Vacated.loud (h : service.Vacated) {event : PeerEvent} (hq : ¬service.Quiet event)
    (hblank : (step native service event).Blank) : ¬Inert native service event := by
  have hfactory := h.peerFactory_eq
  intro hinert
  cases event with
  | signal videoEnable mediaType signal =>
    cases signal with
    | onJoinToRoom connections myId =>
      cases connections with
      | none => exact hq (Or.inl rfl)
      | some connections =>
        simp only [step, Inert, task, callback, run_onJoinToRoom_some] at hblank hinert
        cases hc : service.context with
        | false =>
          rw [run_ensureFactory_raise] at hblank
          · have hnil : service.connectionIdArray ++ connections = [] := hblank.connectionIdArray_eq
            exact hq (Or.inr ⟨congrArg some (List.append_eq_nil_iff.mp hnil).2, hc⟩)
          · exact hfactory
          · exact hc
        | true =>
          rw [run_ensureFactory] at hinert
          · have hnew := hinert _ (Outcome.mem_andThen (List.mem_singleton_self _) _)
            cases hnew
          · exact hfactory
          · exact hc
    | onRemoteJoinToRoom socketId =>
      have hstream : service.localStream ≠ none := fun hnone => hq (Or.inl hnone)
      have hc : service.context = true := by
        simpa using fun hfalse : service.context = false => hq (Or.inr hfalse)
      obtain ⟨stream, hsome⟩ := Option.ne_none_iff_exists'.mp hstream
      simp only [Inert, task, callback, onRemoteJoinToRoom, Task.run_bind] at hinert
      rw [run_ensureLocalStream_of_some hsome] at hinert
      simp only [Outcome.andThen_ok, Task.run_swallow, newPeer, Task.run_bind] at hinert
      rw [run_ensureFactory hfactory hc] at hinert
      have hnew := hinert _ (List.mem_append_right _
        (Outcome.mem_andThen (Outcome.mem_andThen (List.mem_singleton_self _) _) _))
      cases hnew
    | _ => exact hq trivial
  | _ => exact hq trivial

/-- Once `exitRoom` has run, the call stays over exactly as long as only quiet events follow. -/
theorem exitRoom_final_iff (native : Native) (before later : List PeerEvent) :
    Throughout (step native) Blank (after native (before ++ [.exitRoom])) later ∧
      Along (step native) (Inert native) (after native (before ++ [.exitRoom])) later ↔
    Along (step native) Quiet (after native (before ++ [.exitRoom])) later := by
  have hvacated : (after native (before ++ [.exitRoom])).Vacated := by
    rw [after_exitRoom]
    exact ⟨blank_exited (listed_after native before), rfl⟩
  refine throughout_and_along_iff (J := Vacated) ?_ ?_ hvacated hvacated.blank
  · intro s e hs
    refine ⟨fun ⟨hblank, hinert⟩ => ?_, fun hq => ?_⟩
    · by_contra hq
      exact hs.loud hq hblank hinert
    · exact ⟨(hs.quiet hq).1.blank, (hs.quiet hq).2⟩
  · exact fun s e hs hq => (hs.quiet hq).1

/-- A newcomer that was announced before the call was hung up brings it back to life. -/
theorem late_newcomer_revives :
    ¬(Throughout (step .lenient) Blank (after .lenient ([.initContext,
        .signal true 0 (.onJoinToRoom (some []) (some "alice"))] ++ [.exitRoom]))
          [.signal true 0 (.onRemoteJoinToRoom (some "bob"))] ∧
      Along (step .lenient) (Inert .lenient) (after .lenient ([.initContext,
        .signal true 0 (.onJoinToRoom (some []) (some "alice"))] ++ [.exitRoom]))
          [.signal true 0 (.onRemoteJoinToRoom (some "bob"))]) := by
  rintro ⟨⟨_, hblank⟩, _⟩
  have hids := hblank.connectionIdArray_eq
  revert hids
  decide

end PeerService
end WebrtcCaller
