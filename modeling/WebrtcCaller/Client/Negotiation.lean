import WebrtcCaller.Client.Roster
import WebrtcCaller.Core.Run

/-!
# Offers and answers of a group call

Every `Peer` is the observer of its own connection. A connection works through
its operations one at a time: it performs the next one in the signalling state
it is in, and goes on when the observer has been told. Executor tasks and the
callbacks of different peers interleave freely. `onSetSuccess` decides between
an offer and an answer by the signalling state of its own connection and by
`role`, which all peers share.
-/

namespace WebrtcCaller

/-- The signalling states a connection of this program passes through. -/
inductive SignalingState where
  | STABLE
  | HAVE_LOCAL_OFFER
  | HAVE_REMOTE_OFFER
  deriving DecidableEq, Repr

/-- The four ways of setting a description. -/
inductive Transition where
  | localOffer
  | localAnswer
  | remoteOffer
  | remoteAnswer
  deriving DecidableEq, Repr

namespace Transition

/-- Setting a description of one's own. -/
def ofLocal : SdpType → Transition
  | .OFFER => .localOffer
  | .ANSWER => .localAnswer

/-- Setting a description of the other side. -/
def ofRemote : SdpType → Transition
  | .OFFER => .remoteOffer
  | .ANSWER => .remoteAnswer

/-- The signalling states in which the description may be set. -/
def admits : Transition → SignalingState → Bool
  | .localOffer, state => state = .STABLE ∨ state = .HAVE_LOCAL_OFFER
  | .localAnswer, state => state = .HAVE_REMOTE_OFFER
  | .remoteOffer, state => state = .STABLE ∨ state = .HAVE_REMOTE_OFFER
  | .remoteAnswer, state => state = .HAVE_LOCAL_OFFER

/-- The signalling state it leads to. -/
def after : Transition → SignalingState
  | .localOffer => .HAVE_LOCAL_OFFER
  | .remoteOffer => .HAVE_REMOTE_OFFER
  | .localAnswer | .remoteAnswer => .STABLE

end Transition

/-- What a connection is asked to do. -/
inductive Operation where
  | createOffer
  | createAnswer
  | setLocalDescription (type : SdpType) (description : String)
  | setRemoteDescription (type : SdpType) (description : Option String)

/-- The operation an effect of the executor asks of a connection. -/
def Effect.operation : Effect → Option (Peer × Operation)
  | .createOffer peer => some (peer, .createOffer)
  | .setRemoteDescription peer type description =>
    some (peer, .setRemoteDescription type description)
  | _ => none

/-- What the observer of a connection is still to be told: a created description, or that
one has been set. A failure tells it nothing it reacts to. -/
inductive Report where
  | created (type : SdpType) (description : String)
  | set (transition : Transition)

/-- A connection: its signalling state and local description, the operations it is still to
perform, and the callback that has to run before it goes on. -/
structure Link where
  state : SignalingState
  localDescription : Option String
  chain : List Operation
  report : Option Report

namespace Link

/-- A new connection: nothing is set and nothing asked for. -/
def init : Link := ⟨.STABLE, none, [], none⟩

/-- One more operation. -/
def request (operation : Operation) (link : Link) : Link :=
  { link with chain := link.chain ++ [operation] }

/-- The observer has been told. -/
def told (link : Link) : Link := { link with report := none }

/-- Set a description, where the signalling state admits it. -/
def set (transition : Transition) (description : Option String) (link : Link) : Link :=
  if transition.admits link.state then
    { link with state := transition.after, localDescription := description,
                report := some (.set transition) }
  else link

/-- Perform one operation; `ok` is whether the library accepts it, `sdp` what it creates. -/
def apply (ok : Bool) (sdp : String) (link : Link) : Operation → Link
  | .createOffer => if ok then { link with report := some (.created .OFFER sdp) } else link
  | .createAnswer =>
    if ok ∧ link.state = .HAVE_REMOTE_OFFER then { link with report := some (.created .ANSWER sdp) }
    else link
  | .setLocalDescription type description =>
    if ok then link.set (.ofLocal type) (some description) else link
  | .setRemoteDescription type _ =>
    if ok then link.set (.ofRemote type) link.localDescription else link

/-- Perform the next operation, unless the observer is still to be told of the last one. That a
connection goes on only after its observer has been told is taken from the native library, which
is not part of the sources. -/
def perform (ok : Bool) (sdp : String) (link : Link) : Link :=
  match link.report, link.chain with
  | none, operation :: chain => { link with chain := chain }.apply ok sdp operation
  | _, _ => link

end Link

/-- A callback of a peer: it acts on its connection and sends to the signalling server. -/
abbrev PeerCallback := Task Link (Option String × Relay) Raise Unit

namespace Peer

/-- A created description is set as the local one, with the video codec preferred. -/
def onCreateSuccess (videoEnable : Bool) (type : SdpType) (description : String) : PeerCallback :=
  let sdpDescription :=
    if videoEnable then preferCodec description PeerService.VIDEO_CODEC_H264 false else description
  Task.modify (·.request (.setLocalDescription type sdpDescription))

/-- Send the local description; `pc.getLocalDescription()` may be null. -/
def sendLocalDescription (peer : Peer) (relay : Option String → Relay) : PeerCallback := do
  let description ← Task.ofExcept (deref (← Task.get).localDescription)
  Task.emit (peer.socketId, relay (some description))

/-- What is sent depends on the signalling state and on the role all peers share. -/
def onSetSuccess (peer : Peer) (role : Option Role) : PeerCallback := do
  match (← Task.get).state with
  | .HAVE_REMOTE_OFFER => Task.modify (·.request .createAnswer)
  | .HAVE_LOCAL_OFFER =>
    if role = some .Receiver then peer.sendLocalDescription .answer
    else if role = some .Caller then peer.sendLocalDescription .offer
    else pure ()
  | .STABLE => if role = some .Receiver then peer.sendLocalDescription .answer else pure ()

/-- The callback for a report. -/
def callback (peer : Peer) (service : PeerService) : Report → PeerCallback
  | .created type description => onCreateSuccess service.videoEnable type description
  | .set _ => peer.onSetSuccess service.role

end Peer

/-- A service with the connections of its peers. -/
structure Call where
  service : PeerService
  link : Peer → Link

/-- What can happen next: a task of the executor, an operation of a connection, or the
callback it owes to its peer. -/
inductive Move where
  | onJoinToRoom (connections : Option (List (Option String))) (myId : Option String)
  | onRemoteJoinToRoom (socketId : Option String)
  | onRemoteIceCandidate (socketId : Option String) (iceCandidate : IceCandidate)
  | onReceiveOffer (socketId description : Option String)
  | onReceiverAnswer (socketId sdp : Option String)
  | perform (peer : Peer) (ok : Bool) (sdp : String)
  | callback (peer : Peer)

namespace Call

/-- A service whose connections are all new. -/
def start (service : PeerService) : Call := ⟨service, fun _ => .init⟩

/-- The connections after one effect of a task. -/
def request (link : Peer → Link) (e : Effect) : Peer → Link :=
  match e.operation with
  | some (peer, operation) => Function.update link peer ((link peer).request operation)
  | none => link

/-- The executor runs a task. -/
def execute (call : Call) (task : PeerTask Unit) : Call :=
  ⟨(task.run call.service).state, (task.run call.service).out.foldl request call.link⟩

/-- The callback that `peer` is owed, run on its connection. -/
def notified (call : Call) (peer : Peer) : Outcome Link (Option String × Relay) Raise Unit :=
  (Task.whenSome (·.report) fun report => do
    Task.modify Link.told
    peer.callback call.service report).run (call.link peer)

variable (native : Native) (video : Bool) (mediaType : Int32)

/-- The call after a move. -/
def step (call : Call) : Move → Call
  | .onJoinToRoom connections myId =>
    call.execute (PeerService.onJoinToRoom connections myId video mediaType)
  | .onRemoteJoinToRoom socketId => call.execute (PeerService.onRemoteJoinToRoom socketId)
  | .onRemoteIceCandidate socketId iceCandidate =>
    call.execute (PeerService.onRemoteIceCandidate native socketId iceCandidate)
  | .onReceiveOffer socketId description =>
    call.execute (PeerService.onReceiveOffer native socketId description)
  | .onReceiverAnswer socketId sdp =>
    call.execute (PeerService.onReceiverAnswer native socketId sdp)
  | .perform peer ok sdp =>
    { call with link := Function.update call.link peer ((call.link peer).perform ok sdp) }
  | .callback peer =>
    { call with link := Function.update call.link peer (call.notified peer).state }

/-- The `onSetSuccess` of a step sends what belongs to the description that was set: an
offer or an answer for a local one, nothing for a remote one. -/
def Right (call : Call) : Move → Prop
  | .callback peer =>
    match (call.link peer).report with
    | some (.set .localOffer) => ∃ description,
      (call.link peer).localDescription = some description ∧
        (call.notified peer).out = [(peer.socketId, .offer (some description))]
    | some (.set .localAnswer) => ∃ description,
      (call.link peer).localDescription = some description ∧
        (call.notified peer).out = [(peer.socketId, .answer (some description))]
    | some (.set .remoteOffer) | some (.set .remoteAnswer) => (call.notified peer).out = []
    | _ => True
  | _ => True

/-- When the `onSetSuccess` of a step runs, `role` is still the one in which its own peer
negotiates. -/
def InRole (call : Call) : Move → Prop
  | .callback peer =>
    match (call.link peer).report with
    | some (.set .localOffer) => call.service.role = some .Caller
    | some (.set .localAnswer) => call.service.role = some .Receiver
    | some (.set .remoteAnswer) => call.service.role ≠ some .Receiver
    | _ => True
  | _ => True

end Call

namespace Link

/-- What a connection keeps: the signalling state a description led to stays until its
observer has been told, and there is a local description from the first own one on. -/
structure Wf (link : Link) : Prop where
  settled : ∀ transition, link.report = some (.set transition) → link.state = transition.after
  offered : link.state = .HAVE_LOCAL_OFFER → link.localDescription.isSome
  described : ∀ transition, link.report = some (.set transition) → transition ≠ .remoteOffer →
    link.localDescription.isSome

namespace Wf

variable {link : Link}

theorem init : Link.init.Wf := ⟨nofun, nofun, nofun⟩

theorem request (h : link.Wf) (operation : Operation) : (link.request operation).Wf :=
  ⟨h.settled, h.offered, h.described⟩

/-- A report that no description has been set says nothing. -/
theorem created (h : link.Wf) (type : SdpType) (description : String) :
    { link with report := some (.created type description) }.Wf :=
  ⟨nofun, h.offered, nofun⟩

theorem told (h : link.Wf) : link.told.Wf := ⟨nofun, h.offered, nofun⟩

/-- A description that is set is reported in the state it led to. -/
theorem set (h : link.Wf) {transition : Transition} {description : Option String}
    (hdesc : transition ≠ .remoteOffer → transition.admits link.state = true →
      description.isSome) : (link.set transition description).Wf := by
  rw [Link.set]
  split
  · rename_i hadmits
    refine ⟨?_, fun hs => hdesc ?_ hadmits, ?_⟩
    · intro t ht
      obtain rfl : transition = t := by simpa using ht
      rfl
    · rintro rfl
      cases hs
    · intro t ht hne
      obtain rfl : transition = t := by simpa using ht
      exact hdesc hne hadmits
  · exact h

/-- An operation leaves the connection well formed, whether or not it succeeds. -/
theorem apply (h : link.Wf) (ok : Bool) (sdp : String) (operation : Operation) :
    (link.apply ok sdp operation).Wf := by
  cases operation with
  | createOffer =>
    rw [Link.apply]
    split
    · exact h.created .OFFER sdp
    · exact h
  | createAnswer =>
    rw [Link.apply]
    split
    · exact h.created .ANSWER sdp
    · exact h
  | setLocalDescription type description =>
    rw [Link.apply]
    split
    · exact h.set fun _ _ => rfl
    · exact h
  | setRemoteDescription type description =>
    rw [Link.apply]
    split
    · refine h.set fun hne hadmits => h.offered ?_
      cases type with
      | OFFER => exact absurd rfl hne
      | ANSWER => exact of_decide_eq_true hadmits
    · exact h

theorem perform (h : link.Wf) (ok : Bool) (sdp : String) : (link.perform ok sdp).Wf := by
  rw [Link.perform]
  split
  · rename_i operation chain _ _
    have hrest : { link with chain := chain }.Wf := ⟨h.settled, h.offered, h.described⟩
    exact hrest.apply ok sdp operation
  · exact h

end Wf

end Link

namespace Peer

variable (peer : Peer) (link : Link)

/-- A local description that is there is sent, and otherwise the callback raises. -/
theorem run_sendLocalDescription (relay : Option String → Relay) :
    (peer.sendLocalDescription relay).run link =
      match link.localDescription with
      | some description => ⟨.ok (), link, [(peer.socketId, relay (some description))]⟩
      | none => ⟨.error .nullPointer, link, []⟩ := by
  cases hd : link.localDescription <;> simp [sendLocalDescription, hd, deref]

/-- Told that a description has been set, a peer answers a remote offer and leaves its
connection alone otherwise. -/
theorem state_onSetSuccess (role : Option Role) :
    ((peer.onSetSuccess role).run link).state =
      if link.state = .HAVE_REMOTE_OFFER then link.request .createAnswer else link := by
  have hsend (relay : Option String → Relay) :
      ((peer.sendLocalDescription relay).run link).state = link := by
    rw [run_sendLocalDescription]
    split <;> rfl
  rw [onSetSuccess, Task.run_bind, Task.run_get, Outcome.andThen_ok]
  cases hs : link.state with
  | HAVE_REMOTE_OFFER => rfl
  | HAVE_LOCAL_OFFER =>
    by_cases hr : role = some .Receiver
    · simp [hr, hsend]
    · by_cases hc : role = some .Caller <;> simp [hr, hc, hsend]
  | STABLE => by_cases hr : role = some .Receiver <;> simp [hr, hsend]

/-- What a peer sends when it is told that a description has been set. -/
theorem out_onSetSuccess (role : Option Role) {description : String}
    (hd : link.localDescription = some description) :
    ((peer.onSetSuccess role).run link).out =
      match link.state, role with
      | .HAVE_LOCAL_OFFER, some .Caller => [(peer.socketId, .offer (some description))]
      | .HAVE_LOCAL_OFFER, some .Receiver => [(peer.socketId, .answer (some description))]
      | .STABLE, some .Receiver => [(peer.socketId, .answer (some description))]
      | _, _ => [] := by
  have hsend (relay : Option String → Relay) : (peer.sendLocalDescription relay).run link =
      ⟨.ok (), link, [(peer.socketId, relay (some description))]⟩ := by
    rw [run_sendLocalDescription, hd]
  rw [onSetSuccess, Task.run_bind, Task.run_get, Outcome.andThen_ok]
  cases hs : link.state with
  | HAVE_REMOTE_OFFER => rfl
  | HAVE_LOCAL_OFFER => rcases role with _ | _ | _ <;> simp [hsend]
  | STABLE => rcases role with _ | _ | _ <;> simp [hsend]

end Peer

namespace Call

variable {call : Call} {peer : Peer}

/-- Without a report no callback runs. -/
theorem notified_of_none (h : (call.link peer).report = none) :
    call.notified peer = ⟨.ok (), call.link peer, []⟩ := by
  rw [notified, Task.run_whenSome, h]
  rfl

/-- With a report the callback runs on a connection that has been told. -/
theorem notified_of_some {report : Report} (h : (call.link peer).report = some report) :
    call.notified peer =
      (peer.callback call.service report).run (call.link peer).told := by
  rw [notified, Task.run_whenSome, h]
  rfl

/-- All connections are well-formed. -/
def Wf (call : Call) : Prop := ∀ peer, (call.link peer).Wf

theorem wf_start (service : PeerService) : (start service).Wf := fun _ => .init

/-- A task keeps what the operations it asks for keep, connection by connection. -/
theorem forall_link_execute {P : Link → Prop} {task : PeerTask Unit}
    (hops : ∀ e ∈ (task.run call.service).out, ∀ peer operation,
      e.operation = some (peer, operation) → ∀ link, P link → P (link.request operation))
    (h : ∀ peer, P (call.link peer)) : ∀ peer, P ((call.execute task).link peer) := by
  have hall (es : List Effect) (link : Peer → Link) (hlink : ∀ peer, P (link peer))
      (hes : ∀ e ∈ es, ∀ peer operation, e.operation = some (peer, operation) →
        ∀ link, P link → P (link.request operation)) :
      ∀ peer, P (es.foldl request link peer) := by
    induction es generalizing link with
    | nil => exact hlink
    | cons e es ih =>
      refine ih _ ?_ fun e' he' => hes e' (List.mem_cons_of_mem _ he')
      cases ho : e.operation with
      | none => simpa only [request, ho] using hlink
      | some asked =>
        obtain ⟨peer, operation⟩ := asked
        simp only [request, ho]
        exact (Function.forall_update_iff link fun _ => P).mpr
          ⟨hes e (List.mem_cons_self ..) peer operation ho _ (hlink peer), fun p _ => hlink p⟩
  exact hall _ _ h hops

/-- A task of the executor only asks for operations. -/
theorem Wf.execute (h : call.Wf) (task : PeerTask Unit) : (call.execute task).Wf :=
  forall_link_execute (fun _ _ _ operation _ _ hlink => hlink.request operation) h

/-- The callback of a peer leaves its connection well formed. -/
theorem Wf.notified (h : call.Wf) (peer : Peer) : (call.notified peer).state.Wf := by
  cases hr : (call.link peer).report with
  | none =>
    rw [notified_of_none hr]
    exact h peer
  | some report =>
    rw [notified_of_some hr]
    cases report with
    | created type description => exact (h peer).told.request _
    | set transition =>
      rw [Peer.callback, Peer.state_onSetSuccess]
      split
      · exact (h peer).told.request _
      · exact (h peer).told

variable (native : Native) (video : Bool) (mediaType : Int32)

/-- Every move leaves all connections well formed. -/
theorem Wf.step (h : call.Wf) (move : Move) : (call.step native video mediaType move).Wf := by
  have hupdate {peer : Peer} {link : Link} (hlink : link.Wf) :
      ∀ p, (Function.update call.link peer link p).Wf :=
    (Function.forall_update_iff call.link fun _ => Link.Wf).mpr ⟨hlink, fun p _ => h p⟩
  cases move with
  | perform peer ok sdp => exact hupdate ((h peer).perform ok sdp)
  | callback peer => exact hupdate (h.notified peer)
  | _ => exact h.execute _

/-- Whether one callback is right depends on `role` alone. -/
theorem Wf.right_iff (h : call.Wf) (move : Move) : call.Right move ↔ call.InRole move := by
  cases move with
  | callback peer =>
    simp only [Right, InRole]
    cases hr : (call.link peer).report with
    | none => exact Iff.rfl
    | some report =>
      cases report with
      | created type description => exact Iff.rfl
      | set transition =>
        have hstate := (h peer).settled transition hr
        have hdesc := (h peer).described transition hr
        have hout : (call.notified peer).out =
            ((peer.onSetSuccess call.service.role).run (call.link peer).told).out := by
          rw [notified_of_some hr]
          rfl
        by_cases hremote : transition = .remoteOffer
        · subst hremote
          refine iff_of_true ?_ trivial
          rw [hout, Peer.onSetSuccess, Task.run_bind, Task.run_get, Outcome.andThen_ok, Link.told,
            hstate]
          rfl
        · obtain ⟨description, hd⟩ := Option.isSome_iff_exists.mp (hdesc hremote)
          rw [Peer.out_onSetSuccess peer (call.link peer).told _ hd, Link.told, hstate] at hout
          rw [hout, hd]
          cases transition with
          | remoteOffer => exact absurd rfl hremote
          | localOffer => rcases call.service.role with _ | _ | _ <;> simp [Transition.after]
          | localAnswer => rcases call.service.role with _ | _ | _ <;> simp [Transition.after]
          | remoteAnswer => rcases call.service.role with _ | _ | _ <;> simp [Transition.after]
  | _ => exact Iff.rfl

/-- Over a whole run, every callback is right exactly if every one is in role. -/
theorem along_right_iff (service : PeerService) (moves : List Move) :
    Along (step native video mediaType) Right (start service) moves ↔
      Along (step native video mediaType) InRole (start service) moves :=
  along_congr (fun _ move h _ => h.step native video mediaType move)
    (fun _ move h _ => h.right_iff move) (wf_start service)
    (along_of_forall (P := fun _ _ => True) fun _ _ _ => trivial)

end Call

end WebrtcCaller
