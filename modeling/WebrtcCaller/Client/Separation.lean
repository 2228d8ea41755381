import WebrtcCaller.Client.Negotiation

/-!
# When negotiations do not overlap

`role` is right for every peer as long as the service is on one side only: it
makes no offers while an answer is under way, and receives no offer while one of
its own is unanswered. A connection is idle in a role when nothing of a
negotiation in that role is outstanding.
-/

namespace WebrtcCaller

/-- The role in which a description is set. -/
def Transition.role : Transition → Role
  | .localOffer | .remoteAnswer => .Caller
  | .localAnswer | .remoteOffer => .Receiver

/-- The role an operation belongs to; an answer may be received without being awaited. -/
def Operation.role : Operation → Option Role
  | .createOffer | .setLocalDescription .OFFER _ => some .Caller
  | .createAnswer | .setLocalDescription .ANSWER _ | .setRemoteDescription .OFFER _ =>
    some .Receiver
  | .setRemoteDescription .ANSWER _ => none

/-- The role a report belongs to. -/
def Report.role : Report → Role
  | .created .OFFER _ => .Caller
  | .created .ANSWER _ => .Receiver
  | .set transition => transition.role

/-- The role a signalling state belongs to; none is under way in the stable one. -/
def SignalingState.role : SignalingState → Option Role
  | .STABLE => none
  | .HAVE_LOCAL_OFFER => some .Caller
  | .HAVE_REMOTE_OFFER => some .Receiver

namespace Link

/-- The connection does not negotiate in this role: no operation and no callback of such a
negotiation is outstanding, and no answer is awaited in it. -/
structure Idle (role : Role) (link : Link) : Prop where
  chain : ∀ operation ∈ link.chain, operation.role ≠ some role
  report : ∀ report, link.report = some report → report.role ≠ role
  state : link.state.role ≠ some role

namespace Idle

variable {role : Role} {link : Link}

theorem init (role : Role) : Link.init.Idle role := ⟨nofun, nofun, nofun⟩

theorem request (h : link.Idle role) {operation : Operation} (ho : operation.role ≠ some role) :
    (link.request operation).Idle role := by
  refine ⟨fun operation' hmem => ?_, h.report, h.state⟩
  rcases List.mem_append.mp hmem with hmem | hmem
  · exact h.chain operation' hmem
  · exact List.mem_singleton.mp hmem ▸ ho

theorem told (h : link.Idle role) : link.told.Idle role := ⟨h.chain, nofun, h.state⟩

/-- A description created in the other role may be reported. -/
theorem created (h : link.Idle role) {type : SdpType} {sdp : String}
    (hr : (Report.created type sdp).role ≠ role) :
    { link with report := some (.created type sdp) }.Idle role :=
  ⟨h.chain, fun _ he => Option.some.inj he ▸ hr, h.state⟩

/-- A transition of the other role does not touch this one. -/
theorem set (h : link.Idle role) {transition : Transition} {description : Option String}
    (ht : transition.admits link.state = true → transition.role ≠ role) :
    (link.set transition description).Idle role := by
  rw [Link.set]
  split
  · rename_i hadmits
    refine ⟨h.chain, fun _ he => Option.some.inj he ▸ ht hadmits, fun hs => ht hadmits ?_⟩
    cases transition with
    | localOffer => exact Option.some.inj hs
    | remoteOffer => exact Option.some.inj hs
    | localAnswer => cases hs
    | remoteAnswer => cases hs
  · exact h

/-- An operation of the other role does not touch this one. -/
theorem apply (h : link.Idle role) (ok : Bool) (sdp : String) {operation : Operation}
    (ho : operation.role ≠ some role) : (link.apply ok sdp operation).Idle role := by
  cases operation with
  | createOffer =>
    rw [Link.apply]
    split
    · exact h.created fun hr => ho (congrArg some hr)
    · exact h
  | createAnswer =>
    rw [Link.apply]
    split
    · exact h.created fun hr => ho (congrArg some hr)
    · exact h
  | setLocalDescription type description =>
    rw [Link.apply]
    split
    · cases type <;> exact h.set fun _ hr => ho (congrArg some hr)
    · exact h
  | setRemoteDescription type description =>
    rw [Link.apply]
    split
    · cases type with
      | OFFER => exact h.set fun _ hr => ho (congrArg some hr)
      | ANSWER =>
        -- an answer is admitted only where an offer awaits it
        refine h.set fun hadmits hr => h.state ?_
        rw [show link.state = .HAVE_LOCAL_OFFER from of_decide_eq_true hadmits, ← hr]
        rfl
    · exact h

/-- Performing one of the operations does not touch a role they do not belong to. -/
theorem perform (h : link.Idle role) (ok : Bool) (sdp : String) :
    (link.perform ok sdp).Idle role := by
  rw [Link.perform]
  split
  · rename_i operation chain _ hchain
    have hrest : { link with chain := chain }.Idle role := by
      refine ⟨fun operation' hmem => h.chain operation' ?_, h.report, h.state⟩
      rw [hchain]
      exact List.mem_cons_of_mem _ hmem
    exact hrest.apply ok sdp (h.chain operation (by rw [hchain]; exact List.mem_cons_self ..))
  · exact h

end Idle

end Link

namespace PeerService

variable {r : Option Role}

/-- The task keeps `role` and asks nothing of a connection. -/
abbrev Aloof {α : Type} (r : Option Role) (task : PeerTask α) : Prop :=
  Task.Keeps (fun s : PeerService => s.role = r) (fun e => e.operation = none) task

/-- Making a native object asks for nothing. -/
theorem create_aloof (resource : Resource) : Aloof r (create resource) :=
  .bind .get fun _ => .bind (.emit rfl) fun _ => .bind (.modify fun _ hs => hs) fun _ => .pure

theorem ensureFactory_aloof : Aloof r ensureFactory :=
  .whenever <| .bind (.bind .get fun _ => .bind .ofExcept fun _ => create_aloof _) fun _ =>
    .modify fun _ hs => hs

theorem createVideo_aloof : Aloof r createVideo :=
  .bind (create_aloof _) fun _ => .bind (.modify fun _ hs => hs) fun _ =>
    .bind (create_aloof _) fun _ => .bind (.modify fun _ hs => hs) fun _ =>
    .bind (create_aloof _) fun _ => .modify fun _ hs => hs

theorem ensureLocalStream_aloof : Aloof r ensureLocalStream :=
  .whenever <| .bind .get fun _ => .bind .ofExcept fun _ =>
    .bind (create_aloof _) fun _ => .bind (.modify fun _ hs => hs) fun _ =>
    .bind (create_aloof _) fun _ => .bind (.modify fun _ hs => hs) fun _ =>
    .bind (.whenever createVideo_aloof) fun _ => .bind .get fun _ => .whenever (.emit rfl)

theorem newPeer_aloof (socketId : Option String) : Aloof r (newPeer socketId) :=
  .bind ensureFactory_aloof fun _ => .bind (create_aloof _) fun _ => .pure

/-- Entering a room asks for nothing before its offers. -/
theorem enterRoom_aloof (connections : Option (List (Option String))) (myId : Option String) :
    Aloof r (enterRoom connections myId) := by
  refine .bind .ofExcept fun _ => .bind (.modify fun _ hs => hs) fun _ =>
    .bind (.modify fun _ hs => hs) fun _ => .bind ensureFactory_aloof fun _ =>
    .bind ensureLocalStream_aloof fun _ => .bind ?_ fun _ => ?_
  · exact .bind .get fun _ => .forM fun id =>
      .bind (newPeer_aloof id) fun _ => .modify fun _ hs => hs
  · exact .bind .get fun _ => .forM fun entry => .bind ensureLocalStream_aloof fun _ =>
      .swallow <| .bind .get fun _ => .bind .ofExcept fun _ => .emit rfl

/-- A newcomer is not asked anything. -/
theorem onRemoteJoinToRoom_aloof (socketId : Option String) :
    Aloof r (onRemoteJoinToRoom socketId) :=
  .bind ensureLocalStream_aloof fun _ => .swallow <| .bind (newPeer_aloof socketId) fun _ =>
    .bind .get fun _ => .bind .ofExcept fun _ => .bind (.emit rfl) fun _ =>
    .bind (.modify fun _ hs => hs) fun _ => .modify fun _ hs => hs

/-- A candidate is no operation of a role. -/
theorem onRemoteIceCandidate_aloof (native : Native) (socketId : Option String)
    (iceCandidate : IceCandidate) :
    Aloof r (onRemoteIceCandidate native socketId iceCandidate) := by
  refine .whenSome fun peer => ?_
  split
  · exact .emit rfl
  · exact .raise

/-- Entering a room keeps `role` and asks for nothing, or makes it `Caller` and asks for
offers. -/
theorem onJoinToRoom_role (connections : Option (List (Option String))) (myId : Option String)
    (video : Bool) (mediaType : Int32) (s : PeerService) :
    (((onJoinToRoom connections myId video mediaType).run s).state.role = s.role ∧
      ∀ e ∈ ((onJoinToRoom connections myId video mediaType).run s).out, e.operation = none) ∨
    (((onJoinToRoom connections myId video mediaType).run s).state.role = some .Caller ∧
      ∀ e ∈ ((onJoinToRoom connections myId video mediaType).run s).out, ∀ peer operation,
        e.operation = some (peer, operation) → operation = .createOffer) := by
  have hm := enterRoom_aloof (r := s.role) connections myId
    { s with videoEnable := video, mediaType := mediaType } rfl
  simp only [onJoinToRoom, Task.run_bind, Task.run_modify, Outcome.andThen_ok, List.nil_append]
  generalize Task.run (enterRoom connections myId) _ = o at hm
  obtain ⟨value, s', plain⟩ := o
  cases value with
  | error e => exact Or.inl ⟨hm.raised e rfl, hm.emitted⟩
  | ok _ =>
    rw [Outcome.andThen_ok, run_createOffers]
    by_cases hempty : s'.connectionPeerDic.entries = []
    · refine Or.inl ⟨?_, ?_⟩
      · rw [if_pos hempty]
        exact hm.returned _ rfl
      · rw [hempty, List.map_nil, List.append_nil]
        exact hm.emitted
    · refine Or.inr ⟨if_neg hempty, fun e he peer operation ho => ?_⟩
      rcases List.mem_append.mp he with he | he
      · cases (hm.emitted e he).symm.trans ho
      · obtain ⟨entry, _, rfl⟩ := List.mem_map.mp he
        exact (congrArg Prod.snd (Option.some.inj ho)).symm

/-- Handing over a description keeps the service, and emits nothing else. -/
theorem setRemoteDescription_keeps {I : PeerService → Prop} {W : Effect → Prop} (native : Native)
    (mPeer : Option Peer) {type : SdpType} {description : Option String}
    (hW : ∀ peer, W (.setRemoteDescription peer type description)) :
    Task.Keeps I W (setRemoteDescription native mPeer type description) := by
  refine .whenSome fun peer => ?_
  split
  · exact .emit (hW peer)
  · exact .raise

/-- An offer makes `role` `Receiver`, whether or not its sender has a peer. -/
theorem onReceiveOffer_role (native : Native) (socketId description : Option String) :
    Task.Triple (fun _ => True) (onReceiveOffer native socketId description)
      (fun _ s => s.role = some .Receiver) (fun s => s.role = some .Receiver)
      (fun e => ∀ peer operation, e.operation = some (peer, operation) →
        operation.role = some .Receiver) := by
  refine .bind (Q := fun _ s => s.role = some .Receiver) (.modify fun _ _ => rfl) fun _ => ?_
  refine Task.Keeps.bind .get fun _ => .bind .ofExcept fun sdp => ?_
  refine setRemoteDescription_keeps native _ fun peer p operation ho => ?_
  obtain rfl := congrArg Prod.snd (Option.some.inj ho)
  rfl

/-- An answer leaves `role` alone. -/
theorem onReceiverAnswer_role (native : Native) (socketId sdp : Option String) :
    Task.Keeps (fun s : PeerService => s.role = r) (fun e => ∀ peer operation,
      e.operation = some (peer, operation) → operation.role = none)
      (onReceiverAnswer native socketId sdp) := by
  refine .bind .get fun _ => setRemoteDescription_keeps native _ fun peer p operation ho => ?_
  obtain rfl := congrArg Prod.snd (Option.some.inj ho)
  rfl

end PeerService

namespace Call

/-- The two kinds of negotiation do not overlap: no offer is made while an answer is under
way, and none is received while an own one is. -/
def Separate (call : Call) : Move → Prop
  | .onJoinToRoom _ _ => ∀ peer, (call.link peer).Idle .Receiver
  | .onReceiveOffer _ _ => ∀ peer, (call.link peer).Idle .Caller
  | _ => True

/-- Whoever negotiates does so in the role of the service. -/
def Agreed (call : Call) : Prop :=
  ∀ role, call.service.role ≠ some role → ∀ peer, (call.link peer).Idle role

variable {call : Call}

theorem agreed_start (service : PeerService) : (start service).Agreed :=
  fun role _ _ => .init role

/-- A task that keeps `role` and asks for nothing of a role. -/
theorem Agreed.execute (h : call.Agreed) {task : PeerTask Unit} {W : Effect → Prop}
    (ht : Task.Keeps (fun s : PeerService => s.role = call.service.role) W task)
    (hW : ∀ e, W e → ∀ peer operation, e.operation = some (peer, operation) →
      operation.role = none) : (call.execute task).Agreed := by
  intro role hrole
  have hkept : (call.execute task).service.role = call.service.role := ht.state rfl
  rw [hkept] at hrole
  refine forall_link_execute (fun e he peer operation ho link hlink => hlink.request ?_)
    (h role hrole)
  rw [hW e ((ht _ rfl).emitted e he) peer operation ho]
  nofun

/-- A callback in one role starts nothing in the other. -/
theorem Agreed.notified (h : call.Agreed) {role : Role} (hrole : call.service.role ≠ some role)
    (peer : Peer) : (call.notified peer).state.Idle role := by
  have hidle := h role hrole peer
  cases hr : (call.link peer).report with
  | none =>
    rw [notified_of_none hr]
    exact hidle
  | some report =>
    rw [notified_of_some hr]
    have hne := hidle.report report hr
    cases report with
    | created type description =>
      refine hidle.told.request fun ho => hne ?_
      cases type <;> exact Option.some.inj ho
    | set transition =>
      rw [Peer.callback, Peer.state_onSetSuccess]
      split
      · rename_i hstate
        refine hidle.told.request fun ho => hidle.told.state ?_
        rw [hstate]
        exact ho
      · exact hidle.told

variable (native : Native) (video : Bool) (mediaType : Int32)

/-- A separate move keeps all connections in the role of the service. -/
theorem Agreed.step (h : call.Agreed) (move : Move) (hok : call.Separate move) :
    (call.step native video mediaType move).Agreed := by
  have hupdate {role : Role} {peer : Peer} {link : Link} (hlink : link.Idle role)
      (hrole : call.service.role ≠ some role) :
      ∀ p, (Function.update call.link peer link p).Idle role :=
    (Function.forall_update_iff call.link fun _ => Link.Idle role).mpr
      ⟨hlink, fun p _ => h role hrole p⟩
  have hnone {e : Effect} (he : e.operation = none) (peer : Peer) (operation : Operation)
      (ho : e.operation = some (peer, operation)) : operation.role = none := by
    cases he.symm.trans ho
  cases move with
  | onJoinToRoom connections myId =>
    intro role hrole
    rcases PeerService.onJoinToRoom_role connections myId video mediaType call.service with
      ⟨hkept, hops⟩ | ⟨hcaller, hops⟩
    · have hold : call.service.role ≠ some role := fun he => hrole (hkept.trans he)
      refine forall_link_execute (fun e he peer operation ho => ?_) (h role hold)
      cases (hops e he).symm.trans ho
    · have hreceiver : role = .Receiver := by
        cases role with
        | Caller => exact absurd hcaller hrole
        | Receiver => rfl
      subst hreceiver
      refine forall_link_execute (fun e he peer operation ho link hlink => hlink.request ?_) hok
      rw [hops e he peer operation ho]
      nofun
  | onRemoteJoinToRoom socketId =>
    exact h.execute (PeerService.onRemoteJoinToRoom_aloof socketId) fun _ he => hnone he
  | onRemoteIceCandidate socketId iceCandidate =>
    exact h.execute (PeerService.onRemoteIceCandidate_aloof native socketId iceCandidate)
      fun _ he => hnone he
  | onReceiveOffer socketId description =>
    intro role hrole
    have hspec := PeerService.onReceiveOffer_role native socketId description
    have hcaller : role = .Caller := by
      cases role with
      | Caller => rfl
      | Receiver => exact absurd (hspec.state trivial) hrole
    subst hcaller
    refine forall_link_execute (fun e he peer operation ho link hlink => hlink.request ?_) hok
    rw [(hspec _ trivial).emitted e he peer operation ho]
    nofun
  | onReceiverAnswer socketId sdp =>
    exact h.execute (PeerService.onReceiverAnswer_role native socketId sdp) fun _ he => he
  | perform peer ok sdp =>
    intro role hrole
    exact hupdate ((h role hrole peer).perform ok sdp) hrole
  | callback peer =>
    intro role hrole
    exact hupdate (h.notified hrole peer) hrole

/-- Where whoever negotiates does so in the role of the service, every callback is in role. -/
theorem Agreed.inRole (h : call.Agreed) (move : Move) : call.InRole move := by
  have hreport {peer : Peer} {transition : Transition}
      (hr : (call.link peer).report = some (.set transition)) :
      call.service.role = some transition.role := by
    by_contra hne
    exact (h transition.role hne peer).report _ hr rfl
  cases move with
  | callback peer =>
    simp only [InRole]
    split
    · rename_i hr
      exact hreport hr
    · rename_i hr
      exact hreport hr
    · rename_i hr
      rw [hreport hr]
      intro hrole
      cases hrole
    · trivial
  | _ => trivial

/-- While the two kinds of negotiation do not overlap, every `onSetSuccess` is in role. -/
theorem inRole_of_separate (service : PeerService) (moves : List Move)
    (h : Along (step native video mediaType) Separate (start service) moves) :
    Along (step native video mediaType) InRole (start service) moves := by
  have hagreed : Throughout (step native video mediaType) Agreed (start service) moves :=
    h.throughout (fun _ move hc hok => hc.step native video mediaType move hok)
      (agreed_start service)
  exact hagreed.along (fun _ move hc _ => hc.inRole move) h

/-- In every run of a group call, every `onSetSuccess` sends what belongs to the description
its peer has set exactly if `role` is then still the one in which that peer negotiates. That
is so in every run in which the two kinds of negotiation do not overlap. -/
theorem descriptions_right_iff (service : PeerService) (moves : List Move) :
    (Along (step native video mediaType) Right (start service) moves ↔
        Along (step native video mediaType) InRole (start service) moves) ∧
      (Along (step native video mediaType) Separate (start service) moves →
        Along (step native video mediaType) Right (start service) moves) := by
  have hiff := along_right_iff native video mediaType service moves
  exact ⟨hiff, fun h => hiff.mpr (inRole_of_separate native video mediaType service moves h)⟩

/-- The peer of `b`; three native objects were created before its connection. -/
def peerB : Peer := ⟨3, some "b"⟩

/-- A member offers to `b`, and before its own description is set the offer of the newcomer
`c` arrives. -/
def newcomerRun : List Move :=
  [.onJoinToRoom (some [some "b"]) (some "a"), .perform peerB true "v=0", .callback peerB,
    .onRemoteJoinToRoom (some "c"), .onReceiveOffer (some "c") (some "v=0"),
    .perform peerB true "", .callback peerB]

/-- The offer to `b` goes out as an answer. -/
theorem newcomer_wrong :
    ((newcomerRun.dropLast.foldl (step .lenient false 0)
        (start PeerService.init.initContext)).notified peerB).out =
      [(some "b", .answer (some "v=0"))] ∧
    ¬Along (step .lenient false 0) Right (start PeerService.init.initContext) newcomerRun := by
  refine ⟨rfl, fun h => ?_⟩
  obtain ⟨description, _, hout⟩ := h.2.2.2.2.2.2.1
  cases hout

end Call

end WebrtcCaller
