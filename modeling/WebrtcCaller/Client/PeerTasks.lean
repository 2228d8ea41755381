import WebrtcCaller.Client.PeerService
import WebrtcCaller.Core.Triple

/-!
# What one executor task does

The tasks are specified through what they do to the roster of a service: the
id list and the peer map, which speak about the room, and the fields that decide
whether creating a peer can raise. Later files use these specifications and
never unfold a task again.
-/

namespace WebrtcCaller

/-- A call of `createOffer`. -/
def Effect.isOffer : Effect → Bool
  | .createOffer _ => true
  | _ => false

/-- A call of `createOffer` for the peer with this id. -/
def Effect.offersTo (id : Option String) : Effect → Bool
  | .createOffer peer => peer.socketId = id
  | _ => false

/-- What is no offer is an offer to nobody. -/
theorem Effect.offersTo_of_not_isOffer {e : Effect} (h : e.isOffer = false) (id : Option String) :
    e.offersTo id = false := by
  cases e with
  | createOffer peer => cases h
  | _ => rfl

/-- Where nothing is offered, nothing is offered to anybody. -/
theorem Effect.countP_offersTo {es : List Effect} (h : ∀ e ∈ es, e.isOffer = false)
    (id : Option String) : es.countP (Effect.offersTo id) = 0 := by
  rw [List.countP_eq_zero]
  intro e he
  rw [Effect.offersTo_of_not_isOffer (h e he)]
  exact Bool.false_ne_true

/-- A call that hands something received from a peer to its connection. -/
def Effect.isRemote : Effect → Bool
  | .setRemoteDescription _ _ _ => true
  | .addIceCandidate _ _ => true
  | _ => false

/-- Neither of the two. -/
def Effect.Plain (e : Effect) : Prop := e.isOffer = false ∧ e.isRemote = false

/-- The part of a service that speaks about the room. -/
structure Roster where
  connectionIdArray : List (Option String)
  connectionPeerDic : AList fun _ : Option String => Peer
  myId : Option String
  context : Bool

namespace Roster

/-- The roster a newcomer builds its peers from. -/
def entering (v : Roster) (connections : List (Option String)) (myId : Option String) : Roster :=
  { v with connectionIdArray := v.connectionIdArray ++ connections, myId := myId }

/-- One more member, with its peer. -/
def joined (v : Roster) (socketId : Option String) (peer : Peer) : Roster :=
  { v with
    connectionIdArray := v.connectionIdArray ++ [socketId]
    connectionPeerDic := v.connectionPeerDic.insert socketId peer }

/-- One member fewer. -/
def left (v : Roster) (connectionId : Option String) : Roster :=
  { v with
    connectionIdArray := v.connectionIdArray.erase connectionId
    connectionPeerDic := v.connectionPeerDic.erase connectionId }

/-- Every member gone; a peer without a listed id stays. -/
def emptied (v : Roster) : Roster :=
  { v.connectionIdArray.foldl left v with connectionIdArray := [] }

end Roster

namespace PeerService

/-- The roster of a service. -/
def roster (service : PeerService) : Roster :=
  ⟨service.connectionIdArray, service.connectionPeerDic, service.myId, service.context⟩

/-- The service has this roster, and holds a factory and a stream where the flags say so. -/
structure At (v : Roster) (factory stream : Bool) (service : PeerService) : Prop where
  roster_eq : service.roster = v
  factory_isSome : factory = true → service.peerFactory.isSome
  stream_isSome : stream = true → service.localStream.isSome

variable {v : Roster} {f l : Bool}

/-- A step that keeps the roster, the factory and the stream. -/
theorem At.congr {s s' : PeerService} (h : At v f l s) (hr : s'.roster = s.roster)
    (hf : s'.peerFactory = s.peerFactory) (hl : s'.localStream = s.localStream) : At v f l s' :=
  ⟨hr.trans h.roster_eq, fun h' => hf ▸ h.factory_isSome h', fun h' => hl ▸ h.stream_isSome h'⟩

/-- Making a native object leaves the roster alone. -/
theorem create_spec {E : PeerService → Prop} (resource : Resource) :
    Task.Triple (At v f l) (create resource) (fun _ => At v f l) E Effect.Plain := by
  refine .get_bind fun s hs => ?_
  refine .bind (Q := fun _ => At v f l) (.emit ⟨rfl, rfl⟩ fun s' hs' => hs' ▸ hs) fun _ => ?_
  refine .bind (Q := fun _ => At v f l) (.modify fun s' hs' => ?_) fun _ => .pure fun _ hs' => hs'
  exact hs'.congr rfl rfl rfl

/-- The factory is there afterwards; only a missing context raises. -/
theorem ensureFactory_spec :
    Task.Triple (At v f l) ensureFactory (fun _ => At v true l)
      (fun s => s.roster = v ∧ v.context = false) Effect.Plain := by
  refine .whenever ?_ fun s hs hsome => ⟨hs.roster_eq, fun _ => ?_, hs.stream_isSome⟩
  · refine .bind (Q := fun _ => At v f l) ?_ fun factory => ?_
    · refine .get_bind fun s hs => ?_
      refine .bind (Q := fun _ => At v f l) (.ofExcept ?_ ?_) fun _ => create_spec _
      · intro _ s' hs' _
        exact hs' ▸ hs.1
      · intro e s' hs' he
        subst hs'
        have hv := congrArg Roster.context hs.1.roster_eq
        refine ⟨hs.1.roster_eq, ?_⟩
        cases hc : s'.context with
        | true => simp [hc] at he
        | false => rw [← hv]; exact hc
    · refine .modify fun s hs => ⟨hs.roster_eq, fun _ => rfl, hs.stream_isSome⟩
  · cases hp : s.peerFactory with
    | none => simp [hp] at hsome
    | some _ => rfl

theorem createVideo_spec {E : PeerService → Prop} :
    Task.Triple (At v f l) createVideo (fun _ => At v f l) E Effect.Plain := by
  refine .bind (create_spec _) fun _ => ?_
  refine .bind (Q := fun _ => At v f l) (.modify fun s hs => hs.congr rfl rfl rfl) fun _ => ?_
  refine .bind (create_spec _) fun _ => ?_
  refine .bind (Q := fun _ => At v f l) (.modify fun s hs => hs.congr rfl rfl rfl) fun _ => ?_
  refine .bind (create_spec _) fun _ => ?_
  exact .modify fun s hs => hs.congr rfl rfl rfl

/-- The stream is there afterwards; only a missing factory raises. -/
theorem createLocalStream_spec :
    Task.Triple (At v f l) createLocalStream (fun _ => At v true true)
      (fun s => s.roster = v ∧ f = false) Effect.Plain := by
  refine .get_bind fun s hs => ?_
  refine .bind (Q := fun _ => At v true l) (.ofExcept ?_ ?_) fun _ => ?_
  · intro n s' hs' hn
    subst hs'
    refine ⟨hs.roster_eq, fun _ => ?_, hs.stream_isSome⟩
    cases hp : s'.peerFactory with
    | none => simp [hp, deref] at hn
    | some _ => rfl
  · intro e s' hs' he
    subst hs'
    refine ⟨hs.roster_eq, ?_⟩
    cases hf : f with
    | false => rfl
    | true =>
      obtain ⟨n, hn⟩ := Option.isSome_iff_exists.mp (hs.factory_isSome hf)
      simp [hn, deref] at he
  refine .bind (create_spec _) fun stream => ?_
  refine .bind (Q := fun _ => At v true true) (.modify fun s hs => ?_) fun _ => ?_
  · exact ⟨hs.roster_eq, hs.factory_isSome, fun _ => rfl⟩
  refine .bind (create_spec _) fun _ => ?_
  refine .bind (Q := fun _ => At v true true) (.modify fun s hs => hs.congr rfl rfl rfl) fun _ => ?_
  refine .bind (Q := fun _ => At v true true)
    (.whenever (createVideo_spec.pre fun s hs => hs.1) fun s hs _ => hs) fun _ => ?_
  refine .get_bind fun s hs => ?_
  exact .whenever (.emit ⟨rfl, rfl⟩ fun s' hs' => hs'.1 ▸ hs) fun s' hs' _ => hs' ▸ hs

/-- Afterwards there is a local stream, unless there is no factory to make it. -/
theorem ensureLocalStream_spec :
    Task.Triple (At v f l) ensureLocalStream (fun _ => At v f true)
      (fun s => s.roster = v ∧ f = false) Effect.Plain := by
  refine .whenever ?_ fun s hs hsome => ⟨hs.roster_eq, hs.factory_isSome, fun _ => ?_⟩
  · refine (createLocalStream_spec.pre fun s hs => hs.1).post fun _ s hs => ?_
    exact ⟨hs.roster_eq, fun _ => hs.factory_isSome rfl, hs.stream_isSome⟩
  · cases hp : s.localStream with
    | none => simp [hp] at hsome
    | some _ => rfl

/-- A new peer is for the id that was asked for; only a missing context stops it. -/
theorem newPeer_spec (socketId : Option String) :
    Task.Triple (At v f l) (newPeer socketId)
      (fun peer s => At v true l s ∧ peer.socketId = socketId)
      (fun s => s.roster = v ∧ v.context = false) Effect.Plain := by
  refine .bind ensureFactory_spec fun _ => ?_
  refine .bind (create_spec _) fun pc => ?_
  exact .pure fun s hs => ⟨hs, rfl⟩

end PeerService

/-- `w` is `v` with peers put under `ids`. -/
structure Roster.Filled (v : Roster) (ids : List (Option String)) (w : Roster) : Prop where
  connectionIdArray_eq : w.connectionIdArray = v.connectionIdArray
  myId_eq : w.myId = v.myId
  context_eq : w.context = v.context
  mem_iff : ∀ id, id ∈ w.connectionPeerDic ↔ id ∈ v.connectionPeerDic ∨ id ∈ ids
  socketId_eq : (∀ id p, v.connectionPeerDic.lookup id = some p → p.socketId = id) →
    ∀ id p, w.connectionPeerDic.lookup id = some p → p.socketId = id

namespace Roster.Filled

variable {v w : Roster} {ids : List (Option String)}

/-- With nobody to connect to the roster is filled already. -/
theorem nil (v : Roster) : v.Filled [] v :=
  ⟨rfl, rfl, rfl, fun _ => by simp, fun h => h⟩

/-- One more peer. -/
theorem put (h : v.Filled ids w) {id : Option String} {peer : Peer} (hp : peer.socketId = id) :
    v.Filled (ids ++ [id])
      { w with connectionPeerDic := w.connectionPeerDic.insert id peer } where
  connectionIdArray_eq := h.connectionIdArray_eq
  myId_eq := h.myId_eq
  context_eq := h.context_eq
  mem_iff id' := by
    have := h.mem_iff id'
    simp only [AList.mem_insert, List.mem_append, List.mem_singleton, this]
    tauto
  socketId_eq hv id' p hl := by
    by_cases he : id' = id
    · subst he
      rw [AList.lookup_insert] at hl
      exact Option.some.inj hl ▸ hp
    · rw [AList.lookup_insert_ne he] at hl
      exact h.socketId_eq hv id' p hl

end Roster.Filled

namespace PeerService

variable {v : Roster} {f l : Bool}

/-- The loop of `createPeerConnections`, from any point of it on. -/
theorem peersLoop_spec (done ids : List (Option String)) :
    Task.Triple (fun s => ∃ w, At w f l s ∧ v.Filled done w)
      (ids.forM fun str => do
        let peer ← newPeer str
        putPeer str peer)
      (fun _ s => ∃ w, At w f l s ∧ v.Filled (done ++ ids) w)
      (fun s => v.context = false ∧ ∃ told ⊆ done ++ ids, v.Filled told s.roster)
      Effect.Plain := by
  induction ids generalizing done with
  | nil => exact .pure fun s hs => by simpa using hs
  | cons id ids ih =>
    have hput : Task.Triple (fun s => ∃ w, At w f l s ∧ v.Filled done w)
        (newPeer id >>= putPeer id)
        (fun _ s => ∃ w, At w f l s ∧ v.Filled (done ++ [id]) w)
        (fun s => v.context = false ∧ ∃ told ⊆ done ++ id :: ids, v.Filled told s.roster)
        Effect.Plain := by
      rintro s ⟨w, hat, hfill⟩
      refine Task.Triple.bind (P := At w f l)
        ((newPeer_spec id).conseq (fun _ hs => hs) (fun _ _ hq => hq) ?_ fun _ hw => hw)
        (fun peer => ?_) s hat
      · rintro s ⟨hr, hc⟩
        rw [hfill.context_eq] at hc
        exact ⟨hc, done, List.subset_append_left _ _, hr ▸ hfill⟩
      · refine .modify ?_
        rintro s ⟨hs, hp⟩
        refine ⟨_, ⟨congrArg (fun r : Roster => { r with
          connectionPeerDic := r.connectionPeerDic.insert id peer }) hs.roster_eq, ?_,
          hs.stream_isSome⟩, hfill.put hp⟩
        exact fun _ => hs.factory_isSome rfl
    have hrest := ih (done ++ [id])
    rw [List.append_assoc, List.singleton_append] at hrest
    exact hput.bind fun _ => hrest

/-- Every listed id gets its peer; a raise leaves the roster filled so far. -/
theorem createPeerConnections_spec :
    Task.Triple (At v f l) createPeerConnections
      (fun _ s => ∃ w, At w f l s ∧ v.Filled v.connectionIdArray w)
      (fun s => v.context = false ∧ ∃ told ⊆ v.connectionIdArray, v.Filled told s.roster)
      Effect.Plain := by
  refine .get_bind fun s hs => ?_
  have hids : s.connectionIdArray = v.connectionIdArray :=
    congrArg Roster.connectionIdArray hs.roster_eq
  rw [hids]
  exact (peersLoop_spec [] v.connectionIdArray).pre fun s' hs' => hs' ▸ ⟨v, hs, .nil v⟩

/-- Adding the streams leaves the roster alone. -/
theorem addStreams_spec :
    Task.Triple (At v f l) addStreams (fun _ => At v f l)
      (fun s => s.roster = v ∧ f = false) Effect.Plain := by
  refine .get_bind fun s hs => ?_
  refine (Task.Triple.forM (P := At v f l) fun entry _ => ?_).pre fun s' hs' => hs' ▸ hs
  refine .bind ensureLocalStream_spec fun _ => ?_
  refine (Task.Triple.swallow (P := At v f true) (R := At v f true) ?_).post fun _ s hs =>
    ⟨hs.roster_eq, hs.factory_isSome, fun _ => hs.stream_isSome rfl⟩
  refine .get_bind fun s hs => ?_
  refine .bind (Q := fun _ => At v f true) (.ofExcept ?_ ?_) fun stream => ?_
  · exact fun _ s' hs' _ => hs' ▸ hs
  · exact fun _ s' hs' _ => hs' ▸ hs
  · exact .emit ⟨rfl, rfl⟩ fun _ hs' => hs'

/-- One offer for every entry of the peer map, in its order, and nothing else; with an empty
map the role is left alone. -/
theorem run_createOffers (s : PeerService) : createOffers.run s =
    ⟨.ok (), { s with role := if s.connectionPeerDic.entries = [] then s.role else some .Caller },
      s.connectionPeerDic.entries.map fun entry => .createOffer entry.2⟩ := by
  have hloop (entries : List (Sigma fun _ : Option String => Peer)) (s : PeerService) :
      Task.run (entries.forM fun entry => do
          Task.modify fun service => { service with role := some .Caller }
          Task.emit (.createOffer entry.2) : PeerTask Unit) s =
        ⟨.ok (), { s with role := if entries = [] then s.role else some .Caller },
          entries.map fun entry => .createOffer entry.2⟩ := by
    induction entries generalizing s with
    | nil => rfl
    | cons entry entries ih =>
      change Task.run ((do
          Task.modify fun service => { service with role := some .Caller }
          Task.emit (.createOffer entry.2)) >>= fun _ => entries.forM _ : PeerTask Unit) s = _
      rw [Task.run_bind]
      simp only [Task.run_bind, Task.run_modify, Outcome.andThen_ok, Task.run_emit, ih,
        List.map_cons, List.nil_append, List.singleton_append, ite_self, reduceCtorEq, if_false]
  exact hloop _ s

/-- Entering a room lists the ids of the answer and fills the roster for all of them. -/
theorem enterRoom_spec (connections : List (Option String)) (myId : Option String) :
    Task.Triple (At v f l) (enterRoom (some connections) myId)
      (fun _ s => ∃ w, At w true true s ∧
        (v.entering connections myId).Filled (v.connectionIdArray ++ connections) w)
      (fun s => v.context = false ∧ ∃ told ⊆ v.connectionIdArray ++ connections,
        (v.entering connections myId).Filled told s.roster)
      Effect.Plain := by
  refine .bind (Q := fun ids s => At v f l s ∧ ids = connections) (.ofExcept ?_ ?_) fun ids => ?_
  · exact fun a s hs ha => ⟨hs, (Except.ok.inj ha).symm⟩
  · exact fun e s hs he => by cases he
  refine .bind (Q := fun _ => At (v.entering connections v.myId) f l) (.modify ?_) fun _ => ?_
  · rintro s ⟨hs, rfl⟩
    exact ⟨congrArg (fun r : Roster => r.entering ids r.myId) hs.roster_eq, hs.factory_isSome,
      hs.stream_isSome⟩
  refine .bind (Q := fun _ => At (v.entering connections myId) f l) (.modify ?_) fun _ => ?_
  · intro s hs
    exact ⟨congrArg (fun r : Roster => { r with myId := myId }) hs.roster_eq, hs.factory_isSome,
      hs.stream_isSome⟩
  refine .bind (Q := fun _ => At (v.entering connections myId) true l) ?_ fun _ => ?_
  · refine ensureFactory_spec.conseq (fun _ hs => hs) (fun _ _ hq => hq) ?_ fun _ hw => hw
    rintro s ⟨hr, hc⟩
    exact ⟨hc, [], List.nil_subset _, hr ▸ .nil _⟩
  refine .bind (Q := fun _ => At (v.entering connections myId) true true) ?_ fun _ => ?_
  · refine ensureLocalStream_spec.conseq (fun _ hs => hs) (fun _ _ hq => hq) ?_ fun _ hw => hw
    rintro s ⟨_, hf⟩
    cases hf
  refine .bind createPeerConnections_spec fun _ => ?_
  rintro s ⟨w, hat, hfill⟩
  have hstreams : Task.Triple (At w true true) addStreams
      (fun _ s => ∃ w, At w true true s ∧
        (v.entering connections myId).Filled (v.connectionIdArray ++ connections) w)
      (fun s => v.context = false ∧ ∃ told ⊆ v.connectionIdArray ++ connections,
        (v.entering connections myId).Filled told s.roster) Effect.Plain := by
    refine addStreams_spec.conseq (fun _ hs => hs) (fun _ s hs => ⟨w, hs, hfill⟩) ?_ fun _ hw => hw
    rintro s ⟨_, hf⟩
    cases hf
  exact hstreams s hat

/-- With a context, `onJoinToRoom` puts a peer under every id and offers to every entry. -/
theorem run_onJoinToRoom (connections : List (Option String)) (myId : Option String)
    (video : Bool) (mediaType : Int32) {s : PeerService} (hc : s.context = true) :
    ∃ s' plain w, (onJoinToRoom (some connections) myId video mediaType).run s =
        ⟨.ok (), s', plain ++ w.connectionPeerDic.entries.map fun entry => .createOffer entry.2⟩ ∧
      (∀ e ∈ plain, Effect.Plain e) ∧ At w true true s' ∧
      (s.roster.entering connections myId).Filled (s.connectionIdArray ++ connections) w := by
  have hstart : At s.roster false false { s with videoEnable := video, mediaType := mediaType } :=
    ⟨rfl, nofun, nofun⟩
  have hm := enterRoom_spec connections myId _ hstart
  simp only [onJoinToRoom, Task.run_bind, Task.run_modify, Outcome.andThen_ok, List.nil_append]
  generalize Task.run (enterRoom (some connections) myId) _ = o at hm
  obtain ⟨value, s', plain⟩ := o
  cases value with
  | error e =>
    have hraised := (hm.raised e rfl).1
    rw [show s.roster.context = s.context from rfl, hc] at hraised
    cases hraised
  | ok _ =>
    obtain ⟨w, hat, hfill⟩ := hm.returned _ rfl
    have hdic : s'.connectionPeerDic = w.connectionPeerDic :=
      congrArg Roster.connectionPeerDic hat.roster_eq
    refine ⟨(createOffers.run s').state, plain, w, ?_, hm.emitted, ?_, hfill⟩
    · simp only [Outcome.andThen_ok, run_createOffers s', hdic]
    · rw [run_createOffers s']
      exact hat.congr rfl rfl rfl

/-- A factory and a context at hand, the newcomer gets its peer. -/
theorem onRemoteJoinToRoom_spec (socketId : Option String) :
    Task.Triple (At v f l) (onRemoteJoinToRoom socketId)
      (fun _ s => (∃ peer, peer.socketId = socketId ∧ At (v.joined socketId peer) f true s) ∨
        (s.roster = v ∧ v.context = false))
      (fun s => s.roster = v ∧ f = false) Effect.Plain := by
  refine .bind ensureLocalStream_spec fun _ => ?_
  refine .swallow ?_
  refine .bind (Q := fun peer s => At v f true s ∧ peer.socketId = socketId) ?_ fun peer => ?_
  · refine (newPeer_spec socketId).conseq (fun _ hs => hs) ?_ (fun _ he => Or.inr he) fun _ hw => hw
    rintro peer s ⟨hs, hp⟩
    exact ⟨⟨hs.roster_eq, fun _ => hs.factory_isSome rfl, hs.stream_isSome⟩, hp⟩
  refine .get_bind fun s hs => ?_
  obtain ⟨stream, hstream⟩ := Option.isSome_iff_exists.mp (hs.1.stream_isSome rfl)
  refine .bind (Q := fun _ => At v f true) (.ofExcept ?_ ?_) fun _ => ?_
  · exact fun _ s' hs' _ => hs' ▸ hs.1
  · intro e s' hs' he
    simp [hstream, deref] at he
  refine .bind (Q := fun _ => At v f true) (.emit ⟨rfl, rfl⟩ fun _ hs' => hs') fun _ => ?_
  refine .bind (Q := fun _ => At { v with
    connectionIdArray := v.connectionIdArray ++ [socketId] } f true) (.modify ?_) fun _ => ?_
  · intro s' hs'
    exact ⟨congrArg (fun r : Roster => { r with
      connectionIdArray := r.connectionIdArray ++ [socketId] }) hs'.roster_eq, hs'.factory_isSome,
      hs'.stream_isSome⟩
  · refine .modify fun s' hs' => Or.inl ⟨peer, hs.2, ?_, hs'.factory_isSome, hs'.stream_isSome⟩
    exact congrArg (fun r : Roster => { r with
      connectionPeerDic := r.connectionPeerDic.insert socketId peer }) hs'.roster_eq

/-- Closing takes one peer from the roster. -/
theorem closePeerConnection_spec {E : PeerService → Prop} (connectionId : Option String) :
    Task.Triple (At v f l) (closePeerConnection connectionId)
      (fun _ => At (v.left connectionId) f l) E Effect.Plain := by
  refine .bind (Q := fun _ => At v f l) (.whenSome (fun peer => ?_) fun _ hs _ => hs) fun _ => ?_
  · exact .emit ⟨rfl, rfl⟩ fun _ hs => hs.1
  refine .bind (Q := fun _ => At { v with
    connectionPeerDic := v.connectionPeerDic.erase connectionId } f l) (.modify ?_) fun _ => ?_
  · intro s hs
    exact ⟨congrArg (fun r : Roster => { r with
      connectionPeerDic := r.connectionPeerDic.erase connectionId }) hs.roster_eq,
      hs.factory_isSome, hs.stream_isSome⟩
  refine .bind (Q := fun _ => At (v.left connectionId) f l) (.modify ?_) fun _ => ?_
  · intro s hs
    exact ⟨congrArg (fun r : Roster => { r with
      connectionIdArray := r.connectionIdArray.erase connectionId }) hs.roster_eq,
      hs.factory_isSome, hs.stream_isSome⟩
  exact .whenever (.emit ⟨rfl, rfl⟩ fun _ hs => hs.1) fun _ hs _ => hs

/-- A release touches only what it releases. -/
theorem release_spec {E : PeerService → Prop} (resource : Resource)
    (field : PeerService → Option Nat) (clear : PeerService → PeerService)
    (hclear : ∀ s, (clear s).roster = s.roster) :
    Task.Triple (·.roster = v) (release resource field clear) (fun _ s => s.roster = v) E
      Effect.Plain := by
  refine .whenSome (fun number => ?_) fun _ hs _ => hs
  refine .bind (Q := fun _ s => s.roster = v) (.emit ⟨rfl, rfl⟩ fun _ hs => hs.1) fun _ => ?_
  exact .modify fun s hs => (hclear s).trans hs

/-- Leaving empties the roster. -/
theorem exitRoom_spec {E : PeerService → Prop} :
    Task.Triple (·.roster = v) exitRoom (fun _ s => s.roster = v.emptied) E Effect.Plain := by
  have hloop (ids : List (Option String)) (v : Roster) :
      Task.Triple (At v false false) (ids.forM closePeerConnection)
        (fun _ => At (ids.foldl Roster.left v) false false) E Effect.Plain := by
    induction ids generalizing v with
    | nil => exact .pure fun _ hs => hs
    | cons id ids ih => exact .bind (closePeerConnection_spec id) fun _ => ih (v.left id)
  refine .bind (Q := fun _ => At v false false) (.modify fun s hs => ⟨hs, nofun, nofun⟩) fun _ => ?_
  refine .get_bind fun s hs => ?_
  have hids : s.connectionIdArray = v.connectionIdArray :=
    congrArg Roster.connectionIdArray hs.roster_eq
  rw [hids]
  refine .bind ((hloop v.connectionIdArray v).pre fun s' hs' => hs' ▸ hs) fun _ => ?_
  refine .bind (Q := fun _ s => s.roster = v.emptied) (.modify fun s hs => ?_) fun _ => ?_
  · exact congrArg (fun r : Roster => { r with connectionIdArray := [] }) hs.roster_eq
  refine .bind (release_spec _ _ _ fun _ => rfl) fun _ => ?_
  refine .bind (release_spec _ _ _ fun _ => rfl) fun _ => ?_
  refine .bind (Q := fun _ s => s.roster = v.emptied)
    (.whenSome (fun number => ?_) fun _ hs _ => hs) fun _ => ?_
  · refine .bind (Q := fun _ s => s.roster = v.emptied) (.emit ⟨rfl, rfl⟩ fun _ hs => hs.1)
      fun _ => ?_
    refine .bind (Q := fun _ s => s.roster = v.emptied) (.emit ⟨rfl, rfl⟩ fun _ hs => hs)
      fun _ => ?_
    exact .modify fun _ hs => hs
  refine .bind (release_spec _ _ _ fun _ => rfl) fun _ => ?_
  refine .bind (release_spec _ _ _ fun _ => rfl) fun _ => ?_
  refine .whenever ?_ fun _ hs _ => hs
  refine .bind (Q := fun _ s => s.roster = v.emptied) (.emit ⟨rfl, rfl⟩ fun _ hs => hs.1)
    fun _ => ?_
  exact .modify fun _ hs => hs

/-- What a relayed message may cause: no offer, and a native call only for a known sender. -/
def Towards (v : Roster) (socketId : Option String) (e : Effect) : Prop :=
  e.isOffer = false ∧ (e.isRemote = true → socketId ∈ v.connectionPeerDic)

section Relayed

variable (native : Native) (socketId : Option String)

/-- A candidate leaves the roster alone and goes to its sender only. -/
theorem onRemoteIceCandidate_spec (iceCandidate : IceCandidate) :
    Task.Triple (At v f l) (onRemoteIceCandidate native socketId iceCandidate)
      (fun _ => At v f l) (At v f l) (Towards v socketId) := by
  refine .whenSome (fun peer => ?_) fun _ hs _ => hs
  split
  · rintro s ⟨hs, hpeer⟩
    have hmem : socketId ∈ v.connectionPeerDic := by
      rw [← hs.roster_eq, ← AList.lookup_isSome]
      exact Option.isSome_iff_exists.mpr ⟨peer, hpeer⟩
    exact Task.Triple.emit (P := At v f l) ⟨rfl, fun _ => hmem⟩ (fun _ h => h) s hs
  · exact .raise fun _ hs => hs.1

/-- A description leaves the roster alone and goes to its sender only. -/
theorem setRemoteDescription_spec {mPeer : Option Peer} (type : SdpType)
    (description : Option String)
    (hpeer : ∀ peer, mPeer = some peer → socketId ∈ v.connectionPeerDic) :
    Task.Triple (At v f l) (setRemoteDescription native mPeer type description)
      (fun _ => At v f l) (At v f l) (Towards v socketId) := by
  refine .whenSome (fun peer => ?_) fun _ hs _ => hs
  split
  · rintro s ⟨hs, hp⟩
    exact Task.Triple.emit (P := At v f l) ⟨rfl, fun _ => hpeer peer hp⟩ (fun _ h => h) s hs
  · exact .raise fun _ hs => hs.1

theorem onReceiveOffer_spec (description : Option String) :
    Task.Triple (At v f l) (onReceiveOffer native socketId description)
      (fun _ => At v f l) (At v f l) (Towards v socketId) := by
  refine .bind (Q := fun _ => At v f l) (.modify fun s hs => hs.congr rfl rfl rfl) fun _ => ?_
  refine .get_bind fun s hs => ?_
  refine .bind (Q := fun _ => At v f l) (.ofExcept ?_ ?_) fun _ => ?_
  · exact fun _ s' hs' _ => hs' ▸ hs
  · exact fun _ s' hs' _ => hs' ▸ hs
  · refine setRemoteDescription_spec native socketId _ _ fun peer hp => ?_
    rw [← hs.roster_eq, ← AList.lookup_isSome]
    exact Option.isSome_iff_exists.mpr ⟨peer, hp⟩

theorem onReceiverAnswer_spec (sdp : Option String) :
    Task.Triple (At v f l) (onReceiverAnswer native socketId sdp)
      (fun _ => At v f l) (At v f l) (Towards v socketId) := by
  refine .get_bind fun s hs => ?_
  refine (setRemoteDescription_spec native socketId _ _ fun peer hp => ?_).pre
    fun s' hs' => hs' ▸ hs
  rw [← hs.roster_eq, ← AList.lookup_isSome]
  exact Option.isSome_iff_exists.mpr ⟨peer, hp⟩

end Relayed

end PeerService

end WebrtcCaller
