import WebrtcCaller.Client.Manager

/-!
# What an event does to the references of the manager

`connect` is the only event that sets a reference, and which of its two effects it has
depends on one of them. `exitRoom` clears the other. What a peer service is told comes
from `joinRoom`, from `exitRoom` and from the turns of the looper.
-/

namespace WebrtcCaller

namespace ManagerImpl

variable {D : Type}

/-- How an event may move the references of the manager. -/
inductive Moves (m : ManagerImpl) : ManagerEvent D → ManagerImpl → Prop
  | dial {m' : ManagerImpl} (idle : m.wsService = none) (wss_eq : m'.wss = m.wss)
      (wsService_eq : m'.wsService = some m.services.length)
      (length_eq : m'.services.length = m.services.length + 1)
      (peerService_eq : m.wss.isSome ∧ m'.peerService = some m.peerServices ∧
          m'.peerServices = m.peerServices + 1 ∨
        m.wss = none ∧ m'.peerService = m.peerService ∧ m'.peerServices = m.peerServices) :
      m.Moves .connect m'
  | hangUp {ws : Nat} (held : m.wsService = some ws) :
      m.Moves .connect { m with wsService := none, peerService := none }
  | leave {service : Nat} (held : m.peerService = some service) :
      m.Moves .exitRoom { m with wsService := none }
  | keep {event : ManagerEvent D} {m' : ManagerImpl} (not_connect : event ≠ .connect)
      (not_leave : event = .exitRoom → m.peerService = none)
      (wss_isSome : m.wss.isSome → m'.wss.isSome) (wsService_eq : m'.wsService = m.wsService)
      (length_eq : m'.services.length = m.services.length)
      (peerService_eq : m'.peerService = m.peerService)
      (peerServices_eq : m'.peerServices = m.peerServices) : m.Moves event m'

/-- Without a configuration a `connect` that finds no connection raises once it has made one. -/
theorem run_connect_unconfigured {validUri : String → Bool} {m : ManagerImpl}
    (h : m.wsService = none) (hw : m.wss = none) :
    (connect validUri).run m = ⟨.error .nullPointer, { m with
        services := m.services ++ [⟨false, false⟩]
        wsService := some m.services.length }, []⟩ := by
  simp [connect, h, dial, hw, deref]

/-- What `connect` does is one of its two moves, or raises after the first half of one. -/
theorem connect_moves {validUri : String → Bool} (m : ManagerImpl) :
    m.Moves (.connect : ManagerEvent D) ((connect validUri).run m).state := by
  cases hs : m.wsService with
  | some ws =>
    rw [run_connect_of_some hs]
    exact .hangUp hs
  | none =>
    cases hw : m.wss with
    | none =>
      rw [run_connect_unconfigured hs hw]
      exact .dial hs rfl rfl List.length_append (Or.inr ⟨hw, rfl, rfl⟩)
    | some wss =>
      rw [run_connect_of_none hs hw]
      exact .dial hs rfl rfl List.length_append (Or.inl ⟨Option.isSome_iff_exists.mpr ⟨wss, hw⟩,
        rfl, rfl⟩)

section Runs

variable [JavaDouble D] {castToString : Json D → Except Raise String} {validUri : String → Bool}

/-- Every event moves the references as listed. -/
theorem step_moves (m : ManagerImpl) (event : ManagerEvent D) :
    m.Moves event (m.step castToString validUri event) := by
  rw [ManagerImpl.step]
  cases event with
  | setConfigWithCallBack wss mediaType roomId =>
    exact .keep (by simp) (by simp) (fun _ => rfl) rfl rfl rfl rfl
  | connect => exact connect_moves m
  | joinRoom =>
    simp only [outcome, task, state_joinRoom]
    exact .keep (by simp) (by simp) id rfl rfl rfl rfl
  | exitRoom =>
    simp only [outcome, task, exitRoom, Task.run_whenSome]
    cases hp : m.peerService with
    | none => exact .keep (by simp) (fun _ => hp) id rfl rfl rfl rfl
    | some service => exact .leave hp
  | onOpen ws => exact .keep (by simp) (by simp) id rfl (List.length_modify ..) rfl rfl
  | onMessage ws message =>
    obtain ⟨value, posted, hout⟩ := outcome_onMessage castToString validUri m ws message
    rw [hout]
    exact .keep (by simp) (by simp) id rfl (List.length_modify ..) rfl rfl
  | onClose ws reason => exact .keep (by simp) (by simp) id rfl rfl rfl rfl
  | onError ws reason => exact .keep (by simp) (by simp) id rfl rfl rfl rfl
  | handle =>
    rw [state_handle]
    exact .keep (by simp) (by simp) id rfl rfl rfl rfl

/-- Only a configuration changes the room. -/
theorem roomId_step (m : ManagerImpl) (event : ManagerEvent D)
    (h : ∀ wss mediaType roomId, event ≠ .setConfigWithCallBack wss mediaType roomId) :
    (m.step castToString validUri event).roomId = m.roomId := by
  rw [ManagerImpl.step]
  cases event with
  | setConfigWithCallBack wss mediaType roomId => exact absurd rfl (h wss mediaType roomId)
  | connect =>
    simp only [outcome, task]
    cases hs : m.wsService with
    | some ws => rw [run_connect_of_some hs]
    | none =>
      cases hw : m.wss with
      | none => rw [run_connect_unconfigured hs hw]
      | some wss => rw [run_connect_of_none hs hw]
  | joinRoom => simp only [outcome, task, state_joinRoom]
  | exitRoom => cases hp : m.peerService <;> simp [outcome, task, exitRoom, hp]
  | onOpen ws => rfl
  | onMessage ws message =>
    obtain ⟨value, posted, hout⟩ := outcome_onMessage castToString validUri m ws message
    rw [hout]
  | onClose ws reason => rfl
  | onError ws reason => rfl
  | handle => rw [state_handle]

/-- A `connect` that finds no connection makes one. -/
theorem step_connect_of_none {m : ManagerImpl} (h : m.wsService = none) :
    (m.step castToString validUri .connect).wsService = some m.services.length ∧
      (m.step castToString validUri .connect).services.length = m.services.length + 1 := by
  have hmoves : m.Moves .connect (m.step castToString validUri .connect) := step_moves m .connect
  generalize m.step castToString validUri .connect = m' at hmoves
  cases hmoves with
  | dial idle wss_eq wsService_eq length_eq peerService_eq => exact ⟨wsService_eq, length_eq⟩
  | hangUp held =>
    rw [h] at held
    cases held
  | keep not_connect => exact absurd rfl not_connect

/-- A `connect` that finds a connection drops it, and the peer service with it. -/
theorem step_connect_of_isSome {m : ManagerImpl} (h : m.wsService.isSome) :
    (m.step castToString validUri .connect).wsService = none ∧
      (m.step castToString validUri .connect).peerService = none := by
  have hmoves : m.Moves .connect (m.step castToString validUri .connect) := step_moves m .connect
  generalize m.step castToString validUri .connect = m' at hmoves
  cases hmoves with
  | dial idle => simp [idle] at h
  | hangUp held => exact ⟨rfl, rfl⟩
  | keep not_connect => exact absurd rfl not_connect

/-- The looper is about to answer the own join. -/
def HandlesJoin (m : ManagerImpl) (event : ManagerEvent D) : Prop :=
  event = .handle ∧ ∃ origin connections myId rest,
    m.posted = ⟨origin, .signal (.onJoinToRoom connections myId)⟩ :: rest

/-- The looper is about to report the end of a connection to a call that is not opening. -/
def HandlesFailure (m : ManagerImpl) (event : ManagerEvent D) : Prop :=
  event = .handle ∧ m.opening = false ∧ ∃ origin msg rest,
    m.posted = ⟨origin, .onWebSocketOpenFailed msg⟩ :: rest

/-- Dialling and hanging up invoke no peer service. -/
theorem peer_notMem_connect (m : ManagerImpl) (service : Nat) (method : PeerMethod) :
    .peer service method ∉ ((connect validUri).run m).out := by
  cases hs : m.wsService with
  | some ws =>
    rw [run_connect_of_some hs]
    split <;> simp
  | none =>
    cases hw : m.wss with
    | none =>
      rw [run_connect_unconfigured hs hw]
      exact List.not_mem_nil
    | some wss =>
      rw [run_connect_of_none hs hw]
      split <;> simp

/-- What `joinRoom` invokes on a peer service. -/
theorem peer_mem_joinRoom {m : ManagerImpl} {service : Nat} {method : PeerMethod}
    (h : .peer service method ∈ (joinRoom.run m).out) : method = .initContext := by
  cases hp : m.peerService <;> cases hw : m.wsService with
  | none => simp_all [joinRoom]
  | some ws => cases hc : m.serviceIs (·.hasClient) ws <;> simp_all [joinRoom]

/-- Which posted tasks end the call that is held. -/
theorem exitRoom_mem_runPosted (m : ManagerImpl) (call : ManagerCall) (service : Nat) :
    .peer service .exitRoom ∈ ((runPosted call).run m).out ↔
      m.peerService = some service ∧ m.opening = false ∧
        ∃ msg, call = .onWebSocketOpenFailed msg := by
  cases call with
  | onWebSocketOpen => cases hc : m.callback <;> simp [runPosted, hc]
  | onWebSocketOpenFailed msg =>
    cases ho : m.opening with
    | true => cases hc : m.callback <;> simp [runPosted, openFailed, ho, hc, deref]
    | false =>
      cases hp : m.peerService with
      | none => simp [runPosted, openFailed, ho, hp]
      | some held =>
        simp only [runPosted, openFailed, Task.run_bind, Task.run_get, Outcome.andThen_ok, ho]
        simp [hp, eq_comm]
  | signal signal =>
    cases hp : m.peerService with
    | none => simp [runPosted, forward, hp]
    | some service =>
      cases signal with
      | onJoinToRoom connections myId =>
        by_cases hv : m.mediaType = TYPE_VIDEO ∨ m.mediaType = TYPE_MEETING <;>
          simp [runPosted, forward, hp, hv]
      | _ => simp [runPosted, forward, hp]

/-- Which posted tasks enter the room of the call that is held. -/
theorem join_mem_runPosted (m : ManagerImpl) (call : ManagerCall) (service : Nat) :
    (∃ connections myId video mediaType,
      .peer service (.signal (.onJoinToRoom connections myId) video mediaType) ∈
        ((runPosted call).run m).out) ↔
      m.peerService = some service ∧ ∃ connections myId,
        call = .signal (.onJoinToRoom connections myId) := by
  cases call with
  | onWebSocketOpen => cases hc : m.callback <;> simp [runPosted, hc]
  | onWebSocketOpenFailed msg =>
    cases ho : m.opening with
    | true => cases hc : m.callback <;> simp [runPosted, openFailed, ho, hc, deref]
    | false => cases hp : m.peerService <;> simp [runPosted, openFailed, ho, hp]
  | signal signal =>
    cases hp : m.peerService with
    | none => simp [runPosted, forward, hp]
    | some held =>
      cases signal with
      | onJoinToRoom connections myId =>
        by_cases hv : m.mediaType = TYPE_VIDEO ∨ m.mediaType = TYPE_MEETING <;>
          simp [runPosted, forward, hp, hv] <;> exact eq_comm
      | _ => simp [runPosted, forward, hp]

/-- Only `joinRoom`, `exitRoom` and the looper invoke a peer service. -/
theorem peer_mem_out {m : ManagerImpl} {event : ManagerEvent D} {service : Nat}
    {method : PeerMethod} (h : .peer service method ∈ (m.outcome castToString validUri event).out) :
    event = .joinRoom ∧ method = .initContext ∨
      event = .exitRoom ∧ method = .exitRoom ∧ m.peerService = some service ∨ event = .handle := by
  cases event with
  | connect => exact absurd h (peer_notMem_connect m service method)
  | joinRoom => exact Or.inl ⟨rfl, peer_mem_joinRoom h⟩
  | exitRoom =>
    cases hp : m.peerService with
    | none => simp [outcome, task, exitRoom, hp] at h
    | some held =>
      simp only [outcome, task, exitRoom, Task.run_whenSome, hp, Option.elim_some, Task.run_bind,
        Task.run_modify, Outcome.andThen_ok, Task.run_emit, List.nil_append,
        List.mem_singleton] at h
      obtain ⟨rfl, rfl⟩ := Invocation.peer.inj h
      exact Or.inr (Or.inl ⟨rfl, rfl, rfl⟩)
  | handle => exact Or.inr (Or.inr rfl)
  | onMessage ws message =>
    obtain ⟨value, posted, hout⟩ := outcome_onMessage castToString validUri m ws message
    rw [hout] at h
    exact absurd h List.not_mem_nil
  | _ => simp [outcome, task, setConfigWithCallBack, setOpen, post] at h

/-- The events that end the call of a peer service. -/
theorem exitRoom_mem_out_iff {m : ManagerImpl} {event : ManagerEvent D} {service : Nat} :
    .peer service .exitRoom ∈ (m.outcome castToString validUri event).out ↔
      m.peerService = some service ∧ (event = .exitRoom ∨ m.HandlesFailure event) := by
  constructor
  · intro h
    rcases peer_mem_out h with ⟨-, hmethod⟩ | ⟨rfl, -, hp⟩ | rfl
    · cases hmethod
    · exact ⟨hp, Or.inl rfl⟩
    · cases hp : m.posted with
      | nil => simp [outcome, task, hp] at h
      | cons posted rest =>
        obtain ⟨origin, call⟩ := posted
        rw [out_handle hp, exitRoom_mem_runPosted] at h
        obtain ⟨hservice, ho, msg, rfl⟩ := h
        exact ⟨hservice, Or.inr ⟨rfl, ho, origin, msg, rest, hp⟩⟩
  · rintro ⟨hservice, rfl | ⟨rfl, ho, origin, msg, rest, hp⟩⟩
    · simp [outcome, task, exitRoom, hservice]
    · rw [out_handle hp, exitRoom_mem_runPosted]
      exact ⟨hservice, ho, msg, rfl⟩

/-- The events that make a peer service enter the room. -/
theorem join_mem_out_iff {m : ManagerImpl} {event : ManagerEvent D} {service : Nat} :
    (∃ connections myId video mediaType,
      .peer service (.signal (.onJoinToRoom connections myId) video mediaType) ∈
        (m.outcome castToString validUri event).out) ↔
      m.peerService = some service ∧ m.HandlesJoin event := by
  constructor
  · rintro ⟨connections, myId, video, mediaType, h⟩
    rcases peer_mem_out h with ⟨-, hmethod⟩ | ⟨-, hmethod, -⟩ | rfl
    · cases hmethod
    · cases hmethod
    · cases hp : m.posted with
      | nil => simp [outcome, task, hp] at h
      | cons posted rest =>
        obtain ⟨origin, call⟩ := posted
        rw [out_handle hp] at h
        obtain ⟨hservice, connections, myId, rfl⟩ :=
          (join_mem_runPosted _ call service).mp ⟨connections, myId, video, mediaType, h⟩
        exact ⟨hservice, rfl, origin, connections, myId, rest, hp⟩
  · rintro ⟨hservice, rfl, origin, connections, myId, rest, hp⟩
    rw [out_handle hp]
    exact (join_mem_runPosted _ _ service).mpr ⟨hservice, connections, myId, rfl⟩

end Runs

end ManagerImpl

end WebrtcCaller
