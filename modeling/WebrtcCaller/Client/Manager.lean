import WebrtcCaller.Client.WsService
import WebrtcCaller.Core.Run
import WebrtcCaller.Core.Task

/-!
# The call manager

`ManagerImpl` is a singleton that outlives its calls. Every `WsServiceImpl` it
has created reports to it, and its callbacks are posted to the main looper: a
posted task looks only at the fields the manager has when it runs, not at the
connection it comes from. A late callback of an old connection therefore leaves
the current call alone only if it is no open and no peer service is held.
-/

namespace WebrtcCaller

variable {D : Type}

/-- The constants of `MediaType`. -/
def TYPE_AUDIO : Int32 := 0
def TYPE_VIDEO : Int32 := 1
def TYPE_MEETING : Int32 := 2

/-- A `WsServiceImpl` object. -/
structure WsServiceImpl where
  /-- `mWebSocketClient` has been created. -/
  hasClient : Bool
  isOpen : Bool

/-- The manager callbacks a connection can cause. -/
inductive ManagerCall where
  | onWebSocketOpen
  | onWebSocketOpenFailed (msg : Option String)
  | signal (signal : Signal)

/-- A task waiting in the main looper, with the connection it was posted for. -/
structure Posted where
  origin : Nat
  call : ManagerCall

/-- The methods of a peer service the manager calls. -/
inductive PeerMethod where
  | initContext
  | signal (signal : Signal) (videoEnable : Bool) (mediaType : Int32)
  | toggleSpeaker (enable : Bool)
  | exitRoom

/-- What the manager does to the objects around it, each known by its creation number. -/
inductive Invocation where
  | onSuccess (callback : Nat)
  | onFailed (callback : Nat) (msg : Option String)
  | peer (peerService : Nat) (method : PeerMethod)
  | connect (wsService : Nat) (wss : String)
  | close (wsService : Nat)
  | joinRoom (wsService : Nat) (room : Option String)

/-- The fields of the singleton, the connections created so far and the looper's queue. -/
structure ManagerImpl where
  wss : Option String
  callback : Option Nat
  wsService : Option Nat
  peerService : Option Nat
  roomId : Option String
  mediaType : Int32
  videoEnable : Bool
  services : List WsServiceImpl
  callbacks : Nat
  peerServices : Nat
  posted : List Posted

/-- A task of the manager. -/
abbrev ManagerTask (α : Type) := Task ManagerImpl Invocation Raise α

namespace ManagerImpl

/-- Nothing configured. -/
def start : ManagerImpl := ⟨none, none, none, none, none, 0, false, [], 0, 0, []⟩

/-- The connection `ws` satisfies `p`. -/
def serviceIs (m : ManagerImpl) (p : WsServiceImpl → Bool) (ws : Nat) : Bool :=
  (m.services[ws]?).any p

/-- The configuration of the next call; the callback is a new object each time. -/
def setConfigWithCallBack (wss : String) (mediaType : Int32) (roomId : Option String) :
    ManagerTask Unit :=
  Task.modify fun m =>
    { m with
      wss := some wss
      mediaType := mediaType
      videoEnable := mediaType ≠ TYPE_AUDIO
      roomId := roomId
      callback := some m.callbacks
      callbacks := m.callbacks + 1 }

section Connecting

-- `new URI(wss)` accepts the address
variable (validUri : String → Bool)

/-- `WsServiceImpl.connect`; an address that is no URI creates no client. -/
def wsConnect (ws : Nat) (wss : String) : ManagerTask Unit :=
  Task.whenever (fun _ => validUri wss) do
    Task.modify fun m => { m with services := m.services.modify ws ({ · with hasClient := true }) }
    Task.emit (.connect ws wss)

/-- The branch of `connect` that dials. -/
def dial : ManagerTask Unit := do
  let ws := (← Task.get).services.length
  Task.modify fun m => { m with services := m.services ++ [⟨false, false⟩], wsService := some ws }
  let wss ← Task.ofExcept (deref (← Task.get).wss)
  wsConnect validUri ws wss
  Task.modify fun m =>
    { m with peerService := some m.peerServices, peerServices := m.peerServices + 1 }

/-- The branch of `connect` that finds a call going on. -/
def hangUp (ws : Nat) : ManagerTask Unit := do
  Task.whenever (·.serviceIs (·.hasClient) ws) (Task.emit (.close ws))
  Task.modify fun m => { m with wsService := none, peerService := none }

/-- Dial, or hang up when a connection is held. -/
def connect : ManagerTask Unit := do
  match (← Task.get).wsService with
  | none => dial validUri
  | some ws => hangUp ws

end Connecting

/-- A peer service is prepared first; a connection without a client raises. -/
def joinRoom : ManagerTask Unit := do
  Task.whenSome (·.peerService) fun service => Task.emit (.peer service .initContext)
  Task.whenSome (·.wsService) fun ws => do
    let m ← Task.get
    Task.ofExcept (if m.serviceIs (·.hasClient) ws then .ok () else .error .nullPointer)
    Task.emit (.joinRoom ws m.roomId)

/-- Nothing happens without a peer service. -/
def exitRoom : ManagerTask Unit :=
  Task.whenSome (·.peerService) fun service => do
    Task.modify fun m => { m with wsService := none }
    Task.emit (.peer service .exitRoom)

/-- `wsService != null && !wsService.isOpen()`. -/
def opening (m : ManagerImpl) : Bool := m.wsService.any fun ws => !m.serviceIs (·.isOpen) ws

/-- `onFailed` before the connection has opened, `exitRoom` afterwards. -/
def openFailed (msg : Option String) : ManagerTask Unit := do
  if (← Task.get).opening then do
    let callback ← Task.ofExcept (deref (← Task.get).callback)
    Task.emit (.onFailed callback msg)
  else Task.whenSome (·.peerService) fun service => Task.emit (.peer service .exitRoom)

/-- Entering a room with video also turns the loudspeaker on. -/
def forward (signal : Signal) : ManagerTask Unit :=
  Task.whenSome (·.peerService) fun service => do
    let m ← Task.get
    Task.emit (.peer service (.signal signal m.videoEnable m.mediaType))
    match signal with
    | .onJoinToRoom _ _ =>
      if m.mediaType = TYPE_VIDEO ∨ m.mediaType = TYPE_MEETING then
        Task.emit (.peer service (.toggleSpeaker true))
      else pure ()
    | _ => pure ()

/-- The body of a posted task. -/
def runPosted : ManagerCall → ManagerTask Unit
  | .onWebSocketOpen => Task.whenSome (·.callback) fun callback => Task.emit (.onSuccess callback)
  | .onWebSocketOpenFailed msg => openFailed msg
  | .signal signal => forward signal

/-- `handler.post`. -/
def post (ws : Nat) (call : ManagerCall) : ManagerTask Unit :=
  Task.modify fun m => { m with posted := m.posted ++ [⟨ws, call⟩] }

/-- `isOpen = true` on the thread of the connection. -/
def setOpen (ws : Nat) : ManagerTask Unit :=
  Task.modify fun m => { m with services := m.services.modify ws ({ · with isOpen := true }) }

end ManagerImpl

/-- The user actions, the callbacks of every connection and the turns of the looper. -/
inductive ManagerEvent (D : Type) where
  | setConfigWithCallBack (wss : String) (mediaType : Int32) (roomId : Option String)
  | connect
  | joinRoom
  | exitRoom
  | onOpen (ws : Nat)
  | onMessage (ws : Nat) (message : Text D)
  | onClose (ws : Nat) (reason : Option String)
  | onError (ws : Nat) (reason : Option String)
  | handle

namespace ManagerImpl

section Runs

variable [JavaDouble D] (castToString : Json D → Except Raise String) (validUri : String → Bool)

/-- What an event makes the manager do. A text that raises posts nothing; the
library then reports an error of its own. -/
def task : ManagerEvent D → ManagerTask Unit
  | .setConfigWithCallBack wss mediaType roomId => setConfigWithCallBack wss mediaType roomId
  | .connect => connect validUri
  | .joinRoom => joinRoom
  | .exitRoom => exitRoom
  | .onOpen ws => do
    setOpen ws
    post ws .onWebSocketOpen
  | .onMessage ws message => do
    setOpen ws
    let signal ← Task.ofExcept (WsService.handleMessage castToString message)
    Task.whenSome (fun _ => signal) fun signal => post ws (.signal signal)
  | .onClose ws reason => post ws (.onWebSocketOpenFailed reason)
  | .onError ws reason => post ws (.onWebSocketOpenFailed reason)
  | .handle => do
    match (← Task.get).posted with
    | [] => pure ()
    | posted :: rest =>
      Task.modify fun m => { m with posted := rest }
      runPosted posted.call

/-- The outcome of the next event. -/
def outcome (m : ManagerImpl) (event : ManagerEvent D) :
    Outcome ManagerImpl Invocation Raise Unit :=
  (task castToString validUri event).run m

/-- The manager after one event. -/
def step (m : ManagerImpl) (event : ManagerEvent D) : ManagerImpl :=
  (m.outcome castToString validUri event).state

end Runs

/-- Dialling follows a configuration, and only a connection with a client calls back. -/
def Allowed (m : ManagerImpl) : ManagerEvent D → Prop
  | .connect => m.wss.isSome
  | .onOpen ws | .onMessage ws _ | .onClose ws _ | .onError ws _ =>
    m.serviceIs (·.hasClient) ws = true
  | _ => True

/-- An invocation of `exitRoom` or of a signalling method of the held peer service,
or of the callback of the configured call. -/
def Touches (m : ManagerImpl) : Invocation → Prop
  | .onSuccess callback => m.callback = some callback
  | .onFailed callback _ => m.callback = some callback
  | .peer service .exitRoom => m.peerService = some service
  | .peer service (.signal _ _ _) => m.peerService = some service
  | _ => False

/-- The looper is about to run a callback of a connection that is not the current one. -/
def HandlesLate (m : ManagerImpl) (event : ManagerEvent D) (call : ManagerCall) : Prop :=
  event = .handle ∧ ∃ origin rest, m.posted = ⟨origin, call⟩ :: rest ∧ m.wsService ≠ some origin

/-- What is kept by every run: a held connection has its peer service, and nothing
can be posted before a call is configured. -/
structure Configured (m : ManagerImpl) : Prop where
  callback_isSome : m.wss.isSome → m.callback.isSome
  wss_isSome : m.services ≠ [] ∨ m.posted ≠ [] → m.wss.isSome
  peerService_isSome : m.wsService.isSome → m.peerService.isSome

/-- Before the first call nothing is held and nothing posted. -/
theorem configured_start : start.Configured := by
  refine ⟨nofun, ?_, nofun⟩
  rintro (h | h)
  · exact absurd rfl h
  · exact absurd rfl h

/-- A posted task changes no field. -/
theorem state_runPosted (m : ManagerImpl) (call : ManagerCall) :
    ((runPosted call).run m).state = m := by
  cases call with
  | onWebSocketOpen => cases h : m.callback <;> simp [runPosted, h]
  | onWebSocketOpenFailed msg =>
    cases ho : m.opening with
    | true => cases h : m.callback <;> simp [runPosted, openFailed, ho, h, deref]
    | false => cases h : m.peerService <;> simp [runPosted, openFailed, ho, h]
  | signal signal =>
    cases h : m.peerService with
    | none => simp [runPosted, forward, h]
    | some service =>
      cases signal with
      | onJoinToRoom connections myId =>
        by_cases hv : m.mediaType = TYPE_VIDEO ∨ m.mediaType = TYPE_MEETING <;>
          simp [runPosted, forward, h, hv]
      | _ => simp [runPosted, forward, h]

/-- Asking to join changes no field. -/
theorem state_joinRoom (m : ManagerImpl) : (joinRoom.run m).state = m := by
  cases hp : m.peerService <;> cases hw : m.wsService with
  | none => simp [joinRoom, hp, hw]
  | some ws => cases hc : m.serviceIs (·.hasClient) ws <;> simp [joinRoom, hp, hw, hc]

/-- Which posted tasks touch the call the manager holds. -/
theorem Configured.touches_iff {m : ManagerImpl} (hm : m.Configured) (hw : m.wss.isSome)
    (call : ManagerCall) : (∃ inv ∈ ((runPosted call).run m).out, m.Touches inv) ↔
      call = .onWebSocketOpen ∨ m.peerService.isSome := by
  obtain ⟨callback, hc⟩ := Option.isSome_iff_exists.mp (hm.callback_isSome hw)
  cases call with
  | onWebSocketOpen => simp [runPosted, hc, Touches]
  | onWebSocketOpenFailed msg =>
    cases ho : m.opening with
    | true =>
      have hs : m.wsService.isSome := by
        cases hws : m.wsService with
        | none => simp [opening, hws] at ho
        | some _ => rfl
      simp [runPosted, openFailed, ho, hc, deref, Touches, hm.peerService_isSome hs]
    | false => cases h : m.peerService <;> simp [runPosted, openFailed, ho, h, Touches]
  | signal signal =>
    cases h : m.peerService with
    | none => simp [runPosted, forward, h]
    | some service => simp [runPosted, forward, h, Touches]

section Runs

variable [JavaDouble D] {castToString : Json D → Except Raise String} {validUri : String → Bool}

/-- A `connect` that finds a connection hangs up. -/
theorem run_connect_of_some {m : ManagerImpl} {ws : Nat} (h : m.wsService = some ws) :
    (connect validUri).run m = ⟨.ok (), { m with wsService := none, peerService := none },
      if m.serviceIs (·.hasClient) ws then [.close ws] else []⟩ := by
  cases hc : m.serviceIs (·.hasClient) ws <;> simp [connect, h, hangUp, hc]

/-- A configured `connect` that finds none dials, with a new connection and a new peer service. -/
theorem run_connect_of_none {m : ManagerImpl} {wss : String} (h : m.wsService = none)
    (hw : m.wss = some wss) :
    (connect validUri).run m = ⟨.ok (), { m with
        services := m.services ++ [⟨validUri wss, false⟩]
        wsService := some m.services.length
        peerService := some m.peerServices
        peerServices := m.peerServices + 1 },
      if validUri wss then [.connect m.services.length wss] else []⟩ := by
  cases hv : validUri wss with
  | true => simp [connect, h, dial, hw, deref, wsConnect, hv, List.modify_eq_take_drop]
  | false => simp [connect, h, dial, hw, deref, wsConnect, hv]

variable (castToString validUri) in
/-- A text opens its connection and posts the signal read from it, if any. -/
theorem outcome_onMessage (m : ManagerImpl) (ws : Nat) (message : Text D) : ∃ value posted,
    m.outcome castToString validUri (.onMessage ws message) = ⟨value, { m with
      services := m.services.modify ws ({ · with isOpen := true })
      posted := m.posted ++ posted }, []⟩ := by
  simp only [outcome, task, setOpen, post, Task.run_bind, Task.run_modify, Outcome.andThen_ok,
    Task.run_ofExcept]
  cases WsService.handleMessage castToString message with
  | error e => exact ⟨.error e, [], by simp⟩
  | ok signal =>
    cases signal with
    | none => exact ⟨.ok (), [], by simp⟩
    | some signal => exact ⟨.ok (), [⟨ws, .signal signal⟩], by simp⟩

/-- A turn of the looper takes one posted task. -/
theorem state_handle (m : ManagerImpl) :
    (m.outcome castToString validUri (.handle : ManagerEvent D)).state =
      { m with posted := m.posted.tail } := by
  simp only [outcome, task, Task.run_bind, Task.run_get, Outcome.andThen_ok]
  cases hp : m.posted with
  | nil =>
    cases m
    cases hp
    rfl
  | cons posted rest =>
    simp only [Task.run_bind, Task.run_modify, Outcome.andThen_ok, state_runPosted]
    rfl

/-- A connection with a client exists. -/
theorem services_ne_nil {m : ManagerImpl} {p : WsServiceImpl → Bool} {ws : Nat}
    (h : m.serviceIs p ws = true) : m.services ≠ [] := by
  intro hnil
  simp [serviceIs, hnil] at h

/-- A callback only opens its connection and posts. -/
theorem Configured.callback {m : ManagerImpl} (h : m.Configured) {ws : Nat}
    (hws : m.serviceIs (·.hasClient) ws = true) (services : List WsServiceImpl)
    (posted : List Posted) : Configured { m with services := services, posted := posted } :=
  ⟨h.callback_isSome, fun _ => h.wss_isSome (Or.inl (services_ne_nil hws)), h.peerService_isSome⟩

/-- Every allowed event keeps the manager configured. -/
theorem Configured.step {m : ManagerImpl} (h : m.Configured) (event : ManagerEvent D)
    (hok : m.Allowed event) : (m.step castToString validUri event).Configured := by
  rw [ManagerImpl.step]
  cases event with
  | setConfigWithCallBack wss mediaType roomId =>
    exact ⟨fun _ => rfl, fun _ => rfl, h.peerService_isSome⟩
  | connect =>
    obtain ⟨wss, hwss⟩ := Option.isSome_iff_exists.mp hok
    simp only [outcome, task]
    cases hs : m.wsService with
    | none =>
      rw [run_connect_of_none hs hwss]
      exact ⟨h.callback_isSome, fun _ => hok, fun _ => rfl⟩
    | some ws =>
      rw [run_connect_of_some hs]
      exact ⟨h.callback_isSome, h.wss_isSome, nofun⟩
  | joinRoom =>
    simp only [outcome, task, state_joinRoom]
    exact h
  | exitRoom =>
    simp only [outcome, task, exitRoom, Task.run_whenSome]
    cases hp : m.peerService with
    | none => exact h
    | some service => exact ⟨h.callback_isSome, h.wss_isSome, nofun⟩
  | onOpen ws => exact h.callback hok _ _
  | onMessage ws message =>
    obtain ⟨value, posted, hout⟩ := outcome_onMessage castToString validUri m ws message
    rw [hout]
    exact h.callback hok _ _
  | onClose ws reason => exact h.callback hok _ _
  | onError ws reason => exact h.callback hok _ _
  | handle =>
    rw [state_handle]
    refine ⟨h.callback_isSome, fun hne => h.wss_isSome (hne.imp id ?_), h.peerService_isSome⟩
    intro htail hnil
    exact htail (by rw [hnil]; rfl)

variable (castToString validUri) in
/-- Handling a late callback touches neither the held peer service nor the callback of
the configured call. -/
def LateUntouching (m : ManagerImpl) (event : ManagerEvent D) : Prop :=
  ∀ call, m.HandlesLate event call →
    ∀ inv ∈ (m.outcome castToString validUri event).out, ¬m.Touches inv

/-- A late callback is no open, and comes while no peer service is held. -/
def LateAfterHangUp (m : ManagerImpl) (event : ManagerEvent D) : Prop :=
  ∀ call, m.HandlesLate event call → call ≠ .onWebSocketOpen ∧ m.peerService = none

/-- What a turn of the looper invokes is what the posted task invokes. -/
theorem out_handle {m : ManagerImpl} {origin : Nat} {call : ManagerCall} {rest : List Posted}
    (hp : m.posted = ⟨origin, call⟩ :: rest) :
    (m.outcome castToString validUri (.handle : ManagerEvent D)).out =
      ((runPosted call).run { m with posted := rest }).out := by
  simp only [outcome, task, Task.run_bind, Task.run_get, Outcome.andThen_ok, hp, Task.run_modify,
    List.nil_append]

/-- A late callback leaves the current call alone exactly when there is none it could reach. -/
theorem Configured.lateUntouching_iff {m : ManagerImpl} (h : m.Configured)
    (event : ManagerEvent D) :
    m.LateUntouching castToString validUri event ↔ m.LateAfterHangUp event := by
  refine forall_congr' fun call => ?_
  constructor
  all_goals
    intro hl hlate
    obtain ⟨rfl, origin, rest, hp, _⟩ := hlate
    have hlate : m.HandlesLate (.handle : ManagerEvent D) call := ⟨rfl, origin, rest, hp, ‹_›⟩
    have hw : m.wss.isSome := h.wss_isSome (Or.inr (by rw [hp]; exact List.cons_ne_nil _ _))
    have hrest : Configured { m with posted := rest } :=
      ⟨h.callback_isSome, fun _ => hw, h.peerService_isSome⟩
    have hiff := hrest.touches_iff hw call
  · have hnot : ¬(call = .onWebSocketOpen ∨ m.peerService.isSome) := by
      intro hor
      obtain ⟨inv, hmem, ht⟩ := hiff.mpr hor
      exact hl hlate inv (by rw [out_handle hp]; exact hmem) ht
    refine ⟨fun he => hnot (Or.inl he), ?_⟩
    simpa using fun hs => hnot (Or.inr hs)
  · intro inv hmem ht
    obtain ⟨hne, hnone⟩ := hl hlate
    rw [out_handle hp] at hmem
    rcases hiff.mp ⟨inv, hmem, ht⟩ with he | hs
    · exact hne he
    · rw [show ({ m with posted := rest } : ManagerImpl).peerService = m.peerService from rfl,
        hnone] at hs
      cases hs

/-- The callbacks of old connections leave the current call alone throughout a run
exactly when each of them, at the moment it is handled, is no open and finds no
peer service: the previous call was ended by `connect` and no new one is dialled. -/
theorem late_callbacks_untouching_iff (castToString : Json D → Except Raise String)
    (validUri : String → Bool) (events : List (ManagerEvent D))
    (hok : Along (step castToString validUri) Allowed start events) :
    Along (step castToString validUri) (LateUntouching castToString validUri) start events ↔
      Along (step castToString validUri) LateAfterHangUp start events :=
  along_congr (J := Configured) (fun _ event h hx => h.step event hx)
    (fun _ event h _ => h.lateUntouching_iff event) configured_start hok

end Runs

/-- A quick redial: the close of the first connection is handled during the second call. -/
def redialRun : List (ManagerEvent IntDouble) :=
  [.setConfigWithCallBack "ws://host" 1 (some "r"), .connect, .onOpen 0, .handle, .joinRoom,
    .exitRoom, .setConfigWithCallBack "ws://host" 1 (some "q"), .connect, .onOpen 1, .handle,
    .onClose 0 none, .handle]

/-- The late close ends the second call. -/
theorem redial_touched :
    Along (step (fun _ => .error .jsonSyntax) fun _ => true) Allowed start redialRun ∧
      ¬Along (step (fun _ => .error .jsonSyntax) fun _ => true)
        (LateUntouching (fun _ => .error .jsonSyntax) fun _ => true) start redialRun := by
  refine ⟨⟨trivial, rfl, rfl, trivial, trivial, trivial, trivial, rfl, rfl, trivial, rfl, trivial,
    trivial⟩, ?_⟩
  rintro ⟨_, _, _, _, _, _, _, _, _, _, _, h, _⟩
  exact h _ ⟨rfl, 0, [], rfl, by decide⟩ (.peer 1 .exitRoom) (List.mem_singleton_self _) rfl

/-- The first call is ended by `connect`; its close is handled after that. -/
def hangUpRun : List (ManagerEvent IntDouble) :=
  [.setConfigWithCallBack "ws://host" 1 (some "r"), .connect, .onOpen 0, .handle, .connect,
    .onClose 0 none, .handle]

/-- The callbacks of a connection that was hung up touch nothing. -/
theorem hangUp_untouched :
    Along (step (fun _ => .error .jsonSyntax) fun _ => true) LateAfterHangUp start hangUpRun ∧
      Along (step (fun _ => .error .jsonSyntax) fun _ => true)
        (LateUntouching (fun _ => .error .jsonSyntax) fun _ => true) start hangUpRun := by
  have hok : Along (step (fun _ => .error .jsonSyntax) fun _ => true) Allowed start hangUpRun :=
    ⟨trivial, rfl, rfl, trivial, rfl, rfl, trivial, trivial⟩
  have hlate : Along (step (fun _ => .error .jsonSyntax) fun _ => true) LateAfterHangUp start
      hangUpRun := by
    refine ⟨(fun _ h => nomatch h.1), (fun _ h => nomatch h.1), (fun _ h => nomatch h.1), ?_,
      (fun _ h => nomatch h.1), (fun _ h => nomatch h.1), ?_, trivial⟩
    · rintro call ⟨_, origin, rest, hp, hne⟩
      obtain ⟨hhead, _⟩ := List.cons.inj hp
      obtain ⟨rfl, _⟩ := Posted.mk.inj hhead
      exact absurd rfl hne
    · rintro call ⟨_, origin, rest, hp, _⟩
      obtain ⟨hhead, _⟩ := List.cons.inj hp
      obtain ⟨_, rfl⟩ := Posted.mk.inj hhead
      exact ⟨nofun, rfl⟩
  exact ⟨hlate, (late_callbacks_untouching_iff _ _ _ hok).mpr hlate⟩

end ManagerImpl

end WebrtcCaller
