import WebrtcCaller.Client.Moves
import WebrtcCaller.Server.Im

/-!
# Calling a user

`ImManager.callSingle` names a room after both users, sends the name to the other one
and dials for that room without waiting for an answer. `IMService.recvCall` offers the
received room in a dialog, and accepting it dials for that room. Both ways end in the
`connect` of the one manager, which hangs up if a call is going on.
-/

namespace WebrtcCaller

variable {D : Type}

/-- The kinds of message of the instant-messaging service. -/
inductive IMType where
  | SEND_CALL

/-- The constant's name, which is what goes over the wire. -/
def IMType.name : IMType → String
  | .SEND_CALL => "SEND_CALL"

/-- What `recvCall` keeps for the answer in the dialog. -/
structure Invitation where
  otherId : Option String
  roomId : Option String
  mediaType : Int32

section Messages

variable [JavaDouble D]

/-- `JSONObject.getIntValue` on a member; a value that is no number is up to the library. -/
def Json.getIntValue (castToInt : Json D → Except Raise Int32) : Json D → Except Raise Int32
  | .null => .ok 0
  | .num d => .ok (JavaDouble.intValue d)
  | v => castToInt v

/-- The text of `IMWebSocket.sendData`. -/
def IMWebSocket.sendData (srcId dstId type : String) (data : Fields D) : Text D :=
  .ofJson (.obj [("srcId", .str srcId), ("dstId", .str dstId), ("type", .str type),
    ("data", .obj data)])

/-- What is read from a text of `sendData`. -/
theorem IMWebSocket.tree_sendData (srcId dstId type : String) (data : Fields D) :
    (sendData srcId dstId type data).tree =
      some (.obj [("srcId", .str srcId), ("dstId", .str dstId), ("type", .str type),
        ("data", .obj (Fields.written data))]) := by
  simp [sendData, Json.written, Fields.written]

/-- The text of `IMService.sendCall`. -/
def IMService.sendCall (selfId otherId roomId : String) (mediaType : Int32) : Text D :=
  IMWebSocket.sendData selfId otherId IMType.SEND_CALL.name
    [("roomId", .str roomId), ("mediaType", .num (JavaDouble.ofInt mediaType))]

-- how the library reads an object from a string and an `int` from what is no number
variable (readObject : String → Except Raise (Option (Fields D)))
  (castToInt : Json D → Except Raise Int32)

/-- The dialog of a received call; a message without data raises. -/
def IMService.recvCall (_selfId otherId : Option String) (data : Option (Fields D)) :
    Except Raise Invitation := do
  let data ← deref data
  let roomId := (Fields.get data "roomId").getString
  let mediaType ← (Fields.get data "mediaType").getIntValue castToInt
  return ⟨otherId, roomId, mediaType⟩

namespace IMWebSocket

/-- A message that is no call opens no dialog. -/
def recvData (srcId dstId type : Option String) (data : Option (Fields D)) :
    Except Raise (Option Invitation) :=
  if type = some IMType.SEND_CALL.name then some <$> IMService.recvCall castToInt dstId srcId data
  else .ok none

/-- `recv.getJSONObject("data")`. -/
def getJSONObject (recv : Fields D) : Except Raise (Option (Fields D)) :=
  match Fields.get recv "data" with
  | .null => .ok none
  | .obj data => .ok (some data)
  | .str s => readObject s
  | _ => .error .classCast

/-- The dialog a text opens. A text that raises opens none. -/
def onMessage (message : Text D) : Except Raise (Option Invitation) := do
  let recv ← deref (← ImServer.parseObject message)
  let srcId := (Fields.get recv "srcId").getString
  let dstId := (Fields.get recv "dstId").getString
  let type := (Fields.get recv "type").getString
  let data ← getJSONObject readObject recv
  recvData castToInt srcId dstId type data

/-- A call is offered under the room it was sent with. -/
theorem onMessage_sendCall (selfId otherId roomId : String) (mediaType : Int32) :
    onMessage readObject castToInt (IMService.sendCall selfId otherId roomId mediaType) =
      .ok (some ⟨some selfId, some roomId, mediaType⟩) := by
  simp only [onMessage, IMService.sendCall, tree_sendData, ImServer.parseObject]
  simp [Fields.written, Json.written, deref, getJSONObject, recvData, IMService.recvCall,
    Fields.get, Json.getString, Json.getIntValue, JavaDouble.intValue_ofInt, Except.bind, bind,
    pure, Except.pure]

end IMWebSocket

/-- The server takes the message of a call for one it can forward. -/
theorem IMService.wellFormed_sendCall (selfId otherId roomId : String) (mediaType : Int32) :
    ImServer.WellFormed (sendCall selfId otherId roomId mediaType : Text D) otherId :=
  ⟨_, _, _, _, rfl, rfl, rfl, rfl, rfl⟩

end Messages

/-- `ServerConfig.WS_SIGNAL_SERVER` with the user filled in. -/
def wsSignalServer (userId : String) : String := "ws://172.16.8.223:5000/ws/" ++ userId

/-- The room of a call. -/
def callRoom (selfId otherId : String) : String := selfId ++ "_" ++ otherId

/-- How far the main thread is with the call it enters, and whether it made that call. -/
inductive Entering where
  | idle
  | configuring (outgoing : Bool) (wss : String) (mediaType : Int32) (roomId : Option String)
  | connecting (outgoing : Bool)

/-- What a connection was dialled for. -/
structure Dialled where
  outgoing : Bool
  roomId : Option String

/-- The application of one user. -/
structure Caller where
  manager : ManagerImpl
  entering : Entering
  /-- The open call dialogs. -/
  dialogs : List Invitation
  /-- For every connection of the manager. -/
  dialled : Nat → Dialled
  /-- The connections the library has reported the end of. -/
  ended : List Nat

/-- The connection whose end an event reports: its close, or an error while it has not opened. -/
def ManagerImpl.ends (m : ManagerImpl) : ManagerEvent D → List Nat
  | .onClose ws _ => if m.serviceIs (fun _ => true) ws then [ws] else []
  | .onError ws _ => if m.serviceIs (!·.isOpen) ws then [ws] else []
  | _ => []

/-- Only a connection that has been made ends. -/
theorem ManagerImpl.lt_of_mem_ends {m : ManagerImpl} {event : ManagerEvent D} {ws : Nat}
    (h : ws ∈ m.ends event) : ws < m.services.length := by
  have hmade {p : WsServiceImpl → Bool} {ws' : Nat}
      (hmem : ws ∈ if m.serviceIs p ws' then [ws'] else []) : ws < m.services.length := by
    split at hmem
    · rename_i hp
      obtain rfl := List.mem_singleton.mp hmem
      obtain ⟨service, hservice, -⟩ := (Option.any_eq_true _ _).mp hp
      exact (List.getElem?_eq_some_iff.mp hservice).1
    · cases hmem
  cases event with
  | onClose ws' reason => exact hmade h
  | onError ws' reason => exact hmade h
  | _ => cases h

namespace Caller

/-- An application that has just been started. -/
def start : Caller := ⟨.start, .idle, [], fun _ => ⟨false, none⟩, []⟩

/-- The manager holds the connection, and its end has not been reported. -/
def Live (c : Caller) (ws : Nat) : Prop := c.manager.wsService = some ws ∧ ws ∉ c.ended

/-- `ImManager.callSingle` once the call message is sent. -/
def callSingle (c : Caller) (selfId otherId : String) : Caller :=
  { c with entering :=
      .configuring true (wsSignalServer selfId) TYPE_VIDEO (some (callRoom selfId otherId)) }

/-- A button of the `i`-th dialog is pressed. -/
def answer (c : Caller) (selfId : String) (i : Nat) (accept : Bool) : Caller :=
  match c.dialogs[i]? with
  | none => c
  | some invitation =>
    { c with
      dialogs := c.dialogs.eraseIdx i
      entering :=
        if accept then
          .configuring false (wsSignalServer selfId) invitation.mediaType invitation.roomId
        else c.entering }

/-- A text of the instant-messaging server arrives. -/
def onMessage [JavaDouble D] (readObject : String → Except Raise (Option (Fields D)))
    (castToInt : Json D → Except Raise Int32) (c : Caller) (message : Text D) : Caller :=
  match IMWebSocket.onMessage readObject castToInt message with
  | .ok (some invitation) => { c with dialogs := c.dialogs ++ [invitation] }
  | _ => c

section Steps

variable [JavaDouble D] (castToString : Json D → Except Raise String) (validUri : String → Bool)

/-- An event of the manager. -/
def event (c : Caller) (event : ManagerEvent D) : Caller :=
  { c with
    manager := c.manager.step castToString validUri event
    ended := c.manager.ends event ++ c.ended }

/-- The next of the two manager calls in `ChatSingleActivity.callSingle`. -/
def proceed (c : Caller) : Caller :=
  match c.entering with
  | .idle => c
  | .configuring outgoing wss mediaType roomId =>
    { c.event castToString validUri (.setConfigWithCallBack wss mediaType roomId) with
      entering := .connecting outgoing }
  | .connecting outgoing =>
    { c.event castToString validUri .connect with
      entering := .idle
      dialled :=
        match c.manager.wsService with
        | none => Function.update c.dialled c.manager.services.length ⟨outgoing, c.manager.roomId⟩
        | some _ => c.dialled }

end Steps

/-- The room of a call the user made, or of one it was offered. -/
def roomOf (own offered : String) (outgoing : Bool) : String := if outgoing then own else offered

/-- Every call the user makes is for the room `own`, and every call it is offered for the
room `offered`. -/
structure Named (own offered : String) (c : Caller) : Prop where
  dialogs : ∀ invitation ∈ c.dialogs, invitation.roomId = some offered
  configuring : ∀ {outgoing : Bool} {wss : String} {mediaType : Int32} {roomId : Option String},
    c.entering = .configuring outgoing wss mediaType roomId →
      roomId = some (roomOf own offered outgoing)
  connecting : ∀ {outgoing : Bool}, c.entering = .connecting outgoing →
    c.manager.roomId = some (roomOf own offered outgoing)
  dialled : ∀ {ws : Nat}, c.Live ws →
    (c.dialled ws).roomId = some (roomOf own offered (c.dialled ws).outgoing)
  ended : ∀ ws ∈ c.ended, ws < c.manager.services.length

/-- The two directions name the room alike exactly if they differ or the names coincide. -/
theorem roomOf_eq_roomOf_iff {own offered : String} {outgoing outgoing' : Bool} :
    roomOf own offered outgoing = roomOf offered own outgoing' ↔
      outgoing' ≠ outgoing ∨ own = offered := by
  cases outgoing <;> cases outgoing' <;> simp [roomOf, eq_comm]

variable {own offered : String} {c : Caller}

theorem named_start : start.Named own offered := by
  refine ⟨?_, nofun, nofun, nofun, ?_⟩
  · intro invitation h
    cases h
  · intro ws h
    cases h

/-- A call of its own is for the room of its own. -/
theorem Named.callSingle {selfId otherId : String} (h : c.Named (callRoom selfId otherId) offered) :
    (c.callSingle selfId otherId).Named (callRoom selfId otherId) offered := by
  refine ⟨h.dialogs, ?_, nofun, h.dialled, h.ended⟩
  intro outgoing wss mediaType roomId he
  cases he
  rfl

/-- A call under the offered room arrives. -/
theorem Named.onMessage [JavaDouble D] (h : c.Named own offered)
    (readObject : String → Except Raise (Option (Fields D)))
    (castToInt : Json D → Except Raise Int32) (srcId dstId : String) (mediaType : Int32) :
    (c.onMessage readObject castToInt
      (IMService.sendCall srcId dstId offered mediaType)).Named own offered := by
  simp only [Caller.onMessage, IMWebSocket.onMessage_sendCall]
  refine ⟨?_, h.configuring, h.connecting, h.dialled, h.ended⟩
  intro invitation hmem
  rcases List.mem_append.mp hmem with hmem | hmem
  · exact h.dialogs invitation hmem
  · rw [List.mem_singleton.mp hmem]

/-- Accepting a call configures the room that was offered. -/
theorem Named.answer (h : c.Named own offered) (selfId : String) (i : Nat) (accept : Bool) :
    (c.answer selfId i accept).Named own offered := by
  simp only [Caller.answer]
  cases hd : c.dialogs[i]? with
  | none => exact h
  | some invitation =>
    have hroom : invitation.roomId = some offered := h.dialogs _ (List.mem_of_getElem? hd)
    have hrest (other : Invitation) (hmem : other ∈ c.dialogs.eraseIdx i) :
        other.roomId = some offered := h.dialogs other (List.mem_of_mem_eraseIdx hmem)
    cases accept with
    | false => exact ⟨hrest, h.configuring, h.connecting, h.dialled, h.ended⟩
    | true =>
      refine ⟨hrest, ?_, nofun, h.dialled, h.ended⟩
      intro outgoing wss mediaType roomId he
      cases he
      exact hroom

/-- What is live in `c'` is live in `c`, for the same call. -/
def Within (c c' : Caller) : Prop :=
  ∀ ws, c'.Live ws → c.Live ws ∧ c'.dialled ws = c.dialled ws

/-- Neither the dialogs nor the steps before a connection matter. -/
theorem within_of_eq {c' : Caller} (hm : c'.manager = c.manager) (hd : c'.dialled = c.dialled)
    (he : c'.ended = c.ended) : c.Within c' := by
  intro ws hws
  rw [Live, hm, he] at hws
  exact ⟨hws, by rw [hd]⟩

/-- An answer touches no connection. -/
theorem within_answer (selfId : String) (i : Nat) (accept : Bool) :
    c.Within (c.answer selfId i accept) := by
  simp only [Caller.answer]
  cases c.dialogs[i]? with
  | none => exact within_of_eq rfl rfl rfl
  | some invitation => exact within_of_eq rfl rfl rfl

section Steps

variable [JavaDouble D] {castToString : Json D → Except Raise String} {validUri : String → Bool}

/-- An event other than `connect` leaves the manager with the connection it has, or with none. -/
theorem live_event {event : ManagerEvent D} (hconnect : event ≠ .connect) {ws : Nat}
    (h : (c.event castToString validUri event).Live ws) : c.Live ws := by
  obtain ⟨hheld, hlive⟩ := h
  refine ⟨?_, fun hmem => hlive (List.mem_append_right _ hmem)⟩
  simp only [Caller.event] at hheld
  have hmoves : c.manager.Moves event (c.manager.step castToString validUri event) :=
    ManagerImpl.step_moves _ _
  generalize c.manager.step castToString validUri event = m' at hmoves hheld
  cases hmoves with
  | dial => exact absurd rfl hconnect
  | hangUp => exact absurd rfl hconnect
  | leave => cases hheld
  | keep _ _ _ wsService_eq => rwa [wsService_eq] at hheld

/-- No event forgets a connection that was made. -/
theorem Named.ended_event (h : c.Named own offered)
    (castToString : Json D → Except Raise String) (validUri : String → Bool)
    (event : ManagerEvent D) : ∀ ws ∈ (c.event castToString validUri event).ended,
      ws < (c.event castToString validUri event).manager.services.length := by
  intro ws hmem
  have hlt : ws < c.manager.services.length := by
    rcases List.mem_append.mp hmem with hmem | hmem
    · exact ManagerImpl.lt_of_mem_ends hmem
    · exact h.ended ws hmem
  refine hlt.trans_le ?_
  change _ ≤ (c.manager.step castToString validUri event).services.length
  have hmoves : c.manager.Moves event (c.manager.step castToString validUri event) :=
    ManagerImpl.step_moves _ _
  generalize c.manager.step castToString validUri event = m' at hmoves
  cases hmoves with
  | dial _ _ _ length_eq => omega
  | hangUp => exact Nat.le_refl _
  | leave => exact Nat.le_refl _
  | keep _ _ _ _ length_eq => exact length_eq.ge

/-- An event that neither configures nor dials leaves every call with its room. -/
theorem Named.event (h : c.Named own offered) {event : ManagerEvent D}
    (hconnect : event ≠ .connect)
    (hconfig : ∀ wss mediaType roomId, event ≠ .setConfigWithCallBack wss mediaType roomId) :
    (c.event castToString validUri event).Named own offered := by
  refine ⟨h.dialogs, h.configuring, ?_, fun hws => h.dialled (live_event hconnect hws),
    h.ended_event castToString validUri event⟩
  intro outgoing he
  change (c.manager.step castToString validUri event).roomId = _
  rw [ManagerImpl.roomId_step _ _ hconfig]
  exact h.connecting he

/-- A message touches no connection. -/
theorem within_onMessage (readObject : String → Except Raise (Option (Fields D)))
    (castToInt : Json D → Except Raise Int32) (message : Text D) :
    c.Within (c.onMessage readObject castToInt message) := by
  simp only [Caller.onMessage]
  split
  · exact within_of_eq rfl rfl rfl
  · exact within_of_eq rfl rfl rfl

/-- Only `connect` makes a connection. -/
theorem within_event {event : ManagerEvent D} (hconnect : event ≠ .connect) :
    c.Within (c.event castToString validUri event) :=
  fun _ hws => ⟨live_event hconnect hws, rfl⟩

/-- The user is about to dial. -/
def Dials (c : Caller) (outgoing : Bool) : Prop :=
  c.entering = .connecting outgoing ∧ c.manager.wsService = none

/-- Dialling makes a connection for the configured room, and it is the only live one. -/
theorem Dials.proceed {outgoing : Bool} (h : c.Dials outgoing) (hnamed : c.Named own offered)
    (castToString : Json D → Except Raise String) (validUri : String → Bool) :
    (∀ ws, (c.proceed castToString validUri).Live ws ↔ ws = c.manager.services.length) ∧
      (c.proceed castToString validUri).dialled c.manager.services.length =
        ⟨outgoing, c.manager.roomId⟩ := by
  obtain ⟨he, hw⟩ := h
  simp only [Caller.proceed, he, hw]
  refine ⟨fun ws => ?_, Function.update_self ..⟩
  have hstep : (c.manager.step castToString validUri .connect).wsService =
      some c.manager.services.length := (ManagerImpl.step_connect_of_none hw).1
  have hfresh : c.manager.services.length ∉ c.ended :=
    fun hmem => absurd (hnamed.ended _ hmem) (Nat.lt_irrefl _)
  constructor
  · rintro ⟨hheld, -⟩
    exact (Option.some.inj (hstep.symm.trans hheld)).symm
  · rintro rfl
    exact ⟨hstep, hfresh⟩

/-- A turn of the main thread that does not dial makes no connection. -/
theorem within_proceed (h : ∀ outgoing, ¬c.Dials outgoing) :
    c.Within (c.proceed castToString validUri) := by
  intro ws hws
  cases he : c.entering with
  | idle =>
    simp only [proceed, he] at hws ⊢
    exact ⟨hws, trivial⟩
  | configuring outgoing wss mediaType roomId =>
    simp only [proceed, he] at hws ⊢
    have hconnect : (.setConfigWithCallBack wss mediaType roomId : ManagerEvent D) ≠ .connect :=
      nofun
    have hlive : (c.event castToString validUri
      (.setConfigWithCallBack wss mediaType roomId)).Live ws := hws
    exact ⟨live_event hconnect hlive, rfl⟩
  | connecting outgoing =>
    -- a held connection is dropped
    have hsome : c.manager.wsService.isSome := by
      cases hw : c.manager.wsService with
      | none => exact absurd ⟨he, hw⟩ (h outgoing)
      | some _ => rfl
    have hnone : (c.manager.step castToString validUri .connect).wsService = none :=
      (ManagerImpl.step_connect_of_isSome hsome).1
    simp only [proceed, he] at hws
    have hheld : (c.manager.step castToString validUri .connect).wsService = some ws := hws.1
    rw [hnone] at hheld
    cases hheld

/-- What the user holds after a turn of the main thread. -/
theorem Named.dialled_proceed (h : c.Named own offered) {ws : Nat}
    (hws : (c.proceed castToString validUri).Live ws) :
    ((c.proceed castToString validUri).dialled ws).roomId =
      some (roomOf own offered ((c.proceed castToString validUri).dialled ws).outgoing) := by
  by_cases hd : ∃ outgoing, c.Dials outgoing
  · obtain ⟨outgoing, hd⟩ := hd
    obtain ⟨hnew, hdialled⟩ := hd.proceed h castToString validUri
    obtain rfl := (hnew ws).mp hws
    rw [hdialled]
    exact h.connecting hd.1
  · obtain ⟨hlive, hsame⟩ := within_proceed (fun outgoing h => hd ⟨outgoing, h⟩) ws hws
    rw [hsame]
    exact h.dialled hlive

/-- A turn of the main thread carries the room from the dialog to the connection. -/
theorem Named.proceed (h : c.Named own offered) :
    (c.proceed castToString validUri).Named own offered := by
  have hdialled {ws : Nat} (hws : (c.proceed castToString validUri).Live ws) :=
    h.dialled_proceed hws
  simp only [Caller.proceed] at hdialled ⊢
  cases he : c.entering with
  | idle => exact h
  | configuring outgoing wss mediaType roomId =>
    simp only [he] at hdialled
    refine ⟨h.dialogs, nofun, ?_, hdialled, h.ended_event castToString validUri _⟩
    intro outgoing' heq
    cases heq
    exact h.configuring he
  | connecting outgoing =>
    simp only [he] at hdialled
    exact ⟨h.dialogs, nofun, nofun, hdialled, h.ended_event castToString validUri .connect⟩

end Steps

end Caller

end WebrtcCaller
