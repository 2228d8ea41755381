import WebrtcCaller.Core.Buckets
import WebrtcCaller.Core.Task
import WebrtcCaller.Wire.Json

/-!
# The signalling server

`SignallingServer` keeps four static registries and submits every container
callback to one single-threaded runner, so each callback is one task. A task
that raises ends there: the registries keep what it has written so far and the
texts it has sent stay sent. The sessions whose `sendText` raises are a
parameter of every task.
-/

namespace WebrtcCaller

/-- A WebSocket session of the container, known by its unique id. -/
@[ext] structure Session where
  id : String
  deriving DecidableEq, Repr

/-- The bean Gson reads from and writes to every signalling text. -/
structure SignallingData (D : Type) where
  eventName : Option String
  data : Option (Fields D)

/-- A text handed to the asynchronous remote of one session. -/
structure Sent (D : Type) where
  dst : Session
  text : Text D

/-- The static registries of the server. -/
structure SignallingServer where
  /-- Every connected session. -/
  sockets : List Session
  /-- The sessions of each room. -/
  rooms : AList fun _ : String => List Session
  /-- The room of each session, keyed by session id. -/
  roomList : AList fun _ : String => String
  /-- The session of each user. -/
  userIds : AList fun _ : String => Session

/-- A runner task of the server. -/
abbrev ServerTask (D α : Type) := Task SignallingServer (Sent D) Raise α

variable {D : Type}

/-- Dereferencing a null raises. -/
def deref {α : Type} : Option α → Except Raise α
  | some a => .ok a
  | none => .error .nullPointer

/-- `value.toString()` on a map value. -/
def Json.deref [JavaDouble D] : Json D → Except Raise String
  | .null => .error .nullPointer
  | v => .ok v.javaString

namespace SignallingData

/-- The key of a `[key, value]` pair. -/
def readKey [JavaDouble D] : Json D → Except Raise String
  | .arr _ | .obj _ => .error .jsonSyntax
  | v => .ok v.javaString

/-- Gson also accepts a map written as an array of pairs. -/
def readPairs [JavaDouble D] : List (Json D) → Except Raise (Fields D)
  | [] => .ok []
  | .arr [k, v] :: ps => do
    let key ← readKey k
    let rest ← readPairs ps
    return (key, v) :: rest
  | _ => .error .jsonSyntax

/-- The member `eventName`, bound to a `String`. -/
def readEventName [JavaDouble D] : Json D → Except Raise (Option String)
  | .null => .ok none
  | .arr _ | .obj _ => .error .jsonSyntax
  | v => .ok (some v.javaString)

/-- The member `data`, bound to a `Map<String, Object>`. -/
def readData [JavaDouble D] : Json D → Except Raise (Option (Fields D))
  | .null => .ok none
  | .obj fs => .ok (some fs)
  | .arr ps => (readPairs ps).map some
  | _ => .error .jsonSyntax

/-- `gson.fromJson(message, SignallingData.class)`; the JSON null gives a null bean. -/
def fromJson [JavaDouble D] (message : Text D) : Except Raise (Option (SignallingData D)) :=
  match message.tree with
  | none => .error .jsonSyntax
  | some .null => .ok none
  | some (.obj fs) => do
    let eventName ← readEventName (Fields.get fs "eventName")
    let data ← readData (Fields.get fs "data")
    return some ⟨eventName, data⟩
  | some _ => .error .jsonSyntax

/-- The members of a bean. -/
def tree (send : SignallingData D) : Json D :=
  .obj [("eventName", send.eventName.elim .null .str), ("data", send.data.elim .null .obj)]

/-- A bean is written as an event with its data, less the members that are null. -/
theorem written_tree (eventName : String) (data : Fields D) :
    (tree ⟨some eventName, some data⟩).written =
      .obj [("eventName", .str eventName), ("data", .obj (Fields.written data))] :=
  Json.written_event eventName data

/-- `new Gson().toJson(send)`; Gson refuses infinities and NaN. -/
def toJson [JavaDouble D] (send : SignallingData D) : Except Raise (Text D) :=
  if send.tree.allFinite then .ok (Text.ofJson send.tree) else .error .illegalArgument

end SignallingData

namespace SignallingServer

/-- The registries when the class is loaded. -/
def empty : SignallingServer := ⟨[], ∅, ∅, ∅⟩

/-- The sessions listed for a room; none before its first join. -/
def room (server : SignallingServer) (name : String) : List Session :=
  bucket server.rooms name

section Handlers

variable [JavaDouble D] (fails : Session → Bool)

/-- `session.getAsyncRemote().sendText(text)`. -/
def sendText (session : Session) (text : Text D) : ServerTask D Unit :=
  if fails session then Task.raise .sendText else Task.emit ⟨session, text⟩

/-- The loop of a join and of a close over a room: everyone but `socket` is sent
the notice, and the ids told so far are collected. -/
def broadcast (send : SignallingData D) (socket : Session) (curRoom : List Session) :
    ServerTask D (List String) :=
  curRoom.foldlM (fun ids curSocket =>
    if socket.id = curSocket.id then pure ids
    else do
      let text ← Task.ofExcept send.toJson
      sendText fails curSocket text
      return ids ++ [curSocket.id]) []

/-- The first connected session with the given id. -/
def getSocket (server : SignallingServer) (socketId : String) : Option Session :=
  server.sockets.find? (·.id = socketId)

/-- A session is listed once, and the user's entry is overwritten. -/
def addSocket (session : Session) (userId : String) : ServerTask D Unit := do
  Task.modify fun server =>
    if server.sockets.idxOf? session = none then
      { server with sockets := server.sockets ++ [session] } else server
  Task.modify fun server => { server with userIds := server.userIds.insert userId session }

/-- `rooms.get(room)` raises on a null key, after the session left `sockets`. -/
def removeSocket (session : Session) : ServerTask D Unit := do
  let room := (← Task.get).roomList.lookup session.id
  Task.modify fun server => { server with sockets := server.sockets.erase session }
  let room ← Task.ofExcept (deref room)
  let curRoom ← Task.ofExcept (deref ((← Task.get).rooms.lookup room))
  Task.modify fun server =>
    { server with rooms := server.rooms.insert room (curRoom.erase session) }
  Task.modify fun server => { server with roomList := server.roomList.erase session.id }

/-- The session is registered. -/
def onOpen (session : Session) (userId : String) : ServerTask D Unit :=
  addSocket session userId

/-- The text telling a member that `session` has left. -/
def removePeer (session : Session) : SignallingData D :=
  ⟨some "_remove_peer", some [("socketId", .str session.id)]⟩

/-- The other members are told before anything is taken out. -/
def onClose (session : Session) : ServerTask D Unit := do
  match (← Task.get).roomList.lookup session.id with
  | none => pure ()
  | some room =>
    let curRoom ← Task.ofExcept (deref ((← Task.get).rooms.lookup room))
    let _ ← broadcast fails (removePeer session) session curRoom
  removeSocket session

/-- The room a `__join` asks for. -/
def joinedRoom (data : Fields D) : String :=
  match Fields.get data "room" with
  | .null => "__default"
  | room => room.javaString

/-- The text telling a member that `socket` has entered. -/
def newPeer (socket : Session) : SignallingData D :=
  ⟨some "_new_peer", some [("socketId", .str socket.id)]⟩

/-- The text telling a newcomer who is there. -/
def peers (ids : List String) (socket : Session) : SignallingData D :=
  ⟨some "_peers", some [("connections", .arr (ids.map .str)), ("you", .str socket.id)]⟩

/-- The others are told first; the newcomer gets the ids of those that were told. -/
def join (data : Option (Fields D)) (socket : Session) : ServerTask D Unit := do
  let data ← Task.ofExcept (deref data)
  let room := joinedRoom data
  let curRoom := (← Task.get).room room
  let ids ← broadcast fails (newPeer socket) socket curRoom
  Task.modify fun server => { server with rooms := server.rooms.insert room (curRoom ++ [socket]) }
  Task.modify fun server => { server with roomList := server.roomList.insert socket.id room }
  let text ← Task.ofExcept (peers ids socket).toJson
  sendText fails socket text

/-- What a relay sends: the received map itself, with the members `keys` stored
back into it, as null when absent, and the sender's id over `socketId`. -/
def relayed (eventName : String) (keys : List String) (data : Fields D) (socket : Session) :
    SignallingData D :=
  let map := keys.foldl (fun map key => Fields.put key (Fields.get map key) map) data
  ⟨some eventName, some (Fields.put "socketId" (.str socket.id) map)⟩

/-- The three relays differ in the event they send and in the members they store back. -/
def relay (eventName : String) (keys : List String) (data : Option (Fields D))
    (socket : Session) : ServerTask D Unit := do
  let data ← Task.ofExcept (deref data)
  let socketId ← Task.ofExcept (Fields.get data "socketId").deref
  match getSocket (← Task.get) socketId with
  | none => pure ()
  | some session =>
    let text ← Task.ofExcept (relayed eventName keys data socket).toJson
    sendText fails session text

/-- The relay of a candidate. -/
def iceCandidate (data : Option (Fields D)) (socket : Session) : ServerTask D Unit :=
  relay fails "_ice_candidate" ["id", "label", "candidate"] data socket

/-- The relay of an offer. -/
def offer (data : Option (Fields D)) (socket : Session) : ServerTask D Unit :=
  relay fails "_offer" ["sdp"] data socket

/-- The relay of an answer. -/
def answer (data : Option (Fields D)) (socket : Session) : ServerTask D Unit :=
  relay fails "_answer" ["sdp"] data socket

/-- An unknown event does nothing; a text that is no event raises. -/
def handleMessage (message : Text D) (session : Session) : ServerTask D Unit := do
  let signallingData ← Task.ofExcept (SignallingData.fromJson message)
  let signallingData ← Task.ofExcept (deref signallingData)
  let eventName ← Task.ofExcept (deref signallingData.eventName)
  if eventName = "__join" then join fails signallingData.data session
  else if eventName = "__ice_candidate" then iceCandidate fails signallingData.data session
  else if eventName = "__offer" then offer fails signallingData.data session
  else if eventName = "__answer" then answer fails signallingData.data session
  else pure ()

/-- Only a text with `eventName` in it is read at all. -/
def onMessage (message : Text D) (session : Session) : ServerTask D Unit :=
  if message.contains "eventName" then handleMessage fails message session else pure ()

end Handlers

end SignallingServer

end WebrtcCaller
