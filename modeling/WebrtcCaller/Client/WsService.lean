import WebrtcCaller.Server.Signalling

/-!
# The signalling client

`WsServiceImpl` writes four kinds of text and reads six. Reading goes through
fastjson maps with Java casts, so a member of the wrong type raises, and so do
a missing inner object and a label that is no number. Strings of the client
may be null and are options here.
-/

namespace WebrtcCaller

variable {D : Type}

/-- The candidate of `org.webrtc`. -/
structure IceCandidate where
  sdpMid : Option String
  sdpMLineIndex : Int32
  sdp : Option String

/-- The manager callbacks a received text ends in. -/
inductive Signal where
  | onJoinToRoom (connections : Option (List (Option String))) (myId : Option String)
  | onRemoteJoinToRoom (socketId : Option String)
  | onRemoteIceCandidate (socketId : Option String) (iceCandidate : IceCandidate)
  | onRemoteOutRoom (socketId : Option String)
  | onReceiveOffer (socketId sdp : Option String)
  | onReceiverAnswer (socketId sdp : Option String)

/-- A nullable string as a JSON value. -/
def Json.ofNullable (s : Option String) : Json D := s.elim .null .str

/-- A nullable string is written as it is. -/
theorem Json.written_ofNullable (s : Option String) :
    (Json.ofNullable s : Json D).written = .ofNullable s := by
  cases s <;> rfl

/-- The cast `(String) value`. -/
def Json.asString : Json D → Except Raise (Option String)
  | .null => .ok none
  | .str s => .ok (some s)
  | _ => .error .classCast

/-- The cast `(Map) value`. -/
def Json.asMap : Json D → Except Raise (Option (Fields D))
  | .null => .ok none
  | .obj fs => .ok (some fs)
  | _ => .error .classCast

/-- The cast `(JSONArray) value`. -/
def Json.asArray : Json D → Except Raise (Option (List (Json D)))
  | .null => .ok none
  | .arr xs => .ok (some xs)
  | _ => .error .classCast

/-- `Double.parseDouble(String.valueOf(value))`; null, booleans, arrays and
objects print as texts that are no number. -/
def Json.parseDouble [JavaDouble D] : Json D → Except Raise D
  | .num d => .ok d
  | .str s => ((JavaDouble.parseDouble s).elim (.error .numberFormat) .ok)
  | _ => .error .numberFormat

namespace WsService

section Sending

variable [JavaDouble D]

/-- An event with its data, printed. -/
def send (eventName : String) (data : Fields D) : Text D :=
  .ofJson (.obj [("eventName", .str eventName), ("data", .obj data)])

/-- What the client sends passes the server's test for `eventName`. -/
theorem contains_send (eventName : String) (data : Fields D) :
    (send eventName data).contains "eventName" = true := by
  have hkey : "eventName".toList <:+: quote "eventName" := by decide
  have hraw : (send eventName data).raw.toList = '{' :: (Json.printFields
      [("eventName", (.str eventName : Json D)), ("data", .obj (Fields.written data))] ++
        ['}']) := by
    rw [send, Text.ofJson, Json.written_event]
    exact String.toList_ofList
  rw [Text.contains, containsChars_iff, hraw, Json.printFields]
  · generalize quote "eventName" = key at hkey
    refine List.infix_cons ?_
    rw [List.append_assoc]
    exact hkey.trans (List.prefix_append _ _).isInfix
  · nofun

/-- The event of a client that enters a room. -/
def joinRoom (room : Option String) : Text D :=
  send "__join" [("room", .ofNullable room)]

/-- The two descriptions differ in their type and event. -/
def sendDescription (eventName type : String) (socketId sdp : Option String) : Text D :=
  send eventName [("socketId", .ofNullable socketId),
    ("sdp", .obj [("type", .str type), ("sdp", .ofNullable sdp)])]

/-- The event of an answer. -/
def sendAnswer (socketId sdp : Option String) : Text D :=
  sendDescription "__answer" "answer" socketId sdp

/-- The event of an offer. -/
def sendOffer (socketId sdp : Option String) : Text D :=
  sendDescription "__offer" "offer" socketId sdp

/-- The event of a candidate. -/
def sendIceCandidate (socketId : Option String) (iceCandidate : IceCandidate) : Text D :=
  send "__ice_candidate" [("id", .ofNullable iceCandidate.sdpMid),
    ("label", .num (JavaDouble.ofInt iceCandidate.sdpMLineIndex)),
    ("candidate", .ofNullable iceCandidate.sdp), ("socketId", .ofNullable socketId)]

end Sending

section Receiving

-- how fastjson turns an array element that is no string into one
variable [JavaDouble D] (castToString : Json D → Except Raise String)

/-- `JSONObject.parseArray(JSONObject.toJSONString(arr), String.class)`. -/
def parseStrings : List (Json D) → Except Raise (List (Option String))
  | [] => .ok []
  | x :: xs => do
    let s ← match x with
      | .null => .ok none
      | .str s => .ok (some s)
      | x => (castToString x).map some
    let rest ← parseStrings xs
    return s :: rest

/-- The ids in the room, and the own one. -/
def handleJoinToRoom (data : Fields D) : Except Raise Signal := do
  let connections ← match ← (Fields.get data "connections").asArray with
    | none => .ok none
    | some arr => (parseStrings castToString arr).map some
  let myId ← (Fields.get data "you").asString
  return .onJoinToRoom connections myId

/-- The id of a newcomer. -/
def handleRemoteInRoom (data : Fields D) : Except Raise Signal := do
  let socketId ← (Fields.get data "socketId").asString
  return .onRemoteJoinToRoom socketId

/-- A candidate of a peer; its `sdpMid` defaults to `video`. -/
def handleRemoteCandidate (data : Fields D) : Except Raise Signal := do
  let socketId ← (Fields.get data "socketId").asString
  let sdpMid ← (Fields.get data "id").asString
  let label ← (Fields.get data "label").parseDouble
  let candidate ← (Fields.get data "candidate").asString
  return .onRemoteIceCandidate socketId
    ⟨some (sdpMid.getD "video"), JavaDouble.intValue label, candidate⟩

/-- The id of a peer that has left. -/
def handleRemoteOutRoom (data : Fields D) : Except Raise Signal := do
  let socketId ← (Fields.get data "socketId").asString
  return .onRemoteOutRoom socketId

/-- The two descriptions differ in the callback they end in. -/
def handleDescription (callback : Option String → Option String → Signal) (data : Fields D) :
    Except Raise Signal := do
  let sdpDic ← (Fields.get data "sdp").asMap
  let socketId ← (Fields.get data "socketId").asString
  let sdpDic ← deref sdpDic
  let sdp ← (Fields.get sdpDic "sdp").asString
  return callback socketId sdp

/-- The description of an offer. -/
def handleOffer (data : Fields D) : Except Raise Signal :=
  handleDescription .onReceiveOffer data

/-- The description of an answer. -/
def handleAnswer (data : Fields D) : Except Raise Signal :=
  handleDescription .onReceiverAnswer data

/-- The handler of a received event. -/
def handler (eventName : String) : Option (Fields D → Except Raise Signal) :=
  if eventName = "_peers" then some (handleJoinToRoom castToString)
  else if eventName = "_new_peer" then some handleRemoteInRoom
  else if eventName = "_ice_candidate" then some handleRemoteCandidate
  else if eventName = "_remove_peer" then some handleRemoteOutRoom
  else if eventName = "_offer" then some handleOffer
  else if eventName = "_answer" then some handleAnswer
  else none

/-- `JSON.parseObject(message, Map.class)`; the JSON null gives a null map. -/
def parseMap (message : Text D) : Except Raise (Option (Fields D)) :=
  match message.tree with
  | none => .error .jsonSyntax
  | some .null => .ok none
  | some (.obj fs) => .ok (some fs)
  | some _ => .error .jsonSyntax

/-- A received text ends in at most one callback of the manager. -/
def handleMessage (message : Text D) : Except Raise (Option Signal) := do
  let map ← deref (← parseMap message)
  match ← (Fields.get map "eventName").asString with
  | none => return none
  | some eventName =>
    match handler castToString eventName with
    | none => return none
    | some handle =>
      -- every handler casts `data` to a map and skips a null one
      match ← (Fields.get map "data").asMap with
      | none => return none
      | some data => return some (← handle data)

end Receiving

end WsService

/-- What a client asks the server to relay. -/
inductive Relay where
  | offer (sdp : Option String)
  | answer (sdp : Option String)
  | candidate (iceCandidate : IceCandidate)

/-- The text of a relay, addressed to a peer. -/
def Relay.text [JavaDouble D] (socketId : Option String) : Relay → Text D
  | .offer sdp => WsService.sendOffer socketId sdp
  | .answer sdp => WsService.sendAnswer socketId sdp
  | .candidate iceCandidate => WsService.sendIceCandidate socketId iceCandidate

end WebrtcCaller
