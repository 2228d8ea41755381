import Mathlib.Data.List.AList
import WebrtcCaller.Client.Sdp
import WebrtcCaller.Client.WsService
import WebrtcCaller.Core.Task

/-!
# The peer service

`PeerService` keeps one `Peer` for each member of the room it has heard of and
runs every callback on a single-threaded executor, so each callback is one
task. What a task does to the native library and to the view is its output, in
order. The creation of native objects is taken to succeed; whether the native
library takes a remote description or candidate is a parameter of the tasks
that hand one over.
-/

namespace WebrtcCaller

/-- Who started the negotiation last touched. -/
inductive Role where
  | Caller
  | Receiver
  deriving DecidableEq, Repr

/-- The kind of a session description. -/
inductive SdpType where
  | OFFER
  | ANSWER
  deriving DecidableEq, Repr

/-- The native objects a call creates. -/
inductive Resource where
  | peerFactory
  | localStream
  | audioSource
  | captureAndroid
  | surfaceTextureHelper
  | videoSource
  | peerConnection
  deriving DecidableEq, Repr

/-- A peer of the call: its connection, by creation number, and its socket id. -/
structure Peer where
  pc : Nat
  socketId : Option String
  deriving DecidableEq, Repr

/-- What a task does outside its own state. -/
inductive Effect where
  | create (resource : Resource) (number : Nat)
  | dispose (resource : Resource) (number : Nat)
  | stopCapture (number : Nat)
  | addStream (peer : Peer) (stream : Nat)
  | createOffer (peer : Peer)
  | setRemoteDescription (peer : Peer) (type : SdpType) (description : Option String)
  | addIceCandidate (peer : Peer) (iceCandidate : IceCandidate)
  | close (pc : Nat)
  | onSetLocalStream (stream : Nat) (myId : Option String)
  | onCloseWithId (id : Option String)
  | closeWebSocket

/-- Whether a native call returns normally. -/
structure Native where
  setRemoteDescription : SdpType → Option String → Bool
  addIceCandidate : IceCandidate → Bool

/-- A native library that takes everything. -/
def Native.lenient : Native := ⟨fun _ _ => true, fun _ => true⟩

/-- The fields of the service; a native object is known by its creation number. -/
structure PeerService where
  peerFactory : Option Nat
  localStream : Option Nat
  captureAndroid : Option Nat
  videoSource : Option Nat
  audioSource : Option Nat
  surfaceTextureHelper : Option Nat
  /-- The ids of the peers, in the order they were heard of. -/
  connectionIdArray : List (Option String)
  connectionPeerDic : AList fun _ : Option String => Peer
  myId : Option String
  /-- A view callback is set. -/
  viewCallback : Bool
  videoEnable : Bool
  mediaType : Int32
  role : Option Role
  /-- The signalling client is still held. -/
  webSocket : Bool
  /-- `initContext` has run, so `context` and `eglBase` are set. -/
  context : Bool
  /-- How many native objects have been created so far. -/
  created : Nat

/-- A task of the executor. -/
abbrev PeerTask (α : Type) := Task PeerService Effect Raise α

namespace PeerService

/-- A new service holding its signalling client. -/
def init : PeerService :=
  ⟨none, none, none, none, none, none, [], ∅, none, false, false, 0, none, true, false, 0⟩

/-- The video codec that is put in front. -/
def VIDEO_CODEC_H264 : String := "H264"

/-- `ManagerImpl.joinRoom` hands over the context before it asks to join. -/
def initContext (service : PeerService) : PeerService := { service with context := true }

/-- A new native object. -/
def create (resource : Resource) : PeerTask Nat := do
  let number := (← Task.get).created
  Task.emit (.create resource number)
  Task.modify fun service => { service with created := number + 1 }
  return number

/-- `eglBase.getEglBaseContext()` raises before `initContext`. -/
def createConnectionFactory : PeerTask Nat := do
  let service ← Task.get
  Task.ofExcept (if service.context then .ok () else .error .nullPointer)
  create .peerFactory

/-- The capturer and its source, when the call has video. -/
def createVideo : PeerTask Unit := do
  let capture ← create .captureAndroid
  Task.modify fun service => { service with captureAndroid := some capture }
  let helper ← create .surfaceTextureHelper
  Task.modify fun service => { service with surfaceTextureHelper := some helper }
  let video ← create .videoSource
  Task.modify fun service => { service with videoSource := some video }

/-- The stream of the own tracks; without a factory it raises. -/
def createLocalStream : PeerTask Unit := do
  -- every object below is made by the factory
  let _ ← Task.ofExcept (deref (← Task.get).peerFactory)
  let stream ← create .localStream
  Task.modify fun service => { service with localStream := some stream }
  let audio ← create .audioSource
  Task.modify fun service => { service with audioSource := some audio }
  Task.whenever (·.videoEnable) createVideo
  let myId := (← Task.get).myId
  Task.whenever (·.viewCallback) (Task.emit (.onSetLocalStream stream myId))

/-- `if (localStream == null) createLocalStream()`. -/
def ensureLocalStream : PeerTask Unit :=
  Task.whenever (·.localStream.isNone) createLocalStream

/-- `if (peerFactory == null) peerFactory = createConnectionFactory()`. -/
def ensureFactory : PeerTask Unit :=
  Task.whenever (·.peerFactory.isNone) do
    let factory ← createConnectionFactory
    Task.modify fun service => { service with peerFactory := some factory }

/-- `new Peer(socketId)`. -/
def newPeer (socketId : Option String) : PeerTask Peer := do
  ensureFactory
  let pc ← create .peerConnection
  return ⟨pc, socketId⟩

/-- `connectionPeerDic.put(socketId, peer)`. -/
def putPeer (socketId : Option String) (peer : Peer) : PeerTask Unit :=
  Task.modify fun service =>
    { service with connectionPeerDic := service.connectionPeerDic.insert socketId peer }

/-- A connection for every listed id, in the place of one that is there. -/
def createPeerConnections : PeerTask Unit := do
  (← Task.get).connectionIdArray.forM fun str => do
    let peer ← newPeer str
    putPeer str peer

/-- The body of the loop of `addStreams`, with its catch. -/
def addStream (peer : Peer) : PeerTask Unit := do
  ensureLocalStream
  Task.swallow do
    let stream ← Task.ofExcept (deref (← Task.get).localStream)
    Task.emit (.addStream peer stream)

/-- The local stream goes to every peer. -/
def addStreams : PeerTask Unit := do
  (← Task.get).connectionPeerDic.entries.forM fun entry => addStream entry.2

/-- An offer is asked for at every peer, in the role of the caller. -/
def createOffers : PeerTask Unit := do
  (← Task.get).connectionPeerDic.entries.forM fun entry => do
    Task.modify fun service => { service with role := some .Caller }
    Task.emit (.createOffer entry.2)

/-- The peer under the id is closed and forgotten. -/
def closePeerConnection (connectionId : Option String) : PeerTask Unit := do
  Task.whenSome (·.connectionPeerDic.lookup connectionId) fun mPeer => Task.emit (.close mPeer.pc)
  Task.modify fun service =>
    { service with connectionPeerDic := service.connectionPeerDic.erase connectionId }
  Task.modify fun service =>
    { service with connectionIdArray := service.connectionIdArray.erase connectionId }
  Task.whenever (·.viewCallback) (Task.emit (.onCloseWithId connectionId))

/-- The task of `onJoinToRoom` up to its offers. -/
def enterRoom (connections : Option (List (Option String))) (myId : Option String) :
    PeerTask Unit := do
  let connections ← Task.ofExcept (deref connections)
  Task.modify fun service =>
    { service with connectionIdArray := service.connectionIdArray ++ connections }
  Task.modify fun service => { service with myId := myId }
  ensureFactory
  ensureLocalStream
  createPeerConnections
  addStreams

/-- `videoEnable` and `mediaType` are set by the caller's thread, before the task. -/
def onJoinToRoom (connections : Option (List (Option String))) (myId : Option String)
    (isVideoEnable : Bool) (mediaType : Int32) : PeerTask Unit := do
  Task.modify fun service => { service with videoEnable := isVideoEnable, mediaType := mediaType }
  enterRoom connections myId
  createOffers

/-- The newcomer gets a connection with the local stream; it is the newcomer that offers. -/
def onRemoteJoinToRoom (socketId : Option String) : PeerTask Unit := do
  ensureLocalStream
  Task.swallow do
    let mPeer ← newPeer socketId
    let stream ← Task.ofExcept (deref (← Task.get).localStream)
    Task.emit (.addStream mPeer stream)
    Task.modify fun service =>
      { service with connectionIdArray := service.connectionIdArray ++ [socketId] }
    putPeer socketId mPeer

/-- The peer that has left is forgotten. -/
def onRemoteOutRoom (socketId : Option String) : PeerTask Unit := closePeerConnection socketId

section Relayed

variable (native : Native)

/-- A candidate of a stranger is dropped. -/
def onRemoteIceCandidate (socketId : Option String) (iceCandidate : IceCandidate) :
    PeerTask Unit :=
  Task.whenSome (·.connectionPeerDic.lookup socketId) fun peer =>
    if native.addIceCandidate iceCandidate then Task.emit (.addIceCandidate peer iceCandidate)
    else Task.raise .native

/-- Handing a remote description to a peer that may be missing. -/
def setRemoteDescription (mPeer : Option Peer) (type : SdpType) (description : Option String) :
    PeerTask Unit :=
  Task.whenSome (fun _ => mPeer) fun peer =>
    if native.setRemoteDescription type description then
      Task.emit (.setRemoteDescription peer type description)
    else Task.raise .native

/-- `preferCodec(description, VIDEO_CODEC_H264, false)` splits its argument first. -/
def preferred (description : Option String) : Except Raise (Option String) :=
  (deref description).map fun text => some (preferCodec text VIDEO_CODEC_H264 false)

/-- The role changes whether or not the offer is from a known peer. -/
def onReceiveOffer (socketId description : Option String) : PeerTask Unit := do
  Task.modify fun service => { service with role := some .Receiver }
  let service ← Task.get
  let mPeer := service.connectionPeerDic.lookup socketId
  let sessionDescription ←
    Task.ofExcept (if service.videoEnable then preferred description else .ok description)
  setRemoteDescription native mPeer .OFFER sessionDescription

/-- An answer of a stranger is dropped. -/
def onReceiverAnswer (socketId sdp : Option String) : PeerTask Unit := do
  let mPeer := (← Task.get).connectionPeerDic.lookup socketId
  setRemoteDescription native mPeer .ANSWER sdp

/-- The callback of the manager, run to the end of its executor task. -/
def callback (videoEnable : Bool) (mediaType : Int32) : Signal → PeerTask Unit
  | .onJoinToRoom connections myId => onJoinToRoom connections myId videoEnable mediaType
  | .onRemoteJoinToRoom socketId => onRemoteJoinToRoom socketId
  | .onRemoteIceCandidate socketId iceCandidate =>
    onRemoteIceCandidate native socketId iceCandidate
  | .onRemoteOutRoom socketId => onRemoteOutRoom socketId
  | .onReceiveOffer socketId sdp => onReceiveOffer native socketId sdp
  | .onReceiverAnswer socketId sdp => onReceiverAnswer native socketId sdp

end Relayed

/-- Release one held native object, if it is there. -/
def release (resource : Resource) (field : PeerService → Option Nat)
    (clear : PeerService → PeerService) : PeerTask Unit :=
  Task.whenSome field fun number => do
    Task.emit (.dispose resource number)
    Task.modify clear

/-- The view callback is dropped by the caller's thread, before the task. -/
def exitRoom : PeerTask Unit := do
  Task.modify fun service => { service with viewCallback := false }
  (← Task.get).connectionIdArray.forM closePeerConnection
  Task.modify fun service => { service with connectionIdArray := [] }
  release .audioSource (·.audioSource) fun service => { service with audioSource := none }
  release .videoSource (·.videoSource) fun service => { service with videoSource := none }
  Task.whenSome (·.captureAndroid) fun number => do
    Task.emit (.stopCapture number)
    Task.emit (.dispose .captureAndroid number)
    Task.modify fun service => { service with captureAndroid := none }
  release .surfaceTextureHelper (·.surfaceTextureHelper) fun service =>
    { service with surfaceTextureHelper := none }
  release .peerFactory (·.peerFactory) fun service => { service with peerFactory := none }
  Task.whenever (·.webSocket) do
    Task.emit .closeWebSocket
    Task.modify fun service => { service with webSocket := false }

end PeerService

end WebrtcCaller
