import Mathlib
import WebrtcCaller.Turn.Allocation

/-!
# A relay session

The part of `ns_turn_server.c` that works on one allocation: the requests that bind channels and
install permissions, the data that is relayed in both directions, and the timers that take
permissions and channels away again. A request comes as its attributes, in the order of the
message; an address attribute that does not decode is `unspec`.
-/

namespace WebrtcCaller.Turn

/-- The settings of the server that the handlers read. -/
structure TurnServer where
  permissionLifetime : Nat
  channelLifetime : Nat
  serverRelay : Bool
  dontFragment : Bool
  goodPeerAddr : IoaAddr → Bool

/-- A session with its allocation; `relaySocket` says for which families it has a relay socket. -/
structure Session where
  alloc : Allocation
  isTcpRelay : Bool
  relaySocket : Family → Bool
  ctime : Nat

/-- The attributes of a request, as the handlers tell them apart. -/
inductive Attr
  | skipped
  | channelNumber (chnum : Nat)
  | xorPeerAddress (addr : IoaAddr)
  | data (value : List UInt8)
  | dontFragment
  | other (type : Nat)

/-- The type of an attribute on the wire. -/
def Attr.type : Attr → Nat
  | .skipped => 0x0006
  | .channelNumber _ => 0x000C
  | .xorPeerAddress _ => 0x0012
  | .data _ => 0x0013
  | .dontFragment => 0x001A
  | .other type => type

/-- What the client is answered; a request on an allocation that is not valid gets no answer from
its handler. -/
inductive Reply
  | success
  | error (errCode : Nat) (reason : Option String)
  | silent
  deriving DecidableEq

/-- What is relayed. -/
inductive Output
  | toPeer (peer : IoaAddr) (data : List UInt8)
  | toClientChannel (chnum : Nat) (data : List UInt8)
  | toClientData (peer : IoaAddr) (data : List UInt8)

/-- `MAX_NUMBER_OF_UNKNOWN_ATTRS`. -/
def maxNumberOfUnknownAttrs : Nat := 128

/-- The size of the buffer for a datagram, `UDP_STUN_BUFFER_SIZE`. -/
def udpStunBufferSize : Nat := 1024 <<< 4

/-- `STUN_CHANNEL_HEADER_LENGTH`. -/
def stunChannelHeaderLength : Nat := 4

/-- What a handler has gathered from the attributes so far. -/
structure Scan where
  chnum : Nat
  peerAddr : IoaAddr
  addrFound : Nat
  value : Option (List UInt8)
  setDf : Bool
  err : Option (Nat × String)
  unknownAttrs : List Nat

/-- Nothing has been found yet. -/
def Scan.start : Scan where
  chnum := 0
  peerAddr := .unspec
  addrFound := 0
  value := none
  setDf := false
  err := none
  unknownAttrs := []

/-- The `default` case of the handlers: attributes that would have to be understood. -/
def Scan.unknown (s : Scan) (a : Attr) : Scan :=
  if a.type ≤ 0x7FFF then { s with unknownAttrs := s.unknownAttrs ++ [a.type] } else s

/-- The loop over the attributes ends at an error, or with too many unknown attributes. -/
def scanAttrs (f : Scan → Attr → Scan) (attrs : List Attr) : Scan :=
  attrs.foldl
    (fun s a => if s.err.isSome ∨ maxNumberOfUnknownAttrs ≤ s.unknownAttrs.length then s else f s a)
    Scan.start

namespace Session

/-- `get_relay_socket`; what is not IPv6 goes to the IPv4 session. -/
def getRelaySocket (ss : Session) (addr : IoaAddr) : Bool :=
  match addr.family with
  | some .inet6 => ss.relaySocket .inet6
  | _ => ss.relaySocket .inet

/-- `send_data_from_ioa_socket_nbh` on the relay socket for the peer: without one nothing is
sent. -/
def sendToPeer (ss : Session) (peer : IoaAddr) (data : List UInt8) : List Output :=
  if ss.getRelaySocket peer then [.toPeer peer data] else []

/-- `update_turn_permission_lifetime`: a lifetime of zero stands for the one of permissions. -/
def updateTurnPermissionLifetime (srv : TurnServer) (ss : Session) (tinfo : Place)
    (timeDelta : Nat) : Session :=
  let timeDelta := if timeDelta = 0 then srv.permissionLifetime else timeDelta
  { ss with alloc := { ss.alloc with
      addrToPerm := ss.alloc.addrToPerm.modify tinfo fun p =>
        { p with lifetimeEv := some (ss.ctime + timeDelta) } } }

/-- `update_channel_lifetime`: the permission of the channel is prolonged with it. It fails when
the channel has no permission. -/
def updateChannelLifetime (srv : TurnServer) (ss : Session) (chn : Place) : Option Session :=
  (ss.alloc.chns.get chn).bind fun c =>
    (ss.alloc.addrToPerm.get c.owner).map fun _ =>
      let ss := ss.updateTurnPermissionLifetime srv c.owner srv.channelLifetime
      { ss with alloc := { ss.alloc with
          chns := ss.alloc.chns.modify chn fun c =>
            { c with lifetimeEv := some (ss.ctime + srv.channelLifetime) } } }

/-- The attributes of a channel bind request. -/
def scanChannelBind (ss : Session) (s : Scan) : Attr → Scan
  | .skipped => s
  | .channelNumber chnum =>
    if s.chnum ≠ 0 then
      { s with
        chnum := 0
        err := some (400, "Channel number cannot be duplicated in this request") }
    else if chnum = 0 then
      { s with chnum := 0, err := some (400, "Channel number cannot be zero in this request") }
    else { s with chnum := chnum }
  | .xorPeerAddress addr =>
    let s := { s with peerAddr := addr }
    let s := if ss.getRelaySocket addr then s
      else { s with err := some (443, "Peer Address Family Mismatch (3)") }
    if addrGetPort addr < 1 then
      { s with err := some (400, "Empty port number in channel bind request") }
    else { s with addrFound := 1 }
  | a => s.unknown a

/-- A channel number and a peer that passed the checks of the request: the channel is the one
already bound, or a new one. -/
def bindChannel (srv : TurnServer) (ss : Session) (chnum : Nat) (peerAddr : IoaAddr) :
    Reply × Session :=
  let prolong (ss : Session) (chn : Place) : Reply × Session :=
    match ss.updateChannelLifetime srv chn with
    | none => (.error 500 (some "Cannot update channel lifetime (internal error)"), ss)
    | some ss => (.success, ss)
  match ss.alloc.getChInfo chnum with
  | some chn =>
    match ss.alloc.chns.get chn with
    | none => (.error 500 (some "Wrong permission info"), ss)
    | some c =>
      if !addrEq peerAddr c.peerAddr then
        (.error 400 (some "You cannot use the same channel number with different peer"), ss)
      else
        match ss.alloc.addrToPerm.get c.owner with
        | none => (.error 500 (some "Wrong permission info"), ss)
        | some p =>
          if !addrEqNoPort peerAddr p.addr then
            (.error 500 (some "Wrong permission info and peer addr combination"), ss)
          else if c.port ≠ addrGetPort peerAddr then (.error 500 (some "Wrong port number"), ss)
          else prolong ss chn
  | none =>
    match ss.alloc.getChInfoByPeerAddr peerAddr with
    | some _ =>
      (.error 400 (some "You cannot use the same peer with different channel number"), ss)
    | none =>
      if !srv.goodPeerAddr peerAddr then (.error 403 (some "Forbidden IP"), ss)
      else
        let (chn, alloc) := ss.alloc.getNewChInfo chnum peerAddr
        prolong { ss with alloc := alloc } chn

/-- What a scanned channel bind request asks for, or why it is refused. -/
def channelBindRequest (s : Scan) : Except Reply (Nat × IoaAddr) :=
  if s.unknownAttrs ≠ [] then .error (.error 420 (s.err.map (·.2)))
  else
    match s.err with
    | some (code, reason) => .error (.error code (some reason))
    | none =>
      if s.chnum = 0 ∨ addrAny s.peerAddr ∨ s.addrFound = 0 then
        .error (.error 400 (some "Bad channel bind request"))
      else if !stunValidChannel s.chnum then .error (.error 400 (some "Bad channel number"))
      else .ok (s.chnum, s.peerAddr)

/-- `handle_turn_channel_bind`. -/
def handleTurnChannelBind (srv : TurnServer) (ss : Session) (attrs : List Attr) :
    Reply × Session :=
  if ss.isTcpRelay then
    (.error 403 (some "Channel bind cannot be used with TCP relay"), ss)
  else if ss.alloc.isValid then
    match channelBindRequest (scanAttrs ss.scanChannelBind attrs) with
    | .error reply => (reply, ss)
    | .ok (chnum, peerAddr) => ss.bindChannel srv chnum peerAddr
  else (.silent, ss)

/-- `update_permission`. The port of the address is zero here, so no channel is found to be
prolonged with the permission. -/
def updatePermission (srv : TurnServer) (ss : Session) (peerAddr : IoaAddr) : Option Session :=
  let (tinfo, alloc) := ss.alloc.permissionFor peerAddr
  let ss := { ss with alloc := alloc }.updateTurnPermissionLifetime srv tinfo 0
  match ss.alloc.getTurnChannel tinfo peerAddr with
  | some chn => ss.updateChannelLifetime srv chn
  | none => some ss

/-- The first pass over the attributes of a permission request. -/
def scanCreatePermission (srv : TurnServer) (ss : Session) (s : Scan) : Attr → Scan
  | .skipped => s
  | .xorPeerAddress addr =>
    if !ss.getRelaySocket addr then
      { s with err := some (443, "Peer Address Family Mismatch (4)") }
    else if !srv.goodPeerAddr addr then { s with err := some (403, "Forbidden IP") }
    else { s with addrFound := s.addrFound + 1 }
  | a => s.unknown a

/-- The second pass: every address is given its permission. -/
def installPermissions (srv : TurnServer) (reply : Reply) (ss : Session) :
    List Attr → Reply × Session
  | [] => (reply, ss)
  | .xorPeerAddress addr :: attrs =>
    match ss.updatePermission srv (addrSetPort 0 addr) with
    | some ss => ss.installPermissions srv reply attrs
    | none => ss.installPermissions srv (.error 500
        (some "Cannot update some permissions (critical server software error)")) attrs
  | _ :: attrs => ss.installPermissions srv reply attrs

/-- `handle_turn_create_permission`. -/
def handleTurnCreatePermission (srv : TurnServer) (ss : Session) (attrs : List Attr) :
    Reply × Session :=
  if ss.alloc.isValid then
    let s := scanAttrs (ss.scanCreatePermission srv) attrs
    if s.unknownAttrs ≠ [] then (.error 420 (s.err.map (·.2)), ss)
    else
      match s.err with
      | some (code, reason) => (.error code (some reason), ss)
      | none =>
        if s.addrFound = 0 then (.error 400 (some "No address found"), ss)
        else ss.installPermissions srv .success attrs
  else (.silent, ss)

/-- The attributes of a send indication. -/
def scanSend (srv : TurnServer) (s : Scan) : Attr → Scan
  | .skipped => s
  | .dontFragment => if srv.dontFragment then { s with setDf := true } else s.unknown .dontFragment
  | .xorPeerAddress addr =>
    if s.addrFound ≠ 0 then { s with err := some (400, "Address duplication") }
    else { s with peerAddr := addr }
  | .data value =>
    if s.value.isSome then { s with err := some (400, "Data duplication") }
    else { s with value := some value }
  | a => s.unknown a

/-- `handle_turn_send`: without a permission the data are dropped. -/
def handleTurnSend (srv : TurnServer) (ss : Session) (recvTtl : Nat) (attrs : List Attr) :
    Reply × List Output :=
  if ss.isTcpRelay then (.error 403 (some "Send cannot be used with TCP relay"), [])
  else if ss.alloc.isValid ∧ recvTtl ≠ 0 then
    let s := scanAttrs (scanSend srv) attrs
    match s.err with
    | some (code, reason) => (.error code (some reason), [])
    | none =>
      if s.unknownAttrs ≠ [] then (.error 420 none, [])
      else
        match addrAny s.peerAddr, s.value with
        | false, some value =>
          if (ss.alloc.getPermission s.peerAddr).isSome ∨ srv.serverRelay then
            (.silent, ss.sendToPeer s.peerAddr value)
          else (.silent, [])
        | _, _ => (.error 400 (some "No address found"), [])
  else (.silent, [])

/-- `write_to_peerchannel`. -/
def writeToPeerchannel (ss : Session) (recvTtl chnum : Nat) (data : List UInt8) : List Output :=
  if recvTtl ≠ 0 ∧ ss.alloc.isValid then
    match (ss.alloc.getChInfo chnum).bind ss.alloc.chns.get with
    | some chn => ss.sendToPeer chn.peerAddr data
    | none => []
  else []

/-- `get_turn_channel_number`. -/
def getTurnChannelNumber (ss : Session) (tinfo : Place) (addr : IoaAddr) : Nat :=
  match (ss.alloc.getTurnChannel tinfo addr).bind ss.alloc.chns.get with
  | some chn => chn.chnum
  | none => 0

/-- What is left of the data of a peer in a UDP buffer, behind room for a channel header. -/
def peerDataKept (data : List UInt8) : List UInt8 :=
  data.take (udpStunBufferSize - stunChannelHeaderLength)

/-- `peer_input_handler`. -/
def peerInputHandler (srv : TurnServer) (ss : Session) (recvTtl : Nat) (srcAddr : IoaAddr)
    (data : List UInt8) : List Output :=
  let data := peerDataKept data
  if recvTtl = 0 ∨ !ss.getRelaySocket srcAddr ∨ !ss.alloc.isValid then []
  else
    match ss.alloc.getPermission srcAddr with
    | some tinfo =>
      let chnum := ss.getTurnChannelNumber tinfo srcAddr
      if chnum ≠ 0 then [.toClientChannel chnum data] else [.toClientData srcAddr data]
    | none => if srv.serverRelay then [.toClientData srcAddr data] else []

/-- Everything that can happen to a session once it has its allocation. -/
inductive Event
  | channelBind (attrs : List Attr)
  | createPermission (attrs : List Attr)
  | send (recvTtl : Nat) (attrs : List Attr)
  | channelData (recvTtl chnum : Nat) (data : List UInt8)
  | peerData (recvTtl : Nat) (srcAddr : IoaAddr) (data : List UInt8)
  | channelTimeout (chn : Place)
  | permTimeout (tinfo : Place)
  | tick (now : Nat)
  | clear

/-- The session after an event. -/
def step (srv : TurnServer) (ss : Session) : Event → Session
  | .channelBind attrs => (ss.handleTurnChannelBind srv attrs).2
  | .createPermission attrs => (ss.handleTurnCreatePermission srv attrs).2
  | .send _ _ => ss
  | .channelData _ _ _ => ss
  | .peerData _ _ _ => ss
  | .channelTimeout chn => { ss with alloc := ss.alloc.turnChannelDelete chn }
  | .permTimeout tinfo => { ss with alloc := ss.alloc.turnPermissionClean tinfo }
  | .tick now => { ss with ctime := now }
  | .clear => { ss with alloc := initAllocation }

/-- What the client is answered. -/
def reply (srv : TurnServer) (ss : Session) : Event → Reply
  | .channelBind attrs => (ss.handleTurnChannelBind srv attrs).1
  | .createPermission attrs => (ss.handleTurnCreatePermission srv attrs).1
  | .send recvTtl attrs => (ss.handleTurnSend srv recvTtl attrs).1
  | _ => .silent

/-- What leaves the server. -/
def relayed (srv : TurnServer) (ss : Session) : Event → List Output
  | .send recvTtl attrs => (ss.handleTurnSend srv recvTtl attrs).2
  | .channelData recvTtl chnum data => ss.writeToPeerchannel recvTtl chnum data
  | .peerData recvTtl srcAddr data => ss.peerInputHandler srv recvTtl srcAddr data
  | _ => []

/-- A session that has just been given its allocation. -/
def fresh (isTcpRelay : Bool) (relaySocket : Family → Bool) (ctime : Nat) : Session where
  alloc := { initAllocation with isValid := true }
  isTcpRelay := isTcpRelay
  relaySocket := relaySocket
  ctime := ctime

end Session

end WebrtcCaller.Turn
