import WebrtcCaller.Server.Signalling

/-!
# What one runner task does

Each task is equated with an explicit outcome: the registries it leaves, the
texts it sends and the raise that ends it, for any set of failing sessions.
Later files use these outcomes and never unfold a handler again.
-/

namespace WebrtcCaller

namespace SignallingServer

variable {D : Type} [JavaDouble D] (fails : Session → Bool)

/-- The members of a room that hear about `socket`. -/
def others (server : SignallingServer) (name : String) (socket : Session) : List Session :=
  (server.room name).filter (·.id ≠ socket.id)

theorem mem_others {server : SignallingServer} {name : String} {socket x : Session} :
    x ∈ server.others name socket ↔ x ∈ server.room name ∧ x ≠ socket := by
  simp [others, Session.ext_iff]

/-- `socket` appended to a room and filed under it. -/
def registered (server : SignallingServer) (name : String) (socket : Session) :
    SignallingServer :=
  { server with
    rooms := server.rooms.insert name (server.room name ++ [socket])
    roomList := server.roomList.insert socket.id name }

/-- `session` taken out of the three registries that hold it. -/
def unregistered (server : SignallingServer) (name : String) (session : Session) :
    SignallingServer :=
  { server with
    sockets := server.sockets.erase session
    rooms := server.rooms.insert name ((server.room name).erase session)
    roomList := server.roomList.erase session.id }

/-- The notice sent to the member `dst`. -/
def notice (send : SignallingData D) (dst : Session) : Sent D := ⟨dst, Text.ofJson send.tree⟩

/-- The broadcast of a join, the registration behind it, the answer behind that. -/
def joinOutcome (name : String) (socket : Session) (server : SignallingServer) :
    Outcome SignallingServer (Sent D) Raise Unit :=
  let others := server.others name socket
  if others.any fails then
    ⟨.error .sendText, server, (others.takeWhile (!fails ·)).map (notice (newPeer socket))⟩
  else if fails socket then
    ⟨.error .sendText, server.registered name socket, others.map (notice (newPeer socket))⟩
  else
    ⟨.ok (), server.registered name socket, others.map (notice (newPeer socket)) ++
      [notice (peers (others.map (·.id)) socket) socket]⟩

/-- The broadcast of a close and the removal behind it; a session that never
joined only leaves `sockets`, and the task then raises. -/
def closeOutcome (session : Session) (server : SignallingServer) :
    Outcome SignallingServer (Sent D) Raise Unit :=
  match server.roomList.lookup session.id with
  | none =>
    ⟨.error .nullPointer, { server with sockets := server.sockets.erase session }, []⟩
  | some name =>
    match server.rooms.lookup name with
    | none => ⟨.error .nullPointer, server, []⟩
    | some _ =>
      let others := server.others name session
      if others.any fails then
        ⟨.error .sendText, server,
          (others.takeWhile (!fails ·)).map (notice (removePeer session))⟩
      else
        ⟨.ok (), server.unregistered name session, others.map (notice (removePeer session))⟩

/-- Strings are finite. -/
theorem allFinite_strings (ids : List String) :
    Json.allFiniteElems (ids.map (Json.str : String → Json D)) = true := by
  induction ids with
  | nil => rfl
  | cons i ids ih => simpa [Json.allFiniteElems, Json.allFinite] using ih

omit [JavaDouble D] in
/-- Ids are written as they are. -/
theorem writtenElems_strings (ids : List String) :
    Json.writtenElems (ids.map (Json.str : String → Json D)) = ids.map .str := by
  induction ids with
  | nil => rfl
  | cons i ids ih => simpa [Json.writtenElems, Json.written] using ih

@[simp] theorem toJson_newPeer (socket : Session) :
    (newPeer socket : SignallingData D).toJson = .ok (Text.ofJson (newPeer socket).tree) := rfl

@[simp] theorem toJson_removePeer (socket : Session) :
    (removePeer socket : SignallingData D).toJson =
      .ok (Text.ofJson (removePeer socket).tree) := rfl

@[simp] theorem toJson_peers (ids : List String) (socket : Session) :
    (peers ids socket : SignallingData D).toJson =
      .ok (Text.ofJson (peers ids socket).tree) := by
  have h : (peers ids socket : SignallingData D).tree.allFinite = true := by
    simp [SignallingData.tree, peers, Json.allFinite, Json.allFiniteFields, allFinite_strings]
  simp [SignallingData.toJson, h]

omit [JavaDouble D] in
/-- A send either succeeds or raises, and never changes a registry. -/
theorem run_sendText (session : Session) (text : Text D) (server : SignallingServer) :
    (sendText fails session text).run server =
      if fails session then ⟨.error .sendText, server, []⟩
      else ⟨.ok (), server, [⟨session, text⟩]⟩ := by
  unfold sendText
  by_cases h : fails session = true <;> simp [h]

/-- A broadcast reaches the members before the first failing one and touches
no registry; without a failing member it returns everyone's id. -/
theorem run_broadcast {send : SignallingData D} (hsend : send.toJson = .ok (Text.ofJson send.tree))
    (socket : Session) (name : String) (server : SignallingServer) :
    (broadcast fails send socket (server.room name)).run server =
      ⟨if (server.others name socket).any fails then .error .sendText
        else .ok ((server.others name socket).map (·.id)), server,
        ((server.others name socket).takeWhile (!fails ·)).map (notice send)⟩ := by
  have hskip : (server.room name).filter (fun m => !decide (socket.id = m.id)) =
      server.others name socket := by
    simp [others, eq_comm]
  have hids (xs : List Session) (ids : List String) :
      xs.foldl (fun ids m => ids ++ [m.id]) ids = ids ++ xs.map (·.id) := by
    induction xs generalizing ids with
    | nil => simp
    | cons x xs ih => simp [ih]
  have hbody (ids : List String) (m : Session) (s : SignallingServer) :
      (if socket.id = m.id then pure ids
        else do
          let text ← Task.ofExcept send.toJson
          sendText fails m text
          return ids ++ [m.id] : ServerTask D (List String)).run s =
      if decide (socket.id = m.id) then ⟨.ok ids, s, []⟩
      else if fails m then ⟨.error .sendText, s, []⟩
      else ⟨.ok (ids ++ [m.id]), s, [notice send m]⟩ := by
    by_cases hs : socket.id = m.id
    · simp [hs]
    · by_cases hb : fails m = true <;> simp [hs, hb, hsend, run_sendText, notice]
  have hloop := @Task.run_foldlM_emit _ _ _ _ _ _ (fun m => decide (socket.id = m.id)) fails
    (fun ids m => ids ++ [m.id]) (notice send) Raise.sendText hbody (server.room name) [] server
  rw [hskip, hids, List.nil_append] at hloop
  exact hloop

/-- Nobody failing, the whole list is told. -/
theorem takeWhile_not_of_any_false {xs : List Session} (h : ¬xs.any fails = true) :
    xs.takeWhile (!fails ·) = xs := by
  rw [List.takeWhile_eq_self_iff]
  simpa using h

/-- A join comes to the outcome described. -/
theorem run_join (data : Fields D) (socket : Session) (server : SignallingServer) :
    (join fails (some data) socket).run server =
      joinOutcome fails (joinedRoom data) socket server := by
  simp only [join, deref, Task.run_bind, Task.run_ofExcept, Outcome.andThen_ok, Task.run_get,
    run_broadcast fails (toJson_newPeer socket), joinOutcome, List.nil_append]
  by_cases ho : (server.others (joinedRoom data) socket).any fails = true
  · simp only [ho, if_true, Outcome.andThen_error]
  · have hs : fails socket = true ∨ fails socket = false := by cases fails socket <;> simp
    rw [takeWhile_not_of_any_false fails ho]
    rcases hs with hs | hs <;>
      simp [ho, hs, run_sendText, registered, notice]

omit [JavaDouble D] in
/-- An open registers the session and its user. -/
theorem run_onOpen (session : Session) (userId : String) (server : SignallingServer) :
    (onOpen session userId : ServerTask D Unit).run server =
      ⟨.ok (), { server with
        sockets := if session ∈ server.sockets then server.sockets
          else server.sockets ++ [session]
        userIds := server.userIds.insert userId session }, []⟩ := by
  by_cases h : session ∈ server.sockets
  · simp [onOpen, addSocket, h]
  · simp [onOpen, addSocket, h]

/-- A close comes to the outcome described. -/
theorem run_onClose (session : Session) (server : SignallingServer) :
    (onClose fails session : ServerTask D Unit).run server =
      closeOutcome fails session server := by
  unfold onClose closeOutcome
  cases hr : server.roomList.lookup session.id with
  | none => simp [removeSocket, hr, deref]
  | some name =>
    cases hl : server.rooms.lookup name with
    | none => simp [hr, hl, deref]
    | some curRoom =>
      have hroom : curRoom = server.room name := by simp [room, bucket, hl]
      subst hroom
      simp only [Task.run_bind, Task.run_get, Outcome.andThen_ok, hr, hl, deref,
        Task.run_ofExcept, run_broadcast fails (toJson_removePeer session), List.nil_append]
      by_cases ho : (server.others name session).any fails = true
      · simp [ho]
      · rw [takeWhile_not_of_any_false fails ho]
        simp [ho, removeSocket, hr, hl, deref, unregistered]

/-- The event name and data of a text that reaches the switch of `handleMessage`. -/
def request (message : Text D) : Option (String × Option (Fields D)) :=
  if message.contains "eventName" then
    match SignallingData.fromJson message with
    | .ok (some ⟨some eventName, data⟩) => some (eventName, data)
    | _ => none
  else none

/-- The room a text makes its sender join, if it makes it join at all. -/
def joinTarget (message : Text D) : Option String :=
  match request message with
  | some (eventName, some data) => if eventName = "__join" then some (joinedRoom data) else none
  | _ => none

/-- The id a relay request is addressed to. -/
def addressee (message : Text D) : Option String :=
  match request message with
  | some (_, some data) => (Fields.get data "socketId").deref.toOption
  | _ => none

/-- A text that is written is the text of the bean. -/
theorem toJson_eq_ok {send : SignallingData D} {text : Text D} (h : send.toJson = .ok text) :
    text = Text.ofJson send.tree := by
  unfold SignallingData.toJson at h
  split at h
  · exact (Except.ok.inj h).symm
  · cases h

/-- The relayed events, each with the members its handler stores back. -/
def relays : List (String × List String) :=
  [("_ice_candidate", ["id", "label", "candidate"]), ("_offer", ["sdp"]), ("_answer", ["sdp"])]

/-- A relay leaves the registries alone and sends at most one text, to the connected
session it is addressed to, with the sender's id written over `socketId`. -/
theorem relay_cases (eventName : String) (keys : List String) (data : Option (Fields D))
    (socket : Session) (server : SignallingServer) :
    ((relay fails eventName keys data socket).run server).state = server ∧
      (((relay fails eventName keys data socket).run server).out = [] ∨
        ∃ fs dst, (dst ∈ server.sockets ∧ data = some fs ∧
            (Fields.get fs "socketId").deref = .ok dst.id) ∧
          ((relay fails eventName keys data socket).run server).out =
            [notice (relayed eventName keys fs socket) dst]) := by
  cases data with
  | none => simp [relay, deref]
  | some data =>
    cases hid : (Fields.get data "socketId").deref with
    | error e => simp [relay, deref, hid]
    | ok socketId =>
      cases hs : getSocket server socketId with
      | none => simp [relay, deref, hid, hs]
      | some dst =>
        have hdst : dst ∈ server.sockets := List.mem_of_find?_eq_some hs
        have hdid : dst.id = socketId := by
          rw [getSocket] at hs
          simpa using List.find?_some hs
        cases hj : (relayed eventName keys data socket).toJson with
        | error e => simp [relay, deref, hid, hs, hj]
        | ok text =>
          by_cases hf : fails dst = true
          · simp [relay, deref, hid, hs, hj, run_sendText, hf]
          · simp only [relay, deref, hid, hs, hj, run_sendText, hf, Task.run_bind,
              Task.run_ofExcept, Task.run_get, Outcome.andThen_ok, List.nil_append]
            refine ⟨rfl, Or.inr ⟨data, dst, ⟨hdst, rfl, hdid ▸ hid⟩, ?_⟩⟩
            simp [notice, toJson_eq_ok hj]

/-- A text that does not reach the switch has no effect. -/
theorem run_onMessage_of_request_none {message : Text D} (h : request message = none)
    (session : Session) (server : SignallingServer) :
    ((onMessage fails message session).run server).state = server ∧
      ((onMessage fails message session).run server).out = [] := by
  unfold request at h
  by_cases hc : message.contains "eventName" = true
  · simp only [hc, if_true] at h
    simp only [onMessage, hc, if_true, handleMessage, Task.run_bind, Task.run_ofExcept]
    rcases hp : SignallingData.fromJson message with e | bean
    · simp
    · rcases bean with _ | ⟨_ | eventName, data⟩
      · simp [deref]
      · simp [deref]
      · simp [hp] at h
  · simp [onMessage, hc]

/-- A text that reaches the switch runs the handler of its event. -/
theorem run_onMessage_of_request {message : Text D} {eventName : String}
    {data : Option (Fields D)} (h : request message = some (eventName, data))
    (session : Session) (server : SignallingServer) :
    (onMessage fails message session).run server =
      (if eventName = "__join" then join fails data session
        else if eventName = "__ice_candidate" then iceCandidate fails data session
        else if eventName = "__offer" then offer fails data session
        else if eventName = "__answer" then answer fails data session
        else pure ()).run server := by
  unfold request at h
  by_cases hc : message.contains "eventName" = true
  · simp only [hc, if_true] at h
    rcases hp : SignallingData.fromJson message with e | _ | ⟨_ | name, fs⟩
    · simp [hp] at h
    · simp [hp] at h
    · simp [hp] at h
    · simp only [hp, Option.some.injEq, Prod.mk.injEq] at h
      obtain ⟨rfl, rfl⟩ := h
      simp [onMessage, hc, handleMessage, hp, deref]
  · simp [hc] at h

/-- Every message is either a join, or changes no registry and sends nothing
but at most one relay. -/
theorem onMessage_cases (message : Text D) (session : Session) (server : SignallingServer) :
    (∃ name, joinTarget message = some name ∧
      (onMessage fails message session).run server = joinOutcome fails name session server) ∨
    (joinTarget message = none ∧
      ((onMessage fails message session).run server).state = server ∧
      (((onMessage fails message session).run server).out = [] ∨
        ∃ event ∈ relays, ∃ fs dst,
          (dst ∈ server.sockets ∧ addressee message = some dst.id) ∧
          ((onMessage fails message session).run server).out =
            [notice (relayed event.1 event.2 fs session) dst])) := by
  rcases hreq : request message with _ | ⟨eventName, data⟩
  · exact Or.inr ⟨by simp [joinTarget, hreq], (run_onMessage_of_request_none fails hreq _ _).1,
      Or.inl (run_onMessage_of_request_none fails hreq _ _).2⟩
  · rw [run_onMessage_of_request fails hreq]
    by_cases hj : eventName = "__join"
    · subst hj
      rcases data with _ | fs
      · exact Or.inr ⟨by simp [joinTarget, hreq], by simp [join, deref], by simp [join, deref]⟩
      · exact Or.inl ⟨joinedRoom fs, by simp [joinTarget, hreq], by simp [run_join]⟩
    · refine Or.inr ⟨by rcases data with _ | fs <;> simp [joinTarget, hreq, hj], ?_⟩
      simp only [hj, if_false]
      -- each remaining branch of the switch is one of the three relays, or nothing
      have hrelay (event : String × List String) (hmem : event ∈ relays) :
          ((relay fails event.1 event.2 data session).run server).state = server ∧
            (((relay fails event.1 event.2 data session).run server).out = [] ∨
              ∃ event' ∈ relays, ∃ fs dst,
                (dst ∈ server.sockets ∧ addressee message = some dst.id) ∧
                ((relay fails event.1 event.2 data session).run server).out =
                  [notice (relayed event'.1 event'.2 fs session) dst]) := by
        obtain ⟨hs, ho⟩ := relay_cases fails event.1 event.2 data session server
        refine ⟨hs, ho.imp_right ?_⟩
        rintro ⟨fs, dst, ⟨hdst, rfl, hid⟩, hout⟩
        exact ⟨event, hmem, fs, dst, ⟨hdst, by simp [addressee, hreq, hid, Except.toOption]⟩, hout⟩
      split_ifs
      · exact hrelay ("_ice_candidate", ["id", "label", "candidate"]) (by simp [relays])
      · exact hrelay ("_offer", ["sdp"]) (by simp [relays])
      · exact hrelay ("_answer", ["sdp"]) (by simp [relays])
      · exact ⟨rfl, Or.inl rfl⟩

/-- A relay sends last: where it raises, it has sent nothing. -/
theorem out_relay_of_raise {eventName : String} {keys : List String} {data : Option (Fields D)}
    {socket : Session} {server : SignallingServer} {e : Raise}
    (h : ((relay fails eventName keys data socket).run server).value = .error e) :
    ((relay fails eventName keys data socket).run server).out = [] := by
  cases data with
  | none => rfl
  | some data =>
    simp only [relay, deref, Task.run_bind, Task.run_ofExcept, Outcome.andThen_ok] at h ⊢
    cases hid : (Fields.get data "socketId").deref with
    | error e => rfl
    | ok socketId =>
      simp only [hid, Outcome.andThen_ok, Task.run_bind, Task.run_get] at h ⊢
      cases hs : getSocket server socketId with
      | none => rfl
      | some dst =>
        simp only [hs, Task.run_bind, Task.run_ofExcept] at h ⊢
        cases hj : (relayed eventName keys data socket).toJson with
        | error e => rfl
        | ok text =>
          simp only [hj, Outcome.andThen_ok, run_sendText] at h ⊢
          cases hf : fails dst with
          | true => rfl
          | false => simp [hf] at h

/-- A message that is no join and raises has sent nothing. -/
theorem out_onMessage_of_raise {message : Text D} {session : Session} {server : SignallingServer}
    {e : Raise} (hj : joinTarget message = none)
    (h : ((onMessage fails message session).run server).value = .error e) :
    ((onMessage fails message session).run server).out = [] := by
  rcases hreq : request message with _ | ⟨eventName, data⟩
  · exact (run_onMessage_of_request_none fails hreq _ _).2
  · rw [run_onMessage_of_request fails hreq] at h ⊢
    by_cases hname : eventName = "__join"
    · subst hname
      rcases data with _ | fs
      · rfl
      · simp [joinTarget, hreq] at hj
    · simp only [hname, if_false] at h ⊢
      split_ifs at h ⊢
      · exact out_relay_of_raise fails h
      · exact out_relay_of_raise fails h
      · exact out_relay_of_raise fails h
      · cases h

/-- Only a join names a room. -/
theorem request_of_joinTarget {message : Text D} {name : String}
    (h : joinTarget message = some name) : ∃ data, request message = some ("__join", data) := by
  rcases hreq : request message with _ | ⟨eventName, _ | data⟩
  · simp [joinTarget, hreq] at h
  · simp [joinTarget, hreq] at h
  · by_cases hname : eventName = "__join"
    · exact ⟨some data, by rw [hname]⟩
    · simp [joinTarget, hreq, hname] at h

/-- While sends succeed, a message whose task raises has sent nothing and changed no
registry, and one whose task returns changes the registries only if it is a join. -/
theorem message_all_or_nothing (message : Text D) (session : Session)
    (server : SignallingServer) :
    (∀ e, ((onMessage (fun _ => false) message session).run server).value = .error e →
      ((onMessage (fun _ => false) message session).run server).out = [] ∧
        ((onMessage (fun _ => false) message session).run server).state = server) ∧
    (((onMessage (fun _ => false) message session).run server).value = .ok () →
      ((onMessage (fun _ => false) message session).run server).state ≠ server →
        ∃ data, request message = some ("__join", data)) := by
  rcases onMessage_cases (fun _ => false) message session server with ⟨name, hj, hrun⟩ |
    ⟨hj, hstate, _⟩
  · refine ⟨fun e he => ?_, fun _ _ => request_of_joinTarget hj⟩
    rw [hrun] at he
    simp [joinOutcome] at he
  · exact ⟨fun e he => ⟨out_onMessage_of_raise _ hj he, hstate⟩,
      fun _ hne => absurd hstate hne⟩

end SignallingServer

end WebrtcCaller
