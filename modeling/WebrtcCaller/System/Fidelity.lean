import WebrtcCaller.System.News

/-!
# What a relay carries

A client writes a description or a candidate, the server stores the members back
into the map it has read them from and writes its sender over the addressee, and
the receiving client takes the map apart again. Nothing but `socketId` changes on
the way, and a label comes back as the same 32-bit integer.
-/

namespace WebrtcCaller

variable {D : Type} [JavaDouble D]

section Finite

/-- A member of a finite map is finite. -/
theorem Json.allFinite_get {fs : Fields D} (h : Json.allFiniteFields fs = true) (key : String) :
    (Fields.get fs key).allFinite = true := by
  induction fs with
  | nil => rfl
  | cons f fs ih =>
    obtain ⟨k, v⟩ := f
    obtain ⟨hv, hfs⟩ := Bool.and_eq_true_iff.mp h
    rw [Fields.get]
    split
    · exact hv
    · exact ih hfs

/-- Storing a finite member keeps a map finite. -/
theorem Json.allFiniteFields_put {fs : Fields D} (h : Json.allFiniteFields fs = true)
    (key : String) {v : Json D} (hv : v.allFinite = true) :
    Json.allFiniteFields (Fields.put key v fs) = true := by
  induction fs with
  | nil => exact Bool.and_eq_true_iff.mpr ⟨hv, rfl⟩
  | cons f fs ih =>
    obtain ⟨k, w⟩ := f
    obtain ⟨hw, hfs⟩ := Bool.and_eq_true_iff.mp h
    rw [Fields.put]
    split
    · exact Bool.and_eq_true_iff.mpr ⟨hv, hfs⟩
    · exact Bool.and_eq_true_iff.mpr ⟨hw, ih hfs⟩

/-- Leaving members out keeps a map finite. -/
theorem Json.allFiniteFields_filter {fs : Fields D} (h : Json.allFiniteFields fs = true)
    (p : String × Json D → Bool) : Json.allFiniteFields (fs.filter p) = true := by
  induction fs with
  | nil => rfl
  | cons f fs ih =>
    obtain ⟨hv, hfs⟩ := Bool.and_eq_true_iff.mp h
    rw [List.filter_cons]
    split
    · exact Bool.and_eq_true_iff.mpr ⟨hv, ih hfs⟩
    · exact ih hfs

mutual

/-- What is written of a finite tree is finite. -/
theorem Json.allFinite_written : (j : Json D) → j.allFinite = true → j.written.allFinite = true
  | .null, h | .bool _, h | .num _, h | .str _, h => h
  | .arr xs, h => Json.allFiniteElems_written xs h
  | .obj fs, h => Json.allFiniteFields_written fs h

/-- Elements of an array are written one by one. -/
theorem Json.allFiniteElems_written : (xs : List (Json D)) → Json.allFiniteElems xs = true →
    Json.allFiniteElems (Json.writtenElems xs) = true
  | [], _ => rfl
  | x :: xs, h => by
    obtain ⟨hx, hxs⟩ := Bool.and_eq_true_iff.mp h
    exact Bool.and_eq_true_iff.mpr ⟨x.allFinite_written hx, Json.allFiniteElems_written xs hxs⟩

/-- A member that is left out was finite too. -/
theorem Json.allFiniteFields_written : (fs : Fields D) → Json.allFiniteFields fs = true →
    Json.allFiniteFields (Fields.written fs) = true
  | [], _ => rfl
  | (k, v) :: fs, h => by
    obtain ⟨hv, hfs⟩ := Bool.and_eq_true_iff.mp h
    have hothers := Json.allFiniteFields_filter (Json.allFiniteFields_written fs hfs) (·.1 ≠ k)
    have hw := v.allFinite_written hv
    cases v with
    | null => exact hothers
    | bool b | num d | str s | arr xs | obj fs' =>
      exact Bool.and_eq_true_iff.mpr ⟨hw, hothers⟩

end

/-- A nullable string is finite. -/
theorem Json.allFinite_ofNullable (s : Option String) :
    (Json.ofNullable s : Json D).allFinite = true := by
  cases s <;> rfl

end Finite

namespace SignallingServer

variable {fails : Session → Bool} {server : SignallingServer} {s t : Session}

/-- A relay of finite members is written. -/
theorem toJson_relayed (eventName : String) (keys : List String) {data : Fields D}
    (h : Json.allFiniteFields data = true) :
    (relayed eventName keys data s).toJson =
      .ok (.ofJson (relayed eventName keys data s).tree) := by
  have hfold : Json.allFiniteFields
      (keys.foldl (fun map key => Fields.put key (Fields.get map key) map) data) = true := by
    induction keys generalizing data with
    | nil => exact h
    | cons key keys ih => exact ih (Json.allFiniteFields_put h key (Json.allFinite_get h key))
  have htree : (relayed eventName keys data s).tree.allFinite = true := by
    simpa [SignallingData.tree, relayed, Json.allFinite, Json.allFiniteFields] using
      Json.allFiniteFields_put hfold "socketId" (v := .str s.id) rfl
  simp [SignallingData.toJson, htree]

/-- A connected session is found under its id. -/
theorem getSocket_of_mem (ht : t ∈ server.sockets) : getSocket server t.id = some t := by
  cases hs : getSocket server t.id with
  | none =>
    have hnone := List.find?_eq_none.mp hs t ht
    simp at hnone
  | some dst =>
    have hid : dst.id = t.id := by simpa using List.find?_some hs
    rw [Session.ext hid]

/-- A relay to a connected session reaches it, and nobody else. -/
theorem run_relay (eventName : String) (keys : List String) {data : Fields D}
    (ht : t ∈ server.sockets) (hf : fails t = false)
    (hid : Fields.get data "socketId" = .str t.id) (hfinite : Json.allFiniteFields data = true) :
    (relay fails eventName keys (some data) s).run server =
      ⟨.ok (), server, [notice (relayed eventName keys data s) t]⟩ := by
  simp [relay, deref, hid, Json.deref, Json.javaString, getSocket_of_mem ht,
    toJson_relayed eventName keys hfinite, run_sendText, hf, notice]

end SignallingServer

namespace Relay

/-- The event a client sends a relay with. -/
def eventName : Relay → String
  | .offer _ => "__offer"
  | .answer _ => "__answer"
  | .candidate _ => "__ice_candidate"

/-- The members a client sends with it. -/
def data (socketId : Option String) : Relay → Fields D
  | .offer sdp => [("socketId", .ofNullable socketId),
      ("sdp", .obj [("type", .str "offer"), ("sdp", .ofNullable sdp)])]
  | .answer sdp => [("socketId", .ofNullable socketId),
      ("sdp", .obj [("type", .str "answer"), ("sdp", .ofNullable sdp)])]
  | .candidate iceCandidate => [("id", .ofNullable iceCandidate.sdpMid),
      ("label", .num (JavaDouble.ofInt iceCandidate.sdpMLineIndex)),
      ("candidate", .ofNullable iceCandidate.sdp), ("socketId", .ofNullable socketId)]

/-- The event the server sends it on as, with the members it stores back. -/
def sentAs : Relay → String × List String
  | .offer _ => ("_offer", ["sdp"])
  | .answer _ => ("_answer", ["sdp"])
  | .candidate _ => ("_ice_candidate", ["id", "label", "candidate"])

/-- The callback it is to end in, at its addressee. -/
def signal (socketId : Option String) : Relay → Signal
  | .offer sdp => .onReceiveOffer socketId sdp
  | .answer sdp => .onReceiverAnswer socketId sdp
  | .candidate iceCandidate => .onRemoteIceCandidate socketId iceCandidate

/-- A relay is an event with its data. -/
theorem text_eq (socketId : Option String) (relay : Relay) :
    (relay.text socketId : Text D) = WsService.send relay.eventName (relay.data socketId) := by
  cases relay <;> rfl

/-- A client sends finite numbers only. -/
theorem allFinite_data (socketId : Option String) (relay : Relay) :
    Json.allFiniteFields (relay.data socketId : Fields D) = true := by
  cases relay <;> simp [data, Json.allFiniteFields, Json.allFinite, Json.allFinite_ofNullable,
    JavaDouble.isFinite_ofInt]

/-- The addressee a client writes is the one the server reads. -/
theorem get_data_socketId (socketId : Option String) (relay : Relay) :
    Fields.get (Fields.written (relay.data socketId : Fields D)) "socketId" =
      .ofNullable socketId := by
  rw [Fields.get_written, ← Json.written_ofNullable]
  cases relay <;> rfl

end Relay

namespace SignallingServer

variable {fails : Session → Bool} {server : SignallingServer} {s t : Session}

/-- The server hands the text of a relay to the handler of its event. -/
theorem run_onMessage_relay (relay : Relay) (socketId : Option String) :
    (onMessage fails (relay.text socketId : Text D) s).run server =
      (SignallingServer.relay fails relay.sentAs.1 relay.sentAs.2
        (some (Fields.written (relay.data socketId))) s).run server := by
  rw [relay.text_eq, run_onMessage_of_request fails (request_send ..)]
  generalize Fields.written (relay.data socketId : Fields D) = data
  cases relay <;> rfl

end SignallingServer

namespace WsService

variable {s : Session}

omit [JavaDouble D] in
/-- A member of a relay is written by its client and by the server, and `socketId` by the
server alone. -/
theorem get_relayed (keys : List String) (data : Fields D) (k : String) :
    Fields.get (Fields.written (SignallingServer.relayedData keys (Fields.written data) s)) k =
      if k = "socketId" then .str s.id else (Fields.get data k).written.written := by
  rw [Fields.get_written, SignallingServer.get_relayedData]
  split
  · rfl
  · rw [Fields.get_written]

omit [JavaDouble D] in
/-- A description comes back as it was sent. -/
theorem handleDescription_relayed (callback : Option String → Option String → Signal)
    (keys : List String) (type : String) (socketId sdp : Option String) :
    handleDescription callback (Fields.written (SignallingServer.relayedData keys
      (Fields.written ([("socketId", .ofNullable socketId),
        ("sdp", .obj [("type", .str type), ("sdp", .ofNullable sdp)])] : Fields D)) s)) =
      .ok (callback (some s.id) sdp) := by
  refine handleDescription_eq_ok.mpr
    ⟨_, some s.id, sdp, get_relayed .., get_relayed .., ?_, rfl⟩
  have hsdp : Fields.get ([("type", .str type), ("sdp", .ofNullable sdp)] : Fields D) "sdp" =
      .ofNullable sdp := rfl
  rw [Fields.get_written, Fields.get_written, hsdp, Json.written_ofNullable,
    Json.written_ofNullable]

/-- A candidate comes back as it was sent. -/
theorem handleRemoteCandidate_relayed (keys : List String) (socketId sdp : Option String)
    (mid : String) (sdpMLineIndex : Int32) :
    handleRemoteCandidate (Fields.written (SignallingServer.relayedData keys
      (Fields.written (Relay.data socketId
        (.candidate ⟨some mid, sdpMLineIndex, sdp⟩) : Fields D)) s)) =
      .ok (.onRemoteIceCandidate (some s.id) ⟨some mid, sdpMLineIndex, sdp⟩) := by
  refine handleRemoteCandidate_eq_ok.mpr ⟨some s.id, some mid, JavaDouble.ofInt sdpMLineIndex,
    sdp, get_relayed .., get_relayed .., ?_, ?_, ?_⟩
  · rw [get_relayed]
    rfl
  · have hsdp : Fields.get (Relay.data socketId (.candidate ⟨some mid, sdpMLineIndex, sdp⟩) :
        Fields D) "candidate" = .ofNullable sdp := rfl
    rw [get_relayed, hsdp, Json.written_ofNullable, Json.written_ofNullable]
    rfl
  · rw [JavaDouble.intValue_ofInt]
    rfl

/-- The client reads back what was sent, with the sender in place of the addressee. -/
theorem handleMessage_relayed (castToString : Json D → Except Raise String) (relay : Relay)
    (socketId : Option String)
    (hmid : ∀ iceCandidate, relay = .candidate iceCandidate → iceCandidate.sdpMid.isSome) :
    handleMessage castToString (.ofJson (SignallingServer.relayed relay.sentAs.1 relay.sentAs.2
      (Fields.written (relay.data socketId)) s).tree) =
        .ok (some (relay.signal (some s.id))) := by
  rw [SignallingServer.relayed_eq, handleMessage_tree]
  cases relay with
  | offer sdp =>
    exact congrArg (Except.map some)
      (handleDescription_relayed .onReceiveOffer ["sdp"] "offer" socketId sdp)
  | answer sdp =>
    exact congrArg (Except.map some)
      (handleDescription_relayed .onReceiverAnswer ["sdp"] "answer" socketId sdp)
  | candidate iceCandidate =>
    obtain ⟨sdpMid, sdpMLineIndex, sdp⟩ := iceCandidate
    obtain ⟨mid, rfl⟩ := Option.isSome_iff_exists.mp (hmid _ rfl)
    exact congrArg (Except.map some) (handleRemoteCandidate_relayed
      ["id", "label", "candidate"] socketId sdp mid sdpMLineIndex)

end WsService

/-- A relay addressed to a connected session is sent to that session only, and its client
decodes it into the one callback with the description or candidate that was sent and the
sender's id. -/
theorem relay_fidelity (castToString : Json D → Except Raise String) {fails : Session → Bool}
    {server : SignallingServer} {s t : Session} (ht : t ∈ server.sockets) (hf : fails t = false)
    (relay : Relay)
    (hmid : ∀ iceCandidate, relay = .candidate iceCandidate → iceCandidate.sdpMid.isSome) :
    ∃ text : Text D,
      (SignallingServer.onMessage fails (relay.text (some t.id)) s).run server =
        ⟨.ok (), server, [⟨t, text⟩]⟩ ∧
      WsService.handleMessage castToString text = .ok (some (relay.signal (some s.id))) := by
  refine ⟨_, ?_, WsService.handleMessage_relayed castToString relay (some t.id) hmid⟩
  rw [SignallingServer.run_onMessage_relay]
  exact SignallingServer.run_relay _ _ ht hf (relay.get_data_socketId _)
    (Json.allFiniteFields_written _ (relay.allFinite_data _))

/-- `a` sends a candidate to `b`, with the line index `2147483647`. -/
theorem candidate_fidelity :
    ∃ text : Text IntDouble,
      (SignallingServer.onMessage (fun _ => false) (WsService.sendIceCandidate (some "b")
          ⟨some "video", 2147483647, some "candidate:1"⟩) ⟨"a"⟩).run
          ⟨[⟨"a"⟩, ⟨"b"⟩], ∅, ∅, ∅⟩ =
        ⟨.ok (), ⟨[⟨"a"⟩, ⟨"b"⟩], ∅, ∅, ∅⟩, [⟨⟨"b"⟩, text⟩]⟩ ∧
      WsService.handleMessage (fun _ => .error .jsonSyntax) text =
        .ok (some (.onRemoteIceCandidate (some "a")
          ⟨some "video", 2147483647, some "candidate:1"⟩)) :=
  relay_fidelity _ (s := ⟨"a"⟩) (t := ⟨"b"⟩) (by decide) rfl (.candidate _) fun _ he => by
    cases he
    rfl

end WebrtcCaller
