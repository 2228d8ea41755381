import WebrtcCaller.Client.Roster
import WebrtcCaller.Server.Registry

/-!
# What the client makes of the server's texts

The texts of a join and of a close always decode. A relayed text carries
whatever its sender wrote apart from `socketId`, and the client casts and
dereferences its members before it looks the sender up, so a relay is harmless
exactly when its members have the shapes the handlers expect.
-/

namespace WebrtcCaller

variable {D : Type} [JavaDouble D]

namespace WsService

variable (castToString : Json D → Except Raise String)

/-- A text of the server is handed to the handler of its event. -/
theorem handleMessage_tree (eventName : String) (data : Fields D) :
    handleMessage castToString (.ofJson (SignallingData.tree ⟨some eventName, some data⟩)) =
      match handler castToString eventName with
      | none => .ok none
      | some handle => (handle (Fields.written data)).map some := by
  have hname : Fields.get [("eventName", .str eventName), ("data", .obj (Fields.written data))]
      "eventName" = (.str eventName : Json D) := rfl
  have hdata : Fields.get [("eventName", .str eventName), ("data", .obj (Fields.written data))]
      "data" = (.obj (Fields.written data) : Json D) := rfl
  simp only [handleMessage, parseMap, Text.ofJson_tree, SignallingData.written_tree, deref,
    bind, Except.bind, hname, hdata, Json.asString, Json.asMap]
  cases handler castToString eventName with
  | none => rfl
  | some handle => cases handle (Fields.written data) <;> rfl

omit [JavaDouble D] in
/-- A list of strings is parsed into that list. -/
theorem parseStrings_map (ids : List String) :
    parseStrings castToString (ids.map .str) = .ok (ids.map some) := by
  induction ids with
  | nil => rfl
  | cons id ids ih => simp [parseStrings, ih, bind, Except.bind, pure, Except.pure]

/-- The answer to a join decodes into the ids in it. -/
theorem handleMessage_peers (ids : List String) (socket : Session) :
    handleMessage castToString (.ofJson (SignallingServer.peers ids socket).tree) =
      .ok (some (.onJoinToRoom (some (ids.map some)) (some socket.id))) := by
  rw [SignallingServer.peers, handleMessage_tree]
  simp [handler, handleJoinToRoom, Fields.get_written, Fields.get, Json.written,
    SignallingServer.writtenElems_strings, Json.asArray, Json.asString, parseStrings_map,
    Except.map, bind, Except.bind, pure, Except.pure]

/-- The notice of a join decodes. -/
theorem handleMessage_newPeer (socket : Session) :
    handleMessage castToString (.ofJson (SignallingServer.newPeer socket).tree) =
      .ok (some (.onRemoteJoinToRoom (some socket.id))) := by
  rw [SignallingServer.newPeer, handleMessage_tree]
  rfl

/-- The notice of a close decodes. -/
theorem handleMessage_removePeer (socket : Session) :
    handleMessage castToString (.ofJson (SignallingServer.removePeer socket).tree) =
      .ok (some (.onRemoteOutRoom (some socket.id))) := by
  rw [SignallingServer.removePeer, handleMessage_tree]
  rfl

end WsService

namespace SignallingServer

/-- The members a relay sends: those it received, with the sender's id. -/
def relayedData (keys : List String) (data : Fields D) (socket : Session) : Fields D :=
  Fields.put "socketId" (.str socket.id)
    (keys.foldl (fun map key => Fields.put key (Fields.get map key) map) data)

omit [JavaDouble D] in
/-- A relay is the event with the relayed members. -/
theorem relayed_eq (eventName : String) (keys : List String) (data : Fields D)
    (socket : Session) : relayed eventName keys data socket =
      ⟨some eventName, some (relayedData keys data socket)⟩ := rfl

omit [JavaDouble D] in
/-- Storing members back changes nothing that is read. -/
theorem get_relayedData (keys : List String) (data : Fields D) (socket : Session) (k : String) :
    Fields.get (relayedData keys data socket) k =
      if k = "socketId" then .str socket.id else Fields.get data k := by
  have hfold : Fields.get
      (keys.foldl (fun map key => Fields.put key (Fields.get map key) map) data) k =
        Fields.get data k := by
    induction keys generalizing data with
    | nil => rfl
    | cons key keys ih =>
      rw [List.foldl_cons, ih, Fields.get_put]
      split
      · rename_i h
        rw [h]
      · rfl
  rw [relayedData, Fields.get_put, hfold]

end SignallingServer

section Casts

omit [JavaDouble D] in
/-- The cast to a string passes strings and null. -/
theorem Json.asString_eq_ok {j : Json D} {s : Option String} :
    j.asString = .ok s ↔ j = .ofNullable s := by
  cases j <;> cases s <;> simp [Json.asString, Json.ofNullable]

omit [JavaDouble D] in
/-- The cast to a map that is not null passes maps. -/
theorem Json.asMap_eq_ok {j : Json D} {fs : Fields D} :
    j.asMap = .ok (some fs) ↔ j = .obj fs := by
  cases j <;> simp [Json.asMap]

omit [JavaDouble D] in
theorem Json.ofNullable_injective {s t : Option String}
    (h : (.ofNullable s : Json D) = .ofNullable t) : s = t := by
  cases s <;> cases t <;> simp_all [Json.ofNullable]

omit [JavaDouble D] in
/-- What is written and read back is a nullable string only if it was one. -/
theorem Json.written_eq_ofNullable {j : Json D} {s : Option String} :
    j.written = .ofNullable s ↔ j = .ofNullable s := by
  cases j <;> cases s <;> simp [Json.written, Json.ofNullable]

omit [JavaDouble D] in
/-- A tree that is written as an object is one. -/
theorem Json.written_eq_obj {j : Json D} {fs : Fields D} :
    j.written = .obj fs ↔ ∃ gs, j = .obj gs ∧ Fields.written gs = fs := by
  cases j <;> simp [Json.written]

/-- Writing a member does not change the number read from it. -/
theorem Json.parseDouble_written (j : Json D) : j.written.parseDouble = j.parseDouble := by
  cases j <;> rfl

/-- A bind that returns went through. -/
theorem Except.bind_eq_ok {ε α β : Type} {x : Except ε α} {f : α → Except ε β} {b : β} :
    (x >>= f) = .ok b ↔ ∃ a, x = .ok a ∧ f a = .ok b := by
  cases x <;> simp [bind, Except.bind]

end Casts

namespace WsService

omit [JavaDouble D] in
/-- A description decodes when its `sdp` is an object with a nullable string in it. -/
theorem handleDescription_eq_ok {callback : Option String → Option String → Signal}
    {data : Fields D} {signal : Signal} :
    handleDescription callback data = .ok signal ↔ ∃ inner socketId sdp,
      Fields.get data "sdp" = .obj inner ∧ Fields.get data "socketId" = .ofNullable socketId ∧
        Fields.get inner "sdp" = .ofNullable sdp ∧ callback socketId sdp = signal := by
  simp only [handleDescription, Except.bind_eq_ok, Json.asString_eq_ok]
  constructor
  · rintro ⟨sdpDic, hdic, socketId, hid, inner, hinner, sdp, hsdp, hs⟩
    cases sdpDic with
    | none => cases hinner
    | some fs =>
      obtain rfl := Except.ok.inj hinner
      exact ⟨fs, socketId, sdp, Json.asMap_eq_ok.mp hdic, hid, hsdp, Except.ok.inj hs⟩
  · rintro ⟨inner, socketId, sdp, hdic, hid, hsdp, rfl⟩
    exact ⟨some inner, Json.asMap_eq_ok.mpr hdic, socketId, hid, inner, rfl, sdp, hsdp, rfl⟩

/-- A candidate decodes when its strings are nullable strings and its label is a number. -/
theorem handleRemoteCandidate_eq_ok {data : Fields D} {signal : Signal} :
    handleRemoteCandidate data = .ok signal ↔ ∃ socketId id label candidate,
      Fields.get data "socketId" = .ofNullable socketId ∧ Fields.get data "id" = .ofNullable id ∧
        (Fields.get data "label").parseDouble = .ok label ∧
        Fields.get data "candidate" = .ofNullable candidate ∧
        .onRemoteIceCandidate socketId
          ⟨some (id.getD "video"), JavaDouble.intValue label, candidate⟩ = signal := by
  simp only [handleRemoteCandidate, Except.bind_eq_ok, Json.asString_eq_ok]
  constructor
  · rintro ⟨socketId, hs, id, hid, label, hl, candidate, hc, h⟩
    exact ⟨socketId, id, label, candidate, hs, hid, hl, hc, Except.ok.inj h⟩
  · rintro ⟨socketId, id, label, candidate, hs, hid, hl, hc, rfl⟩
    exact ⟨socketId, hs, id, hid, label, hl, candidate, hc, rfl⟩

end WsService

namespace PeerService

variable (native : Native) (socketId : Option String) (service : PeerService)

/-- The description an offer hands to the native library. -/
def rewritten (service : PeerService) (sdp : Option String) : Option String :=
  if service.videoEnable then sdp.map fun text => preferCodec text VIDEO_CODEC_H264 false else sdp

/-- A candidate is taken unless it is for a known peer and the native call fails. -/
theorem onRemoteIceCandidate_returns_iff (iceCandidate : IceCandidate) :
    ((onRemoteIceCandidate native socketId iceCandidate).run service).value = .ok () ↔
      (socketId ∈ service.connectionPeerDic → native.addIceCandidate iceCandidate = true) := by
  rw [← AList.lookup_isSome, onRemoteIceCandidate, Task.run_whenSome]
  cases service.connectionPeerDic.lookup socketId with
  | none => simp
  | some peer => cases native.addIceCandidate iceCandidate <;> simp

/-- A description is set unless it is for a known peer and the native call fails. -/
theorem setRemoteDescription_returns_iff (type : SdpType) (description : Option String)
    (service' : PeerService) :
    ((setRemoteDescription native (service.connectionPeerDic.lookup socketId) type
        description).run service').value = .ok () ↔
      (socketId ∈ service.connectionPeerDic →
        native.setRemoteDescription type description = true) := by
  rw [← AList.lookup_isSome, setRemoteDescription, Task.run_whenSome]
  cases service.connectionPeerDic.lookup socketId with
  | none => simp
  | some peer => cases native.setRemoteDescription type description <;> simp

/-- An answer is taken unless it is for a known peer and the native call fails. -/
theorem onReceiverAnswer_returns_iff (sdp : Option String) :
    ((onReceiverAnswer native socketId sdp).run service).value = .ok () ↔
      (socketId ∈ service.connectionPeerDic →
        native.setRemoteDescription .ANSWER sdp = true) := by
  simp only [onReceiverAnswer, Task.run_bind, Task.run_get, Outcome.andThen_ok]
  exact setRemoteDescription_returns_iff native socketId service .ANSWER sdp service

/-- The codec preference reads the description before the sender is looked at. -/
theorem onReceiveOffer_returns_iff (sdp : Option String) :
    ((onReceiveOffer native socketId sdp).run service).value = .ok () ↔
      (service.videoEnable = true → sdp.isSome) ∧ (socketId ∈ service.connectionPeerDic →
        native.setRemoteDescription .OFFER (service.rewritten sdp) = true) := by
  simp only [onReceiveOffer, Task.run_bind, Task.run_modify, Outcome.andThen_ok, Task.run_get,
    Task.run_ofExcept]
  cases hv : service.videoEnable with
  | false =>
    simp only [rewritten, hv]
    simpa using setRemoteDescription_returns_iff native socketId service .OFFER sdp _
  | true =>
    cases sdp with
    | none => simp [preferred, deref, Except.map]
    | some text =>
      simp only [rewritten, hv, preferred, deref, Except.map]
      simpa using setRemoteDescription_returns_iff native socketId service .OFFER _ _

end PeerService

section Harm

variable (castToString : Json D → Except Raise String) (native : Native) (service : PeerService)

/-- The client returns normally from reading the text and from the relayed task it starts. -/
def Unharmed (text : Text D) : Prop :=
  ∃ signal, WsService.handleMessage castToString text = .ok signal ∧
    ∀ sg, signal = some sg → sg.sender.isSome →
      ((PeerService.callback native service.videoEnable service.mediaType sg).run service).value =
        .ok ()

/-- The sender of the data has a peer at the client. -/
def KnownSender (data : Fields D) : Prop :=
  ∃ socketId, Fields.get data "socketId" = .ofNullable socketId ∧
    socketId ∈ service.connectionPeerDic

/-- The data of a candidate has the shape the client expects. -/
def CandidateFits (data : Fields D) : Prop :=
  ∃ id label candidate, Fields.get data "id" = .ofNullable id ∧
    (Fields.get data "label").parseDouble = .ok label ∧
    Fields.get data "candidate" = .ofNullable candidate ∧
    (KnownSender service data → native.addIceCandidate
      ⟨some (id.getD "video"), JavaDouble.intValue label, candidate⟩ = true)

/-- The data of an offer has the shape the client expects; a null description is one
only without video. -/
def OfferFits (data : Fields D) : Prop :=
  ∃ inner sdp, Fields.get data "sdp" = .obj inner ∧ Fields.get inner "sdp" = .ofNullable sdp ∧
    (service.videoEnable = true → sdp.isSome) ∧
    (KnownSender service data →
      native.setRemoteDescription .OFFER (service.rewritten sdp) = true)

/-- The data of an answer has the shape the client expects. -/
def AnswerFits (data : Fields D) : Prop :=
  ∃ inner sdp, Fields.get data "sdp" = .obj inner ∧ Fields.get inner "sdp" = .ofNullable sdp ∧
    (KnownSender service data → native.setRemoteDescription .ANSWER sdp = true)

/-- The data of an event has the shape the client expects of that event. -/
def Fits (eventName : String) (data : Fields D) : Prop :=
  (eventName = "_ice_candidate" → CandidateFits native service data) ∧
    (eventName = "_offer" → OfferFits native service data) ∧
    (eventName = "_answer" → AnswerFits native service data)

variable {castToString native service}

omit [JavaDouble D] in
/-- The sender is known by the id in the data. -/
theorem knownSender_iff {data : Fields D} {socketId : Option String}
    (h : Fields.get data "socketId" = .ofNullable socketId) :
    KnownSender service data ↔ socketId ∈ service.connectionPeerDic := by
  constructor
  · rintro ⟨socketId', h', hmem⟩
    exact Json.ofNullable_injective (h.symm.trans h') ▸ hmem
  · exact fun hmem => ⟨socketId, h, hmem⟩

omit [JavaDouble D] in
/-- Writing the data does not change who has sent it. -/
theorem knownSender_written {data : Fields D} :
    KnownSender service (Fields.written data) ↔ KnownSender service data := by
  simp only [KnownSender, Fields.get_written, Json.written_eq_ofNullable]

/-- A member that is null and one that is left out fit alike. -/
theorem candidateFits_written {data : Fields D} :
    CandidateFits native service (Fields.written data) ↔ CandidateFits native service data := by
  simp only [CandidateFits, Fields.get_written, Json.written_eq_ofNullable,
    Json.parseDouble_written, knownSender_written]

omit [JavaDouble D] in
/-- So do the members of an inner object. -/
theorem exists_inner_written {data : Fields D} {key k : String} {s : Option String} :
    (∃ inner, Fields.get (Fields.written data) key = .obj inner ∧
        Fields.get inner k = .ofNullable s) ↔
      ∃ inner, Fields.get data key = .obj inner ∧ Fields.get inner k = .ofNullable s := by
  rw [Fields.get_written]
  constructor
  · rintro ⟨_, h, hs⟩
    obtain ⟨inner, hinner, rfl⟩ := Json.written_eq_obj.mp h
    rw [Fields.get_written, Json.written_eq_ofNullable] at hs
    exact ⟨inner, hinner, hs⟩
  · rintro ⟨inner, h, hs⟩
    refine ⟨Fields.written inner, Json.written_eq_obj.mpr ⟨inner, h, rfl⟩, ?_⟩
    rw [Fields.get_written, Json.written_eq_ofNullable]
    exact hs

omit [JavaDouble D] in
/-- The inner object of an offer is looked at for its description only. -/
theorem offerFits_iff {data : Fields D} :
    OfferFits native service data ↔ ∃ sdp,
      (∃ inner, Fields.get data "sdp" = .obj inner ∧ Fields.get inner "sdp" = .ofNullable sdp) ∧
      (service.videoEnable = true → sdp.isSome) ∧ (KnownSender service data →
        native.setRemoteDescription .OFFER (service.rewritten sdp) = true) :=
  ⟨fun ⟨inner, sdp, h1, h2, h3⟩ => ⟨sdp, ⟨inner, h1, h2⟩, h3⟩,
    fun ⟨sdp, ⟨inner, h1, h2⟩, h3⟩ => ⟨inner, sdp, h1, h2, h3⟩⟩

omit [JavaDouble D] in
theorem answerFits_iff {data : Fields D} :
    AnswerFits native service data ↔ ∃ sdp,
      (∃ inner, Fields.get data "sdp" = .obj inner ∧ Fields.get inner "sdp" = .ofNullable sdp) ∧
      (KnownSender service data → native.setRemoteDescription .ANSWER sdp = true) :=
  ⟨fun ⟨inner, sdp, h1, h2, h3⟩ => ⟨sdp, ⟨inner, h1, h2⟩, h3⟩,
    fun ⟨sdp, ⟨inner, h1, h2⟩, h3⟩ => ⟨inner, sdp, h1, h2, h3⟩⟩

omit [JavaDouble D] in
/-- An offer fits as it was before the server left its nulls out. -/
theorem offerFits_written {data : Fields D} :
    OfferFits native service (Fields.written data) ↔ OfferFits native service data := by
  simp only [offerFits_iff, exists_inner_written, knownSender_written]

omit [JavaDouble D] in
theorem answerFits_written {data : Fields D} :
    AnswerFits native service (Fields.written data) ↔ AnswerFits native service data := by
  simp only [answerFits_iff, exists_inner_written, knownSender_written]

/-- Whether a text harms its client does not depend on the nulls the server left out. -/
theorem fits_written {eventName : String} {data : Fields D} :
    Fits native service eventName (Fields.written data) ↔ Fits native service eventName data := by
  simp only [Fits, candidateFits_written, offerFits_written, answerFits_written]

/-- A text whose handler is known is harmless when the handler and its task return. -/
theorem unharmed_tree_iff {eventName : String} {data : Fields D}
    {handle : Fields D → Except Raise Signal}
    (hh : WsService.handler castToString eventName = some handle) :
    Unharmed castToString native service
        (.ofJson (SignallingData.tree ⟨some eventName, some data⟩)) ↔
      ∃ sg, handle (Fields.written data) = .ok sg ∧ (sg.sender.isSome →
        ((PeerService.callback native service.videoEnable service.mediaType sg).run
          service).value = .ok ()) := by
  simp only [Unharmed, WsService.handleMessage_tree, hh]
  cases handle (Fields.written data) with
  | error e => simp [Except.map]
  | ok sg => simp [Except.map]

/-- A relayed candidate is harmless exactly when its data fit. -/
theorem unharmed_candidate_iff {data : Fields D} {socketId : Option String}
    (hid : Fields.get data "socketId" = .ofNullable socketId) :
    Unharmed castToString native service
        (.ofJson (SignallingData.tree ⟨some "_ice_candidate", some data⟩)) ↔
      CandidateFits native service data := by
  have hh : WsService.handler castToString "_ice_candidate" =
      some WsService.handleRemoteCandidate := rfl
  replace hid := (congrArg Json.written hid).trans (Json.written_ofNullable socketId)
  rw [← Fields.get_written] at hid
  rw [unharmed_tree_iff hh, ← candidateFits_written]
  simp only [WsService.handleRemoteCandidate_eq_ok, CandidateFits, knownSender_iff hid]
  constructor
  · rintro ⟨_, ⟨socketId', id, label, candidate, hs, h1, h2, h3, rfl⟩, hrun⟩
    obtain rfl := Json.ofNullable_injective (hid.symm.trans hs)
    exact ⟨id, label, candidate, h1, h2, h3,
      (PeerService.onRemoteIceCandidate_returns_iff _ _ _ _).mp (hrun rfl)⟩
  · rintro ⟨id, label, candidate, h1, h2, h3, hnative⟩
    exact ⟨_, ⟨socketId, id, label, candidate, hid, h1, h2, h3, rfl⟩,
      fun _ => (PeerService.onRemoteIceCandidate_returns_iff _ _ _ _).mpr hnative⟩

/-- A relayed offer is harmless exactly when its data fit. -/
theorem unharmed_offer_iff {data : Fields D} {socketId : Option String}
    (hid : Fields.get data "socketId" = .ofNullable socketId) :
    Unharmed castToString native service
        (.ofJson (SignallingData.tree ⟨some "_offer", some data⟩)) ↔
      OfferFits native service data := by
  have hh : WsService.handler castToString "_offer" = some WsService.handleOffer := rfl
  replace hid := (congrArg Json.written hid).trans (Json.written_ofNullable socketId)
  rw [← Fields.get_written] at hid
  rw [unharmed_tree_iff hh, ← offerFits_written]
  simp only [WsService.handleOffer, WsService.handleDescription_eq_ok, OfferFits,
    knownSender_iff hid]
  constructor
  · rintro ⟨_, ⟨inner, socketId', sdp, h1, hs, h2, rfl⟩, hrun⟩
    obtain rfl := Json.ofNullable_injective (hid.symm.trans hs)
    obtain ⟨h3, h4⟩ := (PeerService.onReceiveOffer_returns_iff _ _ _ _).mp (hrun rfl)
    exact ⟨inner, sdp, h1, h2, h3, h4⟩
  · rintro ⟨inner, sdp, h1, h2, h3, h4⟩
    exact ⟨_, ⟨inner, socketId, sdp, h1, hid, h2, rfl⟩,
      fun _ => (PeerService.onReceiveOffer_returns_iff _ _ _ _).mpr ⟨h3, h4⟩⟩

/-- A relayed answer is harmless exactly when its data fit. -/
theorem unharmed_answer_iff {data : Fields D} {socketId : Option String}
    (hid : Fields.get data "socketId" = .ofNullable socketId) :
    Unharmed castToString native service
        (.ofJson (SignallingData.tree ⟨some "_answer", some data⟩)) ↔
      AnswerFits native service data := by
  have hh : WsService.handler castToString "_answer" = some WsService.handleAnswer := rfl
  replace hid := (congrArg Json.written hid).trans (Json.written_ofNullable socketId)
  rw [← Fields.get_written] at hid
  rw [unharmed_tree_iff hh, ← answerFits_written]
  simp only [WsService.handleAnswer, WsService.handleDescription_eq_ok, AnswerFits,
    knownSender_iff hid]
  constructor
  · rintro ⟨_, ⟨inner, socketId', sdp, h1, hs, h2, rfl⟩, hrun⟩
    obtain rfl := Json.ofNullable_injective (hid.symm.trans hs)
    exact ⟨inner, sdp, h1, h2, (PeerService.onReceiverAnswer_returns_iff _ _ _ _).mp (hrun rfl)⟩
  · rintro ⟨inner, sdp, h1, h2, h3⟩
    exact ⟨_, ⟨inner, socketId, sdp, h1, hid, h2, rfl⟩,
      fun _ => (PeerService.onReceiverAnswer_returns_iff _ _ _ _).mpr h3⟩

/-- A text that starts no relayed task and decodes is harmless, and so is its event. -/
theorem unharmed_of_other {eventName : String} {data : Fields D} {sg : Signal}
    (hne : ∀ event ∈ SignallingServer.relays, eventName ≠ event.1)
    (h : WsService.handleMessage castToString
      (.ofJson (SignallingData.tree ⟨some eventName, some data⟩)) = .ok (some sg))
    (hs : sg.sender = none) :
    Unharmed castToString native service
        (.ofJson (SignallingData.tree ⟨some eventName, some data⟩)) ↔
      Fits native service eventName data := by
  refine iff_of_true ⟨some sg, h, ?_⟩ ⟨?_, ?_, ?_⟩
  · intro sg' hsg hsome
    obtain rfl := Option.some.inj hsg
    rw [hs] at hsome
    cases hsome
  · exact fun he => absurd he (hne _ (List.mem_cons_self ..))
  · exact fun he => absurd he (hne _ (List.mem_cons_of_mem _ (List.mem_cons_self ..)))
  · exact fun he => absurd he
      (hne _ (List.mem_cons_of_mem _ (List.mem_cons_of_mem _ (List.mem_cons_self ..))))

variable (castToString native service) in
/-- Whatever text the server sends, in any state and to whomever, the client comes through
it exactly when the data has the shape expected of its event. -/
theorem message_unharmed_iff {c : Container} {job : Job D} {sent : Sent D}
    (hsent : sent ∈ (c.outcome job).out) :
    ∃ eventName data, sent.text = .ofJson (SignallingData.tree ⟨some eventName, some data⟩) ∧
      (Unharmed castToString native service sent.text ↔ Fits native service eventName data) := by
  rcases Container.mem_out_cases hsent with ⟨session, message, name, _, _, ⟨dst, _, rfl⟩ | rfl⟩ |
    ⟨session, message, _, _, event, hmem, fs, dst, _, rfl⟩ | ⟨session, name, _, _, dst, _, rfl⟩
  · exact ⟨_, _, rfl, unharmed_of_other (by decide)
      (WsService.handleMessage_newPeer castToString session) rfl⟩
  · exact ⟨_, _, rfl, unharmed_of_other (by decide)
      (WsService.handleMessage_peers castToString _ session) rfl⟩
  · have hid : Fields.get (SignallingServer.relayedData event.2 fs session) "socketId" =
        .ofNullable (some session.id) := SignallingServer.get_relayedData ..
    refine ⟨_, _, rfl, ?_⟩
    simp only [SignallingServer.relays, List.mem_cons, List.not_mem_nil, or_false] at hmem
    rcases hmem with rfl | rfl | rfl
    · refine (unharmed_candidate_iff hid).trans ?_
      simp [Fits, SignallingServer.relayedData]
    · refine (unharmed_offer_iff hid).trans ?_
      simp [Fits, SignallingServer.relayedData]
    · refine (unharmed_answer_iff hid).trans ?_
      simp [Fits, SignallingServer.relayedData]
  · exact ⟨_, _, rfl, unharmed_of_other (by decide)
      (WsService.handleMessage_removePeer castToString session) rfl⟩

end Harm

/-- Two sessions are connected. -/
def connectedPair : List (Job IntDouble) :=
  [.onOpen ⟨"h"⟩ "hanna", .onOpen ⟨"x"⟩ "xaver"].map (⟨·, fun _ => false⟩)

/-- An offer to `h` with the given members beside `socketId`. -/
def offerToH (members : Fields IntDouble) : Job IntDouble :=
  ⟨.onMessage ⟨"x"⟩ (WsService.send "__offer" (("socketId", .str "h") :: members)), fun _ => false⟩

/-- An offer without a description reaches `h` and raises there. -/
theorem bareOffer_harms :
    Along Container.step Container.Quiet Container.start (connectedPair ++ [offerToH []]) ∧
      ∃ sent ∈ ((connectedPair.foldl Container.step Container.start).outcome (offerToH [])).out,
        sent.dst = ⟨"h"⟩ ∧
        ¬Unharmed (fun _ => .error .jsonSyntax) Native.lenient PeerService.init sent.text := by
  refine ⟨⟨⟨rfl, fun _ => rfl⟩, ⟨rfl, fun _ => rfl⟩, ⟨rfl, fun _ => rfl⟩, trivial⟩, ?_⟩
  refine ⟨_, List.mem_singleton_self (SignallingServer.notice
    (SignallingServer.relayed "_offer" ["sdp"] [("socketId", .str "h")] ⟨"x"⟩) ⟨"h"⟩), rfl, ?_⟩
  rintro ⟨signal, h, _⟩
  cases h

/-- An offer as the clients write it comes through. -/
theorem wellFormedOffer_unharmed :
    ∃ sent ∈ ((connectedPair.foldl Container.step Container.start).outcome
        (offerToH [("sdp", .obj [("sdp", .str "v=0")])])).out,
      sent.dst = ⟨"h"⟩ ∧
      Unharmed (fun _ => .error .jsonSyntax) Native.lenient PeerService.init sent.text := by
  have hsent : SignallingServer.notice (SignallingServer.relayed "_offer" ["sdp"]
      [("socketId", .str "h"), ("sdp", .obj [("sdp", .str "v=0")])] ⟨"x"⟩) ⟨"h"⟩ ∈
      ((connectedPair.foldl Container.step Container.start).outcome
        (offerToH [("sdp", .obj [("sdp", .str "v=0")])])).out := List.mem_singleton_self _
  refine ⟨_, hsent, rfl, ?_⟩
  obtain ⟨eventName, data, htext, hiff⟩ := message_unharmed_iff (fun _ => .error .jsonSyntax)
    Native.lenient PeerService.init hsent
  have htree := congrArg Text.tree htext
  simp only [SignallingServer.notice, SignallingServer.relayed_eq, Text.ofJson_tree,
    SignallingData.written_tree, Option.some.injEq, Json.obj.injEq, List.cons.injEq,
    Prod.mk.injEq, Json.str.injEq, true_and, and_true] at htree
  obtain ⟨rfl, hdata⟩ := htree
  rw [← fits_written, ← hdata, fits_written] at hiff
  refine hiff.mpr ⟨by simp, fun _ => ?_, by simp⟩
  exact ⟨[("sdp", .str "v=0")], some "v=0", rfl, rfl, fun _ => rfl, fun _ => rfl⟩

end WebrtcCaller
