import WebrtcCaller.System.Waiting

/-!
# What a callback tells whom

A callback of the server sends texts to the members of a room, to its own session
or to the addressee of a relay. Which texts these are, what they can announce to a
client, and what the server reads from the events a client writes.
-/

namespace WebrtcCaller

variable {D : Type} [JavaDouble D]

namespace SignallingServer

/-- The texts of a broadcast that go to one session. -/
theorem filter_notice {send : SignallingData D} {xs : List Session} (hn : xs.Nodup) (h : Session) :
    (xs.map (notice send)).filter (·.dst = h) = if h ∈ xs then [notice send h] else [] := by
  induction xs with
  | nil => rfl
  | cons x xs ih =>
    obtain ⟨hx, hxs⟩ := List.nodup_cons.mp hn
    rw [List.map_cons, List.filter_cons, ih hxs]
    by_cases hxh : x = h
    · subst hxh
      simp [notice, hx]
    · simp [notice, hxh, Ne.symm hxh]

variable {server : SignallingServer} {s h : Session} {name r : String}

/-- A member of the room hears of the newcomer. -/
theorem others_registered (hne : h ≠ s) : (server.registered name s).others name h =
    server.others name h ++ [s] := by
  have hid : s.id ≠ h.id := fun he => hne (Session.ext he.symm)
  simp [others, room_registered, hid]

/-- The newcomer finds those who were there. -/
theorem others_registered_self : (server.registered name s).others name s =
    server.others name s := by
  simp [others, room_registered]

theorem others_registered_of_ne (hr : r ≠ name) :
    (server.registered name s).others r h = server.others r h := by
  simp [others, room_registered, hr]

/-- A member of the room loses whoever leaves. -/
theorem others_unregistered (hn : (server.room name).Nodup) :
    (server.unregistered name s).others name h = (server.others name h).erase s := by
  rw [others, others, room_unregistered, if_pos rfl, hn.erase_eq_filter,
    (hn.filter _).erase_eq_filter, List.filter_filter, List.filter_filter]
  congr 1
  funext x
  exact Bool.and_comm ..

theorem others_unregistered_of_ne (hr : r ≠ name) :
    (server.unregistered name s).others r h = server.others r h := by
  simp [others, room_unregistered, hr]

end SignallingServer

/-- The room a callback makes its session join. -/
def ServerEvent.joins : ServerEvent D → Option String
  | .onMessage _ message => SignallingServer.joinTarget message
  | _ => none

/-- The id a callback is to relay its message to. -/
def ServerEvent.addressee : ServerEvent D → Option String
  | .onMessage _ message => SignallingServer.addressee message
  | _ => none

namespace World

variable {w : World D} {s : Session} {event : ServerEvent D} {fails : Session → Bool}

/-- Opening a session tells nobody. -/
theorem news_open (userId : String) (h : Session) :
    w.news s ⟨.onOpen s userId, fails⟩ h = [] := by
  simp [news, Container.outcome, ServerEvent.task, SignallingServer.run_onOpen]

/-- A join tells the members of the room about the newcomer, and the newcomer about them. -/
theorem news_join (hf : ∀ t, fails t = false) {message : Text D} {name : String}
    (hj : SignallingServer.joinTarget message = some name)
    (hn : (w.container.server.others name s).Nodup) (h : Session) :
    w.news s ⟨.onMessage s message, fails⟩ h =
      if h ∈ w.container.server.others name s then
        [⟨s, .ofJson (SignallingServer.newPeer s).tree⟩]
      else if h = s then
        [⟨s, .ofJson (SignallingServer.peers
          ((w.container.server.others name s).map (·.id)) s).tree⟩]
      else [] := by
  have hout : (w.container.outcome ⟨.onMessage s message, fails⟩).out =
      (w.container.server.others name s).map
          (SignallingServer.notice (SignallingServer.newPeer s)) ++
        [SignallingServer.notice (SignallingServer.peers
          ((w.container.server.others name s).map (·.id)) s) s] := by
    have hany (xs : List Session) : xs.any fails = false := by simp [hf]
    rcases SignallingServer.onMessage_cases fails message s w.container.server with
      ⟨name', hj', hrun⟩ | ⟨hj', _⟩
    · obtain rfl := Option.some.inj (hj'.symm.trans hj)
      simp [Container.outcome, ServerEvent.task, hrun, SignallingServer.joinOutcome, hany, hf]
    · simp [hj] at hj'
  have hself : s ∉ w.container.server.others name s :=
    fun hs => (SignallingServer.mem_others.mp hs).2 rfl
  rw [news, hout, List.filter_append, SignallingServer.filter_notice hn]
  by_cases hm : h ∈ w.container.server.others name s
  · have hne : s ≠ h := fun he => hself (he ▸ hm)
    simp [hm, SignallingServer.notice, hne]
  · by_cases he : h = s
    · subst he
      simp [hm, SignallingServer.notice]
    · simp [hm, SignallingServer.notice, he, Ne.symm he]

/-- Everything a callback of `s` can send to `h`. -/
theorem mem_news_cases (hs : event.session = s) {h : Session} {d : Delivery D}
    (hd : d ∈ w.news s ⟨event, fails⟩ h) : d.cause = s ∧
      ((∃ name, event.joins = some name ∧ h ∈ w.container.server.others name s ∧
          d.text = .ofJson (SignallingServer.newPeer s).tree) ∨
        (∃ name, event.joins = some name ∧ h = s ∧
          d.text = .ofJson (SignallingServer.peers
            ((w.container.server.others name s).map (·.id)) s).tree) ∨
        (event.joins = none ∧ (h ∈ w.container.server.sockets ∧ event.addressee = some h.id) ∧
          ∃ relay ∈ SignallingServer.relays, ∃ fs,
            d.text = .ofJson (SignallingServer.relayed relay.1 relay.2 fs s).tree) ∨
        ∃ name, event = .onClose s ∧ w.container.server.roomList.lookup s.id = some name ∧
          h ∈ w.container.server.others name s ∧
          d.text = .ofJson (SignallingServer.removePeer s).tree) := by
  obtain ⟨sent, hsent, rfl⟩ := List.mem_map.mp hd
  obtain ⟨hsent, hdst⟩ := List.mem_filter.mp hsent
  have hdst : sent.dst = h := of_decide_eq_true hdst
  refine ⟨rfl, ?_⟩
  rcases Container.mem_out_cases hsent with
    ⟨session, message, name, he, hj, ⟨dst, hmem, rfl⟩ | rfl⟩ |
    ⟨session, message, he, hj, relay, hmem, fs, dst, hsock, rfl⟩ |
    ⟨session, name, he, hl, dst, hmem, rfl⟩
  · obtain rfl : event = .onMessage session message := he
    obtain rfl : session = s := hs
    exact Or.inl ⟨name, hj, hdst ▸ hmem, rfl⟩
  · obtain rfl : event = .onMessage session message := he
    obtain rfl : session = s := hs
    exact Or.inr (Or.inl ⟨name, hj, hdst.symm, rfl⟩)
  · obtain rfl : event = .onMessage session message := he
    obtain rfl : session = s := hs
    exact Or.inr (Or.inr (Or.inl ⟨hj, hdst ▸ hsock, relay, hmem, fs, rfl⟩))
  · obtain rfl : event = .onClose session := he
    obtain rfl : session = s := hs
    exact Or.inr (Or.inr (Or.inr ⟨name, rfl, hl, hdst ▸ hmem, rfl⟩))

/-- A close tells the members of the room. -/
theorem news_close (hf : ∀ t, fails t = false) (hfiled : w.container.Filed) {name : String}
    (hl : w.container.server.roomList.lookup s.id = some name)
    (hn : (w.container.server.others name s).Nodup) (h : Session) :
    w.news s ⟨.onClose s, fails⟩ h =
      if h ∈ w.container.server.others name s then
        [⟨s, .ofJson (SignallingServer.removePeer s).tree⟩]
      else [] := by
  have hany (xs : List Session) : xs.any fails = false := by simp [hf]
  obtain ⟨xs, hx⟩ := Option.isSome_iff_exists.mp (hfiled.listed _ _ hl)
  have hout : (w.container.outcome (⟨.onClose s, fails⟩ : Job D)).out =
      (w.container.server.others name s).map
        (SignallingServer.notice (SignallingServer.removePeer s)) := by
    simp [Container.outcome, ServerEvent.task, SignallingServer.run_onClose,
      SignallingServer.closeOutcome, hl, hx, hany]
  rw [news, hout, SignallingServer.filter_notice hn]
  split <;> rfl

/-- The close of a session that never joined tells nobody. -/
theorem news_close_of_none (hl : w.container.server.roomList.lookup s.id = none) (h : Session) :
    w.news s ⟨.onClose s, fails⟩ h = [] := by
  simp [news, Container.outcome, ServerEvent.task, SignallingServer.run_onClose,
    SignallingServer.closeOutcome, hl]

variable {env : Setting D}

/-- What a message that is no join sends is relayed. -/
theorem onlyRelays_of_message {message : Text D}
    (hj : SignallingServer.joinTarget message = none) (h : Session) :
    env.OnlyRelays (w.news s ⟨.onMessage s message, fails⟩ h) := by
  intro d hd signal hs
  have hown : (ServerEvent.onMessage s message).session = s := rfl
  rcases (mem_news_cases hown hd).2 with ⟨name, hj', _⟩ | ⟨name, hj', _⟩ |
    ⟨_, _, relay, hmem, fs, htext⟩ | ⟨name, he, _⟩
  · cases hj.symm.trans hj'
  · cases hj.symm.trans hj'
  · rw [htext] at hs
    rw [env.sender_of_relayed hmem hs]
    rfl
  · cases he

/-- A session filed under no room is told of nobody but by the answer to its own join. -/
theorem onlyRelays_news (ha : w.container.server.Agree) (hs : event.session = s) {t : Session}
    (ht : t = s → event.joins = none) (hl : w.container.server.roomList.lookup t.id = none) :
    env.OnlyRelays (w.news s ⟨event, fails⟩ t) := by
  have hout (name : String) : t ∉ w.container.server.others name s := fun hm => by
    have := (ha.filed_iff t name).mp (SignallingServer.mem_others.mp hm).1
    cases hl.symm.trans this
  intro d hd signal hsig
  rcases (mem_news_cases hs hd).2 with ⟨name, _, hm, _⟩ | ⟨name, hj, he, _⟩ |
    ⟨_, _, relay, hmem, fs, htext⟩ | ⟨name, _, _, hm, _⟩
  · exact absurd hm (hout name)
  · cases hj.symm.trans (ht he)
  · rw [htext] at hsig
    rw [env.sender_of_relayed hmem hsig]
    rfl
  · exact absurd hm (hout name)

/-- A callback answers no join but its own. -/
theorem noJoin_news (hs : event.session = s) {t : Session} (ht : t = s → event.joins = none) :
    env.NoJoin (w.news s ⟨event, fails⟩ t) := by
  intro d hd signal hsig
  rcases (mem_news_cases hs hd).2 with ⟨name, _, _, htext⟩ | ⟨name, hj, he, _⟩ |
    ⟨_, _, relay, hmem, fs, htext⟩ | ⟨name, _, _, _, htext⟩
  · rw [htext, env.signal_newPeer] at hsig
    cases hsig
    rfl
  · cases hj.symm.trans (ht he)
  · rw [htext] at hsig
    exact Signal.isJoin_of_sender (by rw [env.sender_of_relayed hmem hsig]; rfl)
  · rw [htext, env.signal_removePeer] at hsig
    cases hsig
    rfl

/-- What a callback of another session, or one that neither joins nor closes, does to the
room a session is filed under. -/
theorem lookup_step_of_none (c : Container) (job : Job D) {t : Session}
    (ht : t = job.event.session → job.event.joins = none ∧ job.event.after ≠ .closed) :
    (c.step job).server.roomList.lookup t.id = c.server.roomList.lookup t.id := by
  rcases c.step_cases job with ⟨_, _, _, hserver⟩ | ⟨session, message, name, he, hj, _, hserver⟩ |
    ⟨_, _, _, hserver⟩ | ⟨session, name, he, _, _, hserver⟩ | ⟨hserver, _⟩
  · rw [hserver]
  · rw [hserver, SignallingServer.lookup_roomList_registered, if_neg]
    intro hid
    have hsession : t = job.event.session := by
      rw [he]
      exact Session.ext hid
    have hnone := (ht hsession).1
    rw [he, ServerEvent.joins, hj] at hnone
    cases hnone
  · rw [hserver]
  · rw [hserver, SignallingServer.lookup_roomList_unregistered, if_neg]
    intro hid
    have hsession : t = job.event.session := by
      rw [he]
      exact Session.ext hid
    have hopen := (ht hsession).2
    rw [he] at hopen
    exact hopen rfl
  · rw [hserver]

/-- A join files its session. -/
theorem lookup_step_of_join {c : Container} (hf : ∀ t, fails t = false) (hs : event.session = s)
    {name : String} (hj : event.joins = some name) :
    (c.step ⟨event, fails⟩).server.roomList.lookup s.id = some name := by
  cases event with
  | onOpen session userId => cases hj
  | onClose session => cases hj
  | onMessage session message =>
    obtain rfl : session = s := hs
    rw [Container.server_join hf session hj, SignallingServer.lookup_roomList_registered,
      if_pos rfl]

end World

namespace SignallingServer

/-- What the server reads from an event of the client. -/
theorem request_send (eventName : String) (data : Fields D) :
    request (WsService.send eventName data) = some (eventName, some (Fields.written data)) := by
  have hparse : SignallingData.fromJson (WsService.send eventName data) =
      .ok (some ⟨some eventName, some (Fields.written data)⟩) := by
    rw [SignallingData.fromJson, WsService.send, Text.ofJson_tree, Json.written_event]
    rfl
  simp only [request, WsService.contains_send, if_true, hparse]

/-- An event of the client is no join unless it is called so. -/
theorem joinTarget_send {eventName : String} (hne : eventName ≠ "__join") (data : Fields D) :
    joinTarget (WsService.send eventName data) = none := by
  simp only [joinTarget, request_send, if_neg hne]

theorem joinTarget_relay (socketId : Option String) (relay : Relay) :
    joinTarget (relay.text socketId : Text D) = none := by
  cases relay with
  | offer sdp => exact joinTarget_send (by decide) _
  | answer sdp => exact joinTarget_send (by decide) _
  | candidate iceCandidate => exact joinTarget_send (by decide) _

/-- The room a client asks for is the one it joins. -/
theorem joinTarget_joinRoom (room : Option String) :
    joinTarget (WsService.joinRoom room : Text D) = some (room.getD "__default") := by
  have hroom : joinedRoom (Fields.written [("room", .ofNullable room)] : Fields D) =
      room.getD "__default" := by
    cases room <;> rfl
  simp only [joinTarget, WsService.joinRoom, request_send, if_true, hroom]

/-- An event of the client is addressed to the `socketId` of its data. -/
theorem addressee_send (eventName : String) {data : Fields D} {socketId : Option String}
    (hid : Fields.get data "socketId" = .ofNullable socketId) :
    addressee (WsService.send eventName data) = socketId := by
  simp only [addressee, request_send, Fields.get_written, hid, Json.written_ofNullable]
  cases socketId <;> rfl

theorem addressee_relay (socketId : Option String) (relay : Relay) :
    addressee (relay.text socketId : Text D) = socketId := by
  cases relay with
  | offer sdp => exact addressee_send _ rfl
  | answer sdp => exact addressee_send _ rfl
  | candidate iceCandidate => exact addressee_send _ rfl

theorem addressee_joinRoom (room : Option String) :
    addressee (WsService.joinRoom room : Text D) = none := addressee_send _ rfl

end SignallingServer

end WebrtcCaller
