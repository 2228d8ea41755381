import WebrtcCaller.Client.Decoding

/-!
# The server with its clients

The system of one signalling server and any number of clients. Each connection
is first-in-first-out in both directions: `up` holds the callbacks of a session
that the runner has not executed yet, `down` the texts sent to a session that
its client has not processed yet, each with the session whose task sent it.
Every interleaving of the connections is a run; what the participants may do is
left to a step discipline.
-/

namespace WebrtcCaller

variable {D : Type}

/-- The parts of the clients that are not modelled, and their call settings. -/
structure Setting (D : Type) where
  castToString : Json D → Except Raise String
  native : Native
  videoEnable : Session → Bool
  mediaType : Session → Int32

/-- A text sent to a session, with the session whose task sent it. -/
structure Delivery (D : Type) where
  cause : Session
  text : Text D

/-- The client behind a session. -/
structure Client where
  service : PeerService
  /-- `ManagerImpl.joinRoom` has been called. -/
  asked : Bool
  /-- `exitRoom` has been called. -/
  exited : Bool
  /-- The signalling callbacks run so far, oldest first. -/
  ran : List Signal
  /-- Everything done to the native library and the view, oldest first. -/
  effects : List Effect

/-- The whole system. -/
structure World (D : Type) where
  container : Container
  up : Session → List (ServerEvent D)
  down : Session → List (Delivery D)
  client : Session → Client
  /-- The callbacks the runner has executed, oldest first. -/
  served : List (ServerEvent D)

/-- What can happen next. -/
inductive Act (D : Type) where
  | connect (s : Session) (userId : String)
  | joinRoom (s : Session) (room : Option String)
  | send (s : Session) (text : Text D)
  | disconnect (s : Session)
  | serve (s : Session) (fails : Session → Bool)
  | deliver (s : Session)
  | exitRoom (s : Session)

namespace Setting

variable [JavaDouble D] (env : Setting D)

/-- The callback a text ends in; a text that raises is lost. -/
def signal (text : Text D) : Option Signal :=
  match WsService.handleMessage env.castToString text with
  | .ok signal => signal
  | .error _ => none

/-- The task a text starts at the client `h`. -/
def task (h : Session) (text : Text D) : PeerTask Unit :=
  match env.signal text with
  | none => pure ()
  | some signal => PeerService.callback env.native (env.videoEnable h) (env.mediaType h) signal

/-- The service of `h` after the text. -/
def hear (h : Session) (service : PeerService) (d : Delivery D) : PeerService :=
  ((env.task h d.text).run service).state

end Setting

namespace Setting

variable [JavaDouble D] (env : Setting D)

theorem signal_peers (ids : List String) (socket : Session) :
    env.signal (.ofJson (SignallingServer.peers ids socket).tree) =
      some (.onJoinToRoom (some (ids.map some)) (some socket.id)) := by
  rw [signal, WsService.handleMessage_peers]

theorem signal_newPeer (socket : Session) :
    env.signal (.ofJson (SignallingServer.newPeer socket).tree) =
      some (.onRemoteJoinToRoom (some socket.id)) := by
  rw [signal, WsService.handleMessage_newPeer]

theorem signal_removePeer (socket : Session) :
    env.signal (.ofJson (SignallingServer.removePeer socket).tree) =
      some (.onRemoteOutRoom (some socket.id)) := by
  rw [signal, WsService.handleMessage_removePeer]

/-- Whatever its sender wrote, a relay names the session it comes from. -/
theorem sender_of_relayed {event : String × List String} (hmem : event ∈ SignallingServer.relays)
    {data : Fields D} {socket : Session} {signal : Signal}
    (h : env.signal (.ofJson (SignallingServer.relayed event.1 event.2 data socket).tree) =
      some signal) : signal.sender = some (some socket.id) := by
  have hid : Fields.get (Fields.written (SignallingServer.relayedData event.2 data socket))
      "socketId" = .ofNullable (some socket.id) := by
    rw [Fields.get_written, SignallingServer.get_relayedData]
    rfl
  rw [SignallingServer.relayed_eq, Setting.signal, WsService.handleMessage_tree] at h
  -- the handlers see nothing but the members written
  generalize Fields.written (SignallingServer.relayedData event.2 data socket) = fs at h hid
  simp only [SignallingServer.relays, List.mem_cons, List.not_mem_nil, or_false] at hmem
  rcases hmem with rfl | rfl | rfl
  · cases hc : WsService.handleRemoteCandidate fs with
    | error e => simp [WsService.handler, hc, Except.map] at h
    | ok sg =>
      obtain rfl : sg = signal := by simpa [WsService.handler, hc, Except.map] using h
      obtain ⟨socketId, id, label, candidate, hs, _, _, _, rfl⟩ :=
        WsService.handleRemoteCandidate_eq_ok.mp hc
      exact congrArg some (Json.ofNullable_injective (hs.symm.trans hid))
  · cases hc : WsService.handleOffer fs with
    | error e => simp [WsService.handler, hc, Except.map] at h
    | ok sg =>
      obtain rfl : sg = signal := by simpa [WsService.handler, hc, Except.map] using h
      obtain ⟨inner, socketId, sdp, _, hs, _, rfl⟩ := WsService.handleDescription_eq_ok.mp hc
      exact congrArg some (Json.ofNullable_injective (hs.symm.trans hid))
  · cases hc : WsService.handleAnswer fs with
    | error e => simp [WsService.handler, hc, Except.map] at h
    | ok sg =>
      obtain rfl : sg = signal := by simpa [WsService.handler, hc, Except.map] using h
      obtain ⟨inner, socketId, sdp, _, hs, _, rfl⟩ := WsService.handleDescription_eq_ok.mp hc
      exact congrArg some (Json.ofNullable_injective (hs.symm.trans hid))

variable {env} {h : Session} {service : PeerService} {d : Delivery D} {signal : Signal}

/-- A text that decodes starts the task of its callback. -/
theorem task_of_signal (hs : env.signal d.text = some signal) : env.task h d.text =
    PeerService.callback env.native (env.videoEnable h) (env.mediaType h) signal := by
  rw [task, hs]

theorem hear_of_none (hs : env.signal d.text = none) : env.hear h service d = service := by
  rw [hear, task, hs]
  rfl

theorem hear_of_some (hs : env.signal d.text = some signal) : env.hear h service d =
    ((PeerService.callback env.native (env.videoEnable h) (env.mediaType h) signal).run
      service).state := by
  rw [hear, task_of_signal hs]

theorem hear_peers (cause socket : Session) (ids : List String) :
    env.hear h service ⟨cause, .ofJson (SignallingServer.peers ids socket).tree⟩ =
      ((PeerService.onJoinToRoom (some (ids.map some)) (some socket.id) (env.videoEnable h)
        (env.mediaType h)).run service).state :=
  hear_of_some (d := ⟨cause, .ofJson (SignallingServer.peers ids socket).tree⟩)
    (env.signal_peers ids socket)

theorem hear_newPeer (cause socket : Session) :
    env.hear h service ⟨cause, .ofJson (SignallingServer.newPeer socket).tree⟩ =
      ((PeerService.onRemoteJoinToRoom (some socket.id)).run service).state :=
  hear_of_some (d := ⟨cause, .ofJson (SignallingServer.newPeer socket).tree⟩)
    (env.signal_newPeer socket)

theorem hear_removePeer (cause socket : Session) :
    env.hear h service ⟨cause, .ofJson (SignallingServer.removePeer socket).tree⟩ =
      ((PeerService.onRemoteOutRoom (some socket.id)).run service).state :=
  hear_of_some (d := ⟨cause, .ofJson (SignallingServer.removePeer socket).tree⟩)
    (env.signal_removePeer socket)

/-- A text that at most relays something keeps what the roster says. -/
theorem roster_hear (hs : ∀ signal, env.signal d.text = some signal → signal.sender.isSome) :
    (env.hear h service d).roster = service.roster := by
  cases hd : env.signal d.text with
  | none => rw [hear_of_none hd]
  | some signal =>
    rw [hear_of_some hd]
    exact PeerService.roster_relayed _ _ _ (hs signal hd)

end Setting

namespace Client

/-- A client that has not been started. -/
def init : Client := ⟨.init, false, false, [], []⟩

/-- `ManagerImpl.joinRoom`, as far as the service is concerned. -/
def joinRoom (client : Client) : Client :=
  { client with service := client.service.initContext, asked := true }

/-- The call is left. -/
def exitRoom (client : Client) : Client :=
  { client with
    service := (PeerService.exitRoom.run client.service).state
    exited := true
    effects := client.effects ++ (PeerService.exitRoom.run client.service).out }

/-- The client of `h` processes the text `d`. -/
def process [JavaDouble D] (env : Setting D) (h : Session) (client : Client) (d : Delivery D) :
    Client :=
  { client with
    service := env.hear h client.service d
    ran := client.ran ++ (env.signal d.text).toList
    effects := client.effects ++ ((env.task h d.text).run client.service).out }

@[simp] theorem asked_joinRoom (client : Client) : client.joinRoom.asked = true := rfl

end Client

namespace World

/-- Nobody connected. -/
def start : World D := ⟨.start, fun _ => [], fun _ => [], fun _ => .init, []⟩

/-- The container submits a callback to the runner. -/
def submit (w : World D) (s : Session) (event : ServerEvent D) : World D :=
  { w with up := Function.update w.up s (w.up s ++ [event]) }

/-- Replace the client of a session. -/
def setClient (w : World D) (s : Session) (client : Client) : World D :=
  { w with client := Function.update w.client s client }

@[simp] theorem container_submit (w : World D) (s : Session) (event : ServerEvent D) :
    (w.submit s event).container = w.container := rfl

@[simp] theorem down_submit (w : World D) (s : Session) (event : ServerEvent D) :
    (w.submit s event).down = w.down := rfl

@[simp] theorem client_submit (w : World D) (s : Session) (event : ServerEvent D) :
    (w.submit s event).client = w.client := rfl

@[simp] theorem container_setClient (w : World D) (s : Session) (client : Client) :
    (w.setClient s client).container = w.container := rfl

@[simp] theorem up_setClient (w : World D) (s : Session) (client : Client) :
    (w.setClient s client).up = w.up := rfl

@[simp] theorem up_submit_self (w : World D) (s : Session) (event : ServerEvent D) :
    (w.submit s event).up s = w.up s ++ [event] := Function.update_self ..

theorem up_submit_of_ne (w : World D) {s t : Session} (h : t ≠ s) (event : ServerEvent D) :
    (w.submit s event).up t = w.up t := Function.update_of_ne h ..

@[simp] theorem client_setClient_self (w : World D) (s : Session) (client : Client) :
    (w.setClient s client).client s = client := Function.update_self ..

theorem client_setClient_of_ne (w : World D) {s t : Session} (h : t ≠ s) (client : Client) :
    (w.setClient s client).client t = w.client t := Function.update_of_ne h ..

/-- The phase a session will be in once its submitted callbacks have run. -/
def linkPhase (w : World D) (s : Session) : Phase :=
  (w.up s).foldl (fun _ event => event.after) (w.container.phase s)

variable [JavaDouble D]

/-- What the runner sends to `h` by the task of `s`. -/
def news (w : World D) (s : Session) (job : Job D) (h : Session) : List (Delivery D) :=
  ((w.container.outcome job).out.filter (·.dst = h)).map fun sent => ⟨s, sent.text⟩

/-- The runner executes the callback `event` of `s`. -/
def execute (w : World D) (s : Session) (event : ServerEvent D) (rest : List (ServerEvent D))
    (fails : Session → Bool) : World D :=
  { w with
    container := w.container.step ⟨event, fails⟩
    up := Function.update w.up s rest
    down := fun h => w.down h ++ w.news s ⟨event, fails⟩ h
    served := w.served ++ [event] }

/-- The runner executes the next callback of `s`, if there is one. -/
def serve (w : World D) (s : Session) (fails : Session → Bool) : World D :=
  match w.up s with
  | [] => w
  | event :: rest => w.execute s event rest fails

variable (env : Setting D)

/-- The client of `h` processes the text `d`. -/
def process (w : World D) (h : Session) (d : Delivery D) (rest : List (Delivery D)) : World D :=
  { w.setClient h ((w.client h).process env h d) with
    down := Function.update w.down h rest }

/-- The client of `h` processes its next text, if there is one. -/
def deliver (w : World D) (h : Session) : World D :=
  match w.down h with
  | [] => w
  | d :: rest => w.process env h d rest

/-- One step of the system. -/
def step (w : World D) : Act D → World D
  | .connect s userId => w.submit s (.onOpen s userId)
  | .joinRoom s room =>
    (w.submit s (.onMessage s (WsService.joinRoom room))).setClient s (w.client s).joinRoom
  | .send s text => w.submit s (.onMessage s text)
  | .disconnect s => w.submit s (.onClose s)
  | .serve s fails => w.serve s fails
  | .deliver h => w.deliver env h
  | .exitRoom h => w.setClient h (w.client h).exitRoom

/-- The service of `h` once everything queued for it has been processed. -/
def drained (w : World D) (h : Session) : PeerService :=
  (w.down h).foldl (env.hear h) (w.client h).service

end World

/-- A session connects once, and sends and closes while it is connected. -/
def World.Lawful (w : World D) : Act D → Prop
  | .connect s _ => w.linkPhase s = .unopened
  | .joinRoom s _ | .send s _ | .disconnect s => w.linkPhase s = .opened
  | _ => True

namespace World

section Fields

variable [JavaDouble D] (w : World D) (s : Session) (event : ServerEvent D)
  (rest : List (ServerEvent D)) (fails : Session → Bool)

@[simp] theorem container_execute :
    (w.execute s event rest fails).container = w.container.step ⟨event, fails⟩ := rfl

@[simp] theorem client_execute : (w.execute s event rest fails).client = w.client := rfl

@[simp] theorem served_execute : (w.execute s event rest fails).served = w.served ++ [event] := rfl

@[simp] theorem down_execute (h : Session) :
    (w.execute s event rest fails).down h = w.down h ++ w.news s ⟨event, fails⟩ h := rfl

@[simp] theorem up_execute_self : (w.execute s event rest fails).up s = rest :=
  Function.update_self ..

theorem up_execute_of_ne {s t : Session} (h : t ≠ s) :
    (w.execute s event rest fails).up t = w.up t := Function.update_of_ne h ..

variable (env : Setting D) (h : Session) (d : Delivery D) (later : List (Delivery D))

@[simp] theorem down_process_self : (w.process env h d later).down h = later :=
  Function.update_self ..

theorem down_process_of_ne {h t : Session} (ht : t ≠ h) :
    (w.process env h d later).down t = w.down t := Function.update_of_ne ht ..

@[simp] theorem client_process_self :
    (w.process env h d later).client h = (w.client h).process env h d :=
  Function.update_self ..

theorem client_process_of_ne {h t : Session} (ht : t ≠ h) :
    (w.process env h d later).client t = w.client t := Function.update_of_ne ht ..

end Fields

/-- What every step does, each kind of step in one clause. -/
theorem step_cases [JavaDouble D] (env : Setting D) (w : World D) (act : Act D) :
    (∃ s event, w.step env act = w.submit s event ∧ event.session = s ∧
      ((∃ userId, act = .connect s userId ∧ event = .onOpen s userId) ∨
        (∃ text, act = .send s text ∧ event = .onMessage s text) ∨
        (act = .disconnect s ∧ event = .onClose s))) ∨
    (∃ s room, act = .joinRoom s room ∧ w.step env act =
      (w.submit s (.onMessage s (WsService.joinRoom room))).setClient s (w.client s).joinRoom) ∨
    (∃ s fails event rest, act = .serve s fails ∧ w.up s = event :: rest ∧
      w.step env act = w.execute s event rest fails) ∨
    (∃ h d rest, act = .deliver h ∧ w.down h = d :: rest ∧
      w.step env act = w.process env h d rest) ∨
    (∃ h, act = .exitRoom h ∧ w.step env act = w.setClient h (w.client h).exitRoom) ∨
    w.step env act = w := by
  cases act with
  | connect s userId => exact Or.inl ⟨s, _, rfl, rfl, Or.inl ⟨userId, rfl, rfl⟩⟩
  | joinRoom s room => exact Or.inr (Or.inl ⟨s, room, rfl, rfl⟩)
  | send s text => exact Or.inl ⟨s, _, rfl, rfl, Or.inr (Or.inl ⟨text, rfl, rfl⟩)⟩
  | disconnect s => exact Or.inl ⟨s, _, rfl, rfl, Or.inr (Or.inr ⟨rfl, rfl⟩)⟩
  | serve s fails =>
    cases hu : w.up s with
    | nil =>
      refine Or.inr (Or.inr (Or.inr (Or.inr (Or.inr ?_))))
      simp only [step, serve, hu]
    | cons event rest =>
      refine Or.inr (Or.inr (Or.inl ⟨s, fails, event, rest, rfl, hu, ?_⟩))
      simp only [step, serve, hu]
  | deliver h =>
    cases hd : w.down h with
    | nil =>
      refine Or.inr (Or.inr (Or.inr (Or.inr (Or.inr ?_))))
      simp only [step, deliver, hd]
    | cons d rest =>
      refine Or.inr (Or.inr (Or.inr (Or.inl ⟨h, d, rest, rfl, hd, ?_⟩)))
      simp only [step, deliver, hd]
  | exitRoom h => exact Or.inr (Or.inr (Or.inr (Or.inr (Or.inl ⟨h, rfl, rfl⟩))))

/-- The submitted callbacks of a session are its own, and continue its phase. -/
structure Linked (w : World D) : Prop where
  own : ∀ s, ∀ event ∈ w.up s, event.session = s
  phases : ∀ s, Along (fun _ event => event.after) (fun phase event => phase = event.before)
    (w.container.phase s) (w.up s)

theorem linked_start : (start : World D).Linked := ⟨nofun, fun _ => trivial⟩

/-- An event that fits the phase of its link may be submitted. -/
theorem Linked.submit {w : World D} (h : w.Linked) {s : Session} {event : ServerEvent D}
    (hs : event.session = s) (hp : w.linkPhase s = event.before) : (w.submit s event).Linked where
  own t e he := by
    by_cases ht : t = s
    · subst ht
      rw [up_submit_self, List.mem_append, List.mem_singleton] at he
      rcases he with he | rfl
      · exact h.own t e he
      · exact hs
    · rw [up_submit_of_ne w ht] at he
      exact h.own t e he
  phases t := by
    by_cases ht : t = s
    · subst ht
      rw [up_submit_self, along_append]
      exact ⟨h.phases t, hp, trivial⟩
    · rw [up_submit_of_ne w ht]
      exact h.phases t

/-- The next callback of a session is one the container delivers now. -/
theorem Linked.allowed {w : World D} {s : Session} (h : w.Linked) {event : ServerEvent D}
    {rest : List (ServerEvent D)} (hu : w.up s = event :: rest) (fails : Session → Bool) :
    event.session = s ∧ w.container.Allowed ⟨event, fails⟩ := by
  have hs : event.session = s := h.own s event (by rw [hu]; exact List.mem_cons_self ..)
  refine ⟨hs, ?_⟩
  have hp := h.phases s
  rw [hu] at hp
  rw [Container.Allowed, hs]
  exact hp.1

/-- A session that may still send is not closed. -/
theorem Linked.phase_ne_closed {w : World D} {s : Session} (h : w.Linked)
    (hp : w.linkPhase s = .opened) : w.container.phase s ≠ .closed := by
  intro hc
  have hphases := h.phases s
  rw [linkPhase] at hp
  cases hu : w.up s with
  | nil =>
    rw [hu, List.foldl_nil, hc] at hp
    cases hp
  | cons event rest =>
    rw [hu, hc] at hphases
    have hbefore : Phase.closed = event.before := hphases.1
    cases event <;> cases hbefore

section Steps

variable [JavaDouble D] (env : Setting D) {w : World D} {s : Session}

/-- An executed callback keeps the phases in step with what is still to come. -/
theorem Linked.execute (h : w.Linked) {event : ServerEvent D} {rest : List (ServerEvent D)}
    (hu : w.up s = event :: rest) (fails : Session → Bool) :
    (w.execute s event rest fails).Linked := by
  obtain ⟨hs, _⟩ := h.allowed hu fails
  have hp := h.phases s
  rw [hu] at hp
  refine ⟨fun t e he => ?_, fun t => ?_⟩
  · by_cases ht : t = s
    · subst ht
      rw [up_execute_self] at he
      exact h.own t e (by rw [hu]; exact List.mem_cons_of_mem _ he)
    · rw [up_execute_of_ne w event rest fails ht] at he
      exact h.own t e he
  · by_cases ht : t = s
    · subst ht
      have hphase := Container.phase_step_self w.container (⟨event, fails⟩ : Job D)
      rw [hs] at hphase
      rw [up_execute_self, container_execute, hphase]
      exact hp.2
    · have hne : t ≠ (⟨event, fails⟩ : Job D).event.session := fun he => ht (he.trans hs)
      rw [up_execute_of_ne w event rest fails ht, container_execute,
        Container.phase_step_of_ne hne]
      exact h.phases t

/-- Every lawful act keeps the links. -/
theorem Linked.step (h : w.Linked) (act : Act D) (hok : w.Lawful act) :
    (w.step env act).Linked := by
  rcases w.step_cases env act with ⟨s, event, hw, hs, hact⟩ | ⟨s, room, rfl, hw⟩ |
    ⟨s, fails, event, rest, rfl, hu, hw⟩ | ⟨t, d, rest, rfl, hd, hw⟩ | ⟨t, rfl, hw⟩ | hw
  · rw [hw]
    refine h.submit hs ?_
    rcases hact with ⟨userId, rfl, rfl⟩ | ⟨text, rfl, rfl⟩ | ⟨rfl, rfl⟩ <;> exact hok
  · rw [hw]
    have hl : (w.submit s (.onMessage s (WsService.joinRoom room))).Linked := h.submit rfl hok
    exact ⟨hl.own, hl.phases⟩
  · rw [hw]
    exact h.execute hu fails
  · rw [hw]
    exact ⟨h.own, h.phases⟩
  · rw [hw]
    exact ⟨h.own, h.phases⟩
  · rwa [hw]

/-- What an executed callback adds to the queue of `h` is processed last. -/
theorem drained_execute (event : ServerEvent D) (rest : List (ServerEvent D))
    (fails : Session → Bool) (h : Session) :
    (w.execute s event rest fails).drained env h =
      (w.news s ⟨event, fails⟩ h).foldl (env.hear h) (w.drained env h) := by
  simp only [drained, down_execute, client_execute, List.foldl_append]

/-- Processing the next text changes nothing once everything is processed. -/
theorem drained_process {h : Session} {d : Delivery D} {rest : List (Delivery D)}
    (hd : w.down h = d :: rest) (t : Session) :
    (w.process env h d rest).drained env t = w.drained env t := by
  by_cases ht : t = h
  · subst ht
    simp only [drained, down_process_self, client_process_self, hd, List.foldl_cons, Client.process]
  · simp only [drained, down_process_of_ne w env d rest ht, client_process_of_ne w env d rest ht]

end Steps

end World

end WebrtcCaller
