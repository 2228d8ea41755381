import WebrtcCaller.Server.Runner

/-!
# The instant-messaging server

`ImServer` forwards every well-formed text to the session filed under its
`dstId`. The forward map is keyed by user while opens and closes come per
session: `onClose` removes the entry of the user whichever session it names.
A connected user therefore stays reachable exactly as long as no session is
closed while another one of the same user is open.
-/

namespace WebrtcCaller

/-- The static registries of the server. -/
structure ImServer where
  sockets : List Session
  /-- The session of each user. -/
  sessionMap1 : AList fun _ : String => Session
  /-- The user of each session. -/
  sessionMap2 : AList fun _ : Session => String

/-- A runner task of the server. -/
abbrev ImTask (D α : Type) := Task ImServer (Sent D) Raise α

variable {D : Type}

/-- `JSONObject.getString` on a member: null, or the string of the value. -/
def Json.getString [JavaDouble D] : Json D → Option String
  | .null => none
  | .str s => some s
  | .num d => some (JavaDouble.toString d)
  | v => some (String.ofList v.written.print)

namespace ImServer

/-- The registries when the class is loaded. -/
def empty : ImServer := ⟨[], ∅, ∅⟩

/-- A later session of a user takes its place in the forward map. -/
def onOpen (session : Session) (userId : String) : ImTask D Unit := do
  Task.modify fun server => { server with sockets := server.sockets ++ [session] }
  Task.modify fun server => { server with sessionMap1 := server.sessionMap1.insert userId session }
  Task.modify fun server => { server with sessionMap2 := server.sessionMap2.insert session userId }

/-- The entry of the user goes, whichever session it is for. -/
def onClose (session : Session) (userId : String) : ImTask D Unit := do
  Task.modify fun server => { server with sockets := server.sockets.erase session }
  Task.modify fun server => { server with sessionMap1 := server.sessionMap1.erase userId }
  Task.modify fun server => { server with sessionMap2 := server.sessionMap2.erase session }

section Messages

variable [JavaDouble D] (readsObject : String → Bool)

/-- `JSONObject.parseObject(message)`; the JSON null gives a null object. -/
def parseObject (message : Text D) : Except Raise (Option (Fields D)) :=
  match message.tree with
  | none => .error .jsonSyntax
  | some .null => .ok none
  | some (.obj fs) => .ok (some fs)
  | some _ => .error .classCast

/-- `recv.getJSONObject("data")`. Whether a string is read as an object is up
to the library version. -/
def getJSONObject (recv : Fields D) : Except Raise Unit :=
  match Fields.get recv "data" with
  | .null | .obj _ => .ok ()
  | .str s => if readsObject s then .ok () else .error .classCast
  | _ => .error .classCast

/-- A text goes on as it is, to the session of the user it names. -/
def handleMessage (message : Text D) : ImTask D Unit := do
  let recv ← Task.ofExcept (parseObject message)
  let recv ← Task.ofExcept (deref recv)
  let dstId := (Fields.get recv "dstId").getString
  Task.ofExcept (getJSONObject readsObject recv)
  -- the concurrent map refuses a null key
  let dstId ← Task.ofExcept (deref dstId)
  match (← Task.get).sessionMap1.lookup dstId with
  | none => pure ()
  | some dstSession => Task.emit ⟨dstSession, message⟩

/-- A text that cannot be handled is dropped. -/
def onMessage (message : Text D) : ImTask D Unit :=
  Task.swallow (handleMessage readsObject message)

end Messages

/-- A text as the clients write it, for the user `userId`. -/
def WellFormed (message : Text D) (userId : String) : Prop :=
  ∃ fs srcId type data, message.tree = some (.obj fs) ∧ Fields.get fs "srcId" = .str srcId ∧
    Fields.get fs "dstId" = .str userId ∧ Fields.get fs "type" = .str type ∧
    Fields.get fs "data" = .obj data

/-- A well-formed text goes to the session filed under its user, and to nobody else. -/
theorem run_onMessage_of_wellFormed [JavaDouble D] (readsObject : String → Bool)
    {message : Text D} {userId : String} (h : WellFormed message userId) (server : ImServer) :
    ((onMessage readsObject message).run server).out =
      match server.sessionMap1.lookup userId with
      | none => []
      | some session => [⟨session, message⟩] := by
  obtain ⟨fs, srcId, type, data, htree, _, hdst, _, hdata⟩ := h
  simp only [onMessage, Task.run_swallow, handleMessage, parseObject, htree, getJSONObject, hdst,
    hdata, deref, Json.getString, Task.run_bind, Task.run_ofExcept, Outcome.andThen_ok,
    Task.run_get, List.nil_append]
  cases server.sessionMap1.lookup userId <;> rfl

/-- Messages change no registry. -/
theorem state_onMessage [JavaDouble D] (readsObject : String → Bool) (message : Text D)
    (server : ImServer) : ((onMessage readsObject message).run server).state = server := by
  simp only [onMessage, Task.run_swallow, handleMessage, Task.run_bind, Task.run_ofExcept]
  cases parseObject message with
  | error _ => rfl
  | ok recv =>
    simp only [Outcome.andThen_ok, Task.run_bind, Task.run_ofExcept]
    cases deref recv with
    | error _ => rfl
    | ok fs =>
      simp only [Outcome.andThen_ok, Task.run_bind, Task.run_ofExcept]
      cases getJSONObject readsObject fs with
      | error _ => rfl
      | ok _ =>
        simp only [Outcome.andThen_ok, Task.run_bind, Task.run_ofExcept]
        cases deref (Fields.get fs "dstId").getString with
        | error _ => rfl
        | ok dstId =>
          simp only [Outcome.andThen_ok, Task.run_bind, Task.run_get]
          cases server.sessionMap1.lookup dstId <;> rfl

/-- An empty text message for a user. -/
def memo [JavaDouble D] (userId : String) : Text D :=
  .ofJson (.obj [("srcId", .str ""), ("dstId", .str userId), ("type", .str "text"),
    ("data", .obj [])])

/-- The text is one the server can forward. -/
theorem wellFormed_memo [JavaDouble D] (userId : String) :
    WellFormed (memo userId : Text D) userId :=
  ⟨_, _, _, _, rfl, rfl, rfl, rfl, rfl⟩

end ImServer

/-- The container callbacks, each one task of the runner. -/
inductive ImEvent (D : Type) where
  | onOpen (session : Session)
  | onClose (session : Session)
  | onMessage (session : Session) (message : Text D)

/-- The server with the container's record of every session. -/
structure ImContainer where
  server : ImServer
  phase : Session → Phase

namespace ImContainer

/-- No session has been opened. -/
def start : ImContainer := ⟨.empty, fun _ => .unopened⟩

section Runs

-- the `userId` each session carries in its path, for its open and for its close
variable [JavaDouble D] (readsObject : String → Bool) (userId : Session → String)

/-- The registries and the phase of the session after one task. -/
def step (c : ImContainer) : ImEvent D → ImContainer
  | .onOpen session =>
    ⟨((ImServer.onOpen session (userId session) : ImTask D Unit).run c.server).state,
      Function.update c.phase session .opened⟩
  | .onClose session =>
    ⟨((ImServer.onClose session (userId session) : ImTask D Unit).run c.server).state,
      Function.update c.phase session .closed⟩
  | .onMessage _ message => ⟨((ImServer.onMessage readsObject message).run c.server).state, c.phase⟩

/-- A session is opened once, and closed once after that. -/
def Allowed (c : ImContainer) : ImEvent D → Prop
  | .onOpen session => c.phase session = .unopened
  | .onClose session => c.phase session = .opened
  | .onMessage session _ => c.phase session = .opened

/-- Every user with an open session receives what is addressed to it, at one of
its open sessions. -/
def Deliverable (D : Type) [JavaDouble D] (readsObject : String → Bool)
    (userId : Session → String) (c : ImContainer) : Prop :=
  ∀ u, (∃ s, c.phase s = .opened ∧ userId s = u) →
    ∀ message : Text D, ImServer.WellFormed message u →
      ∃ s, c.phase s = .opened ∧ userId s = u ∧
        (⟨s, message⟩ : Sent D) ∈ ((ImServer.onMessage readsObject message).run c.server).out

/-- A closing session is the only open one of its user. -/
def SoleClose (c : ImContainer) (event : ImEvent D) : Prop :=
  ∀ session, event = .onClose session →
    ∀ s, c.phase s = .opened → userId s = userId session → s = session

/-- Whatever the forward map names is an open session of that user. -/
def Routed (c : ImContainer) : Prop :=
  ∀ u s, c.server.sessionMap1.lookup u = some s → c.phase s = .opened ∧ userId s = u

/-- Every user with an open session has an entry in the forward map. -/
def Covered (c : ImContainer) : Prop :=
  ∀ s, c.phase s = .opened → (c.server.sessionMap1.lookup (userId s)).isSome

variable {readsObject userId} {c : ImContainer}

theorem routed_start : start.Routed userId := by
  intro u s h
  simp [start, ImServer.empty] at h

theorem covered_start : start.Covered userId := by
  intro s h
  cases h

/-- A message changes neither the registries nor the phases. -/
theorem step_onMessage (c : ImContainer) (session : Session) (message : Text D) :
    c.step readsObject userId (.onMessage session message) = c := by
  simp only [step, ImServer.state_onMessage]

/-- Every callback keeps the forward map to open sessions. -/
theorem Routed.step (h : c.Routed userId) (event : ImEvent D) :
    (c.step readsObject userId event).Routed userId := by
  cases event with
  | onMessage session message => rwa [step_onMessage]
  | onOpen session =>
    intro u s hs
    change (c.server.sessionMap1.insert (userId session) session).lookup u = some s at hs
    change Function.update c.phase session .opened s = .opened ∧ userId s = u
    by_cases hu : u = userId session
    · subst hu
      rw [AList.lookup_insert] at hs
      obtain rfl := Option.some.inj hs
      exact ⟨Function.update_self .., rfl⟩
    · rw [AList.lookup_insert_ne hu] at hs
      obtain ⟨hopen, rfl⟩ := h u s hs
      have hne : s ≠ session := fun heq => hu (by rw [heq])
      exact ⟨by rwa [Function.update_of_ne hne], rfl⟩
  | onClose session =>
    intro u s hs
    change (c.server.sessionMap1.erase (userId session)).lookup u = some s at hs
    change Function.update c.phase session .closed s = .opened ∧ userId s = u
    have hu : u ≠ userId session := by
      rintro rfl
      rw [AList.lookup_erase] at hs
      cases hs
    rw [AList.lookup_erase_ne hu] at hs
    obtain ⟨hopen, rfl⟩ := h u s hs
    have hne : s ≠ session := fun heq => hu (by rw [heq])
    exact ⟨by rwa [Function.update_of_ne hne], rfl⟩

/-- Where the forward map is sound, delivery to every connected user is its
being complete. -/
theorem Routed.deliverable_iff (h : c.Routed userId) :
    c.Deliverable D readsObject userId ↔ c.Covered userId := by
  constructor
  · intro hd s hs
    obtain ⟨s', _, _, hsent⟩ := hd (userId s) ⟨s, hs, rfl⟩ _ (ImServer.wellFormed_memo (userId s))
    rw [ImServer.run_onMessage_of_wellFormed readsObject (ImServer.wellFormed_memo _)] at hsent
    cases hl : c.server.sessionMap1.lookup (userId s) with
    | none => simp [hl] at hsent
    | some _ => rfl
  · rintro hcov u ⟨s, hs, rfl⟩ message hm
    obtain ⟨s', hl⟩ := Option.isSome_iff_exists.mp (hcov s hs)
    obtain ⟨hopen, hu⟩ := h _ _ hl
    refine ⟨s', hopen, hu, ?_⟩
    rw [ImServer.run_onMessage_of_wellFormed readsObject hm, hl]
    exact List.mem_singleton_self _

/-- One task keeps the forward map complete exactly when it closes no session
beside which another one of the user is open. -/
theorem Covered.step_iff (h : c.Covered userId) (event : ImEvent D) :
    (c.step readsObject userId event).Covered userId ↔ c.SoleClose userId event := by
  cases event with
  | onMessage session message =>
    rw [step_onMessage]
    exact iff_of_true h fun _ he => by cases he
  | onOpen session =>
    refine iff_of_true (fun s hs => ?_) fun _ he => by cases he
    change Function.update c.phase session .opened s = .opened at hs
    change ((c.server.sessionMap1.insert (userId session) session).lookup (userId s)).isSome
    by_cases hu : userId s = userId session
    · rw [hu, AList.lookup_insert]
      rfl
    · have hne : s ≠ session := fun heq => hu (by rw [heq])
      rw [Function.update_of_ne hne] at hs
      rw [AList.lookup_insert_ne hu]
      exact h s hs
  | onClose session =>
    constructor
    · intro hcov closing he s hs hu
      cases he
      by_contra hne
      have hs' : (c.step readsObject userId (.onClose session : ImEvent D)).phase s = .opened := by
        change Function.update c.phase session .closed s = .opened
        rwa [Function.update_of_ne hne]
      have hsome : ((c.server.sessionMap1.erase (userId session)).lookup (userId s)).isSome :=
        hcov s hs'
      rw [hu, AList.lookup_erase] at hsome
      cases hsome
    · intro hsole s hs
      change Function.update c.phase session .closed s = .opened at hs
      change ((c.server.sessionMap1.erase (userId session)).lookup (userId s)).isSome
      have hne : s ≠ session := by
        rintro rfl
        rw [Function.update_self] at hs
        cases hs
      rw [Function.update_of_ne hne] at hs
      have hu : userId s ≠ userId session := fun heq => hne (hsole session rfl s hs heq)
      rw [AList.lookup_erase_ne hu]
      exact h s hs

/-- Every connected user is reachable throughout a run exactly when each closing
session is the only open one of its user at that moment. -/
theorem connected_user_reachable_iff (readsObject : String → Bool) (userId : Session → String)
    (events : List (ImEvent D)) (hok : Along (step readsObject userId) Allowed start events) :
    Throughout (step readsObject userId) (Deliverable D readsObject userId) start events ↔
      Along (step readsObject userId) (SoleClose userId) start events := by
  refine throughout_iff_along (J := Routed userId) (fun c event h _ => h.step event) ?_
    routed_start (routed_start.deliverable_iff.mpr covered_start) hok
  intro c event hr hd _
  rw [(hr.step event).deliverable_iff]
  exact (hr.deliverable_iff.mp hd).step_iff event

end Runs

/-- Alice reconnects as `b` before the close of `a` is processed. -/
def reconnectRun : List (ImEvent IntDouble) :=
  [.onOpen ⟨"a"⟩, .onOpen ⟨"b"⟩, .onClose ⟨"a"⟩]

/-- The second session of a user is not reached any more once the first one closes. -/
theorem reconnect_unreachable :
    Along (step (fun _ => false) fun _ => "alice") Allowed start reconnectRun ∧
    ¬Throughout (step (fun _ => false) fun _ => "alice")
      (Deliverable IntDouble (fun _ => false) fun _ => "alice") start reconnectRun := by
  refine ⟨⟨rfl, rfl, rfl, trivial⟩, ?_⟩
  rintro ⟨_, _, _, h⟩
  obtain ⟨s, _, _, hsent⟩ := h "alice" ⟨⟨"b"⟩, by decide, rfl⟩ _ (ImServer.wellFormed_memo "alice")
  rw [ImServer.run_onMessage_of_wellFormed _ (ImServer.wellFormed_memo _)] at hsent
  exact List.not_mem_nil hsent

/-- Alice reconnects as `b` after the close of `a` is processed. -/
def successiveRun : List (ImEvent IntDouble) :=
  [.onOpen ⟨"a"⟩, .onClose ⟨"a"⟩, .onOpen ⟨"b"⟩]

/-- One session after the other, the user is reached throughout. -/
theorem successive_sessions_reachable :
    Along (step (fun _ => false) fun _ => "alice") (SoleClose fun _ => "alice") start
      successiveRun ∧
    Throughout (step (fun _ => false) fun _ => "alice")
      (Deliverable IntDouble (fun _ => false) fun _ => "alice") start successiveRun := by
  have hok : Along (step (fun _ => false) fun _ => "alice") Allowed start successiveRun :=
    ⟨rfl, rfl, rfl, trivial⟩
  have hsole : Along (step (fun _ => false) fun _ => "alice") (SoleClose fun _ => "alice")
      start successiveRun := by
    refine ⟨fun _ he => (by cases he), fun session he s hs _ => ?_, fun _ he => (by cases he),
      trivial⟩
    cases he
    by_contra hne
    change Function.update start.phase ⟨"a"⟩ .opened s = .opened at hs
    rw [Function.update_of_ne hne] at hs
    cases hs
  exact ⟨hsole, (connected_user_reachable_iff _ _ _ hok).mpr hsole⟩

end ImContainer

end WebrtcCaller
