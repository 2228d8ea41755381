import WebrtcCaller.Client.Moves

/-!
# Calling again

`connect` dials when no connection is held and otherwise lets go of the connection and of
the peer service, whatever has become of the call in between. So a second `connect` can
leave a running peer service behind, and the first `connect` after a failed attempt only
clears up after it. Both are told from what came before the call.
-/

namespace WebrtcCaller

namespace ManagerImpl

variable {D : Type}

section Runs

variable [JavaDouble D] {castToString : Json D → Except Raise String} {validUri : String → Bool}

/-- What the manager has gone through, each event with the state it came in. -/
abbrev History (D : Type) := List (ManagerImpl × ManagerEvent D)

variable (castToString validUri) in
/-- The event makes the peer service enter the room. -/
def Joins (service : Nat) (x : ManagerImpl × ManagerEvent D) : Prop :=
  ∃ connections myId video mediaType,
    .peer service (.signal (.onJoinToRoom connections myId) video mediaType) ∈
      (x.1.outcome castToString validUri x.2).out

variable (castToString validUri) in
/-- The event makes the peer service leave it. -/
def Exits (service : Nat) (x : ManagerImpl × ManagerEvent D) : Prop :=
  .peer service .exitRoom ∈ (x.1.outcome castToString validUri x.2).out

variable (castToString validUri) in
/-- A `connect` that loses a peer service comes after an `exitRoom` for the last time it was made
to enter a room. -/
def LosesEnded (s : History D × ManagerImpl) (event : ManagerEvent D) : Prop :=
  event = .connect → ∀ service, s.2.peerService = some service →
    (s.2.step castToString validUri event).peerService ≠ some service →
    AlwaysAfter (Joins castToString validUri service) (Exits castToString validUri service) s.1

/-- The looper answers a join while the peer service is held. -/
def JoinHandled (service : Nat) (x : ManagerImpl × ManagerEvent D) : Prop :=
  x.1.peerService = some service ∧ x.1.HandlesJoin x.2

/-- The looper reports the end of a connection while the peer service is held. -/
def FailureHandled (service : Nat) (x : ManagerImpl × ManagerEvent D) : Prop :=
  x.1.peerService = some service ∧ x.1.HandlesFailure x.2

/-- The user leaves the room while the peer service is held. -/
def Left (service : Nat) (x : ManagerImpl × ManagerEvent D) : Prop :=
  x.1.peerService = some service ∧ x.2 = .exitRoom

/-- After the last join answered to the held peer service, a `connect` that hangs up comes after a
reported end of a connection, and one that dials after that or after the user has left. -/
def SparesCall (s : History D × ManagerImpl) (event : ManagerEvent D) : Prop :=
  event = .connect → ∀ service, s.2.peerService = some service →
    AlwaysAfter (JoinHandled service)
      (fun x => FailureHandled service x ∨ s.2.wsService = none ∧ Left service x) s.1

/-- A held peer service is new to what came before it, and the user has not left while its
connection is still held. -/
structure Followed (s : History D × ManagerImpl) : Prop where
  wss_isSome : s.2.peerService.isSome → s.2.wss.isSome
  held_lt : ∀ service, s.2.peerService = some service → service < s.2.peerServices
  seen_lt : ∀ x ∈ s.1, ∀ service, x.1.peerService = some service → service < s.2.peerServices
  live : ∀ service, s.2.peerService = some service → s.2.wsService.isSome →
    ∀ x ∈ s.1, x.1.peerService = some service → x.2 ≠ .exitRoom

end Runs

theorem followed_start : Followed (([], start) : History D × ManagerImpl) :=
  ⟨nofun, nofun, fun _ hx => absurd hx List.not_mem_nil, nofun⟩

/-- What an event may do to the references keeps the history followed. -/
theorem Followed.moves {history : History D} {m m' : ManagerImpl} {event : ManagerEvent D}
    (h : Followed (history, m)) (hm : m.Moves event m') :
    Followed (history ++ [(m, event)], m') := by
  have hseen {n : Nat} (hn : m.peerServices ≤ n) : ∀ x ∈ history ++ [(m, event)], ∀ service,
      x.1.peerService = some service → service < n := by
    intro x hx service hservice
    rcases List.mem_append.mp hx with hx | hx
    · exact Nat.lt_of_lt_of_le (h.seen_lt x hx service hservice) hn
    · rw [List.mem_singleton.mp hx] at hservice
      exact Nat.lt_of_lt_of_le (h.held_lt service hservice) hn
  cases hm with
  | dial idle wss_eq wsService_eq length_eq peerService_eq =>
    rcases peerService_eq with ⟨hw, hp, hn⟩ | ⟨hw, hp, hn⟩
    · refine ⟨fun _ => wss_eq ▸ hw, ?_, hseen (hn ▸ Nat.le_succ _), ?_⟩
      · intro service hservice
        rw [hp] at hservice
        rw [hn, ← Option.some.inj hservice]
        exact Nat.lt_succ_self _
      · intro service hservice _ x hx hx'
        rw [hp] at hservice
        obtain rfl := Option.some.inj hservice
        exact absurd (hseen (Nat.le_refl _) x hx _ hx') (Nat.lt_irrefl _)
    · have hnone : m.peerService = none := by
        cases hs : m.peerService with
        | none => rfl
        | some service =>
          have hsome := h.wss_isSome (by rw [hs]; rfl)
          rw [hw] at hsome
          cases hsome
      rw [hnone] at hp
      refine ⟨?_, ?_, hseen (Nat.le_of_eq hn.symm), ?_⟩
      all_goals simp [hp]
  | hangUp held => exact ⟨nofun, nofun, hseen (Nat.le_refl _), nofun⟩
  | leave held => exact ⟨h.wss_isSome, h.held_lt, hseen (Nat.le_refl _), nofun⟩
  | keep not_connect not_leave wss_isSome wsService_eq length_eq peerService_eq peerServices_eq =>
    refine ⟨?_, ?_, hseen (Nat.le_of_eq peerServices_eq.symm), ?_⟩
    · intro hsome
      rw [peerService_eq] at hsome
      exact wss_isSome (h.wss_isSome hsome)
    · rw [peerService_eq, peerServices_eq]
      exact h.held_lt
    · intro service hservice hsome x hx hx'
      rw [peerService_eq] at hservice
      rw [wsService_eq] at hsome
      rcases List.mem_append.mp hx with hx | hx
      · exact h.live service hservice hsome x hx hx'
      · rw [List.mem_singleton.mp hx]
        intro hexit
        have hnone := not_leave hexit
        rw [hservice] at hnone
        cases hnone

section Runs

variable [JavaDouble D] {castToString : Json D → Except Raise String} {validUri : String → Bool}

/-- One step of a run keeps its history followed. -/
theorem Followed.step {s : History D × ManagerImpl} (h : Followed s) (event : ManagerEvent D) :
    Followed (noted (ManagerImpl.step castToString validUri) s event) :=
  h.moves (step_moves s.2 event)

/-- While the connection is held, only a reported end has told the held peer service to exit. -/
theorem Followed.exits_iff {history : History D} {m : ManagerImpl} (h : Followed (history, m))
    {service : Nat} (hservice : m.peerService = some service) {x : ManagerImpl × ManagerEvent D}
    (hx : x ∈ history) : Exits castToString validUri service x ↔
      FailureHandled service x ∨ m.wsService = none ∧ Left service x := by
  rw [Exits, exitRoom_mem_out_iff]
  constructor
  · rintro ⟨hheld, hexit | hfailure⟩
    · cases hws : m.wsService with
      | none => exact Or.inr ⟨rfl, hheld, hexit⟩
      | some ws =>
        have hsome : m.wsService.isSome := by
          rw [hws]
          rfl
        exact absurd hexit (h.live service hservice hsome x hx hheld)
    · exact Or.inl ⟨hheld, hfailure⟩
  · rintro (⟨hheld, hfailure⟩ | ⟨-, hheld, hexit⟩)
    · exact ⟨hheld, Or.inr hfailure⟩
    · exact ⟨hheld, Or.inl hexit⟩

/-- Every `connect` loses the peer service that is held. -/
theorem Followed.loses {history : History D} {m : ManagerImpl} (h : Followed (history, m))
    {service : Nat} (hservice : m.peerService = some service) :
    (m.step castToString validUri .connect).peerService ≠ some service := by
  have hmoves : m.Moves .connect (m.step castToString validUri .connect) := step_moves m .connect
  generalize m.step castToString validUri .connect = m' at hmoves
  cases hmoves with
  | dial idle wss_eq wsService_eq length_eq peerService_eq =>
    rcases peerService_eq with ⟨-, hp, -⟩ | ⟨hw, -, -⟩
    · rw [hp]
      intro heq
      exact absurd (h.held_lt service hservice) (Nat.not_lt.mpr (Option.some.inj heq).le)
    · have hsome := h.wss_isSome (by rw [hservice]; rfl)
      rw [hw] at hsome
      cases hsome
  | hangUp held => exact nofun
  | keep not_connect => exact absurd rfl not_connect

/-- A `connect` loses an ended call and nothing else exactly if it spares the call that goes on. -/
theorem Followed.losesEnded_iff {s : History D × ManagerImpl} (h : Followed s)
    (event : ManagerEvent D) : LosesEnded castToString validUri s event ↔ SparesCall s event := by
  obtain ⟨history, m⟩ := s
  refine forall_congr' fun hconnect => forall_congr' fun service => forall_congr' fun hservice => ?_
  subst hconnect
  rw [forall_prop_of_true (h.loses hservice)]
  exact alwaysAfter_congr (fun _ _ => join_mem_out_iff) fun _ hx => h.exits_iff hservice hx

/-- No peer service that has entered a room is lost along a run without having been told to leave it
since, exactly when every `connect` comes after the end of the call: a reported end where it hangs
up, and that or the `exitRoom` of the user where it dials. -/
theorem connect_loses_ended_iff (castToString : Json D → Except Raise String)
    (validUri : String → Bool) (events : List (ManagerEvent D)) :
    Along (noted (step castToString validUri)) (LosesEnded castToString validUri) ([], start)
        events ↔
      Along (noted (step castToString validUri)) SparesCall ([], start) events :=
  along_congr_of_invariant (fun _ event h => Followed.step h event)
    (fun _ event h => h.losesEnded_iff event) followed_start

end Runs

section Redialling

/-- The library has reported the end of the connection: its close, or an error while it has not
opened. -/
def Ended (s : History D × ManagerImpl) (ws : Nat) : Prop :=
  (∃ x ∈ s.1, ∃ reason, x.2 = .onClose ws reason) ∨
    s.2.serviceIs (·.isOpen) ws = false ∧ ∃ x ∈ s.1, ∃ reason, x.2 = .onError ws reason

/-- The manager has let go of the connection. -/
def Dropped (history : History D) (ws : Nat) : Prop :=
  ∃ x ∈ history, x.1.wsService = some ws ∧
    (x.2 = .connect ∨ x.2 = .exitRoom ∧ x.1.peerService.isSome)

/-- No attempt is pending and no connection is open: each connection that was dialled has ended or
has been let go. -/
def Idle (s : History D × ManagerImpl) : Prop :=
  ∀ ws, s.2.serviceIs (·.hasClient) ws = true → Ended s ws ∨ Dropped s.1 ws

/-- The manager has let go of the last connection, if there was one. -/
def LastDropped (s : History D × ManagerImpl) : Prop :=
  ∀ ws, ws + 1 = s.2.services.length → Dropped s.1 ws

/-- The held connection is the last one made, and every other one has been let go. -/
structure Switched (s : History D × ManagerImpl) : Prop where
  held_last : ∀ ws, s.2.wsService = some ws → ws + 1 = s.2.services.length
  seen_lt : ∀ x ∈ s.1, ∀ ws, x.1.wsService = some ws → ws < s.2.services.length
  lastDropped : s.2.wsService = none → LastDropped s
  not_dropped : ∀ ws, s.2.wsService = some ws → ¬Dropped s.1 ws

theorem switched_start : Switched (([], start) : History D × ManagerImpl) :=
  ⟨nofun, fun _ hx => absurd hx List.not_mem_nil, nofun, nofun⟩

/-- What was let go of stays so. -/
theorem Dropped.append {history : History D} {ws : Nat} (h : Dropped history ws)
    (more : History D) : Dropped (history ++ more) ws := by
  obtain ⟨x, hx, hdrop⟩ := h
  exact ⟨x, List.mem_append_left _ hx, hdrop⟩

/-- Every move keeps account of the connections that were let go of. -/
theorem Switched.moves {history : History D} {m m' : ManagerImpl} {event : ManagerEvent D}
    (h : Switched (history, m)) (hm : m.Moves event m') :
    Switched (history ++ [(m, event)], m') := by
  have hseen {n : Nat} (hn : m.services.length ≤ n) : ∀ x ∈ history ++ [(m, event)], ∀ ws,
      x.1.wsService = some ws → ws < n := by
    intro x hx ws hws
    rcases List.mem_append.mp hx with hx | hx
    · exact Nat.lt_of_lt_of_le (h.seen_lt x hx ws hws) hn
    · rw [List.mem_singleton.mp hx] at hws
      have hlast : ws + 1 = m.services.length := h.held_last ws hws
      omega
  cases hm with
  | dial idle wss_eq wsService_eq length_eq peerService_eq =>
    refine ⟨?_, hseen (by rw [length_eq]; exact Nat.le_succ _), ?_, ?_⟩
    · intro ws hws
      rw [wsService_eq] at hws
      rw [length_eq, ← Option.some.inj hws]
    · intro hnone
      rw [wsService_eq] at hnone
      cases hnone
    · rintro ws hws ⟨x, hx, hdrop, -⟩
      rw [wsService_eq] at hws
      obtain rfl := Option.some.inj hws
      exact absurd (hseen (Nat.le_refl _) x hx _ hdrop) (Nat.lt_irrefl _)
  | hangUp held =>
    refine ⟨nofun, hseen (Nat.le_refl _), fun _ ws hws => ?_, nofun⟩
    have hlast := h.held_last _ held
    obtain rfl : ws = _ := Nat.succ.inj (hws.trans hlast.symm)
    exact ⟨_, List.mem_append_right _ (List.mem_singleton_self _), held, Or.inl rfl⟩
  | leave held =>
    refine ⟨nofun, hseen (Nat.le_refl _), fun _ ws hws => ?_, nofun⟩
    cases hheld : m.wsService with
    | none => exact (h.lastDropped hheld ws hws).append _
    | some ws' =>
      have hlast := h.held_last ws' hheld
      obtain rfl : ws = ws' := Nat.succ.inj (hws.trans hlast.symm)
      refine ⟨_, List.mem_append_right _ (List.mem_singleton_self _), hheld, Or.inr ⟨rfl, ?_⟩⟩
      rw [held]
      rfl
  | keep not_connect not_leave wss_isSome wsService_eq length_eq peerService_eq peerServices_eq =>
    refine ⟨?_, hseen (Nat.le_of_eq length_eq.symm), ?_, ?_⟩
    · rw [wsService_eq, length_eq]
      exact h.held_last
    · intro hnone ws hws
      rw [wsService_eq] at hnone
      rw [length_eq] at hws
      exact (h.lastDropped hnone ws hws).append _
    · rintro ws hws ⟨x, hx, hdrop⟩
      rw [wsService_eq] at hws
      rcases List.mem_append.mp hx with hx | hx
      · exact h.not_dropped ws hws ⟨x, hx, hdrop⟩
      · rw [List.mem_singleton.mp hx] at hdrop
        obtain ⟨-, hconnect | ⟨hexit, hsome⟩⟩ := hdrop
        · exact not_connect hconnect
        · rw [not_leave hexit] at hsome
          cases hsome

/-- Nothing is held exactly when the last connection has been let go. -/
theorem Switched.lastDropped_iff {s : History D × ManagerImpl} (h : Switched s) :
    LastDropped s ↔ s.2.wsService = none := by
  refine ⟨fun hlast => ?_, h.lastDropped⟩
  cases hws : s.2.wsService with
  | none => rfl
  | some ws => exact absurd (hlast ws (h.held_last ws hws)) (h.not_dropped ws hws)

variable [JavaDouble D] {castToString : Json D → Except Raise String} {validUri : String → Bool}

variable (castToString validUri) in
/-- A call of `connect` makes a new connection and dials the configured address. -/
structure Redials (m : ManagerImpl) : Prop where
  wsService_eq : (m.step castToString validUri .connect).wsService = some m.services.length
  length_eq : (m.step castToString validUri .connect).services.length = m.services.length + 1
  dialled : ∀ wss, m.wss = some wss → validUri wss = true →
    .connect m.services.length wss ∈ (m.outcome castToString validUri .connect).out

/-- A `connect` dials exactly when no connection is held. -/
theorem redials_iff (m : ManagerImpl) :
    m.Redials castToString validUri ↔ m.wsService = none := by
  constructor
  · intro h
    cases hws : m.wsService with
    | none => rfl
    | some ws =>
      have hsome : m.wsService.isSome := by
        rw [hws]
        rfl
      have hnone := h.wsService_eq
      rw [(step_connect_of_isSome hsome).1] at hnone
      cases hnone
  · intro hnone
    obtain ⟨hws, hlength⟩ := @step_connect_of_none D _ castToString validUri m hnone
    refine ⟨hws, hlength, fun wss hwss hvalid => ?_⟩
    simp only [outcome, task]
    rw [run_connect_of_none hnone hwss, if_pos hvalid]
    exact List.mem_singleton_self _

variable (castToString validUri) in
/-- A `connect` of an idle manager dials. -/
def RedialsWhenIdle (s : History D × ManagerImpl) (event : ManagerEvent D) : Prop :=
  event = .connect → Idle s → s.2.Redials castToString validUri

/-- A `connect` of an idle manager comes after the last connection has been let go. -/
def DroppedWhenIdle (s : History D × ManagerImpl) (event : ManagerEvent D) : Prop :=
  event = .connect → Idle s → LastDropped s

/-- Every `connect` of an idle manager dials along a run exactly when at each of them the last
connection has been let go: an attempt that fails, or a call that the server closes, leaves its
connection held. -/
theorem connect_redials_iff (castToString : Json D → Except Raise String)
    (validUri : String → Bool) (events : List (ManagerEvent D)) :
    Along (noted (step castToString validUri)) (RedialsWhenIdle castToString validUri) ([], start)
        events ↔
      Along (noted (step castToString validUri)) DroppedWhenIdle ([], start) events := by
  refine along_congr_of_invariant (fun s event h => Switched.moves h (step_moves s.2 event))
    (fun s event h => ?_) switched_start
  rw [RedialsWhenIdle, DroppedWhenIdle, redials_iff, h.lastDropped_iff]

end Redialling

/-- A first attempt that fails before it has opened. -/
def failedAttempt : List (ManagerEvent IntDouble) :=
  [.setConfigWithCallBack "ws://host" 1 (some "r"), .connect, .onError 0 none, .handle]

/-- After a failed attempt the next `connect` clears the references instead of dialling. -/
theorem failed_attempt_not_redialled :
    ¬Along (noted (step (fun _ => .error .jsonSyntax) fun _ => true))
      (RedialsWhenIdle (fun _ => .error .jsonSyntax) fun _ => true) ([], start)
      (failedAttempt ++ [.connect]) := by
  intro h
  have hredials := (along_append.mp h).2.1 rfl
  have hidle : Idle (failedAttempt.foldl
      (noted (step (fun _ => .error .jsonSyntax) fun _ => true)) ([], start)) := by
    intro ws hws
    cases ws with
    | zero =>
      exact Or.inl (Or.inr ⟨rfl, _, List.mem_append_left _ (List.mem_append_right _
        (List.mem_singleton_self _)), none, rfl⟩)
    | succ ws => cases hws
  cases (hredials hidle).wsService_eq

/-- The server's answer to a join of an empty room. -/
def peersText : Text IntDouble :=
  .ofJson (.obj [("eventName", .str "_peers"),
    ("data", .obj [("connections", .arr []), ("you", .str "a")])])

/-- A call that has entered its room. -/
def enteredCall : List (ManagerEvent IntDouble) :=
  [.setConfigWithCallBack "ws://host" 1 (some "r"), .connect, .onOpen 0, .handle, .joinRoom,
    .onMessage 0 peersText, .handle]

/-- The second `connect` drops a call that has been entered and never left. -/
theorem second_call_abandons :
    ¬Along (noted (step (fun _ => .error .jsonSyntax) fun _ => true))
      (LosesEnded (fun _ => .error .jsonSyntax) fun _ => true) ([], start)
      (enteredCall ++ [.connect]) := by
  intro h
  have hloses := (along_append.mp h).2.1 rfl
  obtain ⟨y, hy, -⟩ := hloses 0 rfl nofun _ _ [] rfl
    ⟨some [], some "a", true, 1, List.mem_cons_self ..⟩
  cases hy

end ManagerImpl

end WebrtcCaller
