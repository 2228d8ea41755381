import WebrtcCaller.System.World

/-!
# Clients that have not entered

Until the server answers its join, a client is told of nobody: only relays reach
it, and relays introduce nobody. It therefore waits with an empty peer map.
-/

namespace WebrtcCaller

variable {D : Type} [JavaDouble D]

namespace Setting

variable (env : Setting D)

/-- Every text of the queue at most relays something. -/
def OnlyRelays (queue : List (Delivery D)) : Prop :=
  ∀ d ∈ queue, ∀ signal, env.signal d.text = some signal → signal.sender.isSome

/-- No text of the queue answers a join. -/
def NoJoin (queue : List (Delivery D)) : Prop :=
  ∀ d ∈ queue, ∀ signal, env.signal d.text = some signal → signal.isJoin = false

variable {env} {queue later : List (Delivery D)}

theorem OnlyRelays.append (h : env.OnlyRelays queue) (h' : env.OnlyRelays later) :
    env.OnlyRelays (queue ++ later) := fun d hd =>
  (List.mem_append.mp hd).elim (h d) (h' d)

theorem NoJoin.append (h : env.NoJoin queue) (h' : env.NoJoin later) :
    env.NoJoin (queue ++ later) := fun d hd =>
  (List.mem_append.mp hd).elim (h d) (h' d)

/-- Relays change nothing that a roster says. -/
theorem OnlyRelays.roster_foldl (hq : env.OnlyRelays queue) (h : Session)
    (service : PeerService) : (queue.foldl (env.hear h) service).roster = service.roster := by
  induction queue generalizing service with
  | nil => rfl
  | cons d queue ih =>
    rw [List.foldl_cons, ih fun d' hd' => hq d' (List.mem_cons_of_mem _ hd')]
    exact roster_hear (hq d (List.mem_cons_self ..))

/-- Relays leave a client ready for the same peers. -/
theorem OnlyRelays.ready_foldl (hq : env.OnlyRelays queue) {h : Session}
    {ids : List (Option String)} {me : Option String} {service : PeerService}
    (hs : service.Ready ids me) : (queue.foldl (env.hear h) service).Ready ids me := by
  induction queue generalizing service with
  | nil => exact hs
  | cons d queue ih =>
    refine ih (fun d' hd' => hq d' (List.mem_cons_of_mem _ hd')) ?_
    cases hd : env.signal d.text with
    | none => rwa [hear_of_none hd]
    | some signal =>
      rw [hear_of_some hd]
      exact hs.relayed _ _ _ (hq d (List.mem_cons_self ..) signal hd)

/-- A text that answers no join makes no offer. -/
theorem not_isOffer_task {h : Session} {d : Delivery D} {service : PeerService}
    (hd : ∀ signal, env.signal d.text = some signal → signal.isJoin = false) :
    ∀ e ∈ ((env.task h d.text).run service).out, e.isOffer = false := by
  cases hs : env.signal d.text with
  | none =>
    rw [task, hs]
    intro e he
    cases he
  | some signal =>
    rw [task_of_signal hs]
    exact PeerService.not_isOffer_callback _ _ _ (hd signal hs)

end Setting

namespace Client

/-- The client has heard of nobody and offered to nobody. -/
structure Waiting (client : Client) : Prop where
  blank : client.service.Blank
  context_eq : client.asked = true → client.service.context = true
  ran : ∀ signal ∈ client.ran, signal.isJoin = false
  effects : ∀ e ∈ client.effects, e.isOffer = false

variable (env : Setting D)

/-- The join of a waiting client is still to be executed: only relays are queued. -/
structure Aside (client : Client) (queue : List (Delivery D)) : Prop extends client.Waiting where
  queued : env.OnlyRelays queue

variable {env} {client : Client} {queue later : List (Delivery D)} {d : Delivery D} {b : Session}

theorem Waiting.init : Client.init.Waiting := ⟨⟨rfl, rfl⟩, nofun, nofun, nofun⟩

theorem Waiting.joinRoom (h : client.Waiting) : client.joinRoom.Waiting :=
  ⟨⟨h.blank.connectionIdArray_eq, h.blank.connectionPeerDic_eq⟩, fun _ => rfl, h.ran, h.effects⟩

theorem Waiting.exitRoom (h : client.Waiting) : client.exitRoom.Waiting := by
  have hr := h.blank.roster_exitRoom
  refine ⟨h.blank.of_roster hr, fun ha => ?_, h.ran, fun e he => ?_⟩
  · exact (congrArg Roster.context hr).trans (h.context_eq ha)
  · rcases List.mem_append.mp he with he | he
    · exact h.effects e he
    · exact PeerService.not_isOffer_exitRoom e he

/-- A relay leaves a client waiting. -/
theorem Waiting.process (h : client.Waiting)
    (hd : ∀ signal, env.signal d.text = some signal → signal.sender.isSome) :
    (client.process env b d).Waiting := by
  have hr : (env.hear b client.service d).roster = client.service.roster := Setting.roster_hear hd
  refine ⟨h.blank.of_roster hr, fun ha => ?_, fun signal hs => ?_, fun e he => ?_⟩
  · exact (congrArg Roster.context hr).trans (h.context_eq ha)
  · rcases List.mem_append.mp hs with hs | hs
    · exact h.ran signal hs
    · exact Signal.isJoin_of_sender (hd signal (Option.mem_toList.mp hs))
  · rcases List.mem_append.mp he with he | he
    · exact h.effects e he
    · exact Setting.not_isOffer_task
        (fun signal hs => Signal.isJoin_of_sender (hd signal hs)) e he

/-- A client that stands aside processes a relay. -/
theorem Aside.process (h : client.Aside env (d :: queue)) :
    (client.process env b d).Aside env queue :=
  ⟨h.toWaiting.process (h.queued d (List.mem_cons_self ..)),
    fun d' hd' => h.queued d' (List.mem_cons_of_mem _ hd')⟩

theorem Aside.init : Client.init.Aside env [] := ⟨.init, nofun⟩

theorem Aside.joinRoom (h : client.Aside env queue) : client.joinRoom.Aside env queue :=
  ⟨h.toWaiting.joinRoom, h.queued⟩

theorem Aside.exitRoom (h : client.Aside env queue) : client.exitRoom.Aside env queue :=
  ⟨h.toWaiting.exitRoom, h.queued⟩

theorem Aside.append (h : client.Aside env queue) (hl : env.OnlyRelays later) :
    client.Aside env (queue ++ later) := ⟨h.toWaiting, h.queued.append hl⟩

/-- Once its relays are processed, the client still knows nobody. -/
theorem Aside.foldl (h : client.Aside env queue) :
    (queue.foldl (env.hear b) client.service).Blank ∧
      (client.asked = true → (queue.foldl (env.hear b) client.service).context = true) := by
  have hr := Setting.OnlyRelays.roster_foldl h.queued b client.service
  exact ⟨h.blank.of_roster hr,
    fun ha => (congrArg Roster.context hr).trans (h.context_eq ha)⟩

end Client

end WebrtcCaller
