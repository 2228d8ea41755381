import WebrtcCaller.System.Confinement

/-!
# Who initiates

A client offers to every entry of its peer map when it runs `onJoinToRoom`. Its
map is empty at that point: before the answer to its join only relays reach it,
and relays introduce nobody. So the offers go to the ids the server listed, and
those joined earlier. Each client passes through three stages: it waits, the
answer to its join is queued, it has entered.
-/

namespace WebrtcCaller

variable {D : Type} [JavaDouble D]

/-- A join of `x` is among the executed callbacks. -/
def HasJoined (served : List (ServerEvent D)) (x : Session) : Prop := ∃ r, Joined served x r

/-- The join of `a` was executed before that of `b`. -/
def JoinedBefore (served : List (ServerEvent D)) (a b : Session) : Prop :=
  ∃ before after, served = before ++ after ∧
    HasJoined before a ∧ ¬HasJoined before b ∧ HasJoined after b

/-- What has joined has joined for good. -/
theorem HasJoined.append {served : List (ServerEvent D)} {x : Session} (h : HasJoined served x)
    (events : List (ServerEvent D)) : HasJoined (served ++ events) x := by
  obtain ⟨r, hr⟩ := h
  exact ⟨r, hr.append events⟩

namespace JoinedBefore

variable {served : List (ServerEvent D)} {a b : Session}

/-- Later callbacks do not change who was first. -/
theorem append (h : JoinedBefore served a b) (events : List (ServerEvent D)) :
    JoinedBefore (served ++ events) a b := by
  obtain ⟨before, after, rfl, ha, hb, hb'⟩ := h
  exact ⟨before, after ++ events, List.append_assoc .., ha, hb, hb'.append events⟩

/-- Of two sessions, at most one joined before the other. -/
theorem asymm (h : JoinedBefore served a b) : ¬JoinedBefore served b a := by
  rintro ⟨before', after', hserved', hb', ha', _⟩
  obtain ⟨before, after, hserved, ha, hb, _⟩ := h
  -- one of the two prefixes extends the other
  rcases List.append_eq_append_iff.mp (hserved.symm.trans hserved') with
    ⟨mid, hmid, _⟩ | ⟨mid, hmid, _⟩
  · exact ha' (hmid ▸ ha.append mid)
  · exact hb (hmid ▸ hb'.append mid)

end JoinedBefore

namespace Client

variable (env : Setting D) (served : List (ServerEvent D)) (b : Session)

/-- The answer to its join is queued, behind nothing but relays, and lists sessions that
joined earlier. -/
structure Announced (client : Client) (queue : List (Delivery D)) : Prop
    extends client.Waiting where
  asked : client.asked = true
  queued : ∃ pre cause ids post,
    queue = pre ++ ⟨cause, .ofJson (SignallingServer.peers ids b).tree⟩ :: post ∧
      env.OnlyRelays pre ∧ env.NoJoin post ∧ ∀ id ∈ ids, ∃ a, a.id = id ∧ JoinedBefore served a b

/-- It has run `onJoinToRoom` once, with `ids`, and offered to each of them once. -/
structure Entered (ids : List String) (client : Client) (queue : List (Delivery D)) : Prop where
  ran : client.ran.filter Signal.isJoin = [.onJoinToRoom (some (ids.map some)) (some b.id)]
  offers : ∀ id, client.effects.countP (Effect.offersTo id) = if id ∈ ids.map some then 1 else 0
  earlier : ∀ id ∈ ids, ∃ a, a.id = id ∧ JoinedBefore served a b
  held : client.exited = false → client.service.context = true ∧
    PeerService.At client.service.roster true true client.service
  queued : env.NoJoin queue

/-- The answer to the join of `b` has been sent. -/
def Answered (client : Client) (queue : List (Delivery D)) : Prop :=
  client.Announced env served b queue ∨ ∃ ids, client.Entered env served b ids queue

variable {env served b} {client : Client} {queue later : List (Delivery D)} {d : Delivery D}

/-- Running `onJoinToRoom` while waiting. -/
theorem Waiting.enter (h : client.Waiting) (hasked : client.asked = true) {cause : Session}
    {ids : List String} (hq : env.NoJoin queue)
    (hids : ∀ id ∈ ids, ∃ a, a.id = id ∧ JoinedBefore served a b) :
    (client.process env b ⟨cause, .ofJson (SignallingServer.peers ids b).tree⟩).Entered
      env served b ids queue := by
  have hs := env.signal_peers ids b
  have hcontext := h.context_eq hasked
  have htask := Setting.task_of_signal (h := b)
    (d := ⟨cause, .ofJson (SignallingServer.peers ids b).tree⟩) hs
  refine ⟨?_, fun id => ?_, hids, fun _ => ?_, hq⟩
  · rw [Client.process, hs, List.filter_append, Signal.filter_isJoin h.ran]
    rfl
  · rw [Client.process, List.countP_append, Effect.countP_offersTo h.effects, htask, Nat.zero_add]
    exact h.blank.offers _ _ hcontext _ _ id
  · obtain ⟨v, hat, hv⟩ := h.blank.ready (env.videoEnable b) (env.mediaType b) hcontext
      (ids.map some) (some b.id)
    rw [Client.process, Setting.hear, htask]
    refine ⟨(congrArg Roster.context hat.roster_eq).trans hv.context_eq, ?_⟩
    exact ⟨rfl, hat.factory_isSome, hat.stream_isSome⟩

/-- Once entered, every text leaves the client entered. -/
theorem Entered.process {ids : List String} (h : client.Entered env served b ids (d :: queue)) :
    (client.process env b d).Entered env served b ids queue := by
  have hd := h.queued d (List.mem_cons_self ..)
  refine ⟨?_, fun id => ?_, h.earlier, fun hx => ?_,
    fun d' hd' => h.queued d' (List.mem_cons_of_mem _ hd')⟩
  · have hnone : (env.signal d.text).toList.filter Signal.isJoin = [] :=
      Signal.filter_isJoin fun signal hs => hd signal (Option.mem_toList.mp hs)
    rw [Client.process, List.filter_append, hnone, List.append_nil]
    exact h.ran
  · rw [Client.process, List.countP_append, Effect.countP_offersTo (Setting.not_isOffer_task hd),
      Nat.add_zero]
    exact h.offers id
  · obtain ⟨hcontext, hat⟩ := h.held hx
    cases hs : env.signal d.text with
    | none =>
      rw [Client.process, Setting.hear_of_none hs]
      exact ⟨hcontext, hat⟩
    | some signal =>
      rw [Client.process, Setting.hear_of_some hs]
      have hjoin := hd signal hs
      exact ⟨(PeerService.identity_callback _ _ _ hjoin).2.trans hcontext,
        PeerService.held_callback _ _ _ hjoin hcontext hat⟩

/-- A processed text moves a client at most from the second stage to the third. -/
theorem Answered.process (h : client.Answered env served b (d :: queue)) :
    (client.process env b d).Answered env served b queue := by
  rcases h with h | ⟨ids, h⟩
  · obtain ⟨pre, cause, ids, post, hq, hpre, hpost, hids⟩ := h.queued
    cases pre with
    | nil =>
      obtain ⟨rfl, rfl⟩ := List.cons.inj hq
      exact Or.inr ⟨ids, h.toWaiting.enter h.asked hpost hids⟩
    | cons d' pre =>
      obtain ⟨rfl, rfl⟩ := List.cons.inj hq
      refine Or.inl ⟨h.toWaiting.process (hpre d (List.mem_cons_self ..)), h.asked,
        pre, cause, ids, post, rfl, ?_, hpost, hids⟩
      exact fun d' hd' => hpre d' (List.mem_cons_of_mem _ hd')
  · exact Or.inr ⟨ids, h.process⟩

/-- Another `joinRoom` of the client changes nothing of it. -/
theorem Answered.joinRoom (h : client.Answered env served b queue) :
    client.joinRoom.Answered env served b queue := by
  rcases h with h | ⟨ids, h⟩
  · exact Or.inl ⟨h.toWaiting.joinRoom, rfl, h.queued⟩
  · refine Or.inr ⟨ids, h.ran, h.offers, h.earlier, fun hx => ⟨rfl, rfl, ?_, ?_⟩, h.queued⟩
    · exact (h.held hx).2.factory_isSome
    · exact (h.held hx).2.stream_isSome

/-- Leaving changes nothing of what it has offered. -/
theorem Answered.exitRoom (h : client.Answered env served b queue) :
    client.exitRoom.Answered env served b queue := by
  rcases h with h | ⟨ids, h⟩
  · exact Or.inl ⟨h.toWaiting.exitRoom, h.asked, h.queued⟩
  · refine Or.inr ⟨ids, h.ran, fun id => ?_, h.earlier, nofun, h.queued⟩
    rw [Client.exitRoom, List.countP_append,
      Effect.countP_offersTo PeerService.not_isOffer_exitRoom, Nat.add_zero]
    exact h.offers id

/-- Texts that answer no join may be queued behind. -/
theorem Answered.append (h : client.Answered env served b queue) (hl : env.NoJoin later)
    (events : List (ServerEvent D)) :
    client.Answered env (served ++ events) b (queue ++ later) := by
  have happend {ids : List String} (hids : ∀ id ∈ ids, ∃ a, a.id = id ∧ JoinedBefore served a b) :
      ∀ id ∈ ids, ∃ a, a.id = id ∧ JoinedBefore (served ++ events) a b := fun id hid =>
    (hids id hid).imp fun a ha => ⟨ha.1, ha.2.append events⟩
  rcases h with h | ⟨ids, h⟩
  · obtain ⟨pre, cause, ids, post, rfl, hpre, hpost, hids⟩ := h.queued
    exact Or.inl ⟨h.toWaiting, h.asked, pre, cause, ids, post ++ later,
      List.append_assoc .., hpre, hpost.append hl, happend hids⟩
  · exact Or.inr ⟨ids, h.ran, h.offers, happend h.earlier, h.held, h.queued.append hl⟩

/-- The client has run `onJoinToRoom` with a list containing `a`. -/
def Listed (client : Client) (a : Session) : Prop :=
  ∃ ids me, Signal.onJoinToRoom (some ids) me ∈ client.ran ∧ some a.id ∈ ids

/-- How often the client has called `createOffer` on its peer for `a`. -/
def offerCount (client : Client) (a : Session) : Nat :=
  client.effects.countP (Effect.offersTo (some a.id))

/-- A client that waits knows nobody and has offered to nobody. -/
theorem Waiting.offers (h : client.Waiting) (a : Session) :
    ¬client.Listed a ∧ client.offerCount a = 0 := by
  refine ⟨fun ⟨ids, me, hmem, _⟩ => ?_, Effect.countP_offersTo h.effects _⟩
  cases h.ran _ hmem

/-- In every stage, a client has offered exactly to those it was told of. -/
theorem offers_cases (h : client.Aside env queue ∨ client.Answered env served b queue)
    (a : Session) :
    (client.Listed a ∧ client.offerCount a = 1 ∧ JoinedBefore served a b) ∨
      (¬client.Listed a ∧ client.offerCount a = 0) := by
  rcases h with h | h | ⟨ids, h⟩
  · exact Or.inr (h.toWaiting.offers a)
  · exact Or.inr (h.toWaiting.offers a)
  · have hcount := h.offers (some a.id)
    have hran (signal : Signal) (hj : signal.isJoin = true) : signal ∈ client.ran ↔
        signal = .onJoinToRoom (some (ids.map some)) (some b.id) := by
      rw [← List.mem_singleton, ← h.ran, List.mem_filter, hj, and_iff_left rfl]
    by_cases ha : some a.id ∈ ids.map some
    · rw [if_pos ha] at hcount
      refine Or.inl ⟨⟨ids.map some, some b.id, (hran _ rfl).mpr rfl, ha⟩, hcount, ?_⟩
      obtain ⟨id, hid, heq⟩ := List.mem_map.mp ha
      obtain ⟨x, hx, hbefore⟩ := h.earlier id hid
      obtain rfl : x = a := Session.ext (hx.trans (Option.some.inj heq))
      exact hbefore
    · rw [if_neg ha] at hcount
      refine Or.inr ⟨fun ⟨ids', me, hmem, hin⟩ => ha ?_, hcount⟩
      cases (hran _ rfl).mp hmem
      exact hin

end Client

namespace World

variable {env : Setting D} {w : World D} {s : Session} {event : ServerEvent D}
  {rest : List (ServerEvent D)} {fails : Session → Bool}

/-- The stage every client is in, by the room its session is filed under. -/
structure Staged (env : Setting D) (w : World D) : Prop where
  admitted : ∀ x name, x ∈ w.container.server.room name → Joined w.served x name
  joined : ∀ x r, Joined w.served x r →
    w.container.server.roomList.lookup x.id = some r ∨ w.container.phase x = .closed
  answered : ∀ b, (w.container.server.roomList.lookup b.id).isSome →
    (w.client b).Answered env w.served b (w.down b)
  placed : ∀ b, (w.client b).Aside env (w.down b) ∨ (w.client b).Answered env w.served b (w.down b)

theorem staged_start (env : Setting D) : (start : World D).Staged env where
  admitted x name hin := by
    simp [start, Container.start, SignallingServer.empty, SignallingServer.room] at hin
  joined x r hx := by
    obtain ⟨event, hmem, _⟩ := hx
    cases hmem
  answered b hl := by simp [start, Container.start, SignallingServer.empty] at hl
  placed b := Or.inl .init

/-- Changing a client without changing its stage. -/
theorem Staged.setClient (h : w.Staged env) (t : Session) {client : Client}
    (haside : ∀ queue, (w.client t).Aside env queue → client.Aside env queue)
    (hanswered : ∀ queue, (w.client t).Answered env w.served t queue →
      client.Answered env w.served t queue) : (w.setClient t client).Staged env := by
  have hclient (b : Session) (queue : List (Delivery D)) :
      ((w.client b).Aside env queue → ((w.setClient t client).client b).Aside env queue) ∧
        ((w.client b).Answered env w.served b queue →
          ((w.setClient t client).client b).Answered env w.served b queue) := by
    by_cases hb : b = t
    · subst hb
      rw [client_setClient_self]
      exact ⟨haside queue, hanswered queue⟩
    · rw [client_setClient_of_ne _ hb]
      exact ⟨id, id⟩
  exact ⟨h.admitted, h.joined, fun b hl => (hclient b _).2 (h.answered b hl),
    fun b => (h.placed b).imp (hclient b _).1 (hclient b _).2⟩

/-- A client that processes a text stays in its stage or enters the room. -/
theorem Staged.process (h : w.Staged env) {t : Session} {d : Delivery D}
    {later : List (Delivery D)} (hd : w.down t = d :: later) :
    (w.process env t d later).Staged env := by
  have hclient (b : Session) :
      ((w.client b).Aside env (w.down b) → ((w.process env t d later).client b).Aside env
          ((w.process env t d later).down b)) ∧
        ((w.client b).Answered env w.served b (w.down b) →
          ((w.process env t d later).client b).Answered env w.served b
            ((w.process env t d later).down b)) := by
    by_cases hb : b = t
    · subst hb
      rw [client_process_self, down_process_self, hd]
      exact ⟨fun h => h.process, fun h => h.process⟩
    · rw [client_process_of_ne _ _ _ _ hb, down_process_of_ne _ _ _ _ hb]
      exact ⟨id, id⟩
  exact ⟨h.admitted, h.joined, fun b hl => (hclient b).2 (h.answered b hl),
    fun b => (h.placed b).imp (hclient b).1 (hclient b).2⟩

/-- The session whose join is executed is answered. -/
theorem Staged.execute_join (h : w.Staged env) (hsync : w.Synced env) (hu : w.up s = event :: rest)
    (hf : ∀ t, fails t = false) {name : String} (hj : event.joins = some name) :
    ((w.execute s event rest fails).client s).Answered env
      (w.execute s event rest fails).served s ((w.execute s event rest fails).down s) := by
  obtain ⟨hs, ⟨hallowed, _⟩, _⟩ := hsync.quiet hu hf
  obtain ⟨hasked, hnone⟩ := hsync.fresh hu (by rw [hj]; rfl)
  cases event with
  | onOpen session userId => cases hj
  | onClose session => cases hj
  | onMessage session message =>
    obtain rfl : session = s := hs
    have hphase : w.container.phase session ≠ .closed := by
      rw [show w.container.phase session = .opened from hallowed]
      nofun
    have hn : (w.container.server.others name session).Nodup := (hsync.agree.nodup name).filter _
    have hself : session ∉ w.container.server.others name session := fun hm =>
      (SignallingServer.mem_others.mp hm).2 rfl
    have haside := hsync.outside session hnone hphase
    refine Or.inl ⟨haside.toWaiting, hasked, w.down session, session,
      (w.container.server.others name session).map (·.id), [], ?_, haside.queued, nofun, ?_⟩
    · rw [down_execute, news_join hf hj hn, if_neg hself, if_pos rfl]
    · intro id hid
      obtain ⟨a, ha, rfl⟩ := List.mem_map.mp hid
      refine ⟨a, rfl, w.served, [.onMessage session message], rfl, ⟨name, ?_⟩, fun hjoined => ?_,
        name, .onMessage session message, List.mem_singleton_self _, rfl, hj⟩
      · exact h.admitted a name (SignallingServer.mem_others.mp ha).1
      · obtain ⟨r, hr⟩ := hjoined
        rcases h.joined session r hr with hl | hc
        · cases hnone.symm.trans hl
        · exact hphase hc

/-- A callback of the server moves no client but the one it answers. -/
theorem Staged.execute (h : w.Staged env) (hsync : w.Synced env) (hu : w.up s = event :: rest)
    (hf : ∀ t, fails t = false) : (w.execute s event rest fails).Staged env := by
  obtain ⟨hs, ⟨hallowed, _⟩, _⟩ := hsync.quiet hu hf
  have hanswered {t : Session} (ht : t = s → event.joins = none)
      (ha : (w.client t).Answered env w.served t (w.down t)) :
      (w.client t).Answered env (w.served ++ [event]) t
        (w.down t ++ w.news s ⟨event, fails⟩ t) := ha.append (noJoin_news hs ht) _
  have haside {t : Session} (ht : t = s → event.joins = none)
      (hl : w.container.server.roomList.lookup t.id = none)
      (ha : (w.client t).Aside env (w.down t)) :
      (w.client t).Aside env (w.down t ++ w.news s ⟨event, fails⟩ t) :=
    ha.append (onlyRelays_news hsync.agree hs ht hl)
  have hown (t : Session) : (t = s ∧ ∃ name, event.joins = some name) ∨
      (t = s → event.joins = none) := by
    cases hj : event.joins with
    | none => exact Or.inr fun _ => rfl
    | some name =>
      by_cases ht : t = s
      · exact Or.inl ⟨ht, name, rfl⟩
      · exact Or.inr fun he => absurd he ht
  refine ⟨fun x name hin => ?_, fun x r hx => ?_, fun t hl => ?_, fun t => ?_⟩
  · rcases mem_room_step w.container _ hin with hin | ⟨hsession, hj⟩
    · exact (h.admitted x name hin).append _
    · exact ⟨event, List.mem_append_right _ (List.mem_singleton_self _), hsession, hj⟩
  · by_cases hp : (w.container.step ⟨event, fails⟩).phase x = .closed
    · exact Or.inr hp
    · refine Or.inl ?_
      have hold (hx : Joined w.served x r) : w.container.server.roomList.lookup x.id = some r :=
        (h.joined x r hx).resolve_right fun hc => hp (Container.phase_step_closed hallowed hc)
      rw [container_execute]
      obtain ⟨e, hmem, he, hjr⟩ := hx
      rcases List.mem_append.mp hmem with hmem | hmem
      · have hl := hold ⟨e, hmem, he, hjr⟩
        rcases hown x with ⟨rfl, name, hj⟩ | ht
        · cases hl.symm.trans (hsync.fresh hu (by rw [hj]; rfl)).2
        · rw [hsync.lookup_execute hu ht hp, hl]
      · obtain rfl := List.mem_singleton.mp hmem
        exact lookup_step_of_join hf he hjr
  · rcases hown t with ⟨rfl, name, hj⟩ | ht
    · exact h.execute_join hsync hu hf hj
    · have hp := (hsync.execute hu hf).opened_of_filed hl
      rw [container_execute] at hl hp
      have hne : (w.container.step ⟨event, fails⟩).phase t ≠ .closed := by
        rw [hp]
        nofun
      rw [hsync.lookup_execute hu ht hne] at hl
      exact hanswered ht (h.answered t hl)
  · rcases hown t with ⟨rfl, name, hj⟩ | ht
    · exact Or.inr (h.execute_join hsync hu hf hj)
    · cases hl : w.container.server.roomList.lookup t.id with
      | none => exact (h.placed t).imp (haside ht hl) (hanswered ht)
      | some r => exact Or.inr (hanswered ht (h.answered t (by rw [hl]; rfl)))

/-- Every cooperative act keeps all clients staged. -/
theorem Staged.step (h : w.Staged env) (hsync : w.Synced env) (act : Act D)
    (hok : w.Cooperative act) : (w.step env act).Staged env := by
  rcases w.step_cases env act with ⟨s, event, hw, _, _⟩ | ⟨s, room, rfl, hw⟩ |
    ⟨s, fails, event, rest, rfl, hu, hw⟩ | ⟨t, d, rest, rfl, hd, hw⟩ | ⟨t, rfl, hw⟩ | hw
  · rw [hw]
    exact ⟨h.admitted, h.joined, h.answered, h.placed⟩
  · rw [hw]
    have hsub : (w.submit s (.onMessage s (WsService.joinRoom room))).Staged env :=
      ⟨h.admitted, h.joined, h.answered, h.placed⟩
    exact hsub.setClient s (fun _ ha => ha.joinRoom) fun _ ha => ha.joinRoom
  · rw [hw]
    exact h.execute hsync hu (hok.2.2.2 s fails rfl)
  · rw [hw]
    exact h.process hd
  · rw [hw]
    exact h.setClient t (fun _ ha => ha.exitRoom) fun _ ha => ha.exitRoom
  · rwa [hw]

/-- In every reachable state the clients are in step with the server and staged. -/
theorem staged_of_reachable (hw : Reachable (World.step env) Cooperative start w) :
    w.Synced env ∧ w.Staged env :=
  hw.invariant (I := fun w => w.Synced env ∧ w.Staged env) ⟨synced_start env, staged_start env⟩
    fun _ act h hok => ⟨h.1.step act hok, h.2.step h.1 act hok⟩

/-- In every state of every cooperative run: `b` has called `createOffer` for `a` exactly once
if it has run `onJoinToRoom` with a list containing `a`, and never otherwise; `a` and `b`
have not both called it for each other; and if `b` has, its join was executed after that of
`a`. -/
theorem one_side_initiates (env : Setting D) {w : World D}
    (hw : Reachable (World.step env) Cooperative start w) (a b : Session) :
    ((w.client b).Listed a → (w.client b).offerCount a = 1) ∧
      (¬(w.client b).Listed a → (w.client b).offerCount a = 0) ∧
      ¬(0 < (w.client a).offerCount b ∧ 0 < (w.client b).offerCount a) ∧
      (0 < (w.client b).offerCount a → JoinedBefore w.served a b) := by
  have hstaged := (staged_of_reachable hw).2
  have hearlier (a b : Session) (h : 0 < (w.client b).offerCount a) :
      JoinedBefore w.served a b := by
    rcases Client.offers_cases (hstaged.placed b) a with ⟨_, _, hbefore⟩ | ⟨_, hzero⟩
    · exact hbefore
    · omega
  refine ⟨fun hl => ?_, fun hl => ?_, fun ⟨hab, hba⟩ => ?_, hearlier a b⟩
  · rcases Client.offers_cases (hstaged.placed b) a with ⟨_, hone, _⟩ | ⟨hnot, _⟩
    · exact hone
    · exact absurd hl hnot
  · rcases Client.offers_cases (hstaged.placed b) a with ⟨hlisted, _, _⟩ | ⟨_, hzero⟩
    · exact absurd hlisted hl
    · exact hzero
  · exact (hearlier a b hba).asymm (hearlier b a hab)

/-- `b` enters the room of `a`, and hears so. -/
def enteredRun : List (Act IntDouble) := pairRun ++ [.deliver ⟨"b"⟩]

/-- In the run everybody cooperates. -/
theorem enteredRun_cooperative : Along (World.step demoSetting) Cooperative start enteredRun :=
  along_append.mpr ⟨pairRun_cooperative, ⟨trivial, nofun, nofun, nofun⟩, trivial⟩

/-- `b` has offered to `a`, once, and `a` not to `b`. -/
theorem enteredRun_initiates :
    Reachable (World.step demoSetting) Cooperative start
      (enteredRun.foldl (World.step demoSetting) start) ∧
    ((enteredRun.foldl (World.step demoSetting) start).client ⟨"b"⟩).offerCount ⟨"a"⟩ = 1 ∧
    JoinedBefore (enteredRun.foldl (World.step demoSetting) start).served ⟨"a"⟩ ⟨"b"⟩ := by
  have hw := Along.reachable .init enteredRun_cooperative
  obtain ⟨hlisted, _, _, hbefore⟩ := one_side_initiates demoSetting hw ⟨"a"⟩ ⟨"b"⟩
  have hone := hlisted ⟨[some "a"], some "b", List.mem_singleton_self _, List.mem_singleton_self _⟩
  exact ⟨hw, hone, hbefore (by rw [hone]; exact Nat.one_pos)⟩

end World

end WebrtcCaller
