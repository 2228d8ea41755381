import WebrtcCaller.Client.Calling

/-!
# Two users calling each other

The applications of two users and the instant-messaging server between them, with every
interleaving of their main threads, of the call messages and of the answers in the
dialogs. A user makes every call for one room and is offered every call for another one,
and what the one user makes is what the other one is offered. So both are in one room as
long as no user dials while the other one is in a call of the same direction. A held
connection whose end has been reported is no call any more.
-/

namespace WebrtcCaller

variable {D : Type}

/-- The two users. -/
inductive Party where
  | alice
  | bob
  deriving DecidableEq

/-- The one a party calls. -/
def Party.other : Party → Party
  | .alice => .bob
  | .bob => .alice

@[simp] theorem Party.other_other (u : Party) : u.other.other = u := by cases u <;> rfl

theorem Party.other_ne (u : Party) : u.other ≠ u := by cases u <;> decide

theorem Party.eq_or_eq_other (u v : Party) : v = u ∨ v = u.other := by
  cases u <;> cases v <;> decide

/-- Two users, their sessions at the instant-messaging server, and the parts of their
applications that are not modelled. -/
structure CallPair (D : Type) where
  userId : Party → String
  userId_ne : userId .alice ≠ userId .bob
  owner : Session → Party
  castToString : Json D → Except Raise String
  validUri : String → Bool
  readsObject : String → Bool
  readObject : String → Except Raise (Option (Fields D))
  castToInt : Json D → Except Raise Int32

/-- The two applications, the server, and the messages on their way. -/
structure Calls (D : Type) where
  user : Party → Caller
  im : ImContainer
  /-- Sent and not yet seen by the server. -/
  sent : List (Text D)
  /-- Forwarded and not yet received. -/
  forwarded : List (Sent D)

/-- What can happen next; messages are picked by their position. -/
inductive CallAct (D : Type) where
  /-- `sends` is whether `IMWebSocket.sendData` succeeds. -/
  | callSingle (u : Party) (sends : Bool)
  | answer (u : Party) (i : Nat) (accept : Bool)
  | proceed (u : Party)
  /-- Any other event of the manager. -/
  | event (u : Party) (event : ManagerEvent D)
  | onOpen (session : Session)
  | onClose (session : Session)
  | serve (i : Nat)
  | receive (i : Nat)

namespace CallPair

/-- The user behind a session. -/
def sessionUser (pair : CallPair D) (session : Session) : String := pair.userId (pair.owner session)

/-- The room a user makes its calls for. -/
def room (pair : CallPair D) (u : Party) : String :=
  callRoom (pair.userId u) (pair.userId u.other)

theorem userId_injective (pair : CallPair D) : Function.Injective pair.userId := by
  intro u v h
  cases u <;> cases v
  · rfl
  · exact absurd h pair.userId_ne
  · exact absurd h.symm pair.userId_ne
  · rfl

/-- The text of a call. -/
def callText [JavaDouble D] (pair : CallPair D) (u : Party) : Text D :=
  IMService.sendCall (pair.userId u) (pair.userId u.other) (pair.room u) TYPE_VIDEO

end CallPair

namespace Calls

/-- Nobody is connected and no message is on its way. -/
def start : Calls D := ⟨fun _ => .start, .start, [], []⟩

/-- Change the application of a user. -/
def set (w : Calls D) (u : Party) (c : Caller) : Calls D :=
  { w with user := Function.update w.user u c }

/-- The manager calls of a call come only from `proceed`, and what else is run on the main
thread waits for them. -/
def Allowed (w : Calls D) : CallAct D → Prop
  | .callSingle u _ | .answer u _ _ => (w.user u).entering = .idle
  | .event _ (.setConfigWithCallBack _ _ _) | .event _ .connect => False
  | .event u .joinRoom | .event u .exitRoom | .event u .handle => (w.user u).entering = .idle
  | _ => True

section Rooms

/-- Two users that both hold a live connection hold one for the same room. -/
def SameRoom (w : Calls D) : Prop :=
  ∀ u ws ws', (w.user u).Live ws → (w.user u.other).Live ws' →
    ((w.user u).dialled ws).roomId = ((w.user u.other).dialled ws').roomId

variable {w : Calls D}

theorem sameRoom_start : (start : Calls D).SameRoom := by
  intro u ws ws' h
  cases h.1

/-- It is enough to compare the users in one order. -/
theorem sameRoom_iff (u : Party) : w.SameRoom ↔ ∀ ws ws',
    (w.user u).Live ws → (w.user u.other).Live ws' →
      ((w.user u).dialled ws).roomId = ((w.user u.other).dialled ws').roomId := by
  refine ⟨fun h => h u, fun h v => ?_⟩
  rcases u.eq_or_eq_other v with rfl | rfl
  · exact h
  · rw [Party.other_other]
    exact fun ws ws' hws hws' => (h ws' ws hws' hws).symm

/-- Where no connection is made, the users stay in one room. -/
theorem SameRoom.of_within {w' : Calls D} (h : w.SameRoom)
    (hwithin : ∀ u, (w.user u).Within (w'.user u)) : w'.SameRoom := by
  intro u ws ws' hws hws'
  obtain ⟨hlive, hsame⟩ := hwithin u ws hws
  obtain ⟨hlive', hsame'⟩ := hwithin u.other ws' hws'
  rw [hsame, hsame']
  exact h u ws ws' hlive hlive'

/-- Changing the application of one user leaves the other one alone. -/
theorem within_set {u : Party} {c : Caller} (h : (w.user u).Within c) (v : Party) :
    (w.user v).Within ((w.set u c).user v) := by
  simp only [Calls.set]
  by_cases hv : v = u
  · rw [hv, Function.update_self]
    exact h
  · rw [Function.update_of_ne hv]
    exact Caller.within_of_eq rfl rfl rfl

end Rooms

section Runs

variable [JavaDouble D] (pair : CallPair D)

/-- The two applications and the server after one act. -/
def step (w : Calls D) : CallAct D → Calls D
  | .callSingle u true =>
    { w.set u ((w.user u).callSingle (pair.userId u) (pair.userId u.other)) with
      sent := w.sent ++ [pair.callText u] }
  | .callSingle _ false => w
  | .answer u i accept => w.set u ((w.user u).answer (pair.userId u) i accept)
  | .proceed u => w.set u ((w.user u).proceed pair.castToString pair.validUri)
  | .event u event => w.set u ((w.user u).event pair.castToString pair.validUri event)
  | .onOpen session =>
    { w with im := w.im.step pair.readsObject pair.sessionUser (.onOpen session : ImEvent D) }
  | .onClose session =>
    { w with im := w.im.step pair.readsObject pair.sessionUser (.onClose session : ImEvent D) }
  | .serve i =>
    match w.sent[i]? with
    | none => w
    | some message =>
      { w with
        sent := w.sent.eraseIdx i
        forwarded := w.forwarded ++
          ((ImServer.onMessage pair.readsObject message).run w.im.server).out }
  | .receive i =>
    match w.forwarded[i]? with
    | none => w
    | some delivery =>
      { w.set (pair.owner delivery.dst)
          ((w.user (pair.owner delivery.dst)).onMessage pair.readObject pair.castToInt
            delivery.text) with
        forwarded := w.forwarded.eraseIdx i }

/-- A user dials only while the other one holds no live connection, or one of the opposite
direction; unless both name their rooms alike. -/
def Uncrossed (w : Calls D) (act : CallAct D) : Prop :=
  ∀ u, act = .proceed u → ∀ outgoing, (w.user u).Dials outgoing →
    ∀ ws, (w.user u.other).Live ws →
      ((w.user u.other).dialled ws).outgoing ≠ outgoing ∨ pair.room u = pair.room u.other

/-- Every call of a user is for the room that user names, on its way as at both ends. -/
structure Named (w : Calls D) : Prop where
  user : ∀ u, (w.user u).Named (pair.room u) (pair.room u.other)
  sent : ∀ message ∈ w.sent, ∃ u, message = pair.callText u
  forwarded : ∀ delivery ∈ w.forwarded,
    delivery.text = pair.callText (pair.owner delivery.dst).other
  routed : w.im.Routed pair.sessionUser

variable {pair} {w : Calls D}

theorem named_start : (start : Calls D).Named pair := by
  refine ⟨fun _ => Caller.named_start, ?_, ?_, ImContainer.routed_start⟩
  · intro message h
    cases h
  · intro delivery h
    cases h

/-- One application changes. -/
theorem Named.set (h : w.Named pair) {u : Party} {c : Caller}
    (hc : c.Named (pair.room u) (pair.room u.other)) : (w.set u c).Named pair := by
  refine ⟨?_, h.sent, h.forwarded, h.routed⟩
  intro v
  simp only [Calls.set]
  by_cases hv : v = u
  · rw [hv, Function.update_self]
    exact hc
  · rw [Function.update_of_ne hv]
    exact h.user v

/-- A call goes to a session of the user it is for. -/
theorem Named.forward (h : w.Named pair) (u : Party) {delivery : Sent D}
    (hmem : delivery ∈
      ((ImServer.onMessage pair.readsObject (pair.callText u)).run w.im.server).out) :
    delivery.text = pair.callText (pair.owner delivery.dst).other := by
  rw [CallPair.callText, ImServer.run_onMessage_of_wellFormed pair.readsObject
    (IMService.wellFormed_sendCall _ _ _ _)] at hmem
  cases hl : w.im.server.sessionMap1.lookup (pair.userId u.other) with
  | none => simp [hl] at hmem
  | some session =>
    simp only [hl, List.mem_singleton] at hmem
    subst hmem
    obtain ⟨-, huser⟩ := h.routed _ _ hl
    have howner : pair.owner session = u.other := pair.userId_injective huser
    rw [howner, Party.other_other]
    rfl

/-- Every act carries the room of a call along. -/
theorem Named.step (h : w.Named pair) (act : CallAct D) (hok : w.Allowed act) :
    (w.step pair act).Named pair := by
  cases act with
  | callSingle u sends =>
    cases sends with
    | false => exact h
    | true =>
      have hset := h.set (h.user u).callSingle
      refine ⟨hset.user, ?_, hset.forwarded, hset.routed⟩
      intro message hmem
      rcases List.mem_append.mp hmem with hmem | hmem
      · exact h.sent message hmem
      · exact ⟨u, List.mem_singleton.mp hmem⟩
  | answer u i accept => exact h.set ((h.user u).answer _ i accept)
  | proceed u => exact h.set (h.user u).proceed
  | event u event =>
    refine h.set ((h.user u).event ?_ ?_)
    · rintro rfl
      exact hok
    · rintro wss mediaType roomId rfl
      exact hok
  | onOpen session => exact ⟨h.user, h.sent, h.forwarded, h.routed.step _⟩
  | onClose session => exact ⟨h.user, h.sent, h.forwarded, h.routed.step _⟩
  | serve i =>
    simp only [Calls.step]
    cases hs : w.sent[i]? with
    | none => exact h
    | some message =>
      obtain ⟨u, rfl⟩ := h.sent message (List.mem_of_getElem? hs)
      refine ⟨h.user, ?_, ?_, h.routed⟩
      · intro other hmem
        exact h.sent other (List.mem_of_mem_eraseIdx hmem)
      · intro delivery hmem
        rcases List.mem_append.mp hmem with hmem | hmem
        · exact h.forwarded delivery hmem
        · exact h.forward u hmem
  | receive i =>
    simp only [Calls.step]
    cases hf : w.forwarded[i]? with
    | none => exact h
    | some delivery =>
      have hc : ((w.user (pair.owner delivery.dst)).onMessage pair.readObject pair.castToInt
          delivery.text).Named (pair.room (pair.owner delivery.dst))
            (pair.room (pair.owner delivery.dst).other) := by
        rw [h.forwarded delivery (List.mem_of_getElem? hf)]
        exact (h.user _).onMessage ..
      have hset := h.set hc
      refine ⟨hset.user, hset.sent, ?_, hset.routed⟩
      intro other hmem
      exact h.forwarded other (List.mem_of_mem_eraseIdx hmem)

/-- An act that does not dial makes no connection. -/
theorem within_step {act : CallAct D} (hok : w.Allowed act)
    (hdials : ∀ u, act = .proceed u → ∀ outgoing, ¬(w.user u).Dials outgoing) (v : Party) :
    (w.user v).Within ((w.step pair act).user v) := by
  cases act with
  | callSingle u sends =>
    cases sends with
    | false => exact Caller.within_of_eq rfl rfl rfl
    | true =>
      have hcall : (w.user u).Within
          ((w.user u).callSingle (pair.userId u) (pair.userId u.other)) :=
        Caller.within_of_eq rfl rfl rfl
      exact within_set hcall v
  | answer u i accept => exact within_set (Caller.within_answer _ i accept) v
  | proceed u => exact within_set (Caller.within_proceed (hdials u rfl)) v
  | event u event =>
    refine within_set (Caller.within_event ?_) v
    rintro rfl
    exact hok
  | onOpen session => exact Caller.within_of_eq rfl rfl rfl
  | onClose session => exact Caller.within_of_eq rfl rfl rfl
  | serve i =>
    simp only [Calls.step]
    cases w.sent[i]? with
    | none => exact Caller.within_of_eq rfl rfl rfl
    | some message => exact Caller.within_of_eq rfl rfl rfl
  | receive i =>
    simp only [Calls.step]
    cases w.forwarded[i]? with
    | none => exact Caller.within_of_eq rfl rfl rfl
    | some delivery => exact within_set (Caller.within_onMessage _ _ _) v

/-- A user that dials joins the other one exactly if the other one holds no live connection or
one of the opposite direction. -/
theorem Named.sameRoom_dial_iff (h : w.Named pair) {u : Party} {outgoing : Bool}
    (hd : (w.user u).Dials outgoing) :
    (w.step pair (.proceed u)).SameRoom ↔ ∀ ws, (w.user u.other).Live ws →
      ((w.user u.other).dialled ws).outgoing ≠ outgoing ∨ pair.room u = pair.room u.other := by
  obtain ⟨hnew, hdialled⟩ := hd.proceed (h.user u) pair.castToString pair.validUri
  rw [sameRoom_iff u]
  simp only [Calls.step, Calls.set, Function.update_self, Function.update_of_ne u.other_ne, hnew]
  have hrooms (ws : Nat) (hws : (w.user u.other).Live ws) :
      (w.user u).manager.roomId = ((w.user u.other).dialled ws).roomId ↔
        ((w.user u.other).dialled ws).outgoing ≠ outgoing ∨ pair.room u = pair.room u.other := by
    have hother := (h.user u.other).dialled hws
    rw [Party.other_other] at hother
    rw [(h.user u).connecting hd.1, hother, Option.some_inj, Caller.roomOf_eq_roomOf_iff]
  constructor
  · intro hsame ws hws
    have hroom := hsame _ ws rfl hws
    rw [hdialled] at hroom
    exact (hrooms ws hws).mp hroom
  · rintro hcrossed _ ws rfl hws
    rw [hdialled]
    exact (hrooms ws hws).mpr (hcrossed ws hws)

/-- One act keeps the users in one room exactly if it does not cross a call. -/
theorem Named.sameRoom_step_iff (h : w.Named pair) (hsame : w.SameRoom) (act : CallAct D)
    (hok : w.Allowed act) : (w.step pair act).SameRoom ↔ w.Uncrossed pair act := by
  by_cases hd : ∃ u outgoing, act = .proceed u ∧ (w.user u).Dials outgoing
  · obtain ⟨u, outgoing, rfl, hd⟩ := hd
    rw [h.sameRoom_dial_iff hd]
    constructor
    · intro hfree v hv outgoing' hd'
      obtain rfl := CallAct.proceed.inj hv
      obtain rfl : outgoing = outgoing' := Entering.connecting.inj (hd.1.symm.trans hd'.1)
      exact hfree
    · intro huncrossed
      exact huncrossed u rfl outgoing hd
  · have hnot (u : Party) (hact : act = .proceed u) (outgoing : Bool) :
        ¬(w.user u).Dials outgoing := fun hdials => hd ⟨u, outgoing, hact, hdials⟩
    refine iff_of_true (hsame.of_within (within_step hok hnot)) ?_
    intro u hact outgoing hdials
    exact absurd hdials (hnot u hact outgoing)

/-- Two users calling each other are in one room throughout a run exactly if no user ever
dials while the other one holds a live connection of the same direction, unless the ids are
such that both name their rooms alike. -/
theorem calls_meet_iff (pair : CallPair D) (acts : List (CallAct D))
    (hok : Along (step pair) Allowed start acts) :
    Throughout (step pair) SameRoom start acts ↔ Along (step pair) (Uncrossed pair) start acts :=
  throughout_iff_along (fun _ act h hok => h.step act hok)
    (fun _ act h hsame hok => h.sameRoom_step_iff hsame act hok) named_start sameRoom_start hok

end Runs

/-- Two applications with sessions `a` and `b`. -/
def twoUsers : CallPair IntDouble where
  userId
    | .alice => "100"
    | .bob => "200"
  userId_ne := by decide
  owner session := if session = ⟨"a"⟩ then .alice else .bob
  castToString _ := .error .jsonSyntax
  validUri _ := true
  readsObject _ := false
  readObject _ := .error .classCast
  castToInt _ := .error .classCast

/-- Both call before either is offered the call of the other. -/
def crossingRun : List (CallAct IntDouble) :=
  [.callSingle .alice true, .callSingle .bob true, .proceed .alice, .proceed .alice,
    .proceed .bob, .proceed .bob]

/-- Both are connected, for two rooms. -/
theorem crossing_calls_miss :
    Along (step twoUsers) Allowed start crossingRun ∧
      ¬Throughout (step twoUsers) SameRoom start crossingRun := by
  refine ⟨⟨rfl, rfl, trivial, trivial, trivial, trivial, trivial⟩, ?_⟩
  rintro ⟨_, _, _, _, _, _, h⟩
  have hrooms : some "100_200" = some "200_100" :=
    h .alice 0 0 ⟨rfl, List.not_mem_nil⟩ ⟨rfl, List.not_mem_nil⟩
  exact absurd hrooms (by decide)

/-- Bob accepts the call of Alice. -/
def acceptedRun : List (CallAct IntDouble) :=
  [.onOpen ⟨"a"⟩, .onOpen ⟨"b"⟩, .callSingle .alice true, .proceed .alice, .proceed .alice,
    .serve 0, .receive 0, .answer .bob 0 true, .proceed .bob, .proceed .bob]

/-- Bob dials for the room he was offered. -/
theorem accepted_call_meets :
    Along (step twoUsers) Allowed start acceptedRun ∧
      Throughout (step twoUsers) SameRoom start acceptedRun ∧
      ∀ u, ((acceptedRun.foldl (step twoUsers) start).user u).Live 0 := by
  have hok : Along (step twoUsers) Allowed start acceptedRun :=
    ⟨trivial, trivial, rfl, trivial, trivial, trivial, trivial, rfl, trivial, trivial, trivial⟩
  refine ⟨hok, (calls_meet_iff twoUsers _ hok).mpr ?_, ?_⟩
  · refine ⟨nofun, nofun, nofun, ?_, ?_, nofun, nofun, nofun, ?_, ?_, trivial⟩
    · rintro _ ⟨⟩ outgoing ⟨hentering, -⟩
      cases hentering
    · rintro _ ⟨⟩ outgoing - ws ⟨hws, -⟩
      cases hws
    · rintro _ ⟨⟩ outgoing ⟨hentering, -⟩
      cases hentering
    · rintro _ ⟨⟩ outgoing ⟨hentering, -⟩ ws ⟨hws, -⟩
      cases hentering
      cases hws
      exact Or.inl nofun
  · intro u
    cases u
    · exact ⟨rfl, List.not_mem_nil⟩
    · exact ⟨rfl, List.not_mem_nil⟩

end Calls

end WebrtcCaller
