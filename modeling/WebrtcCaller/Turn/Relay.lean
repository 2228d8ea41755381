import Mathlib
import WebrtcCaller.Core.Run
import WebrtcCaller.Turn.Bindings
import WebrtcCaller.Turn.Session

/-!
# What a relay session is for

Seen from outside, a session is a set of permitted hosts and a binding of channel numbers to peers.
Requests extend them, timers take from them, and data passes exactly where they allow it. Every step
of the tables of a session is a step of this relay.
-/

namespace WebrtcCaller.Turn

open Session

/-- The abstract relay. -/
@[ext]
structure Relay where
  isOpen : Bool
  hosts : Set IoaAddr
  peer : Nat → Option IoaAddr

/-- What of a session the relay speaks of. -/
def Session.relay (ss : Session) : Relay where
  isOpen := ss.alloc.isValid
  hosts := ss.alloc.hosts
  peer := ss.alloc.peerOf

namespace Session

/-- What a channel bind request asks for, or its refusal before any table is looked at. -/
def channelBindAsked (ss : Session) (attrs : List Attr) : Except Reply (Nat × IoaAddr) :=
  if ss.isTcpRelay then .error (.error 403 (some "Channel bind cannot be used with TCP relay"))
  else if ss.alloc.isValid then channelBindRequest (scanAttrs ss.scanChannelBind attrs)
  else .error .silent

/-- The addresses of a request. -/
def peerAddresses (attrs : List Attr) : List IoaAddr :=
  attrs.filterMap fun
    | .xorPeerAddress addr => some addr
    | _ => none

/-- The addresses a permission request asks for, or its refusal. -/
def createPermissionAsked (srv : TurnServer) (ss : Session) (attrs : List Attr) :
    Except Reply (List IoaAddr) :=
  if ss.alloc.isValid then
    let s := scanAttrs (ss.scanCreatePermission srv) attrs
    if s.unknownAttrs ≠ [] then .error (.error 420 (s.err.map (·.2)))
    else
      match s.err with
      | some (code, reason) => .error (.error code (some reason))
      | none =>
        if s.addrFound = 0 then .error (.error 400 (some "No address found"))
        else .ok (peerAddresses attrs)
  else .error .silent

/-- The peer and the data of a send indication, or its refusal. -/
def sendAsked (srv : TurnServer) (ss : Session) (recvTtl : Nat) (attrs : List Attr) :
    Except Reply (IoaAddr × List UInt8) :=
  if ss.isTcpRelay then .error (.error 403 (some "Send cannot be used with TCP relay"))
  else if ss.alloc.isValid ∧ recvTtl ≠ 0 then
    let s := scanAttrs (scanSend srv) attrs
    match s.err with
    | some (code, reason) => .error (.error code (some reason))
    | none =>
      if s.unknownAttrs ≠ [] then .error (.error 420 none)
      else
        match addrAny s.peerAddr, s.value with
        | false, some value => .ok (s.peerAddr, value)
        | _, _ => .error (.error 400 (some "No address found"))
  else .error .silent

end Session

/-- The host of an address: the address without its port. -/
def host (addr : IoaAddr) : IoaAddr := addrSetPort 0 addr

/-- The hosts of the addresses that decoded. -/
def hostsOf (ps : List IoaAddr) : Set IoaAddr := {h | ∃ p ∈ ps, p ≠ .unspec ∧ host p = h}

/-- What the relay does at an event: its answer, what it relays, and the relay afterwards. The
session is read only for how its requests decode. -/
inductive RelayStep (srv : TurnServer) (ss : Session) (r : Relay) :
    Event → Reply → List Output → Relay → Prop
  | bindRefused {attrs : List Attr} {reply : Reply} :
      ss.channelBindAsked attrs = .error reply → RelayStep srv ss r (.channelBind attrs) reply [] r
  | bindAgain {attrs : List Attr} {n : Nat} {p : IoaAddr} :
      ss.channelBindAsked attrs = .ok (n, p) → r.peer n = some p →
      RelayStep srv ss r (.channelBind attrs) .success [] r
  | bindNumberTaken {attrs : List Attr} {n : Nat} {p q : IoaAddr} :
      ss.channelBindAsked attrs = .ok (n, p) → r.peer n = some q → q ≠ p →
      RelayStep srv ss r (.channelBind attrs)
        (.error 400 (some "You cannot use the same channel number with different peer")) [] r
  | bindPeerTaken {attrs : List Attr} {n m : Nat} {p : IoaAddr} :
      ss.channelBindAsked attrs = .ok (n, p) → r.peer n = none → r.peer m = some p →
      RelayStep srv ss r (.channelBind attrs)
        (.error 400 (some "You cannot use the same peer with different channel number")) [] r
  | bindForbidden {attrs : List Attr} {n : Nat} {p : IoaAddr} :
      ss.channelBindAsked attrs = .ok (n, p) → r.peer n = none → (∀ m, r.peer m ≠ some p) →
      srv.goodPeerAddr p = false →
      RelayStep srv ss r (.channelBind attrs) (.error 403 (some "Forbidden IP")) [] r
  | bindNew {attrs : List Attr} {n : Nat} {p : IoaAddr} :
      ss.channelBindAsked attrs = .ok (n, p) → r.peer n = none → (∀ m, r.peer m ≠ some p) →
      srv.goodPeerAddr p = true →
      RelayStep srv ss r (.channelBind attrs) .success []
        ⟨r.isOpen, insert (host p) r.hosts, Function.update r.peer n (some p)⟩
  | permissionRefused {attrs : List Attr} {reply : Reply} :
      ss.createPermissionAsked srv attrs = .error reply →
      RelayStep srv ss r (.createPermission attrs) reply [] r
  | permissions {attrs : List Attr} {ps : List IoaAddr} :
      ss.createPermissionAsked srv attrs = .ok ps →
      RelayStep srv ss r (.createPermission attrs) .success []
        ⟨r.isOpen, r.hosts ∪ hostsOf ps, r.peer⟩
  | sendRefused {recvTtl : Nat} {attrs : List Attr} {reply : Reply} :
      ss.sendAsked srv recvTtl attrs = .error reply →
      RelayStep srv ss r (.send recvTtl attrs) reply [] r
  | sent {recvTtl : Nat} {attrs : List Attr} {p : IoaAddr} {data : List UInt8} :
      ss.sendAsked srv recvTtl attrs = .ok (p, data) → host p ∈ r.hosts ∨ srv.serverRelay = true →
      ss.getRelaySocket p = true →
      RelayStep srv ss r (.send recvTtl attrs) .silent [.toPeer p data] r
  | sendDropped {recvTtl : Nat} {attrs : List Attr} {p : IoaAddr} {data : List UInt8} :
      ss.sendAsked srv recvTtl attrs = .ok (p, data) →
      (host p ∉ r.hosts ∧ srv.serverRelay = false) ∨ ss.getRelaySocket p = false →
      RelayStep srv ss r (.send recvTtl attrs) .silent [] r
  | channelData {recvTtl n : Nat} {p : IoaAddr} {data : List UInt8} :
      recvTtl ≠ 0 → r.isOpen = true → r.peer n = some p → ss.getRelaySocket p = true →
      RelayStep srv ss r (.channelData recvTtl n data) .silent [.toPeer p data] r
  | channelDropped {recvTtl n : Nat} {data : List UInt8} :
      recvTtl = 0 ∨ r.isOpen = false ∨ (∀ p, r.peer n = some p → ss.getRelaySocket p = false) →
      RelayStep srv ss r (.channelData recvTtl n data) .silent [] r
  | peerChannel {recvTtl n : Nat} {p : IoaAddr} {data : List UInt8} :
      recvTtl ≠ 0 → ss.getRelaySocket p = true → r.isOpen = true → host p ∈ r.hosts →
      r.peer n = some p →
      RelayStep srv ss r (.peerData recvTtl p data) .silent
        [.toClientChannel n (peerDataKept data)] r
  | peerIndication {recvTtl : Nat} {p : IoaAddr} {data : List UInt8} :
      recvTtl ≠ 0 → ss.getRelaySocket p = true → r.isOpen = true →
      host p ∈ r.hosts ∨ srv.serverRelay = true → (∀ n, r.peer n ≠ some p) →
      RelayStep srv ss r (.peerData recvTtl p data) .silent [.toClientData p (peerDataKept data)] r
  | peerDropped {recvTtl : Nat} {p : IoaAddr} {data : List UInt8} :
      recvTtl = 0 ∨ ss.getRelaySocket p = false ∨ r.isOpen = false ∨
        (host p ∉ r.hosts ∧ srv.serverRelay = false) →
      RelayStep srv ss r (.peerData recvTtl p data) .silent [] r
  | channelGone {chn : Place} {n : Nat} {p : IoaAddr} : r.peer n = some p →
      RelayStep srv ss r (.channelTimeout chn) .silent []
        ⟨r.isOpen, r.hosts, Function.update r.peer n none⟩
  | permGone {tinfo : Place} {h : IoaAddr} : h ∈ r.hosts →
      RelayStep srv ss r (.permTimeout tinfo) .silent []
        ⟨r.isOpen, r.hosts \ {h}, fun n => (r.peer n).filter fun p => host p ≠ h⟩
  | noChannel {chn : Place} : RelayStep srv ss r (.channelTimeout chn) .silent [] r
  | noPerm {tinfo : Place} : RelayStep srv ss r (.permTimeout tinfo) .silent [] r
  | tick {now : Nat} : RelayStep srv ss r (.tick now) .silent [] r
  | cleared : RelayStep srv ss r .clear .silent [] ⟨false, ∅, fun _ => none⟩

namespace Session

variable {srv : TurnServer} {ss : Session}

/-- Another state of the same session: its tables are in order, and its requests decode alike. -/
structure Continues (ss ss' : Session) : Prop where
  linked : ss'.alloc.Linked
  isValid : ss'.alloc.isValid = ss.alloc.isValid
  isTcpRelay : ss'.isTcpRelay = ss.isTcpRelay
  relaySocket : ss'.relaySocket = ss.relaySocket

theorem Continues.trans {ss₁ ss₂ ss₃ : Session} (h : Continues ss₁ ss₂) (h' : Continues ss₂ ss₃) :
    Continues ss₁ ss₃ where
  linked := h'.linked
  isValid := h'.isValid.trans h.isValid
  isTcpRelay := h'.isTcpRelay.trans h.isTcpRelay
  relaySocket := h'.relaySocket.trans h.relaySocket

/-- Channels that agree in numbers and peers bind alike. -/
theorem peerOf_congr {a b : Allocation} (ha : a.Linked) (hb : b.Linked)
    (h : ∀ c, (b.chns.get c).map (fun chn => (chn.chnum, chn.peerAddr)) =
      (a.chns.get c).map fun chn => (chn.chnum, chn.peerAddr)) : b.peerOf = a.peerOf := by
  have hsub : ∀ {a b : Allocation}, a.Linked → b.Linked →
      (∀ c, (b.chns.get c).map (fun chn => (chn.chnum, chn.peerAddr)) =
        (a.chns.get c).map fun chn => (chn.chnum, chn.peerAddr)) →
      ∀ n p, b.peerOf n = some p → a.peerOf n = some p := by
    intro a b ha hb h n p hp
    obtain ⟨c, chn, hc, rfl, rfl⟩ := hb.peerOf_eq_some.mp hp
    have he := h c
    rw [hc, Option.map_some] at he
    obtain ⟨chn', hc', heq⟩ := Option.map_eq_some_iff.mp he.symm
    exact ha.peerOf_eq_some.mpr
      ⟨c, chn', hc', congrArg Prod.fst heq, congrArg Prod.snd heq⟩
  funext n
  apply Option.ext
  intro p
  exact ⟨hsub ha hb h n p, hsub hb ha (fun c => (h c).symm) n p⟩

variable (srv) in
/-- Setting a timer is no step of the relay. -/
theorem continues_updateTurnPermissionLifetime (h : ss.alloc.Linked) (t : Place) (delta : Nat) :
    Continues ss (ss.updateTurnPermissionLifetime srv t delta) ∧
      (ss.updateTurnPermissionLifetime srv t delta).relay = ss.relay := by
  have hget : ∀ t', ((ss.updateTurnPermissionLifetime srv t delta).alloc.addrToPerm.get t').map
      (fun p => (p.addr, p.chns)) =
      (ss.alloc.addrToPerm.get t').map fun p => (p.addr, p.chns) := by
    intro t'
    unfold updateTurnPermissionLifetime
    simp only [Slots.get_modify]
    by_cases ht : t' = t
    · rw [if_pos ht, ht]
      cases ss.alloc.addrToPerm.get t <;> rfl
    · rw [if_neg ht]
  have hlinked := h.of_timers hget fun _ => rfl
  refine ⟨⟨hlinked, rfl, rfl, rfl⟩, ?_⟩
  have hhosts : (ss.updateTurnPermissionLifetime srv t delta).alloc.hosts = ss.alloc.hosts := by
    apply Allocation.hosts_congr
    intro t'
    simpa only [Option.map_map, Function.comp_def] using congrArg (Option.map Prod.fst) (hget t')
  exact Relay.ext rfl hhosts rfl

variable (srv) in
/-- A channel of the table is prolonged, and nothing else happens to the relay. -/
theorem continues_updateChannelLifetime (h : ss.alloc.Linked) {c : Place} {chn : ChInfo}
    (hc : ss.alloc.chns.get c = some chn) :
    ∃ ss', ss.updateChannelLifetime srv c = some ss' ∧ Continues ss ss' ∧
      ss'.relay = ss.relay := by
  obtain ⟨p, hp, -⟩ := h.chan_owner c chn hc
  obtain ⟨hcont, hrelay⟩ :=
    continues_updateTurnPermissionLifetime srv h chn.owner srv.channelLifetime
  unfold updateChannelLifetime
  rw [hc, Option.bind_some, hp, Option.map_some]
  refine ⟨_, rfl, ?_⟩
  generalize ss.updateTurnPermissionLifetime srv chn.owner srv.channelLifetime = ss₁ at hcont hrelay
  have hget : ∀ c', ((ss₁.alloc.chns.modify c fun c =>
      { c with lifetimeEv := some (ss₁.ctime + srv.channelLifetime) }).get c').map
      (fun chn => (chn.chnum, chn.port, chn.peerAddr, chn.owner)) =
      (ss₁.alloc.chns.get c').map fun chn => (chn.chnum, chn.port, chn.peerAddr, chn.owner) := by
    intro c'
    rw [Slots.get_modify]
    split_ifs with he
    · rw [he]
      cases ss₁.alloc.chns.get c <;> rfl
    · rfl
  have hlinked := hcont.linked.of_timers (b := { ss₁.alloc with
    chns := ss₁.alloc.chns.modify c fun c =>
      { c with lifetimeEv := some (ss₁.ctime + srv.channelLifetime) } }) (fun _ => rfl) hget
  refine ⟨hcont.trans ⟨hlinked, rfl, rfl, rfl⟩, ?_⟩
  rw [← hrelay]
  refine Relay.ext rfl rfl (peerOf_congr hcont.linked hlinked ?_)
  intro c'
  simpa only [Option.map_map, Function.comp_def] using
    congrArg (Option.map fun x : Nat × Nat × IoaAddr × Place => (x.1, x.2.2.1)) (hget c')

/-! ### Requests -/

/-- What holds of the scan as long as there is no error holds when the loop ends. -/
theorem scanAttrs_invariant {f : Scan → Attr → Scan} {I : Scan → Prop} {attrs : List Attr}
    (h0 : I Scan.start) (hstep : ∀ s, ∀ a ∈ attrs, s.err = none → I s → I (f s a)) :
    I (scanAttrs f attrs) := by
  unfold scanAttrs
  generalize Scan.start = s at h0
  induction attrs generalizing s with
  | nil => exact h0
  | cons a attrs ih =>
    rw [List.foldl_cons]
    refine ih (fun s b hb => hstep s b (List.mem_cons_of_mem a hb)) _ ?_
    split_ifs with hstop
    · exact h0
    · rw [not_or, Option.not_isSome_iff_eq_none] at hstop
      exact hstep s a List.mem_cons_self hstop.1 h0

/-- What the scan of a channel bind request has found stands in the request, and the peer has a
port and a relay socket. -/
structure BindFound (ss : Session) (attrs : List Attr) (s : Scan) : Prop where
  number : s.chnum ≠ 0 → .channelNumber s.chnum ∈ attrs
  peer : s.addrFound ≠ 0 → .xorPeerAddress s.peerAddr ∈ attrs
  port : s.err = none → s.addrFound ≠ 0 → addrGetPort s.peerAddr ≠ 0
  socket : s.err = none → s.addrFound ≠ 0 → ss.getRelaySocket s.peerAddr = true

/-- After an error only the places of what was found matter. -/
theorem BindFound.failed {attrs : List Attr} {s : Scan}
    (hnum : s.chnum ≠ 0 → .channelNumber s.chnum ∈ attrs)
    (hpeer : s.addrFound ≠ 0 → .xorPeerAddress s.peerAddr ∈ attrs) (herr : s.err ≠ none) :
    BindFound ss attrs s :=
  ⟨hnum, hpeer, fun h => absurd h herr, fun h => absurd h herr⟩

/-- The scan of a `ChannelBind` request finds what its attributes hold. -/
theorem bindFound_scanChannelBind (attrs : List Attr) :
    BindFound ss attrs (scanAttrs ss.scanChannelBind attrs) := by
  apply scanAttrs_invariant
  · constructor <;> intros <;> contradiction
  · intro s a ha herr hs
    cases a with
    | skipped => exact hs
    | channelNumber chnum =>
      simp only [scanChannelBind]
      split_ifs
      · exact .failed (fun h => absurd rfl h) hs.peer (Option.some_ne_none _)
      · exact .failed (fun h => absurd rfl h) hs.peer (Option.some_ne_none _)
      · exact ⟨fun _ => ha, hs.peer, hs.port, hs.socket⟩
    | xorPeerAddress addr =>
      simp only [scanChannelBind]
      split_ifs with hp hsock hsock
      · exact .failed hs.number (fun _ => ha) (Option.some_ne_none _)
      · exact .failed hs.number (fun _ => ha) (Option.some_ne_none _)
      · exact ⟨hs.number, fun _ => ha, fun _ _ => Nat.pos_iff_ne_zero.mp (Nat.not_lt.mp hp),
          fun _ _ => hsock⟩
      · exact .failed hs.number (fun _ => ha) (Option.some_ne_none _)
    | _ =>
      simp only [scanChannelBind, Scan.unknown]
      split_ifs <;> exact ⟨hs.number, hs.peer, hs.port, hs.socket⟩

/-- A channel bind request that gets as far as the tables: what it names. -/
structure BindAsked (ss : Session) (attrs : List Attr) (n : Nat) (p : IoaAddr) : Prop where
  number : .channelNumber n ∈ attrs
  valid : stunValidChannel n = true
  peer : .xorPeerAddress p ∈ attrs
  port : addrGetPort p ≠ 0
  socket : ss.getRelaySocket p = true

/-- A `ChannelBind` request that is granted asks for the number and for the peer. -/
theorem channelBindAsked_ok {attrs : List Attr} {n : Nat} {p : IoaAddr}
    (h : ss.channelBindAsked attrs = .ok (n, p)) : BindAsked ss attrs n p := by
  have hfound : BindFound ss attrs _ := bindFound_scanChannelBind attrs
  unfold channelBindAsked at h
  split_ifs at h
  generalize scanAttrs ss.scanChannelBind attrs = s at h hfound
  unfold channelBindRequest at h
  rw [ite_eq_iff] at h
  obtain ⟨-, h⟩ | ⟨-, h⟩ := h
  · cases h
  cases herr : s.err with
  | some e =>
    rw [herr] at h
    cases h
  | none =>
    rw [herr] at h
    simp only at h
    split_ifs at h with hbad hchan
    simp only [Except.ok.injEq, Prod.mk.injEq] at h
    obtain ⟨rfl, rfl⟩ := h
    push Not at hbad
    obtain ⟨hnum, -, haddr⟩ := hbad
    exact ⟨hfound.number hnum, by simpa using hchan, hfound.peer haddr,
      hfound.port herr haddr, hfound.socket herr haddr⟩

/-- An address with a port has a family. -/
theorem ne_unspec_of_port {p : IoaAddr} (h : addrGetPort p ≠ 0) : p ≠ .unspec := by
  rintro rfl
  exact h rfl

/-- A step of the relay that leaves the session in order. -/
structure Refines (srv : TurnServer) (ss : Session) (e : Event) (reply : Reply) (out : List Output)
    (ss' : Session) : Prop where
  step : RelayStep srv ss ss.relay e reply out ss'.relay
  linked : ss'.alloc.Linked
  relaySocket : ss'.relaySocket = ss.relaySocket

/-- Binding a number is what the relay binds, or is refused with a code. -/
theorem refines_bindChannel (h : ss.alloc.Linked) {attrs : List Attr} {n : Nat} {p : IoaAddr}
    (hask : ss.channelBindAsked attrs = .ok (n, p)) :
    Refines srv ss (.channelBind attrs) (ss.bindChannel srv n p).1 []
      (ss.bindChannel srv n p).2 := by
  obtain ⟨-, hvalid, -, hport, -⟩ := channelBindAsked_ok hask
  have hspec := ne_unspec_of_port hport
  unfold bindChannel
  cases hf : ss.alloc.getChInfo n with
  | some c =>
    -- the number is in use: its channel has its permission, whose host is that of its peer
    obtain ⟨chn, hc, hn⟩ := h.getChInfo_eq_some.mp hf
    have hpeer : ss.relay.peer n = some chn.peerAddr :=
      h.peerOf_eq_some.mpr ⟨c, chn, hc, hn, rfl⟩
    obtain ⟨q, hq, hhost, -⟩ := h.chan_owner c chn hc
    simp only [hc]
    by_cases he : addrEq p chn.peerAddr = true
    · obtain ⟨rfl, -⟩ := addrEq_iff.mp he
      obtain ⟨ss', hss', hcont, hrelay⟩ := continues_updateChannelLifetime srv h hc
      simp only [he, hq, hhost, (h.chans.valid c chn hc).2.2, Bool.not_true, Bool.false_eq_true,
        if_false, ne_eq, not_true_eq_false, hss']
      refine ⟨?_, hcont.linked, hcont.relaySocket⟩
      rw [hrelay]
      exact .bindAgain hask hpeer
    · simp only [he, Bool.not_false, if_true]
      refine ⟨.bindNumberTaken hask hpeer ?_, h, rfl⟩
      rintro rfl
      exact he (addrEq_self hspec)
  | none =>
    have hfree : ss.relay.peer n = none := by
      show ss.alloc.peerOf n = none
      rw [Allocation.peerOf, hf]
      rfl
    cases hfp : ss.alloc.getChInfoByPeerAddr p with
    | some c =>
      obtain ⟨chn, hc, rfl⟩ := h.getChInfoByPeerAddr_eq_some.mp hfp
      exact ⟨.bindPeerTaken hask hfree (h.peerOf_eq_some.mpr ⟨c, chn, hc, rfl, rfl⟩), h, rfl⟩
    | none =>
      have hnew : ∀ c chn, ss.alloc.chns.get c = some chn → chn.peerAddr ≠ p := by
        intro c chn hc he
        rw [h.getChInfoByPeerAddr_eq_some.mpr ⟨chn, hc, he⟩] at hfp
        cases hfp
      have hpeers : ∀ m, ss.relay.peer m ≠ some p := by
        intro m hm
        obtain ⟨c, chn, hc, -, he⟩ := h.peerOf_eq_some.mp hm
        exact hnew c chn hc he
      by_cases hgood : srv.goodPeerAddr p = true
      · simp only [hgood, Bool.not_true, Bool.false_eq_true, if_false]
        obtain ⟨hlinked, ⟨chn, hc⟩, hhosts, hpeerOf⟩ :=
          h.getNewChInfo hvalid hport (h.peerOf_eq_none.mp hfree) hnew
        obtain ⟨ss', hss', hcont, hrelay⟩ :=
          @continues_updateChannelLifetime srv { ss with alloc := (ss.alloc.getNewChInfo n p).2 }
            hlinked _ _ hc
        simp only [hss']
        refine ⟨?_, hcont.linked, hcont.relaySocket⟩
        rw [hrelay]
        have hafter : Session.relay { ss with alloc := (ss.alloc.getNewChInfo n p).2 } =
            ⟨ss.relay.isOpen, insert (host p) ss.relay.hosts,
              Function.update ss.relay.peer n (some p)⟩ :=
          Relay.ext (ss.alloc.isValid_getNewChInfo n p) hhosts hpeerOf
        rw [hafter]
        exact .bindNew hask hfree hpeers hgood
      · simp only [hgood, Bool.not_false, if_true]
        exact ⟨.bindForbidden hask hfree hpeers (by simpa using hgood), h, rfl⟩

theorem host_host (p : IoaAddr) : host (host p) = host p := by
  cases p <;> rfl

/-- Forgetting the port does not forget the family. -/
theorem host_eq_unspec {p : IoaAddr} : host p = .unspec ↔ p = .unspec := by
  cases p <;> simp [host, addrSetPort]

theorem addrGetPort_host (p : IoaAddr) : addrGetPort (host p) = 0 := by
  cases p <;> rfl

theorem hostsOf_singleton {p : IoaAddr} (h : p ≠ .unspec) : hostsOf [p] = {host p} := by
  ext x
  simp [hostsOf, h, eq_comm]

/-- The hosts of a list are those of its first address and of the others. -/
theorem hostsOf_cons (p : IoaAddr) (ps : List IoaAddr) :
    hostsOf (p :: ps) = hostsOf [p] ∪ hostsOf ps := by
  ext h
  simp [hostsOf]

theorem hosts_permissionFor_host (h : ss.alloc.Linked) (p : IoaAddr) :
    (ss.alloc.permissionFor (host p)).2.hosts = ss.alloc.hosts ∪ hostsOf [p] := by
  by_cases hs : p = .unspec
  · rw [hs]
    refine (Allocation.hosts_permissionFor_unspec h).trans ?_
    simp [hostsOf]
  · refine (Allocation.hosts_permissionFor h (mt host_eq_unspec.mp hs)).trans ?_
    rw [hostsOf_singleton hs, Set.union_comm, ← host, host_host]
    rfl

variable (srv) in
/-- The permission of a host is set up and its timer started; no channel has the port zero. -/
theorem continues_updatePermission (h : ss.alloc.Linked) (p : IoaAddr) :
    ∃ ss', ss.updatePermission srv (host p) = some ss' ∧ Continues ss ss' ∧
      ss'.relay = ⟨ss.relay.isOpen, ss.relay.hosts ∪ hostsOf [p], ss.relay.peer⟩ := by
  obtain ⟨hlinked, -, -⟩ := h.permissionFor (host p)
  have hopen := ss.alloc.isValid_permissionFor (host p)
  have hfirst : Continues ss { ss with alloc := (ss.alloc.permissionFor (host p)).2 } :=
    ⟨hlinked, hopen, rfl, rfl⟩
  have hrelay : Session.relay { ss with alloc := (ss.alloc.permissionFor (host p)).2 } =
      ⟨ss.relay.isOpen, ss.relay.hosts ∪ hostsOf [p], ss.relay.peer⟩ :=
    Relay.ext hopen (hosts_permissionFor_host h p) (Allocation.peerOf_permissionFor h _)
  obtain ⟨hcont, htimer⟩ := continues_updateTurnPermissionLifetime srv hfirst.linked
    (ss.alloc.permissionFor (host p)).1 0
  refine ⟨_, ?_, hfirst.trans hcont, htimer.trans hrelay⟩
  unfold updatePermission
  simp only [hcont.linked.getTurnChannel_portless _ (addrGetPort_host p)]

variable (srv) in
/-- Installing the permissions permits the hosts of all peer addresses. -/
theorem continues_installPermissions (h : ss.alloc.Linked) (reply : Reply) (attrs : List Attr) :
    ∃ ss', ss.installPermissions srv reply attrs = (reply, ss') ∧ Continues ss ss' ∧
      ss'.relay = ⟨ss.relay.isOpen, ss.relay.hosts ∪ hostsOf (peerAddresses attrs),
        ss.relay.peer⟩ := by
  induction attrs generalizing ss with
  | nil => exact ⟨ss, rfl, ⟨h, rfl, rfl, rfl⟩, by simp [hostsOf, peerAddresses]⟩
  | cons a attrs ih =>
    cases a with
    | xorPeerAddress addr =>
      obtain ⟨ss₁, hss₁, hcont₁, hrelay₁⟩ := continues_updatePermission srv h addr
      obtain ⟨ss', hss', hcont', hrelay'⟩ := ih hcont₁.linked
      have hstep : ss.updatePermission srv (addrSetPort 0 addr) = some ss₁ := hss₁
      refine ⟨ss', ?_, hcont₁.trans hcont', ?_⟩
      · simp only [installPermissions, hstep, hss']
      · have hcons : peerAddresses (.xorPeerAddress addr :: attrs) =
            addr :: peerAddresses attrs := rfl
        rw [hrelay', hrelay₁, hcons, hostsOf_cons addr (peerAddresses attrs), Set.union_assoc]
    | _ => exact ih h

/-- A `ChannelBind` request is checked first and granted as a whole. -/
theorem handleTurnChannelBind_eq (attrs : List Attr) : ss.handleTurnChannelBind srv attrs =
    match ss.channelBindAsked attrs with
    | .error reply => (reply, ss)
    | .ok (chnum, peerAddr) => ss.bindChannel srv chnum peerAddr := by
  unfold handleTurnChannelBind channelBindAsked
  split_ifs <;> rfl

/-- A `CreatePermission` request is checked first and granted as a whole. -/
theorem handleTurnCreatePermission_eq (attrs : List Attr) :
    ss.handleTurnCreatePermission srv attrs =
      match ss.createPermissionAsked srv attrs with
      | .error reply => (reply, ss)
      | .ok _ => ss.installPermissions srv .success attrs := by
  simp only [handleTurnCreatePermission, createPermissionAsked]
  generalize scanAttrs (ss.scanCreatePermission srv) attrs = s
  cases s.err <;> split_ifs <;> rfl

/-- A `CreatePermission` request that is granted asks for the peers of its attributes. -/
theorem createPermissionAsked_ok {attrs : List Attr} {ps : List IoaAddr}
    (h : ss.createPermissionAsked srv attrs = .ok ps) : ps = peerAddresses attrs := by
  simp only [createPermissionAsked] at h
  generalize scanAttrs (ss.scanCreatePermission srv) attrs = s at h
  cases he : s.err <;> rw [he] at h <;> split_ifs at h
  exact (Except.ok.inj h).symm

/-- A `CreatePermission` request does what the relay does for it. -/
theorem refines_handleTurnCreatePermission (h : ss.alloc.Linked) (attrs : List Attr) :
    Refines srv ss (.createPermission attrs) (ss.handleTurnCreatePermission srv attrs).1 []
      (ss.handleTurnCreatePermission srv attrs).2 := by
  rw [handleTurnCreatePermission_eq]
  cases hask : ss.createPermissionAsked srv attrs with
  | error reply => exact ⟨.permissionRefused hask, h, rfl⟩
  | ok ps =>
    obtain ⟨ss', hss', hcont, hrelay⟩ := continues_installPermissions srv h .success attrs
    rw [← createPermissionAsked_ok hask] at hrelay
    simp only [hss']
    refine ⟨?_, hcont.linked, hcont.relaySocket⟩
    rw [hrelay]
    exact .permissions hask

/-- A `ChannelBind` request does what the relay does for it. -/
theorem refines_handleTurnChannelBind (h : ss.alloc.Linked) (attrs : List Attr) :
    Refines srv ss (.channelBind attrs) (ss.handleTurnChannelBind srv attrs).1 []
      (ss.handleTurnChannelBind srv attrs).2 := by
  rw [handleTurnChannelBind_eq]
  cases hask : ss.channelBindAsked attrs with
  | error reply => exact ⟨.bindRefused hask, h, rfl⟩
  | ok asked => exact refines_bindChannel h hask

/-! ### Data -/

/-- A `Send` indication is checked first; its data go to a permitted peer. -/
theorem handleTurnSend_eq (recvTtl : Nat) (attrs : List Attr) :
    ss.handleTurnSend srv recvTtl attrs =
      match ss.sendAsked srv recvTtl attrs with
      | .error reply => (reply, [])
      | .ok (p, data) =>
        if (ss.alloc.getPermission p).isSome ∨ srv.serverRelay then (.silent, ss.sendToPeer p data)
        else (.silent, []) := by
  simp only [handleTurnSend, sendAsked]
  generalize scanAttrs (scanSend srv) attrs = s
  cases s.err <;> cases addrAny s.peerAddr <;> cases s.value <;> split_ifs with _ _ _ hpass <;>
    first | rfl | exact (if_pos hpass).symm | exact (if_neg hpass).symm

/-- A `Send` indication does what the relay does for it. -/
theorem refines_handleTurnSend (h : ss.alloc.Linked) (recvTtl : Nat) (attrs : List Attr) :
    Refines srv ss (.send recvTtl attrs) (ss.handleTurnSend srv recvTtl attrs).1
      (ss.handleTurnSend srv recvTtl attrs).2 ss := by
  rw [handleTurnSend_eq]
  cases hask : ss.sendAsked srv recvTtl attrs with
  | error reply => exact ⟨.sendRefused hask, h, rfl⟩
  | ok asked =>
    obtain ⟨p, data⟩ := asked
    have hpass : (ss.alloc.getPermission p).isSome = true ∨ srv.serverRelay = true ↔
        host p ∈ ss.relay.hosts ∨ srv.serverRelay = true := or_congr_left h.mem_hosts.symm
    by_cases hp : host p ∈ ss.relay.hosts ∨ srv.serverRelay = true
    · simp only [if_pos (hpass.mpr hp), sendToPeer]
      split_ifs with hsock
      · exact ⟨.sent hask hp hsock, h, rfl⟩
      · exact ⟨.sendDropped hask (.inr (Bool.eq_false_of_not_eq_true hsock)), h, rfl⟩
    · simp only [if_neg (mt hpass.mp hp)]
      rw [not_or, Bool.not_eq_true] at hp
      exact ⟨.sendDropped hask (.inl hp), h, rfl⟩

/-- Channel data go to the peer that is bound. -/
theorem refines_writeToPeerchannel (h : ss.alloc.Linked) (recvTtl n : Nat) (data : List UInt8) :
    Refines srv ss (.channelData recvTtl n data) .silent (ss.writeToPeerchannel recvTtl n data)
      ss := by
  have hpeer : ss.relay.peer n = ((ss.alloc.getChInfo n).bind ss.alloc.chns.get).map (·.peerAddr) :=
    rfl
  unfold writeToPeerchannel
  split_ifs with hopen
  · cases hf : (ss.alloc.getChInfo n).bind ss.alloc.chns.get with
    | none =>
      rw [hf] at hpeer
      exact ⟨.channelDropped (.inr (.inr fun p hp => by simp [hpeer] at hp)), h, rfl⟩
    | some chn =>
      rw [hf] at hpeer
      simp only [sendToPeer]
      split_ifs with hsock
      · exact ⟨.channelData hopen.1 hopen.2 hpeer hsock, h, rfl⟩
      · refine ⟨.channelDropped (.inr (.inr fun p hp => ?_)), h, rfl⟩
        obtain rfl : chn.peerAddr = p := Option.some.inj (hpeer.symm.trans hp)
        exact Bool.eq_false_of_not_eq_true hsock
  · refine ⟨.channelDropped ?_, h, rfl⟩
    rw [not_and_or, not_not, Bool.not_eq_true] at hopen
    exact hopen.elim .inl fun hclosed => .inr (.inl hclosed)

/-- The channel number of a peer, found through its permission. -/
theorem getTurnChannelNumber_eq (h : ss.alloc.Linked) {t : Place} {p : IoaAddr}
    (ht : ss.alloc.getPermission p = some t) :
    (ss.getTurnChannelNumber t p ≠ 0 → ss.relay.peer (ss.getTurnChannelNumber t p) = some p) ∧
      (ss.getTurnChannelNumber t p = 0 → ∀ n, ss.relay.peer n ≠ some p) := by
  obtain ⟨q, hq, he⟩ := h.getPermission_eq_some.mp ht
  unfold getTurnChannelNumber
  cases hf : ss.alloc.getTurnChannel t p with
  | none =>
    refine ⟨fun hne => absurd rfl hne, fun _ n hn => ?_⟩
    obtain ⟨c, chn, hc, -, hp⟩ := h.peerOf_eq_some.mp hn
    rw [(h.getTurnChannel_eq_some hq he).mpr ⟨chn, hc, hp⟩] at hf
    cases hf
  | some c =>
    obtain ⟨chn, hc, hp⟩ := (h.getTurnChannel_eq_some hq he).mp hf
    simp only [Option.bind_some, hc]
    refine ⟨fun _ => h.peerOf_eq_some.mpr ⟨c, chn, hc, rfl, hp⟩, fun hzero => ?_⟩
    have hvalid := (h.chans.valid c chn hc).1
    rw [hzero] at hvalid
    cases hvalid

/-- Data of a peer go to the client on the bound channel, in an indication, or nowhere. -/
theorem refines_peerInputHandler (h : ss.alloc.Linked) (recvTtl : Nat) (p : IoaAddr)
    (data : List UInt8) :
    Refines srv ss (.peerData recvTtl p data) .silent (ss.peerInputHandler srv recvTtl p data)
      ss := by
  have hmem : host p ∈ ss.relay.hosts ↔ _ := h.mem_hosts
  unfold peerInputHandler
  by_cases hclosed : recvTtl = 0 ∨ !ss.getRelaySocket p ∨ !ss.alloc.isValid
  · rw [if_pos hclosed]
    refine ⟨.peerDropped ?_, h, rfl⟩
    simp only [Bool.not_eq_true'] at hclosed
    obtain h0 | hs | hv := hclosed
    · exact .inl h0
    · exact .inr (.inl hs)
    · exact .inr (.inr (.inl hv))
  · rw [if_neg hclosed]
    simp only [not_or, Bool.not_eq_true', Bool.not_eq_false] at hclosed
    obtain ⟨httl, hsock, hopen⟩ := hclosed
    cases hf : ss.alloc.getPermission p with
    | some t =>
      obtain ⟨hbound, hfree⟩ := getTurnChannelNumber_eq h hf
      have hin : host p ∈ ss.relay.hosts := hmem.mpr (by rw [hf]; rfl)
      simp only
      split_ifs with hn
      · exact ⟨.peerChannel httl hsock hopen hin (hbound hn), h, rfl⟩
      · exact ⟨.peerIndication httl hsock hopen (.inl hin) (hfree (not_not.mp hn)), h, rfl⟩
    | none =>
      have hout : host p ∉ ss.relay.hosts := by
        rw [hmem, hf]
        exact Bool.false_ne_true
      simp only
      split_ifs with hrelay
      · exact ⟨.peerIndication httl hsock hopen (.inr hrelay)
          fun n hn => hout (h.host_of_peerOf hn), h, rfl⟩
      · exact ⟨.peerDropped (.inr (.inr (.inr ⟨hout, by simpa using hrelay⟩))), h, rfl⟩

/-! ### Timers -/

/-- A channel that runs out is unbound. -/
theorem refines_channelTimeout (h : ss.alloc.Linked) (c : Place) :
    Refines srv ss (.channelTimeout c) .silent []
      { ss with alloc := ss.alloc.turnChannelDelete c } := by
  refine ⟨?_, h.turnChannelDelete c, rfl⟩
  cases hc : ss.alloc.chns.get c with
  | none =>
    have hsame : ss.alloc.turnChannelDelete c = ss.alloc := by
      rw [Allocation.turnChannelDelete, hc]
    rw [hsame]
    exact .noChannel
  | some chn =>
    have hafter : Session.relay { ss with alloc := ss.alloc.turnChannelDelete c } =
        ⟨ss.relay.isOpen, ss.relay.hosts, Function.update ss.relay.peer chn.chnum none⟩ := by
      refine Relay.ext ?_ (Allocation.hosts_turnChannelDelete c) ?_
      · show (ss.alloc.turnChannelDelete c).isValid = _
        rw [Allocation.turnChannelDelete, hc]
        rfl
      · funext n
        exact (h.peerOf_turnChannelDelete hc n).trans (Function.update_apply _ _ _ _).symm
    rw [hafter]
    exact .channelGone (h.peerOf_eq_some.mpr ⟨c, chn, hc, rfl, rfl⟩)

/-- Neither a permitted host nor that of a bound peer is `unspec`. -/
theorem relay_without_unspec (h : ss.alloc.Linked) :
    (⟨ss.relay.isOpen, ss.relay.hosts \ {.unspec},
      fun n => (ss.relay.peer n).filter fun peer => host peer ≠ .unspec⟩ : Relay) = ss.relay := by
  have hnot : IoaAddr.unspec ∉ ss.relay.hosts := by
    rintro ⟨t, p, -, hs, he⟩
    exact hs (host_eq_unspec.mp he)
  have hkeep : ∀ n, ((ss.relay.peer n).filter fun peer => host peer ≠ .unspec) =
      ss.relay.peer n := by
    intro n
    cases hn : ss.relay.peer n with
    | none => rfl
    | some peer =>
      have hpeer : host peer ≠ .unspec := fun he => hnot (he ▸ h.host_of_peerOf hn)
      simp [hpeer]
  exact Relay.ext rfl (Set.sdiff_singleton_eq_self hnot) (funext hkeep)

/-- A permission that runs out takes its channels with it. -/
theorem refines_permTimeout (h : ss.alloc.Linked) (t : Place) :
    Refines srv ss (.permTimeout t) .silent []
      { ss with alloc := ss.alloc.turnPermissionClean t } := by
  refine ⟨?_, h.turnPermissionClean t, rfl⟩
  cases hp : ss.alloc.addrToPerm.get t with
  | none =>
    have hsame : ss.alloc.turnPermissionClean t = ss.alloc := by
      rw [Allocation.turnPermissionClean, hp]
    rw [hsame]
    exact .noPerm
  | some p =>
    obtain ⟨hhosts, hpeers⟩ := h.views_turnPermissionClean hp
    have hafter : Session.relay { ss with alloc := ss.alloc.turnPermissionClean t } =
        ⟨ss.relay.isOpen, ss.relay.hosts \ {host p.addr},
          fun n => (ss.relay.peer n).filter fun peer => host peer ≠ host p.addr⟩ := by
      refine Relay.ext ?_ hhosts (funext hpeers)
      show (ss.alloc.turnPermissionClean t).isValid = _
      rw [Allocation.turnPermissionClean, hp]
      rfl
    rw [hafter]
    by_cases hs : p.addr = .unspec
    · -- the permission of an address that did not decode permits no host
      rw [host_eq_unspec.mpr hs, relay_without_unspec h]
      exact .noPerm
    · exact .permGone ⟨t, p, hp, hs, rfl⟩

variable (srv) in
/-- **Every step of a session is one of the relay.** -/
theorem refines_step (h : ss.alloc.Linked) (e : Event) :
    Refines srv ss e (ss.reply srv e) (ss.relayed srv e) (ss.step srv e) := by
  cases e with
  | channelBind attrs => exact refines_handleTurnChannelBind h attrs
  | createPermission attrs => exact refines_handleTurnCreatePermission h attrs
  | send recvTtl attrs => exact refines_handleTurnSend h recvTtl attrs
  | channelData recvTtl n data => exact refines_writeToPeerchannel h recvTtl n data
  | peerData recvTtl p data => exact refines_peerInputHandler h recvTtl p data
  | channelTimeout c => exact refines_channelTimeout h c
  | permTimeout t => exact refines_permTimeout h t
  | tick now => exact ⟨.tick, h, rfl⟩
  | clear =>
    have hafter : (ss.step srv .clear).relay = ⟨false, ∅, fun _ => none⟩ :=
      Relay.ext rfl Allocation.hosts_init Allocation.peerOf_init
    refine ⟨?_, Allocation.linked_init, rfl⟩
    rw [hafter]
    exact .cleared

end Session

end WebrtcCaller.Turn
