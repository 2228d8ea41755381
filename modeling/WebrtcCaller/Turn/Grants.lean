import Mathlib
import WebrtcCaller.Core.Run
import WebrtcCaller.Turn.Relay

/-!
# What a session lets through

A relay must not become an open proxy: it carries data between its client and the hosts the client
was granted, and no others. Over every run of a session, what is relayed is traced back to the
request that granted it, channels carry data both ways or not at all, and the internal errors of the
handlers are never answered.
-/

namespace WebrtcCaller.Turn.Session

variable {srv : TurnServer} {ss : Session}

/-! ### What a permission request has said -/

/-- The last attribute is looked at unless an error or too many unknown ones came before. -/
theorem scanAttrs_snoc (f : Scan → Attr → Scan) (attrs : List Attr) (a : Attr) :
    scanAttrs f (attrs ++ [a]) =
      if (scanAttrs f attrs).err.isSome ∨
          maxNumberOfUnknownAttrs ≤ (scanAttrs f attrs).unknownAttrs.length
      then scanAttrs f attrs else f (scanAttrs f attrs) a := by
  unfold scanAttrs
  rw [List.foldl_append]
  rfl

/-- The addresses of the last attribute come last. -/
theorem peerAddresses_snoc (attrs : List Attr) (a : Attr) :
    peerAddresses (attrs ++ [a]) = peerAddresses attrs ++ peerAddresses [a] :=
  List.filterMap_append

theorem mem_peerAddresses {attrs : List Attr} {p : IoaAddr} :
    p ∈ peerAddresses attrs ↔ .xorPeerAddress p ∈ attrs := by
  unfold peerAddresses
  rw [List.mem_filterMap]
  constructor
  · rintro ⟨a, ha, hp⟩
    cases a <;> cases hp
    exact ha
  · intro hp
    exact ⟨_, hp, rfl⟩

/-- A scan that ends without an error and without an unknown attribute has checked every address. -/
theorem checked_scanCreatePermission (attrs : List Attr)
    (herr : (scanAttrs (ss.scanCreatePermission srv) attrs).err = none)
    (hunknown : (scanAttrs (ss.scanCreatePermission srv) attrs).unknownAttrs = []) :
    ∀ p ∈ peerAddresses attrs, srv.goodPeerAddr p = true := by
  induction attrs using List.reverseRecOn with
  | nil =>
    intro p hp
    cases hp
  | append_singleton attrs a ih =>
    rw [scanAttrs_snoc] at herr hunknown
    generalize scanAttrs (ss.scanCreatePermission srv) attrs = s at ih herr hunknown
    split_ifs at herr hunknown with hstop
    · -- the loop had stopped before: at an error, or at an unknown attribute
      rw [herr, hunknown] at hstop
      simp [maxNumberOfUnknownAttrs] at hstop
    · rw [peerAddresses_snoc]
      cases a with
      | xorPeerAddress addr =>
        simp only [scanCreatePermission] at herr hunknown
        split_ifs at herr hunknown with hsock hgood
        intro p hp
        obtain hp | hp := List.mem_append.mp hp
        · exact ih herr hunknown p hp
        · obtain rfl := List.mem_singleton.mp hp
          simpa using hgood
      | skipped => simpa [peerAddresses] using ih herr hunknown
      | _ =>
        simp only [scanCreatePermission, Scan.unknown] at herr hunknown
        split_ifs at herr hunknown
        · simp at hunknown
        · simpa [peerAddresses] using ih herr hunknown

/-- A permission that was asked for is for a peer that is allowed. -/
theorem createPermissionAsked_checked {attrs : List Attr} {ps : List IoaAddr}
    (h : ss.createPermissionAsked srv attrs = .ok ps) {p : IoaAddr} (hp : p ∈ ps) :
    .xorPeerAddress p ∈ attrs ∧ srv.goodPeerAddr p = true := by
  obtain rfl := createPermissionAsked_ok h
  have hchecked := @checked_scanCreatePermission srv ss attrs
  refine ⟨mem_peerAddresses.mp hp, hchecked ?_ ?_ p hp⟩
  · simp only [createPermissionAsked] at h
    cases herr : (scanAttrs (ss.scanCreatePermission srv) attrs).err with
    | none => rfl
    | some e =>
      rw [herr] at h
      split_ifs at h
  · simp only [createPermissionAsked] at h
    by_contra hunknown
    rw [if_pos hunknown] at h
    split_ifs at h

/-! ### Grants -/

/-- The request names the address. -/
def Event.names (e : Event) (p : IoaAddr) : Prop :=
  match e with
  | .channelBind attrs => .xorPeerAddress p ∈ attrs
  | .createPermission attrs => .xorPeerAddress p ∈ attrs
  | _ => False

/-- The request names the channel number and the peer. -/
def Event.binds (e : Event) (n : Nat) (p : IoaAddr) : Prop :=
  match e with
  | .channelBind attrs => .channelNumber n ∈ attrs ∧ .xorPeerAddress p ∈ attrs
  | _ => False

/-- A request for an address of the host, which the server has found good and has accepted. -/
def Grants (srv : TurnServer) (h : IoaAddr) (ss : Session) (e : Event) : Prop :=
  ss.reply srv e = .success ∧ ∃ p, e.names p ∧ host p = h ∧ srv.goodPeerAddr p = true

/-- A request for the channel, which the server has found good and has accepted. -/
def GrantsChannel (srv : TurnServer) (n : Nat) (p : IoaAddr) (ss : Session) (e : Event) : Prop :=
  ss.reply srv e = .success ∧ e.binds n p ∧ srv.goodPeerAddr p = true

/-- A host that becomes permitted has just been granted. -/
theorem grants_of_step {r r' : Relay} {e : Event} {out : List Output} {h : IoaAddr}
    (hstep : RelayStep srv ss r e (ss.reply srv e) out r') (hold : h ∉ r.hosts)
    (hnew : h ∈ r'.hosts) : Grants srv h ss e := by
  unfold Grants
  generalize ss.reply srv e = reply at hstep
  cases hstep with
  | bindNew hask _ _ hgood =>
    obtain rfl := hnew.resolve_right hold
    exact ⟨rfl, _, (channelBindAsked_ok hask).peer, rfl, hgood⟩
  | permissions hask =>
    obtain ⟨p, hp, -, rfl⟩ := hnew.resolve_left hold
    obtain ⟨hnamed, hgood⟩ := createPermissionAsked_checked hask hp
    exact ⟨rfl, p, hnamed, rfl, hgood⟩
  | permGone _ => exact absurd hnew.1 hold
  | cleared => exact hnew.elim
  | _ => exact absurd hnew hold

/-- A channel becomes bound to a peer by a request for both that is accepted. -/
theorem bound_by_step {r r' : Relay} {e : Event} {reply : Reply} {out : List Output} {n : Nat}
    {p : IoaAddr} (hstep : RelayStep srv ss r e reply out r') (hold : r.peer n ≠ some p)
    (hnew : r'.peer n = some p) :
    reply = .success ∧ srv.goodPeerAddr p = true ∧
      ∃ attrs, e = .channelBind attrs ∧ ss.channelBindAsked attrs = .ok (n, p) := by
  cases hstep with
  | @bindNew attrs m q hask _ _ hgood =>
    change Function.update r.peer m (some q) n = some p at hnew
    rw [Function.update_apply] at hnew
    split_ifs at hnew with hn
    · obtain rfl := Option.some.inj hnew
      exact ⟨rfl, hgood, attrs, rfl, hn ▸ hask⟩
    · exact absurd hnew hold
  | @channelGone c m q _ =>
    change Function.update r.peer m none n = some p at hnew
    rw [Function.update_apply] at hnew
    split_ifs at hnew
    exact absurd hnew hold
  | permGone _ => exact absurd (Option.filter_eq_some_iff.mp hnew).1 hold
  | cleared => cases hnew
  | _ => exact absurd hnew hold

/-- A number is bound to a peer by a `ChannelBind` request for both, and by nothing else. -/
theorem grantsChannel_of_step {r r' : Relay} {e : Event} {out : List Output} {n : Nat}
    {p : IoaAddr} (hstep : RelayStep srv ss r e (ss.reply srv e) out r')
    (hold : r.peer n ≠ some p) (hnew : r'.peer n = some p) : GrantsChannel srv n p ss e := by
  obtain ⟨hreply, hgood, attrs, rfl, hask⟩ := bound_by_step hstep hold hnew
  have hasked := channelBindAsked_ok hask
  exact ⟨hreply, ⟨hasked.number, hasked.peer⟩, hgood⟩

/-! ### Bindings -/

/-- Every bound peer can be reached through a relay socket. -/
def Reached (ss : Session) : Prop := ∀ n p, ss.relay.peer n = some p → ss.getRelaySocket p = true

/-- Every event keeps the bound peers within reach. -/
theorem reached_step (hl : ss.alloc.Linked) (h : Reached ss) (e : Event) :
    Reached (ss.step srv e) := by
  have href := refines_step srv hl e
  have hsock : ∀ p, (ss.step srv e).getRelaySocket p = ss.getRelaySocket p := by
    intro p
    unfold getRelaySocket
    rw [href.relaySocket]
  intro n p hp
  rw [hsock]
  by_cases hold : ss.relay.peer n = some p
  · exact h n p hold
  · obtain ⟨-, -, attrs, -, hask⟩ := bound_by_step href.step hold hp
    exact (channelBindAsked_ok hask).socket

/-- A peer is bound to one channel at most. -/
theorem peer_inj (hl : ss.alloc.Linked) {n m : Nat} {p : IoaAddr} (hn : ss.relay.peer n = some p)
    (hm : ss.relay.peer m = some p) : n = m := by
  obtain ⟨c, chn, hc, rfl, rfl⟩ := hl.peerOf_eq_some.mp hn
  obtain ⟨c', chn', hc', rfl, he⟩ := hl.peerOf_eq_some.mp hm
  obtain rfl := hl.peer_unique hc hc' he.symm
  rw [hc] at hc'
  rw [Option.some.inj hc']

/-- Data for a channel reaches the peer it is bound to. -/
theorem toPeer_mem_channelData (hl : ss.alloc.Linked) (hr : Reached ss) {recvTtl n : Nat}
    {p : IoaAddr} {data : List UInt8} (httl : recvTtl ≠ 0) :
    .toPeer p data ∈ ss.relayed srv (.channelData recvTtl n data) ↔
      ss.relay.isOpen = true ∧ ss.relay.peer n = some p := by
  have hstep := (refines_step srv hl (.channelData recvTtl n data)).step
  generalize ss.relayed srv (.channelData recvTtl n data) = out at hstep
  generalize ss.reply srv (.channelData recvTtl n data) = reply at hstep
  generalize (ss.step srv (.channelData recvTtl n data)).relay = r at hstep
  cases hstep with
  | channelData _ hopen hp => simp [hopen, hp, eq_comm]
  | channelDropped hdrop =>
    simp only [List.not_mem_nil, false_iff, not_and]
    intro hopen hn
    obtain h0 | hclosed | hsock := hdrop
    · exact httl h0
    · rw [hopen] at hclosed
      cases hclosed
    · have hreach := hr n p hn
      rw [hsock p hn] at hreach
      cases hreach

/-- Data from a peer comes through the channel it is bound to. -/
theorem toClientChannel_mem_peerData (hl : ss.alloc.Linked) (hr : Reached ss) {recvTtl n : Nat}
    {p : IoaAddr} {data : List UInt8} (httl : recvTtl ≠ 0) :
    .toClientChannel n (peerDataKept data) ∈ ss.relayed srv (.peerData recvTtl p data) ↔
      ss.relay.isOpen = true ∧ ss.relay.peer n = some p := by
  have hstep := (refines_step srv hl (.peerData recvTtl p data)).step
  generalize ss.relayed srv (.peerData recvTtl p data) = out at hstep
  generalize ss.reply srv (.peerData recvTtl p data) = reply at hstep
  generalize (ss.step srv (.peerData recvTtl p data)).relay = r at hstep
  cases hstep with
  | @peerChannel _ m _ _ _ _ hopen _ hm =>
    simp only [List.mem_singleton, Output.toClientChannel.injEq, and_true, hopen, true_and]
    constructor
    · rintro rfl
      exact hm
    · intro hn
      exact peer_inj hl hn hm
  | peerIndication _ _ _ _ hfree => simp [hfree n]
  | peerDropped hdrop =>
    simp only [List.not_mem_nil, false_iff, not_and]
    intro hopen hn
    obtain h0 | hsock | hclosed | ⟨hhost, -⟩ := hdrop
    · exact httl h0
    · rw [hr n p hn] at hsock
      cases hsock
    · rw [hopen] at hclosed
      cases hclosed
    · exact hhost (hl.host_of_peerOf hn)

/-! ### Answers -/

/-- Not the answer to an internal error. -/
def External (reply : Reply) : Prop := ∀ reason, reply ≠ .error 500 reason

/-- Any code but 500 may reach the client. -/
theorem External.error {code : Nat} (h : code ≠ 500) (reason : Option String) :
    External (.error code reason) := by
  intro reason' he
  cases he
  exact h rfl

theorem External.silent : External .silent := by
  intro reason he
  cases he

/-- A scan that has found no internal error. -/
def ExternalScan (s : Scan) : Prop := ∀ code reason, s.err = some (code, reason) → code ≠ 500

/-- An error the scan has found is none of the server's own. -/
theorem ExternalScan.of_some {s : Scan} {code : Nat} {reason : String} (hcode : code ≠ 500)
    (herr : s.err = some (code, reason)) : ExternalScan s := by
  intro code' reason' herr'
  rw [herr] at herr'
  cases herr'
  exact hcode

/-- A scan in which every attribute leaves the error alone, or sets one that is not internal. -/
theorem externalScan_scanAttrs {f : Scan → Attr → Scan}
    (hf : ∀ s a, (f s a).err = s.err ∨ ExternalScan (f s a)) (attrs : List Attr) :
    ExternalScan (scanAttrs f attrs) := by
  apply scanAttrs_invariant
  · intro code reason h
    cases h
  · intro s a _ herr _
    obtain hsame | hext := hf s a
    · intro code reason h
      rw [hsame, herr] at h
      cases h
    · exact hext

/-- A refused `ChannelBind` is no error of the server's own. -/
theorem external_channelBindAsked {attrs : List Attr} {reply : Reply}
    (h : ss.channelBindAsked attrs = .error reply) : External reply := by
  have hscan : ExternalScan (scanAttrs ss.scanChannelBind attrs) := by
    apply externalScan_scanAttrs
    intro s a
    cases a with
    | skipped => exact .inl rfl
    | _ =>
      simp only [scanChannelBind, Scan.unknown]
      split_ifs <;> first | exact .inl rfl | exact .inr (.of_some (by decide) rfl)
  unfold channelBindAsked channelBindRequest at h
  generalize scanAttrs ss.scanChannelBind attrs = s at h hscan
  cases herr : s.err with
  | none =>
    rw [herr] at h
    split_ifs at h <;> cases h <;> first | exact .error (by decide) _ | exact .silent
  | some e =>
    rw [herr] at h
    split_ifs at h <;> cases h <;>
      first | exact .error (by decide) _ | exact .silent | exact .error (hscan _ _ herr) _

/-- A refused `CreatePermission` is none. -/
theorem external_createPermissionAsked {attrs : List Attr} {reply : Reply}
    (h : ss.createPermissionAsked srv attrs = .error reply) : External reply := by
  have hscan : ExternalScan (scanAttrs (ss.scanCreatePermission srv) attrs) := by
    apply externalScan_scanAttrs
    intro s a
    cases a with
    | skipped => exact .inl rfl
    | _ =>
      simp only [scanCreatePermission, Scan.unknown]
      split_ifs <;> first | exact .inl rfl | exact .inr (.of_some (by decide) rfl)
  simp only [createPermissionAsked] at h
  generalize scanAttrs (ss.scanCreatePermission srv) attrs = s at h hscan
  cases herr : s.err with
  | none =>
    rw [herr] at h
    split_ifs at h <;> cases h <;> first | exact .error (by decide) _ | exact .silent
  | some e =>
    rw [herr] at h
    split_ifs at h <;> cases h <;>
      first | exact .error (by decide) _ | exact .silent | exact .error (hscan _ _ herr) _

/-- A refused `Send` is none. -/
theorem external_sendAsked {recvTtl : Nat} {attrs : List Attr} {reply : Reply}
    (h : ss.sendAsked srv recvTtl attrs = .error reply) : External reply := by
  have hscan : ExternalScan (scanAttrs (scanSend srv) attrs) := by
    apply externalScan_scanAttrs
    intro s a
    cases a with
    | skipped => exact .inl rfl
    | _ =>
      simp only [scanSend, Scan.unknown]
      split_ifs <;> first | exact .inl rfl | exact .inr (.of_some (by decide) rfl)
  simp only [sendAsked] at h
  generalize scanAttrs (scanSend srv) attrs = s at h hscan
  cases herr : s.err with
  | none =>
    cases hany : addrAny s.peerAddr <;> cases hvalue : s.value <;>
      rw [herr, hany, hvalue] at h <;> split_ifs at h <;> cases h <;>
      first | exact .error (by decide) _ | exact .silent
  | some e =>
    rw [herr] at h
    split_ifs at h <;> cases h <;>
      first | exact .error (by decide) _ | exact .silent | exact .error (hscan _ _ herr) _

/-- No step of the relay answers with an error of the server's own. -/
theorem external_of_relayStep {r r' : Relay} {e : Event} {reply : Reply} {out : List Output}
    (hstep : RelayStep srv ss r e reply out r') : External reply := by
  cases hstep with
  | bindRefused hask => exact external_channelBindAsked hask
  | permissionRefused hask => exact external_createPermissionAsked hask
  | sendRefused hask => exact external_sendAsked hask
  | bindNumberTaken => exact .error (by decide) _
  | bindPeerTaken => exact .error (by decide) _
  | bindForbidden => exact .error (by decide) _
  | _ =>
    intro reason he
    cases he

/-- A server that relays for no host without a permission. -/
def strict : TurnServer where
  permissionLifetime := 300
  channelLifetime := 600
  serverRelay := false
  dontFragment := true
  goodPeerAddr := fun _ => true

section Runs

variable (srv) (isTcpRelay : Bool) (relaySocket : Family → Bool) (ctime : Nat)

/-- The host has been permitted ever since a request for it was granted. -/
def PermittedSince (h : IoaAddr) (es : List Event) : Prop :=
  HeldSince (step srv) (Grants srv h) (fun ss => h ∈ ss.relay.hosts)
    (fresh isTcpRelay relaySocket ctime) es

/-- The channel has been bound to the peer ever since a request for it was granted. -/
def BoundSince (n : Nat) (p : IoaAddr) (es : List Event) : Prop :=
  HeldSince (step srv) (GrantsChannel srv n p) (fun ss => ss.relay.peer n = some p)
    (fresh isTcpRelay relaySocket ctime) es

/-- The tables of a fresh session are linked. -/
theorem linked_fresh : (fresh isTcpRelay relaySocket ctime).alloc.Linked := by
  have h := Allocation.linked_init
  exact ⟨h.perms, h.chans, h.proper, h.perm_chan, h.chan_owner⟩

/-- A fresh session permits nobody and binds nothing. -/
theorem relay_fresh : (fresh isTcpRelay relaySocket ctime).relay = ⟨true, ∅, fun _ => none⟩ :=
  Relay.ext rfl Allocation.hosts_init Allocation.peerOf_init

/-- The tables stay linked throughout a run. -/
theorem linked_run (es : List Event) :
    Throughout (step srv) (fun ss => ss.alloc.Linked) (fresh isTcpRelay relaySocket ctime) es :=
  throughout_of_kept (I := fun ss : Session => ss.alloc.Linked)
    (fun _ e h => (refines_step srv h e).linked) (linked_fresh isTcpRelay relaySocket ctime) es

/-- **Refinement.** Every step of every run of a session is one of the relay: the same answer, the
same data relayed, and the hosts and bindings the relay has afterwards. -/
theorem run_refines_relay (es : List Event) :
    Along (step srv) (fun ss e =>
      RelayStep srv ss ss.relay e (ss.reply srv e) (ss.relayed srv e) (ss.step srv e).relay)
      (fresh isTcpRelay relaySocket ctime) es :=
  (linked_run srv isTcpRelay relaySocket ctime es).along_all
    fun _ e h => (refines_step srv h e).step

theorem linked_after (es : List Event) :
    (es.foldl (step srv) (fresh isTcpRelay relaySocket ctime)).alloc.Linked :=
  (linked_run srv isTcpRelay relaySocket ctime es).last

/-- **No internal errors.** The answers with code 500, for tables that do not fit together, are
never given: every one of their branches is dead. -/
theorem never_internal (es : List Event) :
    Along (step srv) (fun ss e => External (ss.reply srv e))
      (fresh isTcpRelay relaySocket ctime) es :=
  (linked_run srv isTcpRelay relaySocket ctime es).along_all
    fun _ e h => external_of_relayStep (refines_step srv h e).step

/-- A host that is permitted has been since a request for it. -/
theorem permittedSince_of_mem {es : List Event} {h : IoaAddr}
    (hh : h ∈ (es.foldl (step srv) (fresh isTcpRelay relaySocket ctime)).relay.hosts) :
    PermittedSince srv isTcpRelay relaySocket ctime h es := by
  have hstep : ∀ ss e, ss.alloc.Linked → h ∉ ss.relay.hosts → h ∈ (ss.step srv e).relay.hosts →
      Grants srv h ss e :=
    fun ss e hl hold hnew => grants_of_step (refines_step srv hl e).step hold hnew
  refine (throughout_or_heldSince (fun ss e hl => (refines_step srv hl e).linked) hstep
    (linked_fresh isTcpRelay relaySocket ctime) hh).resolve_left fun hall => ?_
  have hstart : h ∈ (fresh isTcpRelay relaySocket ctime).relay.hosts := hall.head
  rw [relay_fresh] at hstart
  exact hstart

/-- A bound number has been bound since a request for it. -/
theorem boundSince_of_peer {es : List Event} {n : Nat} {p : IoaAddr}
    (hp : (es.foldl (step srv) (fresh isTcpRelay relaySocket ctime)).relay.peer n = some p) :
    BoundSince srv isTcpRelay relaySocket ctime n p es := by
  have hstep : ∀ ss e, ss.alloc.Linked → ¬ ss.relay.peer n = some p →
      (ss.step srv e).relay.peer n = some p → GrantsChannel srv n p ss e :=
    fun ss e hl hold hnew => grantsChannel_of_step (refines_step srv hl e).step hold hnew
  refine (throughout_or_heldSince (fun ss e hl => (refines_step srv hl e).linked) hstep
    (linked_fresh isTcpRelay relaySocket ctime) hp).resolve_left fun hall => ?_
  have hstart : (fresh isTcpRelay relaySocket ctime).relay.peer n = some p := hall.head
  rw [relay_fresh] at hstart
  cases hstart

/-- After a run every bound peer has a relay socket. -/
theorem reached_after (es : List Event) :
    Reached (es.foldl (step srv) (fresh isTcpRelay relaySocket ctime)) := by
  have hstart : Reached (fresh isTcpRelay relaySocket ctime) := by
    intro n p hp
    rw [relay_fresh] at hp
    cases hp
  have hkept : ∀ ss e, ss.alloc.Linked ∧ Reached ss →
      (ss.step srv e).alloc.Linked ∧ Reached (ss.step srv e) :=
    fun _ e ⟨hl, hr⟩ => ⟨(refines_step srv hl e).linked, reached_step hl hr e⟩
  exact (throughout_of_kept hkept ⟨linked_fresh isTcpRelay relaySocket ctime, hstart⟩ es).last.2

/-- **Channels work both ways.** After every run, what the client sends into a channel reaches a
peer exactly when what that peer sends reaches the client through the channel, as much of it as is
kept. -/
theorem channel_both_ways (es : List Event) (recvTtl recvTtl' : Nat) (httl : recvTtl ≠ 0)
    (httl' : recvTtl' ≠ 0) (n : Nat) (p : IoaAddr) (data data' : List UInt8) :
    .toPeer p data ∈ (es.foldl (step srv) (fresh isTcpRelay relaySocket ctime)).relayed srv
        (.channelData recvTtl n data) ↔
      .toClientChannel n (peerDataKept data') ∈ (es.foldl (step srv)
        (fresh isTcpRelay relaySocket ctime)).relayed srv (.peerData recvTtl' p data') := by
  have hl := linked_after srv isTcpRelay relaySocket ctime es
  have hr := reached_after srv isTcpRelay relaySocket ctime es
  rw [toPeer_mem_channelData hl hr httl, toClientChannel_mem_peerData hl hr httl']

/-- A channel is bound, and what its peer sends comes back through it. -/
theorem channel_both_ways_bound :
    .toClientChannel 0x4000 [7] ∈ ([.channelBind [.channelNumber 0x4000,
      .xorPeerAddress (.inet 0x0A000001 80)]].foldl (step strict)
        (fresh false (fun _ => true) 0)).relayed strict
          (.peerData 64 (.inet 0x0A000001 80) [7]) := by
  apply (channel_both_ways strict false (fun _ => true) 0 _ 64 64 (by decide) (by decide)
    0x4000 (.inet 0x0A000001 80) [1] [7]).mp
  exact List.Mem.head _

/-- What may be relayed at an event, after the run so far. -/
inductive Authorised (es : List Event) : Event → Output → Prop
  | send {recvTtl : Nat} {attrs : List Attr} {p : IoaAddr} {data : List UInt8} :
      PermittedSince srv isTcpRelay relaySocket ctime (host p) es →
      Authorised es (.send recvTtl attrs) (.toPeer p data)
  | channelData {recvTtl n : Nat} {p : IoaAddr} {data : List UInt8} :
      PermittedSince srv isTcpRelay relaySocket ctime (host p) es →
      BoundSince srv isTcpRelay relaySocket ctime n p es →
      Authorised es (.channelData recvTtl n data) (.toPeer p data)
  | peerChannel {recvTtl n : Nat} {p : IoaAddr} {data : List UInt8} :
      PermittedSince srv isTcpRelay relaySocket ctime (host p) es →
      BoundSince srv isTcpRelay relaySocket ctime n p es →
      Authorised es (.peerData recvTtl p data) (.toClientChannel n (peerDataKept data))
  | peerIndication {recvTtl : Nat} {p : IoaAddr} {data : List UInt8} :
      PermittedSince srv isTcpRelay relaySocket ctime (host p) es →
      Authorised es (.peerData recvTtl p data) (.toClientData p (peerDataKept data))

/-- **No open relay.** Whatever is relayed after a run, in either direction, goes to or comes from a
host that has been permitted ever since a request for a good address of it was accepted; and what
passes through a channel goes to or comes from the peer the channel has been bound to ever since
such a request. -/
theorem relayed_authorised (hrelay : srv.serverRelay = false) (es : List Event) (e : Event) :
    ∀ o ∈ (es.foldl (step srv) (fresh isTcpRelay relaySocket ctime)).relayed srv e,
      Authorised srv isTcpRelay relaySocket ctime es e o := by
  have hpermitted := @permittedSince_of_mem srv isTcpRelay relaySocket ctime es
  have hbound := @boundSince_of_peer srv isTcpRelay relaySocket ctime es
  have hl := linked_after srv isTcpRelay relaySocket ctime es
  have hstep := (refines_step srv hl e).step
  generalize es.foldl (step srv) (fresh isTcpRelay relaySocket ctime) = ss
    at hl hstep hpermitted hbound
  intro o ho
  generalize ss.relayed srv e = out at hstep ho
  generalize ss.reply srv e = reply at hstep
  generalize (ss.step srv e).relay = r' at hstep
  have hopen : ¬ srv.serverRelay = true := by simp [hrelay]
  cases hstep with
  | sent _ hp _ =>
    obtain rfl := List.mem_singleton.mp ho
    exact .send (hpermitted (hp.resolve_right hopen))
  | channelData _ _ hp _ =>
    obtain rfl := List.mem_singleton.mp ho
    -- the host of a bound peer is permitted
    exact .channelData (hpermitted (hl.host_of_peerOf hp)) (hbound hp)
  | peerChannel _ _ _ hp hn =>
    obtain rfl := List.mem_singleton.mp ho
    exact .peerChannel (hpermitted hp) (hbound hn)
  | peerIndication _ _ _ hp _ =>
    obtain rfl := List.mem_singleton.mp ho
    exact .peerIndication (hpermitted (hp.resolve_right hopen))
  | _ => cases ho

/-- Data are sent to another port of a permitted host. -/
theorem relayed_authorised_send :
    Authorised strict false (fun _ => true) 0
      [.createPermission [.xorPeerAddress (.inet 0x0A000001 80)]]
      (.send 64 [.xorPeerAddress (.inet 0x0A000001 443), .data [1, 2]])
      (.toPeer (.inet 0x0A000001 443) [1, 2]) := by
  apply relayed_authorised strict false (fun _ => true) 0 rfl
  exact List.Mem.head _

end Runs

end WebrtcCaller.Turn.Session
