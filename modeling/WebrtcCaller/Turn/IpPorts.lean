import Mathlib
import WebrtcCaller.Turn.Maps
import WebrtcCaller.Turn.Pool

/-!
# The port pools of all relay addresses

`turn_ports.c` keeps one pool for each transport and relay host, made when the host is first used.
The pools do not touch one another: what a host is answered is what a pool of its own would answer.
-/

namespace WebrtcCaller.Turn

/-- The relayed transport; anything but TCP goes to the UDP pools. -/
inductive Transport
  | udp
  | tcp
  deriving DecidableEq, Repr

/-- The pools of a server, by transport and by host. -/
structure Turnipports where
  start : Nat
  stop : Nat
  ipToTurnportsUdp : UrAddrMap Turnports
  ipToTurnportsTcp : UrAddrMap Turnports

namespace Turnipports

/-- `get_map`. -/
def getMap (tp : Turnipports) : Transport → UrAddrMap Turnports
  | .tcp => tp.ipToTurnportsTcp
  | .udp => tp.ipToTurnportsUdp

/-- The other map stays as it is. -/
def setMap (tp : Turnipports) (m : UrAddrMap Turnports) : Transport → Turnipports
  | .tcp => { tp with ipToTurnportsTcp := m }
  | .udp => { tp with ipToTurnportsUdp := m }

/-- `turnipports_create`: the pools are made on demand. -/
def create (start stop : Nat) : Turnipports where
  start := start
  stop := stop
  ipToTurnportsUdp := UrAddrMap.init
  ipToTurnportsTcp := UrAddrMap.init

/-- The pool of a host. For an empty range `turnports_create` has none, and the null pointer put
into the map is read as a gap. -/
def add (tp : Turnipports) (transport : Transport) (backendAddr : IoaAddr)
    (random : List (Nat × Nat)) : Option Turnports × Turnipports :=
  let ba := addrSetPort 0 backendAddr
  match (tp.getMap transport).lookup ba with
  | some t => (some t, tp)
  | none =>
    match Turnports.create tp.start tp.stop random with
    | none => (none, tp)
    | some t => (some t, tp.setMap ((tp.getMap transport).put ba t) transport)

/-- A pool is changed in place. -/
def store (tp : Turnipports) (transport : Transport) (addr : IoaAddr) (t : Turnports) :
    Turnipports :=
  tp.setMap ((tp.getMap transport).put (addrSetPort 0 addr) t) transport

/-- Without a pool `turnports_allocate` locks the mutex of a null pointer: there is no answer. -/
def allocate (tp : Turnipports) (transport : Transport) (backendAddr : IoaAddr)
    (random : List (Nat × Nat)) : Option Int × Turnipports :=
  match tp.add transport backendAddr random with
  | (some t, tp) => (some t.allocate.1, tp.store transport backendAddr t.allocate.2)
  | (none, tp) => (none, tp)

/-- Without a pool `turnports_allocate_even` refuses. -/
def allocateEven (tp : Turnipports) (backendAddr : IoaAddr) (random : List (Nat × Nat))
    (allocateRtcp : Bool) (token : Nat) : Option Int × Turnipports :=
  match tp.add .udp backendAddr random with
  | (some t, tp) =>
    (some (t.allocateEven allocateRtcp token).1,
      tp.store .udp backendAddr (t.allocateEven allocateRtcp token).2.2)
  | (none, tp) => (some (-1), tp)

/-- Only a pool that exists is given a port back. -/
def release (tp : Turnipports) (transport : Transport) (socketAddr : IoaAddr) : Turnipports :=
  match (tp.getMap transport).lookup (addrSetPort 0 socketAddr) with
  | some t => tp.store transport socketAddr (t.release (addrGetPort socketAddr))
  | none => tp

/-- The calls of the relays, with the random values a pool made by the call would draw. -/
inductive Call
  | allocate (transport : Transport) (backendAddr : IoaAddr) (random : List (Nat × Nat))
  | allocateEven (backendAddr : IoaAddr) (random : List (Nat × Nat)) (allocateRtcp : Bool)
      (token : Nat)
  | release (transport : Transport) (socketAddr : IoaAddr)

/-- The answer of a call, none where it crashes, and the pools after it. -/
def call (tp : Turnipports) : Call → Option Int × Turnipports
  | .allocate transport backendAddr random => tp.allocate transport backendAddr random
  | .allocateEven backendAddr random allocateRtcp token =>
    tp.allocateEven backendAddr random allocateRtcp token
  | .release transport socketAddr => (some 0, tp.release transport socketAddr)

/-- The pools after a call. -/
def step (tp : Turnipports) (c : Call) : Turnipports := (tp.call c).2

/-- The transport and the host a call is about. -/
def Call.site : Call → Transport × IoaAddr
  | .allocate transport backendAddr _ => (transport, addrSetPort 0 backendAddr)
  | .allocateEven backendAddr _ _ _ => (.udp, addrSetPort 0 backendAddr)
  | .release transport socketAddr => (transport, addrSetPort 0 socketAddr)

/-- The pool of a site, if it has one yet. -/
def pool (tp : Turnipports) (site : Transport × IoaAddr) : Option Turnports :=
  (tp.getMap site.1).lookup site.2

/-- A site on its own: one pool, made by the first allocation. -/
def serve (start stop : Nat) (t : Option Turnports) : Call → Int × Option Turnports
  | .allocate _ _ random =>
    let t := t.getD (Turnports.init start stop random)
    (t.allocate.1, some t.allocate.2)
  | .allocateEven _ random allocateRtcp token =>
    let t := t.getD (Turnports.init start stop random)
    ((t.allocateEven allocateRtcp token).1, some (t.allocateEven allocateRtcp token).2.2)
  | .release _ socketAddr => (0, t.map fun t => t.release (addrGetPort socketAddr))

/-- Both maps are in order, and the range is the server's and not empty. -/
structure Proper (start stop : Nat) (tp : Turnipports) : Prop where
  le : start ≤ stop
  start : tp.start = start
  stop : tp.stop = stop
  maps : ∀ transport, (tp.getMap transport).Proper

/-- There is no pool at the start. -/
theorem proper_create {start stop : Nat} (hle : start ≤ stop) :
    Proper start stop (create start stop) := by
  refine ⟨hle, rfl, rfl, fun transport => ?_⟩
  cases transport <;> exact UrAddrMap.proper_init

/-- No site has a pool at first. -/
theorem pool_create (start stop : Nat) (site : Transport × IoaAddr) :
    (create start stop).pool site = none := by
  have hnone : (UrAddrMap.init : UrAddrMap Turnports).lookup site.2 = none := by
    rw [UrAddrMap.lookup, UrAddrMap.slot, Slots.find_eq_none, Option.bind_none]
    intro r e _ he
    simp [UrAddrMap.init] at he
  rw [pool]
  cases site.1 <;> exact hnone

variable {start stop : Nat} {tp : Turnipports}

/-- Replacing one of the maps leaves the other. -/
theorem getMap_setMap (tp : Turnipports) (m : UrAddrMap Turnports) (transport other : Transport) :
    (tp.setMap m transport).getMap other = if other = transport then m else tp.getMap other := by
  cases transport <;> cases other <;> rfl

/-- Storing a pool changes that site and no other. -/
theorem Proper.store (h : Proper start stop tp) (transport : Transport) (addr : IoaAddr)
    (t : Turnports) :
    Proper start stop (tp.store transport addr t) ∧ ∀ site : Transport × IoaAddr,
      site.2 ≠ .unspec → (tp.store transport addr t).pool site =
        if site = (transport, addrSetPort 0 addr) then some t else tp.pool site := by
  obtain ⟨hput, hlookup⟩ := (h.maps transport).put (addrSetPort 0 addr) t
  refine ⟨⟨h.le, ?_, ?_, ?_⟩, ?_⟩
  · rw [← h.start]
    cases transport <;> rfl
  · rw [← h.stop]
    cases transport <;> rfl
  · intro other
    rw [Turnipports.store, getMap_setMap]
    split_ifs
    · exact hput
    · exact h.maps other
  · rintro ⟨other, host⟩ hne
    rw [pool, Turnipports.store, getMap_setMap]
    by_cases ht : other = transport
    · subst ht
      simp only [if_true, hlookup host hne, Prod.mk.injEq, true_and]
      rfl
    · simp [ht, pool]

/-- A host that is asked for has a pool, its own or a new one, and the others keep theirs. -/
theorem Proper.add (h : Proper start stop tp) (transport : Transport) (addr : IoaAddr)
    (random : List (Nat × Nat)) : ∃ tp', tp.add transport addr random =
        (some ((tp.pool (transport, addrSetPort 0 addr)).getD (Turnports.init start stop random)),
          tp') ∧ Proper start stop tp' ∧ ∀ site : Transport × IoaAddr, site.2 ≠ .unspec →
            site ≠ (transport, addrSetPort 0 addr) → tp'.pool site = tp.pool site := by
  have hcreate : Turnports.create start stop random = some (Turnports.init start stop random) :=
    if_neg (Nat.not_lt.mpr h.le)
  unfold Turnipports.add
  simp only [h.start, h.stop, hcreate]
  unfold pool
  cases hl : (tp.getMap transport).lookup (addrSetPort 0 addr) with
  | some t => exact ⟨tp, rfl, h, fun _ _ _ => rfl⟩
  | none =>
    obtain ⟨hproper, hpool⟩ := h.store transport addr (Turnports.init start stop random)
    exact ⟨_, rfl, hproper, fun site hne hsite => (hpool site hne).trans (if_neg hsite)⟩

/-- An allocation of either kind: the pool of the host answers, and is put back changed. -/
theorem Proper.allocated (h : Proper start stop tp) (transport : Transport) (addr : IoaAddr)
    (random : List (Nat × Nat)) (use : Turnports → Int × Turnports) (missing : Option Int) :
    let t := (tp.pool (transport, addrSetPort 0 addr)).getD (Turnports.init start stop random)
    let r : Option Int × Turnipports := match tp.add transport addr random with
      | (some t, tp) => (some (use t).1, tp.store transport addr (use t).2)
      | (none, tp) => (missing, tp)
    r.1 = some (use t).1 ∧ Proper start stop r.2 ∧ ∀ site : Transport × IoaAddr,
      site.2 ≠ .unspec → r.2.pool site =
        if site = (transport, addrSetPort 0 addr) then some (use t).2 else tp.pool site := by
  obtain ⟨tp', hadd, hproper, hother⟩ := h.add transport addr random
  simp only [hadd]
  generalize (tp.pool (transport, addrSetPort 0 addr)).getD _ = t
  obtain ⟨hstore, hpool⟩ := hproper.store transport addr (use t).2
  refine ⟨trivial, hstore, fun site hne => ?_⟩
  rw [hpool site hne]
  split_ifs with he
  · rfl
  · exact hother site hne he

/-- One call is answered, as by the pool of its site. -/
theorem Proper.call (h : Proper start stop tp) (c : Call) :
    (tp.call c).1 = some (serve start stop (tp.pool c.site) c).1 ∧
      Proper start stop (tp.step c) ∧
      ∀ site : Transport × IoaAddr, site.2 ≠ .unspec → (tp.step c).pool site =
        if site = c.site then (serve start stop (tp.pool c.site) c).2 else tp.pool site := by
  cases c with
  | allocate transport addr random =>
    exact h.allocated transport addr random (fun t => t.allocate) none
  | allocateEven addr random allocateRtcp token =>
    exact h.allocated .udp addr random
      (fun t => ((t.allocateEven allocateRtcp token).1, (t.allocateEven allocateRtcp token).2.2))
      (some (-1))
  | release transport addr =>
    refine ⟨rfl, ?_⟩
    change Proper start stop (tp.release transport addr) ∧ ∀ site : Transport × IoaAddr, _ →
      (tp.release transport addr).pool site = if site = (transport, addrSetPort 0 addr) then
        (tp.pool (transport, addrSetPort 0 addr)).map _ else _
    unfold Turnipports.release
    cases hl : (tp.getMap transport).lookup (addrSetPort 0 addr) with
    | some t =>
      obtain ⟨hproper, hpool⟩ := h.store transport addr (t.release (addrGetPort addr))
      refine ⟨hproper, fun site hne => ?_⟩
      rw [hpool site hne, show tp.pool (transport, addrSetPort 0 addr) = some t from hl]
      rfl
    | none =>
      refine ⟨h, fun site hne => ?_⟩
      split_ifs with he
      · rw [he, show tp.pool (transport, addrSetPort 0 addr) = none from hl]
        rfl
      · rfl

/-- The pools of different hosts and transports do not touch one another: over every run, a site
is answered what a pool of its own would answer to its own calls. -/
theorem pools_independent {site : Transport × IoaAddr} (hsite : site.2 ≠ .unspec)
    {start stop : Nat} (hle : start ≤ stop) (calls : List Call) :
    outputs step (fun tp c => if c.site = site then [(tp.call c).1] else []) (create start stop)
        calls =
      outputs (fun t c => (serve start stop t c).2) (fun t c => [some (serve start stop t c).1])
        none (calls.filter (·.site = site)) := by
  have hrun : ∀ tp, Proper start stop tp →
      outputs step (fun tp c => if c.site = site then [(tp.call c).1] else []) tp calls =
        outputs (fun t c => (serve start stop t c).2) (fun t c => [some (serve start stop t c).1])
          (tp.pool site) (calls.filter (·.site = site)) := by
    induction calls with
    | nil => exact fun _ _ => rfl
    | cons c calls ih =>
      intro tp h
      obtain ⟨hanswer, hproper, hpool⟩ := h.call c
      rw [outputs, ih _ hproper, hpool site hsite]
      by_cases he : c.site = site
      · rw [List.filter_cons_of_pos (by simpa using he), outputs, if_pos he, if_pos he.symm,
          hanswer, he]
      · rw [List.filter_cons_of_neg (by simpa using he), if_neg he, if_neg (Ne.symm he)]
        rfl
  rw [hrun _ (proper_create hle), pool_create]

/-- Two hosts and two transports, interleaved. -/
theorem pools_independent_interleaved :
    outputs step (fun tp c => if c.site = (.udp, .inet 1 0) then [(tp.call c).1] else [])
        (create 50000 50003)
        [.allocate .udp (.inet 1 0) [], .allocate .udp (.inet 2 0) [],
          .allocate .tcp (.inet 1 0) [], .allocateEven (.inet 1 7) [] true 0,
          .release .udp (.inet 1 50000)] =
      outputs (fun t c => (serve 50000 50003 t c).2)
        (fun t c => [some (serve 50000 50003 t c).1]) none
        [.allocate .udp (.inet 1 0) [], .allocateEven (.inet 1 7) [] true 0,
          .release .udp (.inet 1 50000)] := by
  have hsite : ((.udp, .inet 1 0) : Transport × IoaAddr).2 ≠ .unspec := by decide
  exact pools_independent hsite (by decide) _

end Turnipports

end WebrtcCaller.Turn
