import Mathlib
import WebrtcCaller.Turn.Allocation

/-!
# The hosts and the bindings of an allocation

What the two tables of an allocation come to: the set of hosts with a permission, and the peer each
channel number is bound to. Every operation on the tables is one on these.
-/

namespace WebrtcCaller.Turn.Allocation

variable {a : Allocation}

/-- The hosts with a permission, as addresses without a port. -/
def hosts (a : Allocation) : Set IoaAddr :=
  {h | ∃ t p, a.addrToPerm.get t = some p ∧ p.addr ≠ .unspec ∧ addrSetPort 0 p.addr = h}

/-- The peer a channel number is bound to. -/
def peerOf (a : Allocation) (chnum : Nat) : Option IoaAddr :=
  ((a.getChInfo chnum).bind a.chns.get).map (·.peerAddr)

/-- A host is permitted when a permission is found for it. -/
theorem Linked.mem_hosts (h : a.Linked) {addr : IoaAddr} :
    addrSetPort 0 addr ∈ a.hosts ↔ (a.getPermission addr).isSome = true := by
  rw [Option.isSome_iff_exists]
  simp only [h.getPermission_eq_some, addrEqNoPort_iff]
  constructor
  · rintro ⟨t, p, hp, hs, he⟩
    exact ⟨t, p, hp, he, hs⟩
  · rintro ⟨t, p, hp, he, hs⟩
    exact ⟨t, p, hp, hs, he⟩

/-- A number is bound to the peer of the channel that carries it. -/
theorem Linked.peerOf_eq_some (h : a.Linked) {chnum : Nat} {peer : IoaAddr} :
    a.peerOf chnum = some peer ↔
      ∃ c chn, a.chns.get c = some chn ∧ chn.chnum = chnum ∧ chn.peerAddr = peer := by
  unfold peerOf
  rw [Option.map_eq_some_iff]
  constructor
  · rintro ⟨chn, hb, rfl⟩
    obtain ⟨c, hf, hc⟩ := Option.bind_eq_some_iff.mp hb
    obtain ⟨chn', hc', hn⟩ := h.getChInfo_eq_some.mp hf
    rw [hc] at hc'
    obtain rfl := Option.some.inj hc'
    exact ⟨c, chn, hc, hn, rfl⟩
  · rintro ⟨c, chn, hc, hn, rfl⟩
    refine ⟨chn, ?_, rfl⟩
    rw [h.getChInfo_eq_some.mpr ⟨chn, hc, hn⟩]
    exact hc

/-- The host of a bound peer is permitted. -/
theorem Linked.host_of_peerOf (h : a.Linked) {chnum : Nat} {peer : IoaAddr}
    (hp : a.peerOf chnum = some peer) : addrSetPort 0 peer ∈ a.hosts := by
  obtain ⟨c, chn, hc, -, rfl⟩ := h.peerOf_eq_some.mp hp
  obtain ⟨p, hp, hhost, -⟩ := h.chan_owner c chn hc
  obtain ⟨heq, -⟩ := addrEqNoPort_iff.mp (addrEqNoPort_symm hhost)
  exact ⟨_, p, hp, (addrEqNoPort_iff.mp (addrEqNoPort_symm hhost)).2, heq⟩

/-- A number is free when no channel carries it. -/
theorem Linked.peerOf_eq_none (h : a.Linked) {chnum : Nat} :
    a.peerOf chnum = none ↔ ∀ c chn, a.chns.get c = some chn → chn.chnum ≠ chnum := by
  constructor
  · intro hn c chn hc he
    rw [h.peerOf_eq_some.mpr ⟨c, chn, hc, he, rfl⟩] at hn
    cases hn
  · intro hall
    cases hp : a.peerOf chnum with
    | none => rfl
    | some peer =>
      obtain ⟨c, chn, hc, he, -⟩ := h.peerOf_eq_some.mp hp
      exact absurd he (hall c chn hc)

theorem hosts_init : initAllocation.hosts = ∅ := by
  rw [Set.eq_empty_iff_forall_notMem]
  rintro host ⟨t, p, hp, -⟩
  simp [initAllocation] at hp

theorem peerOf_init : initAllocation.peerOf = fun _ => none := by
  funext n
  rw [linked_init.peerOf_eq_none]
  intro c chn hc
  simp [initAllocation] at hc

/-- No channel is found at an address without a port. -/
theorem Linked.getTurnChannel_portless (h : a.Linked) (t : Place) {addr : IoaAddr}
    (hport : addrGetPort addr = 0) : a.getTurnChannel t addr = none := by
  cases hf : a.getTurnChannel t addr with
  | none => rfl
  | some c =>
    obtain ⟨p, hp, hl⟩ := Option.bind_eq_some_iff.mp hf
    obtain ⟨hl, -⟩ := Option.filter_eq_some_iff.mp hl
    obtain ⟨chn, hc, -, hzero⟩ := h.perm_chan t p _ c hp hl
    exact absurd (hzero.trans hport) (h.chans.valid c chn hc).2.1

/-- Two allocations with the same hosts slot by slot have the same hosts. -/
theorem hosts_congr {b : Allocation}
    (h : ∀ t, (b.addrToPerm.get t).map (·.addr) = (a.addrToPerm.get t).map (·.addr)) :
    b.hosts = a.hosts := by
  have hsub : ∀ {a b : Allocation}, (∀ t, (b.addrToPerm.get t).map (·.addr) =
      (a.addrToPerm.get t).map (·.addr)) → b.hosts ⊆ a.hosts := by
    rintro a b h host ⟨t, p, hp, hs, rfl⟩
    have he := h t
    rw [hp, Option.map_some] at he
    obtain ⟨q, hq, haddr⟩ := Option.map_eq_some_iff.mp he.symm
    exact ⟨t, q, hq, haddr ▸ hs, by rw [haddr]⟩
  exact Set.Subset.antisymm (hsub h) (hsub fun t => (h t).symm)

/-- A new permission adds its host. -/
theorem hosts_permissionFor (h : a.Linked) {addr : IoaAddr} (hs : addr ≠ .unspec) :
    (a.permissionFor addr).2.hosts = insert (addrSetPort 0 addr) a.hosts := by
  unfold permissionFor
  cases hf : a.getPermission addr with
  | some t =>
    have hin : addrSetPort 0 addr ∈ a.hosts := h.mem_hosts.mpr (by rw [hf]; rfl)
    exact (Set.insert_eq_of_mem hin).symm
  | none =>
    have hfit := a.addrToPerm.fits_vacant (permIndex addr)
    ext host
    constructor
    · rintro ⟨t, p, hp, hps, rfl⟩
      have hp' := (Slots.get_write hfit).symm.trans hp
      split_ifs at hp' with ht
      · obtain rfl := Option.some.inj hp'
        exact Set.mem_insert _ _
      · exact Set.mem_insert_of_mem _ ⟨t, p, hp', hps, rfl⟩
    · rintro (rfl | ⟨t, p, hp, hps, rfl⟩)
      · exact ⟨_, _, Slots.get_write_self hfit, hs, rfl⟩
      · refine ⟨t, p, ?_, hps, rfl⟩
        refine (Slots.get_write_ne hfit ?_).trans hp
        rintro rfl
        rw [Slots.get_vacant] at hp
        cases hp

/-- A permission for an address that did not decode is never found again. -/
theorem hosts_permissionFor_unspec (h : a.Linked) :
    (a.permissionFor .unspec).2.hosts = a.hosts := by
  have hnone : a.getPermission .unspec = none := by
    rw [h.getPermission_eq_none]
    intro t p _
    cases p.addr <;> rfl
  unfold permissionFor
  rw [hnone]
  have hfit := a.addrToPerm.fits_vacant (permIndex .unspec)
  ext host
  constructor
  · rintro ⟨t, p, hp, hps, rfl⟩
    have hp' := (Slots.get_write hfit).symm.trans hp
    split_ifs at hp' with ht
    · obtain rfl := Option.some.inj hp'
      exact absurd rfl hps
    · exact ⟨t, p, hp', hps, rfl⟩
  · rintro ⟨t, p, hp, hps, rfl⟩
    refine ⟨t, p, ?_, hps, rfl⟩
    refine (Slots.get_write_ne hfit ?_).trans hp
    rintro rfl
    rw [Slots.get_vacant] at hp
    cases hp

theorem hosts_attach (t : Place) (chnum : Nat) (peer : IoaAddr) :
    (a.attach t chnum peer).2.hosts = a.hosts := by
  apply hosts_congr
  intro t'
  simp only [attach, Slots.get_modify]
  split_ifs with ht
  · rw [ht]
    cases a.addrToPerm.get t <;> rfl
  · rfl

theorem hosts_turnChannelDelete (c : Place) : (a.turnChannelDelete c).hosts = a.hosts := by
  unfold turnChannelDelete
  cases a.chns.get c with
  | none => rfl
  | some chn =>
    apply hosts_congr
    intro t'
    simp only [Slots.get_modify]
    split_ifs with ht
    · rw [ht]
      cases a.addrToPerm.get chn.owner <;> rfl
    · rfl

/-- A channel number is bound to the peer it was given. -/
theorem Linked.peerOf_attach (h : a.Linked) {t : Place} {chnum : Nat} {peer : IoaAddr}
    (hl : (a.attach t chnum peer).2.Linked) (n : Nat) :
    (a.attach t chnum peer).2.peerOf n = if n = chnum then some peer else a.peerOf n := by
  have hfit := a.chns.fits_vacant (chanIndex chnum)
  have hget : ∀ c, (a.attach t chnum peer).2.chns.get c =
      if c = a.chns.vacant (chanIndex chnum) then
        some ⟨chnum, addrGetPort peer, peer, none, t⟩ else a.chns.get c :=
    fun c => Slots.get_write hfit
  split_ifs with hn
  · rw [hl.peerOf_eq_some]
    exact ⟨_, _, (hget _).trans (if_pos rfl), hn.symm, rfl⟩
  · apply Option.ext
    intro p
    rw [hl.peerOf_eq_some, h.peerOf_eq_some]
    constructor
    · rintro ⟨c, chn, hc, rfl, hp⟩
      rw [hget] at hc
      split_ifs at hc
      · obtain rfl := Option.some.inj hc
        exact absurd rfl hn
      · exact ⟨c, chn, hc, rfl, hp⟩
    · rintro ⟨c, chn, hc, hnum, hp⟩
      refine ⟨c, chn, ?_, hnum, hp⟩
      rw [hget, if_neg, hc]
      rintro rfl
      rw [Slots.get_vacant] at hc
      cases hc

theorem isValid_permissionFor (a : Allocation) (addr : IoaAddr) :
    (a.permissionFor addr).2.isValid = a.isValid := by
  unfold permissionFor
  split <;> rfl

theorem isValid_getNewChInfo (a : Allocation) (chnum : Nat) (peer : IoaAddr) :
    (a.getNewChInfo chnum peer).2.isValid = a.isValid :=
  a.isValid_permissionFor peer

/-- A permission binds no channel. -/
theorem peerOf_permissionFor (h : a.Linked) (addr : IoaAddr) :
    (a.permissionFor addr).2.peerOf = a.peerOf := by
  have hchns := (h.permissionFor addr).2.1
  funext n
  rw [peerOf, peerOf, getChInfo, getChInfo, hchns]

/-- A channel that is new to its number and to its peer: the host of the peer is permitted, and the
number is bound to the peer. -/
theorem Linked.getNewChInfo (h : a.Linked) {chnum : Nat} {peer : IoaAddr}
    (hvalid : stunValidChannel chnum = true) (hport : addrGetPort peer ≠ 0)
    (hnum : ∀ c chn, a.chns.get c = some chn → chn.chnum ≠ chnum)
    (hpeer : ∀ c chn, a.chns.get c = some chn → chn.peerAddr ≠ peer) :
    (a.getNewChInfo chnum peer).2.Linked ∧
      (∃ chn, (a.getNewChInfo chnum peer).2.chns.get (a.getNewChInfo chnum peer).1 = some chn) ∧
      (a.getNewChInfo chnum peer).2.hosts = insert (addrSetPort 0 peer) a.hosts ∧
      (a.getNewChInfo chnum peer).2.peerOf = Function.update a.peerOf chnum (some peer) := by
  have hs : peer ≠ .unspec := by
    rintro rfl
    exact hport rfl
  obtain ⟨hlinked, hchns, q, hq, heq⟩ := h.permissionFor peer
  have hattach := hlinked.attach hq (heq hs) hvalid hport (hchns ▸ hnum) (hchns ▸ hpeer)
  refine ⟨hattach, ⟨_, Slots.get_write_self ((a.permissionFor peer).2.chns.fits_vacant _)⟩, ?_, ?_⟩
  · exact (hosts_attach _ _ _).trans (hosts_permissionFor h hs)
  · funext n
    refine (hlinked.peerOf_attach hattach n).trans ?_
    rw [Function.update_apply, peerOf_permissionFor h]

/-- A deleted channel leaves its number free, the others stay bound. -/
theorem Linked.peerOf_turnChannelDelete (h : a.Linked) {c : Place} {chn : ChInfo}
    (hc : a.chns.get c = some chn) (n : Nat) :
    (a.turnChannelDelete c).peerOf n = if n = chn.chnum then none else a.peerOf n := by
  have hl := h.turnChannelDelete c
  have hget : ∀ c', (a.turnChannelDelete c).chns.get c' =
      if c' = c then none else a.chns.get c' := by
    intro c'
    unfold Allocation.turnChannelDelete
    rw [hc]
    exact Slots.get_erase _ _ _
  split_ifs with hn
  · rw [hl.peerOf_eq_none]
    intro c' chn' hc' he
    rw [hget] at hc'
    split_ifs at hc' with hne
    exact hne (h.chans.unique c' c chn' chn hc' hc (he.trans hn))
  · apply Option.ext
    intro p
    rw [hl.peerOf_eq_some, h.peerOf_eq_some]
    constructor
    · rintro ⟨c', chn', hc', hrest⟩
      rw [hget] at hc'
      split_ifs at hc'
      exact ⟨c', chn', hc', hrest⟩
    · rintro ⟨c', chn', hc', hnum, hp⟩
      refine ⟨c', chn', ?_, hnum, hp⟩
      rw [hget, if_neg, hc']
      rintro rfl
      rw [hc] at hc'
      obtain rfl := Option.some.inj hc'
      exact hn hnum.symm

/-- A cleaned permission takes its host away, and every channel bound to that host. -/
theorem Linked.views_turnPermissionClean (h : a.Linked) {t : Place} {p : TurnPermissionInfo}
    (hp : a.addrToPerm.get t = some p) :
    (a.turnPermissionClean t).hosts = a.hosts \ {addrSetPort 0 p.addr} ∧
      ∀ n, (a.turnPermissionClean t).peerOf n =
        (a.peerOf n).filter fun peer => addrSetPort 0 peer ≠ addrSetPort 0 p.addr := by
  have hl := h.turnPermissionClean t
  constructor
  · ext host
    constructor
    · rintro ⟨t', p', hp', hs, rfl⟩
      obtain ⟨hp', hne⟩ := (a.perms_turnPermissionClean t t' p').mp hp'
      refine ⟨⟨t', p', hp', hs, rfl⟩, fun he => hne ?_⟩
      exact h.perms.unique t' t p' p hp' hp (addrEqNoPort_iff.mpr ⟨he, hs⟩)
    · rintro ⟨⟨t', p', hp', hs, rfl⟩, hne⟩
      refine ⟨t', p', (a.perms_turnPermissionClean t t' p').mpr ⟨hp', ?_⟩, hs, rfl⟩
      rintro rfl
      rw [hp] at hp'
      obtain rfl := Option.some.inj hp'
      exact hne rfl
  · intro n
    apply Option.ext
    intro peer
    rw [hl.peerOf_eq_some, Option.filter_eq_some_iff, h.peerOf_eq_some]
    constructor
    · rintro ⟨c, chn, hc, hnum, rfl⟩
      obtain ⟨hc, hne⟩ := (h.chns_turnPermissionClean t c chn).mp hc
      refine ⟨⟨c, chn, hc, hnum, rfl⟩, ?_⟩
      obtain ⟨q, hq, hhost, -⟩ := h.chan_owner c chn hc
      rw [decide_eq_true_eq]
      intro he
      have hpeer : addrEqNoPort chn.peerAddr p.addr = true :=
        addrEqNoPort_iff.mpr ⟨he, (addrEqNoPort_iff.mp hhost).2⟩
      exact hne (h.perms.unique _ t q p hq hp
        (addrEqNoPort_trans (addrEqNoPort_symm hhost) hpeer))
    · rintro ⟨⟨c, chn, hc, hnum, rfl⟩, hne⟩
      refine ⟨c, chn, (h.chns_turnPermissionClean t c chn).mpr ⟨hc, ?_⟩, hnum, rfl⟩
      rintro rfl
      obtain ⟨q, hq, hhost, -⟩ := h.chan_owner c chn hc
      rw [hp] at hq
      obtain rfl := Option.some.inj hq
      rw [decide_eq_true_eq] at hne
      exact hne (addrEqNoPort_iff.mp hhost).1

end WebrtcCaller.Turn.Allocation
