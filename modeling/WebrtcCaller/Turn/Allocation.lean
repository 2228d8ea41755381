import Mathlib
import WebrtcCaller.Turn.Maps
import WebrtcCaller.Turn.Stun

/-!
# Permissions and channels of an allocation

`ns_turn_allocation.c` keeps the permissions of an allocation in one table, by peer host, and its
channels in another, by number. A channel points to the permission it belongs to, and the
permission has a local map from peer ports to its channels: the two tables refer to each other by
slot. Everything the server does with an allocation keeps these references in step.
-/

namespace WebrtcCaller.Turn

/-- A channel in use. `lifetimeEv` is the time its timer goes off, once it has one. -/
structure ChInfo where
  chnum : Nat
  port : Nat
  peerAddr : IoaAddr
  lifetimeEv : Option Nat
  owner : Place

/-- A permission in use, with the channels of its host by peer port. -/
structure TurnPermissionInfo where
  addr : IoaAddr
  chns : LmMap Place
  lifetimeEv : Option Nat

/-- The tables of an allocation: its permissions, and its channels by number. -/
structure Allocation where
  isValid : Bool
  addrToPerm : Slots TurnPermissionInfo
  chns : Slots ChInfo

/-- The sizes of both tables: eight buckets that start with three slots. -/
def hashSize : Nat := 8
@[inherit_doc hashSize]
def arraySize : Nat := 3

/-- `init_allocation`: nothing is permitted and nothing bound. -/
def initAllocation : Allocation where
  isValid := false
  addrToPerm := Slots.empty arraySize
  chns := Slots.empty arraySize

namespace Allocation

/-- The bucket of a host. -/
def permIndex (addr : IoaAddr) : Nat := (addrHashNoPort addr).toNat % hashSize

/-- The bucket of a channel number. -/
def chanIndex (chnum : Nat) : Nat := chnum % hashSize

/-- `allocation_get_permission`. -/
def getPermission (a : Allocation) (addr : IoaAddr) : Option Place :=
  a.addrToPerm.find (permIndex addr) fun p => addrEqNoPort p.addr addr

/-- `allocation_add_permission`. -/
def addPermission (a : Allocation) (addr : IoaAddr) : Place × Allocation :=
  let slot := a.addrToPerm.vacant (permIndex addr)
  (slot, { a with addrToPerm := a.addrToPerm.write slot (some ⟨addr, LmMap.init, none⟩) })

/-- `allocation_get_ch_info`. -/
def getChInfo (a : Allocation) (chnum : Nat) : Option Place :=
  a.chns.find (chanIndex chnum) fun c => c.chnum == chnum

/-- The permission of a host, made if there is none. -/
def permissionFor (a : Allocation) (addr : IoaAddr) : Place × Allocation :=
  match a.getPermission addr with
  | some t => (t, a)
  | none => a.addPermission addr

/-- A new channel of a permission. -/
def attach (a : Allocation) (tinfo : Place) (chnum : Nat) (peerAddr : IoaAddr) :
    Place × Allocation :=
  let chn := a.chns.vacant (chanIndex chnum)
  let port := addrGetPort peerAddr
  (chn, { a with
    chns := a.chns.write chn (some ⟨chnum, port, peerAddr, none, tinfo⟩)
    addrToPerm := a.addrToPerm.modify tinfo fun p =>
      { p with chns := (p.chns.put port (some chn)).2 } })

/-- `allocation_get_new_ch_info`. -/
def getNewChInfo (a : Allocation) (chnum : Nat) (peerAddr : IoaAddr) : Place × Allocation :=
  let (tinfo, a) := a.permissionFor peerAddr
  a.attach tinfo chnum peerAddr

/-- `get_turn_channel`: the channel of a peer, through its permission. -/
def getTurnChannel (a : Allocation) (tinfo : Place) (addr : IoaAddr) : Option Place :=
  (a.addrToPerm.get tinfo).bind fun p =>
    (p.chns.lookup (addrGetPort addr)).filter fun chn =>
      (a.chns.get chn).any fun c => stunValidChannel c.chnum

/-- `allocation_get_ch_info_by_peer_addr`. -/
def getChInfoByPeerAddr (a : Allocation) (peerAddr : IoaAddr) : Option Place :=
  (a.getPermission peerAddr).bind fun tinfo => a.getTurnChannel tinfo peerAddr

/-- `turn_channel_delete`. -/
def turnChannelDelete (a : Allocation) (chn : Place) : Allocation :=
  match a.chns.get chn with
  | some c => { a with
      addrToPerm := a.addrToPerm.modify c.owner fun p =>
        { p with chns := (p.chns.del (addrGetPort c.peerAddr)).2 }
      chns := a.chns.erase chn }
  | none => a

/-- `turn_permission_clean`: the channels of the permission go with it. -/
def turnPermissionClean (a : Allocation) (tinfo : Place) : Allocation :=
  match a.addrToPerm.get tinfo with
  | some p => { a with
      chns := p.chns.values.foldl Slots.erase a.chns
      addrToPerm := a.addrToPerm.erase tinfo }
  | none => a

/-- Permissions stand in the buckets of their hosts, one for each host. -/
structure PermTable (perms : Slots TurnPermissionInfo) : Prop where
  bucket : ∀ t p, perms.get t = some p → t.1 = permIndex p.addr
  unique : ∀ t t' p p', perms.get t = some p → perms.get t' = some p' →
    addrEqNoPort p.addr p'.addr = true → t = t'

/-- Channels stand in the buckets of their numbers, one for each number. -/
structure ChanTable (chans : Slots ChInfo) : Prop where
  bucket : ∀ c chn, chans.get c = some chn → c.1 = chanIndex chn.chnum
  unique : ∀ c c' chn chn', chans.get c = some chn → chans.get c' = some chn' →
    chn.chnum = chn'.chnum → c = c'
  valid : ∀ c chn, chans.get c = some chn → stunValidChannel chn.chnum = true ∧
    chn.port ≠ 0 ∧ chn.port = addrGetPort chn.peerAddr

/-- The references between the two tables are in step. -/
structure Linked (a : Allocation) : Prop where
  perms : PermTable a.addrToPerm
  chans : ChanTable a.chns
  proper : ∀ t p, a.addrToPerm.get t = some p → p.chns.Proper
  perm_chan : ∀ t p port c, a.addrToPerm.get t = some p → p.chns.lookup port = some c →
    ∃ chn, a.chns.get c = some chn ∧ chn.owner = t ∧ chn.port = port
  chan_owner : ∀ c chn, a.chns.get c = some chn → ∃ p, a.addrToPerm.get chn.owner = some p ∧
    addrEqNoPort chn.peerAddr p.addr = true ∧ p.chns.lookup chn.port = some c

theorem linked_init : initAllocation.Linked := by
  constructor
  · constructor <;> intros <;> simp_all [initAllocation]
  · constructor <;> intros <;> simp_all [initAllocation]
  · intro t p hp
    simp [initAllocation] at hp
  · intro t p port c hp
    simp [initAllocation] at hp
  · intro c chn hc
    simp [initAllocation] at hc

section Tables

variable {perms : Slots TurnPermissionInfo} {chans : Slots ChInfo}

/-- A permission for a new host may be added. -/
theorem PermTable.add (h : PermTable perms) {addr : IoaAddr}
    (hnew : ∀ t p, perms.get t = some p → addrEqNoPort p.addr addr = false) :
    PermTable (perms.write (perms.vacant (permIndex addr)) (some ⟨addr, LmMap.init, none⟩)) := by
  have hfit := perms.fits_vacant (permIndex addr)
  constructor
  · intro t p hp
    rw [Slots.get_write hfit] at hp
    split_ifs at hp with ht
    · obtain rfl := Option.some.inj hp
      rw [ht]
      rfl
    · exact h.bucket t p hp
  · intro t t' p p' hp hp' he
    rw [Slots.get_write hfit] at hp hp'
    split_ifs at hp hp' with ht ht' ht'
    · rw [ht, ht']
    · obtain rfl := Option.some.inj hp
      have := hnew t' p' hp'
      rw [addrEqNoPort_symm he] at this
      cases this
    · obtain rfl := Option.some.inj hp'
      have := hnew t p hp
      rw [he] at this
      cases this
    · exact h.unique t t' p p' hp hp' he

/-- A table of permissions stays one under anything that adds no host and moves none. -/
theorem PermTable.mono (h : PermTable perms) {perms' : Slots TurnPermissionInfo}
    (hsub : ∀ t p', perms'.get t = some p' → ∃ p, perms.get t = some p ∧ p'.addr = p.addr) :
    PermTable perms' := by
  constructor
  · intro t p' hp'
    obtain ⟨p, hp, ha⟩ := hsub t p' hp'
    rw [ha]
    exact h.bucket t p hp
  · intro t1 t2 p1' p2' hp1' hp2' he
    obtain ⟨p1, hp1, ha1⟩ := hsub t1 p1' hp1'
    obtain ⟨p2, hp2, ha2⟩ := hsub t2 p2' hp2'
    rw [ha1, ha2] at he
    exact h.unique t1 t2 p1 p2 hp1 hp2 he

/-- A channel with a new number may be added. -/
theorem ChanTable.add (h : ChanTable chans) (chn : ChInfo)
    (hvalid : stunValidChannel chn.chnum = true ∧ chn.port ≠ 0 ∧
      chn.port = addrGetPort chn.peerAddr)
    (hnew : ∀ c chn', chans.get c = some chn' → chn'.chnum ≠ chn.chnum) :
    ChanTable (chans.write (chans.vacant (chanIndex chn.chnum)) (some chn)) := by
  have hfit := chans.fits_vacant (chanIndex chn.chnum)
  constructor
  · intro c chn' hc
    rw [Slots.get_write hfit] at hc
    split_ifs at hc with he
    · obtain rfl := Option.some.inj hc
      rw [he]
      rfl
    · exact h.bucket c chn' hc
  · intro c1 c2 chn1 chn2 hc1 hc2 he
    rw [Slots.get_write hfit] at hc1 hc2
    split_ifs at hc1 hc2 with h1 h2 h2
    · rw [h1, h2]
    · obtain rfl := Option.some.inj hc1
      exact absurd he.symm (hnew c2 chn2 hc2)
    · obtain rfl := Option.some.inj hc2
      exact absurd he (hnew c1 chn1 hc1)
    · exact h.unique c1 c2 chn1 chn2 hc1 hc2 he
  · intro c chn' hc
    rw [Slots.get_write hfit] at hc
    split_ifs at hc
    · obtain rfl := Option.some.inj hc
      exact hvalid
    · exact h.valid c chn' hc

/-- A table of channels stays one under anything that adds no channel and changes no number and
no peer. -/
theorem ChanTable.mono (h : ChanTable chans) {chans' : Slots ChInfo}
    (hsub : ∀ c chn', chans'.get c = some chn' → ∃ chn, chans.get c = some chn ∧
      chn'.chnum = chn.chnum ∧ chn'.port = chn.port ∧ chn'.peerAddr = chn.peerAddr) :
    ChanTable chans' := by
  constructor
  · intro c chn' hc'
    obtain ⟨chn, hc, hn, -⟩ := hsub c chn' hc'
    rw [hn]
    exact h.bucket c chn hc
  · intro c1 c2 chn1' chn2' hc1' hc2' he
    obtain ⟨chn1, hc1, hn1, -⟩ := hsub c1 chn1' hc1'
    obtain ⟨chn2, hc2, hn2, -⟩ := hsub c2 chn2' hc2'
    rw [hn1, hn2] at he
    exact h.unique c1 c2 chn1 chn2 hc1 hc2 he
  · intro c chn' hc'
    obtain ⟨chn, hc, hn, hp, ha⟩ := hsub c chn' hc'
    rw [hn, hp, ha]
    exact h.valid c chn hc

end Tables

section Lookup

variable {a : Allocation}

/-- A permission is found by its host, and only by it. -/
theorem Linked.getPermission_eq_some (h : a.Linked) {addr : IoaAddr} {t : Place} :
    a.getPermission addr = some t ↔
      ∃ p, a.addrToPerm.get t = some p ∧ addrEqNoPort p.addr addr = true := by
  constructor
  · intro hf
    obtain ⟨-, p, hp, he⟩ := Slots.find_some hf
    exact ⟨p, hp, he⟩
  · rintro ⟨p, hp, he⟩
    have hb : t.1 = permIndex addr := by
      rw [h.perms.bucket t p hp, permIndex, permIndex, addrHashNoPort_congr he]
    rw [getPermission, ← hb]
    apply Slots.find_eq_of_unique hp he
    intro t' p' _ hp' he'
    exact h.perms.unique t' t p' p hp' hp (addrEqNoPort_trans he' (addrEqNoPort_symm he))

/-- No permission is found exactly when none has the host. -/
theorem Linked.getPermission_eq_none (h : a.Linked) {addr : IoaAddr} :
    a.getPermission addr = none ↔
      ∀ t p, a.addrToPerm.get t = some p → addrEqNoPort p.addr addr = false := by
  constructor
  · intro hn t p hp
    by_contra he
    rw [h.getPermission_eq_some.mpr ⟨p, hp, Bool.eq_true_of_not_eq_false he⟩] at hn
    cases hn
  · intro hall
    cases hf : a.getPermission addr with
    | none => rfl
    | some t =>
      obtain ⟨p, hp, he⟩ := h.getPermission_eq_some.mp hf
      rw [hall t p hp] at he
      cases he

/-- A channel is found by its number. -/
theorem Linked.getChInfo_eq_some (h : a.Linked) {chnum : Nat} {c : Place} :
    a.getChInfo chnum = some c ↔ ∃ chn, a.chns.get c = some chn ∧ chn.chnum = chnum := by
  constructor
  · intro hf
    obtain ⟨-, chn, hc, he⟩ := Slots.find_some hf
    exact ⟨chn, hc, by simpa using he⟩
  · rintro ⟨chn, hc, rfl⟩
    have hb := h.chans.bucket c chn hc
    rw [getChInfo, ← hb]
    apply Slots.find_eq_of_unique hc (by simp)
    intro c' chn' _ hc' he'
    exact h.chans.unique c' c chn' chn hc' hc (by simpa using he')

/-- A peer has at most one channel. -/
theorem Linked.peer_unique (h : a.Linked) {c c' : Place} {chn chn' : ChInfo}
    (hc : a.chns.get c = some chn) (hc' : a.chns.get c' = some chn')
    (he : chn.peerAddr = chn'.peerAddr) : c = c' := by
  obtain ⟨p, hp, hhost, hl⟩ := h.chan_owner c chn hc
  obtain ⟨p', hp', hhost', hl'⟩ := h.chan_owner c' chn' hc'
  rw [← he] at hhost'
  have howner := h.perms.unique _ _ p p' hp hp'
    (addrEqNoPort_trans (addrEqNoPort_symm hhost) hhost')
  rw [← howner, hp] at hp'
  obtain rfl := Option.some.inj hp'
  have hport : chn.port = chn'.port := by
    rw [(h.chans.valid c chn hc).2.2, (h.chans.valid c' chn' hc').2.2, he]
  rw [hport, hl'] at hl
  exact (Option.some.inj hl).symm

/-- The channel found through a permission is the one bound to the peer. -/
theorem Linked.getTurnChannel_eq_some (h : a.Linked) {addr : IoaAddr} {t c : Place}
    {p : TurnPermissionInfo} (hp : a.addrToPerm.get t = some p)
    (he : addrEqNoPort p.addr addr = true) :
    a.getTurnChannel t addr = some c ↔ ∃ chn, a.chns.get c = some chn ∧ chn.peerAddr = addr := by
  unfold getTurnChannel
  rw [hp, Option.bind_some, Option.filter_eq_some_iff]
  constructor
  · rintro ⟨hl, -⟩
    obtain ⟨chn, hc, howner, hport⟩ := h.perm_chan t p _ c hp hl
    refine ⟨chn, hc, ?_⟩
    obtain ⟨p', hp', hhost, -⟩ := h.chan_owner c chn hc
    rw [howner, hp] at hp'
    obtain rfl := Option.some.inj hp'
    apply addrEq_of_noPort (addrEqNoPort_trans hhost he)
    rw [← (h.chans.valid c chn hc).2.2, hport]
  · rintro ⟨chn, hc, rfl⟩
    obtain ⟨p', hp', hhost, hl⟩ := h.chan_owner c chn hc
    obtain ⟨hvalid, -, hport⟩ := h.chans.valid c chn hc
    have howner := h.perms.unique _ _ p' p hp' hp
      (addrEqNoPort_symm (addrEqNoPort_trans he hhost))
    rw [howner, hp] at hp'
    obtain rfl := Option.some.inj hp'
    rw [hport] at hl
    exact ⟨hl, by simp [hc, hvalid]⟩

/-- A channel is found by its peer's address exactly. -/
theorem Linked.getChInfoByPeerAddr_eq_some (h : a.Linked) {addr : IoaAddr} {c : Place} :
    a.getChInfoByPeerAddr addr = some c ↔
      ∃ chn, a.chns.get c = some chn ∧ chn.peerAddr = addr := by
  unfold getChInfoByPeerAddr
  constructor
  · intro hb
    obtain ⟨t, ht, hc⟩ := Option.bind_eq_some_iff.mp hb
    obtain ⟨p, hp, he⟩ := h.getPermission_eq_some.mp ht
    exact (h.getTurnChannel_eq_some hp he).mp hc
  · rintro ⟨chn, hc, rfl⟩
    obtain ⟨p, hp, hhost, -⟩ := h.chan_owner c chn hc
    have ht := h.getPermission_eq_some.mpr ⟨p, hp, addrEqNoPort_symm hhost⟩
    rw [ht, Option.bind_some]
    exact (h.getTurnChannel_eq_some hp (addrEqNoPort_symm hhost)).mpr ⟨chn, hc, rfl⟩

end Lookup

section Operations

variable {a : Allocation}

/-- A permission for a new host. -/
theorem Linked.addPermission (h : a.Linked) {addr : IoaAddr}
    (hnew : a.getPermission addr = none) : (a.addPermission addr).2.Linked := by
  have hfit := a.addrToPerm.fits_vacant (permIndex addr)
  have hget : ∀ t, (a.addPermission addr).2.addrToPerm.get t =
      if t = a.addrToPerm.vacant (permIndex addr) then some ⟨addr, LmMap.init, none⟩
      else a.addrToPerm.get t := fun t => Slots.get_write hfit
  constructor
  · exact h.perms.add (h.getPermission_eq_none.mp hnew)
  · exact h.chans
  · intro t p hp
    rw [hget] at hp
    split_ifs at hp
    · obtain rfl := Option.some.inj hp
      exact LmMap.proper_init
    · exact h.proper t p hp
  · intro t p port c hp hl
    rw [hget] at hp
    split_ifs at hp
    · obtain rfl := Option.some.inj hp
      obtain ⟨r, hr⟩ := LmMap.proper_init.lookup_eq_some.mp hl
      simp [LmMap.init] at hr
    · exact h.perm_chan t p port c hp hl
  · intro c chn hc
    obtain ⟨p, hp, hrest⟩ := h.chan_owner c chn hc
    refine ⟨p, ?_, hrest⟩
    rw [hget, if_neg, hp]
    intro ht
    rw [ht, Slots.get_vacant] at hp
    cases hp

/-- The permission of a host is there afterwards, whether it was before or not. -/
theorem Linked.permissionFor (h : a.Linked) (addr : IoaAddr) :
    (a.permissionFor addr).2.Linked ∧ (a.permissionFor addr).2.chns = a.chns ∧
      ∃ p, (a.permissionFor addr).2.addrToPerm.get (a.permissionFor addr).1 = some p ∧
        (addr ≠ .unspec → addrEqNoPort p.addr addr = true) := by
  unfold Allocation.permissionFor
  cases hf : a.getPermission addr with
  | some t =>
    obtain ⟨p, hp, he⟩ := h.getPermission_eq_some.mp hf
    exact ⟨h, rfl, p, hp, fun _ => he⟩
  | none =>
    refine ⟨h.addPermission hf, rfl, ⟨addr, LmMap.init, none⟩, ?_, addrEqNoPort_self⟩
    exact Slots.get_write_self (a.addrToPerm.fits_vacant _)

/-- What one changed permission was before. -/
theorem get_modify_some {perms : Slots TurnPermissionInfo} {t t' : Place}
    {p' : TurnPermissionInfo} {f : TurnPermissionInfo → TurnPermissionInfo}
    (hp' : (perms.modify t f).get t' = some p') :
    ∃ p, perms.get t' = some p ∧ p' = if t' = t then f p else p := by
  rw [Slots.get_modify] at hp'
  split_ifs at hp' with ht
  · obtain ⟨p, hp, rfl⟩ := Option.map_eq_some_iff.mp hp'
    exact ⟨p, ht ▸ hp, (if_pos ht).symm⟩
  · exact ⟨p', hp', (if_neg ht).symm⟩

/-- A port that is new to its peer is new to the permission of the host. -/
theorem Linked.lookup_absent (h : a.Linked) {t : Place} {p : TurnPermissionInfo} {peer : IoaAddr}
    (hp : a.addrToPerm.get t = some p) (he : addrEqNoPort p.addr peer = true)
    (hpeer : ∀ c chn, a.chns.get c = some chn → chn.peerAddr ≠ peer) :
    p.chns.lookup (addrGetPort peer) = none := by
  cases hl : p.chns.lookup (addrGetPort peer) with
  | none => rfl
  | some c =>
    obtain ⟨chn, hc, howner, hport⟩ := h.perm_chan t p _ c hp hl
    obtain ⟨p', hp', hhost, -⟩ := h.chan_owner c chn hc
    rw [howner, hp] at hp'
    obtain rfl := Option.some.inj hp'
    refine absurd (addrEq_of_noPort (addrEqNoPort_trans hhost he) ?_) (hpeer c chn hc)
    rw [← (h.chans.valid c chn hc).2.2, hport]

/-- A channel that is new to its number and to its peer. -/
theorem Linked.attach (h : a.Linked) {t : Place} {p : TurnPermissionInfo} {chnum : Nat}
    {peer : IoaAddr} (hp : a.addrToPerm.get t = some p) (he : addrEqNoPort p.addr peer = true)
    (hvalid : stunValidChannel chnum = true) (hport : addrGetPort peer ≠ 0)
    (hnum : ∀ c chn, a.chns.get c = some chn → chn.chnum ≠ chnum)
    (hpeer : ∀ c chn, a.chns.get c = some chn → chn.peerAddr ≠ peer) :
    (a.attach t chnum peer).2.Linked := by
  have hfit := a.chns.fits_vacant (chanIndex chnum)
  have hproper := h.proper t p hp
  have habs := h.lookup_absent hp he hpeer
  generalize hchn : a.chns.vacant (chanIndex chnum) = chn at hfit
  have hstored := hproper.put_absent (v := chn) hport habs
  have hlookup := hproper.lookup_store (v := chn) hport habs
  have hnone : a.chns.get chn = none := hchn ▸ a.chns.get_vacant _
  have hgetc : ∀ c, (a.attach t chnum peer).2.chns.get c =
      if c = chn then some ⟨chnum, addrGetPort peer, peer, none, t⟩ else a.chns.get c := by
    intro c
    rw [Allocation.attach, hchn]
    exact Slots.get_write hfit
  have hgetp : ∀ t' q, a.addrToPerm.get t' = some q →
      ∃ p', (a.attach t chnum peer).2.addrToPerm.get t' = some p' ∧ p'.addr = q.addr ∧
        p'.chns.Proper ∧ ∀ port, p'.chns.lookup port =
          if t' = t ∧ port = addrGetPort peer then some chn else q.chns.lookup port := by
    intro t' q hq
    simp only [Allocation.attach, hchn, Slots.get_modify]
    split_ifs with ht
    · rw [ht, hp] at hq
      obtain rfl := Option.some.inj hq
      rw [hp]
      refine ⟨_, rfl, rfl, ?_, ?_⟩
      · simp only [hstored]
        exact hproper.of_store hport habs
      · simp only [hstored, hlookup, ht, true_and, implies_true]
    · refine ⟨q, hq, rfl, h.proper t' q hq, ?_⟩
      simp only [ht, false_and, if_false, implies_true]
  have hback : ∀ t' p', (a.attach t chnum peer).2.addrToPerm.get t' = some p' →
      ∃ q, a.addrToPerm.get t' = some q ∧ p'.addr = q.addr ∧ p'.chns.Proper ∧
        ∀ port, p'.chns.lookup port =
          if t' = t ∧ port = addrGetPort peer then some chn else q.chns.lookup port := by
    intro t' p' hp'
    obtain ⟨q, hq, -⟩ := get_modify_some hp'
    obtain ⟨p'', hp'', hrest⟩ := hgetp t' q hq
    rw [hp''] at hp'
    obtain rfl := Option.some.inj hp'
    exact ⟨q, hq, hrest⟩
  constructor
  · apply h.perms.mono
    intro t' p' hp'
    obtain ⟨q, hq, haddr, -⟩ := hback t' p' hp'
    exact ⟨q, hq, haddr⟩
  · exact h.chans.add ⟨chnum, addrGetPort peer, peer, none, t⟩ ⟨hvalid, hport, rfl⟩ hnum
  · intro t' p' hp'
    obtain ⟨-, -, -, hproper', -⟩ := hback t' p' hp'
    exact hproper'
  · intro t' p' port c hp' hl
    obtain ⟨q, hq, -, -, hlook⟩ := hback t' p' hp'
    rw [hlook] at hl
    split_ifs at hl with hnew
    · obtain rfl := Option.some.inj hl
      rw [hgetc, if_pos rfl]
      exact ⟨_, rfl, hnew.1.symm, hnew.2.symm⟩
    · obtain ⟨chn', hc, hrest⟩ := h.perm_chan t' q port c hq hl
      refine ⟨chn', ?_, hrest⟩
      rw [hgetc, if_neg, hc]
      rintro rfl
      rw [hnone] at hc
      cases hc
  · intro c chn' hc
    rw [hgetc] at hc
    split_ifs at hc with hcc
    · obtain rfl := Option.some.inj hc
      obtain ⟨p', hp', haddr, -, hlook⟩ := hgetp t p hp
      refine ⟨p', hp', ?_, ?_⟩
      · rw [haddr]
        exact addrEqNoPort_symm he
      · rw [hlook, if_pos ⟨rfl, rfl⟩, hcc]
    · obtain ⟨q, hq, hhost, hl⟩ := h.chan_owner c chn' hc
      obtain ⟨p', hp', haddr, -, hlook⟩ := hgetp _ q hq
      refine ⟨p', hp', haddr ▸ hhost, ?_⟩
      rw [hlook, if_neg, hl]
      rintro ⟨ht, hpp⟩
      rw [ht, hp] at hq
      obtain rfl := Option.some.inj hq
      rw [hpp, habs] at hl
      cases hl

/-- A channel is taken out of both tables. -/
theorem Linked.turnChannelDelete (h : a.Linked) (c : Place) : (a.turnChannelDelete c).Linked := by
  unfold Allocation.turnChannelDelete
  cases hc : a.chns.get c with
  | none => exact h
  | some chn =>
    obtain ⟨p, hp, hhost, hl⟩ := h.chan_owner c chn hc
    have hportc : chn.port = addrGetPort chn.peerAddr := (h.chans.valid c chn hc).2.2
    have hback : ∀ t' p', (a.addrToPerm.modify chn.owner fun p =>
        { p with chns := (p.chns.del (addrGetPort chn.peerAddr)).2 }).get t' = some p' →
        ∃ q, a.addrToPerm.get t' = some q ∧ p'.addr = q.addr ∧ p'.chns.Proper ∧
          ∀ port, p'.chns.lookup port =
            if t' = chn.owner ∧ port = chn.port then none else q.chns.lookup port := by
      intro t' p' hp'
      obtain ⟨q, hq, rfl⟩ := get_modify_some hp'
      refine ⟨q, hq, ?_⟩
      obtain ⟨hproper', hlook⟩ := (h.proper t' q hq).del (addrGetPort chn.peerAddr)
      split_ifs with ht
      · refine ⟨rfl, hproper', fun port => ?_⟩
        rw [hlook, hportc]
        simp only [ht, true_and]
      · refine ⟨rfl, h.proper t' q hq, fun port => ?_⟩
        simp only [ht, false_and, if_false]
    constructor
    · apply h.perms.mono
      intro t' p' hp'
      obtain ⟨q, hq, haddr, -⟩ := hback t' p' hp'
      exact ⟨q, hq, haddr⟩
    · apply h.chans.mono
      intro c' chn' hc'
      rw [Slots.get_erase] at hc'
      split_ifs at hc'
      exact ⟨chn', hc', rfl, rfl, rfl⟩
    · intro t' p' hp'
      obtain ⟨-, -, -, hproper', -⟩ := hback t' p' hp'
      exact hproper'
    · intro t' p' port c' hp' hl'
      obtain ⟨q, hq, -, -, hlook⟩ := hback t' p' hp'
      rw [hlook] at hl'
      split_ifs at hl' with hgone
      obtain ⟨chn', hc', howner, hport⟩ := h.perm_chan t' q port c' hq hl'
      refine ⟨chn', ?_, howner, hport⟩
      rw [Slots.get_erase, if_neg, hc']
      rintro rfl
      rw [hc] at hc'
      obtain rfl := Option.some.inj hc'
      exact hgone ⟨howner.symm, hport.symm⟩
    · intro c' chn' hc'
      rw [Slots.get_erase] at hc'
      split_ifs at hc' with hne
      obtain ⟨q, hq, hhost', hl'⟩ := h.chan_owner c' chn' hc'
      cases hp' : (a.addrToPerm.modify chn.owner fun p =>
          { p with chns := (p.chns.del (addrGetPort chn.peerAddr)).2 }).get chn'.owner with
      | none =>
        rw [Slots.get_modify] at hp'
        split_ifs at hp' with ht
        · rw [hp] at hp'
          cases hp'
        · rw [hq] at hp'
          cases hp'
      | some p' =>
        obtain ⟨q', hq', haddr, -, hlook⟩ := hback _ p' hp'
        rw [hq] at hq'
        obtain rfl := Option.some.inj hq'
        refine ⟨p', rfl, haddr ▸ hhost', ?_⟩
        rw [hlook, if_neg, hl']
        rintro ⟨ht, hpp⟩
        rw [ht, hp] at hq
        obtain rfl := Option.some.inj hq
        rw [hpp, hl] at hl'
        exact hne (Option.some.inj hl').symm

/-- The channels left when a permission is cleaned are those of the others. -/
theorem Linked.chns_turnPermissionClean (h : a.Linked) (t c : Place) (chn : ChInfo) :
    (a.turnPermissionClean t).chns.get c = some chn ↔
      a.chns.get c = some chn ∧ chn.owner ≠ t := by
  unfold Allocation.turnPermissionClean
  cases hp : a.addrToPerm.get t with
  | none =>
    refine ⟨fun hc => ⟨hc, ?_⟩, fun hc => hc.1⟩
    rintro rfl
    obtain ⟨p, hp', -⟩ := h.chan_owner c chn hc
    rw [hp] at hp'
    cases hp'
  | some p =>
    have hvalues : c ∈ p.chns.values ↔ ∃ chn, a.chns.get c = some chn ∧ chn.owner = t := by
      rw [(h.proper t p hp).mem_values]
      constructor
      · rintro ⟨port, hl⟩
        obtain ⟨chn, hc, howner, -⟩ := h.perm_chan t p port c hp hl
        exact ⟨chn, hc, howner⟩
      · rintro ⟨chn, hc, rfl⟩
        obtain ⟨p', hp', -, hl⟩ := h.chan_owner c chn hc
        rw [hp] at hp'
        obtain rfl := Option.some.inj hp'
        exact ⟨chn.port, hl⟩
    rw [Slots.get_foldl_erase]
    split_ifs with hc
    · obtain ⟨chn', hc', howner⟩ := hvalues.mp hc
      refine ⟨fun he => he.elim, ?_⟩
      rintro ⟨hc'', hne⟩
      rw [hc'] at hc''
      obtain rfl := Option.some.inj hc''
      exact absurd howner hne
    · exact ⟨fun hc' => ⟨hc', fun howner => hc (hvalues.mpr ⟨chn, hc', howner⟩)⟩,
        fun hc' => hc'.1⟩

/-- Cleaning a permission erases it and no other. -/
theorem perms_turnPermissionClean (a : Allocation) (t t' : Place) (p : TurnPermissionInfo) :
    (a.turnPermissionClean t).addrToPerm.get t' = some p ↔
      a.addrToPerm.get t' = some p ∧ t' ≠ t := by
  unfold Allocation.turnPermissionClean
  cases hp : a.addrToPerm.get t with
  | none =>
    refine ⟨fun hp' => ⟨hp', ?_⟩, fun hp' => hp'.1⟩
    rintro rfl
    rw [hp] at hp'
    cases hp'
  | some q =>
    rw [Slots.get_erase]
    split_ifs with ht
    · simp [ht]
    · simp [ht]

/-- A permission goes with all its channels. -/
theorem Linked.turnPermissionClean (h : a.Linked) (t : Place) :
    (a.turnPermissionClean t).Linked := by
  have hget := h.chns_turnPermissionClean t
  have hperm := a.perms_turnPermissionClean t
  constructor
  · apply h.perms.mono
    intro t' p' hp'
    exact ⟨p', ((hperm t' p').mp hp').1, rfl⟩
  · apply h.chans.mono
    intro c chn hc
    exact ⟨chn, ((hget c chn).mp hc).1, rfl, rfl, rfl⟩
  · intro t' p' hp'
    exact h.proper t' p' ((hperm t' p').mp hp').1
  · intro t' p' port c hp' hl
    obtain ⟨hp', hne⟩ := (hperm t' p').mp hp'
    obtain ⟨chn, hc, howner, hport⟩ := h.perm_chan t' p' port c hp' hl
    exact ⟨chn, (hget c chn).mpr ⟨hc, howner ▸ hne⟩, howner, hport⟩
  · intro c chn hc
    obtain ⟨hc, hne⟩ := (hget c chn).mp hc
    obtain ⟨q, hq, hrest⟩ := h.chan_owner c chn hc
    exact ⟨q, (hperm _ q).mpr ⟨hq, hne⟩, hrest⟩

/-- Where the images agree, both values are there or neither is. -/
theorem exists_of_map_eq {α β : Type*} {f : α → β} {x y : Option α} (h : x.map f = y.map f) {z : α}
    (hx : x = some z) : ∃ w, y = some w ∧ f z = f w := by
  rw [hx, Option.map_some] at h
  obtain ⟨w, hw, heq⟩ := Option.map_eq_some_iff.mp h.symm
  exact ⟨w, hw, heq.symm⟩

/-- Timers are no part of the references. -/
theorem Linked.of_timers (h : a.Linked) {b : Allocation}
    (hperm : ∀ t, (b.addrToPerm.get t).map (fun p => (p.addr, p.chns)) =
      (a.addrToPerm.get t).map fun p => (p.addr, p.chns))
    (hchan : ∀ c, (b.chns.get c).map (fun chn => (chn.chnum, chn.port, chn.peerAddr, chn.owner)) =
      (a.chns.get c).map fun chn => (chn.chnum, chn.port, chn.peerAddr, chn.owner)) :
    b.Linked := by
  have hp : ∀ t p', b.addrToPerm.get t = some p' →
      ∃ p, a.addrToPerm.get t = some p ∧ p'.addr = p.addr ∧ p'.chns = p.chns := by
    intro t p' hpb
    obtain ⟨p, hpa, heq⟩ := exists_of_map_eq (hperm t) hpb
    exact ⟨p, hpa, congrArg Prod.fst heq, congrArg Prod.snd heq⟩
  have hp' : ∀ t p, a.addrToPerm.get t = some p →
      ∃ p', b.addrToPerm.get t = some p' ∧ p'.addr = p.addr ∧ p'.chns = p.chns := by
    intro t p hpa
    obtain ⟨p', hpb, heq⟩ := exists_of_map_eq (hperm t).symm hpa
    exact ⟨p', hpb, (congrArg Prod.fst heq).symm, (congrArg Prod.snd heq).symm⟩
  have hc : ∀ c chn', b.chns.get c = some chn' → ∃ chn, a.chns.get c = some chn ∧
      chn'.chnum = chn.chnum ∧ chn'.port = chn.port ∧ chn'.peerAddr = chn.peerAddr ∧
        chn'.owner = chn.owner := by
    intro c chn' hcb
    obtain ⟨chn, hca, heq⟩ := exists_of_map_eq (hchan c) hcb
    simp only [Prod.mk.injEq] at heq
    exact ⟨chn, hca, heq⟩
  have hc' : ∀ c chn, a.chns.get c = some chn → ∃ chn', b.chns.get c = some chn' ∧
      chn'.port = chn.port ∧ chn'.owner = chn.owner := by
    intro c chn hca
    obtain ⟨chn', hcb, heq⟩ := exists_of_map_eq (hchan c).symm hca
    simp only [Prod.mk.injEq] at heq
    exact ⟨chn', hcb, heq.2.1.symm, heq.2.2.2.symm⟩
  constructor
  · apply h.perms.mono
    intro t p' hpb
    obtain ⟨p, hpa, haddr, -⟩ := hp t p' hpb
    exact ⟨p, hpa, haddr⟩
  · apply h.chans.mono
    intro c chn' hcb
    obtain ⟨chn, hca, h1, h2, h3, -⟩ := hc c chn' hcb
    exact ⟨chn, hca, h1, h2, h3⟩
  · intro t p' hpb
    obtain ⟨p, hpa, -, hmap⟩ := hp t p' hpb
    rw [hmap]
    exact h.proper t p hpa
  · intro t p' port c hpb hl
    obtain ⟨p, hpa, -, hmap⟩ := hp t p' hpb
    rw [hmap] at hl
    obtain ⟨chn, hca, howner, hport⟩ := h.perm_chan t p port c hpa hl
    obtain ⟨chn', hcb, hport', howner'⟩ := hc' c chn hca
    exact ⟨chn', hcb, howner'.trans howner, hport'.trans hport⟩
  · intro c chn' hcb
    obtain ⟨chn, hca, -, hport, hpeer, howner⟩ := hc c chn' hcb
    obtain ⟨p, hpa, hhost, hl⟩ := h.chan_owner c chn hca
    obtain ⟨p', hpb, haddr, hmap⟩ := hp' _ p hpa
    refine ⟨p', ?_, ?_, ?_⟩
    · rw [howner]
      exact hpb
    · rw [hpeer, haddr]
      exact hhost
    · rw [hport, hmap]
      exact hl

end Operations

end Allocation

end WebrtcCaller.Turn
