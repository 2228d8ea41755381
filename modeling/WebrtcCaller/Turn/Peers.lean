import Mathlib
import WebrtcCaller.Core.Boxes
import WebrtcCaller.Turn.Grants

/-!
# Denied and allowed peers

`good_peer_addr` of `ns_turn_server.c` and the address ranges of `ns_turn_ioaddr.c`: which peers a
server relays for. Addresses in ranges have no port. Ranges of IPv4 addresses are intervals; IPv6
addresses are compared byte by byte, so that their ranges are boxes.
-/

namespace WebrtcCaller.Turn

/-- `sa_family`, as the families compare. -/
def saFamily : IoaAddr → Nat
  | .unspec => 0
  | .inet _ _ => 2
  | .inet6 _ _ => 10

/-- `addr_less_eq`: the bytes are compared one by one. -/
def addrLessEq : IoaAddr → IoaAddr → Bool
  | .unspec, .unspec => true
  | .inet a1 _, .inet a2 _ => decide (a1.toNat ≤ a2.toNat)
  | .inet6 a1 _, .inet6 a2 _ =>
    ((be 16 a1.toNat).zip (be 16 a2.toNat)).all fun (b1, b2) => decide (b1 ≤ b2)
  | a1, a2 => decide (saFamily a1 < saFamily a2)

/-- A range of addresses, by its bounds. -/
structure IoaAddrRange where
  min : IoaAddr
  max : IoaAddr

/-- `ioa_addr_in_range`: an upper bound of zeros is no bound. -/
def ioaAddrInRange (range : IoaAddrRange) (addr : IoaAddr) : Bool :=
  if addrAny range.min || addrLessEq range.min addr then
    if addrAny range.max then true else addrLessEq addr range.max
  else false

/-- The first byte is above 223, or 255 in an IPv6 address. -/
def ioaAddrIsMulticast : IoaAddr → Bool
  | .unspec => false
  | .inet addr _ => decide (223 < addr.toNat / 2 ^ 24)
  | .inet6 addr _ => addr.toNat / 2 ^ 120 == 255

/-- `ioa_addr_is_loopback`. -/
def ioaAddrIsLoopback : IoaAddr → Bool
  | .unspec => false
  | .inet addr _ => addr.toNat / 2 ^ 24 == 127
  | .inet6 addr _ => addr == 1

/-- `ioa_addr_is_zero`. -/
def ioaAddrIsZero : IoaAddr → Bool
  | .unspec => false
  | .inet addr _ => addr.toNat / 2 ^ 24 == 0
  | .inet6 addr _ => addr == 0

/-- An `ip_range_t`. -/
structure IpRange where
  realm : String
  enc : IoaAddrRange

/-- What a server is told about peers; the lists without a prefix can be reloaded. -/
structure PeerRules where
  noMulticastPeers : Bool
  allowLoopbackPeers : Bool
  ipWhitelist : Option (List IpRange)
  whitelist : Option (List IpRange)
  ipBlacklist : Option (List IpRange)
  blacklist : Option (List IpRange)

/-- `CHECK_REALM`: a range of another realm is passed over. -/
def checkRealm (r realm : String) : Bool := r == "" || realm == "" || r == realm

/-- The loop over a list, from its last range. -/
def inList (list : Option (List IpRange)) (realm : String) (peerAddr : IoaAddr) : Bool :=
  match list with
  | none => false
  | some rs => rs.reverse.any fun r => checkRealm r.realm realm && ioaAddrInRange r.enc peerAddr

/-- `good_peer_addr`: the lists of allowed addresses come first. -/
def goodPeerAddr (rules : PeerRules) (realm : String) (peerAddr : IoaAddr) : Bool :=
  if rules.noMulticastPeers && ioaAddrIsMulticast peerAddr then false
  else if !rules.allowLoopbackPeers && ioaAddrIsLoopback peerAddr then false
  else if ioaAddrIsZero peerAddr then false
  else if inList rules.ipWhitelist realm peerAddr then true
  else if inList rules.whitelist realm peerAddr then true
  else if inList rules.ipBlacklist realm peerAddr then false
  else if inList rules.blacklist realm peerAddr then false
  else true

/-! ### Ranges -/

/-- The upper bound of a range; zero stands for none. -/
def upper {w : Nat} (hi : BitVec w) : BitVec w := if hi = 0 then BitVec.allOnes w else hi

/-- The bytes of an IPv6 address are its number. -/
theorem ofBe_inet6 (a : BitVec 128) : ofBe (be 16 a.toNat) = a.toNat :=
  ofBe_be (a.isLt.trans_eq (by norm_num))

/-- An IPv4 address without a port is any address when it is zero. -/
theorem addrAny_inet {a : BitVec 32} : addrAny (.inet a 0) = true ↔ a = 0 := by simp [addrAny]

theorem addrAny_inet6 {a : BitVec 128} : addrAny (.inet6 a 0) = true ↔ a = 0 := by simp [addrAny]

/-- IPv6 addresses are compared byte by byte. -/
theorem addrLessEq_inet6 {a b : BitVec 128} {p q : BitVec 16} :
    addrLessEq (.inet6 a p) (.inet6 b q) = true ↔
      List.Forall₂ (· ≤ ·) (be 16 a.toNat) (be 16 b.toNat) := by
  rw [List.forall₂_iff_zip, addrLessEq, List.all_eq_true]
  simp

/-- An IPv4 range is an interval. -/
theorem inet_inRange {lo hi a : BitVec 32} {port : BitVec 16} :
    ioaAddrInRange ⟨.inet lo 0, .inet hi 0⟩ (.inet a port) = true ↔ lo ≤ a ∧ a ≤ upper hi := by
  have hlow : (addrAny (.inet lo 0) || addrLessEq (.inet lo 0) (.inet a port)) = true ↔ lo ≤ a := by
    rw [Bool.or_eq_true, addrAny_inet, addrLessEq, decide_eq_true_iff]
    exact or_iff_right_of_imp fun hzero => hzero ▸ Nat.zero_le _
  unfold ioaAddrInRange upper
  by_cases hle : lo ≤ a
  · rw [if_pos (hlow.mpr hle)]
    by_cases hzero : hi = 0
    · have htop : a ≤ BitVec.allOnes 32 := by
        rw [BitVec.le_def, BitVec.toNat_allOnes]
        exact Nat.le_sub_one_of_lt a.isLt
      rw [if_pos (addrAny_inet.mpr hzero), if_pos hzero]
      exact iff_of_true rfl ⟨hle, htop⟩
    · rw [if_neg (hzero ∘ addrAny_inet.mp), if_neg hzero, addrLessEq, decide_eq_true_iff]
      exact (and_iff_right hle).symm
  · rw [if_neg (hle ∘ hlow.mp)]
    simp [hle]

/-- An IPv6 range is a box of bytes. -/
theorem inet6_inRange {lo hi a : BitVec 128} {port : BitVec 16} :
    ioaAddrInRange ⟨.inet6 lo 0, .inet6 hi 0⟩ (.inet6 a port) = true ↔
      List.Forall₂ (· ≤ ·) (be 16 lo.toNat) (be 16 a.toNat) ∧
        List.Forall₂ (· ≤ ·) (be 16 a.toNat) (be 16 (upper hi).toNat) := by
  have hlow : (addrAny (.inet6 lo 0) || addrLessEq (.inet6 lo 0) (.inet6 a port)) = true ↔
      List.Forall₂ (· ≤ ·) (be 16 lo.toNat) (be 16 a.toNat) := by
    rw [Bool.or_eq_true, addrLessEq_inet6]
    refine or_iff_right_of_imp fun hzero => ?_
    rw [addrAny_inet6.mp hzero]
    exact forall₂_zeros (by decide) (by simp)
  unfold ioaAddrInRange upper
  by_cases hle : List.Forall₂ (· ≤ ·) (be 16 lo.toNat) (be 16 a.toNat)
  · rw [if_pos (hlow.mpr hle)]
    by_cases hzero : hi = 0
    · have htop : List.Forall₂ (· ≤ ·) (be 16 a.toNat) (be 16 (BitVec.allOnes 128).toNat) :=
        forall₂_ones (by decide) (by simp)
      rw [if_pos (addrAny_inet6.mpr hzero), if_pos hzero]
      exact iff_of_true rfl ⟨hle, htop⟩
    · rw [if_neg (hzero ∘ addrAny_inet6.mp), if_neg hzero, addrLessEq_inet6]
      exact (and_iff_right hle).symm
  · rw [if_neg (hle ∘ hlow.mp)]
    exact iff_of_false Bool.false_ne_true fun h => hle h.1

/-- **Ranges.** A range of IPv4 addresses holds exactly the addresses between its bounds. A range of
IPv6 addresses does so exactly when behind the first byte in which its bounds differ the lower one
has only zeros and the upper one only ones, or when no address is between them. -/
theorem inRange_iff_between :
    (∀ (lo hi a : BitVec 32) (port : BitVec 16),
      ioaAddrInRange ⟨.inet lo 0, .inet hi 0⟩ (.inet a port) = true ↔ lo ≤ a ∧ a ≤ upper hi) ∧
    ∀ lo hi : BitVec 128,
      (∀ (a : BitVec 128) (port : BitVec 16),
        ioaAddrInRange ⟨.inet6 lo 0, .inet6 hi 0⟩ (.inet6 a port) = true ↔
          lo ≤ a ∧ a ≤ upper hi) ↔
        aligned (be 16 lo.toNat) (be 16 (upper hi).toNat) = true ∨ upper hi < lo := by
  refine ⟨fun _ _ _ _ => inet_inRange, fun lo hi => ⟨fun h => ?_, fun h a port => ?_⟩⟩
  · by_contra hno
    obtain ⟨halign, hempty⟩ := not_or.mp hno
    have hle : ofBe (be 16 lo.toNat) ≤ ofBe (be 16 (upper hi).toNat) := by
      rw [ofBe_inet6, ofBe_inet6]
      exact Nat.le_of_not_lt hempty
    obtain ⟨a, hlen, hlow, hhigh, hout⟩ :=
      exists_outside_box (by simpa using halign) (by simp) hle
    rw [length_be] at hlen
    have hlt : ofBe a < 2 ^ 128 := (ofBe_lt a).trans_eq (by rw [hlen]; norm_num)
    have hback : be 16 (BitVec.ofNat 128 (ofBe a)).toNat = a := by
      rw [BitVec.toNat_ofNat, Nat.mod_eq_of_lt hlt, ← hlen, be_ofBe]
    have ha := h (BitVec.ofNat 128 (ofBe a)) 0
    rw [inet6_inRange, hback] at ha
    refine hout (ha.mpr ?_)
    rw [BitVec.le_def, BitVec.le_def, BitVec.toNat_ofNat, Nat.mod_eq_of_lt hlt, ← ofBe_inet6 lo,
      ← ofBe_inet6 (upper hi)]
    exact ⟨hlow, hhigh⟩
  · rw [inet6_inRange]
    by_cases hle : ofBe (be 16 lo.toNat) ≤ ofBe (be 16 (upper hi).toNat)
    · have halign := h.resolve_right fun hempty => by
        rw [ofBe_inet6, ofBe_inet6] at hle
        exact absurd hle (Nat.not_le_of_lt hempty)
      rw [box_eq_interval halign (by simp) (by simp) hle, ofBe_inet6, ofBe_inet6, ofBe_inet6]
      exact Iff.rfl
    · refine iff_of_false (fun hbox => hle ((ofBe_mono hbox.1).trans (ofBe_mono hbox.2))) ?_
      rw [ofBe_inet6, ofBe_inet6] at hle
      exact fun hbetween => hle (Nat.le_trans hbetween.1 hbetween.2)

/-- An address between the bounds of a range that the range does not hold. -/
example : let lo : BitVec 128 := 0x20010db8000000000000000000000005
    let hi : BitVec 128 := 0x20010db8000100000000000000000000
    let a : BitVec 128 := 0x20010db800000000000000000000ffff
    (lo ≤ a ∧ a ≤ hi) ∧ ioaAddrInRange ⟨.inet6 lo 0, .inet6 hi 0⟩ (.inet6 a 0) = false := by
  decide

/-! ### Rules -/

/-- The range is one of a list, and for the realm, and holds the address. -/
def Covers (list : Option (List IpRange)) (realm : String) (peerAddr : IoaAddr) : Prop :=
  ∃ rs ∈ list, ∃ r ∈ rs, (r.realm = "" ∨ realm = "" ∨ r.realm = realm) ∧
    ioaAddrInRange r.enc peerAddr = true

/-- What the rules allow: no multicast and no loopback unless they are let in, no address that means
this host, and nothing denied that is not allowed. -/
structure PeerRules.Permit (rules : PeerRules) (realm : String) (peerAddr : IoaAddr) : Prop where
  multicast : rules.noMulticastPeers = true → ioaAddrIsMulticast peerAddr = false
  loopback : rules.allowLoopbackPeers = false → ioaAddrIsLoopback peerAddr = false
  zero : ioaAddrIsZero peerAddr = false
  listed : Covers rules.ipWhitelist realm peerAddr ∨ Covers rules.whitelist realm peerAddr ∨
    (¬ Covers rules.ipBlacklist realm peerAddr ∧ ¬ Covers rules.blacklist realm peerAddr)

/-- A list covers an address by one of its ranges for the realm. -/
theorem inList_iff {list : Option (List IpRange)} {realm : String} {peerAddr : IoaAddr} :
    inList list realm peerAddr = true ↔ Covers list realm peerAddr := by
  unfold inList Covers
  cases list with
  | none => simp
  | some rs => simp [checkRealm, or_assoc]

/-- The code permits what the rules permit. -/
theorem goodPeerAddr_iff {rules : PeerRules} {realm : String} {peerAddr : IoaAddr} :
    goodPeerAddr rules realm peerAddr = true ↔ rules.Permit realm peerAddr := by
  have hpermit : rules.Permit realm peerAddr ↔
      (rules.noMulticastPeers = true → ioaAddrIsMulticast peerAddr = false) ∧
      (rules.allowLoopbackPeers = false → ioaAddrIsLoopback peerAddr = false) ∧
      ioaAddrIsZero peerAddr = false ∧
      (Covers rules.ipWhitelist realm peerAddr ∨ Covers rules.whitelist realm peerAddr ∨
        (¬ Covers rules.ipBlacklist realm peerAddr ∧ ¬ Covers rules.blacklist realm peerAddr)) :=
    ⟨fun h => ⟨h.multicast, h.loopback, h.zero, h.listed⟩, fun ⟨hm, hl, hz, hs⟩ => ⟨hm, hl, hz, hs⟩⟩
  rw [hpermit, ← inList_iff, ← inList_iff, ← inList_iff, ← inList_iff, goodPeerAddr]
  generalize ioaAddrIsMulticast peerAddr = multicast
  generalize ioaAddrIsLoopback peerAddr = loopback
  generalize inList rules.ipWhitelist realm peerAddr = allowed
  generalize inList rules.whitelist realm peerAddr = allowed'
  split_ifs <;> simp_all

/-! The port of a peer does not count. -/

theorem ioaAddrInRange_host (range : IoaAddrRange) (addr : IoaAddr) :
    ioaAddrInRange range (host addr) = ioaAddrInRange range addr := by
  have hmin : addrLessEq range.min (host addr) = addrLessEq range.min addr := by
    cases range.min <;> cases addr <;> rfl
  have hmax : addrLessEq (host addr) range.max = addrLessEq addr range.max := by
    cases range.max <;> cases addr <;> rfl
  rw [ioaAddrInRange, hmin, hmax, ioaAddrInRange]

theorem inList_host (list : Option (List IpRange)) (realm : String) (peerAddr : IoaAddr) :
    inList list realm (host peerAddr) = inList list realm peerAddr := by
  cases list with
  | none => rfl
  | some rs => simp only [inList, ioaAddrInRange_host]

theorem goodPeerAddr_host (rules : PeerRules) (realm : String) (peerAddr : IoaAddr) :
    goodPeerAddr rules realm (host peerAddr) = goodPeerAddr rules realm peerAddr := by
  have hmulticast : ioaAddrIsMulticast (host peerAddr) = ioaAddrIsMulticast peerAddr := by
    cases peerAddr <;> rfl
  have hloopback : ioaAddrIsLoopback (host peerAddr) = ioaAddrIsLoopback peerAddr := by
    cases peerAddr <;> rfl
  have hzero : ioaAddrIsZero (host peerAddr) = ioaAddrIsZero peerAddr := by
    cases peerAddr <;> rfl
  simp only [goodPeerAddr, hmulticast, hloopback, hzero, inList_host]

namespace Session

/-- The peer that relayed data go to or come from. -/
def farSide (e : Event) : Output → Option IoaAddr
  | .toPeer peer _ => some peer
  | .toClientData peer _ => some peer
  | .toClientChannel _ _ =>
    match e with
    | .peerData _ srcAddr _ => some srcAddr
    | _ => none

variable {srv : TurnServer} {ss : Session}

/-- Data are relayed only for permitted hosts. -/
theorem host_of_relayed (hl : ss.alloc.Linked) (hrelay : srv.serverRelay = false) {e : Event}
    {o : Output} (ho : o ∈ ss.relayed srv e) :
    ∃ p, farSide e o = some p ∧ host p ∈ ss.relay.hosts := by
  have hstep := (refines_step srv hl e).step
  generalize ss.relayed srv e = out at hstep ho
  generalize ss.reply srv e = reply at hstep
  generalize (ss.step srv e).relay = r' at hstep
  have hopen : ¬ srv.serverRelay = true := by simp [hrelay]
  cases hstep with
  | sent _ hp _ =>
    obtain rfl := List.mem_singleton.mp ho
    exact ⟨_, rfl, hp.resolve_right hopen⟩
  | channelData _ _ hp _ =>
    obtain rfl := List.mem_singleton.mp ho
    exact ⟨_, rfl, hl.host_of_peerOf hp⟩
  | peerChannel _ _ _ hp _ =>
    obtain rfl := List.mem_singleton.mp ho
    exact ⟨_, rfl, hp⟩
  | peerIndication _ _ _ hp _ =>
    obtain rfl := List.mem_singleton.mp ho
    exact ⟨_, rfl, hp.resolve_right hopen⟩
  | _ => cases ho

/-- **Denied peers.** Whatever a server that relays for no other server relays after a run, goes to
or comes from a peer that its rules allow, where the rules stay the same for the whole run: lists
loaded anew from the database are not looked at. -/
theorem relayed_permitted (rules : PeerRules) (realm : String) (srv : TurnServer)
    (hgood : srv.goodPeerAddr = goodPeerAddr rules realm) (hrelay : srv.serverRelay = false)
    (isTcpRelay : Bool) (relaySocket : Family → Bool) (ctime : Nat) (es : List Event) (e : Event) :
    ∀ o ∈ (es.foldl (step srv) (fresh isTcpRelay relaySocket ctime)).relayed srv e,
      ∃ peer, farSide e o = some peer ∧ rules.Permit realm peer := by
  intro o ho
  have hlinked := linked_after srv isTcpRelay relaySocket ctime es
  obtain ⟨p, hfar, hp⟩ := host_of_relayed hlinked hrelay ho
  -- the host was granted with a good address of it, and the port does not count
  obtain ⟨-, -, -, -, ⟨-, q, -, hq, hgranted⟩, -⟩ :=
    permittedSince_of_mem srv isTcpRelay relaySocket ctime hp
  rw [hgood, ← goodPeerAddr_host, hq, goodPeerAddr_host] at hgranted
  exact ⟨p, hfar, goodPeerAddr_iff.mp hgranted⟩

/-- Private addresses are denied, but for one. -/
def privateRules : PeerRules where
  noMulticastPeers := true
  allowLoopbackPeers := false
  ipWhitelist := some [⟨"", ⟨.inet 0x0A000001 0, .inet 0x0A000001 0⟩⟩]
  whitelist := none
  ipBlacklist := some [⟨"", ⟨.inet 0x0A000000 0, .inet 0x0AFFFFFF 0⟩⟩]
  blacklist := none

/-- Data are sent to a host the rules permit. -/
theorem relayed_permitted_send :
    ∃ peer, farSide (.send 64 [.xorPeerAddress (.inet 0x0A000001 443), .data [1, 2]])
      (.toPeer (.inet 0x0A000001 443) [1, 2]) = some peer ∧ privateRules.Permit "" peer := by
  apply relayed_permitted privateRules ""
    { strict with goodPeerAddr := goodPeerAddr privateRules "" } rfl rfl false (fun _ => true) 0
    [.createPermission [.xorPeerAddress (.inet 0x0A000001 80)]]
  exact List.Mem.head _

end Session

end WebrtcCaller.Turn
