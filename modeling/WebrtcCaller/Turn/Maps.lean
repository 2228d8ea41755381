import Mathlib
import WebrtcCaller.Core.Run
import WebrtcCaller.Core.Slots
import WebrtcCaller.Turn.Address

/-!
# Local maps and address maps

The two hash maps of `ns_turn_maps.c` that the allocations rest on. A local map looks for a key
only among the first slots of a bucket before it stores, and not behind the first gap: it is a map
as long as no key is stored that stands further on. An address map looks through the whole bucket.
-/

namespace WebrtcCaller.Turn

open WebrtcCaller

/-- An `lm_map`: keys and values in eight buckets. Slots below `lmMapArraySize` are the main ones,
the others the extra ones. -/
abbrev LmMap (V : Type*) := Slots (Nat × V)

/-- `LM_MAP_HASH_SIZE`. -/
def lmMapHashSize : Nat := 8
/-- `LM_MAP_ARRAY_SIZE`. -/
def lmMapArraySize : Nat := 3

namespace LmMap

variable {V : Type*}

/-- `lm_map_init`. -/
def init : LmMap V := Slots.empty lmMapArraySize

/-- The bucket of a key. -/
def index (key : Nat) : Nat := key % lmMapHashSize

/-- The main slot at which the scan of `lm_map_put` stops: the key itself, or a gap. -/
def stop (m : LmMap V) (key : Nat) : Option (Option (Nat × V)) :=
  ((m.bucket (index key)).take lmMapArraySize).find? fun s => s.isNone || s.any (·.1 == key)

/-- `lm_map_put`; a value is a pointer, and a null one is refused like the key zero. -/
def put [DecidableEq V] (m : LmMap V) (key : Nat) (value : Option V) : Bool × LmMap V :=
  if key = 0 then (false, m)
  else
    match value with
    | none => (false, m)
    | some value =>
      match m.stop key with
      | some (some e) => (e.2 == value, m)
      | _ => (true, m.write (m.vacant (index key)) (some (key, value)))

/-- The slot of a key. -/
def slot (m : LmMap V) (key : Nat) : Option Place :=
  if key = 0 then none else m.find (index key) (·.1 == key)

/-- `lm_map_get`. -/
def lookup (m : LmMap V) (key : Nat) : Option V :=
  (m.slot key).bind fun r => (m.get r).map (·.2)

/-- `lm_map_del`. -/
def del (m : LmMap V) (key : Nat) : Bool × LmMap V :=
  match m.slot key with
  | some r => (true, m.write r none)
  | none => (false, m)

/-- The values in the order of `lm_map_foreach`. -/
def values (m : LmMap V) : List V :=
  (List.range lmMapHashSize).flatMap fun b => (m.bucket b).filterMap fun s => s.map (·.2)

/-- Keys stand in their own buckets, each once. -/
structure Proper (m : LmMap V) : Prop where
  nonzero : ∀ r e, m.get r = some e → e.1 ≠ 0
  bucket : ∀ r e, m.get r = some e → r.1 = index e.1
  unique : ∀ r r' e e', m.get r = some e → m.get r' = some e' → e.1 = e'.1 → r = r'

theorem proper_init : (init : LmMap V).Proper := by
  constructor
  · intro r e h
    simp [init] at h
  · intro r e h
    simp [init] at h
  · intro r r' e e' h
    simp [init] at h

variable {m : LmMap V} {key : Nat}

/-- The slot of a key is in its bucket and holds the key. -/
theorem slot_some {r : Place} (h : m.slot key = some r) :
    key ≠ 0 ∧ r.1 = index key ∧ ∃ v, m.get r = some (key, v) := by
  unfold slot at h
  split_ifs at h with h0
  obtain ⟨hb, ⟨k, v⟩, he, hk⟩ := Slots.find_some h
  obtain rfl : k = key := by simpa using hk
  exact ⟨h0, hb, v, he⟩

/-- A key that is stored is found where it is. -/
theorem Proper.slot_eq (h : m.Proper) {r : Place} {v : V} (hr : m.get r = some (key, v)) :
    m.slot key = some r := by
  have hb : r.1 = index key := h.bucket r _ hr
  rw [slot, if_neg (h.nonzero r _ hr), ← hb]
  apply Slots.find_eq_of_unique hr (by simp)
  intro r' e' _ he' hk
  exact h.unique r' r e' _ he' hr (by simpa using hk)

/-- A lookup finds exactly what stands somewhere in the map. -/
theorem Proper.lookup_eq_some (h : m.Proper) {v : V} :
    m.lookup key = some v ↔ ∃ r, m.get r = some (key, v) := by
  constructor
  · intro hl
    unfold lookup at hl
    obtain ⟨r, hr, hv⟩ := Option.bind_eq_some_iff.mp hl
    obtain ⟨-, -, v', he⟩ := slot_some hr
    rw [he] at hv
    obtain rfl : v' = v := by simpa using hv
    exact ⟨r, he⟩
  · rintro ⟨r, hr⟩
    rw [lookup, h.slot_eq hr, Option.bind_some, hr]
    rfl

/-- A key is absent exactly when no slot holds it. -/
theorem Proper.lookup_eq_none (h : m.Proper) :
    m.lookup key = none ↔ ∀ r v, m.get r ≠ some (key, v) := by
  constructor
  · intro hn r v hr
    rw [h.lookup_eq_some.mpr ⟨r, hr⟩] at hn
    cases hn
  · intro hall
    cases hl : m.lookup key with
    | none => rfl
    | some v =>
      obtain ⟨r, hr⟩ := h.lookup_eq_some.mp hl
      exact absurd hr (hall r v)

/-- The values are those of the lookups. -/
theorem Proper.mem_values (h : m.Proper) {v : V} :
    v ∈ m.values ↔ ∃ key, m.lookup key = some v := by
  simp only [values, List.mem_flatMap, List.mem_range, List.mem_filterMap, Option.map_eq_some_iff,
    h.lookup_eq_some]
  constructor
  · rintro ⟨b, -, s, hs, ⟨key, w⟩, rfl, rfl⟩
    obtain ⟨i, hi, he⟩ := List.getElem_of_mem hs
    refine ⟨key, (b, i), ?_⟩
    rw [Slots.get, List.getElem?_eq_getElem hi, he]
    rfl
  · rintro ⟨key, r, hr⟩
    have hb : r.1 = index key := h.bucket r _ hr
    have hlt := Slots.lt_of_get hr
    refine ⟨r.1, ?_, some (key, v), ?_, (key, v), rfl, rfl⟩
    · rw [hb, index]
      exact Nat.mod_lt _ (by decide)
    · rw [Slots.get, List.getElem?_eq_getElem hlt, Option.join_some] at hr
      rw [← hr]
      exact List.getElem_mem hlt

/-- The scan of a put stops at a key only where the key stands. -/
theorem stop_some {e : Nat × V} (h : m.stop key = some (some e)) :
    e.1 = key ∧ ∃ r, m.get r = some e := by
  unfold stop at h
  have htest := List.find?_some h
  have hmem := List.mem_of_mem_take (List.mem_of_find?_eq_some h)
  refine ⟨by simpa using htest, ?_⟩
  obtain ⟨i, hi, he⟩ := List.getElem_of_mem hmem
  refine ⟨(index key, i), ?_⟩
  rw [Slots.get, List.getElem?_eq_getElem hi, he]
  rfl

/-- A null value is refused, whatever the key. -/
theorem put_null [DecidableEq V] (m : LmMap V) (key : Nat) : m.put key none = (false, m) := by
  unfold put
  split_ifs <;> rfl

/-- A key that the scan meets is not stored again; the answer compares the values. -/
theorem put_met [DecidableEq V] {e : Nat × V} {v : V} (hk : key ≠ 0)
    (he : m.stop key = some (some e)) : m.put key (some v) = (e.2 == v, m) := by
  rw [put, if_neg hk]
  simp only [he]

/-- A key that is not in the map is stored in the first gap. -/
theorem Proper.put_absent [DecidableEq V] (h : m.Proper) {v : V} (hk : key ≠ 0)
    (habs : m.lookup key = none) :
    m.put key (some v) = (true, m.write (m.vacant (index key)) (some (key, v))) := by
  unfold put
  rw [if_neg hk]
  simp only
  split
  · rename_i e he
    obtain ⟨rfl, r, hr⟩ := stop_some he
    exact absurd hr (h.lookup_eq_none.mp habs r e.2)
  · rfl

/-- A key that was absent may be stored. -/
theorem Proper.of_store (h : m.Proper) {v : V} (hk : key ≠ 0) (habs : m.lookup key = none) :
    Proper (m.write (m.vacant (index key)) (some (key, v))) := by
  have hfit := m.fits_vacant (index key)
  have hnone := h.lookup_eq_none.mp habs
  constructor
  · intro r e he
    rw [Slots.get_write hfit] at he
    split_ifs at he with hr
    · obtain rfl := Option.some.inj he
      exact hk
    · exact h.nonzero r e he
  · intro r e he
    rw [Slots.get_write hfit] at he
    split_ifs at he with hr
    · obtain rfl := Option.some.inj he
      rw [hr]
      rfl
    · exact h.bucket r e he
  · intro r r' e e' he he' hee
    rw [Slots.get_write hfit] at he he'
    split_ifs at he he' with hr hr' hr'
    · rw [hr, hr']
    · obtain rfl := Option.some.inj he
      obtain rfl : key = e'.1 := hee
      exact absurd he' (hnone r' e'.2)
    · obtain rfl := Option.some.inj he'
      obtain rfl : e.1 = key := hee
      exact absurd he (hnone r e.2)
    · exact h.unique r r' e e' he he' hee

/-- Any slot may be emptied. -/
theorem Proper.of_erase (h : m.Proper) {r : Place} (hfit : m.Fits r) : Proper (m.write r none) := by
  have hsub : ∀ r' e, (m.write r none).get r' = some e → m.get r' = some e := by
    intro r' e he
    rw [Slots.get_write hfit] at he
    split_ifs at he
    exact he
  constructor
  · exact fun r' e he => h.nonzero r' e (hsub r' e he)
  · exact fun r' e he => h.bucket r' e (hsub r' e he)
  · exact fun r1 r2 e e' he he' => h.unique r1 r2 e e' (hsub r1 e he) (hsub r2 e' he')

/-- Lookups after a put of a new key. -/
theorem Proper.lookup_store (h : m.Proper) {v : V} (hk : key ≠ 0) (habs : m.lookup key = none)
    (key' : Nat) :
    lookup (m.write (m.vacant (index key)) (some (key, v))) key' =
      if key' = key then some v else m.lookup key' := by
  have hfit := m.fits_vacant (index key)
  have hproper := h.of_store (v := v) hk habs
  split_ifs with he
  · subst he
    exact hproper.lookup_eq_some.mpr ⟨_, Slots.get_write_self hfit⟩
  · apply Option.ext
    intro w
    rw [hproper.lookup_eq_some, h.lookup_eq_some]
    constructor
    · rintro ⟨r, hr⟩
      rw [Slots.get_write hfit] at hr
      split_ifs at hr
      · exact absurd (congrArg Prod.fst (Option.some.inj hr)) (Ne.symm he)
      · exact ⟨r, hr⟩
    · rintro ⟨r, hr⟩
      refine ⟨r, ?_⟩
      rw [Slots.get_write_ne hfit, hr]
      rintro rfl
      rw [Slots.get_vacant] at hr
      cases hr

/-- A delete takes the key out, whatever it was. -/
theorem Proper.del (h : m.Proper) (key : Nat) :
    Proper (m.del key).2 ∧ ∀ key', (m.del key).2.lookup key' =
      if key' = key then none else m.lookup key' := by
  unfold LmMap.del
  cases hs : m.slot key with
  | none =>
    refine ⟨h, fun key' => ?_⟩
    split_ifs with he
    · rw [he, lookup, hs]
      rfl
    · rfl
  | some r =>
    obtain ⟨-, -, v, hr⟩ := slot_some hs
    have hfit := Slots.fits_of_get hr
    have hproper := h.of_erase hfit
    refine ⟨hproper, fun key' => ?_⟩
    apply Option.ext
    intro w
    rw [hproper.lookup_eq_some]
    constructor
    · rintro ⟨r', hr'⟩
      rw [Slots.get_write hfit] at hr'
      split_ifs at hr' with hrr
      rw [if_neg, h.lookup_eq_some]
      · exact ⟨r', hr'⟩
      · rintro rfl
        exact hrr (h.unique r' r _ _ hr' hr rfl)
    · intro hw
      split_ifs at hw with he
      obtain ⟨r', hr'⟩ := h.lookup_eq_some.mp hw
      refine ⟨r', ?_⟩
      rw [Slots.get_write_ne hfit, hr']
      rintro rfl
      rw [hr] at hr'
      exact he (congrArg Prod.fst (Option.some.inj hr')).symm

section Runs

variable [DecidableEq V]

/-- The calls that change a local map. -/
inductive Call (V : Type*)
  | put (key : Nat) (value : Option V)
  | del (key : Nat)

/-- The answer of a call, and the map after it. -/
def call (m : LmMap V) : Call V → Bool × LmMap V
  | .put key value => m.put key value
  | .del key => m.del key

/-- The map after a call. -/
def step (m : LmMap V) (c : Call V) : LmMap V := (m.call c).2

/-- A put is sound when it is refused, or its key is new, or the scan meets it before any gap. -/
def Sound (m : LmMap V) : Call V → Prop
  | .put key value =>
    key = 0 ∨ value = none ∨ m.lookup key = none ∨ ∃ e, m.stop key = some (some e)
  | .del _ => True

/-- The same calls on a finite map without the key zero: a key that is there is not overwritten. -/
def mapCall (f : Nat → Option V) : Call V → Bool × (Nat → Option V)
  | .put _ none => (false, f)
  | .put key (some value) =>
    if key = 0 then (false, f)
    else
      match f key with
      | some old => (old == value, f)
      | none => (true, Function.update f key (some value))
  | .del key => ((f key).isSome, Function.update f key none)

/-- A sound call does to the map what it does to its lookups. -/
theorem Proper.call_refines (h : m.Proper) {c : Call V} (hc : m.Sound c) :
    (m.step c).Proper ∧ (m.call c).1 = (mapCall m.lookup c).1 ∧
      (m.step c).lookup = (mapCall m.lookup c).2 := by
  cases c with
  | put key value =>
    cases value with
    | none =>
      rw [step, call, put_null]
      exact ⟨h, rfl, rfl⟩
    | some value =>
      unfold step call mapCall
      simp only
      by_cases h0 : key = 0
      · rw [if_pos h0, put, if_pos h0]
        exact ⟨h, rfl, rfl⟩
      · rw [if_neg h0]
        rcases hc with hz | hnull | habs | ⟨e, he⟩
        · exact absurd hz h0
        · exact absurd hnull (Option.some_ne_none value)
        · rw [h.put_absent h0 habs, habs]
          refine ⟨h.of_store h0 habs, rfl, ?_⟩
          funext key'
          simp only [h.lookup_store h0 habs, Function.update_apply]
        · obtain ⟨rfl, r, hr⟩ := stop_some he
          have hl : m.lookup e.1 = some e.2 := h.lookup_eq_some.mpr ⟨r, hr⟩
          rw [put_met h0 he, hl]
          exact ⟨h, rfl, rfl⟩
  | del key =>
    obtain ⟨hproper, hlookup⟩ := h.del key
    refine ⟨hproper, ?_, ?_⟩
    · change (m.del key).1 = (m.lookup key).isSome
      unfold LmMap.del lookup
      cases hs : m.slot key with
      | none => rfl
      | some r =>
        obtain ⟨-, -, v, hr⟩ := slot_some hs
        simp [hr]
    · funext key'
      change (m.del key).2.lookup key' = Function.update m.lookup key none key'
      rw [hlookup, Function.update_apply]

/-- Any other put leaves a second copy of its key behind. -/
theorem Proper.sound_of_step (h : m.Proper) {c : Call V} (hs : (m.step c).Proper) :
    m.Sound c := by
  cases c with
  | del key => trivial
  | put key value =>
    by_contra hn
    simp only [Sound, not_or, not_exists] at hn
    obtain ⟨h0, hnull, hthere, hstop⟩ := hn
    obtain ⟨value, rfl⟩ := Option.ne_none_iff_exists'.mp hnull
    obtain ⟨v, hv⟩ := Option.ne_none_iff_exists'.mp hthere
    obtain ⟨r, hr⟩ := h.lookup_eq_some.mp hv
    have hput : m.step (.put key (some value)) =
        m.write (m.vacant (index key)) (some (key, value)) := by
      change (m.put key (some value)).2 = _
      -- by `hstop` the scan meets no key, and the value is stored
      rw [put, if_neg h0]
      simp only
    rw [hput] at hs
    have hfit := m.fits_vacant (index key)
    have hne : r ≠ m.vacant (index key) := by
      intro he
      simp [he] at hr
    exact hne (hs.unique r _ _ _ ((Slots.get_write_ne hfit hne).trans hr)
      (Slots.get_write_self hfit) rfl)

/-- Over every run, a local map keeps each key once exactly when no key is put while it stands
behind a gap; and then its answers and lookups are those of a finite map. -/
theorem refines_map (calls : List (Call V)) :
    (Throughout step Proper init calls ↔ Along step Sound init calls) ∧
      (Along step Sound init calls → Along step (fun m c =>
        (m.call c).1 = (mapCall m.lookup c).1 ∧ (m.step c).lookup = (mapCall m.lookup c).2)
          init calls) := by
  have hiff : Throughout step Proper init calls ↔ Along step Sound (init : LmMap V) calls := by
    apply throughout_iff_along_of_pass _ _ proper_init proper_init
    · intro m c hm
      exact ⟨hm.sound_of_step, fun hc => (hm.call_refines hc).1⟩
    · intro m c hm hc
      exact (hm.call_refines hc).1
  refine ⟨hiff, fun hs => ?_⟩
  exact (hiff.mpr hs).along (fun m c hm hc => (hm.call_refines hc).2) hs

end Runs

end LmMap

/-- An address map: addresses and values in 1024 buckets that start with four slots. -/
abbrev UrAddrMap (V : Type*) := Slots (IoaAddr × V)

/-- `ADDR_MAP_SIZE`. -/
def addrMapSize : Nat := 1024
/-- `ADDR_ARRAY_SIZE`. -/
def addrArraySize : Nat := 4

namespace UrAddrMap

variable {V : Type*}

/-- `ur_addr_map_init`. -/
def init : UrAddrMap V := Slots.empty addrArraySize

/-- The bucket of an address. -/
def addrMapIndex (key : IoaAddr) : Nat := (addrHash key).toNat % addrMapSize

/-- The slot of an address. -/
def slot (m : UrAddrMap V) (key : IoaAddr) : Option Place :=
  m.find (addrMapIndex key) fun e => addrEq e.1 key

/-- `ur_addr_map_get`. -/
def lookup (m : UrAddrMap V) (key : IoaAddr) : Option V :=
  (m.slot key).bind fun r => (m.get r).map (·.2)

/-- `ur_addr_map_put`: a present address gets the new value, an absent one a new slot. -/
def put (m : UrAddrMap V) (key : IoaAddr) (value : V) : UrAddrMap V :=
  match m.slot key with
  | some r => m.write r ((m.get r).map fun e => (e.1, value))
  | none => m.write (m.vacant (addrMapIndex key)) (some (key, value))

/-- Addresses stand in their own buckets, each once; zeroed memory is never found again. -/
structure Proper (m : UrAddrMap V) : Prop where
  bucket : ∀ r e, m.get r = some e → r.1 = addrMapIndex e.1
  unique : ∀ r r' e e', m.get r = some e → m.get r' = some e' → e.1 = e'.1 → e.1 ≠ .unspec →
    r = r'

theorem proper_init : (init : UrAddrMap V).Proper := by
  constructor
  · intro r e h
    simp [init] at h
  · intro r r' e e' h
    simp [init] at h

variable {m : UrAddrMap V} {key : IoaAddr}

/-- The slot of an address holds it. -/
theorem slot_some {r : Place} (h : m.slot key = some r) :
    key ≠ .unspec ∧ ∃ v, m.get r = some (key, v) := by
  obtain ⟨-, ⟨k, v⟩, he, hk⟩ := Slots.find_some h
  obtain ⟨rfl, hne⟩ := addrEq_iff.mp hk
  exact ⟨hne, v, he⟩

/-- An address that is stored is found where it is. -/
theorem Proper.slot_eq (h : m.Proper) {r : Place} {v : V} (hr : m.get r = some (key, v))
    (hne : key ≠ .unspec) : m.slot key = some r := by
  have hb : r.1 = addrMapIndex key := h.bucket r _ hr
  rw [slot, ← hb]
  apply Slots.find_eq_of_unique hr (addrEq_self hne)
  intro r' e' _ he' hk
  obtain ⟨hk, hne'⟩ := addrEq_iff.mp hk
  exact h.unique r' r e' _ he' hr hk hne'

/-- An address is bound to the value of its slot. -/
theorem Proper.lookup_eq_some (h : m.Proper) (hne : key ≠ .unspec) {v : V} :
    m.lookup key = some v ↔ ∃ r, m.get r = some (key, v) := by
  constructor
  · intro hl
    obtain ⟨r, hr, hv⟩ := Option.bind_eq_some_iff.mp hl
    obtain ⟨-, v', he⟩ := slot_some hr
    rw [he] at hv
    obtain rfl : v' = v := by simpa using hv
    exact ⟨r, he⟩
  · rintro ⟨r, hr⟩
    rw [lookup, h.slot_eq hr hne, Option.bind_some, hr]
    rfl

/-- A value written at a place that has the key, or has nothing while the key is nowhere. -/
theorem Proper.write (h : m.Proper) {r : Place} {v : V} (hfit : m.Fits r)
    (hb : r.1 = addrMapIndex key)
    (hplace : ∀ r' v', m.get r' = some (key, v') → key ≠ .unspec → r' = r) :
    Proper (m.write r (some (key, v))) := by
  constructor
  · intro r' e he
    rw [Slots.get_write hfit] at he
    split_ifs at he with hr
    · obtain rfl := Option.some.inj he
      rw [hr, hb]
    · exact h.bucket r' e he
  · intro r1 r2 e e' he he' hee hne
    rw [Slots.get_write hfit] at he he'
    split_ifs at he he' with h1 h2 h2
    · rw [h1, h2]
    · obtain rfl := Option.some.inj he
      obtain rfl : key = e'.1 := hee
      rw [h1, hplace r2 e'.2 he' hne]
    · obtain rfl := Option.some.inj he'
      obtain rfl : e.1 = key := hee
      rw [h2, hplace r1 e.2 he hne]
    · exact h.unique r1 r2 e e' he he' hee hne

/-- Writing the slot of an address binds that address and no other. -/
theorem Proper.lookup_write (h : m.Proper) {r : Place} {v : V} (hfit : m.Fits r)
    (hb : r.1 = addrMapIndex key)
    (hplace : ∀ r' v', m.get r' = some (key, v') → key ≠ .unspec → r' = r)
    (hold : ∀ e, m.get r = some e → e.1 = key) {key' : IoaAddr} (hne : key' ≠ .unspec) :
    lookup (m.write r (some (key, v))) key' = if key' = key then some v else m.lookup key' := by
  have hproper := h.write (v := v) hfit hb hplace
  split_ifs with he
  · subst he
    exact (hproper.lookup_eq_some hne).mpr ⟨r, Slots.get_write_self hfit⟩
  · apply Option.ext
    intro w
    rw [hproper.lookup_eq_some hne, h.lookup_eq_some hne]
    constructor
    · rintro ⟨r', hr'⟩
      rw [Slots.get_write hfit] at hr'
      split_ifs at hr'
      · exact absurd (congrArg Prod.fst (Option.some.inj hr')) (Ne.symm he)
      · exact ⟨r', hr'⟩
    · rintro ⟨r', hr'⟩
      refine ⟨r', ?_⟩
      rw [Slots.get_write_ne hfit, hr']
      rintro rfl
      exact he (hold _ hr')

/-- A put sets its own key and no other. -/
theorem Proper.put (h : m.Proper) (key : IoaAddr) (v : V) :
    (m.put key v).Proper ∧ ∀ key', key' ≠ .unspec →
      (m.put key v).lookup key' = if key' = key then some v else m.lookup key' := by
  unfold UrAddrMap.put
  cases hs : m.slot key with
  | some r =>
    obtain ⟨hne, v', hr⟩ := slot_some hs
    have hfit := Slots.fits_of_get hr
    have hplace : ∀ r' w, m.get r' = some (key, w) → key ≠ .unspec → r' = r :=
      fun r' w hr' hne => h.unique r' r _ _ hr' hr rfl hne
    have hold : ∀ e, m.get r = some e → e.1 = key := by
      intro e he
      rw [hr] at he
      exact (congrArg Prod.fst (Option.some.inj he)).symm
    simp only [hr, Option.map_some]
    exact ⟨h.write hfit (h.bucket r _ hr) hplace,
      fun key' hne' => h.lookup_write hfit (h.bucket r _ hr) hplace hold hne'⟩
  | none =>
    have hfit := m.fits_vacant (addrMapIndex key)
    have hplace : ∀ r' w, m.get r' = some (key, w) → key ≠ .unspec →
        r' = m.vacant (addrMapIndex key) := by
      intro r' w hr' hne
      rw [h.slot_eq hr' hne] at hs
      cases hs
    have hold : ∀ e, m.get (m.vacant (addrMapIndex key)) = some e → e.1 = key := by
      intro e he
      rw [Slots.get_vacant] at he
      cases he
    exact ⟨h.write hfit rfl hplace, fun key' hne' => h.lookup_write hfit rfl hplace hold hne'⟩

end UrAddrMap

end WebrtcCaller.Turn
