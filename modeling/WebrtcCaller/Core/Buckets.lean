import Mathlib.Data.List.AList
import Mathlib.Data.List.Nodup

/-!
# Maps from keys to lists

A finite map whose values are lists, read as one bucket for each key: an absent
key has the empty bucket. All buckets laid end to end repeat nothing exactly
when each bucket repeats nothing and different buckets share nothing.
-/

namespace WebrtcCaller

variable {κ β : Type*} [DecidableEq κ]

/-- The list filed under a key. -/
def bucket (m : AList fun _ : κ => List β) (k : κ) : List β := (m.lookup k).getD []

/-- All buckets, end to end. -/
def allBuckets (m : AList fun _ : κ => List β) : List β := m.entries.flatMap (·.2)

@[simp] theorem bucket_empty (k : κ) : bucket (∅ : AList fun _ : κ => List β) k = [] := rfl

/-- Storing a list changes its own bucket and no other. -/
theorem bucket_insert (m : AList fun _ : κ => List β) (k k' : κ) (xs : List β) :
    bucket (m.insert k xs) k' = if k' = k then xs else bucket m k' := by
  by_cases h : k' = k
  · subst h
    simp [bucket]
  · simp [bucket, AList.lookup_insert_ne h, h]

/-- The list stored under a key is the bucket of that key. -/
theorem bucket_of_mem_entries {m : AList fun _ : κ => List β} {e : Sigma fun _ : κ => List β}
    (h : e ∈ m.entries) : bucket m e.1 = e.2 := by
  have hl : m.lookup e.1 = some e.2 := AList.mem_lookup_iff.mpr h
  simp [bucket, hl]

/-- An element of a bucket is filed in an entry of the map. -/
theorem mem_entries_of_mem_bucket {m : AList fun _ : κ => List β} {k : κ} {x : β}
    (h : x ∈ bucket m k) : ⟨k, bucket m k⟩ ∈ m.entries := by
  cases hl : m.lookup k with
  | none => simp [bucket, hl] at h
  | some xs =>
    have he : bucket m k = xs := by simp [bucket, hl]
    rw [he]
    exact AList.mem_lookup_iff.mp hl

/-- What is in some bucket is in the concatenation of all of them. -/
theorem mem_allBuckets {m : AList fun _ : κ => List β} {x : β} :
    x ∈ allBuckets m ↔ ∃ k, x ∈ bucket m k := by
  constructor
  · intro h
    obtain ⟨e, he, hx⟩ := List.mem_flatMap.mp h
    exact ⟨e.1, by rwa [bucket_of_mem_entries he]⟩
  · rintro ⟨k, hx⟩
    exact List.mem_flatMap.mpr ⟨_, mem_entries_of_mem_bucket hx, hx⟩

/-- No element occurs twice exactly when every bucket is free of repetitions and no two share an
element. -/
theorem nodup_allBuckets_iff {m : AList fun _ : κ => List β} :
    (allBuckets m).Nodup ↔ (∀ k, (bucket m k).Nodup) ∧
      ∀ k k' x, x ∈ bucket m k → x ∈ bucket m k' → k = k' := by
  have hkeys : m.entries.Pairwise fun a b => a.1 ≠ b.1 := by
    simpa [List.NodupKeys, List.keys, List.Nodup, List.pairwise_map] using m.nodupKeys
  rw [allBuckets, List.nodup_flatMap]
  constructor
  · rintro ⟨hn, hd⟩
    refine ⟨fun k => ?_, fun k k' x hx hx' => ?_⟩
    · cases hb : bucket m k with
      | nil => exact List.nodup_nil
      | cons x xs =>
        have hx : x ∈ bucket m k := by simp [hb]
        rw [← hb]
        exact hn _ (mem_entries_of_mem_bucket hx)
    · have : Std.Symm (Function.onFun List.Disjoint fun e : Sigma fun _ : κ => List β => e.2) :=
        ⟨fun _ _ h x hx hy => h hy hx⟩
      by_contra hne
      have hentry : (⟨k, bucket m k⟩ : Sigma fun _ : κ => List β) ≠ ⟨k', bucket m k'⟩ :=
        fun h => hne (congrArg Sigma.fst h)
      exact hd.forall (mem_entries_of_mem_bucket hx) (mem_entries_of_mem_bucket hx') hentry hx hx'
  · rintro ⟨hn, hd⟩
    refine ⟨fun e he => bucket_of_mem_entries he ▸ hn e.1, ?_⟩
    refine hkeys.imp_of_mem ?_
    intro a b ha hb hne x hx hx'
    have hxa : x ∈ bucket m a.1 := by rw [bucket_of_mem_entries ha]; exact hx
    have hxb : x ∈ bucket m b.1 := by rw [bucket_of_mem_entries hb]; exact hx'
    exact hne (hd _ _ x hxa hxb)

section Keyed

variable {α : Type*} {β : α → Type*} [DecidableEq α]

/-- A keyed list is what it holds under a key and what is left without it. -/
theorem perm_dlookup_kerase (a : α) (l : List (Sigma β)) :
    l.Perm ((l.dlookup a).toList.map (Sigma.mk a) ++ l.kerase a) := by
  induction l with
  | nil => simp
  | cons entry l ih =>
    obtain ⟨a', b⟩ := entry
    by_cases h : a = a'
    · subst h
      rw [List.dlookup_cons_eq, List.kerase_cons_eq (s := ⟨a, b⟩) rfl]
      exact List.Perm.refl _
    · rw [List.dlookup_cons_ne _ ⟨a', b⟩ h, List.kerase_cons_ne h]
      exact (ih.cons _).trans List.perm_middle.symm

end Keyed

/-- The values of a map are the one under a key and those under the others. -/
theorem perm_lookup_erase {γ : Type*} (f : β → γ) (m : AList fun _ : κ => β) (k : κ) :
    (m.entries.map fun entry => f entry.2).Perm
      ((m.lookup k).toList.map f ++ (m.erase k).entries.map fun entry => f entry.2) := by
  have hperm := (perm_dlookup_kerase k m.entries).map fun entry => f entry.2
  rw [List.map_append, List.map_map] at hperm
  exact hperm

end WebrtcCaller
