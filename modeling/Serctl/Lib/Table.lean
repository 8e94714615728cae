import Mathlib.Data.List.Lookmap
import Mathlib.Data.List.Nodup
import Mathlib.Data.List.Perm.Subperm

/-!
# Tables

A table holds at most one value under each key.  Its entries have an order, which is the order in
which a loop over the table sees them.
-/

namespace Serctl.Lib

open List Option

/-! ## Looking up a key -/

section Lookup

variable {κ ν : Type} [BEq κ] [LawfulBEq κ] {k : κ} {v : ν} {entries : List (κ × ν)}

theorem lookup_eq_none : entries.lookup k = none ↔ k ∉ entries.map Prod.fst := by
  rw [lookup_eq_none_iff]
  simp only [List.mem_map, Prod.exists, exists_and_right, exists_eq_right, not_exists, bne_iff_ne]
  exact ⟨fun h v hmem => h _ hmem rfl, fun h e hmem heq => h e.2 (heq ▸ hmem)⟩

theorem lookup_eq_some (hdistinct : (entries.map Prod.fst).Nodup) :
    entries.lookup k = some v ↔ (k, v) ∈ entries := by
  induction entries with
  | nil => simp
  | cons e entries ih =>
    obtain ⟨k', v'⟩ := e
    rw [map_cons, nodup_cons] at hdistinct
    by_cases hk : k = k'
    · subst hk
      have hnew : (k, v) ∉ entries := fun h => hdistinct.1 (List.mem_map.mpr ⟨_, h, rfl⟩)
      simp [eq_comm, hnew]
    · have hbeq : (k == k') = false := by simpa using hk
      simp [lookup_cons, hbeq, ih hdistinct.2, hk]

/-- Some entries are taken away, by their keys and values. -/
theorem lookup_filter (hdistinct : (entries.map Prod.fst).Nodup) (p : κ → ν → Bool) :
    (entries.filter fun e => p e.1 e.2).lookup k = (entries.lookup k).filter (p k) := by
  have hkept : ((entries.filter fun e => p e.1 e.2).map Prod.fst).Nodup :=
    hdistinct.sublist (filter_sublist.map Prod.fst)
  apply ext
  intro v
  rw [lookup_eq_some hkept, filter_eq_some_iff, lookup_eq_some hdistinct]
  simp

end Lookup

/-- At most one value under each key. -/
structure Table (κ ν : Type) where
  /-- The entries, in the order in which a loop sees them. -/
  entries : List (κ × ν)
  /-- No key stands twice. -/
  distinct : (entries.map Prod.fst).Nodup
  deriving DecidableEq, Repr

namespace Table

variable {κ ν : Type}

/-- No entries. -/
def empty : Table κ ν := ⟨[], List.nodup_nil⟩

/-- All values. -/
def values (t : Table κ ν) : List ν := t.entries.map Prod.snd

/-- The number of entries. -/
def size (t : Table κ ν) : Nat := t.entries.length

/-- The number of entries with a property. -/
def countP (t : Table κ ν) (p : ν → Bool) : Nat := t.values.countP p

/-- The entries with a property. -/
def keep (t : Table κ ν) (p : κ → ν → Bool) : Table κ ν where
  entries := t.entries.filter fun e => p e.1 e.2
  distinct := t.distinct.sublist ((List.filter_sublist).map Prod.fst)

/-- Change every value. -/
def mapValues (t : Table κ ν) (f : κ → ν → ν) : Table κ ν where
  entries := t.entries.map fun e => (e.1, f e.1 e.2)
  distinct := by simpa [Function.comp_def] using t.distinct

variable [DecidableEq κ]

/-- The value of a key. -/
def find (t : Table κ ν) (k : κ) : Option ν := t.entries.lookup k

/-- Take the entry of a key away. -/
def erase (t : Table κ ν) (k : κ) : Table κ ν := t.keep fun k' _ => k' ≠ k

/-- Put a value under a key, in the place of the value that was there. -/
def insert (t : Table κ ν) (k : κ) (v : ν) : Table κ ν :=
  if h : t.find k = none then ⟨(k, v) :: t.entries, by
    rw [List.map_cons, List.nodup_cons]
    exact ⟨lookup_eq_none.mp h, t.distinct⟩⟩
  else t.mapValues fun k' v' => if k' = k then v else v'

@[simp] theorem find_empty (k : κ) : (empty : Table κ ν).find k = none := rfl

variable {t : Table κ ν}

/-- An entry is what is found under its key. -/
theorem mem_entries {k : κ} {v : ν} : (k, v) ∈ t.entries ↔ t.find k = some v :=
  (lookup_eq_some t.distinct).symm

@[simp] theorem find_mapValues (t : Table κ ν) (f : κ → ν → ν) (k : κ) :
    (t.mapValues f).find k = (t.find k).map (f k) := by
  apply ext
  intro v
  rw [← mem_entries, map_eq_some_iff]
  simp only [← mem_entries, mapValues, List.mem_map, Prod.mk.injEq, Prod.exists]
  constructor
  · rintro ⟨k', v', hmem, rfl, rfl⟩
    exact ⟨v', hmem, rfl⟩
  · rintro ⟨v', hmem, rfl⟩
    exact ⟨k, v', hmem, rfl, rfl⟩

@[simp] theorem find_keep (t : Table κ ν) (p : κ → ν → Bool) (k : κ) :
    (t.keep p).find k = (t.find k).filter (p k) :=
  lookup_filter t.distinct p

@[simp] theorem find_erase (t : Table κ ν) (k k' : κ) :
    (t.erase k).find k' = if k' = k then none else t.find k' := by
  by_cases hk : k' = k
  · simp [erase, hk]
  · cases h : t.find k' <;> simp [erase, hk, h]

@[simp] theorem find_insert (t : Table κ ν) (k k' : κ) (v : ν) :
    (t.insert k v).find k' = if k' = k then some v else t.find k' := by
  unfold insert
  split
  · rename_i hnone
    by_cases hk : k' = k
    · simp [find, hk]
    · have hbeq : (k' == k) = false := by simpa using hk
      simp [find, lookup_cons, hbeq, hk]
  · rename_i hsome
    obtain ⟨v', hv'⟩ := ne_none_iff_exists'.mp hsome
    by_cases hk : k' = k
    · simp [hk, hv']
    · cases h : t.find k' <;> simp [hk, h]

/-- What holds of all entries and of a new one. -/
theorem forall_insert {P : κ → ν → Prop} {k : κ} {v : ν}
    (h : ∀ k' v', t.find k' = some v' → P k' v') (hv : P k v) :
    ∀ k' v', (t.insert k v).find k' = some v' → P k' v' := by
  intro k' v' hfind
  rw [find_insert] at hfind
  split at hfind
  · rename_i hk
    cases hfind
    exact hk ▸ hv
  · exact h k' v' hfind

/-- A key is found where it stands. -/
theorem mem_keys {k : κ} : k ∈ t.entries.map Prod.fst ↔ ∃ v, t.find k = some v := by
  simp only [List.mem_map, Prod.exists, exists_and_right, exists_eq_right, mem_entries]

/-- The entries after an insertion. -/
theorem mem_insert {k : κ} {v : ν} {e : κ × ν} (h : e ∈ (t.insert k v).entries) :
    e = (k, v) ∨ e ∈ t.entries := by
  obtain ⟨k', v'⟩ := e
  rw [mem_entries, find_insert] at h
  split at h
  · rename_i hk
    cases h
    exact .inl (by rw [hk])
  · exact .inr (mem_entries.mpr h)

omit [DecidableEq κ] in
theorem mem_of_mem_keep {p : κ → ν → Bool} {e : κ × ν} (h : e ∈ (t.keep p).entries) :
    e ∈ t.entries :=
  mem_of_mem_filter h

theorem mem_of_mem_erase {k : κ} {e : κ × ν} (h : e ∈ (t.erase k).entries) : e ∈ t.entries :=
  mem_of_mem_keep h

/-! ## Counting -/

/-- The keys of the entries with a property. -/
def keysWith (t : Table κ ν) (p : ν → Bool) : List κ :=
  (t.entries.filter fun e => p e.2).map Prod.fst

omit [DecidableEq κ] in
theorem length_keysWith (t : Table κ ν) (p : ν → Bool) : (t.keysWith p).length = t.countP p := by
  rw [keysWith, length_map, countP, values, countP_map, countP_eq_length_filter]
  rfl

omit [DecidableEq κ] in
theorem nodup_keysWith (t : Table κ ν) (p : ν → Bool) : (t.keysWith p).Nodup :=
  t.distinct.sublist (filter_sublist.map Prod.fst)

variable {p : ν → Bool}

theorem mem_keysWith {k : κ} :
    k ∈ t.keysWith p ↔ ∃ v, t.find k = some v ∧ p v = true := by
  simp [keysWith, ← mem_entries]

/-- One table has no more of one kind than another of another kind, if it has them under the same
    keys. -/
theorem countP_le_of_imp {t' : Table κ ν} {q : ν → Bool}
    (h : ∀ k v, t'.find k = some v → p v = true → ∃ w, t.find k = some w ∧ q w = true) :
    t'.countP p ≤ t.countP q := by
  rw [← length_keysWith, ← length_keysWith]
  refine ((nodup_keysWith t' p).subperm ?_).length_le
  intro k hk
  obtain ⟨v, hfind, hp⟩ := mem_keysWith.mp hk
  exact mem_keysWith.mpr (h k v hfind hp)

/-- A bound for one kind is a bound for every kind that is part of it. -/
theorem countP_le_trans {q : ν → Bool} {n : Nat} (h : t.countP q ≤ n)
    (hpq : ∀ v, p v = true → q v = true) : t.countP p ≤ n :=
  Nat.le_trans (countP_le_of_imp fun _ v hfind hp => ⟨v, hfind, hpq v hp⟩) h

theorem countP_insert_le (t : Table κ ν) (k : κ) (v : ν) (p : ν → Bool) :
    (t.insert k v).countP p ≤ t.countP p + 1 := by
  rw [← length_keysWith, ← length_keysWith]
  have hkeys : (t.insert k v).keysWith p ⊆ k :: t.keysWith p := by
    intro k' hk'
    obtain ⟨v', hfind, hp⟩ := mem_keysWith.mp hk'
    rw [find_insert] at hfind
    split at hfind
    · rename_i hk
      exact hk ▸ mem_cons_self
    · exact mem_cons_of_mem _ (mem_keysWith.mpr ⟨v', hfind, hp⟩)
  exact ((nodup_keysWith (t.insert k v) p).subperm hkeys).length_le

/-- Taking away an entry of a kind leaves one less of it. -/
theorem countP_erase_lt {k : κ} {v : ν} (hfind : t.find k = some v)
    (hp : p v = true) : (t.erase k).countP p < t.countP p := by
  rw [← length_keysWith, ← length_keysWith]
  have hgone : k ∉ (t.erase k).keysWith p := by
    rw [mem_keysWith]
    rintro ⟨w, hw, -⟩
    simp at hw
  have hnodup : (k :: (t.erase k).keysWith p).Nodup := nodup_cons.mpr ⟨hgone, nodup_keysWith _ p⟩
  have hkeys : k :: (t.erase k).keysWith p ⊆ t.keysWith p := by
    intro k' hk'
    rcases mem_cons.mp hk' with rfl | hrest
    · exact mem_keysWith.mpr ⟨v, hfind, hp⟩
    · obtain ⟨w, hw, hpw⟩ := mem_keysWith.mp hrest
      rw [find_erase] at hw
      split at hw
      · cases hw
      · exact mem_keysWith.mpr ⟨w, hw, hpw⟩
  exact (hnodup.subperm hkeys).length_le

omit [DecidableEq κ] in
theorem size_eq_countP (t : Table κ ν) : t.size = t.countP fun _ => true := by
  simp [size, countP, values]

omit [DecidableEq κ] in
theorem size_keep_le (t : Table κ ν) (p : κ → ν → Bool) : (t.keep p).size ≤ t.size :=
  length_filter_le _ _

theorem size_insert_le (t : Table κ ν) (k : κ) (v : ν) : (t.insert k v).size ≤ t.size + 1 := by
  rw [size_eq_countP, size_eq_countP]
  exact countP_insert_le t k v _

theorem size_erase_lt {k : κ} {v : ν} (hfind : t.find k = some v) : (t.erase k).size < t.size := by
  rw [size_eq_countP, size_eq_countP]
  exact countP_erase_lt hfind rfl

/-- With more than one entry of a kind there is one under another key. -/
theorem exists_other (h : 1 < t.countP p) (k : κ) :
    ∃ k' v, k' ≠ k ∧ t.find k' = some v ∧ p v = true := by
  by_contra hnone
  have hsub : t.keysWith p ⊆ [k] := by
    intro k' hk'
    obtain ⟨v, hfind, hp⟩ := mem_keysWith.mp hk'
    rw [mem_singleton]
    by_contra hk
    exact hnone ⟨k', v, hk, hfind, hp⟩
  have hlength := ((nodup_keysWith t p).subperm hsub).length_le
  rw [length_keysWith, length_singleton] at hlength
  omega

/-! ## Another order -/

/-- A way to put the entries of a table into another order.  A hash map promises none, and another
    one may be seen by every loop. -/
structure Arrangement (κ ν : Type) where
  arrange : Table κ ν → Table κ ν
  perm : ∀ t, (arrange t).entries.Perm t.entries

namespace Arrangement

/-- The order stays. -/
def kept : Arrangement κ ν := ⟨id, fun _ => .refl _⟩

/-- The last entry comes first. -/
def reversed : Arrangement κ ν where
  arrange t := ⟨t.entries.reverse, by rw [map_reverse]; exact nodup_reverse.mpr t.distinct⟩
  perm t := t.entries.reverse_perm

/-- The same is found under every key. -/
@[simp] theorem find_arrange (order : Arrangement κ ν) (t : Table κ ν) (k : κ) :
    (order.arrange t).find k = t.find k := by
  apply ext
  intro v
  rw [← mem_entries, ← mem_entries]
  exact (order.perm t).mem_iff

end Arrangement

end Table

end Serctl.Lib
