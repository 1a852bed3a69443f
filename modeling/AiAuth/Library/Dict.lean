import Mathlib.Data.List.AList
import Mathlib.Data.Finset.Card

/-!
# Finite dictionaries with eviction

Association lists with distinct keys, extended by the bulk removal that caches
and stores use: every entry that fails a test is dropped, and nothing else moves.
-/
namespace AiAuth.Library

/-- A finite map with distinct keys. -/
abbrev Dict (κ ν : Type*) := AList fun _ : κ => ν

namespace Dict

variable {κ ν : Type*}

def empty : Dict κ ν := ∅

/-- Keep the entries that pass the test. -/
def retain (p : κ → ν → Bool) (d : Dict κ ν) : Dict κ ν :=
  ⟨d.entries.filter fun e => p e.1 e.2, d.nodupKeys.sublist List.filter_sublist⟩

/-- The number of entries. -/
def size (d : Dict κ ν) : ℕ := d.entries.length

theorem size_retain_le (p : κ → ν → Bool) (d : Dict κ ν) : (d.retain p).size ≤ d.size :=
  List.length_filter_le _ _

/-- A bulk removal that does not make the dictionary smaller removes nothing. -/
theorem retain_eq_self {p : κ → ν → Bool} {d : Dict κ ν} (h : d.size ≤ (d.retain p).size) :
    d.retain p = d :=
  AList.ext (List.filter_sublist.eq_of_length_le h)

section lookup
variable [DecidableEq κ]

def get (d : Dict κ ν) (k : κ) : Option ν := d.lookup k

def set (d : Dict κ ν) (k : κ) (v : ν) : Dict κ ν := AList.insert k v d

def remove (d : Dict κ ν) (k : κ) : Dict κ ν := AList.erase k d

@[simp] theorem get_empty (k : κ) : (empty : Dict κ ν).get k = none := AList.lookup_empty k

theorem get_set (d : Dict κ ν) (k k' : κ) (v : ν) :
    (d.set k v).get k' = if k' = k then some v else d.get k' := by
  split_ifs with h
  · subst h
    exact AList.lookup_insert d
  · exact AList.lookup_insert_ne h

@[simp] theorem get_set_self (d : Dict κ ν) (k : κ) (v : ν) : (d.set k v).get k = some v := by
  rw [get_set, if_pos rfl]

theorem get_set_ne (d : Dict κ ν) {k k' : κ} (h : k' ≠ k) (v : ν) :
    (d.set k v).get k' = d.get k' := by
  rw [get_set, if_neg h]

/-- An entry after `set` is the new one or was there under another key. -/
theorem get_of_set {d : Dict κ ν} {k k' : κ} {v w : ν} (h : (d.set k v).get k' = some w) :
    (k' = k ∧ w = v) ∨ (k' ≠ k ∧ d.get k' = some w) := by
  rw [get_set] at h
  split_ifs at h with hk
  · exact .inl ⟨hk, (Option.some.inj h).symm⟩
  · exact .inr ⟨hk, h⟩

/-- What holds of all entries and of the new one holds of all entries after `set`. -/
theorem forall_get_set {p : κ → ν → Prop} {d : Dict κ ν} {k : κ} {v : ν}
    (hd : ∀ k w, d.get k = some w → p k w) (hv : p k v) (k' : κ) (w : ν)
    (h : (d.set k v).get k' = some w) : p k' w := by
  rcases get_of_set h with ⟨rfl, rfl⟩ | ⟨-, h⟩
  · exact hv
  · exact hd k' w h

theorem get_remove (d : Dict κ ν) (k k' : κ) :
    (d.remove k).get k' = if k' = k then none else d.get k' := by
  split_ifs with h
  · subst h
    exact AList.lookup_erase k' d
  · exact AList.lookup_erase_ne h

@[simp] theorem get_remove_self (d : Dict κ ν) (k : κ) : (d.remove k).get k = none := by
  rw [get_remove, if_pos rfl]

theorem get_of_remove {d : Dict κ ν} {k k' : κ} {v : ν} (h : (d.remove k).get k' = some v) :
    d.get k' = some v := by
  rw [get_remove] at h
  split_ifs at h
  exact h

/-- Bulk removal is pointwise: an entry survives exactly when it passes the test. -/
theorem get_retain {p : κ → ν → Bool} {d : Dict κ ν} {k : κ} {v : ν} :
    (d.retain p).get k = some v ↔ d.get k = some v ∧ p k v = true := by
  have hf := (d.retain p).nodupKeys
  simp only [get, AList.lookup, ← Option.mem_def, List.mem_dlookup_iff hf,
    List.mem_dlookup_iff d.nodupKeys]
  simp only [retain, List.mem_filter]

theorem get_of_retain {p : κ → ν → Bool} {d : Dict κ ν} {k : κ} {v : ν}
    (h : (d.retain p).get k = some v) : d.get k = some v :=
  (get_retain.mp h).1

/-- Every entry passes the test. -/
def all (p : κ → ν → Bool) (d : Dict κ ν) : Bool := d.entries.all fun e => p e.1 e.2

theorem all_get {p : κ → ν → Bool} {d : Dict κ ν} {k : κ} {v : ν} (h : d.all p = true)
    (hk : d.get k = some v) : p k v = true :=
  List.all_eq_true.mp h ⟨k, v⟩ ((List.mem_dlookup_iff d.nodupKeys).mp hk)

/-- An entry after a sweep and a write is the one written, or an old one. -/
theorem get_of_retain_set {p : κ → ν → Bool} {d : Dict κ ν} {k k' : κ} {v v' : ν}
    (h : ((d.retain p).set k v).get k' = some v') : (k' = k ∧ v' = v) ∨ d.get k' = some v' := by
  rw [get_set] at h
  split_ifs at h with hk
  · exact .inl ⟨hk, (Option.some.inj h).symm⟩
  · exact .inr (get_of_retain h)

theorem size_set_of_absent {d : Dict κ ν} {k : κ} (h : d.get k = none) (v : ν) :
    (d.set k v).size = d.size + 1 := by
  have hk : k ∉ d := AList.lookup_eq_none.mp h
  rw [size, set, AList.insert_of_notMem hk]
  rfl

/-- Dropping at least one entry makes the dictionary smaller. -/
theorem size_retain_lt {p : κ → ν → Bool} {d : Dict κ ν} {k : κ} {v : ν} (h : d.get k = some v)
    (hp : p k v = false) : (d.retain p).size < d.size := by
  refine List.length_filter_lt_length_iff_exists.mpr ⟨⟨k, v⟩, ?_, by simp [hp]⟩
  exact (List.mem_dlookup_iff d.nodupKeys).mp h

/-- A dictionary has no more entries than a set that holds its keys. -/
theorem size_le_card {d : Dict κ ν} {s : Finset κ} (h : ∀ k v, d.get k = some v → k ∈ s) :
    d.size ≤ s.card := by
  have hsub : d.keys.toFinset ⊆ s := by
    intro k hk
    rw [List.mem_toFinset] at hk
    obtain ⟨v, hv⟩ := Option.isSome_iff_exists.mp (AList.lookup_isSome.mpr hk)
    exact h k v hv
  have hlen : d.size = d.keys.length := (List.length_map _).symm
  rw [hlen, ← List.toFinset_card_of_nodup d.keys_nodup]
  exact Finset.card_le_card hsub

/-- A dictionary has no more entries than one with all its keys. -/
theorem size_le_of_get {d d' : Dict κ ν} (h : ∀ k, (d.get k).isSome → (d'.get k).isSome) :
    d.size ≤ d'.size := by
  refine (size_le_card (s := d'.keys.toFinset) fun k v hk => ?_).trans ?_
  · have hk' : (d'.get k).isSome := h k (by rw [hk]; rfl)
    exact List.mem_toFinset.mpr (AList.lookup_isSome.mp hk')
  · exact (List.toFinset_card_le _).trans (List.length_map _).le

omit [DecidableEq κ] in
theorem size_eq_length_keys (d : Dict κ ν) : d.size = d.keys.length := (List.length_map _).symm

theorem mem_keys_iff {d : Dict κ ν} {k : κ} : k ∈ d.keys ↔ (d.get k).isSome :=
  AList.lookup_isSome.symm

/-- Removing keys one after the other. -/
theorem get_foldl_remove {ks : List κ} {d : Dict κ ν} {k : κ} {v : ν} :
    (ks.foldl remove d).get k = some v ↔ k ∉ ks ∧ d.get k = some v := by
  induction ks generalizing d with
  | nil => simp
  | cons a ks ih =>
    rw [List.foldl_cons, ih, get_remove, List.mem_cons, not_or]
    by_cases ha : k = a
    · simp [ha]
    · simp [ha]

theorem size_foldl_remove {ks : List κ} {d : Dict κ ν} (hks : ks.Nodup)
    (hmem : ∀ k ∈ ks, k ∈ d.keys) : (ks.foldl remove d).size + ks.length = d.size := by
  induction ks generalizing d with
  | nil => rfl
  | cons a ks ih =>
    obtain ⟨hnew, hks⟩ := List.nodup_cons.mp hks
    have ha : a ∈ d.keys := hmem a List.mem_cons_self
    have hrest : ∀ k ∈ ks, k ∈ (d.remove a).keys := by
      intro k hk
      have hne : k ≠ a := fun heq => hnew (heq ▸ hk)
      rw [mem_keys_iff, get_remove, if_neg hne]
      exact mem_keys_iff.mp (hmem k (List.mem_cons_of_mem _ hk))
    have hsize : (d.remove a).size + 1 = d.size := by
      rw [size_eq_length_keys, size_eq_length_keys, remove, AList.keys_erase]
      exact List.length_erase_add_one ha
    rw [List.foldl_cons, List.length_cons, ← Nat.add_assoc, ih hks hrest, hsize]

theorem size_set_le (d : Dict κ ν) (k : κ) (v : ν) : (d.set k v).size ≤ d.size + 1 := by
  simp only [size, set, AList.entries_insert, List.length_cons]
  exact Nat.succ_le_succ (List.kerase_sublist k d.entries).length_le

end lookup
end Dict

end AiAuth.Library
