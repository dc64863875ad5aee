import Mathlib

/-!
# Finite maps kept in key order

A finite map stored as its bindings in increasing key order, as a skip list keeps and iterates
them.  The order is a field of the structure, so no map with an unsorted or repeated key can be
built.  In exchange two maps that read alike are equal (`ext_get`), and the laws of reading after
writing and deleting give the laws of undoing a write: deleting a fresh key, or writing back the
old value of a key, returns the map one started from.
-/

namespace Bubble

/-- A finite map as its bindings in increasing key order. -/
structure SortedMap (κ ν : Type) [LinearOrder κ] where
  entries : List (κ × ν)
  sorted : entries.Pairwise fun a b => a.1 < b.1

namespace SortedMap

variable {κ ν : Type} [LinearOrder κ]

/-- The value bound to `k` in a list of bindings, read from the front. -/
def lookup (k : κ) : List (κ × ν) → Option ν
  | [] => none
  | e :: rest => if e.1 = k then some e.2 else lookup k rest

/-- Put the binding of `k` at its place in key order, replacing the one `k` has. -/
def insert (k : κ) (v : ν) : List (κ × ν) → List (κ × ν)
  | [] => [(k, v)]
  | e :: rest =>
    if k < e.1 then (k, v) :: e :: rest
    else if k = e.1 then (k, v) :: rest
    else e :: insert k v rest

theorem mem_insert {k : κ} {v : ν} {l : List (κ × ν)} {a : κ × ν} (mem : a ∈ insert k v l) :
    a = (k, v) ∨ a ∈ l := by
  induction l with
  | nil => simpa [insert] using mem
  | cons e rest ih =>
    simp only [insert] at mem
    split_ifs at mem with lt eq
    · simpa using mem
    · rcases List.mem_cons.mp mem with rfl | tail
      · exact .inl rfl
      · exact .inr (List.mem_cons_of_mem e tail)
    · rcases List.mem_cons.mp mem with rfl | tail
      · exact .inr List.mem_cons_self
      · exact (ih tail).imp_right (List.mem_cons_of_mem e)

theorem insert_sorted {k : κ} {v : ν} {l : List (κ × ν)} (sorted : l.Pairwise fun a b => a.1 < b.1) :
    (insert k v l).Pairwise fun a b => a.1 < b.1 := by
  induction l with
  | nil => simp [insert]
  | cons e rest ih =>
    rw [List.pairwise_cons] at sorted
    simp only [insert]
    split_ifs with lt eq
    · exact List.Pairwise.cons (fun a mem => by
        rcases List.mem_cons.mp mem with rfl | tail
        · exact lt
        · exact lt_trans lt (sorted.1 a tail)) (List.Pairwise.cons sorted.1 sorted.2)
    · exact List.Pairwise.cons (fun a mem => eq ▸ sorted.1 a mem) sorted.2
    · have above : e.1 < k := lt_of_le_of_ne (not_lt.mp lt) (Ne.symm eq)
      refine List.Pairwise.cons (fun a mem => ?_) (ih sorted.2)
      rcases mem_insert mem with rfl | tail
      · exact above
      · exact sorted.1 a tail

theorem lookup_insert (k k' : κ) (v : ν) (l : List (κ × ν)) :
    lookup k' (insert k v l) = if k = k' then some v else lookup k' l := by
  induction l with
  | nil => simp [insert, lookup]
  | cons e rest ih =>
    obtain ⟨ek, ev⟩ := e
    by_cases lt : k < ek
    · simp only [insert, if_pos lt, lookup]
    · by_cases eq : k = ek
      · subst eq
        by_cases hk : k = k' <;> simp [insert, lookup, hk]
      · by_cases hk : k = k'
        · subst hk
          simp [insert, lookup, lt, eq, Ne.symm eq, ih]
        · simp [insert, lookup, lt, eq, hk, ih]

theorem lookup_filter (k k' : κ) (l : List (κ × ν)) :
    lookup k' (l.filter fun e => e.1 ≠ k) = if k' = k then none else lookup k' l := by
  induction l with
  | nil => simp [lookup]
  | cons e rest ih =>
    by_cases hit : e.1 = k
    · have dropped : (e :: rest).filter (fun e => e.1 ≠ k) = rest.filter (fun e => e.1 ≠ k) := by
        simp [hit]
      rw [dropped, ih]
      by_cases same : k' = k
      · simp [same]
      · simp [lookup, same, hit, Ne.symm same]
    · have kept : (e :: rest).filter (fun e => e.1 ≠ k) = e :: rest.filter (fun e => e.1 ≠ k) := by
        simp [hit]
      rw [kept, lookup, ih]
      by_cases same : k' = k
      · simp [same, hit]
      · simp [same, lookup]

theorem mem_of_lookup {k : κ} {v : ν} {l : List (κ × ν)} (found : lookup k l = some v) :
    (k, v) ∈ l := by
  induction l with
  | nil => simp [lookup] at found
  | cons e rest ih =>
    simp only [lookup] at found
    split_ifs at found with hit
    · cases found
      exact hit ▸ List.mem_cons_self
    · exact List.mem_cons_of_mem e (ih found)

theorem lookup_eq_none_of_le {k : κ} {e : κ × ν} {rest : List (κ × ν)}
    (sorted : (e :: rest).Pairwise fun a b => a.1 < b.1) (le : k ≤ e.1) :
    lookup k rest = none := by
  rw [List.pairwise_cons] at sorted
  cases found : lookup k rest with
  | none => rfl
  | some v => exact absurd (sorted.1 _ (mem_of_lookup found)) (not_lt.mpr le)

/-- Sorted lists of bindings that bind every key alike are equal. -/
theorem eq_of_lookup_eq : ∀ {l₁ l₂ : List (κ × ν)}, (l₁.Pairwise fun a b => a.1 < b.1) →
    (l₂.Pairwise fun a b => a.1 < b.1) → (∀ k, lookup k l₁ = lookup k l₂) → l₁ = l₂
  | [], [], _, _, _ => rfl
  | [], e :: _, _, _, same => by simpa [lookup] using same e.1
  | e :: _, [], _, _, same => by simpa [lookup] using same e.1
  | e₁ :: r₁, e₂ :: r₂, s₁, s₂, same => by
    have heads : e₁.1 = e₂.1 := by
      rcases lt_trichotomy e₁.1 e₂.1 with lt | eq | gt
      · have := same e₁.1
        simp [lookup, lt.ne', lookup_eq_none_of_le s₂ lt.le] at this
      · exact eq
      · have := same e₂.1
        simp [lookup, gt.ne', lookup_eq_none_of_le s₁ gt.le] at this
    have values : e₁.2 = e₂.2 := by simpa [lookup, heads] using same e₂.1
    have tails : ∀ k, lookup k r₁ = lookup k r₂ := by
      intro k
      by_cases hk : k = e₁.1
      · rw [lookup_eq_none_of_le s₁ hk.le, lookup_eq_none_of_le s₂ (hk ▸ heads ▸ le_rfl)]
      · have := same k
        simpa [lookup, Ne.symm hk, heads ▸ Ne.symm hk] using this
    rw [Prod.ext heads values, eq_of_lookup_eq (List.Pairwise.of_cons s₁)
      (List.Pairwise.of_cons s₂) tails]

/-! ## The map operations -/

/-- The map with no bindings. -/
def empty : SortedMap κ ν :=
  ⟨[], List.Pairwise.nil⟩

/-- The value bound to `k`. -/
def get (m : SortedMap κ ν) (k : κ) : Option ν :=
  lookup k m.entries

/-- Bind `k` to `v`, replacing its binding. -/
def put (m : SortedMap κ ν) (k : κ) (v : ν) : SortedMap κ ν :=
  ⟨insert k v m.entries, insert_sorted m.sorted⟩

/-- Remove the binding of `k`. -/
def delete (m : SortedMap κ ν) (k : κ) : SortedMap κ ν :=
  ⟨m.entries.filter fun e => e.1 ≠ k, m.sorted.filter _⟩

@[simp]
theorem get_empty (k : κ) : (empty : SortedMap κ ν).get k = none := rfl

@[simp]
theorem get_put (m : SortedMap κ ν) (k k' : κ) (v : ν) :
    (m.put k v).get k' = if k = k' then some v else m.get k' :=
  lookup_insert k k' v m.entries

@[simp]
theorem get_delete (m : SortedMap κ ν) (k k' : κ) :
    (m.delete k).get k' = if k' = k then none else m.get k' :=
  lookup_filter k k' m.entries

theorem ext_get {m₁ m₂ : SortedMap κ ν} (same : ∀ k, m₁.get k = m₂.get k) : m₁ = m₂ := by
  obtain ⟨l₁, s₁⟩ := m₁
  obtain ⟨l₂, s₂⟩ := m₂
  have : l₁ = l₂ := eq_of_lookup_eq s₁ s₂ same
  subst this
  rfl

instance [DecidableEq κ] [DecidableEq ν] : DecidableEq (SortedMap κ ν) := fun m₁ m₂ =>
  decidable_of_iff (m₁.entries = m₂.entries) (by
    obtain ⟨l₁, s₁⟩ := m₁
    obtain ⟨l₂, s₂⟩ := m₂
    simp)

theorem delete_put_of_get_eq_none {m : SortedMap κ ν} {k : κ} (free : m.get k = none) (v : ν) :
    (m.put k v).delete k = m :=
  ext_get fun k' => by
    by_cases same : k' = k
    · simp [same, free]
    · simp [same, Ne.symm same]

theorem put_put_of_get_eq_some {m : SortedMap κ ν} {k : κ} {old : ν} (bound : m.get k = some old)
    (v : ν) : (m.put k v).put k old = m :=
  ext_get fun k' => by
    by_cases same : k = k'
    · simp [← same, bound]
    · simp [same]

end SortedMap

end Bubble
