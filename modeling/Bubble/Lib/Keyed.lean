import Mathlib

/-!
# Records stored by key

A store kept as a list of records, each with a key, where a reference to a record is its key:
reading a reference finds the record with that key, writing through it maps the records with that
key and deleting it filters them out.  With distinct keys the list is a finite map whose order is
the order of iteration.  The lemmas say how reading meets writing and deleting, and that writing
or deleting a key no record has changes nothing.
-/

namespace Bubble
namespace Keyed

variable {α κ : Type} [DecidableEq κ] (key : α → κ)

/-- The record with key `k`. -/
def find (records : List α) (k : κ) : Option α :=
  records.find? fun a => key a = k

/-- Write `f` through the reference `k`. -/
def update (records : List α) (k : κ) (f : α → α) : List α :=
  records.map fun a => if key a = k then f a else a

/-- Delete the record with key `k`. -/
def erase (records : List α) (k : κ) : List α :=
  records.filter fun a => key a ≠ k

variable {key}

theorem find_eq_none_iff {records : List α} {k : κ} :
    find key records k = none ↔ ∀ a ∈ records, key a ≠ k := by
  simp [find]

theorem find_isSome_iff {records : List α} {k : κ} :
    (find key records k).isSome ↔ ∃ a ∈ records, key a = k := by
  simp [find, List.find?_isSome]

theorem find_mem {records : List α} {k : κ} {a : α} (found : find key records k = some a) :
    a ∈ records ∧ key a = k := by
  have := List.find?_some found
  exact ⟨List.mem_of_find?_eq_some found, by simpa using this⟩

theorem find_eq_some_iff {records : List α} (distinct : (records.map key).Nodup) {k : κ}
    {a : α} : find key records k = some a ↔ a ∈ records ∧ key a = k := by
  constructor
  · exact find_mem
  · rintro ⟨member, rfl⟩
    have present : (find key records (key a)).isSome := find_isSome_iff.mpr ⟨a, member, rfl⟩
    obtain ⟨b, found⟩ := Option.isSome_iff_exists.mp present
    obtain ⟨other, same⟩ := find_mem found
    rw [found, List.inj_on_of_nodup_map distinct other member same]

omit [DecidableEq κ] in
theorem eq_of_key_eq {records : List α} (distinct : (records.map key).Nodup) {a b : α}
    (first : a ∈ records) (second : b ∈ records) (same : key a = key b) : a = b :=
  List.inj_on_of_nodup_map distinct first second same

theorem mem_update {f : α → α} {records : List α} {k : κ} {a : α} :
    a ∈ update key records k f ↔ (∃ b ∈ records, key b = k ∧ f b = a) ∨ (a ∈ records ∧ key a ≠ k) := by
  simp only [update, List.mem_map]
  constructor
  · rintro ⟨b, member, rfl⟩
    by_cases hit : key b = k
    · exact .inl ⟨b, member, hit, by simp [hit]⟩
    · exact .inr ⟨by simpa [hit] using member, by simp [hit]⟩
  · rintro (⟨b, member, hit, rfl⟩ | ⟨member, miss⟩)
    · exact ⟨b, member, by simp [hit]⟩
    · exact ⟨a, member, by simp [miss]⟩

section Update

variable {f : α → α} (keeps : ∀ a, key (f a) = key a)
include keeps

theorem map_key_update (records : List α) (k : κ) :
    (update key records k f).map key = records.map key := by
  induction records with
  | nil => rfl
  | cons a rest ih =>
      by_cases hit : key a = k <;> simp [update, hit, keeps] at ih ⊢ <;> exact ih

theorem erase_update_self (records : List α) (k : κ) :
    erase key (update key records k f) k = erase key records k := by
  induction records with
  | nil => rfl
  | cons a rest ih =>
      by_cases hit : key a = k <;> simp_all [update, erase]

end Update

theorem update_append_singleton (records : List α) (a : α) (k : κ) (f : α → α) :
    update key (records ++ [a]) k f = update key records k f ++ [if key a = k then f a else a] := by
  simp [update]

theorem update_of_absent {records : List α} {k : κ} (absent : ∀ a ∈ records, key a ≠ k)
    (f : α → α) : update key records k f = records := by
  simp only [update]
  conv_rhs => rw [← List.map_id records]
  exact List.map_congr_left fun a member => by simp [absent a member]

@[simp]
theorem mem_erase {records : List α} {k : κ} {a : α} :
    a ∈ erase key records k ↔ a ∈ records ∧ key a ≠ k := by
  simp [erase]

theorem erase_sublist (records : List α) (k : κ) : (erase key records k).Sublist records :=
  List.filter_sublist

theorem find_erase (records : List α) (k x : κ) :
    find key (erase key records k) x = if x = k then none else find key records x := by
  split_ifs with same
  · subst same
    exact find_eq_none_iff.mpr fun a mem => (mem_erase.mp mem).2
  · simp only [find, erase, List.find?_filter]
    congr 1
    funext a
    by_cases hit : key a = x
    · simp [hit, same]
    · simp [hit]

theorem nodup_map_erase_append {records : List α} (distinct : (records.map key).Nodup) {a : α}
    {k : κ} (keyed : key a = k) : ((erase key records k ++ [a]).map key).Nodup := by
  rw [List.map_append, List.nodup_append]
  refine ⟨distinct.sublist ((erase_sublist records k).map key), List.nodup_singleton _, ?_⟩
  simp only [List.map_cons, List.map_nil, List.mem_singleton, List.mem_map, mem_erase]
  rintro _ ⟨b, ⟨_, other⟩, rfl⟩ _ rfl
  exact fun same => other (same.trans keyed)

theorem find_filter_eq_some_iff {records : List α} (distinct : (records.map key).Nodup)
    (p : α → Bool) {k : κ} {a : α} :
    find key (records.filter p) k = some a ↔ find key records k = some a ∧ p a := by
  have kept : ((records.filter p).map key).Nodup :=
    distinct.sublist ((List.filter_sublist).map key)
  rw [find_eq_some_iff kept, find_eq_some_iff distinct, List.mem_filter]
  tauto

theorem find_filter_eq_none {records : List α} {k : κ} (absent : find key records k = none)
    (p : α → Bool) : find key (records.filter p) k = none :=
  find_eq_none_iff.mpr fun a mem => find_eq_none_iff.mp absent a (List.mem_filter.mp mem).1

/-! ## Keeping the first record of each key -/

variable (key) in
/-- Add `a` unless a record has its key already. -/
def insertNew (records : List α) (a : α) : List α :=
  if (find key records (key a)).isSome then records else records ++ [a]

theorem find_append_singleton (records : List α) (a : α) (k : κ) :
    find key (records ++ [a]) k = (find key records k).or (if key a = k then some a else none) := by
  by_cases hit : key a = k <;> simp [find, List.find?_append, hit]

theorem find_insertNew (records : List α) (a : α) (k : κ) :
    find key (insertNew key records a) k = find key (records ++ [a]) k := by
  unfold insertNew
  split_ifs with taken
  · rw [find_append_singleton]
    by_cases hit : key a = k
    · rw [← hit]
      obtain ⟨b, found⟩ := Option.isSome_iff_exists.mp taken
      rw [found, Option.some_or]
    · simp only [hit, if_false, Option.or_none]
  · rfl

theorem find_foldl_insertNew (l : List α) (k : κ) :
    find key (l.foldl (insertNew key) []) k = find key l k := by
  induction l using List.reverseRecOn with
  | nil => rfl
  | append_singleton l a ih =>
    rw [List.foldl_append, List.foldl_cons, List.foldl_nil, find_insertNew, find_append_singleton,
      ih, find_append_singleton]

end Keyed
end Bubble
