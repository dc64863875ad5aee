import Mathlib
import Bubble.Lib.SortedMap

/-!
# Maps written in layers

A stack of sorted maps, oldest first, read as one map: a key reads its binding in the newest
layer that binds it (`lastWrite`), and `flatten` presses the stack into one map that reads the
same.  Folding a one-key write over the bindings of a map lands that map on another one: each key
then reads as the map's binding when it has one and as before otherwise (`get_foldl_entries`).

Last, the smallest bindings of a sorted list: a sorted part of it of length at most `n`, with
every binding it leaves out above all of its own, and of length `n` as soon as it leaves one out,
is the first `n` bindings (`eq_take_of_above`).
-/

namespace Bubble
namespace SortedMap

variable {κ ν μ : Type} [LinearOrder κ]

/-- The binding of `k` in the newest of `layers`, which are listed oldest first. -/
def lastWrite (layers : List (SortedMap κ ν)) (k : κ) : Option ν :=
  layers.reverse.findSome? fun layer => layer.get k

@[simp]
theorem lastWrite_nil (k : κ) : lastWrite ([] : List (SortedMap κ ν)) k = none := rfl

@[simp]
theorem lastWrite_append_singleton (layers : List (SortedMap κ ν)) (layer : SortedMap κ ν)
    (k : κ) : lastWrite (layers ++ [layer]) k = (layer.get k).or (lastWrite layers k) := by
  cases found : layer.get k <;> simp [lastWrite, found]

theorem lastWrite_append (lower upper : List (SortedMap κ ν)) (k : κ) :
    lastWrite (lower ++ upper) k = (lastWrite upper k).or (lastWrite lower k) := by
  induction upper using List.reverseRecOn with
  | nil => simp
  | append_singleton upper layer ih =>
    rw [← List.append_assoc, lastWrite_append_singleton, ih, lastWrite_append_singleton,
      Option.or_assoc]

theorem lastWrite_map {β : Type} (l : List β) (f : β → SortedMap κ ν) (k : κ) :
    lastWrite (l.map f) k = l.reverse.findSome? fun b => (f b).get k := by
  rw [lastWrite, ← List.map_reverse, List.findSome?_map]
  rfl

theorem lookup_eq_some_iff {l : List (κ × ν)} (distinct : l.Pairwise fun a b => a.1 ≠ b.1) {k : κ}
    {v : ν} : lookup k l = some v ↔ (k, v) ∈ l := by
  refine ⟨mem_of_lookup, fun mem => ?_⟩
  induction l with
  | nil => simp at mem
  | cons a rest ih =>
    rw [List.pairwise_cons] at distinct
    rcases List.mem_cons.mp mem with rfl | tail
    · simp [lookup]
    · have other : a.1 ≠ k := distinct.1 _ tail
      simp [lookup, other, ih distinct.2 tail]

theorem mem_entries_iff {m : SortedMap κ ν} {e : κ × ν} : e ∈ m.entries ↔ m.get e.1 = some e.2 :=
  (lookup_eq_some_iff (m.sorted.imp ne_of_lt)).symm

theorem eq_of_mem_iff {l₁ l₂ : List (κ × ν)} (sorted₁ : l₁.Pairwise fun a b => a.1 < b.1)
    (sorted₂ : l₂.Pairwise fun a b => a.1 < b.1) (same : ∀ e, e ∈ l₁ ↔ e ∈ l₂) : l₁ = l₂ :=
  eq_of_lookup_eq sorted₁ sorted₂ fun k => Option.ext fun v => by
    rw [lookup_eq_some_iff (sorted₁.imp ne_of_lt), lookup_eq_some_iff (sorted₂.imp ne_of_lt), same]

theorem lookup_filter_key (p : κ → Bool) (k : κ) (l : List (κ × ν)) :
    lookup k (l.filter fun e => p e.1) = if p k then lookup k l else none := by
  induction l with
  | nil => simp [lookup]
  | cons e rest ih =>
    by_cases hit : e.1 = k
    · subst hit
      by_cases keep : p e.1 <;> simp [lookup, keep, ih]
    · by_cases keep : p e.1 <;> simp [lookup, keep, hit, ih]

theorem lookup_map_value (f : ν → μ) (k : κ) (l : List (κ × ν)) :
    lookup k (l.map fun e => (e.1, f e.2)) = (lookup k l).map f := by
  induction l with
  | nil => rfl
  | cons e rest ih => by_cases hit : e.1 = k <;> simp [lookup, hit, ih]

/-! ## Landing one map on another -/

section Land

variable {write : SortedMap κ μ → κ × ν → SortedMap κ μ} {value : ν → Option μ}
  (reads : ∀ m e k, (write m e).get k = if e.1 = k then value e.2 else m.get k)
include reads

theorem get_foldl_of_distinct {l : List (κ × ν)} (distinct : l.Pairwise fun a b => a.1 ≠ b.1)
    (m : SortedMap κ μ) (k : κ) : (l.foldl write m).get k = (lookup k l).elim (m.get k) value := by
  induction l generalizing m with
  | nil => rfl
  | cons e rest ih =>
    rw [List.foldl_cons, ih (List.Pairwise.of_cons distinct), reads]
    by_cases hit : e.1 = k
    · have absent : lookup k rest = none := by
        cases found : lookup k rest with
        | none => rfl
        | some v => exact absurd hit ((List.pairwise_cons.mp distinct).1 _ (mem_of_lookup found))
      simp [lookup, hit, absent]
    · simp [lookup, hit]

theorem get_foldl_entries (layer : SortedMap κ ν) (m : SortedMap κ μ) (k : κ) :
    (layer.entries.foldl write m).get k = (layer.get k).elim (m.get k) value :=
  get_foldl_of_distinct reads (layer.sorted.imp ne_of_lt) m k

end Land

/-- The layers pressed into one map, each written over those below it. -/
def flatten (layers : List (SortedMap κ ν)) : SortedMap κ ν :=
  layers.foldl (fun below layer => layer.entries.foldl (fun m e => m.put e.1 e.2) below) empty

theorem get_flatten (layers : List (SortedMap κ ν)) (k : κ) :
    (flatten layers).get k = lastWrite layers k := by
  induction layers using List.reverseRecOn with
  | nil => rfl
  | append_singleton layers layer ih =>
    have reads : ∀ (m : SortedMap κ ν) (e : κ × ν) k,
        (m.put e.1 e.2).get k = if e.1 = k then some e.2 else m.get k := fun m e k => get_put ..
    simp only [flatten, List.foldl_append, List.foldl_cons, List.foldl_nil] at ih ⊢
    rw [get_foldl_entries reads, ih, lastWrite_append_singleton]
    cases layer.get k <;> rfl

/-! ## The smallest bindings -/

/-- A sorted part of sorted bindings, of length at most `n`, that leaves out only bindings above
all of its own and only once it has `n` of them, is the first `n` bindings. -/
theorem eq_take_of_above {n : ℕ} {part all : List (κ × ν)}
    (sortedPart : part.Pairwise fun a b => a.1 < b.1)
    (sortedAll : all.Pairwise fun a b => a.1 < b.1) (sub : ∀ e ∈ part, e ∈ all)
    (short : part.length ≤ n)
    (above : ∀ e ∈ all, e ∉ part → part.length = n ∧ ∀ a ∈ part, a.1 < e.1) :
    part = all.take n := by
  induction all generalizing part n with
  | nil => simpa [List.eq_nil_iff_forall_not_mem] using sub
  | cons c rest ih =>
    rw [List.pairwise_cons] at sortedAll
    cases n with
    | zero => simpa using short
    | succ m =>
      cases part with
      | nil => simpa using (above c List.mem_cons_self (List.not_mem_nil)).1
      | cons a part =>
        rw [List.pairwise_cons] at sortedPart
        have first : a = c := by
          by_contra other
          have below : c.1 < a.1 := by
            rcases List.mem_cons.mp (sub a List.mem_cons_self) with same | later
            · exact absurd same other
            · exact sortedAll.1 a later
          have kept : c ∈ a :: part := by
            by_contra left
            exact lt_asymm below ((above c List.mem_cons_self left).2 a List.mem_cons_self)
          rcases List.mem_cons.mp kept with same | later
          · exact other same.symm
          · exact lt_asymm below (sortedPart.1 c later)
        subst first
        have tail : part = rest.take m := by
          refine ih sortedPart.2 sortedAll.2 (fun e mem => ?_) (by simpa using short)
            (fun e mem left => ?_)
          · rcases List.mem_cons.mp (sub e (List.mem_cons_of_mem a mem)) with rfl | later
            · exact absurd (sortedPart.1 e mem) (lt_irrefl _)
            · exact later
          · have fresh : e ∉ a :: part := by
              intro kept
              rcases List.mem_cons.mp kept with rfl | later
              · exact lt_irrefl _ (sortedAll.1 e mem)
              · exact left later
            obtain ⟨count, below⟩ := above e (List.mem_cons_of_mem a mem) fresh
            exact ⟨by simpa using count, fun b mem' => below b (List.mem_cons_of_mem a mem')⟩
        rw [tail, List.take_succ_cons]

end SortedMap
end Bubble
