import Mathlib

/-!
# Loops that stop at the first failure

A loop whose body may fail, run the way a Go loop that returns its error (or panics) runs: the
first failing iteration ends the loop with its failure.  `countM` counts the elements a fallible
test accepts, `sumM` adds up a fallible measure and `collectM` keeps what a fallible step
produces.  The lemmas say when a loop succeeds, with what result, and where it fails.  A loop
that keeps the best element seen so far ends on its start or on an element (`foldl_pick`).
-/

namespace Bubble
namespace Traverse

variable {α β ε : Type}

/-- Count the elements a fallible test accepts. -/
def countM (test : α → Except ε Bool) : List α → Except ε ℕ
  | [] => .ok 0
  | a :: rest =>
      match test a with
      | .error failure => .error failure
      | .ok hit =>
          match countM test rest with
          | .error failure => .error failure
          | .ok count => .ok (if hit then count + 1 else count)

/-- Add up what a fallible measure gives the elements. -/
def sumM (measure : α → Except ε ℕ) : List α → Except ε ℕ
  | [] => .ok 0
  | a :: rest =>
      match measure a with
      | .error failure => .error failure
      | .ok value =>
          match sumM measure rest with
          | .error failure => .error failure
          | .ok total => .ok (value + total)

/-- Keep the values a fallible step produces. -/
def collectM (step : α → Except ε (Option β)) : List α → Except ε (List β)
  | [] => .ok []
  | a :: rest =>
      match step a with
      | .error failure => .error failure
      | .ok out =>
          match collectM step rest with
          | .error failure => .error failure
          | .ok kept => .ok (out.toList ++ kept)

theorem countM_eq_ok {test : α → Except ε Bool} {hit : α → Bool} :
    ∀ {l : List α}, (∀ a ∈ l, test a = .ok (hit a)) → countM test l = .ok (l.countP hit)
  | [], _ => rfl
  | a :: rest, total => by
      have head := total a List.mem_cons_self
      have tail := countM_eq_ok fun b member => total b (List.mem_cons_of_mem a member)
      cases decide : hit a <;> simp [countM, head, tail, decide]

theorem countM_eq_error {test : α → Except ε Bool} {failure : ε} (a : α) (back : List α)
    (fails : test a = .error failure) :
    ∀ {front : List α}, (∀ b ∈ front, ∃ hit, test b = .ok hit) →
      countM test (front ++ a :: back) = .error failure
  | [], _ => by simp [countM, fails]
  | b :: front, passes => by
      obtain ⟨hit, passed⟩ := passes b List.mem_cons_self
      have rest := countM_eq_error a back fails
        fun c member => passes c (List.mem_cons_of_mem b member)
      simp [countM, passed, rest]

theorem sumM_eq_ok {measure : α → Except ε ℕ} {value : α → ℕ} :
    ∀ {l : List α}, (∀ a ∈ l, measure a = .ok (value a)) → sumM measure l = .ok (l.map value).sum
  | [], _ => rfl
  | a :: rest, total => by
      have head := total a List.mem_cons_self
      have tail := sumM_eq_ok fun b member => total b (List.mem_cons_of_mem a member)
      simp [sumM, head, tail]

theorem sumM_eq_error_of_mem {measure : α → Except ε ℕ} {failure : ε} :
    ∀ {l : List α}, (∀ a ∈ l, (∃ value, measure a = .ok value) ∨ measure a = .error failure) →
      (∃ a ∈ l, measure a = .error failure) → sumM measure l = .error failure
  | [], _, ⟨_, absent, _⟩ => absurd absent List.not_mem_nil
  | a :: rest, outcomes, ⟨b, member, fails⟩ => by
      rcases outcomes a List.mem_cons_self with ⟨value, measured⟩ | failed
      · have later : ∃ c ∈ rest, measure c = .error failure := by
          rcases List.mem_cons.mp member with rfl | member
          · simp [measured] at fails
          · exact ⟨b, member, fails⟩
        have tail := sumM_eq_error_of_mem
          (fun c member => outcomes c (List.mem_cons_of_mem a member)) later
        simp [sumM, measured, tail]
      · simp [sumM, failed]

theorem mapM_eq_ok_map {γ : Type} {f : α → Except ε β} {g : α → γ} {h : β → γ}
    (keeps : ∀ a b, f a = .ok b → h b = g a) :
    ∀ {l : List α} {r : List β}, l.mapM f = .ok r → r.map h = l.map g
  | [], r, mapped => by
      simp only [List.mapM_nil, pure, Except.pure, Except.ok.injEq] at mapped
      simp [← mapped]
  | a :: rest, r, mapped => by
      rw [List.mapM_cons] at mapped
      cases first : f a with
      | error failure => simp [first, bind, Except.bind] at mapped
      | ok b =>
          cases later : rest.mapM f with
          | error failure => simp [first, later, bind, Except.bind] at mapped
          | ok bs =>
              simp only [first, later, bind, Except.bind, pure, Except.pure, Except.ok.injEq] at mapped
              subst mapped
              simp [keeps a b first, mapM_eq_ok_map keeps later]

theorem foldl_pick (prefer : α → α → Prop) [DecidableRel prefer] :
    ∀ (l : List α) (start : α),
      l.foldl (fun best a => if prefer best a then a else best) start = start ∨
        l.foldl (fun best a => if prefer best a then a else best) start ∈ l
  | [], _ => .inl rfl
  | a :: rest, start => by
      rw [List.foldl_cons]
      rcases foldl_pick prefer rest (if prefer start a then a else start) with same | later
      · rw [same]
        split
        · exact .inr List.mem_cons_self
        · exact .inl rfl
      · exact .inr (List.mem_cons_of_mem a later)

theorem foldl_keeps {σ γ : Type} (view : σ → γ) {step : σ → α → σ}
    (keeps : ∀ s a, view (step s a) = view s) : ∀ (l : List α) (s : σ), view (l.foldl step s) = view s
  | [], _ => rfl
  | a :: rest, s => by rw [List.foldl_cons, foldl_keeps view keeps rest, keeps]

/-! ## Maps and queues a loop fills -/

theorem mem_map_filter_key {κ : Type} {key : α → κ} {p : κ → Bool} {l : List α} {k : κ} :
    k ∈ (l.filter fun a => p (key a)).map key ↔ k ∈ l.map key ∧ p k = true := by
  constructor
  · intro member
    obtain ⟨a, kept, rfl⟩ := List.mem_map.mp member
    rw [List.mem_filter] at kept
    exact ⟨List.mem_map_of_mem kept.1, kept.2⟩
  · rintro ⟨member, pass⟩
    obtain ⟨a, inList, rfl⟩ := List.mem_map.mp member
    exact List.mem_map_of_mem (List.mem_filter.mpr ⟨inList, pass⟩)

section Fill

variable {κ : Type} [DecidableEq κ]

theorem foldl_update_apply (key : α → κ) (p : κ → Bool) (value : κ → β) :
    ∀ (l : List α) (m : κ → β) (k : κ),
      l.foldl (fun m a => if p (key a) then Function.update m (key a) (value (key a)) else m) m k =
        if k ∈ l.map key ∧ p k = true then value k else m k
  | [], m, k => by simp
  | a :: rest, m, k => by
      rw [List.foldl_cons, foldl_update_apply key p value rest]
      by_cases same : key a = k
      · subst same
        by_cases pass : p (key a) <;> simp [pass]
      · have other : k ≠ key a := Ne.symm same
        have unchanged :
            (if p (key a) then Function.update m (key a) (value (key a)) else m) k = m k := by
          split_ifs <;> simp [Function.update_of_ne other]
        simp only [unchanged, List.map_cons, List.mem_cons, other, false_or]

theorem foldl_update_of_nodup (key : α → κ) (p : α → Bool) (value : α → β) :
    ∀ {l : List α}, (l.map key).Nodup → ∀ (m : κ → β) (k : κ),
      l.foldl (fun m a => if p a then Function.update m (key a) (value a) else m) m k =
        ((l.find? fun a => key a = k ∧ p a).map value).getD (m k)
  | [], _, m, k => by simp
  | a :: rest, distinct, m, k => by
      rw [List.map_cons, List.nodup_cons] at distinct
      rw [List.foldl_cons, foldl_update_of_nodup key p value distinct.2]
      by_cases same : key a = k
      · subst same
        have later : ∀ b ∈ rest, key b ≠ key a := fun b member hit =>
          distinct.1 (hit ▸ List.mem_map_of_mem member)
        have absent : rest.find? (fun b => decide (key b = key a) && p b) = none :=
          List.find?_eq_none.mpr fun b member => by simp [later b member]
        by_cases pass : p a <;> simp [absent, pass]
      · have other : k ≠ key a := Ne.symm same
        split_ifs <;> simp [same, Function.update_of_ne other]

/-- With distinct keys, a loop that writes `value a` under the key of each element `a` whose key
is already present leaves the present keys with the value of the element that has the key, if
any, and every key present or absent as it was. -/
theorem foldl_update_present (key : α → κ) (value : α → β) :
    ∀ {l : List α}, (l.map key).Nodup → ∀ (m : κ → Option β) (k : κ),
      l.foldl (fun m a => if (m (key a)).isSome then Function.update m (key a) (some (value a))
          else m) m k =
        if (m k).isSome then ((l.find? fun a => key a = k).map fun a => some (value a)).getD (m k)
        else m k
  | [], _, m, k => by split_ifs <;> simp
  | a :: rest, distinct, m, k => by
      rw [List.map_cons, List.nodup_cons] at distinct
      rw [List.foldl_cons, foldl_update_present key value distinct.2]
      have present : ∀ k', ((if (m (key a)).isSome then Function.update m (key a) (some (value a))
          else m) k').isSome = (m k').isSome := by
        intro k'
        split_ifs with here
        · by_cases same : k' = key a
          · subst same
            simp [here]
          · simp [Function.update_of_ne same]
        · rfl
      rw [present]
      by_cases same : key a = k
      · subst same
        have later : ∀ b ∈ rest, key b ≠ key a := fun b member hit =>
          distinct.1 (hit ▸ List.mem_map_of_mem member)
        have absent : rest.find? (fun b => decide (key b = key a)) = none :=
          List.find?_eq_none.mpr fun b member => by simp [later b member]
        by_cases here : (m (key a)).isSome <;> simp [absent, here]
      · have other : k ≠ key a := Ne.symm same
        have unchanged : (if (m (key a)).isSome then Function.update m (key a) (some (value a))
            else m) k = m k := by
          split_ifs <;> simp [Function.update_of_ne other]
        simp [unchanged, same]

theorem find?_key_eq {key : α → κ} {p : α → Bool} {l : List α} (distinct : (l.map key).Nodup)
    {a : α} (member : a ∈ l) (pass : p a = true) :
    l.find? (fun b => key b = key a ∧ p b = true) = some a := by
  obtain ⟨b, found⟩ : ∃ b, l.find? (fun b => key b = key a ∧ p b = true) = some b :=
    Option.isSome_iff_exists.mp (List.find?_isSome.mpr ⟨a, member, by simp [pass]⟩)
  have holds := List.find?_some found
  simp only [decide_eq_true_eq] at holds
  rw [found, List.inj_on_of_nodup_map distinct (List.mem_of_find?_eq_some found) member holds.1]

theorem foldl_insert (key : α → κ) (p : α → Bool) :
    ∀ (l : List α) {s : List κ}, s.Nodup →
      (l.foldl (fun s a => if p a then s.insert (key a) else s) s).Nodup ∧
        ∀ k, k ∈ l.foldl (fun s a => if p a then s.insert (key a) else s) s ↔
          k ∈ s ∨ ∃ a ∈ l, p a ∧ key a = k
  | [], s, distinct => by simpa using distinct
  | a :: rest, s, distinct => by
      rw [List.foldl_cons]
      have step : (if p a then s.insert (key a) else s).Nodup := by
        split_ifs
        · exact distinct.insert
        · exact distinct
      obtain ⟨nodup, mem⟩ := foldl_insert key p rest step
      refine ⟨nodup, fun k => ?_⟩
      rw [mem]
      by_cases pass : p a
      · simp only [pass, if_true, List.mem_insert_iff, List.mem_cons, exists_eq_or_imp]
        grind
      · simp [pass]

theorem foldl_append_filter (p : α → Bool) (f : α → β) :
    ∀ (l : List α) (q : List β),
      l.foldl (fun q a => if p a then q ++ [f a] else q) q = q ++ (l.filter p).map f
  | [], q => by simp
  | a :: rest, q => by
      rw [List.foldl_cons, foldl_append_filter p f rest]
      by_cases pass : p a <;> simp [pass]

end Fill

end Traverse
end Bubble
