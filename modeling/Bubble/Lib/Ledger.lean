import Mathlib

/-!
# Balances and totals

Account balances are a function from accounts to integers.  A transfer debits the sender and then
credits the receiver, so a transfer from an account to itself changes nothing; a credit adds to
one account.  A total over a finite account space changes under a point update by the difference
at that point; conservation arguments about a ledger reduce to these facts.
-/

namespace Bubble
namespace Ledger

variable {α : Type*} [DecidableEq α]

/-- Debit `amount` from `src`, then credit it to `dst`. -/
def transfer (balance : α → ℤ) (src dst : α) (amount : ℤ) : α → ℤ :=
  fun account =>
    balance account - (if account = src then amount else 0) + (if account = dst then amount else 0)

@[simp]
theorem transfer_of_ne {balance : α → ℤ} {src dst account : α} (not_src : account ≠ src)
    (not_dst : account ≠ dst) (amount : ℤ) :
    transfer balance src dst amount account = balance account := by
  simp [transfer, not_src, not_dst]

@[simp]
theorem transfer_src {balance : α → ℤ} {src dst : α} (distinct : src ≠ dst) (amount : ℤ) :
    transfer balance src dst amount src = balance src - amount := by
  simp [transfer, distinct]

@[simp]
theorem transfer_dst {balance : α → ℤ} {src dst : α} (distinct : src ≠ dst) (amount : ℤ) :
    transfer balance src dst amount dst = balance dst + amount := by
  simp [transfer, Ne.symm distinct]

theorem le_transfer_of_ne_src {balance : α → ℤ} {src account : α} (not_src : account ≠ src)
    (dst : α) {amount : ℤ} (nonneg : 0 ≤ amount) :
    balance account ≤ transfer balance src dst amount account := by
  by_cases to_dst : account = dst
  · subst to_dst
    simp [transfer, not_src, nonneg]
  · simp [transfer, not_src, to_dst]

/-- Add `amount` to the balance of `account`; a negative amount debits it. -/
def credit (balance : α → ℤ) (account : α) (amount : ℤ) : α → ℤ :=
  Function.update balance account (balance account + amount)

@[simp]
theorem credit_same (balance : α → ℤ) (account : α) (amount : ℤ) :
    credit balance account amount account = balance account + amount := by
  simp [credit]

@[simp]
theorem credit_of_ne {balance : α → ℤ} {account other : α} (distinct : other ≠ account)
    (amount : ℤ) : credit balance account amount other = balance other := by
  simp [credit, distinct]

theorem le_credit (balance : α → ℤ) (account other : α) {amount : ℤ} (nonneg : 0 ≤ amount) :
    balance other ≤ credit balance account amount other := by
  by_cases same : other = account
  · subst same
    simp [nonneg]
  · simp [same]

section Total

variable [Fintype α] {M : Type*} [AddCommGroup M]

theorem sum_update (f : α → M) (point : α) (value : M) :
    ∑ account, Function.update f point value account = ∑ account, f account - f point + value := by
  rw [Finset.sum_update_of_mem (Finset.mem_univ point), Fintype.sum_eq_add_sum_compl point f]
  simp only [Finset.compl_eq_univ_sdiff]
  abel

end Total

end Ledger
end Bubble
