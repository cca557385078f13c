import Mathlib.Algebra.BigOperators.Group.List.Basic
import TokenRegistry.Proofs.Ledger.Balances

/-!
# All units on the books

The units of all accounts in all denominations can be counted by denomination as well:
they are the supplies of the denominations that anything is held in, each counted once.
-/
namespace TokenRegistry

section Sums

variable {ι κ ν : Type}

theorem sumOver_eq_sum (f : ν → Int) (es : List (κ × ν)) :
    OrderedMap.sumOver f es = (es.map fun e => f e.2).sum := by
  rw [OrderedMap.sumOver, List.sum, List.foldr_map]

end Sums

namespace Account

end Account

namespace Balances

theorem balance_of_mem {b : Balances} {e : Bytes × Account} (he : e ∈ b.accounts.entries)
    (denom : String) : e.2.balance denom = b.balance ⟨e.1⟩ denom := by
  rw [balance, account, (b.accounts.get?_eq_some_iff e.1 e.2).mpr he]
  rfl

end Balances

end TokenRegistry
