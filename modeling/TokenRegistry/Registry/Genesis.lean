import TokenRegistry.Genesis.Json
import TokenRegistry.Registry.Query

/-!
# Loading and exporting a registry

Loading writes the records of a sound genesis state one by one and leaves the
ledger alone, whose balances have a genesis of their own. Exporting gives the
tokens in the order of their slugs.
-/
namespace TokenRegistry

namespace Registry

variable {σ τ : Type} [Store σ]

def putAll [Slug.Spelling] : List Token → RegistryM σ τ Unit
  | [] => return ()
  | t :: ts => do
    put t.slug t
    putAll ts

def load [Slug.Spelling] (g : Genesis) : RegistryM σ τ Unit := do
  match g.validate with
  | .error e => throw e
  | .ok () =>
    putAll g.tokens
    note .info s!"initialized {g.tokens.length} branded tokens from genesis"

def exportGenesis : RegistryM σ τ Genesis := do
  return ⟨(← allTokens).map Prod.snd⟩

end Registry

end TokenRegistry
