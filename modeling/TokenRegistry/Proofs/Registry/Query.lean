import TokenRegistry.Proofs.Command.Json
import TokenRegistry.Proofs.Config
import TokenRegistry.Registry.Query

/-!
# Whatever is written is read back

Every type with a JSON form is read back from its compact text. A query by path fails
as the question behind it fails; otherwise it leaves the same state, and from its
indented text the answer to the question is read back.
-/
namespace TokenRegistry

open Json

namespace Registry

variable {σ τ α : Type}

/-- The text told is one from which the answer to what was asked is read. -/
def Tells (read : Reader α) (asked : RegistryM σ τ α) (told : RegistryM σ τ String) : Prop :=
  ∀ r, match asked r with
    | (.ok a, r') => ∃ text, told r = (.ok text, r') ∧ readPage read text = .ok a
    | (.error e, r') => told r = (.error e, r')

theorem tells_answer {read : Reader α} {write : α → Json} (h : Inverts read write)
    (asked : RegistryM σ τ α) : Tells read asked (asked >>= fun a => pure (answer (write a))) := by
  intro r
  cases hasked : asked r with
  | mk a r' =>
    cases a with
    | ok a => exact ⟨_, Attempt.bind_of_ok hasked, h.readPage_indented a⟩
    | error e => exact Attempt.bind_of_error hasked

section Queries

variable [Store σ] [Slug.Spelling] (more : List String)

theorem query_get (name : String) : Tells Token.read (getToken name : RegistryM σ τ Token)
    (query ("get" :: name :: more)) :=
  tells_answer Token.inverts_read (getToken name)

theorem query_list : Tells (readList readText) (listTokens : RegistryM σ τ (List String))
    (query ("list" :: more)) :=
  tells_answer inverts_readText.readList listTokens

theorem query_supply : Tells readText (Amount.text <$> (totalSupply : RegistryM σ τ Int))
    (query ("supply" :: more)) := by
  have htold := tells_answer inverts_readText (Amount.text <$> (totalSupply : RegistryM σ τ Int))
  rwa [Attempt.map_bind] at htold

end Queries

end Registry

open Registry

/-- Nothing that is written as JSON, compact or as the answer to a query, is lost or changed when
it is read. -/
theorem readsBack_all {σ τ : Type} [Store σ] [Slug.Spelling] :
    (ReadsBack Address.read Address.toJson ∧ ReadsBack Token.read Token.toJson ∧
      ReadsBack Coin.read Coin.toJson ∧ ReadsBack Coins.read Coins.toJson ∧
      ReadsBack Command.read Command.toJson ∧ ReadsBack Creation.read Creation.toJson ∧
      ReadsBack Transfer.read Transfer.toJson ∧ ReadsBack Minting.read Minting.toJson ∧
      ReadsBack Burning.read Burning.toJson ∧ ReadsBack Genesis.read Genesis.toJson ∧
      ReadsBack Backend.read Backend.toJson ∧ ReadsBack Config.read Config.toJson ∧
      ReadsBack Attribute.read Attribute.toJson ∧ ReadsBack Event.read Event.toJson ∧
      ReadsBack Receipt.read Receipt.toJson) ∧
    (∀ name more, Tells Token.read (getToken name : RegistryM σ τ Token)
      (query ("get" :: name :: more))) ∧
    (∀ more, Tells (readList readText) (listTokens : RegistryM σ τ (List String))
      (query ("list" :: more))) ∧
    ∀ more, Tells readText (Amount.text <$> (totalSupply : RegistryM σ τ Int))
      (query ("supply" :: more)) := by
  refine ⟨?_, fun name more => query_get more name, query_list, query_supply⟩
  exact ⟨Address.inverts_read.readsBack, Token.inverts_read.readsBack,
    Coin.inverts_read.readsBack, Coins.inverts_read.readsBack, Command.inverts_read.readsBack,
    Creation.inverts_read.readsBack, Transfer.inverts_read.readsBack,
    Minting.inverts_read.readsBack, Burning.inverts_read.readsBack,
    Genesis.inverts_read.readsBack, Backend.inverts_read.readsBack,
    Config.inverts_read.readsBack, Attribute.inverts_read.readsBack,
    Event.inverts_read.readsBack, Receipt.inverts_read.readsBack⟩

end TokenRegistry
