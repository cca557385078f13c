import TokenRegistry.Registry
import TokenRegistry.Token

/-!
# Queries

A query reads the registry and changes nothing in it. Names are looked up by their
slugs. Queries by path are answered with indented JSON.
-/
namespace TokenRegistry

namespace Registry

variable {σ τ : Type} [Store σ]

def getToken [Slug.Spelling] (name : String) : RegistryM σ τ Token := do
  let slug := Slug.ofName name
  match ← find? slug with
  | some t => return t
  | none => throw (.notFound slug)

def listTokens : RegistryM σ τ (List String) := collect fun r => slugOfKey r.1

def allTokens : RegistryM σ τ (List (String × Token)) := collect entryOfRecord

def totalSupply : RegistryM σ τ Int := do
  return (← allTokens).foldr (fun e supply => e.2.amount + supply) 0

def answer (v : Json) : String := String.ofList v.indented

/-- Answers a query by its path: `get` and a name, `list`, or `supply`. -/
def query [Slug.Spelling] (path : List String) : RegistryM σ τ String := do
  match path with
  | "get" :: name :: _ => return answer (← getToken name).toJson
  | ["get"] => throw (.validation .missingQueryName)
  | "list" :: _ => return answer (.array ((← listTokens).map Json.string))
  | "supply" :: _ => return answer (.string (Amount.text (← totalSupply)))
  | other =>
    let route := (← Attempt.state).config.queryRoute
    let endpoint := other.head?.getD "<empty>"
    throw (.unknownRequest s!"unknown {route} query endpoint: {endpoint}")

end Registry

end TokenRegistry
