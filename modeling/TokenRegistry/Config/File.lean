import TokenRegistry.Config
import TokenRegistry.Error

/-!
# Configuration files

A configuration is loaded from a file that holds its JSON as UTF-8. What went wrong
stands under a line that names the file.
-/
namespace TokenRegistry.Config

inductive LoadCause
  | noFile
  | notText
  | json (e : Json.ReadError)
  deriving DecidableEq, Repr

def LoadCause.message : LoadCause → String
  | .noFile => "No such file or directory (os error 2)"
  | .notText => "stream did not contain valid UTF-8"
  | .json e => e.message

structure LoadError where
  path : String
  cause : LoadCause
  deriving DecidableEq, Repr

def LoadError.toStoreError (e : LoadError) : StoreError :=
  let action := match e.cause with
    | .json _ => "parse"
    | _ => "read"
  .context s!"Failed to {action} config file {Text.Quoted.string e.path}"

def load (path : String) (content : Option Bytes) : Except LoadError Config :=
  match content with
  | none => .error ⟨path, .noFile⟩
  | some bytes =>
    match Text.Utf8.toString? bytes with
    | .error _ => .error ⟨path, .notText⟩
    | .ok text => (Json.readPage read text).mapError fun e => ⟨path, .json e⟩

end TokenRegistry.Config
