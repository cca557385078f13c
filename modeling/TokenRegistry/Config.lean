import TokenRegistry.Json.Printer
import TokenRegistry.Json.Variant

/-!
# Configuration

A configuration gives the registry the names that it goes by, the label of
addresses in text, and the place where its records are kept. Everything has a
default, which a field left out of the JSON takes.
-/
namespace TokenRegistry

inductive Backend
  | memory
  | sqlite (path : String)
  | rocksdb (path : String)
  deriving DecidableEq, Repr

structure Config where
  moduleName : String
  commandRoute : String
  queryRoute : String
  addressLabel : String
  backend : Backend
  deriving DecidableEq, Repr

namespace Config

def standardName : String := "surprise"

def standard : Config := ⟨standardName, standardName, standardName, "sand", .memory⟩

instance : Inhabited Config := ⟨standard⟩

def logTarget (c : Config) : String := "x/" ++ c.moduleName

end Config

open Json

namespace Backend

def toJson : Backend → Json
  | .memory => .object [("backend", .string "memory")]
  | .sqlite path => .object [("backend", .string "sqlite"), ("path", .string path)]
  | .rocksdb path => .object [("backend", .string "rocksdb"), ("path", .string path)]

def pathLayout : Layout (String × Unit) := .field "path" (readString "path string") none .done

/-- The content of a backend without fields: any members, but no items. -/
def readNothing (b : Backend) : Reader Backend := fun s o =>
  match o with
  | .array items => (expectEnd s 0 items).map fun _ => b
  | _ => .ok b

def readPath (make : String → Backend) (name : String) : Reader Backend :=
  mapRead (fun (path, _) => make path)
    (pathLayout.readWith (.ofRecord s!"struct variant StoreConfig::{name}" pathLayout.count))

def variants : List (Variant Backend) :=
  [⟨"memory", readNothing .memory⟩, ⟨"sqlite", readPath .sqlite "Sqlite"⟩,
    ⟨"rocksdb", readPath .rocksdb "RocksDb"⟩]

def read : Reader Backend :=
  Variant.readWithin "internally tagged enum StoreConfig" "backend" variants

end Backend

namespace Config

def toJson (c : Config) : Json :=
  .object [("module_name", .string c.moduleName), ("router_key", .string c.commandRoute),
    ("querier_route", .string c.queryRoute), ("address_prefix", .string c.addressLabel),
    ("store", c.backend.toJson)]

def layout : Layout (String × String × String × String × Backend × Unit) :=
  .field "module_name" readText (some standard.moduleName) <|
    .field "router_key" readText (some standard.commandRoute) <|
    .field "querier_route" readText (some standard.queryRoute) <|
    .field "address_prefix" readText (some standard.addressLabel) <|
    .field "store" Backend.read (some standard.backend) .done

def read : Reader Config :=
  mapRead (fun (moduleName, commandRoute, queryRoute, addressLabel, backend, _) =>
      ⟨moduleName, commandRoute, queryRoute, addressLabel, backend⟩)
    (layout.read "ModuleConfig")

end Config

end TokenRegistry
