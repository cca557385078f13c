import TokenRegistry.Json.Printer
import TokenRegistry.Json.Reader

/-!
# Events

An event tells the outside what a command did: a kind and attributes in the order
in which they were attached. A key may be attached more than once; looking it up
gives the first.
-/
namespace TokenRegistry

structure Attribute where
  key : String
  value : String
  deriving DecidableEq, Repr

structure Event where
  kind : String
  attributes : List Attribute
  deriving DecidableEq, Repr

namespace Event

def ofKind (kind : String) : Event := ⟨kind, []⟩

def attach (e : Event) (key value : String) : Event :=
  { e with attributes := e.attributes ++ [⟨key, value⟩] }

def attribute? (e : Event) (key : String) : Option String :=
  (e.attributes.find? fun a => a.key = key).map Attribute.value

def text (e : Event) : String :=
  e.attributes.foldl (fun s a => s!"{s} {a.key}={a.value}") e.kind

end Event

structure Receipt where
  events : List Event
  deriving DecidableEq, Repr

open Json

namespace Attribute

def toJson (a : Attribute) : Json := .object [("key", .string a.key), ("value", .string a.value)]

def layout : Layout (String × String × Unit) :=
  .field "key" readText none <| .field "value" readText none .done

def read : Reader Attribute :=
  mapRead (fun (key, value, _) => ⟨key, value⟩) (layout.read "Attribute")

end Attribute

namespace Event

def toJson (e : Event) : Json :=
  .object [("type", .string e.kind), ("attributes", .array (e.attributes.map Attribute.toJson))]

def layout : Layout (String × List Attribute × Unit) :=
  .field "type" readText none <| .field "attributes" (readList Attribute.read) none .done

def read : Reader Event :=
  mapRead (fun (kind, attributes, _) => ⟨kind, attributes⟩) (layout.read "Event")

end Event

namespace Receipt

def toJson (r : Receipt) : Json := .object [("events", .array (r.events.map Event.toJson))]

def layout : Layout (List Event × Unit) := .field "events" (readList Event.read) none .done

def read : Reader Receipt := mapRead (fun (events, _) => ⟨events⟩) (layout.read "HandlerResult")

end Receipt

end TokenRegistry
