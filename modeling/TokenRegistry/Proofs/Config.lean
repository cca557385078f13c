import TokenRegistry.Config
import TokenRegistry.Proofs.Json.RoundTrip

/-!
# Configurations read back

The kind of a backend is a member of its own object. It is written first and taken out
when read, and the path, if there is one, is read from what is left.
-/
namespace TokenRegistry

open Json

namespace Backend

theorem readPath_held (make : String → Backend) (name path : String) :
    readPath make name ⟨.held, 0⟩ (Json.object [("path", .string path)]).outline =
      .ok (make path) := by
  have hlists : Layout.Lists pathLayout (path, ()) [("path", .string path)] :=
    .field (fun _ => rfl) List.not_mem_nil .done
  have hread := Layout.readMembers_of_perm hlists (.refl _) (Setting.mk .held 0).inner
  exact congrArg (Except.map fun x : String × Unit => make x.1) hread

theorem readWithin_kind (s : Setting) (kind : String) {w : Variant Backend}
    (h : Variant.choose variants kind = .ok w) {ms : List (String × Json)}
    (hms : Variant.extract "backend" variants s.inner (some w) (outlineMembers ms) =
      .ok (some w, ms)) :
    read s (Json.object (("backend", .string kind) :: ms)).outline =
      w.content ⟨.held, 0⟩ (Json.object ms).outline := by
  have hextract : Variant.extract "backend" variants s.inner none
      (outlineMembers (("backend", .string kind) :: ms)) = .ok (some w, ms) := by
    rw [outlineMembers, Variant.extract]
    change (Variant.choose variants kind >>= fun w =>
      Variant.extract "backend" variants s.inner (some w) (outlineMembers ms)) = _
    rw [h]
    exact hms
  rw [outline, read, Variant.readWithin, hextract]
  rfl

theorem inverts_read : Inverts read toJson := by
  intro s b
  cases b with
  | memory => exact readWithin_kind s "memory" rfl rfl
  | sqlite path =>
    exact (readWithin_kind s "sqlite" rfl rfl).trans (readPath_held .sqlite "Sqlite" path)
  | rocksdb path =>
    exact (readWithin_kind s "rocksdb" rfl rfl).trans (readPath_held .rocksdb "RocksDb" path)

end Backend

theorem Config.inverts_read : Inverts Config.read Config.toJson := by
  intro s c
  have hlists : Layout.Lists Config.layout
      (c.moduleName, c.commandRoute, c.queryRoute, c.addressLabel, c.backend, ())
      [("module_name", .string c.moduleName), ("router_key", .string c.commandRoute),
        ("querier_route", .string c.queryRoute), ("address_prefix", .string c.addressLabel),
        ("store", c.backend.toJson)] := by
    refine .field (fun s => inverts_readText s c.moduleName) (by simp) ?_
    refine .field (fun s => inverts_readText s c.commandRoute) (by simp) ?_
    refine .field (fun s => inverts_readText s c.queryRoute) (by simp) ?_
    refine .field (fun s => inverts_readText s c.addressLabel) (by simp) ?_
    exact .field (fun s => Backend.inverts_read s c.backend) (by simp) .done
  rw [Config.read, mapRead, Config.toJson, Layout.read_of_lists hlists]
  rfl

end TokenRegistry
