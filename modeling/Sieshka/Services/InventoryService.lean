import Sieshka.Programs

/-!
# InventoryService and the restock agent

The calls that change stock outside an order.
-/

namespace Sieshka

open Transactions

/-- The insertions of `sync_from_menu`: the number of rows that were new. -/
def syncRows : List (String × String) → Async Nat
  | [] => return 0
  | (sku, name) :: rest => do
      let new ← inventory.insertIfAbsent { sku, name, quantity := 0, state := .OUT_OF_STOCK }
      let created ← syncRows rest
      return (if new then created + 1 else created)

/-- `InventorySyncResult`. -/
structure InventorySyncResult where
  created : Nat
  skippedNoSku : Nat

/-- `InventoryService.sync_from_menu`. -/
def syncFromMenu : Async InventorySyncResult :=
  Prog.withSession do
    let rows ← Prog.select fun (d : Database) => d.products.rows.filter fun p => p.isActive
    let created ← syncRows (rows.filterMap fun p => p.sku.map fun sku => (sku, p.name))
    Prog.commitSession
    return { created, skippedNoSku := (rows.filter fun p => p.sku.isNone).length }

/-- `InventoryService.set_quantity`: the row as it is after the commit. -/
def setQuantity (sku : String) (quantity : Int) : Async Inventory :=
  Prog.withSession do
    let _ ← setInventoryQuantity sku quantity
    let _ ← setInventoryState sku
    Prog.commitSession
    match ← inventory.find sku with
    | none => throw (.runtimeError "sku vanished between write and read-back")
    | some row => return row

/-- `InventoryAgent.apply_restock`: whether the command was applied. -/
def applyRestock (command : Json) : Async Bool :=
  Prog.withSession do
    let trace ← vmRun restockTools programApplyRestock [(.command, .command command)]
    if trace.success then
      match lookup trace.outputs .apply_command with
      | some _ => do
          Prog.commitSession
          return true
      | none => return false
    else return false

end Sieshka
