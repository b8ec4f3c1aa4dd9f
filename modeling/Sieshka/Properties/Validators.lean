import Sieshka.Specs.Validators
import Sieshka.Properties.ZoneEdits

/-!
# Validators and writers of the agents

For each of the eight command pairs, the condition under which the validator says in
advance what the writer will do.
-/

namespace Sieshka

open Transactions Prog MenuAgentTools ZoneAgentTools PromotionAgentTools ScheduleAgentTools

/-- A database that takes every row a tool has sent, and picks the number `n` for a new
id or as the current day. -/
def alone {D W : Type} (n : Nat) : Engine D W := { supply := fun _ => n }

/-- A database that refuses a stock quantity that does not fit its column. -/
def aloneStock (n : Nat) : Engine Database Write := { fits := stockFits, supply := fun _ => n }

/-- Each validator returns 0 or 1, and 1 exactly when the writer then goes through, if
and only if what the two send is taken and what only the writer looks at is in order. -/
theorem validators_predict_writers (B : Backend) (n : Nat) (command : Json) :
    (∀ d : MenuDatabase, d.products.find (BitVec.ofNat 128 n) = none →
      ((validateApplyCommand B command).Predicts (alone n) (applyMenuCommand B command)
          (.start d ()) ↔
        ∀ fields, MenuAgentTools.requiredApplyFields command = some fields →
          fields.Fits B command d)) ∧
    (∀ d : MenuDatabase, d.categories.find (BitVec.ofNat 128 n) = none →
      ((validateApplyCategoryCommand B command).Predicts (alone n)
          (applyCategoryCommand B command) (.start d ()) ↔
        ∀ fields, requiredApplyCategoryFields command = some fields → fields.Fits B d)) ∧
    (∀ d : MenuDatabase,
      (validateUpdateCategoryCommand B command).Predicts (alone n)
          (applyUpdateCategoryCommand B command) (.start d ()) ↔
        ∀ fields, requiredUpdateCategoryFields command = some fields → fields.Fits B d) ∧
    (∀ d : MenuDatabase,
      (validateUpdateProductCommand B command).Predicts (alone n)
          (applyUpdateProductCommand B command) (.start d ()) ↔
        ∀ fields, requiredUpdateProductFields command = some fields → fields.Fits B d) ∧
    (∀ d : ZoneDatabase, d.Indexed B.lower → d.zones.find (BitVec.ofNat 128 n) = none →
      ((validateApplyZoneCommand B command).Predicts (alone n) (applyZoneCommand B command)
          (.start d ()) ↔
        ∀ parsed, ZoneAgentTools.requiredCommandShape command = some parsed →
          parsed.Fits B d)) ∧
    (∀ d : PromoDatabase, d.Indexed B.lower → d.promotions.find (BitVec.ofNat 128 n) = none →
      ((validateApplyPromotionCommand B command).Predicts (alone n)
          (applyPromotionCommand B command) (.start d ()) ↔
        ∃ parsed, PromotionAgentTools.requiredApplyFields command = .ok parsed ∧
          ∀ c, parsed = some c → c.Fits B d)) ∧
    (∀ d : ScheduleDatabase,
      (validateApplyScheduleCommand B command).Predicts (alone n)
          (applyScheduleCommand B command) (.start d ()) ↔
        ∀ parsed, ScheduleAgentTools.requiredCommandShape command = some parsed →
          parsed.Fits B) ∧
    (∀ (d : Database) (m : Memory), d.inventoryMovements.find (BitVec.ofNat 128 n) = none →
      ((validateApplyRestockCommand command).Predicts (aloneStock n)
          (applyRestockCommand command) (.start d m) ↔
        ∀ sku quantity, Sieshka.requiredApplyFields command = some (sku, quantity) →
          RestockFits d sku quantity)) := by
  refine ⟨?_, ?_, ?_, ?_, ?_, ?_, ?_, ?_⟩
  · intro d hnew
    cases h : MenuAgentTools.requiredApplyFields command with
    | none => simp [validateApplyCommand, applyMenuCommand, h]
    | some fields =>
        rw [predicts_productCreate rfl (fun _ => rfl) h hnew]
        simp [Quiet.start]
  · intro d hnew
    cases h : requiredApplyCategoryFields command with
    | none => simp [validateApplyCategoryCommand, applyCategoryCommand, h]
    | some fields =>
        rw [predicts_categoryCreate rfl (fun _ => rfl) h hnew]
        simp [Quiet.start]
  · intro d
    cases h : requiredUpdateCategoryFields command with
    | none => simp [validateUpdateCategoryCommand, applyUpdateCategoryCommand, h]
    | some fields =>
        rw [predicts_categoryUpdate rfl (fun _ => rfl) h]
        simp [Quiet.start]
  · intro d
    cases h : requiredUpdateProductFields command with
    | none => simp [validateUpdateProductCommand, applyUpdateProductCommand, h]
    | some fields =>
        rw [predicts_productUpdate rfl (fun _ => rfl) h]
        simp [Quiet.start]
  · intro d hd hnew
    cases h : ZoneAgentTools.requiredCommandShape command with
    | none => simp [validateApplyZoneCommand, applyZoneCommand, h]
    | some parsed =>
        have hpair : (validateApplyZoneCommand B command).Predicts (alone n)
            (applyZoneCommand B command) (.start d ()) ↔ parsed.Fits B d := by
          cases parsed with
          | create => exact ZoneAgentTools.predicts_create rfl hd (fun _ => rfl) h hnew
          | update => exact predicts_update rfl hd (fun _ => rfl) h
          | deactivate => exact predicts_deactivate rfl (fun _ => rfl) h
          | activate => exact predicts_activate rfl hd (fun _ => rfl) h
        rw [hpair]
        simp
  · intro d hd hnew
    cases h : PromotionAgentTools.requiredApplyFields command with
    | error e => simp [validateApplyPromotionCommand, h]
    | ok parsed =>
        cases parsed with
        | none => simp [validateApplyPromotionCommand, applyPromotionCommand, h]
        | some c =>
            have hpair : (validateApplyPromotionCommand B command).Predicts (alone n)
                (applyPromotionCommand B command) (.start d ()) ↔ c.Fits B d := by
              cases c with
              | create => exact PromotionAgentTools.predicts_create rfl hd (fun _ => rfl) h hnew
              | transition => exact predicts_transition rfl hd (fun _ => rfl) h
            rw [hpair]
            simp
  · intro d
    cases h : ScheduleAgentTools.requiredCommandShape command with
    | none => simp [validateApplyScheduleCommand, applyScheduleCommand, h]
    | some parsed =>
        rw [predicts_schedule rfl (fun _ => rfl) h]
        simp
  · intro d m hnew
    cases h : Sieshka.requiredApplyFields command with
    | none => simp [validateApplyRestockCommand, applyRestockCommand, h]
    | some fields =>
        obtain ⟨sku, quantity⟩ := fields
        rw [predicts_restock rfl rfl (fun _ => rfl) h hnew]
        simp [Quiet.start]

/-- Two active zones, `North` and `South`. -/
def northSouth : ZoneDatabase :=
  (emptyZones.withZone { sampleZone 1 true with name := "North" }).withZone
    { sampleZone 2 true with name := "South" }

theorem northSouth_indexed : northSouth.Indexed asciiBackend.lower := by
  apply UniqueIndex.Faithful.put
  · apply UniqueIndex.Faithful.put (emptyZones_indexed _)
    · rfl
    · rfl
  · rfl
  · decide

/-- A command to give the zone `target` another name. -/
def renameCommand (target name : String) : Json :=
  .obj [("action", .str "update"), ("target_zone_name", .str target), ("name", .str name)]

/-- The validator lets a zone take the name of another active zone; the writer refuses. -/
theorem validator_allows_taken_zone_name :
    (validateApplyZoneCommand asciiBackend (renameCommand "North" "South")).Returns (alone 3)
      (.start northSouth ()) 1 (.start northSouth ()) ∧
    ¬ (validateApplyZoneCommand asciiBackend (renameCommand "North" "South")).Predicts (alone 3)
      (applyZoneCommand asciiBackend (renameCommand "North" "South")) (.start northSouth ()) := by
  have hshape : ZoneAgentTools.requiredCommandShape (renameCommand "North" "South") =
      some (.update "North" (some "South") none none) := by decide
  constructor
  · have hone : (ZoneDatabase.named asciiBackend.lower true "North" northSouth).length = 1 := by
      decide
    have hfit : storable "North" = true := by decide
    simp [validateApplyZoneCommand, hshape, Quiet.start, hone, hfit]
  · rw [predicts_update rfl northSouth_indexed (fun _ => rfl) hshape]
    rintro ⟨-, hfree⟩
    have hone : ZoneDatabase.named asciiBackend.lower true "North" northSouth =
        [{ sampleZone 1 true with name := "North" }] := by decide
    have htaken : { sampleZone 2 true with name := "South" } ∈
        ZoneDatabase.named asciiBackend.lower true "South" northSouth := by decide
    have hid := (hfree _ hone).1.2 "South" rfl _ htaken
    exact absurd hid (by decide)

/-- A zone may take a name that no other zone has. -/
theorem validators_predict_writers_rename :
    (validateApplyZoneCommand asciiBackend (renameCommand "North" "West")).Predicts (alone 3)
      (applyZoneCommand asciiBackend (renameCommand "North" "West")) (.start northSouth ()) := by
  apply ((validators_predict_writers asciiBackend 3 (renameCommand "North" "West")).2.2.2.2.1
    northSouth northSouth_indexed (by decide)).mpr
  intro parsed hparsed
  have hshape : ZoneAgentTools.requiredCommandShape (renameCommand "North" "West") =
      some (.update "North" (some "West") none none) := by decide
  obtain rfl := Option.some.inj (hshape.symm.trans hparsed)
  have hfree : ZoneDatabase.named asciiBackend.lower true "West" northSouth = [] := by
    decide
  have hfit : storable "North" = true ∧ storable "West" = true := by decide
  simp [ZoneCommand.Fits, hfree, hfit]

end Sieshka
