import Sieshka.Python.Parameters
import Sieshka.Transactions.Index

/-!
# Delivery zones

The table `delivery_zones` as a database of its own, with the index
`idx_delivery_zones_name_active` on `lower(name)` of the active zones.

## Implementation notes

`external_id` is left out: the tools never write it and no answer depends on it.
-/

namespace Sieshka

open Transactions

structure Zone where
  id : Uuid
  name : String
  deliveryTimeMinutes : Int
  isActive : Bool
  deliveryFeeRub : Int
deriving DecidableEq

/-- An entry of `idx_delivery_zones_name_active`. -/
abbrev ZoneName := Entry String Uuid

structure ZoneDatabase where
  zones : Table Zone.id
  names : Table (Entry.value : ZoneName → String)

inductive ZoneLock
  | zone (id : Uuid)
  | name (name : String)
deriving DecidableEq

inductive ZoneWrite
  | zone (row : Zone)
  | name (entry : ZoneName)

namespace ZoneDatabase

/-- The type of what a lockable row holds. -/
def Cell : ZoneLock → Type
  | .zone _ => Option Zone
  | .name _ => Option ZoneName

/-- The content of a row. -/
def get : (l : ZoneLock) → ZoneDatabase → Cell l
  | .zone id, d => d.zones.find id
  | .name name, d => d.names.find name

/-- The database after a write. -/
def put (d : ZoneDatabase) : ZoneWrite → ZoneDatabase
  | .zone row => { d with zones := d.zones.put row }
  | .name entry => { d with names := d.names.put entry }

/-- The row a write goes to. -/
def row : ZoneWrite → ZoneLock
  | .zone row => .zone row.id
  | .name entry => .name entry.value

instance : RowStore ZoneDatabase ZoneWrite ZoneLock where
  Cell := Cell
  get := get
  put := put
  row := row
  get_put_self d d' w := by
    cases w <;> exact (Table.find_put_self _ _).trans (Table.find_put_self _ _).symm
  get_put_of_ne d w l h := by
    cases w <;> cases l <;>
      first
      | rfl
      | exact Table.find_put_of_ne _ fun he => h (congrArg _ he.symm)

/-- The zones that carry a name, for a lookup without regard to case. -/
def named (lower : String → String) (active : Bool) (name : String) (d : ZoneDatabase) :
    List Zone :=
  d.zones.filter fun z => lower z.name = lower name ∧ z.isActive = active

end ZoneDatabase

def deliveryZones : Schema ZoneDatabase Zone.id where
  table := ZoneDatabase.zones
  lock := .zone
  write := .zone
  row_write _ := rfl
  table_put _ _ := rfl
  find_congr _ _ _ h := h

@[simp] theorem deliveryZones_table : deliveryZones.table = ZoneDatabase.zones := rfl

/-- `idx_delivery_zones_name_active`: the lowercase name of an active zone. -/
def zoneNames (lower : String → String) : UniqueIndex deliveryZones String where
  entries :=
    { table := ZoneDatabase.names
      lock := .name
      write := .name
      row_write := fun _ => rfl
      table_put := fun _ _ => rfl
      find_congr := fun _ _ _ h => h }
  value z := if z.isActive then some (lower z.name) else none
  entries_put _ _ := rfl
  table_put _ _ := rfl

/-- The index is that of the zones. -/
abbrev ZoneDatabase.Indexed (lower : String → String) (d : ZoneDatabase) : Prop :=
  (zoneNames lower).Faithful d

@[simp] theorem zoneNames_value {lower : String → String} {z : Zone} {name : String} :
    (zoneNames lower).value z = some name ↔ z.isActive = true ∧ lower z.name = name := by
  cases h : z.isActive <;> simp [zoneNames, h]

/-- No other active zone carries the name of `row`. -/
def ZoneDatabase.NameFree (lower : String → String) (d : ZoneDatabase) (row : Zone) : Prop :=
  ∀ z ∈ d.zones.rows, z.isActive = true → lower z.name = lower row.name → z.id = row.id

/-- Two active zones with one name are one zone. -/
theorem ZoneDatabase.Indexed.eq_of_name {lower : String → String} {d : ZoneDatabase}
    (h : d.Indexed lower) {z w : Zone} (hz : z ∈ d.zones.rows) (hw : w ∈ d.zones.rows)
    (hza : z.isActive = true) (hwa : w.isActive = true) (hname : lower z.name = lower w.name) :
    z.id = w.id :=
  UniqueIndex.Faithful.eq_of_value h hz hw (zoneNames_value.mpr ⟨hza, hname⟩)
    (zoneNames_value.mpr ⟨hwa, rfl⟩)

/-- An active zone clashes with the zone that carries its name. -/
theorem ZoneDatabase.Indexed.nameFree_iff {lower : String → String} {d : ZoneDatabase}
    (h : d.Indexed lower) {row : Zone} (hrow : row.isActive = true) :
    d.NameFree lower row ↔ (zoneNames lower).clash d row = false := by
  rw [UniqueIndex.Faithful.clash_eq_false_iff h]
  constructor
  · intro hfree q hq i hr hqi
    rw [zoneNames_value] at hr hqi
    exact hfree q hq hqi.1 (hqi.2.trans hr.2.symm)
  · intro hfree z hz hza hname
    exact hfree z hz _ (zoneNames_value.mpr ⟨hrow, rfl⟩) (zoneNames_value.mpr ⟨hza, hname⟩)

/-- What a zone tool does in the session it is given. -/
abbrev ZoneTool := Prog ZoneDatabase ZoneWrite ZoneLock Unit PyError

/-- `uuid_generate_v4()`. -/
def zoneUuid : ZoneTool Uuid := .choose fun n => .ret (BitVec.ofNat 128 n)

end Sieshka
