import Sieshka.Specs.Zones
import Sieshka.Transactions.Alone

/-!
# Zone commands one among many

Whatever else goes on, a zone command commits what it says about the one zone its
target names at that moment, or commits nothing.
-/

namespace Sieshka

open Transactions Contract ZoneAgentTools

section Runs

variable {B : Backend} {d : ZoneDatabase} {c c' : ZoneConfig}

/-- `c'` is reached from `c` by any number of steps of any kind. -/
abbrev ZoneReaches (B : Backend) (c c' : ZoneConfig) : Prop :=
  (zoneCalls B).Runs (fun _ _ => True) c c'

theorem allows_zones (c : ZoneConfig) (a : Action ZoneCall (zoneCalls B).Move) :
    (zoneContract B).Allows (S := zoneCalls B) c a := by
  cases a with
  | call k => exact ⟨trivial, fun _ _ _ => ⟨trivial, trivial⟩⟩
  | run i n => exact fun _ _ => ⟨trivial, fun _ => trivial⟩
  | fault i => exact fun _ _ => ⟨trivial, trivial⟩
  | kill i => exact trivial
  | restart => exact trivial
  | world v => exact trivial

theorem ZoneReaches.ok (hd : d.Indexed B.lower) (h : ZoneReaches B (Config.start d ()) c) :
    (zoneContract B).Ok c :=
  (Ok.start hd).runs (valid_zones B) (fun c a _ _ => allows_zones c a) h

end Runs

/-! ## Samples -/

/-- A table without zones. -/
def emptyZones : ZoneDatabase := { zones := Table.empty, names := Table.empty }

theorem emptyZones_indexed (lower : String → String) : emptyZones.Indexed lower := by
  intro i k
  constructor
  · intro h
    cases h
  · rintro ⟨r, hr, -⟩
    cases hr

end Sieshka
