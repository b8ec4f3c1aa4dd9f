import Sieshka.Properties.ZoneCommands
import Sieshka.Transactions.Histories

/-!
# Edits of one zone

`PATCH /zones/{zone_id}/apply` turns the id into the name the zone had when the
request looked it up, and the command looks for an active zone of that name. The
zone it writes is the addressed one unless another active zone carries the name by
then: a retired zone keeps a name that has gone to another.
-/

namespace Sieshka

open Transactions Contract ZoneAgentTools

abbrev ZonePast (B : Backend) := List (ZoneConfig × Action ZoneCall (zoneCalls B).Move)

/-- The zone a request to the route is about. -/
def ZoneCall.addresses : ZoneCall → Option Uuid
  | .zoneUpdate zoneId _ => some zoneId
  | _ => none

section Edits

variable {B : Backend} {d : ZoneDatabase} {c c' : ZoneConfig} {past : ZonePast B}

/-- Where the step commits an edit, no active zone but the addressed one carries the
name that the edit found under the id. -/
def Addressed (B : Backend) (past : ZonePast B) (c : ZoneConfig) :
    Action ZoneCall (zoneCalls B).Move → Prop
  | .run i _ => ∀ t ∈ c.threads[i]?, t.committing = true → ∀ b ∈ System.firstStep past i,
      ∀ zone ∈ t.call.addresses.bind b.db.zones.find, ∀ z ∈ c.db.zones.rows,
        z.isActive = true → B.lower z.name = B.lower zone.name → z.id = zone.id
  | _ => True

instance (B : Backend) (past : ZonePast B) (c : ZoneConfig)
    (a : Action ZoneCall (zoneCalls B).Move) : Decidable (Addressed B past c a) := by
  cases a <;> unfold Addressed <;> infer_instance

/-- What an edit promises once it has looked the zone up in `d`: it writes the active
zone that carries the name it has found. -/
def EditPromise (B : Backend) (zoneId : Uuid) (d : ZoneDatabase)
    (_ : List (ZoneDatabase × ZoneDatabase)) (s s' : ZoneDatabase × Unit) : Prop :=
  ∃ zone target row, d.zones.find zoneId = some zone ∧ s.1.zones.find row.id = some target ∧
    target.isActive = true ∧ B.lower target.name = B.lower zone.name ∧
    s'.1.zones = s.1.zones.put row

/-- The command of an edit is an update of the zone it names. -/
theorem editCommand_shape {target : String} {payload : List (String × Json)} {shape : ZoneCommand}
    (h : requiredCommandShape (editCommand target payload) = some shape) :
    ∃ name deliveryTimeMinutes deliveryFeeRub,
      shape = .update target name deliveryTimeMinutes deliveryFeeRub := by
  obtain ⟨deliveryFeeRub, -, h⟩ := Option.bind_eq_some_iff.mp h
  obtain ⟨name, hname, h⟩ := Option.bind_eq_some_iff.mp h
  obtain ⟨deliveryTimeMinutes, -, h⟩ := Option.bind_eq_some_iff.mp h
  obtain rfl : name = target := by
    have hread : Json.text? (.str target) = some name := hname
    rw [Json.text?] at hread
    split_ifs at hread
    exact (Option.some.inj hread).symm
  split_ifs at h
  exact ⟨_, _, _, (Option.some.inj h).symm⟩

/-- The rest of an edit after its first step. -/
def editRest (B : Backend) (payload : List (String × Json)) (found : Option Zone) :
    ZoneTool ZoneAnswer :=
  (updateFound B payload found).andThen
    (fun response => .ret (.response response.1 response.2)) .raise

/-- An edit begins with the look at the addressed zone. -/
theorem zoneBody_edit (B : Backend) (zoneId : Uuid) (payload : List (String × Json)) :
    zoneBody B (.zoneUpdate zoneId payload) =
      .stmt (fun _ => []) (fun _ => []) (fun _ => true)
        (fun d => .close (editRest B payload (d.zones.find zoneId)))
        (.close (.raise .dbapiError)) := rfl

theorem zoneEdit_promise (B : Backend) (zoneId : Uuid) (payload : List (String × Json)) :
    (zoneContract B).Promise (zoneCalls B) (.zoneUpdate zoneId payload) (EditPromise B zoneId) where
  valid := valid_zones B
  allows := allows_zones
  rely _ _ _ := trivial
  quiet _ _ := ⟨trivial, trivial⟩
  read others d m u d' m' hi hs := by
    cases hs with
    | executed hp _ _ _ =>
        obtain ⟨-, -, -, rfl, -⟩ := Prog.stmt.inj ((zoneBody_edit B zoneId payload).symm.trans hp)
        refine ⟨rfl, ?_⟩
        intro s _ _
        dsimp only [Txn.view_empty]
        cases hfound : d.zones.find zoneId with
        | none => exact trivial
        | some zone =>
            rw [editRest, wp_andThen]
            apply wp_updateFound rfl fun _ => Iff.rfl
            · intro shape out d₁ d₂ hshape hcommit
              obtain ⟨name, deliveryTimeMinutes, deliveryFeeRub, rfl⟩ := editCommand_shape hshape
              cases hcommit with
              | update target row hrow hfind hname hactive _ hd =>
                  exact ⟨zone, target, row, hfound, by rw [hrow]; exact hfind, hactive, hname, hd⟩
            · intro r y
              cases r with
              | ok response => exact trivial
              | error e => exact trivial
    | violated hp _ hc =>
        obtain ⟨-, -, rfl, -, -⟩ := Prog.stmt.inj ((zoneBody_edit B zoneId payload).symm.trans hp)
        cases hc
    | rejected hp hf => cases hf
    | rolledBack hp _ => cases (zoneBody_edit B zoneId payload).symm.trans hp
    | committed hp _ => cases (zoneBody_edit B zoneId payload).symm.trans hp
    | closed hp => cases (zoneBody_edit B zoneId payload).symm.trans hp
    | memory hp => cases (zoneBody_edit B zoneId payload).symm.trans hp
    | chose hp _ => cases (zoneBody_edit B zoneId payload).symm.trans hp
  fault d m u g hi hs := by
    obtain rfl := Option.some.inj hs
    intro s _ _
    exact trivial

/-- In every run none of whose steps commits an edit while another active zone carries
the name the edit has looked up, a step of an edit changes no zone but the addressed
one. -/
theorem zone_edit_changes_addressed (B : Backend) {d : ZoneDatabase} {past : ZonePast B}
    {c : ZoneConfig} (hd : d.Indexed B.lower)
    (h : (zoneCalls B).Histories (Addressed B) (Config.start d ()) past c) :
    ∀ i n c' t zoneId payload, c.threads[i]? = some t → t.call = .zoneUpdate zoneId payload →
      Addressed B past c (.run i n) → (zoneCalls B).step c (.run i n) = some c' →
      ∀ id, id ≠ zoneId → c'.db.zones.find id = c.db.zones.find id := by
  intro i n c' t zoneId payload ht hcall ha hs id hid
  have hP := zoneEdit_promise B zoneId payload
  rcases (hP.inOrder hd h).db_of_step (fun _ _ => trivial) hs with
    hsame | ⟨j, m, u, hrun, hu, hcommitting, -⟩
  · rw [hsame]
  · obtain ⟨rfl, -⟩ := Action.run.inj hrun
    obtain rfl : t = u := Option.some.inj (ht.symm.trans hu)
    rcases hP.of_step hd h ht hcall hs with hsame | ⟨b, hb, hg⟩
    · rw [hsame]
    · obtain ⟨zone, target, row, hzone, htarget, hactive, hname, hput⟩ := hg
      -- the row that is written is the addressed one
      have hrow : row.id = zoneId := by
        obtain ⟨hmem, htid⟩ := Table.find_some htarget
        have hlooked : zone ∈ t.call.addresses.bind b.db.zones.find := by
          rw [hcall]
          exact hzone
        rw [← htid, ha t ht hcommitting b hb zone hlooked target hmem hactive hname]
        exact (Table.find_some hzone).2
      rw [show c'.db.zones = c.db.zones.put row from hput]
      apply Table.find_put_of_ne
      rw [hrow]
      exact hid.symm

end Edits

/-! ## Samples -/

/-- A zone that is retired, and one that is not. -/
def sampleZone (id : Uuid) (isActive : Bool) : Zone :=
  { id, name := "Balakhna", deliveryTimeMinutes := 15, isActive, deliveryFeeRub := 99 }

/-- A zone and its entry of the index are added to a table. -/
def ZoneDatabase.withZone (d : ZoneDatabase) (row : Zone) : ZoneDatabase :=
  ((zoneNames asciiBackend.lower).writes none row).foldl RowStore.put d

/-- A retired zone and an active one under one name. -/
def namesakes : ZoneDatabase :=
  (emptyZones.withZone (sampleZone 1 false)).withZone (sampleZone 2 true)

theorem namesakes_indexed : namesakes.Indexed asciiBackend.lower := by
  apply UniqueIndex.Faithful.put
  · apply UniqueIndex.Faithful.put (emptyZones_indexed _)
    · rfl
    · rfl
  · rfl
  · rfl

/-- A request to bring the delivery time of a zone to half an hour. -/
def halfHour (id : Uuid) : ZoneCall := .zoneUpdate id [("delivery_time_minutes", .int 30)]

/-- The delivery time of a zone. -/
def zoneMinutes (id : Uuid) (c : ZoneConfig) : Option Int :=
  (c.db.zones.find id).map Zone.deliveryTimeMinutes

/-- An edit of the retired zone changes the active one. -/
theorem zone_edit_changes_namesake :
    ¬ ∀ d : ZoneDatabase, d.Indexed asciiBackend.lower →
      ∀ c, ZoneReaches asciiBackend (Config.start d ()) c →
      ∀ i n c' t zoneId payload, c.threads[i]? = some t → t.call = .zoneUpdate zoneId payload →
        (zoneCalls asciiBackend).step c (.run i n) = some c' →
        ∀ id, id ≠ zoneId → c'.db.zones.find id = c.db.zones.find id := by
  intro hall
  obtain ⟨c, c', hr, hs, hf⟩ := System.Runs.exists_step_of_exec (zoneCalls asciiBackend)
    (fun _ _ => True) (Config.start namesakes ())
    [.call (halfHour 1), .run 0 0, .run 0 0, .run 0 0, .run 0 0, .run 0 0, .run 0 0]
    (a := .run 0 0)
    (f := fun c c' => (c.threads[0]?.bind fun t => t.call.addresses, zoneMinutes 2 c,
      zoneMinutes 2 c')) (v := (some 1, some 15, some 30)) (fun _ _ _ => trivial)
    (by decide +kernel)
  simp only [Prod.mk.injEq] at hf
  obtain ⟨haddress, hbefore, hafter⟩ := hf
  obtain ⟨t, ht, haddress⟩ := Option.bind_eq_some_iff.mp haddress
  cases hcall : t.call with
  | applyZoneCommand command => simp [hcall, ZoneCall.addresses] at haddress
  | applyZone command => simp [hcall, ZoneCall.addresses] at haddress
  | zoneUpdate zoneId payload =>
      obtain rfl : zoneId = 1 := by simpa [hcall, ZoneCall.addresses] using haddress
      have hsame := hall namesakes namesakes_indexed c hr 0 0 c' t 1 payload ht hcall hs 2
        (by decide)
      rw [zoneMinutes, hsame, ← zoneMinutes, hbefore] at hafter
      cases hafter

/-- An edit of the active zone changes it alone. -/
theorem zone_edit_changes_addressed_active :
    ∃ past c, (zoneCalls asciiBackend).Histories (Addressed asciiBackend)
        (Config.start namesakes ()) past c ∧
      zoneMinutes 2 c = some 30 ∧
      ∀ i n c' t zoneId payload, c.threads[i]? = some t → t.call = .zoneUpdate zoneId payload →
        Addressed asciiBackend past c (.run i n) →
        (zoneCalls asciiBackend).step c (.run i n) = some c' →
        ∀ id, id ≠ zoneId → c'.db.zones.find id = c.db.zones.find id := by
  obtain ⟨past, c, h, hc⟩ := System.Histories.exists_of_historyIf (S := zoneCalls asciiBackend)
    (Addressed asciiBackend) (Config.start namesakes ())
    [.call (halfHour 2), .run 0 0, .run 0 0, .run 0 0, .run 0 0, .run 0 0, .run 0 0, .run 0 0]
    (f := zoneMinutes 2) (b := some 30) (by decide +kernel)
  exact ⟨past, c, h, hc, zone_edit_changes_addressed asciiBackend namesakes_indexed h⟩

end Sieshka
