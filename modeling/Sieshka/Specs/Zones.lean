import Sieshka.Services.ZoneAgent
import Sieshka.Transactions.Runs

/-!
# What the zone tools do

A writer that returns holds the rows and the index entries it is about to write,
so what it has found out about them still holds when its session commits.
-/

namespace Sieshka

open Transactions Contract ZoneAgentTools

abbrev ZoneConfig := Config ZoneCall ZoneDatabase ZoneWrite ZoneLock Unit PyError ZoneAnswer

abbrev ZoneContract := Contract ZoneCall ZoneDatabase ZoneWrite ZoneLock Unit PyError ZoneAnswer

/-- Where a call on delivery zones stands. -/
abbrev ZoneAt := CallState ZoneDatabase ZoneWrite ZoneLock Unit

variable (B : Backend)

/-- What the commit of a command does to the zones: one row is added, or the row
that the target names is written. -/
inductive ZoneCommit (d : ZoneDatabase) : ZoneCommand → ZoneOutput → ZoneDatabase → Prop
  | create {name deliveryTimeMinutes deliveryFeeRub d'} (row : Zone)
      (hrow : row = newZone row.id name deliveryTimeMinutes deliveryFeeRub)
      (hnew : d.zones.find row.id = none) (hfree : d.NameFree B.lower row)
      (hd : d'.zones = d.zones.put row) :
      ZoneCommit d (.create name deliveryTimeMinutes deliveryFeeRub) (.row "create" row) d'
  | update {target name deliveryTimeMinutes deliveryFeeRub d'} (zone row : Zone)
      (hrow : row = editedZone name deliveryTimeMinutes deliveryFeeRub zone)
      (hfind : d.zones.find zone.id = some zone) (hname : B.lower zone.name = B.lower target)
      (hactive : zone.isActive = true) (hfree : d.NameFree B.lower row)
      (hd : d'.zones = d.zones.put row) :
      ZoneCommit d (.update target name deliveryTimeMinutes deliveryFeeRub) (.row "update" row) d'
  | deactivate {target d'} (zone : Zone)
      (hfind : d.zones.find zone.id = some zone) (hname : B.lower zone.name = B.lower target)
      (hactive : zone.isActive = true)
      (hd : d'.zones = d.zones.put { zone with isActive := false }) :
      ZoneCommit d (.deactivate target) (.deactivated zone.id) d'
  | activate {target d'} (zone row : Zone) (hrow : row = { zone with isActive := true })
      (hfind : d.zones.find zone.id = some zone) (hname : B.lower zone.name = B.lower target)
      (hretired : zone.isActive = false) (hfree : d.NameFree B.lower row)
      (hd : d'.zones = d.zones.put row) :
      ZoneCommit d (.activate target) (.row "activate" row) d'

/-- An exception of a writer: a `ValueError`, an `IntegrityError`, or another error of
the driver or the database. -/
inductive Refusal : PyError → Prop
  | valueError (message : String) : Refusal (.valueError message)
  | integrityError : Refusal .integrityError
  | dbapiError : Refusal .dbapiError

/-- The session has written what the command is to commit, whatever the others do
until then. -/
structure ZoneReady (command : ZoneCommand) (out : ZoneOutput) (y : ZoneAt) : Prop where
  live : y.txn.failed = false
  lands : y.Pins fun d => d.Indexed B.lower →
    ZoneCommit B d command out (y.txn.view d) ∧ (y.txn.view d).Indexed B.lower

section Specs

variable {B} {K : ZoneContract} {c : ZoneCall} {x : ZoneAt}

/-- A session sees what is committed until it writes. -/
theorem Txn.view_of_writes_nil {t : Txn ZoneWrite ZoneLock} (h : t.writes = [])
    (d : ZoneDatabase) : t.view d = d := by
  rw [Txn.view, h]
  rfl

/-- Rows written in the place of rows the session has pinned. -/
theorem ZoneReady.of_writes {command : ZoneCommand} {out : ZoneOutput} {t : Txn ZoneWrite ZoneLock}
    {y : ZoneAt} {old : Option Zone} {row : Zone} (hlive : y.txn.failed = false)
    (ht : t.writes = []) (hw : y.txn.writes = t.writes ++ (zoneNames B.lower).writes old row)
    (hpin : y.Pins fun d => (deliveryZones.table (t.view d)).find row.id = old ∧
      (zoneNames B.lower).clash (t.view d) row = false)
    (hcommit : ∀ d d' : ZoneDatabase, d.zones.find row.id = old →
      (row.isActive = true → d.NameFree B.lower row) → d'.zones = d.zones.put row →
      ZoneCommit B d command out d') : ZoneReady B command out y := by
  constructor
  · exact hlive
  · refine ((zoneNames B.lower).lands ht hw hpin).mono ?_
    rintro d ⟨hfind, hclash, hput, hindexed⟩ hd
    constructor
    · apply hcommit d _ hfind _ hput
      intro hactive
      exact (hd.nameFree_iff hactive).mpr hclash
    · exact hindexed hd

/-- A writer locks the zone that the target names. -/
theorem wp_lockZone {active : Bool} {target : String} {Q : Except PyError Zone → ZoneAt → Prop}
    (hx : x.txn = {})
    (hok : ∀ y zone, K.Extends c x y → y.txn.failed = false → y.txn.writes = [] →
      B.lower zone.name = B.lower target → zone.isActive = active →
      (y.Pins fun d => d.zones.find zone.id = some zone) → Q (.ok zone) y)
    (hno : ∀ y e, K.Follows c x y → Refusal e → Q (.error e) y) :
    K.wp c (lockZone B active target) Q x := by
  rw [lockZone, wp_bind]
  apply wp_bindParam
  · intro _
    dsimp only
    rw [wp_bind]
    apply deliveryZones.wp_filterForUpdate (by rw [hx])
    · intro y found hy hlive hw hfound
      dsimp only
      split
      · rename_i zone
        obtain ⟨hcond, hpin⟩ := hfound zone List.mem_cons_self
        simp only [decide_eq_true_eq] at hcond
        apply hok y zone hy hlive (by rw [hw, hx]) hcond.1 hcond.2
        simpa [hx] using hpin
      · exact hno _ _ hy.toFollows (.valueError _)
    · intro y hy
      exact hno _ _ hy.toFollows .dbapiError
  · exact hno _ _ .refl .dbapiError

/-- The early look at the name leaves the session as it was. -/
theorem wp_requireNameFree {name : String} {self : Option Uuid}
    {Q : Except PyError Unit → ZoneAt → Prop} (hx : x.txn.failed = false)
    (hok : ∀ y, K.Extends c x y → y.txn = x.txn → Q (.ok ()) y)
    (hno : ∀ y e, K.Follows c x y → Refusal e → Q (.error e) y) :
    K.wp c (requireNameFree B name self) Q x := by
  rw [requireNameFree, wp_bind]
  apply wp_bindParam
  · intro _
    dsimp only
    rw [wp_bind]
    apply wp_select hx
    · intro s hs _
      dsimp only
      split_ifs
      · exact hok _ (.now hs) rfl
      · exact hno _ _ (.now hs) (.valueError _)
    · intro y hy
      exact hno _ _ hy.toFollows .dbapiError
  · exact hno _ _ .refl .dbapiError

theorem wp_requireRename {name : Option String} {self : Uuid}
    {Q : Except PyError Unit → ZoneAt → Prop} (hx : x.txn.failed = false)
    (hok : ∀ y, K.Extends c x y → y.txn = x.txn → Q (.ok ()) y)
    (hno : ∀ y e, K.Follows c x y → Refusal e → Q (.error e) y) :
    K.wp c (requireRename B self name) Q x := by
  cases name with
  | none => exact hok x .refl rfl
  | some name => exact wp_requireNameFree hx hok hno

/-- A violated index is reported by an exception of the writer. -/
theorem wp_orNameInUse {α : Type} {name : String} {p : ZoneTool α}
    {Q : Except PyError α → ZoneAt → Prop}
    (h : K.wp c p (fun r y => match r with
      | .ok a => Q (.ok a) y
      | .error e => Refusal e ∧ ∀ e, Refusal e → Q (.error e) y) x) :
    K.wp c (orNameInUse name p) Q x := by
  rw [orNameInUse, Prog.tryCatch_eq, wp_andThen]
  apply wp_mono _ h
  intro r y hr
  cases r with
  | ok a => exact hr
  | error e =>
      dsimp only
      split_ifs
      · exact hr.2 _ (.valueError _)
      · exact hr.2 _ hr.1

/-- The zone a writer has pinned is rewritten. -/
theorem wp_rewriteZone {f : Zone → Zone} {zone : Zone}
    {Q : Except PyError (Option Zone) → ZoneAt → Prop} (hx : x.txn.failed = false)
    (hw : x.txn.writes = []) (hkey : ∀ z, (f z).id = z.id)
    (hpin : x.Pins fun d => d.zones.find zone.id = some zone)
    (hok : ∀ y, K.Extends c x y →
      (∀ shape out, (∀ d d' : ZoneDatabase, d.zones.find zone.id = some zone →
          ((f zone).isActive = true → d.NameFree B.lower (f zone)) →
          d'.zones = d.zones.put (f zone) → ZoneCommit B d shape out d') →
        ZoneReady B shape out y) → Q (.ok (some (f zone))) y)
    (hno : ∀ y e, K.Follows c x y → Refusal e → Q (.error e) y) :
    K.wp c ((zoneNames B.lower).rewrite .integrityError zone.id f) Q x := by
  apply (zoneNames B.lower).wp_rewrite _ hx hkey
  · intro s hs _ hnone
    rw [Txn.view_of_writes_nil hw] at hnone
    have hfind := hs.pinned hpin
    rw [show s.1.zones.find zone.id = none from hnone] at hfind
    cases hfind
  · intro y r hy hlive hyw hypin
    have hr : y.db.zones.find zone.id = some r := by
      have h := hypin.db.1
      rw [Txn.view_of_writes_nil hw] at h
      exact h
    obtain rfl : zone = r := Option.some.inj ((hy.pins hpin).db.symm.trans hr)
    apply hok y hy
    intro shape out hcommit
    apply ZoneReady.of_writes hlive hw hyw
    · rw [hkey]
      exact hypin
    · rw [hkey]
      exact hcommit
  · intro y hy
    exact hno _ _ hy .integrityError
  · intro y hy
    exact hno _ _ hy.toFollows .dbapiError

theorem wp_updateZone {f : Zone → Zone} {zone : Zone} {name : String}
    {Q : Except PyError Zone → ZoneAt → Prop} (hx : x.txn.failed = false)
    (hw : x.txn.writes = []) (hkey : ∀ z, (f z).id = z.id)
    (hpin : x.Pins fun d => d.zones.find zone.id = some zone)
    (hok : ∀ y, K.Extends c x y →
      (∀ shape out, (∀ d d' : ZoneDatabase, d.zones.find zone.id = some zone →
          ((f zone).isActive = true → d.NameFree B.lower (f zone)) →
          d'.zones = d.zones.put (f zone) → ZoneCommit B d shape out d') →
        ZoneReady B shape out y) → Q (.ok (f zone)) y)
    (hno : ∀ y e, K.Follows c x y → Refusal e → Q (.error e) y) :
    K.wp c (orNameInUse name (updateZone B zone.id f)) Q x := by
  apply wp_orNameInUse
  rw [updateZone, wp_bind]
  apply wp_rewriteZone hx hw hkey hpin
  · exact hok
  · intro y e hy he
    exact ⟨he, fun e he => hno y e hy he⟩

section Writers

variable {command : Json} {Q : Except PyError ZoneOutput → ZoneAt → Prop} {target : String}
  (hx : x.txn = {})
  (hok : ∀ y shape out, requiredCommandShape command = some shape → K.Extends c x y →
    ZoneReady B shape out y → Q (.ok out) y)
  (hno : ∀ y e, K.Follows c x y → Refusal e → Q (.error e) y)

include hx hok hno

theorem wp_createZone {name : String} {deliveryTimeMinutes : Int} {deliveryFeeRub : Option Int}
    (hshape : requiredCommandShape command =
      some (.create name deliveryTimeMinutes deliveryFeeRub)) :
    K.wp c (applyZoneCommand B command) Q x := by
  simp only [applyZoneCommand, hshape]
  rw [wp_bind]
  apply wp_requireNameFree (by rw [hx])
  · intro y hy hyt
    dsimp only
    rw [wp_bind]
    apply wp_bindParam
    · intro _
      dsimp only
      rw [wp_bind]
      intro s hs _ n
      rw [wp_ret]
      dsimp only
      rw [wp_bind]
      apply wp_orNameInUse
      have hys := hy.trans (.now hs)
      have hyn : (y.now s).txn = {} := hyt.trans hx
      apply (zoneNames B.lower).wp_insert
      · rw [hyn]
      · intro z hz hzl hzw hpin
        dsimp only
        apply hok z _ _ hshape (hys.trans hz)
        apply ZoneReady.of_writes hzl (by rw [hyn]) hzw hpin
        intro d d' hnew hfree hd
        exact .create _ rfl hnew (hfree rfl) hd
      · intro z hz
        exact ⟨.integrityError, fun e he => hno _ _ (hys.toFollows.trans hz) he⟩
      · intro z hz
        exact ⟨.dbapiError, fun e he => hno _ _ (hys.toFollows.trans hz.toFollows) he⟩
    · exact hno _ _ hy.toFollows .dbapiError
  · exact hno

theorem wp_activateZone (hshape : requiredCommandShape command = some (.activate target)) :
    K.wp c (applyZoneCommand B command) Q x := by
  simp only [applyZoneCommand, hshape]
  rw [wp_bind]
  apply wp_lockZone hx
  · intro y zone hy hyl hyw hname hretired hpin
    dsimp only
    rw [wp_bind]
    apply wp_requireNameFree hyl
    · intro z hz hzt
      dsimp only
      rw [wp_bind]
      apply wp_updateZone (f := fun z => { z with isActive := true }) (by rw [hzt, hyl])
        (by rw [hzt, hyw]) (fun _ => rfl) (hz.pins hpin)
      · intro u hu hready
        apply hok u _ _ hshape ((hy.trans hz).trans hu)
        apply hready
        intro d d' hfind hfree hd
        exact .activate zone _ rfl hfind hname hretired (hfree rfl) hd
      · intro u e hu he
        exact hno u e ((hy.trans hz).toFollows.trans hu) he
    · intro z e hz he
      exact hno z e (hy.toFollows.trans hz) he
  · exact hno

theorem wp_editZone {name : Option String} {deliveryTimeMinutes deliveryFeeRub : Option Int}
    (hshape : requiredCommandShape command =
      some (.update target name deliveryTimeMinutes deliveryFeeRub)) :
    K.wp c (applyZoneCommand B command) Q x := by
  simp only [applyZoneCommand, hshape]
  rw [wp_bind]
  apply wp_lockZone hx
  · intro y zone hy hyl hyw hname hactive hpin
    dsimp only
    rw [wp_bind]
    apply wp_requireRename hyl
    · intro z hz hzt
      dsimp only
      rw [wp_bind]
      apply wp_bindParam
      · intro _
        dsimp only
        rw [wp_bind]
        apply wp_updateZone (f := editedZone name deliveryTimeMinutes deliveryFeeRub)
          (by rw [hzt, hyl]) (by rw [hzt, hyw]) (fun _ => rfl) (hz.pins hpin)
        · intro u hu hready
          apply hok u _ _ hshape ((hy.trans hz).trans hu)
          apply hready
          intro d d' hfind hfree hd
          exact .update zone _ rfl hfind hname hactive (hfree hactive) hd
        · intro u e hu he
          exact hno u e ((hy.trans hz).toFollows.trans hu) he
      · exact hno _ _ (hy.trans hz).toFollows .dbapiError
    · intro z e hz he
      exact hno z e (hy.toFollows.trans hz) he
  · exact hno

theorem wp_deactivateZone (hshape : requiredCommandShape command = some (.deactivate target)) :
    K.wp c (applyZoneCommand B command) Q x := by
  simp only [applyZoneCommand, hshape]
  rw [wp_bind]
  apply wp_lockZone hx
  · intro y zone hy hyl hyw hname hactive hpin
    dsimp only
    rw [wp_bind]
    apply wp_rewriteZone (f := fun z => { z with isActive := false }) hyl hyw (fun _ => rfl) hpin
    · intro u hu hready
      apply hok u _ _ hshape (hy.trans hu)
      apply hready
      intro d d' hfind _ hd
      exact .deactivate zone hfind hname hactive hd
    · intro u e hu he
      exact hno u e (hy.toFollows.trans hu) he
  · exact hno

/-- A writer that returns is ready to commit its command. -/
theorem wp_applyZoneCommand : K.wp c (applyZoneCommand B command) Q x := by
  cases hshape : requiredCommandShape command with
  | none =>
      simp only [applyZoneCommand, hshape]
      exact hno _ _ .refl (.valueError _)
  | some shape =>
      cases shape with
      | create name deliveryTimeMinutes deliveryFeeRub => exact wp_createZone hx hok hno hshape
      | activate target => exact wp_activateZone hx hok hno hshape
      | update target name deliveryTimeMinutes deliveryFeeRub =>
          exact wp_editZone hx hok hno hshape
      | deactivate target => exact wp_deactivateZone hx hok hno hshape

end Writers

/-- A validator writes nothing. -/
theorem wp_validateApplyZoneCommand {command : Json} {Q : Except PyError Int → ZoneAt → Prop}
    (hx : x.txn.failed = false)
    (hok : ∀ y n, K.Follows c x y → y.txn = x.txn → Q (.ok n) y)
    (hno : ∀ y e, K.Follows c x y → Q (.error e) y) :
    K.wp c (validateApplyZoneCommand B command) Q x := by
  have hread : ∀ (target : String) (active : Bool) (g : List Zone → ZoneTool Int),
      (∀ y rows, K.Follows c x y → y.txn = x.txn → K.wp c (g rows) Q y) →
      K.wp c (do
        bindParam (storable target)
        let rows ← Prog.select (ZoneDatabase.named B.lower active target)
        g rows) Q x := by
    intro target active g hg
    rw [wp_bind]
    apply wp_bindParam
    · intro _
      dsimp only
      rw [wp_bind]
      apply wp_select hx
      · intro s hs _
        exact hg _ _ (.now hs) rfl
      · intro y hy
        exact hno _ _ hy.toFollows
    · exact hno _ _ .refl
  unfold validateApplyZoneCommand
  split
  · exact hok _ _ .refl rfl
  · exact hread _ _ _ fun y rows hy hyt => hok y _ hy hyt
  · exact hread _ _ _ fun y rows hy hyt => hok y _ hy hyt
  · exact hread _ _ _ fun y rows hy hyt => hok y _ hy hyt
  · apply hread
    intro y rows hy hyt
    split_ifs
    · exact hok y _ hy hyt
    · rw [wp_bind]
      apply wp_select (by rw [hyt, hx])
      · intro s hs _
        exact hok _ _ (hy.trans (.now hs)) hyt
      · intro z hz
        exact hno _ _ (hy.trans hz.toFollows)

/-! ## Sessions -/

variable {shape : ZoneCommand} {out : ZoneOutput}

/-- A session that is ready commits its command and ends. -/
theorem wp_commitZone {α : Type} {a : α} {Q : Except PyError α → ZoneAt → Prop}
    (hready : ZoneReady B shape out x) (hinv : ∀ d, K.inv d () ↔ d.Indexed B.lower)
    (hguar : ∀ d d', ZoneCommit B d shape out d' → K.guar c x.past (d, ()) (d', ()))
    (hok : ∀ y d d', ZoneCommit B d shape out d' → y.txn = {} → y.past = x.past ++ [(d, d')] →
      Q (.ok a) y)
    (hno : ∀ y, y.past = x.past → Q (.error .dbapiError) y) :
    K.wp c (Prog.commitSession >>= fun _ => .ret a)
      (fun r y => ∀ s, K.Later c y s → K.assume c (y.now s) → Q r (y.now s).closed) x := by
  have hlands : ∀ s, K.Later c x s →
      ZoneCommit B s.1 shape out (x.txn.view s.1) ∧ (x.txn.view s.1).Indexed B.lower := by
    intro s hs
    exact hs.pinned hready.lands ((hinv s.1).mp hs.inv)
  apply wp_commit_close hready.live
  · intro s hs _
    exact ⟨hguar _ _ (hlands s hs).1, (hinv _).mpr (hlands s hs).2⟩
  · intro s y hs _ hy
    exact hok y _ _ (hlands s hs).1 hy.txn hy.past
  · intro y hy s _ _
    exact hno _ hy.past

/-- The writer in a session of its own. -/
theorem wp_transact_applyZoneCommand {command : Json} {Q : Except PyError ZoneOutput → ZoneAt → Prop}
    (hx : x.txn = {}) (hinv : ∀ d, K.inv d () ↔ d.Indexed B.lower)
    (hguar : ∀ shape out d d', requiredCommandShape command = some shape →
      ZoneCommit B d shape out d' → K.guar c x.past (d, ()) (d', ()))
    (hok : ∀ y shape out d d', requiredCommandShape command = some shape →
      ZoneCommit B d shape out d' → y.past = x.past ++ [(d, d')] → Q (.ok out) y)
    (hno : ∀ y e, Refusal e → y.past = x.past → Q (.error e) y) :
    K.wp c (Prog.transact (applyZoneCommand B command)) Q x := by
  apply wp_withSession
  rw [wp_bind]
  apply wp_applyZoneCommand hx
  · intro y shape out hshape hy hready
    apply wp_commitZone hready hinv
    · rw [hy.past]
      exact fun d d' => hguar shape out d d' hshape
    · intro z d d' hcommit _ hz
      exact hok z shape out d d' hshape hcommit (by rw [hz, hy.past])
    · intro z hz
      exact hno z _ .dbapiError (by rw [hz, hy.past])
  · intro y e hy he s _ _
    exact hno _ e he hy.past

/-- The agent commits what the writer returns, and reports what it raises. -/
theorem wp_applyZone {command : Json} {Q : Except PyError ZoneApplyResult → ZoneAt → Prop}
    (hx : x.txn = {}) (hinv : ∀ d, K.inv d () ↔ d.Indexed B.lower)
    (hguar : ∀ shape out d d', requiredCommandShape command = some shape →
      ZoneCommit B d shape out d' → K.guar c x.past (d, ()) (d', ()))
    (hok : ∀ y shape out d d', requiredCommandShape command = some shape →
      ZoneCommit B d shape out d' → y.txn = {} → y.past = x.past ++ [(d, d')] →
      Q (.ok (.applied out)) y)
    (hno : ∀ y result, result.isApplied = false → y.txn = {} → y.past = x.past → Q (.ok result) y)
    (he : ∀ y, y.past = x.past → Q (.error .dbapiError) y) :
    K.wp c (applyZone B command) Q x := by
  -- a session that has nothing to commit is only closed
  have hleft : ∀ y (result : ZoneApplyResult), K.Follows c x y → result.isApplied = false →
      K.wp c (if result.isApplied then do
          Prog.commitSession
          return result
        else return result)
        (fun r y => ∀ s, K.Later c y s → K.assume c (y.now s) → Q r (y.now s).closed) y := by
    intro y result hy hresult
    rw [if_neg (by simp [hresult])]
    intro s _ _
    exact hno _ result hresult rfl hy.past
  apply wp_withSession
  rw [wp_bind, runApplyZone, Prog.tryCatch_eq, wp_andThen, wp_bind]
  apply wp_validateApplyZoneCommand (by rw [hx])
  · intro y n hy hyt
    dsimp only
    split_ifs
    · exact hleft y _ hy rfl
    · rw [wp_bind]
      apply wp_applyZoneCommand (by rw [hyt, hx])
      · intro z shape out hshape hz hready
        have hpast : z.past = x.past := hz.past.trans hy.past
        apply wp_commitZone hready hinv
        · rw [hpast]
          exact fun d d' => hguar shape out d d' hshape
        · intro u d d' hcommit hut hu
          exact hok u shape out d d' hshape hcommit hut (by rw [hu, hpast])
        · intro u hu
          exact he u (by rw [hu, hpast])
      · intro z e hz _
        exact hleft z _ (hy.trans hz) rfl
  · intro y e hy
    exact hleft y _ hy rfl

/-- The rest of an edit, after the zone was looked up. -/
theorem wp_updateFound {payload : List (String × Json)} {zone : Zone}
    {Q : Except PyError (ZoneApplyResult × List Zone) → ZoneAt → Prop}
    (hx : x.txn = {}) (hinv : ∀ d, K.inv d () ↔ d.Indexed B.lower)
    (hguar : ∀ shape out d d', requiredCommandShape (editCommand zone.name payload) = some shape →
      ZoneCommit B d shape out d' → K.guar c x.past (d, ()) (d', ()))
    (hQ : ∀ r y, Q r y) :
    K.wp c (updateFound B payload (some zone)) Q x := by
  have hlist : ∀ (y : ZoneAt) (result : ZoneApplyResult), y.txn = {} → K.wp c (do
      let zones ← listAllZones B
      return (result, zones)) Q y := by
    intro y result hy
    rw [wp_bind]
    apply wp_withSession
    apply wp_select (by rw [hy])
    · intro s _ _ s' _ _
      exact hQ _ _
    · intro z _ s _ _
      exact hQ _ _
  rw [updateFound, wp_bind]
  apply wp_applyZone hx hinv hguar
  · intro y shape out d d' _ _ hyt _
    exact hlist y _ hyt
  · intro y result _ hyt _
    exact hlist y _ hyt
  · intro y _
    exact hQ _ _

/-- An edit looks the zone up in the state its first step finds. -/
theorem wp_zoneUpdate {zoneId : Uuid} {payload : List (String × Json)}
    {Q : Except PyError (ZoneApplyResult × List Zone) → ZoneAt → Prop}
    (hx : x.txn = {}) (hinv : ∀ d, K.inv d () ↔ d.Indexed B.lower)
    (hguar : ∀ target shape out d d',
      requiredCommandShape (editCommand target payload) = some shape →
      ZoneCommit B d shape out d' → K.guar c x.past (d, ()) (d', ()))
    (hQ : ∀ r y, Q r y) :
    K.wp c (zoneUpdate B zoneId payload) Q x := by
  rw [zoneUpdate, wp_bind]
  apply wp_withSession
  apply deliveryZones.wp_find (by rw [hx])
  · intro s _ _ s' _ _
    dsimp only
    generalize (deliveryZones.table (x.txn.view s.1)).find zoneId = found
    cases found with
    | none => exact hQ _ _
    | some zone => exact wp_updateFound rfl hinv (hguar zone.name) hQ
  · intro y _ s _ _
    exact hQ _ _

end Specs

/-! ## The contract -/

/-- The commands a call can send to the tools. -/
def ZoneCall.Sends : ZoneCall → ZoneCommand → Prop
  | .applyZoneCommand command, shape => requiredCommandShape command = some shape
  | .applyZone command, shape => requiredCommandShape command = some shape
  | .zoneUpdate _ payload, shape =>
      ∃ target, requiredCommandShape (editCommand target payload) = some shape

/-- The call has made one commit, that of its command. -/
def Landed (c : ZoneCall) (out : ZoneOutput) (past : List (ZoneDatabase × ZoneDatabase)) : Prop :=
  ∃ d d' shape, past = [(d, d')] ∧ c.Sends shape ∧ ZoneCommit B d shape out d'

/-- How a call of the writer or of the agent ends: with the one commit of its
command, or with none. -/
def ZoneEnd (c : ZoneCall) (past : List (ZoneDatabase × ZoneDatabase)) :
    Except PyError ZoneAnswer → Prop
  | .ok (.output out) => Landed B c out past
  | .ok (.result (.applied out)) => Landed B c out past
  | .ok (.result _) => past = []
  | .ok (.response _ _) => True
  | .error e => (∃ zoneId payload, c = .zoneUpdate zoneId payload) ∨ past = [] ∧ Refusal e

/-- Every call promises what its one commit does, and expects nothing. -/
def zoneContract : ZoneContract where
  inv d _ := d.Indexed B.lower
  guar c past s s' := past = [] ∧ ∃ shape out, c.Sends shape ∧ ZoneCommit B s.1 shape out s'.1
  rely _ _ _ := True
  post c r x := ZoneEnd B c x.past r

theorem valid_zones : (zoneContract B).Valid (zoneCalls B) where
  body c d m _ _ := by
    cases c with
    | applyZoneCommand command =>
        change (zoneContract B).wp _ (Prog.transact (applyZoneCommand B command) >>= fun out =>
          .ret (ZoneAnswer.output out)) _ _
        rw [wp_bind]
        apply wp_transact_applyZoneCommand rfl fun _ => Iff.rfl
        · intro shape out d d' hshape hcommit
          exact ⟨rfl, shape, out, hshape, hcommit⟩
        · intro y shape out d d' hshape hcommit hy
          exact ⟨d, d', shape, hy, hshape, hcommit⟩
        · intro y e he hy
          exact Or.inr ⟨hy, he⟩
    | applyZone command =>
        change (zoneContract B).wp _ (applyZone B command >>= fun result =>
          .ret (ZoneAnswer.result result)) _ _
        rw [wp_bind]
        apply wp_applyZone rfl fun _ => Iff.rfl
        · intro shape out d d' hshape hcommit
          exact ⟨rfl, shape, out, hshape, hcommit⟩
        · intro y shape out d d' hshape hcommit _ hy
          exact ⟨d, d', shape, hy, hshape, hcommit⟩
        · intro y result hresult _ hy
          cases result with
          | applied out => cases hresult
          | rejected => exact hy
          | failed error => exact hy
        · intro y hy
          exact Or.inr ⟨hy, .dbapiError⟩
    | zoneUpdate zoneId payload =>
        change (zoneContract B).wp _ (zoneUpdate B zoneId payload >>= fun response =>
          .ret (ZoneAnswer.response response.1 response.2)) _ _
        rw [wp_bind]
        apply wp_zoneUpdate rfl fun _ => Iff.rfl
        · intro target shape out d d' hshape hcommit
          exact ⟨rfl, shape, out, ⟨target, hshape⟩, hcommit⟩
        · intro r y
          cases r with
          | ok response => exact trivial
          | error e => exact Or.inl ⟨zoneId, payload, rfl⟩
  compat _ _ _ _ _ _ _ _ _ _ := trivial
  move v := nomatch v
  restart _ _ h := h
  post _ _ _ _ _ h := h

end Sieshka
