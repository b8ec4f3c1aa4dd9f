import Sieshka.Tools.ScheduleAgentTools
import Sieshka.Services.ScheduleService

/-!
# Windows set and reset

The windows that the committed commands have left behind, as a function of the
commands alone: the last command for a period and a day decides, and without one the
last permanent command.
-/

namespace Sieshka

open Transactions Prog ScheduleAgentTools ScheduleService

variable {B : Backend}

/-! ## The specification -/

/-- What a command asks for. -/
inductive Directive
  | set (slice : WindowSlice) (hours : PyTime × PyTime)
  | reset (slice : WindowSlice)

/-- The windows a directive is about. -/
def Directive.slice : Directive → WindowSlice
  | set slice _ => slice
  | reset slice => slice

/-- The hours a directive sets. -/
def Directive.hours : Directive → Option (PyTime × PyTime)
  | set _ hours => some hours
  | reset _ => none

/-- The windows that a command of a given scope is about when it is issued on `day`. -/
def sliceOf (period : SchedulePeriod) (scope : ScheduleScope) (day : Nat) : WindowSlice :=
  { period, effectiveDate := match scope with | .permanent => none | .today => some day }

/-- What a command issued on `day` asks for. -/
def directive (B : Backend) (day : Nat) (command : Json) : Option Directive :=
  (requiredCommandShape command).bind fun parsed =>
    match parsed.action with
    | .set_hours =>
        (parseTime B parsed.startTime).bind fun start =>
          (parseTime B parsed.endTime).map fun end_ =>
            .set (sliceOf parsed.period parsed.scope day) (start, end_)
    | .reset_to_default => some (.reset (sliceOf parsed.period parsed.scope day))

/-- The seeded windows. -/
def seedHours : SchedulePeriod → PyTime × PyTime
  | .morning => (⟨0, 0, 0, 0, none, by decide⟩, ⟨16, 0, 0, 0, none, by decide⟩)
  | .evening => (⟨16, 0, 0, 0, none, by decide⟩, eodSentinel)

/-- The hours the last directive about some windows has left. -/
def lastHours (ds : List Directive) (slice : WindowSlice) : Option (PyTime × PyTime) :=
  ((ds.filter fun x => x.slice = slice).getLast?).bind Directive.hours

/-- The hours in effect on a day: those set for that day and not reset since, else
those set for good, else the seed. -/
def hoursInEffect (ds : List Directive) (period : SchedulePeriod) (day : Nat) : PyTime × PyTime :=
  (lastHours ds ⟨period, some day⟩).getD
    ((lastHours ds ⟨period, none⟩).getD (seedHours period))

/-! ## Runs of the writer -/

/-- The row of a window from migration 007. -/
def seedWindow (period : SchedulePeriod) : ScheduleWindow :=
  { slice := ⟨period, none⟩, startTime := (seedHours period).1, endTime := (seedHours period).2,
    isActive := true }

/-- The seeded table. -/
def seededWindows : ScheduleDatabase :=
  { windows := (Table.empty.put (seedWindow .morning)).put (seedWindow .evening) }

/-- Commands committed one after another, each with the day it was issued on. -/
inductive Issued (B : Backend) : List (Nat × Json) → ScheduleDatabase → Prop
  | seed : Issued B [] seededWindows
  | call {past d d' day command} {E₀ : Engine ScheduleDatabase ScheduleWrite}
      (h : Issued B past d) (hday : ∀ e, E₀.supply e = day)
      (hc : (applyScheduleCommand B command).Commits E₀ d d') :
      Issued B (past ++ [(day, command)]) d'

/-- The directives of a run. -/
def directives (B : Backend) (past : List (Nat × Json)) : List Directive :=
  past.filterMap fun call => directive B call.1 call.2

/-- The times of a command carry no offset. -/
def Naive (B : Backend) (command : Json) : Prop :=
  ∀ day slice hours, directive B day command = some (.set slice hours) →
    hours.1.offset = none ∧ hours.2.offset = none

/-! ## One command -/

/-- What a directive leaves in the table. -/
def Directive.done (d d' : ScheduleDatabase) (x : Directive) : Prop :=
  match x with
  | .set slice hours => hours.1.ge hours.2 = .ok false ∧
      d'.windows.find slice = some (newWindow slice hours.1 hours.2) ∧
      ∀ other, other ≠ slice → d'.windows.find other = d.windows.find other
  | .reset slice => slice.effectiveDate ≠ none ∧ d'.windows.find slice = none ∧
      ∀ other, other ≠ slice → d'.windows.find other = d.windows.find other

section Step

variable {E₀ : Engine ScheduleDatabase ScheduleWrite} {s s' : Quiet ScheduleDatabase Unit}
variable {d d' : ScheduleDatabase} {day : Nat} {command : Json}

theorem returns_setHours {period : SchedulePeriod} {scope : ScheduleScope} {start end_ : PyTime}
    (hday : ∀ e, E₀.supply e = day) (hs : s.failed = false)
    (h : (setHours period scope start end_).Returns E₀ s () s') :
    s'.failed = false ∧ s'.view.windows =
      s.view.windows.put (newWindow (sliceOf period scope day) start end_) := by
  simp [setHours, menuToday, Schema.upsert, returns_stmt, hday] at h
  obtain ⟨-, -, rfl⟩ := h
  exact ⟨hs, rfl⟩

theorem returns_deleteWindow {slice : WindowSlice} (hs : s.failed = false)
    (h : (deleteWindow slice).Returns E₀ s () s') :
    s'.failed = false ∧ s'.view.windows.find slice = none ∧
      ∀ other, other ≠ slice → s'.view.windows.find other = s.view.windows.find other := by
  simp [deleteWindow, returns_stmt] at h
  obtain ⟨-, -, rfl⟩ := h
  refine ⟨hs, ?_⟩
  cases hfind : s.view.windows.find slice with
  | none => simp [hfind]
  | some w =>
      simp only [Option.map_some, Option.toList_some, Quiet.wrote, List.foldl_cons, List.foldl_nil]
      exact ⟨Table.find_remove_self _ _, fun other hne => Table.find_remove_of_ne _ hne⟩

theorem returns_applyScheduleCommand {out : ScheduleOutput} (hday : ∀ e, E₀.supply e = day)
    (hs : s.failed = false) (h : (applyScheduleCommand B command).Returns E₀ s out s') :
    s'.failed = false ∧ ∃ x, directive B day command = some x ∧ x.done s.view s'.view := by
  unfold applyScheduleCommand at h
  cases hparsed : requiredCommandShape command with
  | none => simp [hparsed] at h
  | some parsed =>
      simp only [hparsed] at h
      cases haction : parsed.action with
      | set_hours =>
          cases hstart : parseTime B parsed.startTime with
          | none => simp [haction, hstart] at h
          | some start =>
              cases hend : parseTime B parsed.endTime with
              | none => simp [haction, hstart, hend] at h
              | some end_ =>
                  simp only [haction, hstart, hend, bind_eq, pure_eq, throw_eq, returns_andThen,
                    returns_liftExcept, returns_ite, returns_raise, and_false, false_or,
                    returns_ret] at h
                  obtain ⟨late, _, ⟨hlate, rfl⟩, hnot, _, s₁, hset, rfl, rfl⟩ := h
                  obtain ⟨hf, hput⟩ := returns_setHours hday hs hset
                  refine ⟨hf, .set (sliceOf parsed.period parsed.scope day) (start, end_), ?_, ?_⟩
                  · simp [directive, hparsed, haction, hstart, hend]
                  · refine ⟨by simpa [Bool.eq_false_iff.mpr hnot] using hlate, ?_, ?_⟩
                    · rw [hput]
                      exact Table.find_put_self _ _
                    · intro other hne
                      rw [hput]
                      exact Table.find_put_of_ne _ (Ne.symm hne)
      | reset_to_default =>
          cases hscope : parsed.scope with
          | permanent => simp [haction, hscope] at h
          | today =>
              simp only [haction, hscope, reduceCtorEq, if_false, menuToday, bind_eq, pure_eq,
                returns_andThen, returns_choose, hday, returns_ret, Schema.returns_find] at h
              obtain ⟨today, _, ⟨htoday, rfl⟩, _, _, ⟨-, rfl, rfl⟩, _, s₁, hdel, rfl, rfl⟩ := h
              rw [htoday] at hdel
              obtain ⟨hf, hgone, hrest⟩ := returns_deleteWindow hs hdel
              refine ⟨hf, .reset (sliceOf parsed.period .today day), ?_, ?_, hgone, hrest⟩
              · simp [directive, hparsed, haction, hscope]
              · simp [sliceOf]

/-- What a committed command has asked for is done. -/
theorem done_of_commits (hday : ∀ e, E₀.supply e = day)
    (h : (applyScheduleCommand B command).Commits E₀ d d') :
    ∃ x, directive B day command = some x ∧ x.done d d' := by
  obtain ⟨out, s', hret, hview⟩ := h.returns
  obtain ⟨hf, x, hx, hdone⟩ := returns_applyScheduleCommand hday rfl hret
  rw [hview hf] at hdone
  exact ⟨x, hx, hdone⟩

/-- A command that sets hours in order is committed. -/
theorem commits_setHours {parsed : ScheduleCommand} {start end_ : PyTime}
    (hday : ∀ e, E₀.supply e = day) (hfit : ∀ w, E₀.fits w = true)
    (hparsed : requiredCommandShape command = some parsed) (haction : parsed.action = .set_hours)
    (hstart : parseTime B parsed.startTime = some start)
    (hend : parseTime B parsed.endTime = some end_) (hge : start.ge end_ = .ok false) :
    (applyScheduleCommand B command).Commits E₀ d
      ⟨d.windows.put (newWindow (sliceOf parsed.period parsed.scope day) start end_)⟩ := by
  have hreturns : ∃ out s', (applyScheduleCommand B command).Returns E₀ (.start d ()) out s' := by
    simp [applyScheduleCommand, hparsed, haction, hstart, hend, hge, setHours, menuToday,
      Schema.upsert, returns_stmt, Quiet.start, hfit]
  obtain ⟨out, s', hret⟩ := hreturns
  have hput : s'.failed = false ∧ s'.view.windows =
      d.windows.put (newWindow (sliceOf parsed.period parsed.scope day) start end_) := by
    simp only [applyScheduleCommand, hparsed, haction, hstart, hend, bind_eq, pure_eq,
      returns_andThen, returns_liftExcept, returns_ite, returns_ret, hge] at hret
    obtain ⟨late, _, ⟨hlate, rfl⟩, hret⟩ := hret
    obtain rfl : false = late := by simpa using hlate
    simp only [Bool.false_eq_true, false_and, not_false_eq_true, true_and, false_or] at hret
    obtain ⟨_, s₁, hset, rfl, rfl⟩ := hret
    exact returns_setHours hday rfl hset
  rw [← hput.2]
  exact Commits.of_returns hret hput.1

end Step

/-! ## The rows in effect -/

theorem firstOfPeriod_eq (rows : List ScheduleWindow) (period : SchedulePeriod) :
    firstOfPeriod rows period = rows.find? fun row => row.slice.period = period := by
  have hloop : ∀ windows : Windows, rows.foldl addWindow windows period =
      (windows period).or (rows.find? fun row => row.slice.period = period) := by
    induction rows with
    | nil => intro windows; simp
    | cons row rest ih =>
        intro windows
        rw [List.foldl_cons, ih, addWindow, List.find?_cons]
        by_cases hp : row.slice.period = period
        · cases hw : windows period with
          | none => simp [hp]
          | some w => simp [hp]
        · simp [hp, Ne.symm hp]
  simpa [firstOfPeriod] using hloop fun _ => none

theorem orderedBefore_trans (a b c : ScheduleWindow) :
    orderedBefore a b = true → orderedBefore b c = true → orderedBefore a c = true := by
  unfold orderedBefore
  cases a.slice.period <;> cases b.slice.period <;> cases c.slice.period <;>
    cases a.slice.effectiveDate <;> cases b.slice.effectiveDate <;>
    cases c.slice.effectiveDate <;> simp
  all_goals omega

theorem orderedBefore_total (a b : ScheduleWindow) :
    (orderedBefore a b || orderedBefore b a) = true := by
  unfold orderedBefore
  cases a.slice.period <;> cases b.slice.period <;>
    cases a.slice.effectiveDate <;> cases b.slice.effectiveDate <;> simp
  all_goals omega

theorem mem_windowRows {today : Nat} {d : ScheduleDatabase} {w : ScheduleWindow} :
    w ∈ windowRows today d ↔ d.windows.find w.slice = some w ∧
      (w.slice.effectiveDate = some today ∨ w.slice.effectiveDate = none) := by
  simp [windowRows, Table.mem_filter, Table.mem_rows_iff]

/-- The window of the day comes first, and the permanent one where there is none. -/
theorem firstOfPeriod_windowRows (today : Nat) (d : ScheduleDatabase) (period : SchedulePeriod) :
    firstOfPeriod (windowRows today d) period =
      (d.windows.find ⟨period, some today⟩).or (d.windows.find ⟨period, none⟩) := by
  rw [firstOfPeriod_eq]
  have hsorted : (windowRows today d).Pairwise fun a b => orderedBefore a b = true :=
    List.pairwise_mergeSort orderedBefore_trans orderedBefore_total _
  cases hfirst : (windowRows today d).find? fun row => row.slice.period = period with
  | none =>
      have hnone : ∀ w ∈ windowRows today d, w.slice.period ≠ period := by
        simpa using hfirst
      have habsent : ∀ date, date = some today ∨ date = none →
          d.windows.find ⟨period, date⟩ = none := by
        intro date hdate
        by_contra hne
        obtain ⟨w, hw⟩ := Option.ne_none_iff_exists'.mp hne
        have hslice := (Table.find_some hw).2
        refine hnone w (mem_windowRows.mpr ⟨?_, ?_⟩) (by rw [hslice])
        · rw [hslice]; exact hw
        · rw [hslice]; exact hdate
      simp [habsent]
  | some w =>
      obtain ⟨hw, before, after, hrows, hbefore⟩ := List.find?_eq_some_iff_append.mp hfirst
      have hperiod : w.slice.period = period := by simpa using hw
      obtain ⟨hfind, hdate⟩ := mem_windowRows.mp (List.mem_of_find?_eq_some hfirst)
      rcases hdate with hdate | hdate
      · have hslice : w.slice = ⟨period, some today⟩ := by rw [← hperiod, ← hdate]
        rw [← hslice, hfind]
        rfl
      · have hslice : w.slice = ⟨period, none⟩ := by rw [← hperiod, ← hdate]
        have habsent : d.windows.find ⟨period, some today⟩ = none := by
          -- a window of the day would come before the permanent one
          by_contra hne
          obtain ⟨v, hv⟩ := Option.ne_none_iff_exists'.mp hne
          have hvslice := (Table.find_some hv).2
          have hmem : v ∈ windowRows today d :=
            mem_windowRows.mpr ⟨by rw [hvslice]; exact hv, Or.inl (by rw [hvslice])⟩
          rw [hrows] at hmem hsorted
          rcases List.mem_append.mp hmem with hmem | hmem
          · simpa [hvslice] using hbefore v hmem
          · rcases List.mem_cons.mp hmem with rfl | hmem
            · rw [hslice] at hvslice
              cases hvslice
            · have hle := List.rel_of_pairwise_cons
                (List.pairwise_append.mp hsorted).2.1 hmem
              cases period <;> simp [orderedBefore, hslice, hvslice] at hle
        rw [habsent, ← hslice, hfind]
        rfl

/-- What `_load_windows` returns on a day. -/
theorem returns_loadWindows {E₀ : Engine ScheduleDatabase ScheduleWrite} {today : Nat}
    {s s' : Quiet ScheduleDatabase Unit} {windows : Windows} (hday : ∀ e, E₀.supply e = today)
    (hs : s.failed = false) :
    loadWindows.Returns E₀ s windows s' ↔
      (windows = fun period => (s.view.windows.find ⟨period, some today⟩).or
        (s.view.windows.find ⟨period, none⟩)) ∧ s' = s := by
  have hrows : firstOfPeriod (windowRows today s.view) = fun period =>
      (s.view.windows.find ⟨period, some today⟩).or (s.view.windows.find ⟨period, none⟩) :=
    funext fun period => firstOfPeriod_windowRows today s.view period
  simp [loadWindows, menuToday, hday, hs, hrows, and_comm]

/-! ## Runs -/

/-- The hours of a window. -/
def ScheduleWindow.hours (w : ScheduleWindow) : PyTime × PyTime :=
  (w.startTime, w.endTime)

/-- The hours stored for some windows after the directives `ds`. -/
def storedHours (ds : List Directive) (slice : WindowSlice) : Option (PyTime × PyTime) :=
  match (ds.filter fun x => x.slice = slice).getLast? with
  | some x => x.hours
  | none => if slice.effectiveDate = none then some (seedHours slice.period) else none

theorem storedHours_append (ds : List Directive) (x : Directive) (slice : WindowSlice) :
    storedHours (ds ++ [x]) slice = if x.slice = slice then x.hours else storedHours ds slice := by
  unfold storedHours
  by_cases hx : x.slice = slice
  · simp [List.filter_append, hx]
  · simp [List.filter_append, hx]

/-- The table holds what the directives have asked for. -/
structure Tracks (ds : List Directive) (d : ScheduleDatabase) : Prop where
  hours : ∀ slice, (d.windows.find slice).map ScheduleWindow.hours = storedHours ds slice
  valid : ∀ slice w, d.windows.find slice = some w →
    w.isActive = true ∧ w.startTime.instant 0 < w.endTime.instant 0
  permanent : ∀ period, d.windows.find ⟨period, none⟩ ≠ none

theorem seed_tracks : Tracks [] seededWindows := by
  have hmorning : ∀ slice, seededWindows.windows.find slice =
      if slice.effectiveDate = none then some (seedWindow slice.period) else none := by
    intro slice
    obtain ⟨period, date⟩ := slice
    cases date with
    | none => cases period <;> rfl
    | some day => cases period <;> simp [seededWindows, Table.find_put, seedWindow] <;> rfl
  refine ⟨?_, ?_, ?_⟩
  · intro slice
    rw [hmorning]
    simp only [storedHours, List.filter_nil, List.getLast?_nil]
    split_ifs with hdate
    · rfl
    · rfl
  · intro slice w hw
    rw [hmorning] at hw
    split_ifs at hw with hdate
    obtain rfl := Option.some.inj hw
    cases slice.period with
    | morning => exact ⟨rfl, by decide⟩
    | evening => exact ⟨rfl, by decide⟩
  · intro period
    rw [hmorning]
    simp

theorem wall_of_naive {t : PyTime} (h : t.offset = none) : t.wall = t := by
  cases t
  simp only at h
  subst h
  rfl

/-- The window that a directive with naive times sets. -/
theorem newWindow_valid (slice : WindowSlice) {hours : PyTime × PyTime}
    (hge : hours.1.ge hours.2 = .ok false) (hstart : hours.1.offset = none)
    (hend : hours.2.offset = none) :
    (newWindow slice hours.1 hours.2).hours = hours ∧
      (newWindow slice hours.1 hours.2).isActive = true ∧
      (newWindow slice hours.1 hours.2).startTime.instant 0 <
        (newWindow slice hours.1 hours.2).endTime.instant 0 := by
  have hlt : hours.1.instant 0 < hours.2.instant 0 := by
    simpa [PyTime.ge, hstart, hend] using hge
  simp [newWindow, ScheduleWindow.hours, wall_of_naive hstart, wall_of_naive hend, hlt]

/-- A directive that is done keeps the table as the directives have it. -/
theorem Tracks.step {ds : List Directive} {d d' : ScheduleDatabase} {x : Directive}
    (h : Tracks ds d) (hx : x.done d d')
    (hnaive : ∀ slice hours, x = .set slice hours →
      hours.1.offset = none ∧ hours.2.offset = none) :
    Tracks (ds ++ [x]) d' := by
  cases x with
  | set slice hours =>
      obtain ⟨hge, hset, hrest⟩ := hx
      obtain ⟨hstart, hend⟩ := hnaive slice hours rfl
      obtain ⟨hhours, hactive, hlt⟩ := newWindow_valid slice hge hstart hend
      constructor
      · intro other
        rw [storedHours_append]
        by_cases hother : other = slice
        · simp [hother, hset, hhours, Directive.slice, Directive.hours]
        · have hne : (Directive.set slice hours).slice ≠ other := Ne.symm hother
          rw [if_neg hne, hrest other hother]
          exact h.hours other
      · intro other w hw
        by_cases hother : other = slice
        · rw [hother, hset] at hw
          obtain rfl := Option.some.inj hw
          exact ⟨hactive, hlt⟩
        · rw [hrest other hother] at hw
          exact h.valid other w hw
      · intro period
        by_cases hother : (⟨period, none⟩ : WindowSlice) = slice
        · simp [hother, hset]
        · rw [hrest _ hother]
          exact h.permanent period
  | reset slice =>
      obtain ⟨hdated, hgone, hrest⟩ := hx
      constructor
      · intro other
        rw [storedHours_append]
        by_cases hother : other = slice
        · simp [hother, hgone, Directive.slice, Directive.hours]
        · have hne : (Directive.reset slice).slice ≠ other := Ne.symm hother
          rw [if_neg hne, hrest other hother]
          exact h.hours other
      · intro other w hw
        by_cases hother : other = slice
        · rw [hother, hgone] at hw
          cases hw
        · rw [hrest other hother] at hw
          exact h.valid other w hw
      · intro period
        have hother : (⟨period, none⟩ : WindowSlice) ≠ slice := by
          rintro rfl
          exact hdated rfl
        rw [hrest _ hother]
        exact h.permanent period

theorem Issued.tracks {past : List (Nat × Json)} {d : ScheduleDatabase} (h : Issued B past d)
    (hnaive : ∀ call ∈ past, Naive B call.2) : Tracks (directives B past) d := by
  induction h with
  | seed => exact seed_tracks
  | @call past d d' day command E₀ h hday hc ih =>
      obtain ⟨x, hx, hdone⟩ := done_of_commits hday hc
      have hds : directives B (past ++ [(day, command)]) = directives B past ++ [x] := by
        simp [directives, List.filterMap_append, hx]
      rw [hds]
      apply (ih fun call hcall => hnaive call (List.mem_append_left _ hcall)).step hdone
      intro slice hours hset
      exact hnaive (day, command) (by simp) day slice hours (hx.trans (by rw [hset]))

/-- The window in effect on a day. -/
theorem Tracks.inEffect {ds : List Directive} {d : ScheduleDatabase} (h : Tracks ds d)
    (period : SchedulePeriod) (day : Nat) :
    ∃ w, (d.windows.find ⟨period, some day⟩).or (d.windows.find ⟨period, none⟩) = some w ∧
      w.slice.period = period ∧ w.hours = hoursInEffect ds period day ∧ w.isActive = true ∧
      w.startTime.instant 0 < w.endTime.instant 0 := by
  have hlast : ∀ date, (d.windows.find ⟨period, some date⟩).map ScheduleWindow.hours =
      lastHours ds ⟨period, some date⟩ := by
    intro date
    rw [h.hours, storedHours, lastHours]
    cases (ds.filter fun x => x.slice = ⟨period, some date⟩).getLast? <;> rfl
  cases hday : d.windows.find ⟨period, some day⟩ with
  | some w =>
      have hw := hlast day
      rw [hday, Option.map_some] at hw
      refine ⟨w, rfl, by rw [(Table.find_some hday).2], ?_, h.valid _ _ hday⟩
      rw [hoursInEffect, ← hw]
      rfl
  | none =>
      obtain ⟨w, hperm⟩ := Option.ne_none_iff_exists'.mp (h.permanent period)
      have hw := hlast day
      rw [hday, Option.map_none] at hw
      have hstored := h.hours ⟨period, none⟩
      rw [hperm, Option.map_some, storedHours] at hstored
      refine ⟨w, by rw [hperm]; rfl, by rw [(Table.find_some hperm).2], ?_, h.valid _ _ hperm⟩
      rw [hoursInEffect, ← hw, Option.getD_none, lastHours]
      cases hfilter : (ds.filter fun x => x.slice = ⟨period, none⟩).getLast? with
      | none =>
          rw [hfilter] at hstored
          simpa using hstored
      | some x =>
          rw [hfilter] at hstored
          have hhours : some w.hours = x.hours := hstored
          rw [Option.bind_some, ← hhours]
          rfl

end Sieshka
