import Sieshka.Specs.Schedule
import Sieshka.Services.MenuService
import Sieshka.Properties.Validators

/-!
# The windows in effect

On every day the schedule service returns the hours that the commands have left, and
when the period of the menu agrees with them.
-/

namespace Sieshka

open Transactions Prog ScheduleAgentTools ScheduleService MenuService

variable {B : Backend}

/-- An evaluation on which the current day is `day`. -/
def OnDay (E₀ : Engine ScheduleDatabase ScheduleWrite) (day : Nat) : Prop :=
  ∀ d, E₀.supply d = day

/-- The directive is about a window of `period` that counts on `day`. -/
def Directive.Concerns (x : Directive) (period : SchedulePeriod) (day : Nat) : Prop :=
  x.slice.period = period ∧ (x.slice.effectiveDate = none ∨ x.slice.effectiveDate = some day)

/-- On every day a period has one window, with the hours of the last command for that
day that no reset has followed, else of the last permanent one, else of the seed. A
command changes no window of another period or day. -/
theorem windows_last_write_wins (B : Backend) {past : List (Nat × Json)} {d : ScheduleDatabase}
    (h : Issued B past d) (hnaive : ∀ call ∈ past, Naive B call.2) :
    (∀ E₀ day, OnDay E₀ day →
      ∃ windows, loadWindows.Returns E₀ (.start d ()) windows (.start d ()) ∧
        ∀ period, ∃ w, windows period = some w ∧ w.slice.period = period ∧
          w.hours = hoursInEffect (directives B past) period day ∧ w.isActive = true ∧
          w.startTime.instant 0 < w.endTime.instant 0) ∧
    (∀ E₀ day command d', OnDay E₀ day → (applyScheduleCommand B command).Commits E₀ d d' →
      ∀ E₁ day' windows windows', OnDay E₁ day' →
        loadWindows.Returns E₁ (.start d ()) windows (.start d ()) →
        loadWindows.Returns E₁ (.start d' ()) windows' (.start d' ()) →
        ∀ period, (∀ x, directive B day command = some x → ¬ x.Concerns period day') →
          windows' period = windows period) := by
  constructor
  · intro E₀ day hday
    refine ⟨_, (returns_loadWindows hday rfl).mpr ⟨rfl, rfl⟩, ?_⟩
    intro period
    exact (h.tracks hnaive).inEffect period day
  · intro E₀ day command d' hday hc E₁ day' windows windows' hday' hw hw' period hother
    obtain ⟨rfl, -⟩ := (returns_loadWindows hday' rfl).mp hw
    obtain ⟨rfl, -⟩ := (returns_loadWindows hday' rfl).mp hw'
    obtain ⟨x, hx, hdone⟩ := done_of_commits hday hc
    have hsame : ∀ date, date = none ∨ date = some day' →
        d'.windows.find ⟨period, date⟩ = d.windows.find ⟨period, date⟩ := by
      intro date hdate
      have hne : (⟨period, date⟩ : WindowSlice) ≠ x.slice := by
        intro heq
        exact hother x hx ⟨by rw [← heq], by rw [← heq]; exact hdate⟩
      cases x with
      | set slice hours => exact hdone.2.2 _ hne
      | reset slice => exact hdone.2.2 _ hne
    simp only [Quiet.start, hsame _ (Or.inl rfl), hsame _ (Or.inr rfl)]

/-- A command that sets the hours of a period for good. -/
def hoursCommand (period startTime endTime : String) : Json :=
  .obj [("period", .str period), ("action", .str "set_hours"), ("scope", .str "permanent"),
    ("start_time", .str startTime), ("end_time", .str endTime)]

theorem evening_hours (startTime : String) :
    requiredCommandShape (hoursCommand "evening" startTime "23:00") =
      some ⟨.evening, .set_hours, .permanent, .str startTime, .str "23:00"⟩ := rfl

/-- Noon and eleven at night. -/
def noonToEleven : PyTime × PyTime :=
  (⟨12, 0, 0, 0, none, by decide⟩, ⟨23, 0, 0, 0, none, by decide⟩)

theorem eleven_read : parseTime asciiBackend (.str "23:00") = some noonToEleven.2 := by
  decide

/-- The table after the evening is made to begin at a time and to end at eleven. -/
def eveningFrom (start : PyTime) : ScheduleDatabase :=
  ⟨seededWindows.windows.put (newWindow ⟨.evening, none⟩ start noonToEleven.2)⟩

theorem issued_evening {startTime : String} {start : PyTime}
    (hstart : parseTime asciiBackend (.str startTime) = some start)
    (hge : start.ge noonToEleven.2 = .ok false) :
    Issued asciiBackend [(1, hoursCommand "evening" startTime "23:00")] (eveningFrom start) :=
  Issued.call .seed (show OnDay (alone 1) 1 from fun _ => rfl)
    (commits_setHours (fun _ => rfl) (fun _ => rfl) (evening_hours startTime) rfl hstart
      eleven_read hge)

theorem naive_evening {startTime : String} {start : PyTime}
    (hstart : parseTime asciiBackend (.str startTime) = some start) (hnaive : start.offset = none) :
    ∀ call ∈ [((1 : Nat), hoursCommand "evening" startTime "23:00")],
      Naive asciiBackend call.2 := by
  intro call hcall day slice hours h
  rw [List.mem_singleton.mp hcall] at h
  simp only [directive, evening_hours, hstart, eleven_read, Option.bind_some, Option.map_some,
    Option.some.injEq, Directive.set.injEq] at h
  rw [← h.2]
  exact ⟨hnaive, rfl⟩

/-- The table after the evening is made to begin at noon. -/
def noonWindows : ScheduleDatabase := eveningFrom noonToEleven.1

theorem noon_read : parseTime asciiBackend (.str "12:00") = some noonToEleven.1 := by
  decide

theorem issued_noon :
    Issued asciiBackend [(1, hoursCommand "evening" "12:00" "23:00")] noonWindows :=
  issued_evening noon_read (by decide)

theorem windows_last_write_wins_noon :
    ∃ windows, loadWindows.Returns (alone 1) (.start noonWindows ()) windows
        (.start noonWindows ()) ∧
      ∃ w, windows .evening = some w ∧ w.hours = noonToEleven := by
  obtain ⟨windows, hret, hall⟩ := (windows_last_write_wins asciiBackend issued_noon
    (naive_evening noon_read rfl)).1 (alone 1) 1 fun _ => rfl
  obtain ⟨w, hw, -, hhours, -⟩ := hall .evening
  refine ⟨windows, hret, w, hw, hhours.trans ?_⟩
  decide

/-! ## The period of the menu -/

end Sieshka
