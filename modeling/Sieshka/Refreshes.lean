import Mathlib.Data.List.Basic

/-!
# Refreshes that overlap

A display that refreshes show. A refresh first reads a value and then, at a later time, shows
what comes of it, so another refresh can overtake it, or the value can change in between. The
display is right in the end as long as no refresh shows an old value after the last one that
has read the current value.
-/

namespace Refreshes

variable {V T : Type}

/-- A refresh that has read no other value than the current one, if any. -/
def UpToDate (current : V) (read : Option V) : Prop := ∀ v ∈ read, v = current

/-- Some refresh under way is up to date, or what is shown is. `reads` are the values that the
refreshes under way have read so far. -/
def Fresh (shows : V → T) (current : V) (reads : List (Option V)) (shown : Option T) : Prop :=
  (∃ read ∈ reads, UpToDate current read) ∨ shown = some (shows current)

/-- The refresh at `i` may show what it has read: it is up to date, or another one is. -/
def MayShow (current : V) (reads : List (Option V)) (i : ℕ) : Prop :=
  ∀ read ∈ reads[i]?, UpToDate current read ∨ ∃ other ∈ reads.eraseIdx i, UpToDate current other

variable {shows : V → T} {current : V} {reads : List (Option V)} {shown : Option T} {i : ℕ}

instance [DecidableEq V] (read : Option V) : Decidable (UpToDate current read) :=
  inferInstanceAs (Decidable (∀ v ∈ read, v = current))

instance [DecidableEq V] : Decidable (MayShow current reads i) :=
  inferInstanceAs (Decidable (∀ read ∈ reads[i]?, _))

theorem upToDate_none : UpToDate current none := by simp [UpToDate]

@[simp] theorem upToDate_some {v : V} : UpToDate current (some v) ↔ v = current := by
  simp [UpToDate]

/-- A refresh that has just been started will read the value as it is then. -/
theorem Fresh.of_mem (h : none ∈ reads) : Fresh shows current reads shown :=
  .inl ⟨none, h, upToDate_none⟩

/-- A refresh reads the current value. -/
theorem Fresh.reads_current (hi : i < reads.length) :
    Fresh shows current (reads.set i (some current)) shown :=
  .inl ⟨some current, List.mem_set hi _, upToDate_some.mpr rfl⟩

/-- A refresh that may show what it has read shows it and is over. -/
theorem Fresh.shows_read {v : V} (h : MayShow current reads i) (hi : reads[i]? = some (some v)) :
    Fresh shows current (reads.eraseIdx i) (some (shows v)) := by
  rcases h (some v) hi with hself | hother
  · right
    rw [upToDate_some.mp hself]
  · exact .inl hother

/-- When no refresh is under way, the current value is shown. -/
theorem Fresh.shown_eq (h : Fresh shows current [] shown) : shown = some (shows current) := by
  rcases h with ⟨read, hmem, -⟩ | h
  · cases hmem
  · exact h

end Refreshes
