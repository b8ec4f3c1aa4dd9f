import Mathlib.Data.List.Nodup
import Mathlib.Data.List.Perm.Subperm
import Mathlib.Data.Nat.Find

/-!
# The first free name

A sequence of pairwise different names and a list of names that are taken. A loop that
tries one name after another ends, and the name it ends with is the first one that is free.
-/

namespace Sieshka

variable {α : Type} [DecidableEq α]

/-- The `n`-th name is free and those before it are taken. -/
structure FirstFree (name : ℕ → α) (taken : List α) (n : ℕ) : Prop where
  free : name n ∉ taken
  before : ∀ m < n, name m ∈ taken

/-- The loop from the `n`-th name on; `none` when it has not ended after so many rounds. -/
def untaken (name : ℕ → α) (taken : List α) : ℕ → ℕ → Option α
  | 0, _ => none
  | rounds + 1, n =>
      if name n ∈ taken then untaken name taken rounds (n + 1) else some (name n)

variable {name : ℕ → α} {taken : List α}

omit [DecidableEq α] in
theorem FirstFree.unique {n m : ℕ} (h : FirstFree name taken n) (h' : FirstFree name taken m) :
    n = m := by
  rcases lt_trichotomy n m with hlt | heq | hlt
  · exact absurd (h'.before n hlt) h.free
  · exact heq
  · exact absurd (h.before m hlt) h'.free

omit [DecidableEq α] in
theorem length_le_of_taken (hname : Function.Injective name) {n : ℕ}
    (h : ∀ m < n, name m ∈ taken) : n ≤ taken.length := by
  have hnodup : ((List.range n).map name).Nodup := List.nodup_range.map hname
  have hsub : (List.range n).map name ⊆ taken := by
    intro x hx
    obtain ⟨m, hm, rfl⟩ := List.mem_map.mp hx
    exact h m (List.mem_range.mp hm)
  have hlength := (List.subperm_of_subset hnodup hsub).length_le
  simpa using hlength

/-- One of more names than are taken is free. -/
theorem exists_firstFree (hname : Function.Injective name) (taken : List α) :
    ∃ n, FirstFree name taken n := by
  have hfree : ∃ n, name n ∉ taken := by
    by_contra hall
    have hlength : taken.length + 1 ≤ taken.length := by
      apply length_le_of_taken hname
      intro m _
      by_contra hm
      exact hall ⟨m, hm⟩
    omega
  apply Exists.intro (Nat.find hfree)
  constructor
  · exact Nat.find_spec hfree
  · intro m hm
    by_contra hx
    exact Nat.find_min hfree hm hx

theorem untaken_of_firstFree {k : ℕ} (h : FirstFree name taken k) {n : ℕ} (hn : n ≤ k)
    {rounds : ℕ} (hrounds : k < n + rounds) :
    untaken name taken rounds n = some (name k) := by
  induction rounds generalizing n with
  | zero => omega
  | succ rounds ih =>
      by_cases hk : n = k
      · subst hk
        rw [untaken, if_neg h.free]
      · have hlt : n < k := by omega
        rw [untaken, if_pos (h.before n hlt)]
        apply ih
        · omega
        · omega

section NextFree

variable (hname : Function.Injective name) (taken)
include hname

/-- One round more than there are taken names is enough. -/
theorem isSome_untaken : (untaken name taken (taken.length + 1) 0).isSome := by
  obtain ⟨n, hn⟩ := exists_firstFree hname taken
  have hle := length_le_of_taken hname hn.before
  rw [untaken_of_firstFree hn (Nat.zero_le n) (by omega)]
  rfl

/-- The name the loop ends with. -/
def nextFree : α := (untaken name taken (taken.length + 1) 0).get (isSome_untaken taken hname)

theorem exists_nextFree : ∃ n, FirstFree name taken n ∧ nextFree taken hname = name n := by
  obtain ⟨n, hn⟩ := exists_firstFree hname taken
  have hle := length_le_of_taken hname hn.before
  have hsome := untaken_of_firstFree hn (Nat.zero_le n) (show n < 0 + (taken.length + 1) by omega)
  refine ⟨n, hn, ?_⟩
  rw [nextFree, Option.get_of_eq_some _ hsome]

theorem nextFree_not_mem : nextFree taken hname ∉ taken := by
  obtain ⟨n, hn, heq⟩ := exists_nextFree taken hname
  rw [heq]
  exact hn.free

end NextFree

end Sieshka
