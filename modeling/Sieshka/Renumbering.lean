import Mathlib.Data.List.Nodup
import Mathlib.Data.List.Sort

/-!
# Renumbering a list of stored rows

Stored rows have a key and a rank, and a list of them is shown in the order of the ranks. A
new order is stored by giving each row the rank of its place, one request after another;
rows that are shown with the right rank are skipped, and the first request that is refused
ends the loop. When the list shows what is stored, the new order is stored exactly when no
request is refused, and nothing is changed exactly when the first one is.
-/

namespace Renumbering

/-- Rows with a key, and a rank that can be set. -/
structure Ranking (Row Key : Type) where
  key : Row → Key
  rank : Row → Int
  setRank : Int → Row → Row
  key_setRank : ∀ n r, key (setRank n r) = key r
  rank_setRank : ∀ n r, rank (setRank n r) = n

variable {Row Key Db Response E : Type}

namespace Ranking

variable (K : Ranking Row Key)

/-- The rank of the `i`-th place. -/
def place (i : ℕ) : Int := i * 10

/-- The rows with the ranks of their places, from the `i`-th on. -/
@[grind =] def renumbered : ℕ → List Row → List Row
  | _, [] => []
  | i, r :: rest =>
      (if K.rank r = place i then r else K.setRank (place i) r) :: renumbered (i + 1) rest

/-- The rows for which a request is made, with their new ranks. -/
@[grind =] def pending : ℕ → List Row → List (Row × Int)
  | _, [] => []
  | i, r :: rest =>
      if K.rank r = place i then pending (i + 1) rest
      else (r, place i) :: pending (i + 1) rest

/-- The loop over the rows, from the `i`-th place on: a request may be refused with an
error, and one that is accepted is answered. -/
@[grind =] def renumber (patch : Db → Key → Int → Db) (respond : Db → Response) (refusal : Row → Option E) :
    ℕ → List Row → Db → Option Response → Option E × Db × Option Response
  | _, [], d, latest => (none, d, latest)
  | i, r :: rest, d, latest =>
      if K.rank r = place i then renumber patch respond refusal (i + 1) rest d latest
      else match refusal r with
        | some error => (some error, d, latest)
        | none =>
            let d' := patch d (K.key r) (place i)
            renumber patch respond refusal (i + 1) rest d' (some (respond d'))

/-- Every list of the rows in the order of their ranks has these keys. -/
def InOrder (rows : List Row) (keys : List Key) : Prop :=
  ∀ l : List Row, l.Perm rows → l.Pairwise (fun r r' => K.rank r ≤ K.rank r') → l.map K.key = keys

/-! ## The ranks of the places -/

variable {K} {rows pre rest : List Row} {i : ℕ}

theorem place_lt_place {i j : ℕ} (h : i < j) : place i < place j := by
  unfold place
  omega

@[simp] theorem map_key_renumbered : (K.renumbered i rows).map K.key = rows.map K.key := by
  induction rows generalizing i with
  | nil => rfl
  | cons r rest ih =>
      rw [renumbered, List.map_cons, ih, List.map_cons]
      split_ifs
      · rfl
      · rw [K.key_setRank]

theorem le_rank_of_mem_renumbered {r : Row} (h : r ∈ K.renumbered i rows) :
    place i ≤ K.rank r := by
  induction rows generalizing i with
  | nil => cases h
  | cons r' rest ih =>
      rw [renumbered] at h
      rcases List.mem_cons.mp h with rfl | h
      · split_ifs with hrank
        · exact hrank.ge
        · rw [K.rank_setRank]
      · exact (place_lt_place (Nat.lt_succ_self i)).le.trans (ih h)

theorem renumbered_increases :
    (K.renumbered i rows).Pairwise fun r r' => K.rank r < K.rank r' := by
  induction rows generalizing i with
  | nil => exact List.Pairwise.nil
  | cons r rest ih =>
      rw [renumbered, List.pairwise_cons]
      refine ⟨?_, ih⟩
      intro r' hr'
      have hrank : K.rank (if K.rank r = place i then r else K.setRank (place i) r) = place i := by
        split_ifs with hrank
        · exact hrank
        · exact K.rank_setRank _ _
      rw [hrank]
      exact (place_lt_place (Nat.lt_succ_self i)).trans_le (le_rank_of_mem_renumbered hr')

/-- Rows with strictly increasing ranks are in order in one way only. -/
theorem eq_of_increases {l l' : List Row} (hperm : l.Perm l')
    (hl : l.Pairwise fun r r' => K.rank r ≤ K.rank r')
    (hl' : l'.Pairwise fun r r' => K.rank r < K.rank r') : l = l' := by
  have hnodup : (l'.map K.rank).Nodup := by
    rw [List.Nodup, List.pairwise_map]
    exact hl'.imp fun h => h.ne
  apply hperm.eq_of_pairwise _ hl (hl'.imp fun h => h.le)
  intro r r' hr hr' hle hge
  exact List.inj_on_of_nodup_map hnodup (hperm.mem_iff.mp hr) hr' (le_antisymm hle hge)

theorem inOrder_renumbered {stored : List Row} (h : stored.Perm (K.renumbered i rows)) :
    K.InOrder stored (rows.map K.key) := by
  intro l hperm hsorted
  rw [eq_of_increases (hperm.trans h) hsorted renumbered_increases, map_key_renumbered]

/-! ## Writing one rank -/

section Write

variable [DecidableEq Key]

variable (K) in
/-- The rows after the rank of one is set. -/
def write (k : Key) (n : Int) (rows : List Row) : List Row :=
  rows.map fun r => if K.key r = k then K.setRank n r else r

theorem write_of_not_mem {k : Key} {n : Int} (h : k ∉ rows.map K.key) :
    K.write k n rows = rows := by
  rw [write]
  calc rows.map (fun r => if K.key r = k then K.setRank n r else r)
      = rows.map id := by
        apply List.map_congr_left
        intro r hr
        rw [if_neg]
        · rfl
        · rintro rfl
          exact h (List.mem_map_of_mem hr)
    _ = rows := List.map_id _

/-- Of rows with distinct keys one is written. -/
theorem write_append {r : Row} {n : Int} (h : ((pre ++ r :: rest).map K.key).Nodup) :
    K.write (K.key r) n (pre ++ r :: rest) = pre ++ K.setRank n r :: rest := by
  rw [List.map_append, List.map_cons, List.nodup_middle, List.nodup_cons,
    List.mem_append, not_or] at h
  have hsplit : K.write (K.key r) n (pre ++ r :: rest) =
      K.write (K.key r) n pre ++ K.setRank n r :: K.write (K.key r) n rest := by
    simp [write]
  rw [hsplit, write_of_not_mem h.1.1, write_of_not_mem h.1.2]

/-- A row with another key is left as it is. -/
theorem mem_write {r : Row} {k : Key} {n : Int} (h : r ∈ rows) (hne : K.key r ≠ k) :
    r ∈ K.write k n rows := by
  apply List.mem_map.mpr
  exact ⟨r, h, if_neg hne⟩

/-! ## The loop -/

section Loop

variable {patch : Db → Key → Int → Db} {respond : Db → Response} {refusal : Row → Option E}
  {stored : Db → List Row} {d : Db} {latest : Option Response}

omit [DecidableEq Key] in
omit [DecidableEq Key] in
/-- When the first request is refused, nothing happens. -/
theorem renumber_of_refused {r : Row} {n : Int} {more : List (Row × Int)} {error : E}
    (h : K.pending i rows = (r, n) :: more) (hrefused : refusal r = some error) :
    K.renumber patch respond refusal i rows d latest = (some error, d, latest) := by
  induction rows generalizing i with
  | nil => cases h
  | cons r' rest ih =>
      rw [pending] at h
      rw [renumber]
      by_cases hrank : K.rank r' = place i
      · rw [if_pos hrank] at h ⊢
        exact ih h
      · rw [if_neg hrank] at h ⊢
        obtain ⟨hr, -⟩ := List.cons.inj h
        obtain ⟨rfl, -⟩ := Prod.mk.inj hr
        rw [hrefused]

/-- When every request is accepted, the rows are stored with the ranks of their places. -/
theorem renumber_of_accepted (hpatch : ∀ d k n, stored (patch d k n) = K.write k n (stored d))
    (haccepted : ∀ p ∈ K.pending i rows, refusal p.1 = none) (pre : List Row)
    (hperm : (stored d).Perm (pre ++ rows)) (hnodup : ((pre ++ rows).map K.key).Nodup) :
    (stored (K.renumber patch respond refusal i rows d latest).2.1).Perm
      (pre ++ K.renumbered i rows) := by
  induction rows generalizing i pre d latest with
  | nil => exact hperm
  | cons r rest ih =>
      rw [renumber, renumbered]
      rw [pending] at haccepted
      by_cases hrank : K.rank r = place i
      · rw [if_pos hrank] at haccepted ⊢
        rw [if_pos hrank]
        have hmove : pre ++ r :: rest = (pre ++ [r]) ++ rest := by simp
        rw [hmove] at hperm hnodup
        simpa using ih haccepted (pre ++ [r]) hperm hnodup
      · rw [if_neg hrank] at haccepted ⊢
        rw [if_neg hrank, haccepted _ List.mem_cons_self]
        have hstep : (stored (patch d (K.key r) (place i))).Perm
            ((pre ++ [K.setRank (place i) r]) ++ rest) := by
          rw [hpatch, List.append_assoc, List.singleton_append, ← write_append hnodup]
          exact hperm.map _
        have hkeys : (((pre ++ [K.setRank (place i) r]) ++ rest).map K.key).Nodup := by
          simpa [K.key_setRank] using hnodup
        simpa using ih (fun p hp => haccepted p (List.mem_cons_of_mem _ hp))
          (pre ++ [K.setRank (place i) r]) hstep hkeys

omit [DecidableEq Key] in
/-- A loop that ends without an error has answered about what is stored in the end, or has
not changed it. -/
theorem latest_of_renumber (hlatest : ∀ answer, latest = some answer → answer = respond d)
    (hnone : (K.renumber patch respond refusal i rows d latest).1 = none) :
    (∀ answer, (K.renumber patch respond refusal i rows d latest).2.2 = some answer →
        answer = respond (K.renumber patch respond refusal i rows d latest).2.1) ∧
      ((K.renumber patch respond refusal i rows d latest).2.2 = none →
        latest = none ∧ (K.renumber patch respond refusal i rows d latest).2.1 = d) := by
  induction rows generalizing i d latest with
  | nil => exact ⟨hlatest, fun h => ⟨h, rfl⟩⟩
  | cons r rest ih =>
      rw [renumber] at hnone ⊢
      by_cases hrank : K.rank r = place i
      · rw [if_pos hrank] at hnone ⊢
        exact ih hlatest hnone
      · rw [if_neg hrank] at hnone ⊢
        cases hrefusal : refusal r with
        | some error => simp [hrefusal] at hnone
        | none =>
            rw [hrefusal] at hnone
            obtain ⟨hanswer, hlast⟩ := ih (fun answer h => (Option.some.inj h).symm) hnone
            refine ⟨hanswer, ?_⟩
            intro h
            cases (hlast h).1

/-- A stored row whose key is none of the rows' stays as it is. -/
theorem mem_renumber (hpatch : ∀ d k n, stored (patch d k n) = K.write k n (stored d)) {r : Row}
    (hr : r ∈ stored d) (hkey : K.key r ∉ rows.map K.key) :
    r ∈ stored (K.renumber patch respond refusal i rows d latest).2.1 := by
  induction rows generalizing i d latest with
  | nil => exact hr
  | cons r' rest ih =>
      rw [List.map_cons, List.mem_cons, not_or] at hkey
      rw [renumber]
      split_ifs with hrank
      · exact ih hr hkey.2
      · cases hrefusal : refusal r' with
        | some error => exact hr
        | none =>
            apply ih _ hkey.2
            rw [hpatch]
            exact mem_write hr hkey.1

omit [DecidableEq Key] in
/-- What a request leaves alone, the loop leaves alone. -/
theorem renumber_invariant {α : Type} (f : Db → α) (hf : ∀ d k n, f (patch d k n) = f d) :
    f (K.renumber patch respond refusal i rows d latest).2.1 = f d := by
  induction rows generalizing i d latest with
  | nil => rfl
  | cons r rest ih =>
      rw [renumber]
      split_ifs with hrank
      · exact ih
      · cases hrefusal : refusal r with
        | some error => rfl
        | none => exact ih.trans (hf d _ _)

/-- A loop whose first request is accepted has changed what is stored. -/
theorem renumber_of_accepted_first
    (hpatch : ∀ d k n, stored (patch d k n) = K.write k n (stored d))
    (hkeys : ((stored d).map K.key).Nodup) (hnodup : (rows.map K.key).Nodup)
    (hstored : ∀ r ∈ rows, r ∈ stored d) {r : Row} {n : Int} {more : List (Row × Int)}
    (hpending : K.pending i rows = (r, n) :: more) (haccepted : refusal r = none) :
    ∃ r' ∈ stored (K.renumber patch respond refusal i rows d latest).2.1, r' ∉ stored d := by
  induction rows generalizing i with
  | nil => cases hpending
  | cons r₁ rest ih =>
      rw [List.map_cons, List.nodup_cons] at hnodup
      rw [pending] at hpending
      rw [renumber]
      by_cases hrank : K.rank r₁ = place i
      · rw [if_pos hrank] at hpending ⊢
        exact ih hnodup.2 (fun r hr => hstored r (List.mem_cons_of_mem _ hr)) hpending
      · rw [if_neg hrank] at hpending ⊢
        obtain ⟨hr, -⟩ := List.cons.inj hpending
        obtain ⟨rfl, rfl⟩ := Prod.mk.inj hr
        have hmem := hstored r₁ List.mem_cons_self
        rw [haccepted]
        refine ⟨K.setRank (place i) r₁, ?_, ?_⟩
        · apply mem_renumber hpatch
          · rw [hpatch]
            exact List.mem_map.mpr ⟨r₁, hmem, if_pos rfl⟩
          · rw [K.key_setRank]
            exact hnodup.1
        · intro hold
          have hsame := List.inj_on_of_nodup_map hkeys hold hmem (K.key_setRank _ _)
          apply hrank
          rw [← hsame, K.rank_setRank]

omit [DecidableEq Key] in
/-- A request is refused in the loop exactly when one of the pending ones is. -/
theorem renumber_eq_none_iff :
    (K.renumber patch respond refusal i rows d latest).1 = none ↔
      ∀ p ∈ K.pending i rows, refusal p.1 = none := by
  induction rows generalizing i d latest with
  | nil => simp [renumber, pending]
  | cons r rest ih =>
      rw [renumber, pending]
      split_ifs with hrank
      · exact ih
      · cases hrefusal : refusal r with
        | some error => simp [hrefusal]
        | none =>
            simp only [List.forall_mem_cons, hrefusal, true_and]
            exact ih

/-! ## One new order -/

variable {fetch : List Row → List Row} {view newOrder : List Row}

variable (K) in
/-- Rows are fetched in the order of their ranks. -/
structure Fetches (fetch : List Row → List Row) : Prop where
  perm : ∀ rows, (fetch rows).Perm rows
  sorted : ∀ rows, (fetch rows).Pairwise fun r r' => K.rank r ≤ K.rank r'

variable (K) in
/-- What a loop over a new order is to come to: without an error the new order is stored,
and with one the view still shows what is stored. -/
def Achieves (fetch : List Row → List Row) (stored : Db → List Row) (view newOrder : List Row)
    (result : Option E × Db × Option Response) : Prop :=
  match result.1 with
  | none => K.InOrder (stored result.2.1) (newOrder.map K.key)
  | some _ => view = fetch (stored result.2.1)

variable (K) in
/-- No request is accepted before one is refused. -/
def AllOrNone (refusal : Row → Option E) (newOrder : List Row) : Prop :=
  (∀ p ∈ K.pending 0 newOrder, refusal p.1 = none) ∨
    ∃ p, (K.pending 0 newOrder).head? = some p ∧ (refusal p.1).isSome

/-- Over a view of what is stored, the loop comes to what it is to come to exactly when no
request is accepted before one is refused. -/
theorem achieves_iff (hfetch : K.Fetches fetch)
    (hpatch : ∀ d k n, stored (patch d k n) = K.write k n (stored d))
    (hkeys : ((stored d).map K.key).Nodup) (hview : view = fetch (stored d))
    (hperm : newOrder.Perm view) :
    K.Achieves fetch stored view newOrder
        (K.renumber patch respond refusal 0 newOrder d none) ↔ K.AllOrNone refusal newOrder := by
  have hstored : newOrder.Perm (stored d) := hperm.trans (hview ▸ hfetch.perm _)
  have hnodup : (newOrder.map K.key).Nodup := (hstored.map _).nodup_iff.mpr hkeys
  unfold Achieves
  by_cases haccepted : ∀ p ∈ K.pending 0 newOrder, refusal p.1 = none
  · have hnone : (K.renumber patch respond refusal 0 newOrder d none).1 = none :=
      renumber_eq_none_iff.mpr haccepted
    rw [hnone]
    apply iff_of_true
    · exact inOrder_renumbered (renumber_of_accepted hpatch haccepted [] hstored.symm hnodup)
    · exact Or.inl haccepted
  · cases hpending : K.pending 0 newOrder with
    | nil =>
        rw [hpending] at haccepted
        exact absurd (by simp) haccepted
    | cons p more =>
        obtain ⟨r, n⟩ := p
        cases hrefusal : refusal r with
        | some error =>
            rw [renumber_of_refused hpending hrefusal]
            refine iff_of_true hview (Or.inr ⟨(r, n), ?_, ?_⟩)
            · rw [hpending]
              rfl
            · rw [hrefusal]
              rfl
        | none =>
            cases herror : (K.renumber patch respond refusal 0 newOrder d none).1 with
            | none => exact absurd (renumber_eq_none_iff.mp herror) haccepted
            | some error =>
                have hchanged : ∃ r' ∈ stored
                    (K.renumber patch respond refusal 0 newOrder d none).2.1, r' ∉ stored d :=
                  renumber_of_accepted_first hpatch hkeys hnodup
                    (fun r hr => hstored.mem_iff.mp hr) hpending hrefusal
                obtain ⟨r', hnew, hold⟩ := hchanged
                apply iff_of_false
                · intro hsame
                  apply hold
                  rw [← (hfetch.perm _).mem_iff, ← hview, hsame, (hfetch.perm _).mem_iff]
                  exact hnew
                · rintro (hall | ⟨p, hp, hsome⟩)
                  · exact haccepted hall
                  · rw [hpending] at hp
                    obtain rfl := Option.some.inj hp
                    rw [hrefusal] at hsome
                    cases hsome

omit [DecidableEq Key] in
/-- A loop in which no request is accepted before one is refused has answered about what is
stored in the end, or has changed nothing. -/
theorem answered_or_same (h : K.AllOrNone refusal newOrder) :
    (∃ d', K.renumber patch respond refusal 0 newOrder d none = (none, d', some (respond d'))) ∨
      ∃ error, K.renumber patch respond refusal 0 newOrder d none = (error, d, none) := by
  rcases h with haccepted | ⟨⟨r, n⟩, hhead, hrefused⟩
  · have hnone : (K.renumber patch respond refusal 0 newOrder d none).1 = none :=
      renumber_eq_none_iff.mpr haccepted
    obtain ⟨hanswer, hsame⟩ := latest_of_renumber (by simp) hnone
    rcases hrun : K.renumber patch respond refusal 0 newOrder d none with ⟨error, d', latest⟩
    rw [hrun] at hnone hanswer hsame
    obtain rfl : error = none := hnone
    cases latest with
    | none =>
        obtain rfl : d' = d := (hsame rfl).2
        exact Or.inr ⟨none, rfl⟩
    | some answer =>
        obtain rfl : answer = respond d' := hanswer answer rfl
        exact Or.inl ⟨d', rfl⟩
  · obtain ⟨more, hpending⟩ : ∃ more, K.pending 0 newOrder = (r, n) :: more := by
      cases hpending : K.pending 0 newOrder with
      | nil =>
          rw [hpending] at hhead
          cases hhead
      | cons p more =>
          rw [hpending] at hhead
          obtain rfl := Option.some.inj hhead
          exact ⟨more, rfl⟩
    obtain ⟨error, herror⟩ := Option.isSome_iff_exists.mp hrefused
    exact Or.inr ⟨some error, renumber_of_refused hpending herror⟩

end Loop

end Write

end Ranking

end Renumbering
