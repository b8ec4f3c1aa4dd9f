import Mathlib.Data.List.Induction

/-!
# Upserts by name

A batch of rows is written to a list of records, one row after another. Names are
compared by a key: a row whose key no record has is appended as a new record, a row whose
key one record has is written over it, and a row whose key several records have is left
out. Writing the same batch once more changes nothing.
-/

namespace Upserts

variable {R P N K A : Type}

/-- How rows are written to records: what is written replaces what was written before, and
the name of a record stays. -/
structure Writer (R P N K : Type) where
  name : P → N
  rowName : R → N
  fold : N → K
  merge : R → P → P
  name_merge : ∀ r p, name (merge r p) = name p
  merge_merge : ∀ r r' p, merge r (merge r' p) = merge r p

namespace Writer

variable (W : Writer R P N K)

/-- The key of a record. -/
def key (p : P) : K := W.fold (W.name p)

/-- The key of a row. -/
def rowKey (r : R) : K := W.fold (W.rowName r)

variable [DecidableEq K]

/-- The records with a key. -/
def matching (k : K) (ps : List P) : List P := ps.filter fun p => W.key p = k

/-- The row written over a record that has its key. -/
def write (r : R) (p : P) : P := if W.key p = W.rowKey r then W.merge r p else p

/-- A row is written. -/
inductive Step : List P → R → List P → Prop
  | insert {ps r p} (hfree : W.matching (W.rowKey r) ps = []) (hname : W.name p = W.rowName r)
      (hover : W.merge r p = p) : Step ps r (ps ++ [p])
  | update {ps r p} (hone : W.matching (W.rowKey r) ps = [p]) : Step ps r (ps.map (W.write r))
  | skip {ps r} (hmany : 1 < (W.matching (W.rowKey r) ps).length) : Step ps r ps

/-- The rows of a batch are written one after another. -/
inductive Run (ps : List P) : List R → List P → Prop
  | nil : Run ps [] ps
  | snoc {rs qs r qs'} (h : Run ps rs qs) (hstep : W.Step qs r qs') : Run ps (rs ++ [r]) qs'

/-- What the rows of a batch make of a record that is the only one with its key. -/
def overlay (rs : List R) (p : P) : P := rs.foldl (fun p r => W.write r p) p

variable {W} {r : R} {rs : List R} {p : P} {ps qs qs' : List P} {k : K}

/-! ## One record -/

theorem mem_matching : p ∈ W.matching k ps ↔ p ∈ ps ∧ W.key p = k := by
  simp [matching]

@[simp] theorem name_write (r : R) (p : P) : W.name (W.write r p) = W.name p := by
  unfold write
  split_ifs
  · exact W.name_merge r p
  · rfl

@[simp] theorem key_write (r : R) (p : P) : W.key (W.write r p) = W.key p :=
  congrArg W.fold (W.name_write r p)

theorem write_of_ne (h : W.key p ≠ W.rowKey r) : W.write r p = p := if_neg h

theorem write_of_eq (h : W.key p = W.rowKey r) : W.write r p = W.merge r p := if_pos h

/-- A row keeps what no row replaces. -/
theorem map_write {attr : P → A} (hattr : ∀ r p, attr (W.merge r p) = attr p) :
    (ps.map (W.write r)).map attr = ps.map attr := by
  rw [List.map_map]
  refine List.map_congr_left fun p _ => ?_
  unfold Function.comp write
  split_ifs
  · exact hattr r p
  · rfl

theorem overlay_append (rs : List R) (r : R) (p : P) :
    W.overlay (rs ++ [r]) p = W.write r (W.overlay rs p) := by
  simp [overlay, List.foldl_append]

@[simp] theorem key_overlay (rs : List R) (p : P) : W.key (W.overlay rs p) = W.key p := by
  induction rs using List.reverseRecOn with
  | nil => rfl
  | append_singleton rs r ih => rw [overlay_append, key_write, ih]

/-- A row replaces whatever was written before it. -/
theorem merge_overlay (r : R) (rs : List R) (p : P) :
    W.merge r (W.overlay rs p) = W.merge r p := by
  induction rs using List.reverseRecOn with
  | nil => rfl
  | append_singleton rs r' ih =>
      rw [overlay_append, write]
      split_ifs
      · rw [W.merge_merge, ih]
      · exact ih

/-! ## One row -/

theorem matching_map_write (r : R) (ps : List P) :
    W.matching k (ps.map (W.write r)) = (W.matching k ps).map (W.write r) := by
  simp [matching, List.filter_map, Function.comp_def]

theorem matching_map_write_of_ne (h : k ≠ W.rowKey r) :
    W.matching k (ps.map (W.write r)) = W.matching k ps := by
  rw [matching_map_write]
  refine (List.map_congr_left fun p hp => ?_).trans (List.map_id _)
  exact write_of_ne fun hp' => h ((mem_matching.mp hp).2.symm.trans hp')

theorem matching_append_singleton (hp : W.key p = W.rowKey r) :
    W.matching k (ps ++ [p]) = W.matching k ps ++ if k = W.rowKey r then [p] else [] := by
  by_cases hk : k = W.rowKey r
  · subst hk
    simp [matching, hp]
  · have hne : W.key p ≠ k := fun he => hk (he.symm.trans hp)
    simp [matching, hk, hne]

/-- A row changes nothing about the records with other keys. -/
theorem Step.matching_of_ne (h : W.Step ps r qs) (hk : k ≠ W.rowKey r) :
    W.matching k qs = W.matching k ps := by
  cases h with
  | insert _ hname _ =>
      rw [matching_append_singleton (congrArg W.fold hname), if_neg hk, List.append_nil]
  | update _ => exact matching_map_write_of_ne hk
  | skip _ => rfl

/-- A row whose key is new adds a record. -/
theorem Step.length_of_free (h : W.Step ps r qs) (hfree : W.matching (W.rowKey r) ps = []) :
    (W.matching (W.rowKey r) qs).length = 1 := by
  cases h with
  | insert _ hname _ =>
      rw [matching_append_singleton (congrArg W.fold hname), hfree]
      simp
  | update hone => simp [hfree] at hone
  | skip hmany => simp [hfree] at hmany

/-- A row whose key is not new changes what it has written over at most. -/
theorem Step.map_matching (attr : P → A) (hattr : ∀ r p, attr (W.merge r p) = attr p)
    (h : W.Step ps r qs) (hne : W.matching k ps ≠ []) :
    (W.matching k qs).map attr = (W.matching k ps).map attr := by
  by_cases hk : k = W.rowKey r
  · subst hk
    cases h with
    | insert hfree _ _ => exact absurd hfree hne
    | update _ => rw [matching_map_write, map_write hattr]
    | skip _ => rfl
  · rw [h.matching_of_ne hk]

theorem Step.length_matching (h : W.Step ps r qs) (hne : W.matching k ps ≠ []) :
    (W.matching k qs).length = (W.matching k ps).length := by
  simpa using congrArg List.length (h.map_matching W.name W.name_merge hne)

/-! ## A batch -/

theorem Run.map_matching (attr : P → A) (hattr : ∀ r p, attr (W.merge r p) = attr p)
    (h : W.Run ps rs qs) (hne : W.matching k ps ≠ []) :
    (W.matching k qs).map attr = (W.matching k ps).map attr := by
  induction h with
  | nil => rfl
  | snoc h hstep ih =>
      rw [← ih]
      refine hstep.map_matching attr hattr fun hnil => hne ?_
      simpa [hnil] using ih.symm

/-- A key is new after a batch when it was before, and no row of the batch has it. -/
theorem Run.matching_eq_nil (h : W.Run ps rs qs) :
    W.matching k qs = [] ↔ W.matching k ps = [] ∧ ∀ r ∈ rs, W.rowKey r ≠ k := by
  induction h with
  | nil => simp
  | @snoc rs qs r qs' h hstep ih =>
      rw [List.forall_mem_append, List.forall_mem_singleton, ← and_assoc, ← ih]
      by_cases hk : k = W.rowKey r
      · subst hk
        simp only [ne_eq, not_true_eq_false, and_false, iff_false]
        intro hnil
        by_cases hfree : W.matching (W.rowKey r) qs = []
        · simpa [hnil] using hstep.length_of_free hfree
        · have hlen := hstep.length_matching hfree
          rw [hnil, List.length_nil] at hlen
          exact hfree (List.length_eq_zero_iff.mp hlen.symm)
      · rw [hstep.matching_of_ne hk]
        simp [Ne.symm hk]

/-- As many records have a key, but for a new one. -/
theorem Run.length_matching (h : W.Run ps rs qs) (hne : W.matching k ps ≠ []) :
    (W.matching k qs).length = (W.matching k ps).length := by
  simpa using congrArg List.length (h.map_matching W.name W.name_merge hne)

/-- No key gets several records. -/
theorem Run.many_iff (h : W.Run ps rs qs) :
    1 < (W.matching k qs).length ↔ 1 < (W.matching k ps).length := by
  induction h with
  | nil => exact Iff.rfl
  | @snoc rs qs r qs' h hstep ih =>
      rw [← ih]
      by_cases hfree : W.matching k qs = []
      · by_cases hk : k = W.rowKey r
        · subst hk
          rw [hstep.length_of_free hfree, hfree]
          simp
        · rw [hstep.matching_of_ne hk]
      · rw [hstep.length_matching hfree]

/-- The records keep their names, and the new ones have names of rows whose keys were
new. -/
theorem Run.names (h : W.Run ps rs qs) :
    ∃ firsts : List R, firsts.Sublist rs ∧
      (∀ r ∈ firsts, W.matching (W.rowKey r) ps = []) ∧
      qs.map W.name = ps.map W.name ++ firsts.map W.rowName := by
  induction h with
  | nil => exact ⟨[], List.Sublist.refl _, by simp, by simp⟩
  | @snoc rs qs r qs' h hstep ih =>
      obtain ⟨firsts, hsub, hnew, hnames⟩ := ih
      have hkeep (hsame : qs'.map W.name = qs.map W.name) :
          ∃ firsts : List R, firsts.Sublist (rs ++ [r]) ∧
            (∀ r ∈ firsts, W.matching (W.rowKey r) ps = []) ∧
            qs'.map W.name = ps.map W.name ++ firsts.map W.rowName :=
        ⟨firsts, hsub.trans (List.sublist_append_left rs [r]), hnew, hsame.trans hnames⟩
      cases hstep with
      | insert hfree hname _ =>
          refine ⟨firsts ++ [r], hsub.append (List.Sublist.refl _), ?_, ?_⟩
          · rw [List.forall_mem_append, List.forall_mem_singleton]
            exact ⟨hnew, (h.matching_eq_nil.mp hfree).1⟩
          · simp [hnames, hname]
      | update _ => exact hkeep (by simp [Function.comp_def])
      | skip _ => exact hkeep rfl

/-! ## A batch that is written again -/

/-- A batch whose keys are all there only writes over the records. -/
theorem Run.eq_overlay (h : W.Run ps rs qs) (hall : ∀ r ∈ rs, W.matching (W.rowKey r) ps ≠ []) :
    qs = ps.map fun p =>
      if (W.matching (W.key p) ps).length = 1 then W.overlay rs p else p := by
  induction h with
  | nil => simp [overlay]
  | @snoc rs qs r qs' h hstep ih =>
      rw [List.forall_mem_append, List.forall_mem_singleton] at hall
      have hqs := ih hall.1
      have hlen := h.length_matching hall.2
      cases hstep with
      | insert hfree _ _ =>
          have hpos := List.length_pos_iff.mpr hall.2
          rw [← hlen, hfree] at hpos
          simp at hpos
      | update hone =>
          rw [hqs, List.map_map]
          refine List.map_congr_left fun p hp => ?_
          rw [Function.comp_apply]
          split_ifs with hsingle
          · rw [overlay_append]
          · refine write_of_ne fun heq => hsingle ?_
            rw [heq, ← hlen, hone]
            rfl
      | skip hmany =>
          rw [hqs]
          refine List.map_congr_left fun p hp => ?_
          split_ifs with hsingle
          · rw [overlay_append, write_of_ne]
            rw [key_overlay]
            intro heq
            rw [heq, ← hlen] at hsingle
            omega
          · rfl

/-- After a batch, a record that is the only one with its key is what the batch makes of
it. -/
theorem Run.overlay_eq (h : W.Run ps rs qs) :
    ∀ q ∈ qs, (W.matching (W.key q) qs).length = 1 → W.overlay rs q = q := by
  induction h with
  | nil => exact fun _ _ _ => rfl
  | @snoc rs qs r qs' h hstep ih =>
      intro q hq hsingle
      rw [overlay_append]
      by_cases hk : W.key q = W.rowKey r
      · rw [write_of_eq (by rw [key_overlay, hk]), merge_overlay]
        cases hstep with
        | insert hfree _ hover =>
            rcases List.mem_append.mp hq with hold | hnew
            · exact absurd (mem_matching.mpr ⟨hold, hk⟩) (by simp [hfree])
            · obtain rfl := List.mem_singleton.mp hnew
              exact hover
        | update _ =>
            obtain ⟨p, -, rfl⟩ := List.mem_map.mp hq
            rw [key_write] at hk
            rw [write_of_eq hk, W.merge_merge]
        | skip hmany =>
            rw [hk] at hsingle
            omega
      · have hmem : q ∈ qs := by
          have hsame := hstep.matching_of_ne hk
          exact (mem_matching.mp (hsame ▸ mem_matching.mpr ⟨hq, rfl⟩)).1
        rw [hstep.matching_of_ne hk] at hsingle
        rw [ih q hmem hsingle, write_of_ne hk]

/-- Writing a batch again changes nothing. -/
theorem Run.again (h : W.Run ps rs qs) (h' : W.Run qs rs qs') : qs' = qs := by
  have hall : ∀ r ∈ rs, W.matching (W.rowKey r) qs ≠ [] :=
    fun r hr hnil => (h.matching_eq_nil.mp hnil).2 r hr rfl
  refine (h'.eq_overlay hall).trans ((List.map_congr_left fun q hq => ?_).trans (List.map_id _))
  split_ifs with hsingle
  · exact h.overlay_eq q hq hsingle
  · rfl

end Writer

end Upserts
