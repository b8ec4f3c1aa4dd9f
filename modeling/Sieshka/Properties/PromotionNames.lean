import Sieshka.Specs.Promotions

/-!
# Names of promotions

A new promotion takes its code under an index, but its name under a look at rows that
are not there yet. Its name is its own where no stored promotion carries it when the
creation commits.
-/

namespace Sieshka

open Transactions Contract PromotionAgentTools

/-- The promotion is in the state it was in, or one edge further. -/
def Promo.Moved (p p' : Promo) : Prop :=
  p'.state = p.state ∨ ∃ event fromState toState,
    PromotionState.ofText p.state = some fromState ∧
    PromotionState.ofText p'.state = some toState ∧
    promotionTransitions fromState event = some toState

theorem Promo.Moved.refl (p : Promo) : p.Moved p := Or.inl rfl

/-- The name a command gives to a new promotion. -/
def createdName (command : Json) : Option String :=
  match requiredApplyFields command with
  | .ok (some (.create name _ _ _)) => some name
  | _ => none

/-- Where the step commits a creation, no stored promotion carries its name. -/
def NameUntaken (B : Backend) (c : PromoConfig) : Action Json (promotionCalls B).Move → Prop
  | .run i _ => ∀ t ∈ c.threads[i]?, t.committing = true → ∀ name ∈ createdName t.call,
      ∀ p ∈ c.db.promotions.rows, B.lower p.name ≠ B.lower name
  | _ => True

instance (B : Backend) (c : PromoConfig) (a : Action Json (promotionCalls B).Move) :
    Decidable (NameUntaken B c a) := by
  cases a <;> unfold NameUntaken <;> infer_instance

/-- A table without promotions. -/
def emptyPromotions : PromoDatabase := { promotions := Table.empty, codes := Table.empty }

theorem emptyPromotions_indexed (lower : String → String) : emptyPromotions.Indexed lower := by
  intro i k
  constructor
  · intro h
    cases h
  · rintro ⟨r, hr, -⟩
    cases hr

section Runs

variable {B : Backend} {d : PromoDatabase} {c c' : PromoConfig}

/-- `c'` is reached from `c` by any number of steps of any kind. -/
abbrev PromoReaches (B : Backend) (c c' : PromoConfig) : Prop :=
  (promotionCalls B).Runs (fun _ _ => True) c c'

theorem allows_promotions (c : PromoConfig) (a : Action Json (promotionCalls B).Move) :
    (promoContract B).Allows (S := promotionCalls B) c a := by
  cases a with
  | call k => exact ⟨trivial, fun _ _ _ => ⟨trivial, trivial⟩⟩
  | run i n => exact fun _ _ => ⟨trivial, fun _ => trivial⟩
  | fault i => exact fun _ _ => ⟨trivial, trivial⟩
  | kill i => exact trivial
  | restart => exact trivial
  | world v => exact trivial

theorem PromoReaches.ok (hd : d.Indexed B.lower) (h : PromoReaches B (Config.start d ()) c) :
    (promoContract B).Ok c :=
  (Ok.start hd).runs valid_promotions (fun c a _ _ => allows_promotions c a) h

/-- A commit moves every promotion along an edge or not at all. -/
theorem PromotionCommit.moved_of {command : Json} {d d' : PromoDatabase}
    (h : PromotionCommit command d d') : d.promotions.Grows Promo.Moved d'.promotions := by
  cases h with
  | nothing => exact .refl Promo.Moved.refl _
  | created id _ hnew hd =>
      rw [hd]
      exact .put_absent Promo.Moved.refl hnew
  | moved row fromState toState hfind hfrom hto hd =>
      rw [hd]
      apply Table.Grows.put Promo.Moved.refl
      intro old hold
      obtain rfl : row = old := Option.some.inj (hfind.symm.trans hold)
      exact Or.inr ⟨_, fromState, toState, hfrom, by simp, hto⟩

/-- A commit that takes no name of another promotion. -/
theorem PromotionCommit.distinct {command : Json} {d d' : PromoDatabase}
    (h : PromotionCommit command d d')
    (hname : ∀ name ∈ createdName command, ∀ p ∈ d.promotions.rows, B.lower p.name ≠ B.lower name)
    (hd : d.promotions.Distinct fun p => B.lower p.name) :
    d'.promotions.Distinct fun p => B.lower p.name := by
  cases h with
  | nothing => exact hd
  | @created name _ _ _ _ id hcommand _ hput =>
      rw [hput]
      apply hd.put
      intro q hq heq
      exact absurd heq (hname name (by simp [createdName, hcommand]) q hq)
  | moved row _ _ hfind _ _ hput =>
      rw [hput]
      apply hd.put
      intro q hq heq
      exact hd q hq row (Table.find_some hfind).1 heq

/-- A step commits what the command of its call says, or nothing. -/
theorem promotions_of_step {a : Action Json (promotionCalls B).Move} (hc : (promoContract B).Ok c)
    (hs : (promotionCalls B).step c a = some c') : c'.db = c.db ∨
      ∃ i n t, a = .run i n ∧ c.threads[i]? = some t ∧ t.committing = true ∧
        PromotionCommit t.call c.db c'.db :=
  hc.db_of_step (fun _ _ => trivial) hs

theorem promotions_moved_of_step {a : Action Json (promotionCalls B).Move}
    (hc : (promoContract B).Ok c) (hs : (promotionCalls B).step c a = some c') :
    c.db.promotions.Grows Promo.Moved c'.db.promotions := by
  rcases promotions_of_step hc hs with hd | ⟨i, n, t, -, -, -, hcommit⟩
  · rw [hd]
    exact .refl Promo.Moved.refl _
  · exact hcommit.moved_of

/-- In every run from the empty table none of whose commits creates a promotion under a
name that is stored by then, at most one promotion carries a name and at most one a
trigger code, each promotion is the one its name finds, and every step moves every
promotion along an edge of `PROMOTION_TRANSITIONS` from the state stored just before,
or not at all. -/
theorem promotions_stay_addressable (B : Backend) {c : PromoConfig}
    (h : (promotionCalls B).Runs (NameUntaken B) (Config.start emptyPromotions ()) c) :
    (∀ p ∈ c.db.promotions.rows, ∀ q ∈ c.db.promotions.rows,
      B.lower p.name = B.lower q.name → p.id = q.id) ∧
    (∀ p ∈ c.db.promotions.rows, ∀ q ∈ c.db.promotions.rows, ∀ code,
      p.triggerCode.map B.lower = some code → q.triggerCode.map B.lower = some code →
      p.id = q.id) ∧
    (∀ p ∈ c.db.promotions.rows, c.db.named B.lower p.name = [p]) ∧
    ∀ a c', (promotionCalls B).step c a = some c' →
      c.db.promotions.Grows Promo.Moved c'.db.promotions := by
  have hok : ∀ b, (promotionCalls B).Runs (NameUntaken B) (Config.start emptyPromotions ()) b →
      (promoContract B).Ok b := by
    intro b hb
    exact PromoReaches.ok (emptyPromotions_indexed B.lower) (hb.mono _ fun _ _ _ => trivial)
  have hnames : c.db.promotions.Distinct fun p => B.lower p.name := by
    induction h with
    | refl =>
        intro p hp
        cases hp
    | @step b c a hb ha hs ih =>
        rcases promotions_of_step (hok b hb) hs with hsame | ⟨i, n, t, rfl, ht, hcom, hcommit⟩
        · rw [hsame]
          exact ih
        · exact hcommit.distinct (ha t ht hcom) ih
  have hc := hok c h
  constructor
  · exact hnames
  · constructor
    · intro p hp q hq code hpc hqc
      exact UniqueIndex.Faithful.eq_of_value hc.inv hp hq hpc hqc
    · constructor
      · intro p hp
        exact hnames.filter_eq hp
      · intro a c' hs
        exact promotions_moved_of_step hc hs

end Runs

/-! ## Samples -/

/-- The command that creates a promotion without a code. -/
def createPromotion (name : String) : Json :=
  .obj [("action", .str "create"), ("name", .str name), ("discount", .int 10)]

/-- The names and the states of the promotions. -/
def promotionRows (c : PromoConfig) : List (String × String) :=
  c.db.promotions.rows.map fun p => (p.name, p.state)

/-- Two calls that create a promotion under one name, at the same time, both do. -/
theorem promotions_share_name :
    ¬ ∀ c, PromoReaches asciiBackend (Config.start emptyPromotions ()) c →
      ∀ p ∈ c.db.promotions.rows, ∀ q ∈ c.db.promotions.rows,
        asciiBackend.lower p.name = asciiBackend.lower q.name → p.id = q.id := by
  intro hall
  obtain ⟨c, hr, hc⟩ := System.Runs.exists_of_exec (promotionCalls asciiBackend) (fun _ _ => True)
    (Config.start emptyPromotions ())
    [.call (createPromotion "Spring"), .call (createPromotion "Spring"), .run 0 0, .run 0 0,
      .run 1 0, .run 1 0, .run 0 1, .run 0 0, .run 0 0, .run 1 2, .run 1 0, .run 1 0]
    (f := fun c => c.db.promotions.rows.map fun p => (p.id, p.name))
    (b := [(1, "Spring"), (2, "Spring")]) (fun _ _ _ => trivial) (by decide +kernel)
  obtain ⟨p, rest, hrows, hp, hrest⟩ := List.map_eq_cons_iff.mp hc
  obtain ⟨q, rest, rfl, hq, -⟩ := List.map_eq_cons_iff.mp hrest
  obtain ⟨hpid, hpname⟩ := Prod.mk.inj hp
  obtain ⟨hqid, hqname⟩ := Prod.mk.inj hq
  have hid := hall c hr p (by simp [hrows]) q (by simp [hrows]) (by rw [hpname, hqname])
  rw [hpid, hqid] at hid
  exact absurd hid (by decide)

/-- A promotion is created and activated while nobody else is about. -/
theorem promotions_stay_addressable_activated :
    ∃ c, (promotionCalls asciiBackend).Runs (NameUntaken asciiBackend)
        (Config.start emptyPromotions ()) c ∧
      promotionRows c = [("Spring", "ACTIVE")] ∧
      (∀ p ∈ c.db.promotions.rows, c.db.named asciiBackend.lower p.name = [p]) := by
  obtain ⟨c, hr, hc⟩ := System.Runs.exists_of_execIf (promotionCalls asciiBackend)
    (NameUntaken asciiBackend) (Config.start emptyPromotions ())
    [.call (createPromotion "Spring"), .run 0 0, .run 0 0, .run 0 1, .run 0 0, .run 0 0,
      .call (.obj [("action", .str "activate"), ("target_promotion_name", .str "spring")]),
      .run 1 0, .run 1 0, .run 1 0, .run 1 0]
    (f := promotionRows) (v := [("Spring", "ACTIVE")]) (by decide +kernel)
  exact ⟨c, hr, hc, (promotions_stay_addressable asciiBackend hr).2.2.1⟩

end Sieshka
