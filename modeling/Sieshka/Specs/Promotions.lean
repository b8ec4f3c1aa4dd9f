import Sieshka.Tools.PromotionAgentTools
import Sieshka.Transactions.Runs

/-!
# What the promotion tools do

A writer that returns holds the rows and the index entry it is about to write. The
name of a new promotion is no row and no entry: nothing holds it.
-/

namespace Sieshka

open Transactions Contract PromotionAgentTools

abbrev PromoConfig := Config Json PromoDatabase PromoWrite PromoLock Unit PyError PromotionOutput

abbrev PromoContract :=
  Contract Json PromoDatabase PromoWrite PromoLock Unit PyError PromotionOutput

/-- Where a call on promotions stands. -/
abbrev PromoAt := CallState PromoDatabase PromoWrite PromoLock Unit

variable (B : Backend)

/-- What a commit does to the promotions: nothing, a new row in `CREATED`, or an edge
of the graph. -/
inductive PromotionCommit (command : Json) (d : PromoDatabase) : PromoDatabase → Prop
  | nothing : PromotionCommit command d d
  | created {name discount effectType triggerCode d'} (id : Uuid)
      (hcommand : requiredApplyFields command =
        .ok (some (.create name discount effectType triggerCode)))
      (hnew : d.promotions.find id = none)
      (hd : d'.promotions =
        d.promotions.put (newPromotion id name discount effectType triggerCode)) :
      PromotionCommit command d d'
  | moved {event d'} (row : Promo) (fromState toState : PromotionState)
      (hfind : d.promotions.find row.id = some row)
      (hfrom : PromotionState.ofText row.state = some fromState)
      (hto : promotionTransitions fromState event = some toState)
      (hd : d'.promotions = d.promotions.put { row with state := toState.value }) :
      PromotionCommit command d d'

/-- Every call promises what its commits do, keeps the index, and expects nothing. -/
def promoContract : PromoContract where
  inv d _ := d.Indexed B.lower
  guar command _ s s' := PromotionCommit command s.1 s'.1
  rely _ _ _ := True

/-- Where the session commits now, it commits what the command says. -/
structure PromoReady (command : Json) (y : PromoAt) : Prop where
  live : y.txn.failed = false
  lands : y.Pins fun d => d.Indexed B.lower →
    PromotionCommit command d (y.txn.view d) ∧ (y.txn.view d).Indexed B.lower

section Specs

variable {B} {K : PromoContract} {command : Json} {x : PromoAt}

theorem PromoReady.of_writes {t : Txn PromoWrite PromoLock} {y : PromoAt} {old : Option Promo}
    {row : Promo} (hlive : y.txn.failed = false) (ht : t.writes = [])
    (hw : y.txn.writes = t.writes ++ (promoCodes B.lower).writes old row)
    (hpin : y.Pins fun d => (promoTable.table (t.view d)).find row.id = old ∧
      (promoCodes B.lower).clash (t.view d) row = false)
    (hcommit : ∀ d d' : PromoDatabase, d.promotions.find row.id = old →
      d'.promotions = d.promotions.put row → PromotionCommit command d d') :
    PromoReady B command y := by
  constructor
  · exact hlive
  · refine ((promoCodes B.lower).lands ht hw hpin).mono ?_
    rintro d ⟨hfind, -, hput, hindexed⟩ hd
    exact ⟨hcommit d _ hfind hput, hindexed hd⟩

/-- The look at the code locks rows and writes nothing. -/
theorem wp_requireCodeFree {triggerCode : Option String} {Q : Except PyError Unit → PromoAt → Prop}
    (hx : x.txn.failed = false) (hw : x.txn.writes = [])
    (hok : ∀ y, y.txn.failed = false → y.txn.writes = [] → Q (.ok ()) y)
    (hno : ∀ y e, Q (.error e) y) : K.wp command (requireCodeFree B triggerCode) Q x := by
  cases triggerCode with
  | none => exact hok x hx hw
  | some code =>
      rw [requireCodeFree, wp_bind]
      refine wp_bindParam (fun _ => ?_) (hno _ _)
      dsimp only
      rw [wp_bind]
      apply promoTable.wp_filterForUpdate hx
      · intro y rows _ hlive hyw _
        dsimp only
        split_ifs
        · exact hok y hlive (hyw.trans hw)
        · exact hno _ _
      · intro y _
        exact hno _ _

/-- A promotion the session has pinned moves along an edge. -/
theorem wp_moveState {row : Promo} {event : PromotionEvent} {fromState toState : PromotionState}
    {Q : Except PyError (Option Promo) → PromoAt → Prop} (hx : x.txn.failed = false)
    (hw : x.txn.writes = []) (hpin : x.Pins fun d => d.promotions.find row.id = some row)
    (hfrom : promotionState B row.state = .ok fromState)
    (hto : promotionTransitions fromState event = some toState)
    (hok : ∀ y o, PromoReady B command y → Q (.ok o) y) (hno : ∀ y e, Q (.error e) y) :
    K.wp command ((promoCodes B.lower).rewrite .integrityError row.id fun p =>
      { p with state := toState.value }) Q x := by
  have hview : ∀ d : PromoDatabase, x.txn.view d = d := by
    intro d
    rw [Txn.view, hw]
    rfl
  have hread : PromotionState.ofText row.state = some fromState := by
    rw [promotionState] at hfrom
    split at hfrom
    · rename_i state h
      rw [h, Except.ok.inj hfrom]
    · cases hfrom
  apply (promoCodes B.lower).wp_rewrite PyError.integrityError hx
    (f := fun p => { p with state := toState.value }) (fun _ => rfl)
  · intro s hs _ hnone
    rw [hview] at hnone
    have hfind := hs.pinned hpin
    rw [show s.1.promotions.find row.id = none from hnone] at hfind
    cases hfind
  · intro y r hy hlive hyw hypin
    have hr : y.db.promotions.find row.id = some r := by
      have h := hypin.db.1
      rw [hview] at h
      exact h
    obtain rfl : row = r := Option.some.inj ((hy.pins hpin).db.symm.trans hr)
    apply hok
    apply PromoReady.of_writes hlive hw hyw hypin
    intro d d' hfind hd
    exact .moved row fromState toState hfind hread hto hd
  · intro y _
    exact hno _ _
  · intro y _
    exact hno _ _

section Writers

variable {Q : Except PyError PromotionOutput → PromoAt → Prop} (hx : x.txn = {})
  (hok : ∀ y out, PromoReady B command y → Q (.ok out) y) (hno : ∀ y e, Q (.error e) y)

include hx hok hno

theorem wp_createPromotion {name : String} {discount : Option PyFloat} {effectType : EffectType}
    {triggerCode : Option String} (hparsed : PromotionAgentTools.requiredApplyFields command =
      .ok (some (.create name discount effectType triggerCode))) :
    K.wp command (applyPromotionCommand B command) Q x := by
  rw [applyPromotionCommand, wp_bind, hparsed]
  refine wp_liftExcept ?_ fun _ _ => hno _ _
  intro parsed hsome
  obtain rfl := Except.ok.inj hsome
  dsimp only
  split
  · exact hno _ _
  · rw [wp_bind]
    refine wp_bindParam (fun _ => ?_) (hno _ _)
    dsimp only
    rw [wp_bind]
    apply promoTable.wp_filterForUpdate (by rw [hx])
    · intro y rows _ hlive hyw _
      dsimp only
      split_ifs
      · exact hno _ _
      · rw [wp_bind]
        refine wp_requireCodeFree hlive (by rw [hyw, hx]) ?_ hno
        intro z hzl hzw
        dsimp only
        rw [wp_bind]
        refine wp_bindParam (fun _ => ?_) (hno _ _)
        dsimp only
        rw [wp_bind]
        intro s _ _ n
        rw [wp_ret]
        dsimp only
        rw [wp_bind]
        apply (promoCodes B.lower).wp_insert
        · exact hzl
        · intro u _ hul huw hpin
          apply hok
          apply PromoReady.of_writes hul hzw huw hpin
          intro d d' hnew hd
          exact .created _ hparsed hnew hd
        · intro u _
          exact hno _ _
        · intro u _
          exact hno _ _
    · intro y _
      exact hno _ _

theorem wp_movePromotion {event : PromotionEvent} {target : String}
    (hparsed : PromotionAgentTools.requiredApplyFields command =
      .ok (some (.transition event target))) :
    K.wp command (applyPromotionCommand B command) Q x := by
  rw [applyPromotionCommand, wp_bind, hparsed]
  refine wp_liftExcept ?_ fun _ _ => hno _ _
  intro parsed hsome
  obtain rfl := Except.ok.inj hsome
  dsimp only
  rw [wp_bind]
  refine wp_bindParam (fun _ => ?_) (hno _ _)
  dsimp only
  rw [wp_bind]
  apply promoTable.wp_filterForUpdate (by rw [hx])
  · intro y rows _ hlive hyw hrows
    dsimp only
    split
    · rename_i row
      obtain ⟨-, hpin⟩ := hrows row List.mem_cons_self
      rw [wp_bind]
      refine wp_liftExcept ?_ fun _ _ => hno _ _
      intro fromState hfrom
      dsimp only
      split
      · exact hno _ _
      · rename_i toState hto
        have hfind : y.Pins fun d => d.promotions.find row.id = some row := by
          simpa [hx] using hpin
        rw [wp_bind]
        apply wp_moveState hlive (by rw [hyw, hx]) hfind hfrom hto
        · intro z _ hready
          exact hok z _ hready
        · exact hno
    · exact hno _ _
  · intro y _
    exact hno _ _

/-- A writer that returns is ready to commit its command. -/
theorem wp_applyPromotionCommand : K.wp command (applyPromotionCommand B command) Q x := by
  cases hparsed : PromotionAgentTools.requiredApplyFields command with
  | error e =>
      rw [applyPromotionCommand, wp_bind, hparsed]
      exact wp_liftExcept (fun _ h => by cases h) fun _ _ => hno _ _
  | ok parsed =>
      cases parsed with
      | none =>
          rw [applyPromotionCommand, wp_bind, hparsed]
          refine wp_liftExcept ?_ fun _ _ => hno _ _
          intro parsed hnone
          obtain rfl := Except.ok.inj hnone
          exact hno _ _
      | some parsed =>
          cases parsed with
          | create name discount effectType triggerCode => exact wp_createPromotion hx hok hno hparsed
          | transition event target => exact wp_movePromotion hx hok hno hparsed

end Writers

theorem valid_promotions : (promoContract B).Valid (promotionCalls B) where
  body command d m _ _ := by
    apply wp_withSession
    rw [wp_bind]
    apply wp_applyPromotionCommand rfl
    · intro y out hready
      have hlands : ∀ s, (promoContract B).Later command y s →
          PromotionCommit command s.1 (y.txn.view s.1) ∧ (y.txn.view s.1).Indexed B.lower := by
        intro s hs
        exact hs.pinned hready.lands hs.inv
      apply wp_commit_close hready.live
      · intro s hs _
        exact hlands s hs
      · intro s z _ _ _
        trivial
      · intro z _ s _ _
        trivial
    · intro y e s _ _
      trivial
  compat _ _ _ _ _ _ _ _ _ _ := trivial
  move v := nomatch v
  restart _ _ h := h
  post _ _ _ _ _ _ := trivial

end Specs

end Sieshka
