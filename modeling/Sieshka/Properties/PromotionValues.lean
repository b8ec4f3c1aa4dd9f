import Sieshka.Properties.CheckoutMoney
import Sieshka.Properties.PromotionNames
import Sieshka.Specs.Validators

/-!
# The discounts of stored promotions

The writer compares a discount as a `float`, the column rounds it to cents, and a
checkout reads it back as an integer. A `NaN` passes every comparison, and a fixed
amount of less than half a cent is stored as zero.
-/

namespace Sieshka

open Transactions Prog PromotionAgentTools

/-! ## Usable rows -/

/-- The row as a checkout reads it when the promotion is active. -/
def Promo.active (p : Promo) : Promotion where
  id := p.id
  discount := p.discount
  effectType := p.effectType
  triggerCode := p.triggerCode
  state := "ACTIVE"

/-- The discount is in the range of its kind. -/
def Promo.InRange (p : Promo) : Prop :=
  match p.effectType with
  | .PERCENT_DISCOUNT => ∃ q, p.discount = some q ∧ 0 ≤ q ∧ q ≤ 100
  | .FIXED_AMOUNT => ∃ q, p.discount = some q ∧ 0 < q
  | .FREE_DELIVERY => True

/-- Wherever a code resolves to the promotion, `resolve_promo_effect` returns for the
goods total. -/
def Promo.Resolves (cfg : Settings) (goods : Int) (p : Promo) : Prop :=
  ∀ (E₀ : Engine Database Write) (s : Quiet Database Memory) promoCode, s.failed = false →
    storable (strip (promoCode.getD "")) = true →
    appliedPromotion cfg promoCode s.view = some p.active →
    ∃ effect, (resolvePromoEffect cfg promoCode goods).Returns E₀ s effect s

/-- Every row is in range and resolves, for all goods totals of a kind. -/
def PromoDatabase.Usable (cfg : Settings) (total : Int → Prop) (d : PromoDatabase) : Prop :=
  ∀ p ∈ d.promotions.rows, p.InRange ∧ ∀ goods, 0 ≤ goods → total goods → p.Resolves cfg goods

/-- A product of floats that stays finite is an integer again, and an integer beyond
the floats raises. -/
structure FloatPercents (cfg : Settings) : Prop where
  finite : ∀ (goods : Int) (q : ℚ), 0 ≤ goods → goods < 2 ^ 1000 → 0 ≤ q → q ≤ 100 →
    ∃ n, cfg.percentOf goods q = .ok n
  overflow : ∀ (goods : Int) (q : ℚ), 2 ^ 1024 ≤ goods → ∃ e, cfg.percentOf goods q = .error e

/-- The discount is a number, and a fixed amount does not round to zero. -/
def SoundAmount (effectType : EffectType) (discount : Option PyFloat) : Prop :=
  match effectType with
  | .PERCENT_DISCOUNT => discount ≠ some .nan
  | .FIXED_AMOUNT =>
      discount ≠ some .nan ∧ ∀ q, discount = some (.value q) → PyFloat.cents q ≠ 0
  | .FREE_DELIVERY => True

/-- A creation has a sound discount. -/
def SoundDiscount (command : Json) : Prop :=
  ∀ name discount effectType triggerCode, PromotionAgentTools.requiredApplyFields command =
    .ok (some (.create name discount effectType triggerCode)) → SoundAmount effectType discount

/-- The command creates a promotion in percent that has a code. -/
def CodedPercent (command : Json) : Prop :=
  ∃ name discount code, PromotionAgentTools.requiredApplyFields command =
    .ok (some (.create name discount .PERCENT_DISCOUNT (some code)))

section Values

variable {cfg : Settings} {p : Promo}

/-- Cents of a positive amount are not negative. -/
theorem cents_nonneg {q : ℚ} (h : 0 ≤ q) : 0 ≤ PyFloat.cents q := by
  rw [PyFloat.cents, if_pos h]
  change 0 ≤ ⌊q * 100 + 1 / 2⌋
  exact Int.floor_nonneg.mpr (by positivity)

theorem cents_le {q : ℚ} (h : 0 ≤ q) (hq : q ≤ 100) : PyFloat.cents q ≤ 10000 := by
  rw [PyFloat.cents, if_pos h]
  change ⌊q * 100 + 1 / 2⌋ ≤ 10000
  have hlt : ⌊q * 100 + 1 / 2⌋ < 10001 := Int.floor_lt.mpr (by norm_num; linarith)
  omega

/-- What is read of a row, whatever the code. -/
theorem effectOf_active {code : String} {goods : Int} :
    (∃ effect, effectOf cfg code goods p.active = .ok effect) ↔
      match p.effectType with
      | .PERCENT_DISCOUNT => ∃ q n, p.discount = some q ∧ cfg.percentOf goods q = .ok n
      | .FIXED_AMOUNT => ∃ q, p.discount = some q
      | .FREE_DELIVERY => True := by
  unfold effectOf
  dsimp only [Promo.active]
  cases p.effectType with
  | PERCENT_DISCOUNT =>
      cases p.discount with
      | none => simp
      | some q =>
          cases hread : cfg.percentOf goods q with
          | error e => simp [hread, Except.map]
          | ok n => simp [hread, Except.map]
  | FIXED_AMOUNT =>
      cases p.discount with
      | none => simp
      | some q => simp
  | FREE_DELIVERY => simp

theorem Promo.resolves_of_effect {goods : Int}
    (h : ∀ code, ∃ effect, effectOf cfg code goods p.active = .ok effect) :
    p.Resolves cfg goods := by
  intro E₀ s promoCode hs hcode happlied
  obtain ⟨effect, heffect⟩ := h (strip (promoCode.getD ""))
  refine ⟨some effect, (returns_resolvePromoEffect hs hcode).mpr ⟨rfl, ?_⟩⟩
  rw [happlied]
  exact ⟨effect, heffect, rfl⟩

/-- A row without a code is one no code resolves to. -/
theorem Promo.resolves_of_uncoded {goods : Int} (h : p.triggerCode = none) :
    p.Resolves cfg goods := by
  intro E₀ s promoCode hs hcode happlied
  have hcoded := (appliedPromotion_coded happlied).1
  rw [Promo.active, h] at hcoded
  cases hcoded

/-- A row in range resolves as far as the floats go. -/
theorem Promo.InRange.resolves (hcfg : FloatPercents cfg) (h : p.InRange) {goods : Int}
    (hgoods : 0 ≤ goods) (hfinite : goods < 2 ^ 1000) : p.Resolves cfg goods := by
  apply Promo.resolves_of_effect
  intro code
  rw [effectOf_active]
  unfold InRange at h
  cases heffect : p.effectType with
  | PERCENT_DISCOUNT =>
      rw [heffect] at h
      obtain ⟨q, hq, hlow, hhigh⟩ := h
      obtain ⟨n, hn⟩ := hcfg.finite goods q hgoods hfinite hlow hhigh
      exact ⟨q, n, hq, hn⟩
  | FIXED_AMOUNT =>
      rw [heffect] at h
      obtain ⟨q, hq, -⟩ := h
      exact ⟨q, hq⟩
  | FREE_DELIVERY => trivial

/-- A percent raises for a goods total beyond the floats. -/
theorem not_returns_of_overflow (hcfg : FloatPercents cfg)
    (hpercent : p.effectType = .PERCENT_DISCOUNT) {goods : Int} (hgoods : 2 ^ 1024 ≤ goods)
    (E₀ : Engine Database Write) (s : Quiet Database Memory) (promoCode : Option String)
    (hs : s.failed = false) (hcode : storable (strip (promoCode.getD "")) = true)
    (happlied : appliedPromotion cfg promoCode s.view = some p.active) :
    ¬ ∃ effect, (resolvePromoEffect cfg promoCode goods).Returns E₀ s effect s := by
  rintro ⟨effect, heffect⟩
  have hreturned := ((returns_resolvePromoEffect hs hcode).mp heffect).2
  rw [happlied] at hreturned
  obtain ⟨e, he, -⟩ := hreturned
  have hread := effectOf_active.mp ⟨e, he⟩
  rw [hpercent] at hread
  obtain ⟨q, n, -, hn⟩ := hread
  obtain ⟨raised, hraised⟩ := hcfg.overflow goods q hgoods
  rw [hn] at hraised
  cases hraised

/-- A percent under a code does not resolve for every goods total. -/
theorem Promo.not_resolves (hcfg : FloatPercents cfg) (hpercent : p.effectType = .PERCENT_DISCOUNT)
    {x : String} (hcode : p.triggerCode = some (strip x)) (hblank : strip x ≠ "")
    (hstorable : storable (strip x) = true) {goods : Int} (hgoods : 2 ^ 1024 ≤ goods) :
    ¬ p.Resolves cfg goods := by
  intro h
  have happlied : appliedPromotion cfg (some x) { emptyDatabase with promotions := [p.active] } =
      some p.active := by
    simp [appliedPromotion, hblank, activePromotions, Promo.active, hcode]
  exact not_returns_of_overflow hcfg hpercent hgoods (numbered 0)
    (.start { emptyDatabase with promotions := [p.active] } {}) (some x) rfl hstorable happlied
    (h _ _ (some x) rfl hstorable happlied)

end Values

/-! ## What a call commits -/

/-- What a call that succeeds commits: a new row with a discount that passed the
comparisons and fits the column, or another state of a stored row. -/
inductive PromotionChange (B : Backend) (d : PromoDatabase) (command : Json) :
    PromoDatabase → Prop
  | created {name discount effectType triggerCode d'} (id : Uuid)
      (hcommand : PromotionAgentTools.requiredApplyFields command =
        .ok (some (.create name discount effectType triggerCode)))
      (herror : discountError B effectType discount = none)
      (hcode : triggerCode.all storable = true)
      (hfits : (discount.getD (.value 0)).fitsNumeric = true)
      (hnew : d.promotions.find id = none)
      (hd : d'.promotions =
        d.promotions.put (newPromotion id name discount effectType triggerCode)) :
      PromotionChange B d command d'
  | moved {event target d'} (row : Promo) (state : String)
      (hcommand : PromotionAgentTools.requiredApplyFields command =
        .ok (some (.transition event target)))
      (hrow : d.promotions.find row.id = some row)
      (hd : d'.promotions = d.promotions.put { row with state }) :
      PromotionChange B d command d'

section Change

variable {B : Backend} {E₀ : Engine PromoDatabase PromoWrite} {d d' : PromoDatabase}
variable {command : Json}

theorem promotionChange_of_call (h : (applyPromotionCommand B command).Commits E₀ d d') :
    PromotionChange B d command d' := by
  obtain ⟨out, s', h, hd'⟩ := h.returns
  rw [applyPromotionCommand] at h
  simp only [bind_eq, returns_andThen, returns_liftExcept] at h
  obtain ⟨parsed, _, ⟨hcommand, rfl⟩, h⟩ := h
  cases parsed with
  | none => simp at h
  | some parsed =>
      cases parsed with
      | create name discount effectType triggerCode =>
          cases herror : discountError B effectType discount with
          | some e => simp [herror] at h
          | none =>
              have hlive : (Quiet.start d ()).failed = false := rfl
              simp only [herror, returns_andThen, returns_bindParam, Schema.returns_filterForUpdate] at h
              obtain ⟨_, _, ⟨-, rfl⟩, found, _, ⟨-, -, rfl⟩, h⟩ := h
              split_ifs at h
              · simp at h
              · simp only [returns_andThen, returns_requireCodeFree hlive, returns_bindParam,
                  returns_promoUuid, UniqueIndex.returns_insert] at h
                obtain ⟨_, _, ⟨hcode, -, rfl⟩, _, _, ⟨hfits, rfl⟩, id, _, ⟨-, rfl⟩, _, _,
                  ⟨-, hnew, -, -, rfl⟩, -, rfl⟩ := h
                obtain rfl := hd' rfl
                exact .created id hcommand herror hcode hfits hnew (promoCodes B.lower).table_writes
      | transition event target =>
          simp only [returns_andThen, returns_bindParam, Schema.returns_filterForUpdate] at h
          obtain ⟨_, _, ⟨-, rfl⟩, found, _, ⟨-, rfl, rfl⟩, h⟩ := h
          split at h
          · rename_i row hfound
            have hrow : (promoTable.table d).find row.id = some row :=
              Table.find_of_mem (Table.mem_filter.mp (hfound ▸ List.mem_singleton_self row)).1
            simp only [returns_andThen, returns_liftExcept] at h
            obtain ⟨fromState, _, ⟨-, rfl⟩, h⟩ := h
            split at h
            · simp at h
            · simp only [returns_andThen, UniqueIndex.returns_rewrite] at h
              obtain ⟨_, _, ⟨-, hrewrite⟩, h⟩ := h
              rw [show (promoTable.table (Quiet.start d ()).view).find row.id = some row from
                hrow] at hrewrite
              obtain ⟨-, -, rfl, rfl⟩ := hrewrite
              obtain ⟨-, rfl⟩ := (returns_ret _).mp h
              obtain rfl := hd' rfl
              exact .moved row _ hcommand hrow (promoCodes B.lower).table_writes
          · simp at h

/-- A row version keeps the promotions usable when it is. -/
theorem usable_put {cfg : Settings} {total : Int → Prop} {row : Promo}
    (hd : d'.promotions = d.promotions.put row) (hI : d.Usable cfg total) :
    d'.Usable cfg total ↔
      row.InRange ∧ ∀ goods, 0 ≤ goods → total goods → row.Resolves cfg goods := by
  constructor
  · intro h
    exact h row (hd ▸ Table.mem_put_self _ row)
  · intro hrow p hp
    rw [hd] at hp
    rcases Table.mem_put hp with rfl | hp
    · exact hrow
    · exact hI p hp

/-- A discount that passed the comparisons is stored in range when it is a number and
does not round away. -/
theorem newPromotion_inRange (id : Uuid) {name : String} {discount : Option PyFloat}
    {effectType : EffectType} {triggerCode : Option String}
    (hcommand : PromotionAgentTools.requiredApplyFields command =
      .ok (some (.create name discount effectType triggerCode)))
    (herror : discountError B effectType discount = none)
    (hfits : (discount.getD (.value 0)).fitsNumeric = true) :
    (newPromotion id name discount effectType triggerCode).InRange ↔ SoundDiscount command := by
  have hsound : SoundDiscount command ↔ SoundAmount effectType discount := by
    simp only [SoundDiscount, hcommand, Except.ok.injEq, Option.some.injEq,
      PromotionCommand.create.injEq, and_imp]
    constructor
    · intro h
      exact h name discount effectType triggerCode rfl rfl rfl rfl
    · rintro h _ _ _ _ rfl rfl rfl rfl
      exact h
  rw [hsound]
  cases effectType with
  | FREE_DELIVERY => simp [Promo.InRange, newPromotion, SoundAmount]
  | PERCENT_DISCOUNT =>
      cases discount with
      | none => cases herror
      | some x =>
          cases x with
          | nan => simp [Promo.InRange, newPromotion, SoundAmount, PyFloat.numeric]
          | inf negative => cases hfits
          | value q =>
              simp [Promo.InRange, newPromotion, SoundAmount, PyFloat.numeric]
              have hrange : 0 ≤ q ∧ q ≤ 100 := by
                simpa [discountError, PyFloat.lt, PyFloat.gt] using herror
              have hlow : (0 : ℚ) ≤ PyFloat.cents q := by exact_mod_cast cents_nonneg hrange.1
              have hhigh : (PyFloat.cents q : ℚ) ≤ 10000 := by
                exact_mod_cast cents_le hrange.1 hrange.2
              constructor
              · positivity
              · linarith
  | FIXED_AMOUNT =>
      cases discount with
      | none => cases herror
      | some x =>
          cases x with
          | nan => simp [Promo.InRange, newPromotion, SoundAmount, PyFloat.numeric]
          | inf negative => cases hfits
          | value q =>
              simp [Promo.InRange, newPromotion, SoundAmount, PyFloat.numeric]
              have hpos : 0 < q := by simpa [discountError, PyFloat.le] using herror
              have hlow := cents_nonneg hpos.le
              omega

/-- A call keeps the promotions usable up to the floats exactly when it creates none
with an unsound discount. -/
theorem PromotionChange.usable_finite {cfg : Settings} (hcfg : FloatPercents cfg)
    (h : PromotionChange B d command d') (hI : d.Usable cfg (· < 2 ^ 1000)) :
    d'.Usable cfg (· < 2 ^ 1000) ↔ SoundDiscount command := by
  cases h with
  | created id hcommand herror hcode hfits hnew hd =>
      rw [usable_put hd hI, ← newPromotion_inRange id hcommand herror hfits]
      constructor
      · intro h
        exact h.1
      · intro h
        exact ⟨h, fun goods hgoods hfinite => h.resolves hcfg hgoods hfinite⟩
  | moved row state hcommand hrow hd =>
      rw [usable_put hd hI]
      constructor
      · intro _ name discount effectType triggerCode hcreate
        simp [hcommand] at hcreate
      · intro _
        exact hI row (Table.find_some hrow).1

theorem triggerCode_of_readFields {fields : PromotionFields} {x : String}
    (h : PromotionAgentTools.readFields command = some fields)
    (hcode : fields.triggerCode = some x) : strip x ≠ "" := by
  cases command with
  | obj entries =>
      simp only [PromotionAgentTools.readFields, Option.bind_eq_bind, Option.bind_eq_some_iff] at h
      obtain ⟨_, -, _, -, _, -, _, -, _, -, triggerCode, hread, ⟨⟩⟩ := h
      obtain rfl : triggerCode = some x := hcode
      cases hvalue : Json.get entries "trigger_code" .null with
      | str text =>
          rw [hvalue] at hread
          simp only [Json.optional, Json.text?, Option.map_eq_some_iff, Option.some.injEq,
            exists_eq_right, Option.ite_none_left_eq_some] at hread
          exact hread.2 ▸ hread.1
      | null =>
          rw [hvalue] at hread
          cases hread
      | _ =>
          rw [hvalue] at hread
          cases hread
  | _ => cases h

/-- The code of a creation is a text without the blanks around it. -/
theorem code_of_create {name : String} {discount : Option PyFloat} {effectType : EffectType}
    {code : String} (h : PromotionAgentTools.requiredApplyFields command =
      .ok (some (.create name discount effectType (some code)))) :
    ∃ x, code = strip x ∧ strip x ≠ "" := by
  unfold PromotionAgentTools.requiredApplyFields at h
  cases hfields : PromotionAgentTools.readFields command with
  | none => simp [hfields] at h
  | some fields =>
      simp only [hfields] at h
      have hcode : fields.triggerCode.map strip = some code := by
        cases hevent : fields.event with
        | some event =>
            cases htarget : fields.target with
            | none => simp [hevent, htarget] at h
            | some target =>
                cases hx : optionalFloat fields.discount with
                | error e => simp [hevent, htarget, hx, Except.map] at h
                | ok x => simp [hevent, htarget, hx, Except.map] at h
        | none =>
            cases hname : fields.name with
            | none => simp [hevent, hname] at h
            | some n =>
                simp only [hevent, hname] at h
                split_ifs at h
                · simp only [Except.ok.injEq, Option.some.injEq,
                    PromotionCommand.create.injEq] at h
                  exact h.2.2.2
                · cases h
                · cases hx : optionalFloat fields.discount with
                  | error e => simp [hx, Except.map] at h
                  | ok x =>
                      simp only [hx, Except.map, Except.ok.injEq, Option.some.injEq,
                        PromotionCommand.create.injEq] at h
                      exact h.2.2.2
      obtain ⟨x, hx, rfl⟩ := Option.map_eq_some_iff.mp hcode
      exact ⟨x, rfl, triggerCode_of_readFields hfields hx⟩

/-- A call keeps the promotions usable for all goods totals exactly when it also creates
no promotion in percent under a code. -/
theorem PromotionChange.usable {cfg : Settings} (hcfg : FloatPercents cfg)
    (h : PromotionChange B d command d') (hI : d.Usable cfg fun _ => True) :
    (d'.Usable cfg fun _ => True) ↔ SoundDiscount command ∧ ¬ CodedPercent command := by
  cases h with
  | @created name discount effectType triggerCode _ id hcommand herror hcode hfits hnew hd =>
      rw [usable_put hd hI, ← newPromotion_inRange id hcommand herror hfits]
      constructor
      · rintro ⟨hrange, hall⟩
        refine ⟨hrange, ?_⟩
        rintro ⟨_, _, code, hcoded⟩
        obtain ⟨rfl, rfl, rfl, rfl⟩ := PromotionCommand.create.inj
          (Option.some.inj (Except.ok.inj (hcommand.symm.trans hcoded)))
        obtain ⟨x, rfl, hblank⟩ := code_of_create hcommand
        exact Promo.not_resolves hcfg rfl rfl hblank (by simpa using hcode) le_rfl
          (hall (2 ^ 1024) (by positivity) trivial)
      · rintro ⟨hrange, hcoded⟩
        refine ⟨hrange, fun goods _ _ => ?_⟩
        cases effectType with
        | PERCENT_DISCOUNT =>
            cases triggerCode with
            | none => exact Promo.resolves_of_uncoded rfl
            | some code => exact absurd ⟨name, discount, code, hcommand⟩ hcoded
        | FIXED_AMOUNT =>
            obtain ⟨q, hq, -⟩ := hrange
            exact Promo.resolves_of_effect fun code => effectOf_active.mpr ⟨q, hq⟩
        | FREE_DELIVERY => exact Promo.resolves_of_effect fun code => effectOf_active.mpr trivial
  | moved row state hcommand hrow hd =>
      rw [usable_put hd hI]
      constructor
      · intro _
        constructor
        · intro name discount effectType triggerCode hcreate
          simp [hcommand] at hcreate
        · rintro ⟨_, _, _, hcreate⟩
          simp [hcommand] at hcreate
      · intro _
        exact hI row (Table.find_some hrow).1

end Change

/-! ## Sequences -/

/-- Through any sequence of calls, every stored promotion is in range and resolves for
every goods total exactly when every creation has a sound discount and none is in
percent under a code. For the goods totals that floats hold, the sound discounts are
enough. -/
theorem promotions_usable_iff {B : Backend} {cfg : Settings} (hcfg : FloatPercents cfg)
    {d d' : PromoDatabase} {history : List (PromoDatabase × Json)}
    (hd : d.promotions.rows = []) (h : Sequence (applyPromotionCommand B) d history d') :
    (((∀ p ∈ history, p.1.Usable cfg fun _ => True) ∧ d'.Usable cfg fun _ => True) ↔
      ∀ p ∈ history, SoundDiscount p.2 ∧ ¬ CodedPercent p.2) ∧
    (((∀ p ∈ history, p.1.Usable cfg (· < 2 ^ 1000)) ∧ d'.Usable cfg (· < 2 ^ 1000)) ↔
      ∀ p ∈ history, SoundDiscount p.2) := by
  have hempty : ∀ total, d.Usable cfg total := by
    intro total p hp
    rw [hd] at hp
    cases hp
  have hcall : ∀ E₀ c d₁ d₂, True → (d₁.Usable cfg fun _ => True) →
      (applyPromotionCommand B c).Commits E₀ d₁ d₂ →
      ((d₂.Usable cfg fun _ => True) ↔ SoundDiscount c ∧ ¬ CodedPercent c) :=
    fun _ _ _ _ _ hI hc => (promotionChange_of_call hc).usable hcfg hI
  have hfinite : ∀ E₀ c d₁ d₂, True → d₁.Usable cfg (· < 2 ^ 1000) →
      (applyPromotionCommand B c).Commits E₀ d₁ d₂ →
      (d₂.Usable cfg (· < 2 ^ 1000) ↔ SoundDiscount c) :=
    fun _ _ _ _ _ hI hc => (promotionChange_of_call hc).usable_finite hcfg hI
  constructor
  · exact Sequence.iff_of_call (fun _ _ _ _ _ _ => trivial) hcall trivial (hempty _) h
  · exact Sequence.iff_of_call (fun _ _ _ _ _ _ => trivial) hfinite trivial (hempty _) h

/-! ## Samples -/

/-- The shop with percents that raise for an integer beyond the floats. -/
def floatSettings : Settings :=
  { asciiSettings with
    percentOf := fun total discount =>
      if total < 2 ^ 1024 then .ok (truncated (total * discount / 100))
      else .error (.overflowError "int too large to convert to float")
    percentOf_error := fun goods discount e h => by
      split_ifs at h
      cases h
      exact ⟨_, Or.inl rfl⟩ }

theorem floatPercents_sample : FloatPercents floatSettings where
  finite goods q _ hfinite _ _ := by
    have hlt : goods < 2 ^ 1024 := hfinite.trans (pow_lt_pow_right₀ (by norm_num) (by norm_num))
    exact ⟨_, if_pos hlt⟩
  overflow goods q hgoods := ⟨_, if_neg (not_lt.mpr hgoods)⟩

/-- The command that creates a promotion of a fixed amount. -/
def fixedPromotion (discount : Json) : Json :=
  .obj [("action", .str "create"), ("name", .str "Spring"), ("discount", discount),
    ("effect_type", .str "FIXED_AMOUNT")]

/-- The table with this promotion. -/
def fixedDatabase (x : PyFloat) : PromoDatabase :=
  { emptyPromotions with
    promotions := Table.empty.put (newPromotion 1 "Spring" (some x) .FIXED_AMOUNT none) }

theorem read_fixedPromotion {discount : Json} {n : Number} {x : PyFloat}
    (hread : discount.optional number? = some (some n)) (hfloat : n.toFloat = .ok x) :
    PromotionAgentTools.requiredApplyFields (fixedPromotion discount) =
      .ok (some (.create "Spring" (some x) .FIXED_AMOUNT none)) := by
  have hstrip : strip "Spring" = "Spring" := by decide +kernel
  have hnull : ∀ {α : Type} (read : Json → Option α), Json.optional read .null = some none :=
    fun _ => rfl
  have htext : ∀ {α : Type} (read : Json → Option α) text,
      Json.optional read (.str text) = (read (.str text)).map some := fun _ _ => rfl
  simp [fixedPromotion, PromotionAgentTools.requiredApplyFields, PromotionAgentTools.readFields,
    Json.get, actionEvent, hnull, htext, Json.text?, effectType?, EffectType.ofText, hstrip, hread,
    hfloat, optionalFloat, Except.map]

/-- A creation of a fixed amount that passes the comparison and fits is committed. -/
theorem sequence_fixedPromotion {discount : Json} {n : Number} {x : PyFloat}
    (hread : discount.optional number? = some (some n)) (hfloat : n.toFloat = .ok x)
    (hpos : x.le 0 = false) (hfits : x.fitsNumeric = true) :
    Sequence (applyPromotionCommand asciiBackend) emptyPromotions
      [(emptyPromotions, fixedPromotion discount)] (fixedDatabase x) := by
  have hreturns : (applyPromotionCommand asciiBackend (fixedPromotion discount)).Returns
      { supply := fun _ => 1 } (Quiet.start emptyPromotions ()) (.created "Spring" 1)
      ⟨emptyPromotions, fixedDatabase x, (), false⟩ := by
    rw [applyPromotionCommand]
    simp only [bind_eq, pure_eq, returns_andThen, returns_liftExcept]
    refine ⟨_, _, ⟨read_fixedPromotion hread hfloat, rfl⟩, ?_⟩
    simp [discountError, hpos, hfits]
    exact ⟨by decide +kernel, rfl, rfl, (), _, rfl, rfl, rfl, rfl, rfl⟩
  exact .call { supply := fun _ => 1 } .nil (.of_returns hreturns rfl)

/-- `NaN` is stored as a fixed amount. -/
theorem nan_promotion_stored :
    ¬ ∀ B cfg history d', FloatPercents cfg →
      Sequence (applyPromotionCommand B) emptyPromotions history d' →
      d'.Usable cfg fun _ => True := by
  intro hall
  have hread : Json.optional number? .nan = some (some (.float .nan)) := rfl
  have husable := hall asciiBackend floatSettings _ (fixedDatabase .nan) floatPercents_sample
    (sequence_fixedPromotion hread rfl rfl rfl)
  obtain ⟨q, hq, -⟩ := (husable _ List.mem_cons_self).1
  cases hq

/-- A hundred rubles are stored and resolve. -/
theorem promotions_usable_iff_hundred :
    (fixedDatabase (.value 100)).Usable floatSettings fun _ => True := by
  have hread : Json.optional number? (.float 100) = some (some (.float (.value 100))) := rfl
  have hrun := sequence_fixedPromotion hread rfl (by decide +kernel) (by decide +kernel)
  refine ((promotions_usable_iff floatPercents_sample rfl hrun).1.mpr ?_).2
  intro p hp
  obtain rfl := List.mem_singleton.mp hp
  constructor
  · intro _ _ _ _ hcreate
    obtain ⟨-, rfl, rfl, -⟩ := PromotionCommand.create.inj
      (Option.some.inj (Except.ok.inj ((read_fixedPromotion hread rfl).symm.trans hcreate)))
    refine ⟨by simp, fun q hq => ?_⟩
    obtain rfl := PyFloat.value.inj (Option.some.inj hq)
    decide +kernel
  · rintro ⟨_, _, _, hcreate⟩
    cases (read_fixedPromotion hread rfl).symm.trans hcreate

end Sieshka
