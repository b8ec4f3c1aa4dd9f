import Sieshka.Properties.MenuImport

/-!
# Category cells

A category cell means the category with that external id or, if there is none, the one
with that name. The parser looks the cell up among the external ids through the number
it can be read as, so that `007` finds `7`, and neither `A1` nor `007` is found.
-/

namespace Sieshka

namespace MenuImportService

variable (P : TextFunctions) (categories : List Category)

/-! ## The specification -/

/-- The external id of a category, without the spaces around it. -/
def externalIdOf (cat : Category) : Option String := cat.externalId.map strip

/-- The name checks let the row pass, and this is its category cell. -/
structure Reaches (existing : List MenuProduct) (columns : List (Column × Nat))
    (norms : List String) (raw : List String) (categoryRaw : String) : Prop where
  name : nameOf columns raw ≠ ""
  unambiguous : existing.countP (fun p => normalize P p.name = normOf P columns raw) ≤ 1
  fresh : normOf P columns raw ∉ norms
  cell : strip (cell columns raw .category) = categoryRaw

/-- Rows with the cell get the category, or are skipped for their price. -/
def ResolvesTo (categoryRaw : String) (id : Uuid) : Prop :=
  ∀ existing columns norms n raw, Reaches P existing columns norms raw categoryRaw →
    (∀ row, validateRow P categories existing columns norms n raw = .ok (.inl row) →
      row.categoryId = some id) ∧
    ∀ skip, validateRow P categories existing columns norms n raw = .ok (.inr skip) →
      skip.reason = "invalid price"

/-- Rows with the cell are skipped, as their category is not known. -/
def SkippedAsUnknown (categoryRaw : String) : Prop :=
  ∀ existing columns norms n raw, Reaches P existing columns norms raw categoryRaw →
    validateRow P categories existing columns norms n raw =
      .ok (.inr { rowNum := n, nameIfPresent := some (nameOf columns raw),
                  reason := "unknown category: " ++ categoryRaw })

/-- A category cell is resolved by external id, else by name, else not at all. -/
structure ResolvesRight (categoryRaw : String) : Prop where
  external : ∀ cat ∈ categories, externalIdOf cat = some categoryRaw →
    ResolvesTo P categories categoryRaw cat.id
  name : (∀ cat ∈ categories, externalIdOf cat ≠ some categoryRaw) →
    ∀ cat ∈ categories, normalize P cat.name = normalize P categoryRaw →
      ResolvesTo P categories categoryRaw cat.id
  unknown : (∀ cat ∈ categories, externalIdOf cat ≠ some categoryRaw) →
    (∀ cat ∈ categories, normalize P cat.name ≠ normalize P categoryRaw) →
      SkippedAsUnknown P categories categoryRaw
  agrees : ∀ cat ∈ categories, ResolvesTo P categories categoryRaw cat.id →
    externalIdOf cat = some categoryRaw ∨ normalize P cat.name = normalize P categoryRaw

/-- The number that a cell is read as, as a text. -/
def numberText (categoryRaw : String) : Option String :=
  match Json.toInt (.str categoryRaw) with
  | .ok asInt => some (toString asInt)
  | .error _ => none

/-- The last category of the list with a property. -/
def LastWith (p : Category → Prop) (cat : Category) : Prop :=
  ∃ before after, categories = before ++ cat :: after ∧ p cat ∧ ∀ other ∈ after, ¬ p other

/-- The category that a cell finds through its number. -/
def FoundByNumber (categoryRaw : String) (cat : Category) : Prop :=
  ∃ text, numberText categoryRaw = some text ∧
    LastWith categories (fun cat => externalIdOf cat = some text) cat

/-- A category that has the cell as its external id, or that is found through the number,
either has the name in the cell, or is the only one with that external id and the cell is
a number as `str` writes it. -/
def Unmistaken (categoryRaw : String) : Prop :=
  ∀ cat ∈ categories,
    externalIdOf cat = some categoryRaw ∨ FoundByNumber categories categoryRaw cat →
      normalize P cat.name = normalize P categoryRaw ∨
        numberText categoryRaw = some categoryRaw ∧
          ∀ other ∈ categories, externalIdOf other = some categoryRaw → other = cat

variable {P categories}

/-! ## The dictionaries -/

/-- A dictionary made of a list gives the value of the last element with the key. -/
theorem dictGet_filterMap {α β γ : Type} [DecidableEq α] (key? : γ → Option α) (value : γ → β)
    (l : List γ) (key : α) :
    dictGet (l.filterMap fun x => (key? x).map fun k => (k, value x)) key =
      (l.reverse.find? fun x => key? x = some key).map value := by
  rw [dictGet, ← List.filterMap_reverse]
  induction l.reverse with
  | nil => rfl
  | cons x rest ih =>
      cases hx : key? x with
      | none => simpa [hx] using ih
      | some k =>
          by_cases hk : k = key
          · simp [hx, hk]
          · simpa [hx, hk] using ih

theorem find_reverse_iff {p : Category → Prop} [DecidablePred p] {cat : Category} :
    (categories.reverse.find? fun cat => decide (p cat)) = some cat ↔
      LastWith categories p cat := by
  rw [List.find?_eq_some_iff_append]
  constructor
  · rintro ⟨hp, after, before, heq, hafter⟩
    apply Exists.intro before.reverse
    apply Exists.intro after.reverse
    have hlist : categories = before.reverse ++ cat :: after.reverse := by
      rw [← List.reverse_reverse categories, heq]
      simp
    exact ⟨hlist, by simpa using hp, by simpa using hafter⟩
  · rintro ⟨before, after, rfl, hp, hafter⟩
    exact ⟨by simpa using hp, after.reverse, before.reverse, by simp, by simpa using hafter⟩

theorem LastWith.mem {p : Category → Prop} {cat : Category} (h : LastWith categories p cat) :
    cat ∈ categories := by
  obtain ⟨before, after, rfl, -, -⟩ := h
  simp

theorem LastWith.holds {p : Category → Prop} {cat : Category} (h : LastWith categories p cat) :
    p cat := by
  obtain ⟨-, -, -, hp, -⟩ := h
  exact hp

/-- Among categories one of which has the property, there is a last one. -/
theorem exists_lastWith {p : Category → Prop} {cat : Category} (hmem : cat ∈ categories)
    (hp : p cat) : ∃ last, LastWith categories p last := by
  classical
  have hsome : (categories.reverse.find? fun cat => decide (p cat)).isSome = true := by
    rw [List.find?_isSome]
    exact ⟨cat, List.mem_reverse.mpr hmem, by simpa using hp⟩
  obtain ⟨last, hlast⟩ := Option.isSome_iff_exists.mp hsome
  exact ⟨last, find_reverse_iff.mp hlast⟩

theorem LastWith.eq {p : Category → Prop} {cat other : Category} (h : LastWith categories p cat)
    (h' : LastWith categories p other) : cat = other := by
  classical
  exact Option.some.inj ((find_reverse_iff.mpr h).symm.trans (find_reverse_iff.mpr h'))

/-- A cell that is the number of a category finds one with that external id. -/
theorem exists_found {categoryRaw : String} {cat : Category} (hmem : cat ∈ categories)
    (hown : externalIdOf cat = some categoryRaw)
    (hnumber : numberText categoryRaw = some categoryRaw) :
    ∃ found, FoundByNumber categories categoryRaw found := by
  obtain ⟨last, hlast⟩ :=
    exists_lastWith (p := fun cat => externalIdOf cat = some categoryRaw) hmem hown
  exact ⟨last, categoryRaw, hnumber, hlast⟩

/-! ## What the parser resolves a cell to -/

/-- What a category cell is resolved to. -/
inductive Resolution (P : TextFunctions) (categories : List Category) (categoryRaw : String) :
    Option Uuid → Prop
  | byNumber {cat} (hfound : FoundByNumber categories categoryRaw cat) :
      Resolution P categories categoryRaw (some cat.id)
  | byName {cat} (hnone : ∀ other, ¬ FoundByNumber categories categoryRaw other)
      (hmem : cat ∈ categories) (hname : normalize P cat.name = normalize P categoryRaw) :
      Resolution P categories categoryRaw (some cat.id)
  | unknown (hnone : ∀ other, ¬ FoundByNumber categories categoryRaw other)
      (hname : ∀ cat ∈ categories, normalize P cat.name ≠ normalize P categoryRaw) :
      Resolution P categories categoryRaw none

theorem resolveCategory_eq (categoryRaw : String) :
    resolveCategory P categories categoryRaw =
      match (numberText categoryRaw).bind fun text =>
          categories.reverse.find? fun cat => externalIdOf cat = some text with
      | some cat => some cat.id
      | none => (categories.reverse.find? fun cat =>
          normalize P cat.name = normalize P categoryRaw).map Category.id := by
  have hids (text : String) : dictGet (categories.filterMap fun cat =>
      cat.externalId.map fun externalId => (strip externalId, cat.id)) text =
        (categories.reverse.find? fun cat => externalIdOf cat = some text).map Category.id := by
    rw [← dictGet_filterMap externalIdOf Category.id]
    simp only [externalIdOf, Option.map_map, Function.comp_def]
  have hnames : dictGet (categories.map fun cat => (normalize P cat.name, cat.id))
      (normalize P categoryRaw) =
        (categories.reverse.find? fun cat =>
          normalize P cat.name = normalize P categoryRaw).map Category.id := by
    simpa using
      dictGet_filterMap (fun cat : Category => some (normalize P cat.name)) Category.id categories
        (normalize P categoryRaw)
  unfold resolveCategory numberText
  cases Json.toInt (.str categoryRaw) with
  | error e => exact hnames
  | ok asInt =>
      dsimp only [Option.bind_some]
      rw [hids, hnames]
      cases categories.reverse.find? fun cat => externalIdOf cat = some (toString asInt) <;> rfl

theorem resolveCategory_resolution (P : TextFunctions) (categories : List Category)
    (categoryRaw : String) :
    Resolution P categories categoryRaw (resolveCategory P categories categoryRaw) := by
  rw [resolveCategory_eq]
  cases hnumber : (numberText categoryRaw).bind fun text =>
      categories.reverse.find? fun cat => externalIdOf cat = some text with
  | some cat =>
      obtain ⟨text, htext, hlast⟩ := Option.bind_eq_some_iff.mp hnumber
      exact .byNumber ⟨text, htext, find_reverse_iff.mp hlast⟩
  | none =>
      have hnone : ∀ other, ¬ FoundByNumber categories categoryRaw other := by
        rintro other ⟨text, htext, hlast⟩
        have hnumber := Option.bind_eq_none_iff.mp hnumber text htext
        rw [find_reverse_iff.mpr hlast] at hnumber
        cases hnumber
      dsimp only
      cases hfind : categories.reverse.find? fun cat =>
          normalize P cat.name = normalize P categoryRaw with
      | some cat =>
          have hlast := find_reverse_iff.mp hfind
          exact .byName hnone hlast.mem hlast.holds
      | none =>
          apply Resolution.unknown hnone
          intro cat hmem
          simpa using List.find?_eq_none.mp hfind cat (List.mem_reverse.mpr hmem)

/-! ## What becomes of the rows -/

theorem validateRow_of_reaches {existing : List MenuProduct} {columns : List (Column × Nat)}
    {norms : List String} {n : Nat} {raw : List String} {categoryRaw : String}
    (h : Reaches P existing columns norms raw categoryRaw) :
    validateRow P categories existing columns norms n raw =
      match categoryOf P categories categoryRaw with
      | none => .ok (.inr { rowNum := n, nameIfPresent := some (nameOf columns raw),
                            reason := "unknown category: " ++ categoryRaw })
      | some categoryId => do
          match ← priceOf P (strip (cell columns raw .price_rub)) with
          | none => return .inr { rowNum := n, nameIfPresent := some (nameOf columns raw),
                                  reason := "invalid price" }
          | some priceRub =>
              return .inl { name := nameOf columns raw, categoryId, priceRub
                            description := orNone (strip (cell columns raw .description))
                            imageUrl := orNone (strip (cell columns raw .image_url))
                            isActive := priceRub.isSome } := by
  obtain ⟨hname, hcount, hfresh, rfl⟩ := h
  unfold validateRow
  dsimp only
  unfold normOf at hcount hfresh
  unfold nameOf at *
  rw [if_neg hname, if_neg (Nat.not_lt.mpr hcount), if_neg hfresh]
  rfl

/-- A row without a price that has the category cell. -/
theorem exists_row (P : TextFunctions) (categories : List Category) (text : String) :
    ∃ existing columns norms n raw, Reaches P existing columns norms raw (strip text) ∧
      ∀ categoryId, categoryOf P categories (strip text) = some categoryId →
        ∃ row, validateRow P categories existing columns norms n raw = .ok (.inl row) ∧
          row.categoryId = categoryId := by
  have hreaches : Reaches P [] [(.name, 0), (.category, 1)] [] ["tea", text] (strip text) := by
    constructor
    · change strip "tea" ≠ ""
      decide
    · simp
    · simp
    · rfl
  refine ⟨[], [(.name, 0), (.category, 1)], [], 2, ["tea", text], hreaches, ?_⟩
  intro categoryId hcategory
  rw [validateRow_of_reaches hreaches, hcategory]
  exact ⟨_, rfl, rfl⟩

theorem resolvesTo_iff {text : String} (h : strip text ≠ "") {id : Uuid} :
    ResolvesTo P categories (strip text) id ↔
      resolveCategory P categories (strip text) = some id := by
  have hof : categoryOf P categories (strip text) =
      (resolveCategory P categories (strip text)).map some := if_neg h
  constructor
  · intro hto
    obtain ⟨existing, columns, norms, n, raw, hreaches, hrow⟩ := exists_row P categories text
    obtain ⟨htaken, hskipped⟩ := hto existing columns norms n raw hreaches
    cases hresolved : resolveCategory P categories (strip text) with
    | none =>
        have hunknown := hskipped { rowNum := n, nameIfPresent := some (nameOf columns raw),
                                    reason := "unknown category: " ++ strip text } (by
          rw [validateRow_of_reaches hreaches, hof, hresolved]
          rfl)
        have hfirst := congrArg (fun s => s.toList.head?) hunknown
        simp at hfirst
    | some id' =>
        obtain ⟨row, htake, hid⟩ := hrow (some id') (by rw [hof, hresolved]; rfl)
        exact hid.symm.trans (htaken row htake)
  · intro hresolved existing columns norms n raw hreaches
    rw [validateRow_of_reaches hreaches, hof, hresolved, Option.map_some]
    dsimp only
    rcases priceOf P (strip (cell columns raw .price_rub)) with e | _ | priceRub
    · simp [bind, Except.bind]
    · constructor
      · simp [bind, Except.bind, pure, Except.pure]
      · intro skip hskip
        obtain rfl := Sum.inr.inj (Except.ok.inj hskip)
        rfl
    · constructor
      · intro row hrow
        obtain rfl := Sum.inl.inj (Except.ok.inj hrow)
        rfl
      · simp [bind, Except.bind, pure, Except.pure]

theorem skippedAsUnknown_iff {text : String} (h : strip text ≠ "") :
    SkippedAsUnknown P categories (strip text) ↔
      resolveCategory P categories (strip text) = none := by
  have hof : categoryOf P categories (strip text) =
      (resolveCategory P categories (strip text)).map some := if_neg h
  constructor
  · intro hskip
    obtain ⟨existing, columns, norms, n, raw, hreaches, hrow⟩ := exists_row P categories text
    by_contra hsome
    obtain ⟨id, hid⟩ := Option.ne_none_iff_exists'.mp hsome
    obtain ⟨row, htake, -⟩ := hrow (some id) (by rw [hof, hid]; rfl)
    have hboth := htake.symm.trans (hskip existing columns norms n raw hreaches)
    cases hboth
  · intro hnone existing columns norms n raw hreaches
    rw [validateRow_of_reaches hreaches, hof, hnone]
    rfl

/-! ## The result -/

/-- The category a cell is resolved to, where it is the right one, is no mistake. -/
theorem unmistaken_of_resolution {categoryRaw : String} {resolved : Option Uuid}
    (hids : (categories.map Category.id).Nodup)
    (hres : Resolution P categories categoryRaw resolved)
    (hexternal : ∀ cat ∈ categories, externalIdOf cat = some categoryRaw →
      resolved = some cat.id)
    (hagrees : ∀ cat ∈ categories, resolved = some cat.id →
      externalIdOf cat = some categoryRaw ∨ normalize P cat.name = normalize P categoryRaw) :
    Unmistaken P categories categoryRaw := by
  have hsame {cat other : Category} (hcat : cat ∈ categories) (hother : other ∈ categories)
      (h : some cat.id = some other.id) : cat = other :=
    List.inj_on_of_nodup_map hids hcat hother (Option.some.inj h)
  intro cat hmem hmeant
  cases hres with
  | @byNumber found hfound =>
      obtain ⟨number, hnumber, hlast⟩ := hfound
      have honly : ∀ other ∈ categories, externalIdOf other = some categoryRaw → other = found :=
        fun other hother h => (hsame hlast.mem hother (hexternal other hother h)).symm
      have hown (h : externalIdOf cat = some categoryRaw) :
          numberText categoryRaw = some categoryRaw ∧
            ∀ other ∈ categories, externalIdOf other = some categoryRaw → other = cat := by
        obtain rfl := honly cat hmem h
        obtain rfl := Option.some.inj (hlast.holds.symm.trans h)
        exact ⟨hnumber, honly⟩
      rcases hmeant with h | ⟨number', hnumber', hlast'⟩
      · exact Or.inr (hown h)
      · obtain rfl := Option.some.inj (hnumber.symm.trans hnumber')
        obtain rfl := hlast.eq hlast'
        rcases hagrees found hmem rfl with h | h
        · exact Or.inr (hown h)
        · exact Or.inl h
  | @byName named hnone hnamed hname =>
      have h := hmeant.resolve_right (hnone cat)
      rw [hsame hmem hnamed (hexternal cat hmem h).symm]
      exact Or.inl hname
  | unknown hnone hname =>
      have h := hmeant.resolve_right (hnone cat)
      cases hexternal cat hmem h

/-- Where no category is mistaken, a category that the cell means is the one it is resolved
to. -/
theorem right_of_unmistaken {categoryRaw : String} {resolved : Option Uuid}
    (hnames : (categories.map fun cat => normalize P cat.name).Nodup)
    (hres : Resolution P categories categoryRaw resolved)
    (hall : Unmistaken P categories categoryRaw) {cat : Category} (hmem : cat ∈ categories)
    (hmeant : externalIdOf cat = some categoryRaw ∨
      (∀ other ∈ categories, externalIdOf other ≠ some categoryRaw) ∧
        normalize P cat.name = normalize P categoryRaw) :
    resolved = some cat.id := by
  have hsame {other : Category} (hother : other ∈ categories)
      (hname : normalize P cat.name = normalize P categoryRaw)
      (h : normalize P other.name = normalize P categoryRaw) : other = cat :=
    List.inj_on_of_nodup_map hnames hother hmem (h.trans hname.symm)
  -- the name decides, unless the cell is the number of the category
  have hname : normalize P cat.name = normalize P categoryRaw ∨
      numberText categoryRaw = some categoryRaw ∧ externalIdOf cat = some categoryRaw ∧
        ∀ other ∈ categories, externalIdOf other = some categoryRaw → other = cat := by
    rcases hmeant with h | ⟨-, h⟩
    · rcases hall cat hmem (Or.inl h) with hname | ⟨hnumber, honly⟩
      · exact Or.inl hname
      · exact Or.inr ⟨hnumber, h, honly⟩
    · exact Or.inl h
  cases hres with
  | @byNumber found hfound =>
      have hlast := hfound
      obtain ⟨number, hnumber, hlast⟩ := hlast
      have heq : found = cat := by
        rcases hname with hname | ⟨hnumber', -, honly⟩
        · rcases hall found hlast.mem (Or.inr hfound) with h | ⟨hnumber', honly⟩
          · exact hsame hlast.mem hname h
          · obtain rfl := Option.some.inj (hnumber.symm.trans hnumber')
            rcases hmeant with h | ⟨hnone, -⟩
            · exact (honly cat hmem h).symm
            · exact absurd hlast.holds (hnone found hlast.mem)
        · obtain rfl := Option.some.inj (hnumber.symm.trans hnumber')
          exact honly found hlast.mem hlast.holds
      rw [heq]
  | @byName named hnone hnamed h =>
      rcases hname with hname | ⟨hnumber, hown, -⟩
      · rw [hsame hnamed hname h]
      · obtain ⟨last, hlast⟩ := exists_found hmem hown hnumber
        exact absurd hlast (hnone last)
  | unknown hnone h =>
      rcases hname with hname | ⟨hnumber, hown, -⟩
      · exact absurd hname (h cat hmem)
      · obtain ⟨last, hlast⟩ := exists_found hmem hown hnumber
        exact absurd hlast (hnone last)

/-- Where no category is mistaken, a cell finds a category with its external id or name. -/
theorem agrees_of_unmistaken {categoryRaw : String} {resolved : Option Uuid}
    (hres : Resolution P categories categoryRaw resolved)
    (hall : Unmistaken P categories categoryRaw) {id : Uuid} (hid : resolved = some id) :
    ∃ cat ∈ categories, cat.id = id ∧ (externalIdOf cat = some categoryRaw ∨
      normalize P cat.name = normalize P categoryRaw) := by
  cases hres with
  | @byNumber found hfound =>
      have hlast := hfound
      obtain ⟨number, hnumber, hlast⟩ := hlast
      apply Exists.intro found
      constructor
      · exact hlast.mem
      · constructor
        · exact Option.some.inj hid
        · rcases hall found hlast.mem (Or.inr hfound) with h | ⟨hnumber', -⟩
          · exact Or.inr h
          · obtain rfl := Option.some.inj (hnumber.symm.trans hnumber')
            exact Or.inl hlast.holds
  | @byName named hnone hnamed h => exact ⟨named, hnamed, Option.some.inj hid, Or.inr h⟩
  | unknown hnone h => cases hid

/-- A category cell is resolved as it should be exactly when no category is mistaken for the
one it means. -/
theorem resolves_right_iff (P : TextFunctions) {categories : List Category}
    (hids : (categories.map Category.id).Nodup)
    (hnames : (categories.map fun cat => normalize P cat.name).Nodup) (text : String)
    (h : strip text ≠ "") :
    ResolvesRight P categories (strip text) ↔ Unmistaken P categories (strip text) := by
  have hres := resolveCategory_resolution P categories (strip text)
  constructor
  · rintro ⟨hexternal, -, -, hagrees⟩
    apply unmistaken_of_resolution hids hres
    · intro cat hmem hown
      exact (resolvesTo_iff h).mp (hexternal cat hmem hown)
    · intro cat hmem hid
      exact hagrees cat hmem ((resolvesTo_iff h).mpr hid)
  · intro hall
    constructor
    · intro cat hmem hown
      exact (resolvesTo_iff h).mpr (right_of_unmistaken hnames hres hall hmem (Or.inl hown))
    · intro hnone cat hmem hname
      exact (resolvesTo_iff h).mpr
        (right_of_unmistaken hnames hres hall hmem (Or.inr ⟨hnone, hname⟩))
    · intro hnone hname
      rw [skippedAsUnknown_iff h]
      by_contra hsome
      obtain ⟨id, hid⟩ := Option.ne_none_iff_exists'.mp hsome
      obtain ⟨cat, hmem, -, hown | hown⟩ := agrees_of_unmistaken hres hall hid
      · exact hnone cat hmem hown
      · exact hname cat hmem hown
    · intro cat hmem hto
      obtain ⟨other, hother, heq, hown⟩ :=
        agrees_of_unmistaken hres hall ((resolvesTo_iff h).mp hto)
      obtain rfl : other = cat := List.inj_on_of_nodup_map hids hother hmem heq
      exact hown

/-! ## Samples -/

/-- A category with an external id. -/
def drinks (externalId : String) : Category where
  id := 7#128
  name := "Drinks"
  parentCategoryId := none
  timePeriod := .both
  fulfillmentScope := .both
  sort := 0
  isActive := true
  externalId := some externalId

/-- The cell that is the external id of the drinks makes its row be skipped. -/
theorem lettered_id_skipped :
    ¬ ∀ (P : TextFunctions) (categories : List Category), (categories.map Category.id).Nodup →
      (categories.filterMap externalIdOf).Nodup →
      (categories.map fun cat => normalize P cat.name).Nodup →
      ∀ text, strip text ≠ "" → ResolvesRight P categories (strip text) := by
  intro hall
  have h := hall asciiTextFunctions [drinks "A1"] (by simp) (by simp [externalIdOf, drinks])
    (by simp) "A1" (by decide)
  have hto := (resolvesTo_iff (by decide)).mp
    (h.external (drinks "A1") List.mem_cons_self (by decide))
  have hnone : resolveCategory asciiTextFunctions [drinks "A1"] (strip "A1") = none := by
    decide +kernel
  rw [hnone] at hto
  cases hto

/-- The cell `7` is resolved to the category with that external id. -/
theorem resolves_right_iff_drinks :
    ResolvesRight asciiTextFunctions [drinks "7"] (strip " 7") := by
  apply (resolves_right_iff asciiTextFunctions (by simp) (by simp) " 7" (by decide)).mpr
  intro cat hmem _
  obtain rfl := List.mem_singleton.mp hmem
  apply Or.inr
  constructor
  · decide +kernel
  · intro other hother _
    exact List.mem_singleton.mp hother

end MenuImportService

end Sieshka
