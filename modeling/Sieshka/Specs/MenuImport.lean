import Sieshka.Services.MenuImportService
import Sieshka.Specs.Menu
import Sieshka.Traces
import Sieshka.Upserts

/-!
# What an import writes

The import tool writes its rows to the products as upserts by name. It goes through when
every row can be stored, and an import that does not go through leaves the database as it
was.
-/

namespace Sieshka

open Transactions Prog MenuDatabase

namespace MenuImportService

/-! ## The products as records -/

/-- The row written over a product. -/
def ProductRow.over (row : ProductRow) (p : MenuProduct) : MenuProduct :=
  { p with
    categoryId := row.categoryId
    priceRub := row.priceRub
    description := row.description
    imageUrl := row.imageUrl
    isActive := row.isActive }

/-- The row as a new product. -/
def ProductRow.asProduct (row : ProductRow) (id : Uuid) : MenuProduct where
  id := id
  name := row.name
  categoryId := row.categoryId
  timePeriodOverride := none
  priceRub := row.priceRub
  description := row.description
  imageUrl := row.imageUrl
  isActive := row.isActive
  sku := none
  sort := 0

/-- The import tool: names are compared without case. -/
def productWriter (B : Backend) : Upserts.Writer ProductRow MenuProduct String String where
  name := MenuProduct.name
  rowName := ProductRow.name
  fold := B.lower
  merge := ProductRow.over
  name_merge _ _ := rfl
  merge_merge _ _ _ := rfl

/-- A name the column takes. -/
def nameFits (name : String) : Bool := name.toList.length ≤ 255

/-- A server whose columns take names of at most 255 characters, and which gives a new
product an id that is free. -/
structure ImportEngine (E₀ : Engine MenuDatabase MenuWrite) : Prop where
  fits : ∀ p, E₀.fits (.product p) = nameFits p.name
  fresh : ∀ d : MenuDatabase, d.products.rows.length < 2 ^ 128 →
    d.products.find (BitVec.ofNat 128 (E₀.supply d)) = none

/-- The row names several products of the database, for the tool. -/
def Many (B : Backend) (d : MenuDatabase) (row : ProductRow) : Prop :=
  1 < (productsNamed B.lower row.name d).length

instance (B : Backend) (d : MenuDatabase) (row : ProductRow) : Decidable (Many B d row) :=
  inferInstanceAs (Decidable (_ < _))

/-- The row, after the rows before it, can be stored. -/
structure Storable (B : Backend) (d : MenuDatabase) (before : List ProductRow)
    (row : ProductRow) : Prop where
  name : storable row.name = true
  values : ¬ Many B d row → row.dump.fits = true
  length : productsNamed B.lower row.name d = [] →
    (∀ earlier ∈ before, B.lower earlier.name ≠ B.lower row.name) → nameFits row.name = true

/-- Every row can be stored after the rows before it. -/
def Writable (B : Backend) (d : MenuDatabase) (before rows : List ProductRow) : Prop :=
  ∀ mid row after, rows = mid ++ row :: after → Storable B d (before ++ mid) row

/-- An import from `d` has written the rows `before`. -/
structure Importing (B : Backend) (d : MenuDatabase) (before : List ProductRow)
    (s : Quiet MenuDatabase Unit) : Prop where
  failed : s.failed = false
  run : (productWriter B).Run d.products.rows before s.view.products.rows
  categories : s.view.categories = d.categories
  names : ∀ p ∈ s.view.products.rows, nameFits p.name = true

variable {B : Backend} {E₀ : Engine MenuDatabase MenuWrite} {s s' : Quiet MenuDatabase Unit}
  {d : MenuDatabase} {before : List ProductRow} {row : ProductRow}

/-! ## One row -/

theorem category_dump (row : ProductRow) : row.dump.category = .ok row.categoryId := by
  cases hid : row.categoryId with
  | none => simp [MenuImportTools.ProductRow.category, ProductRow.dump, hid]
  | some id =>
      have htext : id.text ≠ "" := by
        intro hblank
        have hread := readUuid_text id
        rw [hblank] at hread
        simp [readUuid, removeAll, stripChars] at hread
      simp [MenuImportTools.ProductRow.category, ProductRow.dump, hid, htext, Except.map]

/-- A row is written as a new product, or over the one product that has its name. -/
theorem returns_importRow (hE : ImportEngine E₀) (hs : s.failed = false)
    (hcategory : hasCategory row.categoryId s.view = true)
    (hnames : ∀ p ∈ s.view.products.rows, nameFits p.name = true)
    (hroom : productsNamed B.lower row.name s.view = [] →
      s.view.products.rows.length < 2 ^ 128) {b : Bool} :
    (MenuImportTools.importRow B row.dump).Returns E₀ s b s' ↔
      storable row.name = true ∧
        match productsNamed B.lower row.name s.view with
        | [] => row.dump.fits = true ∧ nameFits row.name = true ∧ b = true ∧
            s' = s.wrote [.product (row.asProduct (BitVec.ofNat 128 (E₀.supply s.view)))]
        | [p] => row.dump.fits = true ∧ b = true ∧ s' = s.wrote [.product (row.over p)]
        | _ => b = false ∧ s' = s := by
  have hname : row.dump.name = row.name := rfl
  simp only [MenuImportTools.importRow, category_dump, hname, bind_eq, pure_eq, returns_andThen,
    returns_liftExcept, returns_bindParam, returns_select, Except.ok.injEq, exists_eq_left',
    and_assoc, exists_and_left, exists_eq_left, hs, true_and]
  refine and_congr_right fun _ => ?_
  rw [exists_const]
  rcases hfound : productsNamed B.lower row.name s.view with _ | ⟨p, _ | ⟨q, rest⟩⟩
  · have hfree := hE.fresh s.view (hroom hfound)
    have hfits := hE.fits (row.asProduct (BitVec.ofNat 128 (E₀.supply s.view)))
    simp only [returns_andThen, returns_bindParam, returns_menuUuid, Schema.returns_insert,
      returns_ret]
    constructor
    · rintro ⟨_, _, ⟨hdump, rfl⟩, id, _, ⟨rfl, rfl⟩, _, _, ⟨-, -, -, hwrite, rfl⟩, rfl, rfl⟩
      exact ⟨hdump, hfits.symm.trans hwrite, rfl, rfl⟩
    · rintro ⟨hdump, hlength, rfl, rfl⟩
      exact ⟨(), s, ⟨hdump, rfl⟩, _, s, ⟨rfl, rfl⟩, (), _,
        ⟨hs, hfree, hcategory, hfits.trans hlength, rfl⟩, rfl, rfl⟩
  · have hp : p ∈ s.view.products.rows := by
      have hmem : p ∈ productsNamed B.lower row.name s.view := by simp [hfound]
      exact (List.mem_filter.mp hmem).1
    have hfind : s.view.products.find p.id = some p := Table.find_of_mem hp
    have hfits : E₀.fits (.product (row.over p)) = true := (hE.fits _).trans (hnames p hp)
    simp only [returns_andThen, returns_bindParam, Schema.returns_rewrite, returns_ret,
      menuProducts_table, and_assoc, exists_and_left, exists_eq_left, exists_const]
    refine and_congr_right fun _ => ?_
    simp only [hfind]
    constructor
    · rintro ⟨-, _, ⟨-, -, rfl⟩, rfl, rfl⟩
      exact ⟨rfl, rfl⟩
    · rintro ⟨rfl, rfl⟩
      exact ⟨hs, _, ⟨hcategory, hfits, rfl⟩, rfl, rfl⟩
  · simp [returns_ret]

namespace Importing

theorem start (B : Backend) (hnames : ∀ p ∈ d.products.rows, nameFits p.name = true) :
    Importing B d [] (Quiet.start d ()) :=
  ⟨rfl, .nil, rfl, hnames⟩

theorem free_iff (h : Importing B d before s) :
    productsNamed B.lower row.name s.view = [] ↔
      productsNamed B.lower row.name d = [] ∧
        ∀ earlier ∈ before, B.lower earlier.name ≠ B.lower row.name :=
  h.run.matching_eq_nil

theorem many_iff (h : Importing B d before s) :
    1 < (productsNamed B.lower row.name s.view).length ↔ Many B d row :=
  h.run.many_iff

/-- A name that is there keeps its products. -/
theorem ids (h : Importing B d before s) (hne : productsNamed B.lower row.name d ≠ []) :
    (productsNamed B.lower row.name s.view).map MenuProduct.id =
      (productsNamed B.lower row.name d).map MenuProduct.id :=
  h.run.map_matching MenuProduct.id (fun _ _ => rfl) hne

theorem length_le (h : Importing B d before s) :
    s.view.products.rows.length ≤ d.products.rows.length + before.length := by
  obtain ⟨firsts, hsub, -, hnames⟩ := h.run.names
  have hlength := congrArg List.length hnames
  have hle := hsub.length_le
  simp only [List.length_map, List.length_append] at hlength
  omega

/-- A row whose name is new is a new product. -/
theorem insert (h : Importing B d before s) {p : MenuProduct}
    (hfree : productsNamed B.lower row.name s.view = [])
    (hid : s.view.products.find p.id = none) (hname : p.name = row.name)
    (hover : row.over p = p) (hfits : nameFits row.name = true) :
    Importing B d (before ++ [row]) (s.wrote [.product p]) := by
  have hrows : (s.wrote [.product p]).view.products.rows = s.view.products.rows ++ [p] :=
    Table.rows_put_of_find_eq_none hid
  refine ⟨h.failed, ?_, h.categories, ?_⟩
  · rw [hrows]
    exact .snoc h.run (.insert hfree hname hover)
  · rw [hrows, List.forall_mem_append, List.forall_mem_singleton, hname]
    exact ⟨h.names, hfits⟩

/-- A row whose name one product has is written over it. -/
theorem update (h : Importing B d before s) {p : MenuProduct}
    (hone : productsNamed B.lower row.name s.view = [p]) :
    Importing B d (before ++ [row]) (s.wrote [.product (row.over p)]) := by
  have hmem : ∀ q, q ∈ s.view.products.rows ∧ B.lower q.name = B.lower row.name ↔ q = p := by
    intro q
    have hq : q ∈ productsNamed B.lower row.name s.view ↔ q = p := by simp [hone]
    rw [← hq]
    simp [productsNamed, Table.mem_filter]
  obtain ⟨hp, hname⟩ := (hmem p).mpr rfl
  have hfind : s.view.products.find (row.over p).id = some p := Table.find_of_mem hp
  have hrows : (s.wrote [.product (row.over p)]).view.products.rows =
      s.view.products.rows.map ((productWriter B).write row) := by
    refine (Table.rows_put_of_find hfind).trans (List.map_congr_left fun q hq => ?_)
    by_cases hkey : B.lower q.name = B.lower row.name
    · obtain rfl := (hmem q).mp ⟨hq, hkey⟩
      exact (if_pos rfl).trans (if_pos hname).symm
    · have hne : q.id ≠ p.id := by
        intro hid
        have hsame := (Table.find_of_mem hq).symm.trans (hid ▸ Table.find_of_mem hp)
        exact hkey ((hmem q).mpr (Option.some.inj hsame)).2
      exact (if_neg hne).trans (if_neg hkey).symm
  refine ⟨h.failed, ?_, h.categories, ?_⟩
  · rw [hrows]
    exact .snoc h.run (.update hone)
  · intro q hq
    rw [hrows] at hq
    obtain ⟨q', hq', rfl⟩ := List.mem_map.mp hq
    have hsame : ((productWriter B).write row q').name = q'.name :=
      Upserts.Writer.name_write (W := productWriter B) row q'
    rw [hsame]
    exact h.names q' hq'

/-- A row whose name several products have is left out. -/
theorem skip (h : Importing B d before s)
    (hmany : 1 < (productsNamed B.lower row.name s.view).length) :
    Importing B d (before ++ [row]) s :=
  ⟨h.failed, .snoc h.run (.skip hmany), h.categories, h.names⟩

/-- One row: it is written when it can be stored, or skipped. -/
theorem importRow (h : Importing B d before s) (hE : ImportEngine E₀)
    (hcategory : hasCategory row.categoryId d = true)
    (hroom : productsNamed B.lower row.name d = [] →
      d.products.rows.length + before.length < 2 ^ 128) :
    ((∃ b s', (MenuImportTools.importRow B row.dump).Returns E₀ s b s') ↔
      Storable B d before row) ∧
    ∀ b s', (MenuImportTools.importRow B row.dump).Returns E₀ s b s' →
      b = !decide (Many B d row) ∧ Importing B d (before ++ [row]) s' := by
  have hcategory' : hasCategory row.categoryId s.view = true := by
    unfold hasCategory
    rw [h.categories]
    exact hcategory
  have hroom' (hfree : productsNamed B.lower row.name s.view = []) :
      s.view.products.rows.length < 2 ^ 128 :=
    Nat.lt_of_le_of_lt h.length_le (hroom (h.free_iff.mp hfree).1)
  have hreturns (b : Bool) (s' : Quiet MenuDatabase Unit) :
      (MenuImportTools.importRow B row.dump).Returns E₀ s b s' ↔ _ :=
    returns_importRow hE h.failed hcategory' h.names hroom'
  have hmany : 1 < (productsNamed B.lower row.name s.view).length ↔ Many B d row := h.many_iff
  have hfree : productsNamed B.lower row.name s.view = [] ↔ _ := h.free_iff
  simp only [hreturns]
  rcases hfound : productsNamed B.lower row.name s.view with _ | ⟨p, _ | ⟨q, rest⟩⟩
  · have hnot : ¬ Many B d row := by simp [← hmany, hfound]
    obtain ⟨hnone, hfirst⟩ := hfree.mp hfound
    constructor
    · constructor
      · rintro ⟨b, s', hname, hdump, hlength, -, -⟩
        exact ⟨hname, fun _ => hdump, fun _ _ => hlength⟩
      · intro hstore
        exact ⟨_, _, hstore.name, hstore.values hnot, hstore.length hnone hfirst, rfl, rfl⟩
    · rintro b s' ⟨-, -, hlength, rfl, rfl⟩
      refine ⟨by simp [hnot], h.insert hfound ?_ rfl rfl hlength⟩
      exact hE.fresh s.view (hroom' hfound)
  · have hnot : ¬ Many B d row := by simp [← hmany, hfound]
    constructor
    · constructor
      · rintro ⟨b, s', hname, hdump, -, -⟩
        refine ⟨hname, fun _ => hdump, fun hnone hfirst => ?_⟩
        have hnil := hfree.mpr ⟨hnone, hfirst⟩
        rw [hfound] at hnil
        cases hnil
      · intro hstore
        exact ⟨_, _, hstore.name, hstore.values hnot, rfl, rfl⟩
    · rintro b s' ⟨-, -, rfl, rfl⟩
      exact ⟨by simp [hnot], h.update hfound⟩
  · have hlong : 1 < (productsNamed B.lower row.name s.view).length := by simp [hfound]
    have hyes : Many B d row := hmany.mp hlong
    constructor
    · constructor
      · rintro ⟨b, s', hname, -, -⟩
        refine ⟨hname, fun hnot => absurd hyes hnot, fun hnone hfirst => ?_⟩
        have hnil := hfree.mpr ⟨hnone, hfirst⟩
        rw [hfound] at hnil
        cases hnil
      · intro hstore
        exact ⟨_, _, hstore.name, rfl, rfl⟩
    · rintro b s' ⟨-, rfl, rfl⟩
      exact ⟨by simp [hyes], h.skip hlong⟩

end Importing

/-! ## A batch -/

/-- What the tool returns of a batch: the number of rows it has written, and the names it
has skipped. -/
def batchResult (B : Backend) (d : MenuDatabase) (rows : List ProductRow) : Nat × List String :=
  (rows.countP fun row => !decide (Many B d row),
    (rows.filter fun row => decide (Many B d row)).map ProductRow.name)

theorem batchResult_cons (B : Backend) (d : MenuDatabase) (row : ProductRow)
    (rows : List ProductRow) :
    batchResult B d (row :: rows) =
      if Many B d row then ((batchResult B d rows).1, row.name :: (batchResult B d rows).2)
      else ((batchResult B d rows).1 + 1, (batchResult B d rows).2) := by
  by_cases h : Many B d row <;> simp [batchResult, h]

theorem writable_cons {rows : List ProductRow} :
    Writable B d before (row :: rows) ↔
      Storable B d before row ∧ Writable B d (before ++ [row]) rows :=
  forall_split_cons fun before row => Storable B d before row

/-- A batch: it is written when every row can be stored. -/
theorem Importing.applyMenuImport {rows : List ProductRow} (h : Importing B d before s)
    (hE : ImportEngine E₀) (hcategory : ∀ row ∈ rows, hasCategory row.categoryId d = true)
    (hroom : ∀ row ∈ rows, productsNamed B.lower row.name d = [] →
      d.products.rows.length + (before.length + rows.length) ≤ 2 ^ 128) :
    ((∃ r s', (MenuImportTools.applyMenuImport B (rows.map ProductRow.dump)).Returns E₀ s r s') ↔
      Writable B d before rows) ∧
    ∀ r s', (MenuImportTools.applyMenuImport B (rows.map ProductRow.dump)).Returns E₀ s r s' →
      r = batchResult B d rows ∧ Importing B d (before ++ rows) s' := by
  induction rows generalizing before s with
  | nil =>
      constructor
      · simp [MenuImportTools.applyMenuImport, Writable]
      · intro r s' hr
        simp only [List.map_nil, MenuImportTools.applyMenuImport, pure_eq, returns_ret] at hr
        obtain ⟨rfl, rfl⟩ := hr
        exact ⟨rfl, by simpa using h⟩
  | cons row rows ih =>
      rw [List.forall_mem_cons] at hcategory hroom
      obtain ⟨hiff, hrow⟩ := h.importRow hE hcategory.1 fun hnone => by
        have hle := hroom.1 hnone
        rw [List.length_cons] at hle
        omega
      have hrest : ∀ row' ∈ rows, productsNamed B.lower row'.name d = [] →
          d.products.rows.length + ((before ++ [row]).length + rows.length) ≤ 2 ^ 128 := by
        intro row' hmem hnone
        have hle := hroom.2 row' hmem hnone
        simp only [List.length_append, List.length_cons, List.length_nil] at hle ⊢
        omega
      simp only [List.map_cons, MenuImportTools.applyMenuImport, bind_eq, pure_eq,
        returns_andThen]
      constructor
      · rw [writable_cons, ← hiff]
        constructor
        · rintro ⟨r, s', b, s₁, hb, r', s₂, hr', -⟩
          obtain ⟨-, hs₁⟩ := hrow b s₁ hb
          exact ⟨⟨b, s₁, hb⟩, (ih hs₁ hcategory.2 hrest).1.mp ⟨r', s₂, hr'⟩⟩
        · rintro ⟨⟨b, s₁, hb⟩, hwritable⟩
          obtain ⟨-, hs₁⟩ := hrow b s₁ hb
          obtain ⟨r', s₂, hr'⟩ := (ih hs₁ hcategory.2 hrest).1.mpr hwritable
          exact ⟨_, _, b, s₁, hb, r', s₂, hr', returns_ret _ |>.mpr ⟨rfl, rfl⟩⟩
      · rintro r s' ⟨b, s₁, hb, r', s₂, hr', hr⟩
        obtain ⟨rfl, hs₁⟩ := hrow b s₁ hb
        obtain ⟨rfl, hs₂⟩ := (ih hs₁ hcategory.2 hrest).2 r' s₂ hr'
        simp only [returns_ret] at hr
        obtain ⟨rfl, rfl⟩ := hr
        refine ⟨?_, by simpa using hs₂⟩
        rw [batchResult_cons]
        by_cases hm : Many B d row <;> simp [hm, ProductRow.dump]

end MenuImportService

end Sieshka
