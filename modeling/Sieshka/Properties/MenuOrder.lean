import Sieshka.Web.MenuAdmin
import Sieshka.Specs.Menu

/-!
# The order of the menu as it is moved

A press of an arrow stores the order that is shown with one pair exchanged, or leaves an
error over the list that is stored, exactly when none of its requests is accepted before
another is refused.
-/

namespace Sieshka

open Transactions Prog Renumbering Ranking MenuAgentTools

namespace MenuAdmin

/-! ## The specification -/

/-- A press of an arrow, and what comes of the requests of the rows. -/
inductive Press
  | category (idx : ℕ) (direction : Direction) (outcome : Uuid → PatchOutcome)
  | product (productCategoryFilter : String) (idx : ℕ) (direction : Direction)
      (outcome : Uuid → PatchOutcome)

section

variable (C : Collations)

/-- The page and the database after a press. -/
def pressed (st : Admin) : Press → Admin
  | .category idx direction outcome => moveCategory C st idx direction outcome
  | .product filter idx direction outcome => moveProduct C st filter idx direction outcome

/-- After a press without an error the order in the database is the displayed one with the
moved pair exchanged; after one with an error the displayed list is that of the database. -/
def Agrees (st : Admin) : Press → Prop
  | .category idx direction outcome =>
      ∀ newOrder, exchanged st.categoriesFull idx direction = some newOrder →
        match (moveCategory C st idx direction outcome).categoryReorderError with
        | none => categoryRanking.InOrder
            (categoryViews (moveCategory C st idx direction outcome).db)
            (newOrder.map CategoryView.id)
        | some _ => (moveCategory C st idx direction outcome).categoriesFull =
            fetchCategoriesFull C (moveCategory C st idx direction outcome).db
  | .product filter idx direction outcome => filter ≠ "" →
      ∀ newOrder, exchanged (filteredProducts C filter st.products) idx direction = some newOrder →
        match (moveProduct C st filter idx direction outcome).productReorderError with
        | none => productRanking.InOrder
            (inCategory filter
              (loadProductAdminRows C (moveProduct C st filter idx direction outcome).db))
            (newOrder.map ProductView.id)
        | some _ =>
            filteredProducts C filter (moveProduct C st filter idx direction outcome).products =
              filteredProducts C filter
                (loadProductAdminRows C (moveProduct C st filter idx direction outcome).db)

/-- Every press of a series agrees with the database. -/
def AllAgree (st : Admin) : List Press → Prop
  | [] => True
  | press :: rest => Agrees C st press ∧ AllAgree (pressed C st press) rest

/-- No request of the press is accepted before one is refused. -/
def Whole (st : Admin) : Press → Prop
  | .category idx direction outcome =>
      ∀ newOrder, exchanged st.categoriesFull idx direction = some newOrder →
        categoryRanking.AllOrNone (fun c => (outcome c.id).refusal c.name) newOrder
  | .product filter idx direction outcome => filter ≠ "" →
      ∀ newOrder, exchanged (filteredProducts C filter st.products) idx direction = some newOrder →
        productRanking.AllOrNone (fun p => (outcome p.id).refusal p.name) newOrder

/-- No press of a series has a request accepted before one is refused. -/
def AllWhole (st : Admin) : List Press → Prop
  | [] => True
  | press :: rest => Whole C st press ∧ AllWhole (pressed C st press) rest

/-- The page shows what is stored. -/
structure Mirrors (st : Admin) : Prop where
  categoriesFull : st.categoriesFull = fetchCategoriesFull C st.db
  products : st.products = loadProductAdminRows C st.db

end

/-! ## Exchanging and sorting -/

theorem exchanged_perm {Row : Type} {order newOrder : List Row} {idx : ℕ}
    {direction : Direction} (h : exchanged order idx direction = some newOrder) :
    newOrder.Perm order := by
  obtain ⟨targetIdx, -, h⟩ := Option.bind_eq_some_iff.mp h
  obtain ⟨a, ha, h⟩ := Option.bind_eq_some_iff.mp h
  obtain ⟨b, hb, h⟩ := Option.bind_eq_some_iff.mp h
  obtain rfl := Option.some.inj h
  obtain ⟨hidx, rfl⟩ := List.getElem?_eq_some_iff.mp ha
  obtain ⟨htarget, rfl⟩ := List.getElem?_eq_some_iff.mp hb
  exact List.set_set_perm hidx htarget

theorem fetches_sortCategories (C : Collations) :
    categoryRanking.Fetches (sortCategories C) := by
  constructor
  · intro rows
    exact (List.perm_insertionSort _ _).trans (List.perm_insertionSort _ _)
  · intro rows
    exact List.pairwise_insertionSort (fun a b : CategoryView => a.sort ≤ b.sort) _

theorem fetches_sortProducts (C : Collations) : productRanking.Fetches (sortProducts C) := by
  constructor
  · intro rows
    exact (List.perm_insertionSort _ _).trans (List.perm_insertionSort _ _)
  · intro rows
    exact List.pairwise_insertionSort (fun a b : ProductView => a.sort ≤ b.sort) _

/-! ## One request -/

/-- Setting the rank of a stored row sets that of its view. -/
theorem map_put_rank {Row View : Type} (K : Ranking View Uuid) {key : Row → Uuid}
    {view : Row → View} {set : Row → Row} {k : Uuid} {n : Int} (t : Table key)
    (hkey : ∀ row, K.key (view row) = key row) (hset : ∀ row, key (set row) = key row)
    (hview : ∀ row, view (set row) = K.setRank n (view row)) :
    ((t.find k).elim t fun row => t.put (set row)).rows.map view =
      K.write k n (t.rows.map view) := by
  rw [write, List.map_map]
  cases hrow : t.find k with
  | none =>
      apply List.map_congr_left
      intro row hmem
      rw [Function.comp_apply, hkey, if_neg]
      intro hid
      exact Table.find_eq_none.mp hrow row hmem hid
  | some row =>
      obtain ⟨-, rfl⟩ := Table.find_some hrow
      have hput : t.find (key (set row)) = some row := by rw [hset, hrow]
      rw [Option.elim_some, Table.rows_put_of_find hput, List.map_map]
      apply List.map_congr_left
      intro other hmem
      rw [Function.comp_apply, Function.comp_apply, hset, hkey]
      by_cases hid : key other = key row
      · rw [if_pos hid, if_pos hid]
        have hother := Table.find_of_mem hmem
        rw [hid, hrow] at hother
        obtain rfl := Option.some.inj hother
        exact hview row
      · rw [if_neg hid, if_neg hid]

section Patch

variable (d : MenuDatabase) (id : Uuid) (n : Int)

/-- A category keeps its name. -/
theorem category_name_patch (other : Uuid) :
    ((patchCategorySort d id n).categories.find other).map Category.name =
      (d.categories.find other).map Category.name := by
  rw [patchCategorySort]
  cases hrow : d.categories.find id with
  | none => rfl
  | some row =>
      obtain ⟨-, rfl⟩ := Table.find_some hrow
      dsimp only
      rw [Table.find_put]
      split_ifs with hid
      · rw [← hid, hrow]
        rfl
      · rfl

theorem categoryViews_patch : categoryViews (patchCategorySort d id n) =
    categoryRanking.write id n (categoryViews d) := by
  have hview : ∀ row, categoryView (patchCategorySort d id n) row = categoryView d row := by
    intro row
    simp only [categoryView, category_name_patch]
  have hrows : (patchCategorySort d id n).categories =
      (d.categories.find id).elim d.categories fun row =>
        d.categories.put { row with sort := n } := by
    rw [patchCategorySort]
    cases d.categories.find id <;> rfl
  rw [categoryViews, funext hview, hrows]
  exact map_put_rank categoryRanking d.categories (fun _ => rfl) (fun _ => rfl) fun _ => rfl

theorem loadProductAdminRows_patchCategory (C : Collations) :
    loadProductAdminRows C (patchCategorySort d id n) = loadProductAdminRows C d := by
  have hview : ∀ row, productView (patchCategorySort d id n) row = productView d row := by
    intro row
    simp only [productView, category_name_patch]
  have hrows : (patchCategorySort d id n).products = d.products := by
    rw [patchCategorySort]
    cases d.categories.find id <;> rfl
  rw [loadProductAdminRows, funext hview, hrows]
  rfl

theorem patchProductSort_categories : (patchProductSort d id n).categories = d.categories := by
  rw [patchProductSort]
  cases d.products.find id <;> rfl

theorem fetchCategoriesFull_patchProduct (C : Collations) :
    fetchCategoriesFull C (patchProductSort d id n) = fetchCategoriesFull C d := by
  have hview : ∀ row, categoryView (patchProductSort d id n) row = categoryView d row := by
    intro row
    simp only [categoryView, patchProductSort_categories]
  rw [fetchCategoriesFull, categoryViews, funext hview, patchProductSort_categories]
  rfl

theorem productRows_patch : (patchProductSort d id n).products.rows.map
    (productView (patchProductSort d id n)) =
      productRanking.write id n (d.products.rows.map (productView d)) := by
  have hview : ∀ row, productView (patchProductSort d id n) row = productView d row := by
    intro row
    simp only [productView, patchProductSort_categories]
  have hrows : (patchProductSort d id n).products =
      (d.products.find id).elim d.products fun row => d.products.put { row with sort := n } := by
    rw [patchProductSort]
    cases d.products.find id <;> rfl
  rw [funext hview, hrows]
  exact map_put_rank productRanking d.products (fun _ => rfl) (fun _ => rfl) fun _ => rfl

/-- The products of a category are shown with the new rank. -/
theorem inCategory_patch (C : Collations) (filter : String) :
    inCategory filter (loadProductAdminRows C (patchProductSort d id n)) =
      productRanking.write id n (inCategory filter (loadProductAdminRows C d)) := by
  have hload : loadProductAdminRows C (patchProductSort d id n) =
      productRanking.write id n (loadProductAdminRows C d) := by
    rw [loadProductAdminRows, productRows_patch, loadProductAdminRows, write, write]
    symm
    apply List.map_insertionSort
    intro a _ b _
    have hname : ∀ p : ProductView, (if productRanking.key p = id then
        productRanking.setRank n p else p).name = p.name := by
      intro p
      split_ifs <;> rfl
    rw [hname, hname]
  rw [hload, inCategory, write, List.filter_map, write]
  congr 1
  apply List.filter_congr
  intro p _
  rw [Function.comp_apply]
  split_ifs <;> rfl

end Patch

/-! ## The tools behind the requests -/

section Tools

variable {B : Backend} {E₀ : Engine MenuDatabase MenuWrite} {d d' : MenuDatabase} {command : Json}
  {id : Uuid} {n : Int}

/-- The tool that a `PATCH` of a category's `sort` runs, when it commits. -/
theorem patchCategorySort_of_commits
    (hfields : requiredUpdateCategoryFields command = some
      { categoryId := id, name := none, parentCategory := none, timePeriod := none,
        fulfillmentScope := none, sort := some n, isActive := none })
    (h : ((MenuCommand.applyUpdateCategory command).tool B).Commits E₀ d d') :
    d' = patchCategorySort d id n := by
  obtain ⟨_, s', h, hd'⟩ := h.returns
  simp only [MenuCommand.tool, bind_eq, pure_eq, returns_andThen, returns_ret] at h
  obtain ⟨_, _, h, -, rfl⟩ := h
  obtain ⟨fields, row, parentId, hsome, rfl, hrow, -, -, -, hparent, -, -, -, rfl⟩ :=
    (returns_applyUpdateCategoryCommand rfl).mp h
  obtain rfl := Option.some.inj (hfields.symm.trans hsome)
  obtain rfl : parentId = none := hparent
  have hstored : d.categories.find id = some row := hrow
  rw [← hd' rfl, patchCategorySort, hstored]
  rfl

/-- The tool that a `PATCH` of a product's `sort` runs, when it commits. -/
theorem patchProductSort_of_commits {productId : String} (hid : B.readUuid productId = some id)
    (hfields : requiredUpdateProductFields command = some
      { productId, name := none, category := none, priceRub := none, description := none,
        imageUrl := none, isActive := none, sku := none, sort := some n })
    (h : ((MenuCommand.applyUpdateProduct command).tool B).Commits E₀ d d') :
    d' = patchProductSort d id n := by
  obtain ⟨_, s', h, hd'⟩ := h.returns
  simp only [MenuCommand.tool, bind_eq, pure_eq, returns_andThen, returns_ret] at h
  obtain ⟨_, _, h, -, rfl⟩ := h
  obtain ⟨fields, id', row, categoryId, hsome, hread, hrow, -, hcategory, -, -, -, -, rfl, -⟩ :=
    (returns_applyUpdateProductCommand rfl).mp h
  obtain rfl := Option.some.inj (hfields.symm.trans hsome)
  obtain rfl : id' = id := Option.some.inj (hread.symm.trans hid)
  obtain rfl : categoryId = none := hcategory
  have hstored : d.products.find id' = some row := hrow
  rw [← hd' rfl, patchProductSort, hstored]
  rfl

end Tools

/-! ## One press -/

section Press

variable {C : Collations} {st : Admin}

theorem nodup_categoryViews (d : MenuDatabase) :
    ((categoryViews d).map categoryRanking.key).Nodup := by
  rw [categoryViews, List.map_map]
  exact d.categories.nodup

theorem nodup_inCategory (C : Collations) (filter : String) (d : MenuDatabase) :
    ((inCategory filter (loadProductAdminRows C d)).map productRanking.key).Nodup := by
  have hrows : ((loadProductAdminRows C d).map productRanking.key).Nodup := by
    rw [loadProductAdminRows, ((List.perm_insertionSort _ _).map _).nodup_iff, List.map_map]
    exact d.products.nodup
  exact hrows.sublist (List.filter_sublist.map _)

/-- The loop of `moveCategory` over a new order. -/
abbrev categoryLoop (C : Collations) (st : Admin) (outcome : Uuid → PatchOutcome)
    (newOrder : List CategoryView) : Option String × MenuDatabase × Option CategoryAnswer :=
  categoryRanking.renumber patchCategorySort (answerCategory C)
    (fun c => (outcome c.id).refusal c.name) 0 newOrder st.db none

/-- The loop of `moveProduct` over a new order. -/
abbrev productLoop (C : Collations) (st : Admin) (outcome : Uuid → PatchOutcome)
    (newOrder : List ProductView) : Option String × MenuDatabase × Option (List ProductView) :=
  productRanking.renumber patchProductSort (loadProductAdminRows C)
    (fun p => (outcome p.id).refusal p.name) 0 newOrder st.db none

theorem moveCategory_eq {idx : ℕ} {direction : Direction} {newOrder : List CategoryView}
    (h : exchanged st.categoriesFull idx direction = some newOrder)
    (outcome : Uuid → PatchOutcome) :
    (moveCategory C st idx direction outcome).categoryReorderError =
        (categoryLoop C st outcome newOrder).1 ∧
      (moveCategory C st idx direction outcome).db = (categoryLoop C st outcome newOrder).2.1 ∧
      (moveCategory C st idx direction outcome).products = st.products ∧
      (moveCategory C st idx direction outcome).categoriesFull =
        match categoryLoop C st outcome newOrder with
        | (none, _, some latest) => latest.categoriesFull
        | _ => st.categoriesFull := by
  unfold categoryLoop
  rw [moveCategory, h]
  dsimp only
  generalize categoryRanking.renumber patchCategorySort (answerCategory C)
    (fun c => (outcome c.id).refusal c.name) 0 newOrder st.db none = result
  rcases result with ⟨_ | error, db, _ | latest⟩
  · exact ⟨rfl, rfl, rfl, rfl⟩
  · exact ⟨rfl, rfl, rfl, rfl⟩
  · exact ⟨rfl, rfl, rfl, rfl⟩
  · exact ⟨rfl, rfl, rfl, rfl⟩

theorem moveProduct_eq {filter : String} (hfilter : filter ≠ "") {idx : ℕ}
    {direction : Direction} {newOrder : List ProductView}
    (h : exchanged (filteredProducts C filter st.products) idx direction = some newOrder)
    (outcome : Uuid → PatchOutcome) :
    (moveProduct C st filter idx direction outcome).productReorderError =
        (productLoop C st outcome newOrder).1 ∧
      (moveProduct C st filter idx direction outcome).db =
        (productLoop C st outcome newOrder).2.1 ∧
      (moveProduct C st filter idx direction outcome).categoriesFull = st.categoriesFull ∧
      (moveProduct C st filter idx direction outcome).products =
        match productLoop C st outcome newOrder with
        | (none, _, some products) => products
        | _ => st.products := by
  unfold productLoop
  rw [moveProduct, if_neg hfilter, h]
  dsimp only
  generalize productRanking.renumber patchProductSort (loadProductAdminRows C)
    (fun p => (outcome p.id).refusal p.name) 0 newOrder st.db none = result
  rcases result with ⟨_ | error, db, _ | latest⟩
  · exact ⟨rfl, rfl, rfl, rfl⟩
  · exact ⟨rfl, rfl, rfl, rfl⟩
  · exact ⟨rfl, rfl, rfl, rfl⟩
  · exact ⟨rfl, rfl, rfl, rfl⟩

/-- A press over a page that shows what is stored agrees with the database exactly when no
request is accepted before one is refused. -/
theorem agrees_iff (h : Mirrors C st) (press : Press) : Agrees C st press ↔ Whole C st press := by
  cases press with
  | category idx direction outcome =>
      rw [Agrees, Whole]
      apply forall_congr'
      intro newOrder
      apply imp_congr_right
      intro horder
      obtain ⟨herror, hdb, -, hshown⟩ := moveCategory_eq (C := C) horder outcome
      have hiff : categoryRanking.Achieves (sortCategories C) categoryViews st.categoriesFull
          newOrder (categoryLoop C st outcome newOrder) ↔ _ :=
        achieves_iff (fetches_sortCategories C) categoryViews_patch (nodup_categoryViews st.db)
          h.categoriesFull (exchanged_perm horder)
      rw [← hiff, Achieves, herror, hdb, hshown]
      cases hloop : (categoryLoop C st outcome newOrder).1 with
      | none => exact Iff.rfl
      | some error =>
          have heq : categoryLoop C st outcome newOrder =
              (some error, (categoryLoop C st outcome newOrder).2) := by
            rw [← hloop]
          rw [heq]
          exact Iff.rfl
  | product filter idx direction outcome =>
      rw [Agrees, Whole]
      apply forall_congr'
      intro hfilter
      apply forall_congr'
      intro newOrder
      apply imp_congr_right
      intro horder
      obtain ⟨herror, hdb, -, hshown⟩ := moveProduct_eq (C := C) hfilter horder outcome
      have hview : filteredProducts C filter st.products =
          sortProducts C (inCategory filter (loadProductAdminRows C st.db)) := by
        rw [filteredProducts, h.products]
      have hiff : productRanking.Achieves (sortProducts C)
          (fun d => inCategory filter (loadProductAdminRows C d))
          (filteredProducts C filter st.products) newOrder
          (productLoop C st outcome newOrder) ↔ _ :=
        achieves_iff (fetches_sortProducts C) (fun d id n => inCategory_patch d id n C filter)
          (nodup_inCategory C filter st.db) hview (exchanged_perm horder)
      rw [← hiff, Achieves, herror, hdb, hshown]
      cases hloop : (productLoop C st outcome newOrder).1 with
      | none => exact Iff.rfl
      | some error =>
          have heq : productLoop C st outcome newOrder =
              (some error, (productLoop C st outcome newOrder).2) := by
            rw [← hloop]
          rw [heq]
          exact Iff.rfl

/-- After a press that agrees with the database the page still shows what is stored. -/
theorem Mirrors.pressed (h : Mirrors C st) {press : Press} (hwhole : Whole C st press) :
    Mirrors C (pressed C st press) := by
  cases press with
  | category idx direction outcome =>
      cases horder : exchanged st.categoriesFull idx direction with
      | none =>
          have hsame : moveCategory C st idx direction outcome = st := by
            rw [moveCategory, horder]
          rwa [MenuAdmin.pressed, hsame]
      | some newOrder =>
          obtain ⟨-, hdb, hproducts, hshown⟩ := moveCategory_eq (C := C) horder outcome
          have hkept : loadProductAdminRows C (categoryLoop C st outcome newOrder).2.1 =
              loadProductAdminRows C st.db :=
            renumber_invariant (loadProductAdminRows C) fun d id n =>
              loadProductAdminRows_patchCategory d id n C
          constructor
          · rw [MenuAdmin.pressed, hshown, hdb]
            have hloop : (∃ d', categoryLoop C st outcome newOrder =
                (none, d', some (answerCategory C d'))) ∨
                ∃ error, categoryLoop C st outcome newOrder = (error, st.db, none) :=
              answered_or_same (hwhole newOrder horder)
            rcases hloop with ⟨d', hloop⟩ | ⟨error, hloop⟩
            · rw [hloop]
              rfl
            · rw [hloop]
              cases error <;> exact h.categoriesFull
          · rw [MenuAdmin.pressed, hproducts, hdb, hkept, h.products]
  | product filter idx direction outcome =>
      by_cases hfilter : filter = ""
      · have hsame : moveProduct C st filter idx direction outcome = st := by
          rw [moveProduct, if_pos hfilter]
        rwa [MenuAdmin.pressed, hsame]
      · cases horder : exchanged (filteredProducts C filter st.products) idx direction with
        | none =>
            have hsame : moveProduct C st filter idx direction outcome = st := by
              rw [moveProduct, if_neg hfilter, horder]
            rwa [MenuAdmin.pressed, hsame]
        | some newOrder =>
            obtain ⟨-, hdb, hcategories, hshown⟩ := moveProduct_eq (C := C) hfilter horder outcome
            have hkept : fetchCategoriesFull C (productLoop C st outcome newOrder).2.1 =
                fetchCategoriesFull C st.db :=
              renumber_invariant (fetchCategoriesFull C) fun d id n =>
                fetchCategoriesFull_patchProduct d id n C
            constructor
            · rw [MenuAdmin.pressed, hcategories, hdb, hkept, h.categoriesFull]
            · rw [MenuAdmin.pressed, hshown, hdb]
              have hloop : (∃ d', productLoop C st outcome newOrder =
                  (none, d', some (loadProductAdminRows C d'))) ∨
                  ∃ error, productLoop C st outcome newOrder = (error, st.db, none) :=
                answered_or_same (hwhole hfilter newOrder horder)
              rcases hloop with ⟨d', hloop⟩ | ⟨error, hloop⟩
              · rw [hloop]
              · rw [hloop]
                cases error <;> exact h.products

end Press

/-! ## A series of presses -/

/-- Every press of a series on a page that was opened agrees with the database exactly when
in none of them a request is accepted before one is refused. -/
theorem presses_agree_iff (C : Collations) (d : MenuDatabase) (presses : List Press) :
    AllAgree C (opened C d) presses ↔ AllWhole C (opened C d) presses := by
  have hmirrors : ∀ st, Mirrors C st → (AllAgree C st presses ↔ AllWhole C st presses) := by
    induction presses with
    | nil => exact fun _ _ => Iff.rfl
    | cons press rest ih =>
        intro st h
        rw [AllAgree, AllWhole, agrees_iff h]
        apply and_congr_right
        intro hwhole
        exact ih _ (h.pressed hwhole)
  exact hmirrors (opened C d) ⟨rfl, rfl⟩

/-! ## A press that is half refused -/

/-- Soups, mains and sweets, in this order. -/
def threeCategories : MenuDatabase where
  categories :=
    ((Table.empty.put ⟨1, "Soups", none, .both, .both, 5, true, none⟩).put
      ⟨2, "Mains", none, .both, .both, 6, true, none⟩).put
      ⟨3, "Sweets", none, .both, .both, 7, true, none⟩
  products := .empty

/-- The names in the order of their code points. -/
def plainCollations : Collations where
  server a b := a ≤ b
  client a b := a ≤ b

/-- The request for the soups is refused. -/
def soupsRefused (id : Uuid) : PatchOutcome := if id = 1 then .rejected none else .accepted

/-- The mains are moved up: they are stored as the first, the soups are refused, and the page
still shows the soups as the first. -/
theorem half_refused_press :
    ¬ AllAgree plainCollations (opened plainCollations threeCategories)
      [.category 1 .up soupsRefused] := by
  rintro ⟨hagrees, -⟩
  obtain ⟨newOrder, horder⟩ : ∃ newOrder, exchanged
      (opened plainCollations threeCategories).categoriesFull 1 .up = some newOrder :=
    ⟨_, rfl⟩
  have hpress := hagrees newOrder horder
  have herror : (moveCategory plainCollations (opened plainCollations threeCategories) 1 .up
      soupsRefused).categoryReorderError =
        some "Rejected reordering 'Soups': validation failed" := by
    decide +kernel
  rw [herror] at hpress
  have hstale : (moveCategory plainCollations (opened plainCollations threeCategories) 1 .up
      soupsRefused).categoriesFull ≠ fetchCategoriesFull plainCollations
        (moveCategory plainCollations (opened plainCollations threeCategories) 1 .up
          soupsRefused).db := by
    decide +kernel
  exact hstale hpress

end MenuAdmin

end Sieshka
