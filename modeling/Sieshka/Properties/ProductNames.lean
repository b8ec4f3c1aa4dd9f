import Sieshka.Specs.Menu

/-!
# Product names without a constraint

The name of a product is what the import and the menu agent find it by. The
agent's create and the import look a name up before they write it; the update
of a product writes a new name without a look at the other products.
-/

namespace Sieshka

open Transactions Prog MenuDatabase MenuAgentTools MenuImportTools

variable {B : Backend} {E₀ : Engine MenuDatabase MenuWrite} {d d' : MenuDatabase}

/-- No two products carry the same name, whatever its case. -/
def NamesDistinct (B : Backend) (d : MenuDatabase) : Prop :=
  d.products.Distinct fun p => B.lower p.name

/-- The name an update gives a product is carried by no other product. -/
def TakesFreeName (B : Backend) (d : MenuDatabase) (command : Json) : Prop :=
  ∀ fields name id, requiredUpdateProductFields command = some fields → fields.name = some name →
    B.readUuid fields.productId = some id →
    ∀ q ∈ d.products.rows, B.lower q.name = B.lower name → q.id = id

/-- The condition under which a call keeps product names apart. -/
def KeepsNames (B : Backend) (d : MenuDatabase) : MenuCommand → Prop
  | .applyUpdateProduct command => TakesFreeName B d command
  | _ => True

/-! ## One call -/

theorem ProductWritten.names (h : ProductWritten B d d') (hd : NamesDistinct B d) :
    NamesDistinct B d' := by
  obtain ⟨row, hrow, rfl⟩ := h
  exact Table.Distinct.put hd hrow

theorem names_of_written (h : Relation.ReflTransGen (ProductWritten B) d d')
    (hd : NamesDistinct B d) : NamesDistinct B d' := by
  induction h with
  | refl => exact hd
  | tail _ hstep ih => exact hstep.names ih

/-- An update keeps the names apart exactly when it takes no other product's name. -/
theorem names_of_update {fields : ProductUpdate} {categoryId : Option Uuid} {row : MenuProduct}
    (hd : NamesDistinct B d) (hrow : d.products.find row.id = some row) :
    NamesDistinct B { d with products := d.products.put (fields.apply categoryId row) } ↔
      ∀ name, fields.name = some name →
        ∀ q ∈ d.products.rows, B.lower q.name = B.lower name → q.id = row.id := by
  have hmem : row ∈ d.products.rows := Table.mem_rows_iff.mpr hrow
  constructor
  · intro h name hname q hq heq
    by_contra hne
    apply Table.not_distinct_put hq (r := fields.apply categoryId row) hne _ h
    simpa [ProductUpdate.apply, hname] using heq
  · intro h
    apply Table.Distinct.put hd
    intro q hq heq
    cases hname : fields.name with
    | none => exact hd q hq row hmem (by simpa [ProductUpdate.apply, hname] using heq)
    | some name => exact h name hname q hq (by simpa [ProductUpdate.apply, hname] using heq)

/-- A successful call keeps the names apart exactly when it takes no other product's
name. -/
theorem names_of_call {c : MenuCommand} (hd : NamesDistinct B d)
    (h : (c.tool B).Commits E₀ d d') : NamesDistinct B d' ↔ KeepsNames B d c := by
  obtain ⟨_, s', h, hd'⟩ := h.returns
  cases c with
  | applyMenu command =>
      simp only [MenuCommand.tool, bind_eq, pure_eq, returns_andThen, returns_ret] at h
      obtain ⟨c, _, h, -, rfl⟩ := h
      obtain ⟨hf, hw⟩ := applyMenuCommand_written rfl h
      obtain rfl := hd' hf
      simp only [KeepsNames, iff_true]
      exact hw.names hd
  | applyCategory command =>
      simp only [MenuCommand.tool, bind_eq, pure_eq, returns_andThen, returns_ret] at h
      obtain ⟨c, _, h, -, rfl⟩ := h
      obtain ⟨_, _, _, -, -, -, -, -, -, -, -, -, rfl, -⟩ := (returns_applyCategoryCommand rfl).mp h
      obtain rfl := hd' rfl
      simp only [KeepsNames, iff_true]
      exact hd
  | applyUpdateProduct command =>
      simp only [MenuCommand.tool, bind_eq, pure_eq, returns_andThen, returns_ret] at h
      obtain ⟨t, _, h, -, rfl⟩ := h
      obtain ⟨fields, id, row, categoryId, hfields, hid, hrow, -, -, -, -, -, -, rfl, -⟩ :=
        (returns_applyUpdateProductCommand rfl).mp h
      obtain rfl := hd' rfl
      obtain rfl : row.id = id := (Table.find_some hrow).2
      refine Iff.trans (names_of_update hd hrow) ?_
      simp only [KeepsNames, TakesFreeName, hfields, Option.some.injEq]
      constructor
      · rintro h _ name id rfl hname hid'
        obtain rfl := Option.some.inj (hid.symm.trans hid')
        exact h name hname
      · intro h name hname
        exact h fields name row.id rfl hname hid
  | applyUpdateCategory command =>
      simp only [MenuCommand.tool, bind_eq, pure_eq, returns_andThen, returns_ret] at h
      obtain ⟨c, _, h, -, rfl⟩ := h
      obtain ⟨_, _, _, -, -, -, -, -, -, -, -, -, -, rfl⟩ :=
        (returns_applyUpdateCategoryCommand rfl).mp h
      obtain rfl := hd' rfl
      simp only [KeepsNames, iff_true]
      exact hd
  | applyMenuImport rows =>
      simp only [MenuCommand.tool, bind_eq, pure_eq, returns_andThen, returns_ret] at h
      obtain ⟨c, _, h, -, rfl⟩ := h
      obtain ⟨hf, hw⟩ := applyMenuImport_written h
      obtain rfl := hd' hf
      simp only [KeepsNames, iff_true]
      exact names_of_written hw hd

/-! ## Any number of calls -/

/-- Product names stay distinct through successful calls of the menu tools exactly
when no product update takes the name of another product. -/
theorem product_names_stay_distinct {history : List (MenuDatabase × MenuCommand)}
    (hd : NamesDistinct B d) (h : Sequence (MenuCommand.tool B) d history d') :
    ((∀ p ∈ history, NamesDistinct B p.1) ∧ NamesDistinct B d') ↔
      ∀ p ∈ history, KeepsNames B p.1 p.2 :=
  Sequence.iff_of_call (fun _ _ _ _ _ _ => trivial) (fun _ _ _ _ _ hd h => names_of_call hd h) trivial hd h

instance (B : Backend) (d : MenuDatabase) : Decidable (NamesDistinct B d) :=
  inferInstanceAs (Decidable (d.products.Distinct _))

/-- Products without a category. -/
def sampleProduct (id : Uuid) (name : String) : MenuProduct where
  id
  name
  categoryId := none
  timePeriodOverride := none
  priceRub := some 300
  description := none
  imageUrl := none
  isActive := true
  sku := none
  sort := 0

/-- Two products under two names. -/
def sampleMenu : MenuDatabase where
  categories := .empty
  products := (Table.empty.put (sampleProduct 1 "Borscht")).put (sampleProduct 2 "Ukha")

/-- The id of the second product. -/
def secondId : String := "00000000-0000-0000-0000-000000000002"

/-- An update of the name of the second product. -/
def renameSecond (name : String) : Json :=
  .obj [("product_id", .str secondId), ("name", .str name)]

/-- The fields of the update. -/
def renameFields (name : String) : ProductUpdate :=
  ⟨secondId, some name, none, none, none, none, none, none, none⟩

/-- The products after the update. -/
def renamedMenu (name : String) : MenuDatabase :=
  { sampleMenu with products := sampleMenu.products.put (sampleProduct 2 name) }

theorem read_renameSecond {name : String} (hne : name ≠ "") (hname : strip name = name) :
    requiredUpdateProductFields (renameSecond name) = some (renameFields name) := by
  have hid : secondId ≠ "" := by decide
  have hstrip : strip secondId = secondId := by decide +kernel
  simp [renameSecond, renameFields, requiredUpdateProductFields, Json.get, Json.text?,
    Json.optional, isActiveField, hid, hstrip, hne, hname]

/-- The update is accepted, whatever the name. -/
theorem sequence_rename {name : String} (hne : name ≠ "") (hname : strip name = name)
    (hstorable : storable name = true) :
    Sequence (MenuCommand.tool asciiBackend) sampleMenu
      [(sampleMenu, .applyUpdateProduct (renameSecond name))] (renamedMenu name) := by
  have hid : readUuid secondId = some 2 := by decide +kernel
  have hreturns : (applyUpdateProductCommand asciiBackend (renameSecond name)).Returns
      { supply := fun _ => 3 } (Quiet.start sampleMenu ()) secondId
      ⟨sampleMenu, renamedMenu name, (), false⟩ :=
    (returns_applyUpdateProductCommand rfl).mpr
      ⟨renameFields name, 2, sampleProduct 2 "Ukha", none, read_renameSecond hne hname, hid,
        by decide +kernel, rfl, rfl, rfl, by simp [renameFields],
        by simp [ProductUpdate.fits, renameFields, hstorable], rfl, rfl, rfl⟩
  have htool : (MenuCommand.tool asciiBackend (.applyUpdateProduct (renameSecond name))).Returns
      { supply := fun _ => 3 } (Quiet.start sampleMenu ()) ()
      ⟨sampleMenu, renamedMenu name, (), false⟩ := by
    simp only [MenuCommand.tool, bind_eq, pure_eq, returns_andThen, returns_ret]
    exact ⟨_, _, hreturns, trivial, rfl⟩
  exact .call { supply := fun _ => 3 } .nil (.of_returns htool rfl)

/-- The second product is given the name of the first, in other case. -/
theorem product_renamed_to_another :
    ¬ ∀ (B : Backend) d d' history, NamesDistinct B d →
      Sequence (MenuCommand.tool B) d history d' → NamesDistinct B d' := by
  intro hall
  have hdistinct := hall asciiBackend sampleMenu (renamedMenu "BORSCHT") _ (by decide +kernel)
    (sequence_rename (by decide) (by decide +kernel) (by decide +kernel))
  revert hdistinct
  decide +kernel

/-- The second product is given a name of its own. -/
theorem product_names_stay_distinct_renamed :
    KeepsNames asciiBackend sampleMenu (.applyUpdateProduct (renameSecond "Solyanka")) := by
  have hrun : Sequence (MenuCommand.tool asciiBackend) sampleMenu
      [(sampleMenu, .applyUpdateProduct (renameSecond "Solyanka"))] (renamedMenu "Solyanka") :=
    sequence_rename (by decide) (by decide +kernel) (by decide +kernel)
  have hdistinct : NamesDistinct asciiBackend sampleMenu := by decide +kernel
  have hrenamed : NamesDistinct asciiBackend (renamedMenu "Solyanka") := by decide +kernel
  have hkeeps := (product_names_stay_distinct hdistinct hrun).mp
    ⟨by simpa using hdistinct, hrenamed⟩
  exact hkeeps _ List.mem_cons_self

end Sieshka
