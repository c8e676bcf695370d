import Qiki.Arithmetic.FixedPoint
import Qiki.Chat.PriceAnswers
import Qiki.Data.Patch
import Qiki.Data.Stages
import Qiki.Orders.CheckoutPayload

/-! `update_product`: a partial payload is checked on its own, the row is written, and the answer
checks the new row once more. -/
namespace Qiki.Catalog

open Unicode Regex Rounding Orders

inductive ProductUnit
  | kg | lit
  deriving DecidableEq, Repr

/-- What a payload is read with: the properties of characters, the upper case of each, and `HttpUrl`,
which checks an address and gives it its normal form. -/
structure ProductReader where
  db : Database
  upper : Char → Text
  url : String → Option String

/-- A row of `products`. -/
structure ProductRow where
  id : Uuid
  sku : String
  name : String
  brand : String
  sizeKg : Decimal
  category : Category
  unit : ProductUnit
  price : Decimal
  salePrice : Option Decimal := none
  stockQuantity : ℤ
  description : Option String := none
  longDescription : Option String := none
  imageUrl : Option String := none
  safetyInfo : Option String := none
  pricingNote : Option String := none
  isActive : Bool
  parentId : Option Uuid := none
  colour : Option String := none
  variantLabel : Option String := none
  deriving DecidableEq, Repr

structure ProductUpdate where
  sku : Patch String := .unset
  name : Patch String := .unset
  brand : Patch String := .unset
  sizeKg : Patch Decimal := .unset
  category : Patch Category := .unset
  unit : Patch ProductUnit := .unset
  price : Patch Decimal := .unset
  salePrice : Patch Decimal := .unset
  stockQuantity : Patch ℤ := .unset
  description : Patch String := .unset
  longDescription : Patch String := .unset
  imageUrl : Patch String := .unset
  safetyInfo : Patch String := .unset
  pricingNote : Patch String := .unset
  isActive : Patch Bool := .unset
  parentId : Patch Uuid := .unset
  colour : Patch String := .unset
  variantLabel : Patch String := .unset
  deriving DecidableEq, Repr

/-! The rules of the fields. -/

/-- `SKU_PATTERN`: `^[A-Z0-9-]+$` -/
def skuPattern : Regex :=
  seq (plus (oneOf false [.range 'A' 'Z', .range '0' '9', .char '-'])) finish

def normalizeSku (r : ProductReader) (value : String) : Except String String :=
  let normalized := Text.strip r.db.space (value.toList.flatMap r.upper)
  if (matchStart ⟨r.db, false⟩ skuPattern normalized).isSome then .ok (String.ofList normalized)
  else .error "sku must contain only uppercase letters, numbers, and dashes"

/-! What the validators put in place of the values. -/

def ProductReader.storedSku (r : ProductReader) (s : String) : String :=
  (normalizeSku r s).toOption.getD s

def ProductReader.storedUrl (r : ProductReader) (url : String) : String := (r.url url).getD url

def validateGasSize (value : Option Decimal) (category : Category) : Except String Unit :=
  if category = .gas ∧ value.any (!Chat.allowedSizes.contains ·) then
    .error "size_kg must be one of 6, 12, or 45"
  else .ok ()

def validateSalePrice (salePrice price : Option Decimal) : Except String Unit :=
  match salePrice with
  | none => .ok ()
  | some sale =>
    if sale ≤ 0 then .error "sale_price must be greater than 0"
    else if price.any (· ≤ sale) then .error "sale_price must be less than the list price"
    else .ok ()

/-- `validate_product_category`, with the category that the model assumes. -/
def validateProductCategory (sizeKg : Option Decimal) (category : Category)
    (pricingNote : Option String) (salePrice price : Option Decimal) : Except String Unit := do
  validateGasSize sizeKg category
  if category = .gas ∧ pricingNote.any (· ≠ "") then
    throw "pricing_note is only supported for nuoc_uong products"
  validateSalePrice salePrice price

/-- The fields that `ProductCreate` checks; a required one is missing when it is `none`. -/
structure ProductFields where
  sku : Option String
  name : Option String
  brand : Option String
  sizeKg : Option Decimal
  category : Option Category
  unit : Option ProductUnit
  price : Option Decimal
  salePrice : Option Decimal
  stockQuantity : Option ℤ
  imageUrl : Option String
  pricingNote : Option String
  colour : Option String
  variantLabel : Option String

/-- `ProductCreate` -/
def createErrors (r : ProductReader) (f : ProductFields) : List FieldError :=
  let fields := [
    checkField ["name"] (f.name.any (hasLength 1 255)),
    checkField ["brand"] (f.brand.any (hasLength 1 100)),
    checkField ["size_kg"] f.sizeKg.isSome,
    checkField ["category"] f.category.isSome,
    checkField ["unit"] f.unit.isSome,
    checkField ["price"] (f.price.any (0 < ·)),
    checkField ["image_url"] (f.imageUrl.all fun url => (r.url url).isSome),
    checkField ["colour"] (f.colour.all (hasLength 0 50)),
    checkField ["variant_label"] (f.variantLabel.all (hasLength 0 100)),
    checkField ["sku"] (f.sku.any (hasLength 1 50)),
    f.sku.toList.flatMap fun sku => fieldError ["sku"] (normalizeSku r sku),
    checkField ["stock_quantity"] (f.stockQuantity.any (0 ≤ ·))].flatten
  if fields.isEmpty then
    fieldError [] (validateProductCategory f.sizeKg (f.category.getD .gas) f.pricingNote f.salePrice
      f.price)
  else fields

/-- `ProductUpdate`: a category that the payload leaves out counts as gas. -/
def updateErrors (r : ProductReader) (p : ProductUpdate) : List FieldError :=
  let fields := [
    checkField ["sku"] (p.sku.value.all (hasLength 1 50)),
    p.sku.value.toList.flatMap fun sku => fieldError ["sku"] (normalizeSku r sku),
    checkField ["name"] (p.name.value.all (hasLength 1 255)),
    checkField ["brand"] (p.brand.value.all (hasLength 1 100)),
    checkField ["price"] (p.price.value.all (0 < ·)),
    checkField ["image_url"] (p.imageUrl.value.all fun url => (r.url url).isSome),
    checkField ["stock_quantity"] (p.stockQuantity.value.all (0 ≤ ·)),
    checkField ["colour"] (p.colour.value.all (hasLength 0 50)),
    checkField ["variant_label"] (p.variantLabel.value.all (hasLength 0 100))].flatten
  if fields.isEmpty then
    fieldError [] (validateProductCategory p.sizeKg.value (p.category.value.getD .gas)
      p.pricingNote.value p.salePrice.value p.price.value)
  else fields

/-! The columns of the table. -/

inductive ProductExn
  | forbidden (detail errorCode : String)
  | notFound (detail errorCode : String)
  | conflict (detail errorCode : String)
  /-- A `DBAPIError` that is no `IntegrityError`. -/
  | database (sqlstate : String)
  | requestValidation (errors : List FieldError)
  | responseValidation (errors : List FieldError)
  deriving DecidableEq, Repr

/-- The repository takes every `IntegrityError` for a second product with the SKU. -/
def skuExists : ProductExn := .conflict "SKU already exists" "duplicate_sku"

/-- `NUMERIC(5, 2)` -/
def sizeColumn : FixedPoint := ⟨5, 2⟩

/-- `NUMERIC(10, 2)` -/
def priceColumn : FixedPoint := ⟨10, 2⟩

def bindNumeric (column : FixedPoint) (x : Decimal) : Except ProductExn Decimal :=
  match column.store x with
  | some y => .ok y
  | none => .error (.database "22003")

/-- PostgreSQL keeps no NUL character, and no more than `limit` characters. -/
def bindText (limit : Option ℕ) (s : String) : Except ProductExn String :=
  if '\x00' ∈ s.toList then .error (.database "22021")
  else if limit.any (· < s.length) then .error (.database "22001")
  else .ok s

def bindStock (n : ℤ) : Except ProductExn ℤ :=
  if n < 2 ^ 31 then .ok n else .error (.database "22000")

/-- A column `NOT NULL`. -/
def notNull {α : Type} (value : Option α) : Except ProductExn α :=
  match value with
  | some a => .ok a
  | none => .error skuExists

/-- The flush of the given fields over the stored row. -/
def writeProduct (r : ProductReader) (parents : List Uuid) (others : List ProductRow)
    (row : ProductRow) (p : ProductUpdate) : Except ProductExn ProductRow := do
  let stock ← p.stockQuantity.traverse bindStock
  let sku ← (p.sku.map r.storedSku).traverse (bindText (some 50))
  let name ← p.name.traverse (bindText (some 255))
  let brand ← p.brand.traverse (bindText (some 100))
  let sizeKg ← p.sizeKg.traverse (bindNumeric sizeColumn)
  let price ← p.price.traverse (bindNumeric priceColumn)
  let salePrice ← p.salePrice.traverse (bindNumeric priceColumn)
  let description ← p.description.traverse (bindText none)
  let longDescription ← p.longDescription.traverse (bindText none)
  let imageUrl ← (p.imageUrl.map r.storedUrl).traverse (bindText none)
  let safetyInfo ← p.safetyInfo.traverse (bindText none)
  let pricingNote ← p.pricingNote.traverse (bindText none)
  let colour ← p.colour.traverse (bindText (some 50))
  let variantLabel ← p.variantLabel.traverse (bindText (some 100))
  let newSku ← notNull (sku.get (some row.sku))
  let newName ← notNull (name.get (some row.name))
  let newBrand ← notNull (brand.get (some row.brand))
  let newSize ← notNull (sizeKg.get (some row.sizeKg))
  let newCategory ← notNull (p.category.get (some row.category))
  let newUnit ← notNull (p.unit.get (some row.unit))
  let newPrice ← notNull (price.get (some row.price))
  let newStock ← notNull (stock.get (some row.stockQuantity))
  let newActive ← notNull (p.isActive.get (some row.isActive))
  let newRow : ProductRow := {
    id := row.id, sku := newSku, name := newName, brand := newBrand, sizeKg := newSize,
    category := newCategory, unit := newUnit, price := newPrice,
    salePrice := salePrice.get row.salePrice, stockQuantity := newStock,
    description := description.get row.description,
    longDescription := longDescription.get row.longDescription,
    imageUrl := imageUrl.get row.imageUrl, safetyInfo := safetyInfo.get row.safetyInfo,
    pricingNote := pricingNote.get row.pricingNote, isActive := newActive,
    parentId := p.parentId.get row.parentId, colour := colour.get row.colour,
    variantLabel := variantLabel.get row.variantLabel }
  -- `ck_products_price`, `ck_products_stock_quantity`, the unique SKU and the key of the parent
  if 0 ≤ newRow.price ∧ 0 ≤ newRow.stockQuantity ∧ (∀ q ∈ others, q.sku ≠ newRow.sku) ∧
      p.parentId.value.all parents.contains then return newRow
  throw skuExists

/-- The fields that `ProductResponse` reads from a row. -/
def ProductRow.fields (row : ProductRow) : ProductFields where
  sku := some row.sku
  name := some row.name
  brand := some row.brand
  sizeKg := some row.sizeKg
  category := some row.category
  unit := some row.unit
  price := some row.price
  salePrice := row.salePrice
  stockQuantity := some row.stockQuantity
  imageUrl := row.imageUrl
  pricingNote := row.pricingNote
  colour := row.colour
  variantLabel := row.variantLabel

def otherProducts (productId : Uuid) (products : List ProductRow) : List ProductRow :=
  products.filter fun q => q.id ≠ productId

def updateProduct (r : ProductReader) (parents : List Uuid) (productId : Uuid) (p : ProductUpdate)
    (admin : User) (products : List ProductRow) : Except ProductExn (ProductRow × List ProductRow) := do
  if !(updateErrors r p).isEmpty then throw (.requestValidation (updateErrors r p))
  if !admin.isAdmin then throw (.forbidden "Admin role required" "admin_required")
  match Table.find ProductRow.id productId products with
  | none => throw (.notFound "Product not found" "product_not_found")
  | some row =>
    let updated ← writeProduct r parents (otherProducts productId products) row p
    if !(createErrors r updated.fields).isEmpty then
      throw (.responseValidation (createErrors r updated.fields))
    return (updated, Table.modify ProductRow.id productId (fun _ => updated) products)

/-- The request in its transaction. -/
def serveProductUpdate (r : ProductReader) (parents : List Uuid) (productId : Uuid)
    (p : ProductUpdate) (admin : User) (products : List ProductRow) :
    Except ProductExn ProductRow × List ProductRow :=
  match updateProduct r parents productId p admin products with
  | .ok (row, updated) => (.ok row, updated)
  | .error e => (.error e, products)

/-! What a row and a payload have been checked for. -/

/-- The rules of `ProductBase` and `ProductCreate`. -/
structure Rules (r : ProductReader) (f : ProductFields) : Prop where
  name : ∃ s ∈ f.name, hasLength 1 255 s = true
  brand : ∃ s ∈ f.brand, hasLength 1 100 s = true
  sizeKg : f.sizeKg ≠ none
  category : f.category ≠ none
  unit : f.unit ≠ none
  price : ∃ x ∈ f.price, 0 < x
  imageUrl : ∀ url ∈ f.imageUrl, r.url url ≠ none
  colour : ∀ s ∈ f.colour, hasLength 0 50 s = true
  variantLabel : ∀ s ∈ f.variantLabel, hasLength 0 100 s = true
  sku : ∃ s ∈ f.sku, hasLength 1 50 s = true
  skuPattern : ∀ s ∈ f.sku, ∃ sku, normalizeSku r s = .ok sku
  stockQuantity : ∃ n ∈ f.stockQuantity, 0 ≤ n
  gasSize : f.category = some .gas → ∀ x ∈ f.sizeKg, x ∈ Chat.allowedSizes
  pricingNote : f.category = some .gas → ∀ s ∈ f.pricingNote, s = ""
  salePrice : ∀ sale ∈ f.salePrice, 0 < sale ∧ ∀ x ∈ f.price, sale < x

theorem validateProductCategory_eq_ok {sizeKg : Option Decimal} {category : Category}
    {pricingNote : Option String} {salePrice price : Option Decimal} {u : Unit} :
    validateProductCategory sizeKg category pricingNote salePrice price = .ok u ↔
      (category = .gas → ∀ x ∈ sizeKg, x ∈ Chat.allowedSizes) ∧
      (category = .gas → ∀ s ∈ pricingNote, s = "") ∧
      ∀ sale ∈ salePrice, 0 < sale ∧ ∀ x ∈ price, sale < x := by
  have hsize : validateGasSize sizeKg category = .ok () ↔
      (category = .gas → ∀ x ∈ sizeKg, x ∈ Chat.allowedSizes) := by
    unfold validateGasSize
    cases sizeKg <;> simp
  have hsale : validateSalePrice salePrice price = .ok u ↔
      ∀ sale ∈ salePrice, 0 < sale ∧ ∀ x ∈ price, sale < x := by
    unfold validateSalePrice
    cases salePrice with
    | none => simp
    | some sale =>
      have hprice : price.any (· ≤ sale) = true ↔ ¬ ∀ x ∈ price, sale < x := by
        cases price <;> simp
      simp only [hprice, Option.mem_some_iff, forall_eq']
      by_cases hpos : sale ≤ 0
      · rw [if_pos hpos]
        exact iff_of_false (fun h => nomatch h) fun h => absurd hpos (not_le.mpr h.1)
      · rw [if_neg hpos]
        by_cases hbelow : ∀ x ∈ price, sale < x
        · rw [if_neg (not_not.mpr hbelow)]
          exact iff_of_true rfl ⟨not_le.mp hpos, hbelow⟩
        · rw [if_pos hbelow]
          exact iff_of_false (fun h => nomatch h) fun h => hbelow h.2
  unfold validateProductCategory
  rw [Except.bind_eq_ok_iff]
  constructor
  · rintro ⟨_, hgas, h⟩
    by_cases hnote : category = .gas ∧ pricingNote.any (· ≠ "")
    · rw [if_pos hnote] at h
      cases h
    · rw [if_neg hnote] at h
      refine ⟨hsize.mp hgas, fun hc s hs => ?_, hsale.mp h⟩
      by_contra hne
      exact hnote ⟨hc, by rw [Option.mem_def.mp hs]; simpa using hne⟩
  · rintro ⟨hgas, hnote, hprices⟩
    refine ⟨(), hsize.mpr hgas, ?_⟩
    rw [if_neg]
    · exact hsale.mpr hprices
    · rintro ⟨hc, hany⟩
      obtain ⟨s, hs, hne⟩ := Option.any_eq_true _ _ |>.mp hany
      exact absurd (hnote hc s hs) (by simpa using hne)

/-- Errors come in two rounds: those of the fields, and then those between them. -/
theorem errors_eq_nil {fields : List FieldError} {together : Except String Unit} :
    (if fields.isEmpty then fieldError [] together else fields) = [] ↔
      fields = [] ∧ together = .ok () := by
  cases fields with
  | nil =>
    simp only [List.isEmpty_nil, if_true]
    cases together with
    | ok u => exact iff_of_true rfl ⟨trivial, rfl⟩
    | error e => exact iff_of_false (fun h => nomatch h) fun h => nomatch h.2
  | cons e es => exact iff_of_false (fun h => nomatch h) fun h => nomatch h.1

theorem createErrors_eq_nil {r : ProductReader} {f : ProductFields} :
    createErrors r f = [] ↔ Rules r f := by
  have hsku : (f.sku.toList.flatMap fun sku => fieldError ["sku"] (normalizeSku r sku)) = [] ↔
      ∀ s ∈ f.sku, ∃ sku, normalizeSku r s = .ok sku := by
    cases f.sku with
    | none => simp
    | some s => cases h : normalizeSku r s <;> simp [fieldError, h]
  unfold createErrors
  rw [errors_eq_nil, validateProductCategory_eq_ok, List.flatten_eq_nil_iff]
  simp only [List.forall_mem_cons, checkField_eq_nil, hsku, Option.any_eq_true, Option.all_eq_true,
    Option.isSome_iff_ne_none, decide_eq_true_eq, ← Option.mem_def]
  constructor
  · rintro ⟨⟨hname, hbrand, hsize, hcategory, hunit, hprice, hurl, hcolour, hlabel, hsku, hpattern,
      hstock, -⟩, hgas, hnote, hsale⟩
    obtain ⟨category, hc⟩ := Option.ne_none_iff_exists'.mp hcategory
    rw [hc] at hgas hnote
    refine ⟨hname, hbrand, hsize, hcategory, hunit, hprice, hurl, hcolour, hlabel, hsku, hpattern,
      hstock, ?_, ?_, hsale⟩
    · exact fun hg => hgas (Option.some.inj (hc ▸ hg))
    · exact fun hg => hnote (Option.some.inj (hc ▸ hg))
  · intro h
    obtain ⟨category, hc⟩ := Option.ne_none_iff_exists'.mp h.category
    refine ⟨⟨h.name, h.brand, h.sizeKg, h.category, h.unit, h.price, h.imageUrl, h.colour,
      h.variantLabel, h.sku, h.skuPattern, h.stockQuantity, fun _ h => nomatch h⟩, ?_, ?_, h.salePrice⟩
    · rw [hc]
      exact fun hg => h.gasSize (hc.trans (congrArg some hg))
    · rw [hc]
      exact fun hg => h.pricingNote (hc.trans (congrArg some hg))

/-- What `ProductUpdate` asks of a payload. -/
structure PayloadRules (r : ProductReader) (p : ProductUpdate) : Prop where
  sku : p.sku.All fun s => hasLength 1 50 s = true
  skuPattern : p.sku.All fun s => ∃ sku, normalizeSku r s = .ok sku
  name : p.name.All fun s => hasLength 1 255 s = true
  brand : p.brand.All fun s => hasLength 1 100 s = true
  price : p.price.All (0 < ·)
  imageUrl : p.imageUrl.All fun url => r.url url ≠ none
  stockQuantity : p.stockQuantity.All (0 ≤ ·)
  colour : p.colour.All fun s => hasLength 0 50 s = true
  variantLabel : p.variantLabel.All fun s => hasLength 0 100 s = true
  gasSize : p.category.value.getD .gas = .gas → p.sizeKg.All (· ∈ Chat.allowedSizes)
  pricingNote : p.category.value.getD .gas = .gas → p.pricingNote.All (· = "")
  salePrice : p.salePrice.All fun sale => 0 < sale ∧ ∀ x ∈ p.price.value, sale < x

theorem updateErrors_eq_nil {r : ProductReader} {p : ProductUpdate} :
    updateErrors r p = [] ↔ PayloadRules r p := by
  have hsku : (p.sku.value.toList.flatMap fun sku => fieldError ["sku"] (normalizeSku r sku)) = [] ↔
      ∀ s ∈ p.sku.value, ∃ sku, normalizeSku r s = .ok sku := by
    cases p.sku.value with
    | none => simp
    | some s => cases h : normalizeSku r s <;> simp [fieldError, h]
  unfold updateErrors
  rw [errors_eq_nil, validateProductCategory_eq_ok, List.flatten_eq_nil_iff]
  simp only [List.forall_mem_cons, checkField_eq_nil, hsku, Option.all_eq_true,
    Option.isSome_iff_ne_none, decide_eq_true_eq, ← Option.mem_def]
  constructor
  · rintro ⟨⟨hlength, hpattern, hname, hbrand, hprice, hurl, hstock, hcolour, hlabel, -⟩, hgas, hnote,
      hsale⟩
    exact ⟨hlength, hpattern, hname, hbrand, hprice, hurl, hstock, hcolour, hlabel, hgas, hnote, hsale⟩
  · intro h
    exact ⟨⟨h.sku, h.skuPattern, h.name, h.brand, h.price, h.imageUrl, h.stockQuantity, h.colour,
      h.variantLabel, fun _ h => nomatch h⟩, h.gasSize, h.pricingNote, h.salePrice⟩

/-! The row that is written. -/

/-- The text has no NUL and at most `limit` characters. -/
def FitsText (limit : Option ℕ) (s : String) : Prop :=
  '\x00' ∉ s.toList ∧ ∀ n ∈ limit, s.length ≤ n

/-- The columns take the given values. -/
structure Bindable (r : ProductReader) (p : ProductUpdate) : Prop where
  stockQuantity : p.stockQuantity.All (· < 2 ^ 31)
  sku : (p.sku.map r.storedSku).All (FitsText (some 50))
  name : p.name.All (FitsText (some 255))
  brand : p.brand.All (FitsText (some 100))
  sizeKg : p.sizeKg.All fun x => |sizeColumn.round x| < sizeColumn.bound
  price : p.price.All fun x => |priceColumn.round x| < priceColumn.bound
  salePrice : p.salePrice.All fun x => |priceColumn.round x| < priceColumn.bound
  description : p.description.All (FitsText none)
  longDescription : p.longDescription.All (FitsText none)
  imageUrl : (p.imageUrl.map r.storedUrl).All (FitsText none)
  safetyInfo : p.safetyInfo.All (FitsText none)
  pricingNote : p.pricingNote.All (FitsText none)
  colour : p.colour.All (FitsText (some 50))
  variantLabel : p.variantLabel.All (FitsText (some 100))

/-- The values of a row that the flush has built. -/
structure Written (r : ProductReader) (row : ProductRow) (p : ProductUpdate) (new : ProductRow) :
    Prop where
  id : new.id = row.id
  sku : (p.sku.map r.storedSku).get (some row.sku) = some new.sku
  name : p.name.get (some row.name) = some new.name
  brand : p.brand.get (some row.brand) = some new.brand
  sizeKg : (p.sizeKg.map sizeColumn.round).get (some row.sizeKg) = some new.sizeKg
  category : p.category.get (some row.category) = some new.category
  unit : p.unit.get (some row.unit) = some new.unit
  price : (p.price.map priceColumn.round).get (some row.price) = some new.price
  salePrice : (p.salePrice.map priceColumn.round).get row.salePrice = new.salePrice
  stockQuantity : p.stockQuantity.get (some row.stockQuantity) = some new.stockQuantity
  description : p.description.get row.description = new.description
  longDescription : p.longDescription.get row.longDescription = new.longDescription
  imageUrl : (p.imageUrl.map r.storedUrl).get row.imageUrl = new.imageUrl
  safetyInfo : p.safetyInfo.get row.safetyInfo = new.safetyInfo
  pricingNote : p.pricingNote.get row.pricingNote = new.pricingNote
  isActive : p.isActive.get (some row.isActive) = some new.isActive
  parentId : p.parentId.get row.parentId = new.parentId
  colour : p.colour.get row.colour = new.colour
  variantLabel : p.variantLabel.get row.variantLabel = new.variantLabel

/-- The constraints of the table. -/
structure Constrained (parents : List Uuid) (others : List ProductRow) (p : ProductUpdate)
    (new : ProductRow) : Prop where
  price : 0 ≤ new.price
  stockQuantity : 0 ≤ new.stockQuantity
  sku : ∀ q ∈ others, q.sku ≠ new.sku
  parentId : p.parentId.All (· ∈ parents)

theorem traverse_bindNumeric {column : FixedPoint} {p q : Patch Decimal} :
    p.traverse (bindNumeric column) = .ok q ↔
      (p.All fun x => |column.round x| < column.bound) ∧ q = p.map column.round := by
  have hbind (x y : Decimal) : bindNumeric column x = .ok y ↔
      |column.round x| < column.bound ∧ y = column.round x := by
    unfold bindNumeric FixedPoint.store
    split_ifs with h <;> simp [h, eq_comm]
  rw [Patch.traverse_eq_ok fun x y h => ((hbind x y).mp h).2]
  simp only [hbind, and_true]

theorem traverse_bindText {limit : Option ℕ} {p q : Patch String} :
    p.traverse (bindText limit) = .ok q ↔
      p.All (FitsText limit) ∧ q = p := by
  have hbind (s t : String) : bindText limit s = .ok t ↔ FitsText limit s ∧ t = id s := by
    unfold bindText FitsText
    by_cases hnul : '\x00' ∈ s.toList
    · simp [hnul]
    · cases limit with
      | none => simp [hnul, eq_comm]
      | some n =>
        by_cases hn : n < s.length
        · simp [hnul, hn]
        · simp [hnul, hn, not_lt.mp hn, eq_comm]
  rw [Patch.traverse_eq_ok fun s t h => ((hbind s t).mp h).2, Patch.map_id]
  simp only [hbind, id_eq, and_true]

theorem traverse_bindStock {p q : Patch ℤ} :
    p.traverse bindStock = .ok q ↔ p.All (· < 2 ^ 31) ∧ q = p := by
  have hbind (n m : ℤ) : bindStock n = .ok m ↔ n < 2 ^ 31 ∧ m = id n := by
    unfold bindStock
    by_cases hn : n < 2 ^ 31
    · rw [if_pos hn, Except.ok.injEq, eq_comm]
      exact (and_iff_right hn).symm
    · rw [if_neg hn]
      exact iff_of_false (fun h => nomatch h) fun h => hn h.1
  rw [Patch.traverse_eq_ok fun n m h => ((hbind n m).mp h).2, Patch.map_id]
  simp only [hbind, id_eq, and_true]

theorem notNull_eq_ok {α : Type} {value : Option α} {a : α} :
    notNull value = .ok a ↔ value = some a := by
  unfold notNull
  cases value <;> simp

theorem writeProduct_eq_ok {r : ProductReader} {parents : List Uuid} {others : List ProductRow}
    {row new : ProductRow} {p : ProductUpdate} :
    writeProduct r parents others row p = .ok new ↔
      Bindable r p ∧ Written r row p new ∧ Constrained parents others p new := by
  have hparents : p.parentId.value.all parents.contains = true ↔ p.parentId.All (· ∈ parents) := by
    rw [Option.all_eq_true]
    simp only [List.contains_iff_mem]
    rfl
  simp only [writeProduct, Except.bind_eq_ok_iff, traverse_bindStock, traverse_bindText,
    traverse_bindNumeric, notNull_eq_ok, and_assoc, exists_and_left, exists_eq_left]
  constructor
  · rintro ⟨hstock, hsku, hname, hbrand, hsize, hprice, hsale, hdescription, hlong, hurl, hsafety, hnote,
      hcolour, hlabel, newSku, hnewSku, newName, hnewName, newBrand, hnewBrand, newSize, hnewSize,
      newCategory, hnewCategory, newUnit, hnewUnit, newPrice, hnewPrice, newStock, hnewStock, newActive,
      hnewActive, hnew⟩
    split_ifs at hnew with hconstraints
    · obtain rfl := Except.ok.inj hnew
      obtain ⟨hnonneg, hstockNonneg, hunique, hparent⟩ := hconstraints
      refine ⟨⟨hstock, hsku, hname, hbrand, hsize, hprice, hsale, hdescription, hlong, hurl, hsafety,
        hnote, hcolour, hlabel⟩, ⟨rfl, hnewSku, hnewName, hnewBrand, hnewSize, hnewCategory, hnewUnit,
        hnewPrice, rfl, hnewStock, rfl, rfl, rfl, rfl, rfl, hnewActive, rfl, rfl, rfl⟩,
        ⟨hnonneg, hstockNonneg, hunique, ?_⟩⟩
      exact hparents.mp hparent
  · rintro ⟨hb, hw, hc⟩
    refine ⟨hb.stockQuantity, hb.sku, hb.name, hb.brand, hb.sizeKg, hb.price, hb.salePrice,
      hb.description, hb.longDescription, hb.imageUrl, hb.safetyInfo, hb.pricingNote, hb.colour,
      hb.variantLabel, _, hw.sku, _, hw.name, _, hw.brand, _, hw.sizeKg, _, hw.category, _, hw.unit, _,
      hw.price, _, hw.stockQuantity, _, hw.isActive, ?_⟩
    rw [if_pos ⟨hc.price, hc.stockQuantity, hc.sku, hparents.mpr hc.parentId⟩]
    apply congrArg Except.ok
    cases new
    simp only [ProductRow.mk.injEq, true_and]
    exact ⟨hw.id.symm, hw.salePrice, hw.description, hw.longDescription, hw.imageUrl, hw.safetyInfo,
      hw.pricingNote, hw.parentId, hw.colour, hw.variantLabel⟩

end Qiki.Catalog
