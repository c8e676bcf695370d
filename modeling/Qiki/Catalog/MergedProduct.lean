import Qiki.Catalog.ProductUpdate
import Qiki.Text.Boundary
import Qiki.Text.Spelling

/-! When an update is accepted exactly where the product that it makes is a valid one. -/
namespace Qiki.Catalog

open Unicode Regex Rounding Orders

/-! SKUs in their normal form. -/

def skuClasses : List CharClass := [.range 'A' 'Z', .range '0' '9', .char '-']

/-- Upper case leaves the characters of a SKU alone, and they are no blanks; a newline is one. -/
structure ProductReader.Lawful (r : ProductReader) : Prop where
  upper : ∀ c, skuClasses.any (Mode.matchesClass ⟨r.db, false⟩ c) = true → r.upper c = [c]
  space : ∀ c, skuClasses.any (Mode.matchesClass ⟨r.db, false⟩ c) = true → r.db.space c = false
  newline : r.db.space '\n' = true

section
variable {r : ProductReader} (hr : r.Lawful)
include hr

theorem matchStart_sku (s : Text) :
    (matchStart ⟨r.db, false⟩ skuPattern (Text.strip r.db.space s)).isSome = true ↔
      Text.strip r.db.space s ≠ [] ∧ ∀ c ∈ Text.strip r.db.space s,
        skuClasses.any (Mode.matchesClass ⟨r.db, false⟩ c) = true := by
  refine (matchStart_finish (Spells.plusOneOf skuClasses) _).trans ⟨?_, Or.inl⟩
  rintro (h | ⟨t, -, ht⟩)
  · exact h
  · exact absurd ht (Text.strip_ne_concat hr.newline s t)

/-- A normal form is not empty and is its own normal form. -/
theorem normalizeSku_again {s sku : String} (h : normalizeSku r s = .ok sku) :
    1 ≤ sku.length ∧ normalizeSku r sku = .ok sku := by
  unfold normalizeSku at h
  dsimp only at h
  split_ifs at h with hmatch
  obtain rfl := Except.ok.inj h
  obtain ⟨hne, hall⟩ := (matchStart_sku hr _).mp hmatch
  generalize Text.strip r.db.space (s.toList.flatMap r.upper) = t at hmatch hne hall
  have hupper : t.flatMap r.upper = t := by
    have hsingle : t.flatMap r.upper = t.flatMap fun c => [c] :=
      List.flatMap_congr fun c hc => hr.upper c (hall c hc)
    rw [hsingle, List.flatMap_singleton']
  have hstrip : Text.strip r.db.space t = t :=
    Text.strip_of_not_drop fun c hc => hr.space c (hall c hc)
  constructor
  · rw [String.length_ofList]
    exact List.length_pos_iff.mpr hne
  · unfold normalizeSku
    dsimp only
    rw [String.toList_ofList, hupper, hstrip, if_pos]
    rw [← hstrip]
    exact (matchStart_sku hr t).mpr ⟨hstrip.symm ▸ hne, hstrip.symm ▸ hall⟩

end

/-! The product that an update makes. -/

/-- The stored fields, overwritten by the given ones. -/
def mergedFields (row : ProductRow) (p : ProductUpdate) : ProductFields where
  sku := p.sku.get (some row.sku)
  name := p.name.get (some row.name)
  brand := p.brand.get (some row.brand)
  sizeKg := p.sizeKg.get (some row.sizeKg)
  category := p.category.get (some row.category)
  unit := p.unit.get (some row.unit)
  price := p.price.get (some row.price)
  salePrice := p.salePrice.get row.salePrice
  stockQuantity := p.stockQuantity.get (some row.stockQuantity)
  imageUrl := p.imageUrl.get row.imageUrl
  pricingNote := p.pricingNote.get row.pricingNote
  colour := p.colour.get row.colour
  variantLabel := p.variantLabel.get row.variantLabel

/-- No other product has the SKU. -/
def SkuUnique (r : ProductReader) (others : List ProductRow) (f : ProductFields) : Prop :=
  ∀ s ∈ f.sku, ∀ sku, normalizeSku r s = .ok sku → ∀ q ∈ others, q.sku ≠ sku

/-- The update succeeds exactly when the product it makes keeps the rules, and otherwise changes
nothing. -/
def UpdateMatchesRules (r : ProductReader) (parents : List Uuid) (productId : Uuid)
    (p : ProductUpdate) (admin : User) (products : List ProductRow) (row : ProductRow) : Prop :=
  ((∃ new, (serveProductUpdate r parents productId p admin products).1 = .ok new) ↔
    Rules r (mergedFields row p) ∧ SkuUnique r (otherProducts productId products)
      (mergedFields row p)) ∧
  ∀ e, (serveProductUpdate r parents productId p admin products).1 = .error e →
    (serveProductUpdate r parents productId p admin products).2 = products

/-- The SKU of a row is in its normal form, and its prices are those of their columns. -/
structure ProductRow.Stored (r : ProductReader) (row : ProductRow) : Prop where
  sku : normalizeSku r row.sku = .ok row.sku
  price : priceColumn.Holds row.price
  salePrice : ∀ sale ∈ row.salePrice, priceColumn.Holds sale

/-- What stands in the way of a payload whose product keeps the rules: the category that it leaves out
counts as gas, the columns round and bound, and the parent has to be there. -/
structure Unobstructed (r : ProductReader) (parents : List Uuid) (row : ProductRow)
    (p : ProductUpdate) : Prop where
  alone : p.category.value = some .nuocUong ∨
    (p.sizeKg.All (· ∈ Chat.allowedSizes) ∧ p.pricingNote.All (· = ""))
  isActive : p.isActive ≠ .null
  parentId : p.parentId.All (· ∈ parents)
  bindable : Bindable r p
  imageUrl : p.imageUrl.All fun url => r.url (r.storedUrl url) ≠ none
  price : p.price.All fun x => 0 < priceColumn.round x
  salePrice : ∀ sale ∈ (p.salePrice.map priceColumn.round).get row.salePrice, 0 < sale ∧
    ∀ x ∈ (p.price.map priceColumn.round).get (some row.price), sale < x

section
variable {r : ProductReader} {parents : List Uuid} {productId : Uuid} {p : ProductUpdate}
  {admin : User} {products others : List ProductRow} {row new : ProductRow}

theorem serveProductUpdate_eq_ok (hstored : Table.find ProductRow.id productId products = some row) :
    (∃ new, (serveProductUpdate r parents productId p admin products).1 = .ok new) ↔
      PayloadRules r p ∧ admin.isAdmin = true ∧ ∃ new, Bindable r p ∧ Written r row p new ∧
        Constrained parents (otherProducts productId products) p new ∧ Rules r new.fields := by
  have hserve : (∃ new, (serveProductUpdate r parents productId p admin products).1 = .ok new) ↔
      ∃ result, updateProduct r parents productId p admin products = .ok result := by
    unfold serveProductUpdate
    cases updateProduct r parents productId p admin products with
    | error e => simp
    | ok result => simp
  rw [hserve]
  unfold updateProduct
  rw [← updateErrors_eq_nil]
  cases herrors : updateErrors r p with
  | cons e es =>
    exact iff_of_false (fun ⟨_, h⟩ => nomatch h) fun h => nomatch h.1
  | nil =>
    cases hadmin : admin.isAdmin with
    | false => exact iff_of_false (fun ⟨_, h⟩ => nomatch h) fun h => nomatch h.2.1
    | true =>
      simp only [hstored, List.isEmpty_nil, Bool.not_true, Bool.false_eq_true, if_false, true_and, Except.bind_eq_ok_iff, writeProduct_eq_ok, ← createErrors_eq_nil]
      constructor
      · rintro ⟨result, new, ⟨hb, hw, hc⟩, hnew⟩
        refine ⟨new, hb, hw, hc, ?_⟩
        by_contra hne
        have hnonempty : (!(createErrors r new.fields).isEmpty) = true := by simpa using hne
        rw [if_pos hnonempty] at hnew
        cases hnew
      · rintro ⟨new, hb, hw, hc, hnew⟩
        refine ⟨(new, Table.modify ProductRow.id productId (fun _ => new) products), new, ⟨hb, hw, hc⟩, ?_⟩
        rw [hnew]
        rfl

/-- A required field that keeps a rule. -/
theorem exists_mem_some {α : Type} {a : α} {rule : α → Prop} (h : ∃ b ∈ some a, rule b) : rule a := by
  obtain ⟨b, hb, hrule⟩ := h
  exact (Option.some.inj hb).symm ▸ hrule

theorem priceColumn_round_zero : priceColumn.round 0 = 0 := by
  have hzero : priceColumn.Holds ((0 : ℤ) : ℚ) := FixedPoint.holds_intCast 0
  exact_mod_cast hzero.round_eq

/-- The sale price is below the list price if it is so after the columns have rounded both. -/
theorem sale_of_written (hcolumns : row.Stored r) (hw : Written r row p new)
    (hnew : Rules r new.fields) : ∀ sale ∈ (mergedFields row p).salePrice, 0 < sale ∧
      ∀ x ∈ (mergedFields row p).price, sale < x := by
  intro sale hsale
  have hmem : priceColumn.round sale ∈ new.fields.salePrice := by
    have hround : new.fields.salePrice = (p.salePrice.map priceColumn.round).get row.salePrice :=
      hw.salePrice.symm
    rw [hround]
    exact Patch.map_mem_get (fun s hs => (hcolumns.salePrice s hs).round_eq) hsale
  obtain ⟨hpos, hbelow⟩ := hnew.salePrice _ hmem
  constructor
  · apply FixedPoint.lt_of_round_lt (c := priceColumn)
    rw [priceColumn_round_zero]
    exact hpos
  · intro x hx
    apply FixedPoint.lt_of_round_lt (c := priceColumn)
    apply hbelow
    have hprice : new.fields.price = (p.price.map priceColumn.round).get (some row.price) :=
      hw.price.symm
    rw [hprice]
    exact Patch.map_mem_get (fun y hy => Option.some.inj hy ▸ hcolumns.price.round_eq) hx

/-- An accepted update makes a product that keeps the rules. -/
theorem rules_of_accepted (hrow : Rules r row.fields) (hcolumns : row.Stored r)
    (hpayload : PayloadRules r p) (hw : Written r row p new) (hnew : Rules r new.fields) :
    Rules r (mergedFields row p) := by
  have hname : (mergedFields row p).name = new.fields.name := hw.name
  have hbrand : (mergedFields row p).brand = new.fields.brand := hw.brand
  have hcategory : (mergedFields row p).category = new.fields.category := hw.category
  have hunit : (mergedFields row p).unit = new.fields.unit := hw.unit
  have hstock : (mergedFields row p).stockQuantity = new.fields.stockQuantity := hw.stockQuantity
  have hcolour : (mergedFields row p).colour = new.fields.colour := hw.colour
  have hlabel : (mergedFields row p).variantLabel = new.fields.variantLabel := hw.variantLabel
  have hnote : (mergedFields row p).pricingNote = new.fields.pricingNote := hw.pricingNote
  refine ⟨?_, ?_, ?_, ?_, ?_, ?_, ?_, ?_, ?_, ?_, ?_, ?_, ?_, ?_, sale_of_written hcolumns hw hnew⟩
  · rw [hname]
    exact hnew.name
  · rw [hbrand]
    exact hnew.brand
  · exact mt Patch.get_some_eq_none.mp (Patch.ne_null_of_map_get hw.sizeKg)
  · rw [hcategory]
    exact hnew.category
  · rw [hunit]
    exact hnew.unit
  · obtain ⟨x, hx⟩ := Patch.exists_get (Patch.ne_null_of_map_get hw.price) row.price
    exact ⟨x, hx, hpayload.price.get_some (exists_mem_some hrow.price) x hx⟩
  · exact hpayload.imageUrl.get hrow.imageUrl
  · rw [hcolour]
    exact hnew.colour
  · rw [hlabel]
    exact hnew.variantLabel
  · obtain ⟨s, hs⟩ := Patch.exists_get (Patch.ne_null_of_map_get hw.sku) row.sku
    exact ⟨s, hs, hpayload.sku.get_some (exists_mem_some hrow.sku) s hs⟩
  · exact hpayload.skuPattern.get hrow.skuPattern
  · rw [hstock]
    exact hnew.stockQuantity
  · -- a size that is given is checked with the category of the payload
    intro hgas x hx
    cases hsize : p.sizeKg with
    | unset =>
      have hsame : new.fields.sizeKg = (mergedFields row p).sizeKg := by
        have hwritten := hw.sizeKg
        simp only [mergedFields, ProductRow.fields, hsize] at hwritten ⊢
        exact hwritten.symm
      exact hnew.gasSize (hcategory ▸ hgas) x (hsame ▸ hx)
    | null =>
      simp only [mergedFields, hsize] at hx
      cases hx
    | given y =>
      have hassumed : p.category.value.getD .gas = .gas := by
        cases hc : p.category with
        | unset => rfl
        | null =>
          simp only [mergedFields, hc] at hgas
          cases hgas
        | given c =>
          simp only [mergedFields, hc] at hgas
          exact Option.some.inj hgas
      have hy := hpayload.gasSize hassumed
      simp only [mergedFields, hsize] at hx hy
      exact Option.some.inj hx ▸ Patch.all_given.mp hy
  · rw [hcategory, hnote]
    exact hnew.pricingNote

theorem skuUnique_of_written (hcolumns : row.Stored r) (hw : Written r row p new)
    (hc : ∀ q ∈ others, q.sku ≠ new.sku) : SkuUnique r others (mergedFields row p) := by
  intro s hs sku hsku
  have hnew : new.sku = sku := by
    have hwritten := hw.sku
    cases hpatch : p.sku with
    | unset =>
      simp only [mergedFields, hpatch] at hs
      rw [hpatch] at hwritten
      obtain rfl := Option.some.inj hs
      rw [hcolumns.sku] at hsku
      exact (Option.some.inj hwritten).symm.trans (Except.ok.inj hsku)
    | null =>
      simp only [mergedFields, hpatch] at hs
      cases hs
    | given t =>
      simp only [mergedFields, hpatch] at hs
      rw [hpatch] at hwritten
      obtain rfl := Option.some.inj hs
      have hstored : r.storedSku t = sku := by
        rw [ProductReader.storedSku, hsku]
        rfl
      exact (Option.some.inj hwritten).symm.trans hstored
  exact hnew ▸ hc

theorem unobstructed_of_accepted (hpayload : PayloadRules r p) (hb : Bindable r p)
    (hw : Written r row p new) (hparent : p.parentId.All (· ∈ parents)) (hnew : Rules r new.fields) :
    Unobstructed r parents row p := by
  refine ⟨?_, Patch.ne_null_of_get hw.isActive, hparent, hb, ?_, ?_, ?_⟩
  · cases hassumed : p.category.value.getD .gas with
    | gas => exact Or.inr ⟨hpayload.gasSize hassumed, hpayload.pricingNote hassumed⟩
    | nuocUong =>
      left
      cases hvalue : p.category.value with
      | none => rw [hvalue] at hassumed; cases hassumed
      | some c => rw [hvalue] at hassumed; exact congrArg some hassumed
  · have hurl : ∀ url ∈ (p.imageUrl.map r.storedUrl).get row.imageUrl, r.url url ≠ none := by
      rw [hw.imageUrl]
      exact hnew.imageUrl
    have hgiven : (p.imageUrl.map r.storedUrl).All fun url => r.url url ≠ none :=
      Patch.all_of_get hurl
    rw [Patch.all_map] at hgiven
    exact hgiven
  · have hprice : ∀ x ∈ (p.price.map priceColumn.round).get (some row.price), 0 < x := by
      rw [hw.price]
      exact fun x hx => Option.some.inj hx ▸ exists_mem_some hnew.price
    exact Patch.all_map.mp (Patch.all_of_get hprice)
  · rw [hw.salePrice, hw.price]
    exact hnew.salePrice

/-- A payload whose product keeps the rules passes on its own, unless its category is missing. -/
theorem payloadRules_of_rules (h : Rules r (mergedFields row p))
    (halone : p.category.value = some .nuocUong ∨
      (p.sizeKg.All (· ∈ Chat.allowedSizes) ∧ p.pricingNote.All (· = ""))) :
    PayloadRules r p := by
  have hrequired {α : Type} {q : Patch α} {old : α} {rule : α → Prop}
      (hget : ∃ a ∈ q.get (some old), rule a) : q.All rule := by
    obtain ⟨a, ha, hrule⟩ := hget
    exact Patch.all_of_get fun b hb => Option.some.inj (ha.symm.trans hb) ▸ hrule
  have hassumed (hgas : p.category.value.getD .gas = .gas) :
      p.sizeKg.All (· ∈ Chat.allowedSizes) ∧ p.pricingNote.All (· = "") := by
    rcases halone with hwater | h
    · rw [hwater] at hgas
      cases hgas
    · exact h
  refine ⟨hrequired h.sku, Patch.all_of_get h.skuPattern, hrequired h.name, hrequired h.brand,
    hrequired h.price, Patch.all_of_get h.imageUrl, hrequired h.stockQuantity,
    Patch.all_of_get h.colour, Patch.all_of_get h.variantLabel, fun hgas => (hassumed hgas).1,
    fun hgas => (hassumed hgas).2, ?_⟩
  have hsale : p.salePrice.All fun sale => 0 < sale ∧ ∀ x ∈ (mergedFields row p).price, sale < x :=
    Patch.all_of_get h.salePrice
  intro sale hs
  refine ⟨(hsale sale hs).1, fun x hx => (hsale sale hs).2 x ?_⟩
  cases hprice : p.price with
  | unset => rw [hprice] at hx; cases hx
  | null => rw [hprice] at hx; cases hx
  | given y =>
    rw [hprice] at hx
    simp only [mergedFields, hprice]
    exact hx

theorem allowedSizes_round {x : Decimal} (h : x ∈ Chat.allowedSizes) : sizeColumn.round x = x := by
  have hholds : ∃ n : ℤ, x = n := by
    simp only [Chat.allowedSizes, List.mem_cons, List.not_mem_nil, or_false] at h
    rcases h with rfl | rfl | rfl
    · exact ⟨6, by norm_num⟩
    · exact ⟨12, by norm_num⟩
    · exact ⟨45, by norm_num⟩
  obtain ⟨n, rfl⟩ := hholds
  exact (FixedPoint.holds_intCast n).round_eq

theorem hasLength_iff {low high : ℕ} {s : String} :
    hasLength low high s = true ↔ low ≤ s.length ∧ s.length ≤ high := by
  rw [hasLength, Bool.and_eq_true, decide_eq_true_iff, decide_eq_true_iff]

/-- The SKU that is written is the normal form of the merged one, and is its own. -/
theorem written_sku (hr : r.Lawful) (hrow : Rules r row.fields) (hcolumns : row.Stored r)
    (h : Rules r (mergedFields row p)) (hb : Bindable r p) {sku : String}
    (hsku : (p.sku.map r.storedSku).get (some row.sku) = some sku) :
    (∃ s ∈ (mergedFields row p).sku, normalizeSku r s = .ok sku) ∧
      normalizeSku r sku = .ok sku ∧ hasLength 1 50 sku = true := by
  cases hpatch : p.sku with
  | unset =>
    rw [hpatch] at hsku
    obtain rfl : row.sku = sku := Option.some.inj hsku
    obtain ⟨t, ht, hlength⟩ := hrow.sku
    obtain rfl : row.sku = t := Option.some.inj ht
    refine ⟨⟨row.sku, ?_, hcolumns.sku⟩, hcolumns.sku, hlength⟩
    simp only [mergedFields, hpatch]
    rfl
  | null =>
    rw [hpatch] at hsku
    cases hsku
  | given s =>
    rw [hpatch] at hsku
    have hmem : s ∈ (mergedFields row p).sku := by
      simp only [mergedFields, hpatch]
      rfl
    obtain ⟨t, ht⟩ := h.skuPattern s hmem
    have hstored : r.storedSku s = t := by
      rw [ProductReader.storedSku, ht]
      rfl
    obtain rfl : t = sku := hstored.symm.trans (Option.some.inj hsku)
    obtain ⟨hpos, hagain⟩ := normalizeSku_again hr ht
    have hfits := hb.sku
    rw [hpatch] at hfits
    have hlength : (r.storedSku s).length ≤ 50 := (hfits _ rfl).2 50 rfl
    exact ⟨⟨s, hmem, ht⟩, hagain, hasLength_iff.mpr ⟨hpos, hstored ▸ hlength⟩⟩

/-- A product that keeps the rules, with nothing in its way, is written and answered with. -/
theorem accepted_of_rules (hr : r.Lawful) (hrow : Rules r row.fields) (hcolumns : row.Stored r)
    (h : Rules r (mergedFields row p)) (hunique : SkuUnique r others (mergedFields row p))
    (hu : Unobstructed r parents row p) :
    ∃ new, Written r row p new ∧ Constrained parents others p new ∧ Rules r new.fields := by
  obtain ⟨sku, hsku⟩ : ∃ sku, (p.sku.map r.storedSku).get (some row.sku) = some sku := by
    obtain ⟨s, hs, -⟩ := h.sku
    exact Patch.exists_get (Patch.map_ne_null (Patch.ne_null_of_get hs)) row.sku
  obtain ⟨name, hname, hnameRule⟩ := h.name
  obtain ⟨brand, hbrand, hbrandRule⟩ := h.brand
  obtain ⟨size, hsize⟩ := Option.ne_none_iff_exists'.mp h.sizeKg
  obtain ⟨sizeKg, hsizeKg⟩ :=
    Patch.exists_get (Patch.map_ne_null (f := sizeColumn.round) (Patch.ne_null_of_get hsize)) row.sizeKg
  obtain ⟨category, hcategory⟩ := Option.ne_none_iff_exists'.mp h.category
  obtain ⟨unit, hunit⟩ := Option.ne_none_iff_exists'.mp h.unit
  obtain ⟨given, hgiven, -⟩ := h.price
  obtain ⟨price, hprice⟩ :=
    Patch.exists_get (Patch.map_ne_null (f := priceColumn.round) (Patch.ne_null_of_get hgiven)) row.price
  obtain ⟨stock, hstock, hstockRule⟩ := h.stockQuantity
  obtain ⟨active, hactive⟩ := Patch.exists_get hu.isActive row.isActive
  have hw : Written r row p {
      id := row.id, sku := sku, name := name, brand := brand, sizeKg := sizeKg, category := category,
      unit := unit, price := price, salePrice := (p.salePrice.map priceColumn.round).get row.salePrice,
      stockQuantity := stock, description := p.description.get row.description,
      longDescription := p.longDescription.get row.longDescription,
      imageUrl := (p.imageUrl.map r.storedUrl).get row.imageUrl,
      safetyInfo := p.safetyInfo.get row.safetyInfo, pricingNote := p.pricingNote.get row.pricingNote,
      isActive := active, parentId := p.parentId.get row.parentId, colour := p.colour.get row.colour,
      variantLabel := p.variantLabel.get row.variantLabel } :=
    ⟨rfl, hsku, hname, hbrand, hsizeKg, hcategory, hunit, hprice, rfl, hstock, rfl, rfl, rfl, rfl, rfl,
      hactive, rfl, rfl, rfl⟩
  have hpositive : 0 < price := by
    have hrule : (p.price.map priceColumn.round).All (0 < ·) := Patch.all_map.mpr hu.price
    exact hrule.get_some (exists_mem_some hrow.price) price hprice
  obtain ⟨⟨s, hs, hnormalized⟩, hagain, hlength⟩ :=
    written_sku hr hrow hcolumns h hu.bindable hsku
  refine ⟨_, hw, ⟨hpositive.le, hstockRule, hunique s hs sku hnormalized, hu.parentId⟩, ?_⟩
  refine ⟨⟨name, rfl, hnameRule⟩, ⟨brand, rfl, hbrandRule⟩, Option.some_ne_none _,
    Option.some_ne_none _, Option.some_ne_none _, ⟨price, rfl, hpositive⟩, ?_, h.colour,
    h.variantLabel, ⟨sku, rfl, hlength⟩, ?_, ⟨stock, rfl, hstockRule⟩, ?_, ?_, ?_⟩
  · have hrule : (p.imageUrl.map r.storedUrl).All fun url => r.url url ≠ none := by
      rw [Patch.all_map]
      exact hu.imageUrl
    exact hrule.get hrow.imageUrl
  · intro t ht
    exact ⟨sku, Option.some.inj ht ▸ hagain⟩
  · intro hgas x hx
    have hrule := h.gasSize (hcategory.trans hgas) size hsize
    have hround : sizeKg = size := by
      cases hpatch : p.sizeKg with
      | unset =>
        simp only [mergedFields, hpatch] at hsize
        rw [hpatch] at hsizeKg
        exact (Option.some.inj hsizeKg).symm.trans (Option.some.inj hsize)
      | null =>
        simp only [mergedFields, hpatch] at hsize
        cases hsize
      | given y =>
        simp only [mergedFields, hpatch] at hsize
        rw [hpatch] at hsizeKg
        obtain rfl : y = size := Option.some.inj hsize
        exact (Option.some.inj hsizeKg).symm.trans (allowedSizes_round hrule)
    exact Option.some.inj hx ▸ hround ▸ hrule
  · intro hgas
    exact h.pricingNote (hcategory.trans hgas)
  · intro sale hsale
    obtain ⟨hpos, hbelow⟩ := hu.salePrice sale hsale
    exact ⟨hpos, fun x hx => hbelow x (hprice.trans hx)⟩

end

/-- An update is accepted exactly where the product that it makes keeps the rules if and only if, for
such a product, the caller is an administrator and nothing stands in the way. -/
theorem product_update_accepted {r : ProductReader} (hr : r.Lawful) (parents : List Uuid)
    {productId : Uuid} (p : ProductUpdate) (admin : User) {products : List ProductRow}
    {row : ProductRow} (hstored : Table.find ProductRow.id productId products = some row)
    (hrow : Rules r row.fields) (hcolumns : row.Stored r) :
    UpdateMatchesRules r parents productId p admin products row ↔
      (Rules r (mergedFields row p) →
        SkuUnique r (otherProducts productId products) (mergedFields row p) →
        admin.isAdmin = true ∧ Unobstructed r parents row p) := by
  have haccepted : (∃ new, (serveProductUpdate r parents productId p admin products).1 = .ok new) ↔
      (Rules r (mergedFields row p) ∧
        SkuUnique r (otherProducts productId products) (mergedFields row p)) ∧
      admin.isAdmin = true ∧ Unobstructed r parents row p := by
    rw [serveProductUpdate_eq_ok hstored]
    constructor
    · rintro ⟨hpayload, hadmin, new, hb, hw, hc, hnew⟩
      exact ⟨⟨rules_of_accepted hrow hcolumns hpayload hw hnew, skuUnique_of_written hcolumns hw hc.sku⟩,
        hadmin, unobstructed_of_accepted hpayload hb hw hc.parentId hnew⟩
    · rintro ⟨⟨hrules, hunique⟩, hadmin, hu⟩
      obtain ⟨new, hw, hc, hnew⟩ := accepted_of_rules hr hrow hcolumns hrules hunique hu
      exact ⟨payloadRules_of_rules hrules hu.alone, hadmin, new, hu.bindable, hw, hc, hnew⟩
  have hunchanged : ∀ e, (serveProductUpdate r parents productId p admin products).1 = .error e →
      (serveProductUpdate r parents productId p admin products).2 = products := by
    intro e he
    unfold serveProductUpdate at he ⊢
    cases h : updateProduct r parents productId p admin products with
    | error e' => rfl
    | ok result => rw [h] at he; cases he
  unfold UpdateMatchesRules
  rw [haccepted]
  constructor
  · rintro ⟨hiff, -⟩ hrules hunique
    exact (hiff.mpr ⟨hrules, hunique⟩).2
  · intro h
    exact ⟨⟨fun hall => hall.1, fun hrules => ⟨hrules, h hrules.1 hrules.2⟩⟩, hunchanged⟩

/-! A reader that takes every address, and a shop with a jug of water. -/

def sampleReader : ProductReader := ⟨Vietnamese.database, fun c => [c.toUpper], some⟩

theorem sampleReader_lawful : sampleReader.Lawful := by
  have hbounds : ∀ c, skuClasses.any (Mode.matchesClass ⟨Vietnamese.database, false⟩ c) = true →
      45 ≤ c.toNat ∧ c.toNat ≤ 90 := by
    intro c hc
    simp only [skuClasses, Mode.matchesClass, Mode.variants, Bool.false_eq_true, if_false,
      List.any_cons, List.any_nil, Bool.or_false, List.contains_cons, List.contains_nil,
      Bool.or_eq_true, Bool.and_eq_true, decide_eq_true_eq, beq_iff_eq] at hc
    rcases hc with ⟨hlow, hhigh⟩ | ⟨hlow, hhigh⟩ | rfl
    · have hlow : 65 ≤ c.toNat := hlow
      have hhigh : c.toNat ≤ 90 := hhigh
      omega
    · have hlow : 48 ≤ c.toNat := hlow
      have hhigh : c.toNat ≤ 57 := hhigh
      omega
    · decide
  constructor
  · intro c hc
    have hupper : c.toUpper = c := by
      unfold Char.toUpper
      rw [dif_neg]
      rintro ⟨hlow, -⟩
      have hlow : 97 ≤ c.toNat := hlow
      have := (hbounds c hc).2
      omega
    exact congrArg (fun d => [d]) hupper
  · intro c hc
    have hne : ∀ d ∈ [' ', '\t', '\n', '\r', '\u000B', '\u000C', '\u00A0'], c ≠ d := by
      rintro d hd rfl
      have hlisted : [' ', '\t', '\n', '\r', '\u000B', '\u000C', '\u00A0'].all
          (fun d => d.toNat < 45 || 90 < d.toNat) = true := by decide
      have hout := List.all_eq_true.mp hlisted c hd
      have := hbounds c hc
      simp only [Bool.or_eq_true, decide_eq_true_eq] at hout
      omega
    exact decide_eq_false fun hmem => hne c hmem rfl
  · rfl

def jug : ProductRow where
  id := 1
  sku := "NUOC-20"
  name := "Bình nước 20 lít"
  brand := "Vĩnh Hảo"
  sizeKg := 20
  category := .nuocUong
  unit := .lit
  price := 60000
  stockQuantity := 10
  isActive := true

theorem jug_rules : Rules sampleReader jug.fields := by
  rw [← createErrors_eq_nil]
  decide +kernel

theorem jug_stored : jug.Stored sampleReader := by
  refine ⟨by decide +kernel, ⟨6000000, by norm_num [jug, priceColumn]⟩, fun sale h => nomatch h⟩

def catalogAdmin : User := ⟨1, .admin, none, none, none, none⟩

theorem product_update_accepted_price :
    UpdateMatchesRules sampleReader [] 1 { price := .given 65000 } catalogAdmin [jug] jug := by
  refine (product_update_accepted sampleReader_lawful [] _ catalogAdmin rfl jug_rules jug_stored).mpr
    fun _ _ => ⟨rfl, ?_⟩
  have hround : priceColumn.round 65000 = 65000 := by decide +kernel
  refine ⟨Or.inr ⟨Patch.all_unset, Patch.all_unset⟩, (fun h => nomatch h), Patch.all_unset, ?_,
    Patch.all_unset, ?_, (fun sale h => nomatch h)⟩
  · have hprice : (Patch.given (65000 : Decimal)).All fun x =>
        |priceColumn.round x| < priceColumn.bound := by
      rw [Patch.all_given, hround]
      decide +kernel
    exact ⟨Patch.all_unset, Patch.all_unset, Patch.all_unset, Patch.all_unset, Patch.all_unset, hprice,
      Patch.all_unset, Patch.all_unset, Patch.all_unset, Patch.all_unset, Patch.all_unset,
      Patch.all_unset, Patch.all_unset, Patch.all_unset⟩
  · rw [Patch.all_given, hround]
    norm_num

/-- A new size for a jug is refused, because the payload does not say that it is water. -/
theorem jug_size_refused :
    updateErrors sampleReader { sizeKg := .given 19 } =
        [⟨[], some "size_kg must be one of 6, 12, or 45"⟩] ∧
      Rules sampleReader (mergedFields jug { sizeKg := .given 19 }) ∧
      ¬ ∀ (r : ProductReader) (parents : List Uuid) (productId : Uuid) (p : ProductUpdate)
        (admin : User) (products : List ProductRow) (row : ProductRow), r.Lawful →
        Table.find ProductRow.id productId products = some row → Rules r row.fields → row.Stored r →
        UpdateMatchesRules r parents productId p admin products row := by
  have hrules : Rules sampleReader (mergedFields jug { sizeKg := .given 19 }) := by
    rw [← createErrors_eq_nil]
    decide +kernel
  refine ⟨by decide +kernel, hrules, fun hclaim => ?_⟩
  have hmatches := hclaim sampleReader [] 1 { sizeKg := .given 19 } catalogAdmin [jug] jug
    sampleReader_lawful rfl jug_rules jug_stored
  obtain ⟨new, hnew⟩ := hmatches.1.mpr ⟨hrules, fun s _ sku _ q hq => nomatch hq⟩
  have hrefused : (serveProductUpdate sampleReader [] 1 { sizeKg := .given 19 } catalogAdmin [jug]).1 =
      .error (.requestValidation [⟨[], some "size_kg must be one of 6, 12, or 45"⟩]) := by
    decide +kernel
  rw [hrefused] at hnew
  cases hnew

end Qiki.Catalog
