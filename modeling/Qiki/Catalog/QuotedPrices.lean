import Qiki.Catalog.ShownAmounts
import Qiki.Catalog.Storefront
import Qiki.Text.Boundary

/-! Every price that is quoted, against the unit price that `create_order` charges. -/
namespace Qiki.Catalog

open Orders Chat Unicode

/-- Whatever is in stock, `create_order` prices every line of this product at this price. -/
def ChargedAt (p : Product) (unitPrice : Decimal) : Prop :=
  ∀ products exchange quantity row item,
    Table.find Product.id p.id products = some row → row.price = p.price →
    row.salePrice = p.salePrice → priceLine products exchange (p.id, quantity) = .ok item →
    item.unitPrice = unitPrice

theorem chargedAt_iff {p : Product} {unitPrice : Decimal} :
    ChargedAt p unitPrice ↔ unitPrice = p.effectivePrice := by
  constructor
  · intro h
    -- the product with nothing in stock, ordered zero times
    let row : Product := { p with stockQuantity := 0 }
    have hfind : Table.find Product.id p.id [row] = some row := by simp [Table.find, row]
    obtain ⟨item, hitem, hunit⟩ : ∃ item, priceLine [row] [] (p.id, 0) = .ok item ∧
        item.unitPrice = p.effectivePrice := by
      simp only [priceLine, hfind, row, Nat.cast_zero, lt_irrefl, if_false]
      exact ⟨_, rfl, rfl⟩
    exact (h _ _ _ _ _ hfind rfl rfl hitem).symm.trans hunit
  · rintro rfl products exchange quantity row item hfind hprice hsale hitem
    simp only [priceLine, hfind] at hitem
    split_ifs at hitem
    cases hitem
    rw [Product.effectivePrice, hprice, hsale, Product.effectivePrice]

/-- Behind the product's name the text prints this price. -/
def PrintsBeside (db : Database) (text : Text) (p : Product) (link : Text) (price : Decimal) :
    Prop :=
  ∃ before after,
    text = before ++ (formatProductDisplayName db p ++ (link ++ (formatVnd price ++ after)))

/-- The amount that the text shows behind the product's name is this unit price. -/
def QuotesBeside (db : Database) (text : Text) (p : Product) (link : Text) (unitPrice : Decimal) :
    Prop :=
  ∃ before after, text = before ++ (formatProductDisplayName db p ++ (link ++ after)) ∧
    (readVnd after : Decimal) = unitPrice

/-- The line of a summary up to its amount. -/
def summaryLineFront (i : ChatOrderItem × Product) : Text :=
  "- " ++ (i.2.name : Text) ++ " (" ++ (i.2.brand : Text) ++ ") × " ++
    Text.ofNat (i.1.quantity.getD 0) ++ " — "

/-- What stands between the product and its price in a superlative answer. -/
def superlativeLink (p : Product) (language : Language) : Text :=
  " (" ++ (p.brand : Text) ++ match language with
    | .en => "), priced at "
    | .vi => "), giá "

/-- The surfaces that read `effective_price` show this unit price for the product. -/
structure RoutedQuotes (db : Database) (p : Product) (unitPrice : Decimal) : Prop where
  orderSummary : ∀ item : ChatOrderItem, ∃ after,
    summaryLine (item, p) = summaryLineFront (item, p) ++ after ∧
      (readVnd after : Decimal) = unitPrice * item.quantity.getD 0
  superlative : ∀ query label language,
    QuotesBeside db (superlativePriceMessage db query p label language) p (superlativeLink p language)
      unitPrice
  priceRange : ∀ query found language, p ∈ found.take 5 →
    QuotesBeside db (priceRangeMessage db query found language) p " (" unitPrice
  catalogList : ∀ header items text, p ∈ items → catalogList db header items = some text →
    QuotesBeside db text p " - " unitPrice
  chatCard : (productToCard p).price = unitPrice
  searchTool : (Agent.searchResult p).get "price" = some (.str (Agent.twoPlaces unitPrice))
  reorder : ∀ orders products orderId user items skipped,
    reorder orders products orderId user = .ok (items, skipped) →
    Table.find Product.id p.id products = some p →
    ∀ i ∈ items, i.productId = p.id → i.price = unitPrice

/-- The surfaces that read the list price show this unit price for a gas product. -/
structure GasQuotes (p : Product) (unitPrice : Decimal) : Prop where
  alertName : (gasPriceRow p).1 = alertDisplayName p
  alertPrice : (readVnd (gasPriceRow p).2 : Decimal) = unitPrice
  minPrice : (summarizeProduct p).minPrice = unitPrice
  maxPrice : (summarizeProduct p).maxPrice = unitPrice

/-- The unit prices charged for the active variants of a parent. -/
def ProductParent.chargedPrices (parent : ProductParent) : Set Decimal :=
  {unitPrice | ∃ variant ∈ parent.activeVariants, ChargedAt variant unitPrice}

/-- The card of a parent spans the prices that are charged. -/
structure RangeCharged (parent : ProductParent) : Prop where
  minPrice : IsLeast parent.chargedPrices (summarizeParent parent).minPrice
  maxPrice : IsGreatest parent.chargedPrices (summarizeParent parent).maxPrice

/-- Every quote of the shop is the price charged. -/
structure QuotesCharged (db : Database) (shop : Shop) : Prop where
  routed : ∀ p ∈ shop.activeProducts, ∀ unitPrice, ChargedAt p unitPrice →
    RoutedQuotes db p unitPrice
  gas : ∀ p ∈ shop.activeProducts, p.category = .gas → ∀ unitPrice, ChargedAt p unitPrice →
    GasQuotes p unitPrice
  ranges : ∀ parent ∈ shop.waterParents, parent.activeVariants ≠ [] → RangeCharged parent

/-- The sale price is a discount on the list price. -/
def OnSale (p : Product) : Prop := ∃ sale ∈ p.salePrice, 0 < sale ∧ sale < p.price

theorem effectivePrice_of_not_onSale {p : Product} (h : ¬OnSale p) : p.effectivePrice = p.price := by
  unfold Product.effectivePrice effectivePrice
  split
  case h_1 sale hsale => exact if_neg fun hs => h ⟨sale, hsale, hs⟩
  case h_2 => rfl

theorem effectivePrice_of_onSale {p : Product} {sale : Decimal} (hsale : p.salePrice = some sale)
    (h : 0 < sale ∧ sale < p.price) : p.effectivePrice = sale := by
  unfold Product.effectivePrice effectivePrice
  rw [hsale]
  exact if_pos h

theorem effectivePrice_eq_price_iff {p : Product} : p.effectivePrice = p.price ↔ ¬OnSale p := by
  refine ⟨?_, effectivePrice_of_not_onSale⟩
  rintro heq ⟨sale, hsale, hs⟩
  rw [effectivePrice_of_onSale hsale hs] at heq
  exact hs.2.ne heq

theorem effectivePrice_le (p : Product) : p.effectivePrice ≤ p.price := by
  by_cases h : OnSale p
  · obtain ⟨sale, hsale, hs⟩ := h
    rw [effectivePrice_of_onSale hsale hs]
    exact hs.2.le
  · exact (effectivePrice_of_not_onSale h).le

/-- No sale moves the ends of the price range of the parent. -/
def RangeUntouched (parent : ProductParent) : Prop :=
  (∀ v ∈ parent.activeVariants, ∀ sale ∈ v.salePrice, 0 < sale → sale < v.price →
    ∃ w ∈ parent.activeVariants, w.price ≤ sale) ∧
  ∃ v ∈ parent.activeVariants, ¬OnSale v ∧ ∀ w ∈ parent.activeVariants, w.price ≤ v.price

theorem chargedPrices_eq (parent : ProductParent) :
    parent.chargedPrices = {x | ∃ v ∈ parent.activeVariants, x = v.effectivePrice} := by
  simp only [ProductParent.chargedPrices, chargedAt_iff]

/-- The least list price of the active variants. -/
theorem minPrice_spec {parent : ProductParent} (h : parent.activeVariants ≠ []) :
    (∃ v ∈ parent.activeVariants, v.price = (summarizeParent parent).minPrice) ∧
      ∀ v ∈ parent.activeVariants, (summarizeParent parent).minPrice ≤ v.price := by
  obtain ⟨m, hm⟩ : ∃ m, (parent.activeVariants.map (·.price)).min? = some m :=
    Option.isSome_iff_exists.mp (by simpa [List.isSome_min?_iff] using h)
  obtain ⟨hmem, hle⟩ := List.min?_eq_some_iff.mp hm
  have hmin : (summarizeParent parent).minPrice = m := by simp only [summarizeParent, hm]; rfl
  rw [hmin]
  exact ⟨List.mem_map.mp hmem, fun v hv => hle _ (List.mem_map_of_mem hv)⟩

/-- The greatest list price of the active variants. -/
theorem maxPrice_spec {parent : ProductParent} (h : parent.activeVariants ≠ []) :
    (∃ v ∈ parent.activeVariants, v.price = (summarizeParent parent).maxPrice) ∧
      ∀ v ∈ parent.activeVariants, v.price ≤ (summarizeParent parent).maxPrice := by
  obtain ⟨m, hm⟩ : ∃ m, (parent.activeVariants.map (·.price)).max? = some m :=
    Option.isSome_iff_exists.mp (by simpa [List.isSome_max?_iff] using h)
  obtain ⟨hmem, hle⟩ := List.max?_eq_some_iff.mp hm
  have hmax : (summarizeParent parent).maxPrice = m := by simp only [summarizeParent, hm]; rfl
  rw [hmax]
  exact ⟨List.mem_map.mp hmem, fun v hv => hle _ (List.mem_map_of_mem hv)⟩

theorem isLeast_minPrice_iff {parent : ProductParent} (h : parent.activeVariants ≠ []) :
    IsLeast parent.chargedPrices (summarizeParent parent).minPrice ↔
      ∀ v ∈ parent.activeVariants, ∀ sale ∈ v.salePrice, 0 < sale → sale < v.price →
        ∃ w ∈ parent.activeVariants, w.price ≤ sale := by
  obtain ⟨⟨cheapest, hcheapest, hprice⟩, hle⟩ := minPrice_spec h
  rw [chargedPrices_eq]
  constructor
  · rintro ⟨-, hlower⟩ v hv sale hsale hpos hlt
    refine ⟨cheapest, hcheapest, hprice.trans_le (hlower ⟨v, hv, ?_⟩)⟩
    exact (effectivePrice_of_onSale hsale ⟨hpos, hlt⟩).symm
  · intro hsales
    have hlower : ∀ v ∈ parent.activeVariants, (summarizeParent parent).minPrice ≤ v.effectivePrice := by
      intro v hv
      by_cases hon : OnSale v
      · obtain ⟨sale, hsale, hs⟩ := hon
        obtain ⟨w, hw, hwle⟩ := hsales v hv sale hsale hs.1 hs.2
        rw [effectivePrice_of_onSale hsale hs]
        exact (hle w hw).trans hwle
      · rw [effectivePrice_of_not_onSale hon]
        exact hle v hv
    refine ⟨⟨cheapest, hcheapest, le_antisymm (hlower _ hcheapest) ?_⟩, ?_⟩
    · exact (effectivePrice_le cheapest).trans_eq hprice
    · rintro x ⟨v, hv, rfl⟩
      exact hlower v hv

theorem isGreatest_maxPrice_iff {parent : ProductParent} (h : parent.activeVariants ≠ []) :
    IsGreatest parent.chargedPrices (summarizeParent parent).maxPrice ↔
      ∃ v ∈ parent.activeVariants, ¬OnSale v ∧ ∀ w ∈ parent.activeVariants, w.price ≤ v.price := by
  obtain ⟨⟨dearest, hdearest, hprice⟩, hle⟩ := maxPrice_spec h
  rw [chargedPrices_eq]
  constructor
  · rintro ⟨⟨v, hv, heq⟩, -⟩
    have hv_price : v.price = (summarizeParent parent).maxPrice :=
      le_antisymm (hle v hv) (heq.trans_le (effectivePrice_le v))
    refine ⟨v, hv, effectivePrice_eq_price_iff.mp (heq.symm.trans hv_price.symm), fun w hw => ?_⟩
    exact (hle w hw).trans_eq hv_price.symm
  · rintro ⟨v, hv, hnot, hmax⟩
    refine ⟨⟨v, hv, ?_⟩, ?_⟩
    · rw [effectivePrice_of_not_onSale hnot]
      exact le_antisymm (hprice.symm.trans_le (hmax _ hdearest)) (hle v hv)
    · rintro x ⟨w, hw, rfl⟩
      exact (effectivePrice_le w).trans (hle w hw)

theorem rangeCharged_iff {parent : ProductParent} (h : parent.activeVariants ≠ []) :
    RangeCharged parent ↔ RangeUntouched parent :=
  ⟨fun hr => ⟨(isLeast_minPrice_iff h).mp hr.minPrice, (isGreatest_maxPrice_iff h).mp hr.maxPrice⟩,
    fun hr => ⟨(isLeast_minPrice_iff h).mpr hr.1, (isGreatest_maxPrice_iff h).mpr hr.2⟩⟩

/-- A printed price is the amount shown when it is whole. -/
theorem PrintsBeside.quotes {db : Database} {text : Text} {p : Product} {link : Text}
    {price : Decimal} (h : PrintsBeside db text p link price) (hwhole : WholeDong price) :
    QuotesBeside db text p link price := by
  obtain ⟨before, after, htext⟩ := h
  refine ⟨before, formatVnd price ++ after, htext, ?_⟩
  rw [readVnd_formatVnd]
  exact truncated_eq_iff.mpr hwhole

section
variable (db : Database) (p : Product)

theorem superlative_prints (query : ProductQuery) (label : Text) (language : Language) :
    PrintsBeside db (superlativePriceMessage db query p label language) p (superlativeLink p language)
      p.effectivePrice := by
  cases language with
  | vi =>
    refine ⟨"Dạ loại " ++ priceScopeLabel query .vi ++ " " ++ label ++ " là ", " ạ.", ?_⟩
    unfold superlativePriceMessage superlativeLink
    simp only [List.append_assoc]
  | en =>
    refine ⟨"The " ++ label ++ " " ++ priceScopeLabel query .en ++ " option is ", ".", ?_⟩
    unfold superlativePriceMessage superlativeLink
    simp only [List.append_assoc]

theorem priceRange_prints (query : ProductQuery) {found : List Product} (language : Language)
    (h : p ∈ found.take 5) :
    PrintsBeside db (priceRangeMessage db query found language) p " (" p.effectivePrice := by
  have hoption := List.mem_map_of_mem
    (f := fun q => formatProductDisplayName db q ++ " (" ++ formatVnd q.effectivePrice ++ ")") h
  obtain ⟨before, after, hjoin⟩ := Text.exists_join_of_mem "; " hoption
  simp only [List.append_assoc] at hjoin
  unfold priceRangeMessage
  cases language with
  | vi =>
    refine ⟨"Dạ loại " ++ priceScopeLabel query .vi ++ " " ++
      (rangeWord query.priceKind .vi ++ (query.priceValue.map formatVnd).getD []) ++ " có: " ++ before,
      ")" ++ (after ++ " ạ."), ?_⟩
    simp only [List.append_assoc, hjoin]
  | en =>
    refine ⟨"The " ++ priceScopeLabel query .en ++ " options " ++
      (rangeWord query.priceKind .en ++ (query.priceValue.map formatVnd).getD []) ++ " are: " ++ before,
      ")" ++ (after ++ "."), ?_⟩
    simp only [List.append_assoc, hjoin]

theorem catalogList_prints {header text : Text} {items : List Product} (h : p ∈ items)
    (hlist : catalogList db header items = some text) :
    PrintsBeside db text p " - " p.effectivePrice := by
  obtain ⟨ordered, closing, hmem, rfl⟩ : ∃ (ordered : List Product) (closing : Text), p ∈ ordered ∧
      text = Text.join "\n" ((header :: ordered.map fun q =>
        "- " ++ formatProductDisplayName db q ++ " - " ++ formatVnd q.effectivePrice) ++ [closing]) := by
    simp only [catalogList] at hlist
    split_ifs at hlist
    rw [← Option.some.inj hlist, List.concat_eq_append]
    exact ⟨_, _, (List.mem_insertionSort _).mpr h, rfl⟩
  have hline := List.mem_map_of_mem (f := fun q =>
    "- " ++ formatProductDisplayName db q ++ " - " ++ formatVnd q.effectivePrice) hmem
  obtain ⟨before, after, hjoin⟩ := Text.exists_join_of_mem "\n"
    (List.mem_append_left [closing] (List.mem_cons_of_mem header hline))
  refine ⟨before ++ "- ", after, ?_⟩
  rw [hjoin]
  simp only [List.append_assoc]

theorem reorder_price {orders : List Order} {products : List Product} {orderId : Uuid} {user : User}
    {items : List ReorderItem} {skipped : List SkippedReorderItem}
    (h : reorder orders products orderId user = .ok (items, skipped)) :
    ∀ i ∈ items, ∃ q, Table.find Product.id i.productId products = some q ∧
      i.price = q.effectivePrice := by
  unfold reorder at h
  split at h
  · cases h
  split_ifs at h
  obtain ⟨rfl, -⟩ := Prod.mk.inj (Except.ok.inj h)
  intro i hi
  obtain ⟨result, hresult, hok⟩ := List.mem_filterMap.mp hi
  obtain ⟨line, -, rfl⟩ := List.mem_map.mp hresult
  unfold reorderLine at hok
  split at hok
  · cases hok
  case h_2 q hq =>
    obtain ⟨id, -, hfind⟩ := Option.bind_eq_some_iff.mp hq
    split_ifs at hok
    · cases hok
    · cases hok
    · cases hok
      exact ⟨q, by rwa [Table.key_of_find hfind], rfl⟩

/-- These surfaces quote what is charged when it is a whole number of đồng. -/
theorem routedQuotes_iff : RoutedQuotes db p p.effectivePrice ↔ WholeDong p.effectivePrice := by
  constructor
  · intro h
    obtain ⟨after, -, hread⟩ := h.orderSummary ⟨none, some 1⟩
    refine ⟨readVnd after, hread.trans ?_⟩
    simp
  · intro hwhole
    constructor
    · intro item
      refine ⟨formatVnd (lineTotal (item, p)), rfl, ?_⟩
      rw [readVnd_formatVnd_self]
      exact truncated_eq_iff.mpr (hwhole.mul_natCast _)
    · intro query label language
      exact (superlative_prints db p query label language).quotes hwhole
    · intro query found language h
      exact (priceRange_prints db p query language h).quotes hwhole
    · intro header items text h hlist
      exact (catalogList_prints db p h hlist).quotes hwhole
    · rfl
    · rfl
    · intro orders products orderId user items skipped h hfind i hi hid
      obtain ⟨q, hq, hprice⟩ := reorder_price h i hi
      rw [hid, hfind] at hq
      rw [hprice, Option.some.inj hq]

end

/-- A gas product is quoted at what is charged when it is not on sale and the price is whole. -/
theorem gasQuotes_iff {p : Product} :
    GasQuotes p p.effectivePrice ↔ ¬OnSale p ∧ WholeDong p.effectivePrice := by
  rw [← effectivePrice_eq_price_iff]
  have hrow : readVnd (gasPriceRow p).2 = truncated p.price := readVnd_formatVnd_self p.price
  constructor
  · intro h
    exact ⟨h.minPrice.symm, _, h.alertPrice⟩
  · rintro ⟨hlist, hwhole⟩
    refine ⟨rfl, ?_, hlist.symm, hlist.symm⟩
    rw [hrow, ← hlist]
    exact truncated_eq_iff.mpr hwhole

/-- Every quote is the price charged exactly when every charged price is a whole number of đồng, no
gas product is on sale and no sale moves an end of the price range of a water card. -/
theorem quotesCharged_iff (db : Database) (shop : Shop) :
    QuotesCharged db shop ↔
      (∀ p ∈ shop.activeProducts, WholeDong p.effectivePrice) ∧
      (∀ p ∈ shop.activeProducts, p.category = .gas → ¬OnSale p) ∧
      ∀ parent ∈ shop.waterParents, parent.activeVariants ≠ [] → RangeUntouched parent := by
  constructor
  · rintro ⟨hrouted, hgas, hranges⟩
    refine ⟨fun p hp => ?_, fun p hp hcategory => ?_, fun parent hparent hvariants => ?_⟩
    · exact (routedQuotes_iff db p).mp (hrouted p hp _ (chargedAt_iff.mpr rfl))
    · exact (gasQuotes_iff.mp (hgas p hp hcategory _ (chargedAt_iff.mpr rfl))).1
    · exact (rangeCharged_iff hvariants).mp (hranges parent hparent hvariants)
  · rintro ⟨hwhole, hgas, hranges⟩
    refine ⟨fun p hp price hprice => ?_, fun p hp hcategory price hprice => ?_,
      fun parent hparent hvariants => ?_⟩
    · rw [chargedAt_iff.mp hprice]
      exact (routedQuotes_iff db p).mpr (hwhole p hp)
    · rw [chargedAt_iff.mp hprice]
      exact gasQuotes_iff.mpr ⟨hgas p hp hcategory, hwhole p hp⟩
    · exact (rangeCharged_iff hvariants).mpr (hranges parent hparent hvariants)

/-- A gas cylinder at 350.000đ instead of 400.000đ. -/
def gasOnSale : Product where
  id := 2
  sku := "ELF-12"
  name := "Gas Elf đỏ"
  brand := "Elf Gas"
  sizeKg := 12
  category := .gas
  unit := "kg"
  price := 400000
  salePrice := some 350000
  stockQuantity := 10
  isActive := true

/-- The card and the price alert of a gas product on sale show its list price. -/
theorem list_price_quoted : ¬ ∀ db shop, (∀ p ∈ shop.products, 0 < p.price ∧
    ∀ sale ∈ p.salePrice, 0 < sale ∧ sale < p.price) → QuotesCharged db shop := by
  intro h
  have hquotes := h Vietnamese.database ⟨[gasOnSale], []⟩ (by decide +kernel)
  have hcard := (hquotes.gas gasOnSale (by decide) rfl _ (chargedAt_iff.mpr rfl)).minPrice
  exact absurd hcard (by decide +kernel)

end Qiki.Catalog
