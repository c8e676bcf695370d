import Qiki.Client.Cart
import Qiki.Collections.Families

/-! The listing of the shop page, where the water products of one parent share a card. -/
namespace Qiki.Client

open Orders

/-- A product of the catalog as the client reads it. -/
structure CatalogProduct extends Orders.Product where
  parentId : Option Uuid
  deriving DecidableEq, Repr

/-- `effectivePrice` of `pricing.ts`. -/
def CatalogProduct.charged (product : CatalogProduct) : Decimal :=
  effectivePriceValue product.price product.salePrice

/-- Adds a product to the water products of its parent. -/
def groupWater (groups : List (Uuid × List CatalogProduct)) (product : CatalogProduct) :
    List (Uuid × List CatalogProduct) :=
  match product.parentId with
  | some parentId =>
    if product.category = .nuocUong then
      Dict.alter parentId (fun siblings => siblings.getD [] ++ [product]) groups
    else groups
  | none => groups

/-- `siblings.reduce(...)`; the groups are never empty. -/
def cheapest : List CatalogProduct → Option CatalogProduct
  | [] => none
  | first :: siblings => some (siblings.foldl
      (fun min variant => if variant.price < min.price then variant else min) first)

def groupWaterVariants (products : List CatalogProduct) : List CatalogProduct :=
  let waterGroups := products.foldl groupWater []
  let groups := (waterGroups.map Prod.snd).filter fun siblings => 1 < siblings.length
  let representativeIds := groups.filterMap fun siblings => (cheapest siblings).map (·.id)
  let groupedOutIds := groups.flatMap fun siblings => siblings.map (·.id)
  products.filter fun product =>
    !groupedOutIds.contains product.id || representativeIds.contains product.id

/-! What the listing is for. -/

/-- The family of a water product. -/
def waterFamily (product : CatalogProduct) : Option Uuid :=
  if product.category = .nuocUong then product.parentId else none

def variants (parentId : Uuid) (products : List CatalogProduct) : List CatalogProduct :=
  Families.members waterFamily parentId products

/-- The product is a water product that has a sibling in the list. -/
def Grouped (products : List CatalogProduct) (product : CatalogProduct) : Prop :=
  ∃ parentId, waterFamily product = some parentId ∧ 1 < (variants parentId products).length

/-- Each family of water products shows the variant that costs least, and the rest stays. -/
structure Collapsed (products shown : List CatalogProduct) : Prop where
  others : ∀ product ∈ products, ¬ Grouped products product → product ∈ shown
  one : ∀ parentId, 1 < (variants parentId products).length →
    ∃ product ∈ variants parentId products, variants parentId shown = [product] ∧
      ∀ variant ∈ variants parentId products, product.charged ≤ variant.charged
  order : shown.Sublist products
  idempotent : groupWaterVariants shown = shown

/-- In every family, the first of the variants with the least list price is charged least. -/
def ListPriceDecides (products : List CatalogProduct) : Prop :=
  ∀ parentId before product after, variants parentId products = before ++ product :: after →
    (∀ variant ∈ before, product.price < variant.price) →
    (∀ variant ∈ after, product.price ≤ variant.price) →
    ∀ variant ∈ variants parentId products, product.charged ≤ variant.charged

theorem groupWater_eq : groupWater = Families.put waterFamily := by
  funext groups product
  unfold groupWater Families.put waterFamily
  by_cases h : product.category = .nuocUong
  · simp only [h, if_true]
    cases product.parentId <;> rfl
  · simp only [h, if_false]
    cases product.parentId <;> rfl

theorem cheapest_eq (siblings : List CatalogProduct) :
    cheapest siblings = Families.firstLeast (fun variant => variant.price) siblings := by
  cases siblings <;> rfl

theorem mem_groups {products siblings : List CatalogProduct} :
    siblings ∈ ((products.foldl groupWater []).map Prod.snd).filter (fun l => 1 < l.length) ↔
      ∃ parentId, variants parentId products = siblings ∧ 1 < siblings.length := by
  rw [List.mem_filter, List.mem_map, decide_eq_true_iff, groupWater_eq]
  constructor
  · rintro ⟨⟨⟨parentId, l⟩, hl, rfl⟩, hlength⟩
    exact ⟨parentId, (Families.mem_collect.mp hl).2, hlength⟩
  · rintro ⟨parentId, hmembers, hlength⟩
    have hne : siblings ≠ [] := by
      rintro rfl
      exact absurd hlength (by decide)
    exact ⟨⟨(parentId, siblings), Families.mem_collect.mpr ⟨hne, hmembers⟩, rfl⟩, hlength⟩

/-- The ids tell the products apart, so the listing is the collapsed list. -/
theorem groupWaterVariants_eq {products : List CatalogProduct}
    (hids : (products.map (·.id)).Nodup) : groupWaterVariants products =
      Families.collapse waterFamily (fun product => product.price) products := by
  refine List.filter_congr fun product hproduct => ?_
  have hsame {variant : CatalogProduct} (hvariant : variant ∈ products)
      (hid : variant.id = product.id) : variant = product :=
    List.inj_on_of_nodup_map hids hvariant hproduct hid
  rw [Bool.eq_iff_iff, Bool.or_eq_true, Bool.not_eq_true', ← Bool.not_eq_true,
    List.contains_iff_mem, List.contains_iff_mem, List.mem_flatMap, List.mem_filterMap]
  have hgrouped : (∃ siblings ∈ ((products.foldl groupWater []).map Prod.snd).filter
      (fun l => 1 < l.length), product.id ∈ siblings.map (·.id)) ↔ Grouped products product := by
    constructor
    · rintro ⟨siblings, hsiblings, hid⟩
      obtain ⟨parentId, rfl, hlength⟩ := mem_groups.mp hsiblings
      obtain ⟨variant, hvariant, hid⟩ := List.mem_map.mp hid
      obtain ⟨hmem, hfamily⟩ := Families.mem_members.mp hvariant
      exact ⟨parentId, hsame hmem hid ▸ hfamily, hlength⟩
    · rintro ⟨parentId, hfamily, hlength⟩
      exact ⟨_, mem_groups.mpr ⟨parentId, rfl, hlength⟩,
        List.mem_map_of_mem (Families.mem_members.mpr ⟨hproduct, hfamily⟩)⟩
  have hchosen : (∃ siblings ∈ ((products.foldl groupWater []).map Prod.snd).filter
      (fun l => 1 < l.length), (cheapest siblings).map (·.id) = some product.id) ↔
      ∃ parentId, 1 < (variants parentId products).length ∧
        Families.firstLeast (fun variant => variant.price) (variants parentId products) =
          some product := by
    constructor
    · rintro ⟨siblings, hsiblings, hid⟩
      obtain ⟨parentId, rfl, hlength⟩ := mem_groups.mp hsiblings
      obtain ⟨variant, hvariant, hid⟩ := Option.map_eq_some_iff.mp hid
      rw [cheapest_eq] at hvariant
      have hmem := (Families.mem_members.mp (Families.mem_of_firstLeast hvariant)).1
      exact ⟨parentId, hlength, hsame hmem hid ▸ hvariant⟩
    · rintro ⟨parentId, hlength, hleast⟩
      refine ⟨_, mem_groups.mpr ⟨parentId, rfl, hlength⟩, ?_⟩
      rw [cheapest_eq, hleast]
      rfl
  rw [hgrouped, hchosen]
  unfold Families.kept Grouped
  cases hfamily : waterFamily product with
  | none => simp
  | some parentId =>
    have hown {other : Uuid} (hother : Families.firstLeast (fun variant => variant.price)
        (variants other products) = some product) : other = parentId := by
      have hmem := (Families.mem_members.mp (Families.mem_of_firstLeast hother)).2
      exact Option.some.inj (hmem.symm.trans hfamily)
    simp only [Option.some.injEq, exists_eq_left', not_lt, Option.all_some, Bool.or_eq_true,
      decide_eq_true_iff]
    constructor
    · rintro (hsingle | ⟨other, -, hleast⟩)
      · exact Or.inl hsingle
      · exact Or.inr (hown hleast ▸ hleast)
    · rintro (hsingle | hleast)
      · exact Or.inl hsingle
      · by_cases hmany : 1 < (variants parentId products).length
        · exact Or.inr ⟨parentId, hmany, hleast⟩
        · exact Or.inl (not_lt.mp hmany)

/-- Without a sale the list prices are the charged ones. -/
theorem listPriceDecides_of_no_sale {products : List CatalogProduct}
    (h : ∀ product ∈ products, product.salePrice = none) : ListPriceDecides products := by
  intro parentId before product after hsplit hbefore hafter variant hvariant
  have hcharged : ∀ p ∈ variants parentId products, p.charged = p.price := by
    intro p hp
    rw [CatalogProduct.charged, h p (Families.mem_members.mp hp).1]
    rfl
  have hproduct : product ∈ variants parentId products := by
    rw [hsplit]
    exact List.mem_append_right before List.mem_cons_self
  rw [hcharged product hproduct, hcharged variant hvariant]
  rw [hsplit] at hvariant
  rcases List.mem_append.mp hvariant with hvariant | hvariant
  · exact (hbefore variant hvariant).le
  · rcases List.mem_cons.mp hvariant with rfl | hvariant
    · exact le_refl variant.price
    · exact hafter variant hvariant

/-- The listing shows the cheapest variants exactly when no sale changes which one is cheapest. -/
theorem groupWaterVariants_collapsed_iff (products : List CatalogProduct)
    (hids : (products.map (·.id)).Nodup) :
    Collapsed products (groupWaterVariants products) ↔ ListPriceDecides products := by
  have hnodup : products.Nodup := List.Nodup.of_map _ hids
  have hshown := groupWaterVariants_eq hids
  constructor
  · intro h parentId before product after hsplit hbefore hafter variant hvariant
    by_cases hmany : 1 < (variants parentId products).length
    · have hleast : Families.firstLeast (fun product : CatalogProduct => product.price)
          (Families.members waterFamily parentId products) = some product :=
        Families.firstLeast_eq_some.mpr ⟨before, after, hsplit, hbefore, hafter⟩
      obtain ⟨chosen, -, hone, hcharged⟩ := h.one parentId hmany
      have hmembers := Families.members_collapse hnodup hmany hleast
      rw [variants, hshown, hmembers] at hone
      obtain rfl := List.singleton_inj.mp hone
      exact hcharged variant hvariant
    · have hone : variants parentId products = [product] := by
        have hlength := congrArg List.length hsplit
        rw [List.length_append, List.length_cons] at hlength
        have hfirst : before = [] := List.length_eq_zero_iff.mp (by omega)
        have hlast : after = [] := List.length_eq_zero_iff.mp (by omega)
        rw [hsplit, hfirst, hlast]
        rfl
      rw [hone, List.mem_singleton] at hvariant
      rw [hvariant]
  · intro h
    refine ⟨fun product hproduct hgrouped => ?_, fun parentId hmany => ?_, ?_, ?_⟩
    · rw [hshown]
      refine List.mem_filter.mpr ⟨hproduct, ?_⟩
      unfold Families.kept
      cases hfamily : waterFamily product with
      | none => rfl
      | some parentId =>
        have hsingle : (Families.members waterFamily parentId products).length ≤ 1 :=
          not_lt.mp fun hmany => hgrouped ⟨parentId, hfamily, hmany⟩
        simp [hsingle]
    · have hne : variants parentId products ≠ [] := by
        intro hnil
        rw [hnil] at hmany
        exact absurd hmany (by decide)
      obtain ⟨product, hleast⟩ := Families.exists_firstLeast
        (fun product : CatalogProduct => product.price) hne
      obtain ⟨before, after, hsplit, hbefore, hafter⟩ := Families.firstLeast_eq_some.mp hleast
      refine ⟨product, Families.mem_of_firstLeast hleast, ?_,
        h parentId before product after hsplit hbefore hafter⟩
      rw [variants, hshown]
      exact Families.members_collapse hnodup hmany hleast
    · exact List.filter_sublist
    · have hsub : (groupWaterVariants products).Sublist products := List.filter_sublist
      rw [groupWaterVariants_eq (hids.sublist (hsub.map _)), hshown]
      exact Families.collapse_collapse hnodup

/-- A bottle of water; the price is the list price. -/
def waterBottle (id : Uuid) (price : Decimal) (salePrice : Option Decimal) : CatalogProduct where
  id := id
  sku := ""
  name := ""
  brand := ""
  sizeKg := 20
  category := .nuocUong
  unit := "bình"
  price := price
  salePrice := salePrice
  stockQuantity := 5
  isActive := true
  parentId := some 7

theorem list_prices_decide : Collapsed [waterBottle 1 55000 none, waterBottle 2 60000 none]
    (groupWaterVariants [waterBottle 1 55000 none, waterBottle 2 60000 none]) := by
  have hids : ([waterBottle 1 55000 none, waterBottle 2 60000 none].map (·.id)).Nodup := by decide
  exact (groupWaterVariants_collapsed_iff _ hids).mpr (listPriceDecides_of_no_sale (by decide))

/-- The bottle on sale costs less than the one that is shown. -/
theorem sale_hidden : ¬ ∀ products : List CatalogProduct, (products.map (·.id)).Nodup →
    Collapsed products (groupWaterVariants products) := by
  intro h
  have hcollapsed := h [waterBottle 1 60000 (some 40000), waterBottle 2 55000 none] (by decide)
  obtain ⟨product, -, hone, hcharged⟩ := hcollapsed.one 7 (by decide)
  have hshown : variants 7 (groupWaterVariants
      [waterBottle 1 60000 (some 40000), waterBottle 2 55000 none]) = [waterBottle 2 55000 none] := by
    decide +kernel
  rw [hshown] at hone
  obtain rfl := List.singleton_inj.mp hone
  have hless := hcharged (waterBottle 1 60000 (some 40000)) (by decide)
  exact absurd hless (by decide +kernel)

end Qiki.Client
