import Qiki.Chat.CartIdentity

/-! The catalog products in a cart, and what the operations on its items do to them. -/
namespace Qiki.Chat

open Unicode Orders

section
variable (db : Database) (products : List Product)

/-- The id of the product that a text means. -/
def meant (text : Option Text) : Option Uuid := (matchProduct db text products).map (·.id)

/-- The products that the items of a cart stand for. -/
def cartProducts (items : List ChatOrderItem) : List Uuid :=
  items.filterMap fun item => meant db products item.product

variable {db products}

@[simp] theorem cartProducts_nil : cartProducts db products [] = [] := rfl

theorem cartProducts_append (items items' : List ChatOrderItem) :
    cartProducts db products (items ++ items') =
      cartProducts db products items ++ cartProducts db products items' :=
  List.filterMap_append ..

theorem meant_of_not_present {text : Option Text} (h : present text = false) :
    meant db products text = none := by
  simp [meant, matchProduct, h]

theorem present_of_meant {text : Option Text} {id : Uuid} (h : meant db products text = some id) :
    present text = true := by
  by_contra hnone
  rw [meant_of_not_present (Bool.not_eq_true _ ▸ hnone)] at h
  cases h

theorem cartProducts_of_not_present {items : List ChatOrderItem}
    (h : ∀ item ∈ items, present item.product = false) : cartProducts db products items = [] :=
  List.filterMap_eq_nil_iff.mpr fun item hitem => meant_of_not_present (h item hitem)

/-- A change of one item that leaves its product alone. -/
theorem cartProducts_modify {f : ChatOrderItem → ChatOrderItem} (items : List ChatOrderItem) (i : ℕ)
    (h : ∀ item, items[i]? = some item →
      meant db products (f item).product = meant db products item.product) :
    cartProducts db products (items.modify i f) = cartProducts db products items := by
  induction items generalizing i with
  | nil => cases i <;> rfl
  | cons item items ih =>
    cases i with
    | zero =>
      have hitem : meant db products (f item).product = meant db products item.product := h item rfl
      simp only [List.modify_zero_cons, cartProducts, List.filterMap_cons, hitem]
    | succ i =>
      have hrest := ih i fun x hx => h x hx
      simp only [cartProducts] at hrest
      simp only [List.modify_succ_cons, cartProducts, List.filterMap_cons, hrest]

/-- The item that is found for a candidate means the same product. -/
theorem findMatchingItemIndex_eq_some {items : List ChatOrderItem} {candidate : ChatOrderItem}
    {i : ℕ} (h : findMatchingItemIndex db items candidate products = some i) :
    ∃ id, meant db products candidate.product = some id ∧
      ∀ item, items[i]? = some item → meant db products item.product = some id := by
  unfold findMatchingItemIndex at h
  split at h
  · cases h
  case h_2 p hp =>
    refine ⟨p.id, by simp [meant, hp], fun item hitem => ?_⟩
    obtain ⟨hlt, hfound, -⟩ := List.findIdx?_eq_some_iff_getElem.mp h
    rw [List.getElem?_eq_getElem hlt] at hitem
    rw [Option.some.inj hitem] at hfound
    obtain ⟨q, hq, hid⟩ := Option.any_eq_true _ _ |>.mp hfound
    rw [meant, hq, Option.map_some, of_decide_eq_true hid]

theorem cartProducts_mergeCandidateItems (items : List ChatOrderItem) (incoming : ChatOrderItem) :
    cartProducts db products items ⊆
      cartProducts db products (mergeCandidateItems db items incoming products) := by
  unfold mergeCandidateItems
  split_ifs with hempty
  · rw [List.isEmpty_iff.mp hempty]
    exact List.nil_subset _
  · split
    · rw [cartProducts_append]
      exact List.subset_append_left _ _
    case h_2 i hi =>
      obtain ⟨id, -, hitem⟩ := findMatchingItemIndex_eq_some hi
      rw [cartProducts_modify items i fun item hget => ?_]
      · exact List.Subset.refl _
      · rw [orElse_of_present (present_of_meant (hitem item hget))]

theorem cartProducts_overwrite {items : List ChatOrderItem} {candidate : ChatOrderItem} {i : ℕ}
    (h : findMatchingItemIndex db items candidate products = some i) :
    cartProducts db products (items.modify i (overwriteItem candidate)) =
      cartProducts db products items := by
  obtain ⟨id, hcandidate, hitem⟩ := findMatchingItemIndex_eq_some h
  refine cartProducts_modify items i fun item hget => ?_
  rw [overwriteItem, orElse_of_present (present_of_meant hcandidate), hcandidate, hitem item hget]

theorem cartProducts_mergeExistingItem (slots : ChatOrderSlots) (candidate : ChatOrderItem) :
    cartProducts db products slots.items ⊆
      cartProducts db products (mergeExistingItem db products slots candidate).items := by
  unfold mergeExistingItem
  split
  · rw [withOrderItems, cartProducts_append]
    exact List.subset_append_left _ _
  case h_2 i hi =>
    rw [withOrderItems, cartProducts_overwrite hi]
    exact List.Subset.refl _

theorem cartProducts_mergeExistingItems (candidates : List ChatOrderItem) (slots : ChatOrderSlots) :
    cartProducts db products slots.items ⊆
      cartProducts db products (candidates.foldl (mergeExistingItem db products) slots).items := by
  induction candidates generalizing slots with
  | nil => exact List.Subset.refl _
  | cons candidate candidates ih =>
    exact List.Subset.trans (cartProducts_mergeExistingItem slots candidate) (ih _)

theorem cartProducts_appendOrderItems (candidates : List ChatOrderItem) (slots : ChatOrderSlots) :
    cartProducts db products slots.items ⊆
      cartProducts db products (appendOrderItems db slots candidates products).items := by
  change cartProducts db products slots.items ⊆ cartProducts db products
    (candidates.foldl (fun items candidate => mergeCandidateItems db items candidate products)
      slots.items)
  generalize slots.items = items
  induction candidates generalizing items with
  | nil => exact List.Subset.refl _
  | cons candidate candidates ih =>
    exact List.Subset.trans (cartProducts_mergeCandidateItems items candidate) (ih _)

/-- A line that names only a category, or nothing, stands for no product. -/
theorem meant_of_incomplete (h : Vietnamese.Extends db) {item : ChatOrderItem}
    (hitem : isIncompleteAddItem db item = true) : meant db products item.product = none := by
  have hgeneric : ∀ query ∈ ([ "nuoc", "nuoc uong", "gas", "binh gas"] : List Text),
      (tokens query).any (fun token => !genericProductMatchTokens.contains token) = false := by
    decide +kernel
  cases htext : item.product with
  | none => rfl
  | some text =>
    have hbare : isBareGasItem db item = true := by simpa [isIncompleteAddItem, htext] using hitem
    simp only [isBareGasItem, isBareCategoryQuery, ChatOrderItem.text, htext, Option.getD_some,
      normalizeMatchText_idem h, Bool.and_eq_true, List.contains_iff_mem] at hbare
    have hquery := hgeneric _ hbare.1.2
    have hnone : candidates db (normalizeMatchText db text) products = [] := by
      refine List.filter_eq_nil_iff.mpr fun p _ => ?_
      rw [Bool.not_eq_true, specificTokenHit, List.any_eq_false]
      intro token htoken
      have hword := List.any_eq_false.mp hquery token htoken
      simp_all
    rw [meant, matchProduct_eq_argmax, hnone, List.argmax_nil]
    rfl

theorem cartProducts_dropIncomplete (h : Vietnamese.Extends db) (slots : ChatOrderSlots) :
    cartProducts db products (dropIncompleteAddItems db slots).items =
      cartProducts db products slots.items := by
  change (slots.items.filter fun item => !isIncompleteAddItem db item).filterMap _ = _
  rw [List.filterMap_filter]
  refine List.filterMap_congr fun item _ => ?_
  cases hitem : isIncompleteAddItem db item with
  | true => exact (meant_of_incomplete h hitem).symm
  | false => rfl

theorem meant_reread (h : BlanksSeparate db) (text : Option Text) :
    meant db products (reread db text) = meant db products text := by
  cases text with
  | none => rfl
  | some t =>
    by_cases hempty : Text.strip db.space t = []
    · have hreread : reread db (some t) = none := by simp [reread, nonEmpty, hempty]
      rw [hreread, meant, meant, ← matchProduct_strip h, hempty]
      rfl
    · have hreread : reread db (some t) = some (Text.strip db.space t) := by
        simp [reread, nonEmpty, hempty]
      rw [hreread, meant, meant, matchProduct_strip h]

/-- Items that were stored and read again stand for the same products. -/
theorem cartProducts_reread (h : BlanksSeparate db) (items : List ChatOrderItem) :
    cartProducts db products ((items.map (rereadItem db)).filter saysSomething) =
      cartProducts db products items := by
  unfold cartProducts
  rw [List.filterMap_filter, List.filterMap_map]
  refine List.filterMap_congr fun item _ => ?_
  rw [Function.comp_apply]
  cases hsays : saysSomething (rereadItem db item) with
  | true => exact meant_reread h item.product
  | false =>
    have hnot : present (reread db item.product) = false := by
      simp only [saysSomething, Bool.or_eq_false_iff] at hsays
      exact hsays.1
    rw [← meant_reread h item.product, meant_of_not_present hnot]
    rfl

end

end Qiki.Chat
