import Qiki.Chat.History
import Qiki.Chat.NormalForm

/-! Slots as a message stores them and as the next turn reads them. -/
namespace Qiki.Chat

open Unicode Orders

/-! Fields. -/

theorem lookup_textField (key key' : Text) (value : Option Text) :
    (textField key value).lookup key' =
      if key' = key then (value.filter (!·.isEmpty)).map Json.str else none := by
  cases value with
  | none => simp [textField]
  | some t => cases t <;> by_cases h : key' = key <;> simp [textField, h]

theorem lookup_textField_self (key : Text) (value : Option Text) :
    (textField key value).lookup key = (value.filter (!·.isEmpty)).map Json.str := by
  rw [lookup_textField, if_pos rfl]

theorem lookup_textField_of_ne {key key' : Text} (h : key' ≠ key) (value : Option Text) :
    (textField key value).lookup key' = none := by
  rw [lookup_textField, if_neg h]

theorem lookup_singleton_of_ne {key key' : Text} (h : key' ≠ key) (value : Json) :
    [(key, value)].lookup key' = none := by
  simp only [List.lookup, beq_false_of_ne h]

theorem lookup_itemFields_product (item : ChatOrderItem) :
    (itemFields item).lookup ("product" : Text) = (item.product.filter (!·.isEmpty)).map Json.str := by
  unfold itemFields
  rw [List.lookup_append, lookup_textField_self]
  cases item.quantity with
  | none => exact Option.or_none
  | some n => rw [lookup_singleton_of_ne (by decide), Option.or_none]

theorem lookup_itemFields_quantity (item : ChatOrderItem) :
    (itemFields item).lookup ("quantity" : Text) = item.quantity.map fun n => Json.int n := by
  unfold itemFields
  rw [List.lookup_append, lookup_textField_of_ne (by decide), Option.none_or]
  cases item.quantity with
  | none => rfl
  | some n => exact List.lookup_cons_self

theorem itemFields_isEmpty (item : ChatOrderItem) :
    (itemFields item).isEmpty = (!present item.product && item.quantity.isNone) := by
  cases hp : item.product with
  | none => cases hq : item.quantity <;> simp [itemFields, textField, present, hp, hq]
  | some t => cases t <;> cases hq : item.quantity <;> simp [itemFields, textField, present, hp, hq]

section
variable (rt : Runtime)

/-- A text that was stored and read again. -/
def reread (db : Database) (value : Option Text) : Option Text :=
  value.bind fun t => nonEmpty (Text.strip db.space t)

theorem optionalStr_stored (value : Option Text) :
    optionalStr rt (((value.filter (!·.isEmpty)).map Json.str).getD .null) =
      reread rt.db value := by
  cases value with
  | none => rfl
  | some t => cases t <;> rfl

theorem optionalInt_stored (quantity : Option ℕ) :
    optionalInt rt ((quantity.map fun n => Json.int n).getD .null) = quantity.filter (0 < ·) := by
  cases quantity with
  | none => rfl
  | some n => by_cases h : 0 < n <;> simp [optionalInt, Option.filter, h]

/-- An item that was stored and read again. -/
def rereadItem (db : Database) (item : ChatOrderItem) : ChatOrderItem :=
  ⟨reread db item.product, item.quantity.filter (0 < ·)⟩

/-- The item still names a product or a quantity. -/
def saysSomething (item : ChatOrderItem) : Bool := present item.product || item.quantity.isSome

theorem present_of_reread {db : Database} {value : Option Text}
    (h : present (reread db value) = true) : present value = true := by
  cases value with
  | none => exact h
  | some t =>
    cases t with
    | nil => exact h
    | cons c t => rfl

theorem saysSomething_rereadItem {db : Database} {item : ChatOrderItem}
    (h : saysSomething (rereadItem db item) = true) : (itemFields item).isEmpty = false := by
  rw [saysSomething, Bool.or_eq_true] at h
  rw [itemFields_isEmpty]
  rcases h with h | h
  · rw [present_of_reread h]
    rfl
  · have hsome : item.quantity.isSome = true := by
      cases hq : item.quantity with
      | none => simp [rereadItem, hq] at h
      | some n => rfl
    cases hq : item.quantity with
    | none => simp [hq] at hsome
    | some n => simp

/-- One entry of `items`, read again. -/
theorem read_itemFields (item : ChatOrderItem) :
    (⟨optionalStr rt ((Json.obj (itemFields item)).getOrNull "product"),
      optionalInt rt ((Json.obj (itemFields item)).getOrNull "quantity")⟩ : ChatOrderItem) =
        rereadItem rt.db item := by
  simp only [Json.getOrNull, Json.get]
  rw [lookup_itemFields_product, lookup_itemFields_quantity, optionalStr_stored,
    optionalInt_stored, rereadItem]

/-- The entry as `_items_from_metadata` keeps it. -/
def readItem (value : Json) : Option ChatOrderItem :=
  match value with
  | .obj _ =>
    let parsed : ChatOrderItem :=
      ⟨optionalStr rt (value.getOrNull "product"), optionalInt rt (value.getOrNull "quantity")⟩
    if saysSomething parsed then some parsed else none
  | _ => none

theorem readItem_itemFields (item : ChatOrderItem) :
    readItem rt (.obj (itemFields item)) =
      if saysSomething (rereadItem rt.db item) then some (rereadItem rt.db item) else none := by
  simp only [readItem]
  rw [read_itemFields]

theorem itemsFromMetadata_itemsToMetadata (items : List ChatOrderItem) :
    itemsFromMetadata rt (.arr (itemsToMetadata items)) =
      (items.map (rereadItem rt.db)).filter saysSomething := by
  change (itemsToMetadata items).filterMap (readItem rt) = _
  induction items with
  | nil => rfl
  | cons item items ih =>
    simp only [itemsToMetadata, List.map_cons, List.filterMap_cons] at ih ⊢
    cases hempty : (itemFields item).isEmpty with
    | true =>
      have hnothing : saysSomething (rereadItem rt.db item) = false := by
        by_contra h
        rw [saysSomething_rereadItem (Bool.not_eq_false _ ▸ h)] at hempty
        exact Bool.false_ne_true hempty
      simpa only [if_true, List.filter_cons, hnothing, Bool.false_eq_true, if_false] using ih
    | false =>
      simp only [Bool.false_eq_true, if_false, List.filterMap_cons, readItem_itemFields,
        List.filter_cons]
      cases saysSomething (rereadItem rt.db item) with
      | true => simp only [if_true, ih]
      | false => simpa only [Bool.false_eq_true, if_false] using ih

/-! Slots. -/

/-- Slots that were stored and read again. -/
def rereadSlots (db : Database) (slots : ChatOrderSlots) : ChatOrderSlots where
  items := (slots.items.map (rereadItem db)).filter saysSomething
  customerName := reread db slots.customerName
  customerPhone := reread db slots.customerPhone
  deliveryAddress := reread db slots.deliveryAddress
  deliveryNotes := reread db slots.deliveryNotes
  paymentMethod := reread db slots.paymentMethod

theorem lookup_itemsField_of_ne {key : Text} (h : key ≠ "items") (items : List ChatOrderItem) :
    (itemsField items).lookup key = none := by
  unfold itemsField
  split_ifs
  · rfl
  · exact lookup_singleton_of_ne h _

theorem lookup_slotsToMetadata (slots : ChatOrderSlots) (key : Text) :
    (slotsToMetadata (some slots)).lookup key =
      ((((((itemsField slots.items).lookup key).or
        ((textField "customer_name" slots.customerName).lookup key)).or
        ((textField "customer_phone" slots.customerPhone).lookup key)).or
        ((textField "delivery_address" slots.deliveryAddress).lookup key)).or
        ((textField "delivery_notes" slots.deliveryNotes).lookup key)).or
        ((textField "payment_method" slots.paymentMethod).lookup key) := by
  simp only [slotsToMetadata, List.lookup_append]

/-- A key that no slot is stored under. -/
theorem lookup_slotsToMetadata_of_ne (slots : ChatOrderSlots) {key : Text}
    (h : key ∉ ([ "items", "customer_name", "customer_phone", "delivery_address",
      "delivery_notes", "payment_method"] : List Text)) :
    (slotsToMetadata (some slots)).lookup key = none := by
  simp only [List.mem_cons, List.not_mem_nil, or_false, not_or] at h
  obtain ⟨hitems, hname, hphone, haddress, hnotes, hpayment⟩ := h
  rw [lookup_slotsToMetadata, lookup_itemsField_of_ne hitems, lookup_textField_of_ne hname,
    lookup_textField_of_ne hphone, lookup_textField_of_ne haddress,
    lookup_textField_of_ne hnotes, lookup_textField_of_ne hpayment]
  rfl

theorem itemsOrLegacyItem_slotsToMetadata (slots : ChatOrderSlots) :
    itemsOrLegacyItem rt (.obj (slotsToMetadata (some slots))) =
      (slots.items.map (rereadItem rt.db)).filter saysSomething := by
  have hlookup : (slotsToMetadata (some slots)).lookup ("items" : Text) =
      (itemsField slots.items).lookup ("items" : Text) := by
    rw [lookup_slotsToMetadata, lookup_textField_of_ne (by decide),
      lookup_textField_of_ne (by decide), lookup_textField_of_ne (by decide),
      lookup_textField_of_ne (by decide), lookup_textField_of_ne (by decide)]
    simp only [Option.or_none]
  have hitems : itemsFromMetadata rt
      ((Json.obj (slotsToMetadata (some slots))).getOrNull "items") =
        (slots.items.map (rereadItem rt.db)).filter saysSomething := by
    rw [← itemsFromMetadata_itemsToMetadata, Json.getOrNull, Json.get, hlookup, itemsField]
    cases hempty : (itemsToMetadata slots.items).isEmpty with
    | true =>
      rw [List.isEmpty_iff.mp hempty]
      rfl
    | false => simp only [Bool.false_eq_true, if_false, List.lookup_cons_self, Option.getD_some]
  have hproduct : (Json.obj (slotsToMetadata (some slots))).getOrNull "product" = .null := by
    rw [Json.getOrNull, Json.get, lookup_slotsToMetadata_of_ne slots (by decide)]
    rfl
  have hquantity : (Json.obj (slotsToMetadata (some slots))).getOrNull "quantity" = .null := by
    rw [Json.getOrNull, Json.get, lookup_slotsToMetadata_of_ne slots (by decide)]
    rfl
  rw [itemsOrLegacyItem, hitems, hproduct, hquantity]
  cases (slots.items.map (rereadItem rt.db)).filter saysSomething with
  | nil => rfl
  | cons item items => rfl

/-- The stored slots are read as `rereadSlots` says. -/
theorem slotsFromMetadata_slotsToMetadata (slots : ChatOrderSlots) :
    slotsFromMetadata rt (.obj (slotsToMetadata (some slots))) =
      some (rereadSlots rt.db slots) := by
  have hread (key : Text) (value : Option Text)
      (h : (slotsToMetadata (some slots)).lookup key =
        (value.filter (!·.isEmpty)).map Json.str) :
      optionalStr rt ((Json.obj (slotsToMetadata (some slots))).getOrNull key) =
        reread rt.db value := by
    rw [Json.getOrNull, Json.get, h, optionalStr_stored]
  simp only [slotsFromMetadata]
  rw [itemsOrLegacyItem_slotsToMetadata, hread "customer_name" slots.customerName,
    hread "customer_phone" slots.customerPhone, hread "delivery_address" slots.deliveryAddress,
    hread "delivery_notes" slots.deliveryNotes, hread "payment_method" slots.paymentMethod]
  · rfl
  all_goals
    rw [lookup_slotsToMetadata, lookup_itemsField_of_ne (by decide)]
    simp (disch := decide) only [lookup_textField_self, lookup_textField_of_ne, Option.or_none,
      Option.none_or]

end

end Qiki.Chat
