import Qiki.Chat.Plan
import Qiki.Chat.StoredSlots
import Qiki.Data.JsonText

/-! Slots survive the storage in a message, also as JSON text. -/
namespace Qiki.Chat

open Unicode Orders

/-- Absent, or neither empty nor surrounded by blanks. -/
def Stripped (db : Database) (value : Option Text) : Prop :=
  ∀ t ∈ value, t ≠ [] ∧ Text.strip db.space t = t

instance (db : Database) (value : Option Text) : Decidable (Stripped db value) :=
  inferInstanceAs (Decidable (∀ t ∈ value, t ≠ [] ∧ Text.strip db.space t = t))

/-- Slots as the extraction builds them. -/
structure Storable (db : Database) (slots : ChatOrderSlots) : Prop where
  customerName : Stripped db slots.customerName
  customerPhone : Stripped db slots.customerPhone
  deliveryAddress : Stripped db slots.deliveryAddress
  deliveryNotes : Stripped db slots.deliveryNotes
  paymentMethod : Stripped db slots.paymentMethod
  products : ∀ item ∈ slots.items, Stripped db item.product
  items : ∀ item ∈ slots.items, item.product.isSome ∨ ∃ n ∈ item.quantity, 0 < n

def unconfirmed (slots : ChatOrderSlots) : ChatOrderSlots := { slots with confirmed := false }

section
variable {db : Database} {slots : ChatOrderSlots} {item : ChatOrderItem} {value : Option Text}

theorem reread_of_stripped (h : Stripped db value) : reread db value = value := by
  cases value with
  | none => rfl
  | some t =>
    obtain ⟨hne, hstrip⟩ := h t rfl
    rw [reread, Option.bind_some, hstrip, nonEmpty, if_neg (by simpa using hne)]

theorem rereadItem_of_stripped (hproduct : Stripped db item.product)
    (hquantity : ∀ n ∈ item.quantity, 0 < n) : rereadItem db item = item := by
  have hkept : item.quantity.filter (0 < ·) = item.quantity := by
    cases hq : item.quantity with
    | none => rfl
    | some n => simp [Option.filter, hquantity n hq]
  rw [rereadItem, reread_of_stripped hproduct, hkept]

theorem saysSomething_of_storable (hproduct : Stripped db item.product)
    (h : item.product.isSome ∨ ∃ n ∈ item.quantity, 0 < n) : saysSomething item = true := by
  unfold saysSomething
  rcases h with h | ⟨n, hn, -⟩
  · obtain ⟨t, ht⟩ := Option.isSome_iff_exists.mp h
    have hne : t ≠ [] := (hproduct t ht).1
    simp [present, ht, hne]
  · simp [show item.quantity = some n from hn]

theorem rereadSlots_of_storable (h : Storable db slots)
    (hquantities : ∀ item ∈ slots.items, ∀ n ∈ item.quantity, 0 < n) :
    rereadSlots db slots = unconfirmed slots := by
  have hitems : (slots.items.map (rereadItem db)).filter saysSomething = slots.items := by
    have hsame : slots.items.map (rereadItem db) = slots.items := by
      conv_rhs => rw [← List.map_id slots.items]
      exact List.map_congr_left fun item hitem =>
        rereadItem_of_stripped (h.products item hitem) (hquantities item hitem)
    rw [hsame]
    exact List.filter_eq_self.mpr fun item hitem =>
      saysSomething_of_storable (h.products item hitem) (h.items item hitem)
  rw [rereadSlots, hitems, reread_of_stripped h.customerName, reread_of_stripped h.customerPhone,
    reread_of_stripped h.deliveryAddress, reread_of_stripped h.deliveryNotes,
    reread_of_stripped h.paymentMethod]
  rfl

/-! The payload as JSON text. -/

theorem plainFields_append (a b : List (Text × Json)) :
    Json.plainFields (a ++ b) = (Json.plainFields a && Json.plainFields b) := by
  induction a with
  | nil => rfl
  | cons field a ih => simp only [List.cons_append, Json.plainFields, ih, Bool.and_assoc]

theorem plainFields_textField (key : Text) (value : Option Text) :
    Json.plainFields (textField key value) = true := by
  cases value with
  | none => rfl
  | some t => cases t <;> rfl

theorem keys_textField (key : Text) (value : Option Text) :
    List.Sublist ((textField key value).map Prod.fst) [key] := by
  cases value with
  | none => exact List.nil_sublist _
  | some t =>
    cases t with
    | nil => exact List.nil_sublist _
    | cons c t => exact List.Sublist.refl _

theorem plain_itemFields (item : ChatOrderItem) : Json.plain (.obj (itemFields item)) = true := by
  have hkeys : List.Sublist ((itemFields item).map Prod.fst) ["product", "quantity"] := by
    unfold itemFields
    rw [List.map_append]
    refine (keys_textField "product" item.product).append ?_
    cases item.quantity with
    | none => exact List.nil_sublist _
    | some n => exact List.Sublist.refl _
  have hfields : Json.plainFields (itemFields item) = true := by
    unfold itemFields
    rw [plainFields_append, plainFields_textField]
    cases item.quantity <;> rfl
  rw [Json.plain, hfields, Bool.and_true, decide_eq_true_eq]
  exact hkeys.nodup (by decide)

theorem plainItems_itemsToMetadata (items : List ChatOrderItem) :
    Json.plainItems (itemsToMetadata items) = true := by
  unfold itemsToMetadata
  induction items with
  | nil => rfl
  | cons item items ih =>
    rw [List.map_cons, List.filterMap_cons]
    split_ifs
    · exact ih
    · exact Bool.and_eq_true_iff.mpr ⟨plain_itemFields item, ih⟩

theorem keys_slotsToMetadata (slots : ChatOrderSlots) :
    List.Sublist ((slotsToMetadata (some slots)).map Prod.fst)
      ["items", "customer_name", "customer_phone", "delivery_address", "delivery_notes",
        "payment_method"] := by
  have hitems : List.Sublist ((itemsField slots.items).map Prod.fst) ["items"] := by
    unfold itemsField
    split_ifs
    · exact List.nil_sublist _
    · exact List.Sublist.refl _
  simp only [slotsToMetadata, List.map_append]
  exact ((((hitems.append (keys_textField _ _)).append (keys_textField _ _)).append
    (keys_textField _ _)).append (keys_textField _ _)).append (keys_textField _ _)

theorem plain_slotsToMetadata (slots : ChatOrderSlots) :
    Json.plain (.obj (slotsToMetadata (some slots))) = true := by
  have hitems : Json.plainFields (itemsField slots.items) = true := by
    unfold itemsField
    split_ifs
    · rfl
    · exact Bool.and_eq_true_iff.mpr ⟨plainItems_itemsToMetadata _, rfl⟩
  have hfields : Json.plainFields (slotsToMetadata (some slots)) = true := by
    simp only [slotsToMetadata, plainFields_append, plainFields_textField, hitems, Bool.and_self]
  rw [Json.plain, hfields, Bool.and_true, decide_eq_true_eq]
  exact (keys_slotsToMetadata slots).nodup (by decide)

end

section
variable (rt : Runtime) {slots : ChatOrderSlots}

theorem slotsFromMetadata_storable (h : Storable rt.db slots)
    (hquantities : ∀ item ∈ slots.items, ∀ n ∈ item.quantity, 0 < n) :
    slotsFromMetadata rt (.obj (slotsToMetadata (some slots))) = some (unconfirmed slots) := by
  rw [slotsFromMetadata_slotsToMetadata, rereadSlots_of_storable h hquantities]

/-- Slots of which one is set have a payload. -/
theorem slotsToMetadata_ne_nil (h : Storable rt.db slots)
    (hquantities : ∀ item ∈ slots.items, ∀ n ∈ item.quantity, 0 < n)
    (hset : unconfirmed slots ≠ {}) : slotsToMetadata (some slots) ≠ [] := by
  intro hempty
  have hread := slotsFromMetadata_storable rt h hquantities
  have hnothing : slotsFromMetadata rt (.obj []) = some {} := rfl
  rw [hempty, hnothing] at hread
  exact hset (Option.some.inj hread).symm

/-- The state that holds slots which are set. -/
theorem orderStateMetadata_eq (hpayload : slotsToMetadata (some slots) ≠ []) (status : Text)
    (extra : List (Text × Json)) : orderStateMetadata status (some slots) extra =
      .obj (("type", .str chatOrderStateMetadataType) :: ("status", .str status) ::
        ("slots", .obj (slotsToMetadata (some slots))) :: extra) := by
  simp only [orderStateMetadata, List.isEmpty_eq_false_iff.mpr hpayload, Bool.false_eq_true,
    if_false]

end

/-- Stored slots are read as they were, without the confirmation: from the payload, from its JSON
text, and from the order state that holds them when one is set. -/
theorem slots_round_trip (rt : Runtime) (floatRepr : ℚ → Text) (slots : ChatOrderSlots)
    (h : Storable rt.db slots) (hquantities : ∀ item ∈ slots.items, ∀ n ∈ item.quantity, 0 < n) :
    slotsFromMetadata rt (.obj (slotsToMetadata (some slots))) = some (unconfirmed slots) ∧
    (Json.loads (Json.dumps floatRepr (.obj (slotsToMetadata (some slots))))).bind
      (slotsFromMetadata rt) = some (unconfirmed slots) ∧
    (unconfirmed slots ≠ {} → ∀ (status : Text) (extra : List (Text × Json)),
      Json.plainFields extra = true →
      ("type" :: "status" :: "slots" :: extra.map Prod.fst : List Text).Nodup →
      slotsFromOrderState rt (some (orderStateMetadata status (some slots) extra)) =
        some (unconfirmed slots) ∧
      slotsFromOrderState rt (Json.loads (Json.dumps floatRepr
        (orderStateMetadata status (some slots) extra))) = some (unconfirmed slots)) := by
  have hread := slotsFromMetadata_storable rt h hquantities
  refine ⟨hread, ?_, fun hset status extra hextra hkeys => ?_⟩
  · rw [Json.loads_dumps floatRepr (plain_slotsToMetadata slots)]
    exact hread
  · have hstate := orderStateMetadata_eq (slotsToMetadata_ne_nil rt h hquantities hset) status extra
    have hslots : slotsFromOrderState rt (some (orderStateMetadata status (some slots) extra)) =
        some (unconfirmed slots) := by
      rw [hstate]
      exact hread
    have hplain : Json.plain (orderStateMetadata status (some slots) extra) = true := by
      have hfields : Json.plainFields (("type", .str chatOrderStateMetadataType) ::
          ("status", .str status) :: ("slots", .obj (slotsToMetadata (some slots))) :: extra) =
            true := by
        simp only [Json.plainFields, plain_slotsToMetadata, hextra, Bool.and_true]
        rfl
      rw [hstate, Json.plain, hfields, Bool.and_true, decide_eq_true_eq]
      exact hkeys
    refine ⟨hslots, ?_⟩
    rw [Json.loads_dumps floatRepr hplain]
    exact hslots

/-- Two items, one without a quantity. -/
def twoItems : ChatOrderSlots where
  items := [⟨some "Petrolimex 12kg", some 2⟩, ⟨some "gas", none⟩]
  customerName := some "Lan"
  confirmed := true

theorem twoItems_round_trip :
    (Json.loads (Json.dumps (fun _ => []) (.obj (slotsToMetadata (some twoItems))))).bind
      (slotsFromMetadata plainRuntime) = some (unconfirmed twoItems) := by
  refine (slots_round_trip plainRuntime (fun _ => []) twoItems ?_ ?_).2.1
  · constructor <;> decide
  · decide

/-- A quantity of zero next to a product is not read again. -/
theorem zero_quantity_lost : ¬ ∀ slots : ChatOrderSlots, Storable plainRuntime.db slots →
    slotsFromMetadata plainRuntime (.obj (slotsToMetadata (some slots))) =
      some (unconfirmed slots) := by
  intro hall
  have hread := hall { items := [⟨some "gas", some 0⟩] } (by constructor <;> decide)
  exact absurd hread (by decide)

end Qiki.Chat
