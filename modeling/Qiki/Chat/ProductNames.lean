import Qiki.Chat.NegatedConfirmation

/-! Whether the name of a product can act as a command to the cart. -/
namespace Qiki.Chat

open Unicode Orders

/-- The cues of `_has_remove_cue`, `_has_add_cue` and `_has_replace_cue`. -/
def operationCues : List Text := ["bo", "xoa", "huy", "them", "them vao", "them mot", "them 1",
  "lay them", "cong them", "co them", "va ", "doi", "doi sang", "doi qua", "doi thanh", "thay",
  "thay bang"]

section
variable (db : Database)

/-- The words of a cue follow each other in the text. -/
def hasWholeCue (text : Text) : Bool :=
  operationCues.any fun cue =>
    (tokens (normalizeMatchText db text)).tails.any (tokens cue).isPrefixOf

/-- The letters of a cue stand anywhere in the normalised message. -/
def hasCueLetters (content : Text) : Bool :=
  let normalized := normalizeMatchText db content
  hasRemoveCue normalized || hasAddCue normalized || hasReplaceCue normalized

end

/-- A text with places for names, and names for these places. -/
def fillIn : List Text → List Text → Text
  | segment :: segments, name :: names => segment ++ (name ++ fillIn segments names)
  | segments, _ => segments.flatten

/-- A product as it is typed in a message, and the item that is read from the message for it. -/
structure NamedProduct (db : Database) (products : List Product) where
  typed : Text
  item : ChatOrderItem
  product : Product
  item_present : present item.product = true
  typed_matches : matchProduct db (some typed) products = some product
  item_matches : matchProduct db item.product products = some product

/-- Two messages that differ only in the catalog products that they name, without a cue as whole
words elsewhere. -/
structure MessagePair (db : Database) (products : List Product) where
  segments : List Text
  first : List (NamedProduct db products)
  second : List (NamedProduct db products)
  first_ne_nil : first ≠ []
  second_ne_nil : second ≠ []
  noCue : ∀ segment ∈ segments, hasWholeCue db segment = false

section
variable {db : Database} {products : List Product}

def messageOf (segments : List Text) (named : List (NamedProduct db products)) : Text :=
  fillIn segments (named.map (·.typed))

/-- The operation that is detected in a message to a cart. -/
def operationOf (cart : ChatOrderSlots) (segments : List Text)
    (named : List (NamedProduct db products)) : Option ItemsOperation :=
  detectOrderItemsOperation db (messageOf segments named) (some cart) (named.map (·.item)) products

/-- All the named products are in the cart. -/
def allInCart (cart : ChatOrderSlots) (named : List (NamedProduct db products)) : Bool :=
  named.all fun n => (findMatchingItemIndex db cart.items n.item products).isSome

/-- The operation changes the cart as a command asks for. -/
def isCommand (operation : Option ItemsOperation) : Bool :=
  operation = some .remove || operation = some .add || operation = some .replace

/-- The two operations depend only on whether the named products are in the cart, and no name is a
command. -/
def NamesAreInert (cart : ChatOrderSlots) (pair : MessagePair db products) : Prop :=
  (allInCart cart pair.first = allInCart cart pair.second →
    operationOf cart pair.segments pair.first = operationOf cart pair.segments pair.second) ∧
  isCommand (operationOf cart pair.segments pair.first) = false ∧
  isCommand (operationOf cart pair.segments pair.second) = false

section
variable {cart : ChatOrderSlots} {segments : List Text} {named : List (NamedProduct db products)}

theorem productItems_eq (named : List (NamedProduct db products)) :
    (named.map (·.item)).filter (fun item => present item.product) = named.map (·.item) := by
  apply List.filter_eq_self.mpr
  intro item hitem
  obtain ⟨n, -, rfl⟩ := List.mem_map.mp hitem
  exact n.item_present

/-- The letters of a cue are taken for the command. -/
theorem isCommand_of_cueLetters (hnamed : named ≠ [])
    (hcue : hasCueLetters db (messageOf segments named) = true) :
    isCommand (operationOf cart segments named) = true := by
  have hitems : (named.map (·.item)).isEmpty = false := by simpa using hnamed
  simp only [hasCueLetters, Bool.or_eq_true] at hcue
  unfold operationOf detectOrderItemsOperation
  simp only [productItems_eq, hitems, Bool.false_eq_true, if_false]
  split_ifs with hremove hadd hreplace
  · rfl
  · rfl
  · rfl
  all_goals simp [hremove, hadd, hreplace] at hcue

/-- Without them the cart decides. -/
theorem operationOf_eq (hlive : cart.items ≠ []) (hnamed : named ≠ [])
    (hcue : hasCueLetters db (messageOf segments named) = false) :
    operationOf cart segments named =
      if allInCart cart named then some .mergeExisting else some .ambiguous := by
  have hitems : (named.map (·.item)).isEmpty = false := by simpa using hnamed
  have hcart : cart.items.isEmpty = false := by simpa using hlive
  have hall : (named.map (·.item)).all
      (fun item => (findMatchingItemIndex db cart.items item products).isSome) =
        allInCart cart named := List.all_map
  simp only [hasCueLetters, Bool.or_eq_false_iff] at hcue
  obtain ⟨⟨hremove, hadd⟩, hreplace⟩ := hcue
  unfold operationOf detectOrderItemsOperation
  simp only [productItems_eq, hitems, hremove, hadd, hreplace, Option.map_some, Option.getD_some,
    hcart, hall, Bool.false_eq_true, if_false]
  split_ifs with hsome
  · rfl
  · split
    case h_1 item hone =>
      -- one product, which is not in the cart
      have habsent : (findMatchingItemIndex db cart.items item products).isSome = false := by
        have hnot : allInCart cart named = false := Bool.eq_false_of_not_eq_true hsome
        rw [← hall, hone] at hnot
        simpa using hnot
      have hpresent : present item.product = true := by
        have hmem : item ∈ (named.map (·.item)).filter fun item => present item.product := by
          rw [productItems_eq, hone]
          exact List.mem_singleton_self item
        exact (List.mem_filter.mp hmem).2
      simp only [detectOrderItemOperation, hpresent, hremove, hadd, hreplace, Option.map_some,
        Option.getD_some, hcart, habsent]
      rfl
    case h_2 => rfl

end

/-- Product names are inert exactly where no cue occurs as a substring of the normalised messages. -/
theorem namesAreInert_iff (cart : ChatOrderSlots) (hlive : cart.items ≠ [])
    (pair : MessagePair db products) :
    NamesAreInert cart pair ↔
      hasCueLetters db (messageOf pair.segments pair.first) = false ∧
      hasCueLetters db (messageOf pair.segments pair.second) = false := by
  constructor
  · rintro ⟨-, hfirst, hsecond⟩
    constructor
    · by_contra hcue
      rw [isCommand_of_cueLetters pair.first_ne_nil (Bool.not_eq_false _ ▸ hcue)] at hfirst
      cases hfirst
    · by_contra hcue
      rw [isCommand_of_cueLetters pair.second_ne_nil (Bool.not_eq_false _ ▸ hcue)] at hsecond
      cases hsecond
  · rintro ⟨hfirst, hsecond⟩
    unfold NamesAreInert
    rw [operationOf_eq hlive pair.first_ne_nil hfirst,
      operationOf_eq hlive pair.second_ne_nil hsecond]
    refine ⟨fun hsame => by rw [hsame], ?_, ?_⟩
    · split_ifs <;> rfl
    · split_ifs <;> rfl

end

/-- Drinking water whose brand begins with the letters of a cue. -/
def bonaqua : Product :=
  { elfGas with id := 5, sku := "BON-05", name := "Bonaqua", brand := "Bonaqua", sizeKg := 5,
                category := .nuocUong, unit := "l" }

def petrolimex : Product :=
  { elfGas with id := 6, sku := "PETRO-12", name := "Petrolimex", brand := "Petrolimex" }

def totalGas : Product :=
  { elfGas with id := 7, sku := "TOTAL-12", name := "Total", brand := "Total Gas" }

def namedCatalog : List Product := [bonaqua, elfGas, petrolimex, totalGas]

def namedBonaqua : NamedProduct Vietnamese.database namedCatalog where
  typed := "Bonaqua"
  item := ⟨some "Bonaqua", some 2⟩
  product := bonaqua
  item_present := rfl
  typed_matches := by decide +kernel
  item_matches := by decide +kernel

def namedPetrolimex : NamedProduct Vietnamese.database namedCatalog where
  typed := "Petrolimex"
  item := ⟨some "Petrolimex", some 2⟩
  product := petrolimex
  item_present := rfl
  typed_matches := by decide +kernel
  item_matches := by decide +kernel

def namedTotal : NamedProduct Vietnamese.database namedCatalog where
  typed := "Total"
  item := ⟨some "Total", some 2⟩
  product := totalGas
  item_present := rfl
  typed_matches := by decide +kernel
  item_matches := by decide +kernel

/-- "cho mình 2 … nhé" with one product and with another one. -/
def twoOf (first second : NamedProduct Vietnamese.database namedCatalog) :
    MessagePair Vietnamese.database namedCatalog where
  segments := ["cho mình 2 ", " nhé"]
  first := [first]
  second := [second]
  first_ne_nil := List.cons_ne_nil _ _
  second_ne_nil := List.cons_ne_nil _ _
  noCue := by decide +kernel

/-- Naming Bonaqua removes it. -/
theorem bonaqua_commands : ¬ NamesAreInert lanSlots (twoOf namedBonaqua namedPetrolimex) := by
  intro hinert
  exact absurd hinert.2.1 (by decide +kernel)

theorem petrolimex_inert : NamesAreInert lanSlots (twoOf namedPetrolimex namedTotal) :=
  (namesAreInert_iff lanSlots (List.cons_ne_nil _ _) (twoOf namedPetrolimex namedTotal)).mpr
    (by decide +kernel)

end Qiki.Chat
