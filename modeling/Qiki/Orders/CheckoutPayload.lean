import Qiki.Chat.PhoneNumber
import Qiki.Orders.Model

/-! `CheckoutRequest`: which payloads of a checkout are accepted, and what becomes of their fields. -/
namespace Qiki.Orders

open Unicode Regex

/-- What a payload is read with: the properties of characters, the upper case of each, and `EmailStr`,
which checks an address and gives it its normal form. -/
structure PayloadReader where
  db : Database
  upper : Char → Text
  email : String → Option String

/-- A reader that takes every address. -/
def sampleReader : PayloadReader := ⟨Vietnamese.database, fun c => [c.toUpper], some⟩

/-- `value.upper().strip()` -/
def PayloadReader.upperStrip (r : PayloadReader) (value : String) : String :=
  String.ofList (Text.strip r.db.space (value.toList.flatMap r.upper))

structure ItemPayload where
  productId : Uuid
  quantity : ℤ
  isExchange : Bool := false
  deriving DecidableEq, Repr

/-- A checkout payload, each field with the type that `CheckoutRequest` declares for it. -/
structure CheckoutPayload where
  items : List ItemPayload
  customerName : String
  customerPhone : String
  customerEmail : Option String := none
  deliveryAddress : String
  deliveryWard : Option String := none
  deliveryDistrict : Option String := none
  deliveryCity : String := "TP. Hồ Chí Minh"
  deliveryNotes : Option String := none
  differentRecipientName : Option String := none
  differentRecipientPhone : Option String := none
  paymentMethod : PaymentMethod := .cod
  vatInvoiceRequested : Bool := false
  vatInfo : Option VatInfo := none
  customerNotes : Option String := none
  source : OrderSource := .website
  referralConversationId : Option Uuid := none
  couponCode : Option String := none
  deriving DecidableEq, Repr

/-- An error names its field; a bound of the field has no message of its own. -/
structure FieldError where
  loc : List String
  message : Option String := none
  deriving DecidableEq, Repr

/-- `VietnameseTaxCodeValidator.PATTERN`: `^[0-9]{10}(-[0-9]{3})?$` -/
def taxCodePattern : Regex :=
  let digits := times (oneOf false [.range '0' '9'])
  seq (seq (digits 10) (alt (seq (literal "-") (digits 3)) empty)) finish

/-- `VietnameseTaxCodeValidator.validate` -/
def validateTaxCode (db : Database) (value : String) : Except String String :=
  let normalized := Text.strip db.space value.toList
  if (matchStart ⟨db, false⟩ taxCodePattern normalized).isSome then .ok (String.ofList normalized)
  else .error s!"Invalid Vietnamese tax code: {String.ofList normalized}"

/-- `normalize_coupon_code` -/
def normalizeCouponCode (r : PayloadReader) (value : Option String) : Option String :=
  (value.map r.upperStrip).filter fun normalized => normalized ≠ ""

/-- `validate_phone`, the validator of both phone fields. -/
def validatePhoneField (db : Database) (value : Option String) : Except String (Option String) :=
  match value with
  | none => .ok none
  | some value =>
    if value = "" then .ok none
    else match Chat.validatePhone db value.toList with
      | some normalized => .ok (some (String.ofList normalized))
      | none => .error ("Invalid Vietnamese phone number: " ++
          String.ofList (Chat.phoneDigits db value.toList))

/-- `validate_dependent_fields` -/
def validateDependentFields (c : CheckoutRequest) : Except String CheckoutRequest :=
  if c.differentRecipientName.isSome != c.differentRecipientPhone.isSome then
    .error "different_recipient_name and different_recipient_phone must be set together"
  else if c.vatInvoiceRequested && c.vatInfo.isNone then
    .error "vat_info is required when vat_invoice_requested is true"
  else if !c.vatInvoiceRequested && c.vatInfo.isSome then
    .error "vat_info is only allowed when vat_invoice_requested is true"
  else .ok c

/-- `Field(min_length=..., max_length=...)` -/
def hasLength (low high : ℕ) (s : String) : Bool := low ≤ s.length && s.length ≤ high

def checkField (loc : List String) (valid : Bool) : List FieldError := if valid then [] else [⟨loc, none⟩]

def fieldError {α : Type} (loc : List String) (value : Except String α) : List FieldError :=
  match value with
  | .ok _ => []
  | .error message => [⟨loc, some message⟩]

def vatErrors (r : PayloadReader) (vat : VatInfo) : List FieldError :=
  checkField ["vat_info", "company_name"] (hasLength 2 255 vat.companyName) ++
    fieldError ["vat_info", "tax_code"] (validateTaxCode r.db vat.taxCode) ++
    checkField ["vat_info", "address"] (hasLength 5 500 vat.address)

/-- The errors of the single fields, in the order of the fields. -/
def fieldErrors (r : PayloadReader) (p : CheckoutPayload) : List FieldError :=
  [checkField ["items"] (!p.items.isEmpty),
    p.items.zipIdx.flatMap fun i =>
      checkField ["items", toString i.2, "quantity"] (1 ≤ i.1.quantity && i.1.quantity ≤ 100),
    checkField ["customer_name"] (hasLength 2 255 p.customerName),
    fieldError ["customer_phone"] (validatePhoneField r.db (some p.customerPhone)),
    checkField ["customer_email"] (p.customerEmail.all fun email => (r.email email).isSome),
    checkField ["delivery_address"] (hasLength 5 500 p.deliveryAddress),
    checkField ["delivery_ward"] (p.deliveryWard.all (hasLength 0 100)),
    checkField ["delivery_district"] (p.deliveryDistrict.all (hasLength 0 100)),
    checkField ["delivery_city"] (hasLength 2 100 p.deliveryCity),
    checkField ["delivery_notes"] (p.deliveryNotes.all (hasLength 0 1000)),
    checkField ["different_recipient_name"] (p.differentRecipientName.all (hasLength 2 255)),
    fieldError ["different_recipient_phone"] (validatePhoneField r.db p.differentRecipientPhone),
    p.vatInfo.toList.flatMap (vatErrors r),
    checkField ["customer_notes"] (p.customerNotes.all (hasLength 0 1000)),
    checkField ["coupon_code"] (p.couponCode.all (hasLength 0 50))].flatten

/-- The validators have replaced the values of their fields. -/
def CheckoutPayload.request (r : PayloadReader) (p : CheckoutPayload) : CheckoutRequest where
  items := p.items.map fun i => ⟨i.productId, i.quantity.toNat, i.isExchange⟩
  customerName := p.customerName
  customerPhone := (validatePhoneField r.db (some p.customerPhone)).toOption.join
  customerEmail := p.customerEmail.bind r.email
  deliveryAddress := p.deliveryAddress
  deliveryWard := p.deliveryWard
  deliveryDistrict := p.deliveryDistrict
  deliveryCity := p.deliveryCity
  deliveryNotes := p.deliveryNotes
  differentRecipientName := p.differentRecipientName
  differentRecipientPhone := (validatePhoneField r.db p.differentRecipientPhone).toOption.join
  paymentMethod := p.paymentMethod
  vatInvoiceRequested := p.vatInvoiceRequested
  vatInfo := p.vatInfo.map fun vat =>
    { vat with taxCode := (validateTaxCode r.db vat.taxCode).toOption.getD vat.taxCode }
  customerNotes := p.customerNotes
  source := p.source
  referralConversationId := p.referralConversationId
  couponCode := normalizeCouponCode r p.couponCode

/-- `CheckoutRequest.model_validate`; the fields are checked together only when each is valid. -/
def modelValidate (r : PayloadReader) (p : CheckoutPayload) :
    Except (List FieldError) CheckoutRequest :=
  match fieldErrors r p with
  | [] =>
    match validateDependentFields (p.request r) with
    | .ok c => .ok c
    | .error message => .error [⟨[], some message⟩]
  | errors => .error errors

/-! What an accepted payload has been checked for. -/

theorem checkField_eq_nil {loc : List String} {valid : Bool} :
    checkField loc valid = [] ↔ valid = true := by
  unfold checkField
  cases valid
  · exact iff_of_false (List.cons_ne_nil _ _) Bool.false_ne_true
  · exact iff_of_true rfl rfl

theorem fieldError_eq_nil {α : Type} {loc : List String} {value : Except String α} :
    fieldError loc value = [] ↔ ∃ a, value = .ok a := by
  cases value with
  | ok a => exact iff_of_true rfl ⟨a, rfl⟩
  | error message => exact iff_of_false (List.cons_ne_nil _ _) fun ⟨a, ha⟩ => nomatch ha

theorem validateDependentFields_eq_ok {c c' : CheckoutRequest}
    (h : validateDependentFields c = .ok c') : c' = c := by
  unfold validateDependentFields at h
  split_ifs at h
  exact (Except.ok.inj h).symm

/-- A recipient has both a name and a phone; VAT is invoiced exactly where there is a company for it. -/
theorem validateDependentFields_isOk {c : CheckoutRequest} :
    (∃ c', validateDependentFields c = .ok c') ↔
      c.differentRecipientName.isSome = c.differentRecipientPhone.isSome ∧
        c.vatInvoiceRequested = c.vatInfo.isSome := by
  unfold validateDependentFields
  cases c.differentRecipientName <;> cases c.differentRecipientPhone <;>
    cases c.vatInvoiceRequested <;> cases c.vatInfo <;> simp

section
variable {r : PayloadReader} {p : CheckoutPayload} {data : CheckoutRequest}

theorem modelValidate_eq_ok (h : modelValidate r p = .ok data) :
    data = p.request r ∧ fieldErrors r p = [] := by
  unfold modelValidate at h
  split at h
  next hnone =>
    split at h
    next c hc =>
      rw [← Except.ok.inj h]
      exact ⟨validateDependentFields_eq_ok hc, hnone⟩
    next => cases h
  next => cases h

theorem modelValidate_isOk : (∃ data, modelValidate r p = .ok data) ↔
    fieldErrors r p = [] ∧ ∃ c, validateDependentFields (p.request r) = .ok c := by
  unfold modelValidate
  cases fieldErrors r p with
  | cons e errors => simp
  | nil => cases validateDependentFields (p.request r) <;> simp

/-- What is checked of a company. -/
structure VatValid (r : PayloadReader) (vat : VatInfo) : Prop where
  companyName : hasLength 2 255 vat.companyName = true
  taxCode : ∃ taxCode, validateTaxCode r.db vat.taxCode = .ok taxCode
  address : hasLength 5 500 vat.address = true

/-- What is checked of each field. -/
structure FieldsValid (r : PayloadReader) (p : CheckoutPayload) : Prop where
  items : p.items ≠ []
  quantities : ∀ i ∈ p.items, 1 ≤ i.quantity ∧ i.quantity ≤ 100
  customerName : hasLength 2 255 p.customerName = true
  customerPhone : ∃ phone, validatePhoneField r.db (some p.customerPhone) = .ok phone
  customerEmail : ∀ email, p.customerEmail = some email → (r.email email).isSome = true
  deliveryAddress : hasLength 5 500 p.deliveryAddress = true
  deliveryWard : ∀ ward, p.deliveryWard = some ward → hasLength 0 100 ward = true
  deliveryDistrict : ∀ district, p.deliveryDistrict = some district → hasLength 0 100 district = true
  deliveryCity : hasLength 2 100 p.deliveryCity = true
  deliveryNotes : ∀ notes, p.deliveryNotes = some notes → hasLength 0 1000 notes = true
  recipientName : ∀ name, p.differentRecipientName = some name → hasLength 2 255 name = true
  recipientPhone : ∃ phone, validatePhoneField r.db p.differentRecipientPhone = .ok phone
  vatInfo : ∀ vat, p.vatInfo = some vat → VatValid r vat
  customerNotes : ∀ notes, p.customerNotes = some notes → hasLength 0 1000 notes = true
  couponCode : ∀ code, p.couponCode = some code → hasLength 0 50 code = true

theorem quantityErrors_eq_nil {lines : List ItemPayload} :
    (lines.zipIdx.flatMap fun i => checkField ["items", toString i.2, "quantity"]
      (1 ≤ i.1.quantity && i.1.quantity ≤ 100)) = [] ↔
      ∀ i ∈ lines, 1 ≤ i.quantity ∧ i.quantity ≤ 100 := by
  simp only [List.flatMap_eq_nil_iff, checkField_eq_nil, Bool.and_eq_true, decide_eq_true_iff]
  constructor
  · intro hlines i hi
    obtain ⟨n, hn, rfl⟩ := List.mem_iff_getElem.mp hi
    refine hlines (lines[n], n) ?_
    rw [List.mk_mem_zipIdx_iff_getElem?, List.getElem?_eq_getElem hn]
  · rintro hlines ⟨i, n⟩ hi
    have hget := List.mk_mem_zipIdx_iff_getElem?.mp hi
    exact hlines i (List.mem_of_getElem? hget)

theorem vatErrors_eq_nil {vat : VatInfo} : vatErrors r vat = [] ↔ VatValid r vat := by
  simp only [vatErrors, List.append_eq_nil_iff, checkField_eq_nil, fieldError_eq_nil]
  constructor
  · rintro ⟨⟨hname, hcode⟩, haddress⟩
    exact ⟨hname, hcode, haddress⟩
  · rintro ⟨hname, hcode, haddress⟩
    exact ⟨⟨hname, hcode⟩, haddress⟩

theorem fieldErrors_eq_nil : fieldErrors r p = [] ↔ FieldsValid r p := by
  have hempty : (!p.items.isEmpty) = true ↔ p.items ≠ [] := by
    rw [Bool.not_eq_true', List.isEmpty_eq_false_iff]
  have hvat : p.vatInfo.toList.flatMap (vatErrors r) = [] ↔
      ∀ vat, p.vatInfo = some vat → VatValid r vat := by
    simp only [List.flatMap_eq_nil_iff, Option.mem_toList, vatErrors_eq_nil]
  simp only [fieldErrors, List.flatten_eq_nil_iff, List.forall_mem_cons, List.not_mem_nil,
    IsEmpty.forall_iff, implies_true, and_true, quantityErrors_eq_nil, checkField_eq_nil,
    fieldError_eq_nil, hempty, hvat, Option.all_eq_true]
  constructor
  · rintro ⟨h₁, h₂, h₃, h₄, h₅, h₆, h₇, h₈, h₉, h₁₀, h₁₁, h₁₂, h₁₃, h₁₄, h₁₅⟩
    exact ⟨h₁, h₂, h₃, h₄, h₅, h₆, h₇, h₈, h₉, h₁₀, h₁₁, h₁₂, h₁₃, h₁₄, h₁₅⟩
  · rintro ⟨h₁, h₂, h₃, h₄, h₅, h₆, h₇, h₈, h₉, h₁₀, h₁₁, h₁₂, h₁₃, h₁₄, h₁₅⟩
    exact ⟨h₁, h₂, h₃, h₄, h₅, h₆, h₇, h₈, h₉, h₁₀, h₁₁, h₁₂, h₁₃, h₁₄, h₁₅⟩

/-- The phone of an accepted payload is empty, and then missing, or it is normalised. -/
theorem customerPhone_of_modelValidate (h : modelValidate r p = .ok data) :
    (p.customerPhone = "" ∧ data.customerPhone = none) ∨
      ∃ normalized, p.customerPhone ≠ "" ∧
        Chat.validatePhone r.db p.customerPhone.toList = some normalized ∧
        data.customerPhone = some (String.ofList normalized) := by
  obtain ⟨rfl, herrors⟩ := modelValidate_eq_ok h
  obtain ⟨phone, hphone⟩ := (fieldErrors_eq_nil.mp herrors).customerPhone
  have hrequest : (p.request r).customerPhone = phone := by
    simp only [CheckoutPayload.request, hphone]
    rfl
  rw [hrequest]
  unfold validatePhoneField at hphone
  dsimp only at hphone
  split_ifs at hphone with hempty
  · left
    exact ⟨hempty, (Except.ok.inj hphone).symm⟩
  · right
    split at hphone
    next normalized hnormalized =>
      exact ⟨normalized, hempty, hnormalized, (Except.ok.inj hphone).symm⟩
    next => cases hphone

theorem quantity_of_modelValidate (h : modelValidate r p = .ok data) :
    ∀ i ∈ data.items, 1 ≤ i.quantity ∧ i.quantity ≤ 100 := by
  obtain ⟨rfl, herrors⟩ := modelValidate_eq_ok h
  have hbounds := (fieldErrors_eq_nil.mp herrors).quantities
  intro i hi
  obtain ⟨line, hline, rfl⟩ := List.mem_map.mp hi
  have hbound := hbounds line hline
  dsimp only
  omega

/-- The lines of a payload are checked apart from its other fields. -/
theorem modelValidate_items (h : modelValidate r p = .ok data) (lines : List ItemPayload) :
    (∃ data', modelValidate r { p with items := lines } = .ok data') ↔
      lines ≠ [] ∧ ∀ i ∈ lines, 1 ≤ i.quantity ∧ i.quantity ≤ 100 := by
  obtain ⟨hfields, c, hc⟩ := modelValidate_isOk.mp ⟨data, h⟩
  have hpaired := validateDependentFields_isOk.mp ⟨c, hc⟩
  have hvalid := fieldErrors_eq_nil.mp hfields
  rw [modelValidate_isOk, validateDependentFields_isOk, fieldErrors_eq_nil]
  constructor
  · rintro ⟨hlines, -⟩
    exact ⟨hlines.items, hlines.quantities⟩
  · rintro ⟨hne, hbounds⟩
    exact ⟨{ hvalid with items := hne, quantities := hbounds }, hpaired⟩

end

end Qiki.Orders
