import Qiki.Orders.Books

/-! Invoices for delivered orders, among the other requests of a run. -/
namespace Qiki.Orders

/-- `EINVOICE_PROVIDER`. -/
inductive EInvoiceProviderName
  | none
  | vnpt
  | viettel
  deriving DecidableEq, Repr

def EInvoiceProviderName.text : EInvoiceProviderName → String
  | .none => "none"
  | .vnpt => "vnpt"
  | .viettel => "viettel"

structure InvoiceResult where
  provider : String
  status : String
  invoiceNo : Option String := none
  pdfUrl : Option String := none
  payload : Option (List (String × String)) := none
  issuedAt : Option Timestamp := none
  deriving DecidableEq, Repr

inductive InvoiceError
  | notFound (detail errorCode : String)
  | validation (detail errorCode : String)
  | notImplemented (detail errorCode : String)
  deriving DecidableEq, Repr

/-- The tables with the `einvoice` column of the orders. -/
structure InvoicedStore where
  store : Store
  einvoice : Uuid → Option InvoiceResult

section Issue

variable (str : Decimal → String)

/-- `NoopEInvoiceProvider.issue_invoice`; `str` renders the amount. -/
def issueInvoice (o : Order) (now : Timestamp) : InvoiceResult where
  provider := "none"
  status := "stub"
  payload := some [("order_number", o.orderNumber.render), ("total_amount", str o.totalAmount)]
  issuedAt := some now

/-- The provider's `issue_invoice`, or the handled 501 of one that is not integrated. -/
def getEInvoiceProvider (setting : EInvoiceProviderName) :
    Except InvoiceError (Order → Timestamp → InvoiceResult) :=
  if setting = .none then .ok (issueInvoice str)
  else .error (.notImplemented
    ("E-invoice provider '" ++ setting.text ++ "' is configured but not integrated yet")
    "einvoice_provider_not_configured")

def issueForOrder (setting : EInvoiceProviderName) (orderId : Uuid) (now : Timestamp)
    (s : InvoicedStore) : Except InvoiceError (InvoiceResult × InvoicedStore) :=
  match Table.find Order.id orderId s.store.orders with
  | none => .error (.notFound "Order not found" "order_not_found")
  | some o =>
    if o.status ≠ .delivered then
      .error (.validation "An invoice can only be issued for a delivered order"
        "order_not_delivered")
    else do
      let issue ← getEInvoiceProvider str setting
      let result := issue o now
      return (result, { s with einvoice := Function.update s.einvoice orderId (some result) })

/-- A request to the order service or to the invoice endpoint. -/
inductive OfficeRequest
  | orders (r : Request)
  | invoice (orderId : Uuid) (now : Timestamp)

def OfficeRequest.orders? : OfficeRequest → Option Request
  | .orders r => some r
  | .invoice .. => none

def serveOffice (setting : EInvoiceProviderName) (s : InvoicedStore) :
    OfficeRequest → InvoicedStore
  | .orders r => { s with store := (serve s.store r).1 }
  | .invoice orderId now =>
    match issueForOrder str setting orderId now s with
    | .ok (_, t) => t
    | .error _ => s

def serveOfficeAll (setting : EInvoiceProviderName) (s : InvoicedStore)
    (rs : List OfficeRequest) : InvoicedStore := rs.foldl (serveOffice str setting) s

theorem issueForOrder_eq_ok {setting : EInvoiceProviderName} {orderId : Uuid} {now : Timestamp}
    {s t : InvoicedStore} {result : InvoiceResult}
    (h : issueForOrder str setting orderId now s = .ok (result, t)) :
    ∃ o ∈ s.store.orders, o.id = orderId ∧ o.status = .delivered ∧ setting = .none ∧
      result = issueInvoice str o now ∧
      t = { s with einvoice := Function.update s.einvoice orderId (some result) } := by
  unfold issueForOrder at h
  cases hfind : Table.find Order.id orderId s.store.orders with
  | none => simp [hfind] at h
  | some o =>
    simp only [hfind] at h
    split_ifs at h with hstatus
    unfold getEInvoiceProvider at h
    split_ifs at h with hsetting
    · cases h
      exact ⟨o, Table.mem_of_find hfind, Table.key_of_find hfind, not_not.mp hstatus, hsetting,
        rfl, rfl⟩
    · cases h

/-- The order behind an invoice is delivered and shows what the invoice shows. -/
def Invoiced (setting : EInvoiceProviderName) (s : InvoicedStore) : Prop :=
  ∀ orderId result, s.einvoice orderId = some result → setting = .none ∧
    ∃ o ∈ s.store.orders, ∃ now, o.id = orderId ∧ o.status = .delivered ∧
      result = issueInvoice str o now

theorem SameMoney.issueInvoice {o o' : Order} (h : SameMoney o o') (now : Timestamp) :
    issueInvoice str o' now = issueInvoice str o now := by
  simp only [Orders.issueInvoice, h.orderNumber, h.totalAmount]

/-- A request to the order service keeps the orders of all invoices delivered. -/
theorem invoiced_booked {setting : EInvoiceProviderName} {s : InvoicedStore} {t : Store}
    (hs : Invoiced str setting s) (h : Booked s.store t) :
    Invoiced str setting { s with store := t } := by
  intro orderId result hresult
  obtain ⟨hsetting, o, ho, now, hid, hdelivered, hinvoice⟩ := hs orderId result hresult
  refine ⟨hsetting, ?_⟩
  cases h with
  | placed new placed =>
    exact ⟨o, by rw [placed.orders]; exact List.mem_append_left _ ho, now, hid, hdelivered,
      hinvoice⟩
  | updated updatedId f money rows orders coupons redemptions =>
    by_cases hrow : o.id = updatedId
    · refine ⟨f o, ?_, now, (money o).id.trans hid, (rows o ho hrow).delivered hdelivered, ?_⟩
      · rw [orders, Table.mem_modify]
        exact ⟨o, ho, if_pos hrow⟩
      · rw [hinvoice, (money o).issueInvoice str now]
    · refine ⟨o, ?_, now, hid, hdelivered, hinvoice⟩
      rw [orders, Table.mem_modify]
      exact ⟨o, ho, if_neg hrow⟩

/-- The step lemma: an invoice is issued for a delivered order and moves no other column. -/
theorem serveOffice_step {setting : EInvoiceProviderName} {s : InvoicedStore}
    (hkeys : OrderKeys s.store) (hs : Invoiced str setting s) (r : OfficeRequest) :
    (serveOffice str setting s r).store = serveAll s.store r.orders?.toList ∧
      Invoiced str setting (serveOffice str setting s r) := by
  cases r with
  | orders r => exact ⟨rfl, invoiced_booked str hs (serve_booked hkeys r)⟩
  | invoice orderId now =>
    cases hissue : issueForOrder str setting orderId now s with
    | error e =>
      simp only [serveOffice, hissue]
      exact ⟨rfl, hs⟩
    | ok out =>
      obtain ⟨result, t⟩ := out
      simp only [serveOffice, hissue]
      obtain ⟨o, ho, hid, hdelivered, hsetting, hresult, rfl⟩ := issueForOrder_eq_ok str hissue
      refine ⟨rfl, fun orderId' result' hstored => ?_⟩
      change Function.update s.einvoice orderId (some result) orderId' = some result' at hstored
      by_cases heq : orderId' = orderId
      · subst heq
        rw [Function.update_self] at hstored
        obtain rfl := Option.some.inj hstored
        exact ⟨hsetting, o, ho, now, hid, hdelivered, hresult⟩
      · rw [Function.update_of_ne heq] at hstored
        exact hs orderId' result' hstored

end Issue

/-- Over every run of order and invoice requests, the orders are what the order requests alone
make of them, and each stored invoice belongs to an order that is delivered and shows its
present number and total. A provider that is not integrated stores no invoice. -/
theorem invoices_delivered (str : Decimal → String) (setting : EInvoiceProviderName)
    (c : Catalog) (rs : List OfficeRequest) :
    (serveOfficeAll str setting ⟨c.store, fun _ => none⟩ rs).store =
        serveAll c.store (rs.filterMap OfficeRequest.orders?) ∧
      Invoiced str setting (serveOfficeAll str setting ⟨c.store, fun _ => none⟩ rs) := by
  induction rs using List.reverseRecOn with
  | nil =>
    refine ⟨rfl, fun orderId result h => ?_⟩
    cases h
  | append_singleton rs r ih =>
    obtain ⟨hstore, hinvoiced⟩ := ih
    have hkeys : OrderKeys (serveOfficeAll str setting ⟨c.store, fun _ => none⟩ rs).store := by
      rw [hstore]
      exact (ledgerInv_serveAll c _).keys
    obtain ⟨hnext, hinvoiced'⟩ := serveOffice_step str hkeys hinvoiced r
    rw [serveOfficeAll, List.foldl_append]
    refine ⟨hnext.trans ?_, hinvoiced'⟩
    have hlast : [r].filterMap OfficeRequest.orders? = r.orders?.toList := by cases r <;> rfl
    rw [hstore, List.filterMap_append, hlast, serveAll, serveAll, serveAll, List.foldl_append]

end Qiki.Orders
