import Qiki.Agent.State
import Qiki.Orders.Model

/-! The read-only tools and what they are bound to. The catalog and the knowledge base answer
as the services do; a tool that raises is an error with its text. -/
namespace Qiki.Agent

open Orders

/-- An exception of a service. -/
inductive Failure
  | valueError (message : Text)
  | notFound (message : Text)
  | other (message : Text)
  deriving DecidableEq, Repr

/-- `str(exc)` -/
def Failure.text : Failure → Text
  | .valueError message => message
  | .notFound message => message
  | .other message => message

/-- What the tools read of the product and order tables. -/
structure Catalog where
  /-- `ProductService.search_products` on the tool's arguments: the total and one page. -/
  searchProducts : Json → Except Failure (ℕ × List Product)
  /-- `ProductService.get_product` -/
  getProduct : Uuid → Except Failure Product
  /-- `RecommendationService.recommend`: products with the reason for each. -/
  recommend : Option Uuid → ℕ → Except Failure (List (Product × Text))

/-- A hit of `KnowledgeBaseService.search_documents`. -/
structure KbSearchResult where
  title : Text
  content : Text
  similarity : ℚ
  deriving DecidableEq, Repr

/-- `RetrievedDocument` -/
structure RetrievedDocument where
  id : Uuid
  title : Text
  content : Text
  similarity : ℚ
  deriving DecidableEq, Repr

/-- What the nodes read of the knowledge base. -/
structure Knowledge where
  searchDocuments : Text → Except Failure (List KbSearchResult)
  /-- `BaseRetriever.retrieve(query, top_k)` -/
  retrieve : Text → ℕ → Except Failure (List RetrievedDocument)

/-- `str(uuid)`; keys are numbers here. -/
def uuidText (id : Uuid) : Text := Text.ofNat id

def digitValue (c : Char) : Option ℕ := if c.isDigit then some (c.toNat - '0'.toNat) else none

/-- `UUID(text)` -/
def parseUuid (text : Text) : Option Uuid := Text.toNat digitValue text

/-- `str(value)` of a column with two decimals. -/
def twoPlaces (d : Decimal) : Text :=
  let cents := (d * 100).floor.toNat
  Text.ofNat (cents / 100) ++ "." ++ Text.ofNat (cents % 100 / 10) ++ Text.ofNat (cents % 10)

def categoryText : Category → Text
  | .gas => "gas"
  | .nuocUong => "nuoc_uong"

/-- `search_products._to_result` -/
def searchResult (p : Product) : Json := .obj [
  ("id", .str (uuidText p.id)), ("sku", .str p.sku), ("name", .str p.name),
  ("brand", .str p.brand), ("category", .str (categoryText p.category)),
  ("size_kg", .str (twoPlaces p.sizeKg)), ("unit", .str p.unit),
  ("price", .str (twoPlaces p.effectivePrice)), ("in_stock", .bool (0 < p.stockQuantity)),
  ("stock_quantity", .int p.stockQuantity)]

/-- A structured error: `{"ok": False, "error": ..., "message": ...}`. -/
def toolError (error message : Text) : Json :=
  .obj [("ok", .bool false), ("error", .str error), ("message", .str message)]

/-- The `search_products` tool. -/
def searchProducts (c : Catalog) (args : Json) : Except Text Json :=
  match c.searchProducts args with
  | .ok (total, products) => .ok (.obj [("ok", .bool true), ("total", .int total),
      ("products", .arr (products.map searchResult))])
  | .error (.valueError message) => .ok (toolError "invalid_filter" message)
  | .error failure => .error failure.text

def invalidProductId (productId : Text) : Json :=
  toolError "invalid_product_id" ("'" ++ productId ++ "' is not a valid product id.")

def productNotFound : Json :=
  toolError "product_not_found" "No active product with that id. Use search_products first."

/-- The `check_inventory` tool. -/
def checkInventory (c : Catalog) (args : Json) : Except Text Json :=
  match args.get "product_id" with
  | some (.str productId) =>
    let quantity : ℤ := match args.get "quantity" with
      | some (.int n) => n
      | _ => 1
    match parseUuid productId with
    | none => .ok (invalidProductId productId)
    | some id =>
      match c.getProduct id with
      | .ok product => .ok (.obj [("ok", .bool true), ("product_id", .str (uuidText product.id)),
          ("sku", .str product.sku), ("name", .str product.name),
          ("stock_quantity", .int product.stockQuantity), ("requested_quantity", .int quantity),
          ("available", .bool (quantity ≤ product.stockQuantity))])
      | .error (.notFound _) => .ok productNotFound
      | .error failure => .error failure.text
  | _ => .error "product_id: Field required"

/-- The `lookup_safety_policy` tool. -/
def lookupSafetyPolicy (k : Knowledge) (args : Json) : Except Text Json :=
  match args.get "query" with
  | some (.str query) =>
    match k.searchDocuments query with
    | .ok results => .ok (.obj [("ok", .bool true), ("documents", .arr (results.map fun r =>
        .obj [("title", .str r.title), ("content", .str r.content),
          ("similarity", .float r.similarity)]))])
    | .error failure => .error failure.text
  | _ => .error "query: Field required"

/-- `recommend_products._to_result` -/
def recommendResult (candidate : Product × Text) : Json :=
  let p := candidate.1
  .obj [("id", .str (uuidText p.id)), ("sku", .str p.sku), ("name", .str p.name),
    ("brand", .str p.brand), ("category", .str (categoryText p.category)),
    -- `product.sale_price or product.price`
    ("price", .str (twoPlaces (match p.salePrice with
      | some s => if s = 0 then p.price else s
      | none => p.price))),
    ("in_stock", .bool (0 < p.stockQuantity)), ("reason", .str candidate.2)]

/-- `RecommendationService.DEFAULT_LIMIT` and the tool's `MAX_LIMIT`. -/
def recommendLimit (args : Json) : ℕ :=
  match args.get "limit" with
  | some (.int n) => min n.toNat 10
  | _ => 6

/-- The `recommend_products` tool. -/
def recommendProducts (c : Catalog) (args : Json) : Except Text Json :=
  let answer (productId : Option Uuid) : Except Text Json :=
    match c.recommend productId (recommendLimit args) with
    | .ok candidates => .ok (.obj [("ok", .bool true),
        ("recommendations", .arr (candidates.map recommendResult))])
    | .error (.notFound _) => .ok productNotFound
    | .error failure => .error failure.text
  match args.get "product_id" with
  | some (.str productId) =>
    match parseUuid productId with
    | none => .ok (invalidProductId productId)
    | some id => answer (some id)
  | _ => answer none

/-- A tool that is bound to its services. -/
abbrev Tool := Json → Except Text Json

def buildTools (c : Catalog) (k : Knowledge) (name : Text) : Option Tool :=
  if name = "search_products" then some (searchProducts c)
  else if name = "check_inventory" then some (checkInventory c)
  else if name = "lookup_safety_policy" then some (lookupSafetyPolicy k)
  else if name = "recommend_products" then some (recommendProducts c)
  else none

/-! The authorization matrix. -/

inductive ToolMode
  | read | write
  deriving DecidableEq, Repr

structure ToolAuthPolicy where
  mode : ToolMode
  requiresAuth : Bool
  requiresConfirm : Bool
  deriving DecidableEq, Repr

def readPublic : ToolAuthPolicy := ⟨.read, false, false⟩

def writeAuthConfirm : ToolAuthPolicy := ⟨.write, true, true⟩

def toolAuthRegistry : List (Text × ToolAuthPolicy) := [
  ("search_products", readPublic),
  ("check_inventory", readPublic),
  ("lookup_safety_policy", readPublic),
  ("recommend_products", readPublic),
  ("_mock_create_order_example", writeAuthConfirm),
  ("_mock_customer_history_example", ⟨.read, true, false⟩)]

/-- `get_tool_policy`: an unregistered name gets the strictest policy. -/
def getToolPolicy (toolName : Text) : ToolAuthPolicy :=
  (toolAuthRegistry.lookup toolName).getD writeAuthConfirm

end Qiki.Agent
