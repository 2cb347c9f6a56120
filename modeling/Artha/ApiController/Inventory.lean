import Artha.ApiController.Basic

/-!
# Products, stock and raw materials, the generic proxy and the payment webhook

The public listings (`getProducts`, `getStock`, `getRawMaterials`) are one definition at three
paths, and so are the two listings for sales staff.  The actions that write take their rules, their
request and their texts one by one from the source.
-/

namespace Artha.ApiController

open Php Laravel

/-! ### Writing -/

/-- Validate, forward one request without credentials, answer a fixed message. -/
def submit (failure success : String) (lines : List (Attribute × List Rule)) (request : Request)
    (q : Php HttpRequest) : Php Response :=
  attempt failure <|
    validated request lines do
      forward (← q) fun _ => answerMessage success

/-- The rules for the list of raw materials a product is made of. -/
def rawMaterialsRules : List (Attribute × List Rule) :=
  [(.key "raw_materials", [.required, .array]),
    (.eachKey "raw_materials" "id", [.required, .integer]),
    (.eachKey "raw_materials" "quantity", [.required, .integer, .min 1])]

def insertProductAndStockRules : List (Attribute × List Rule) :=
  [(.key "product_name", [.required, .string, .max 255]),
    (.key "description", [.required, .string]),
    (.key "price", [.required, .numeric, .min 0]),
    (.key "quantity", [.required, .integer, .min 0])] ++ rawMaterialsRules

/-- The request `insertProductAndStock` sends. -/
def insertProductAndStockRequest (request : Request) : HttpRequest :=
  jsonRequest .post (api ++ "/products")
    [("product_name", request.get "product_name"), ("description", request.get "description"),
      ("price", request.get "price"), ("quantity", request.get "quantity"),
      ("raw_materials", request.get "raw_materials")]

def insertProductAndStock (request : Request) : Php Response :=
  submit "Failed to add product and stock: " "Product and stock added successfully"
    insertProductAndStockRules request (pure (insertProductAndStockRequest request))

def updateProductStockRules : List (Attribute × List Rule) :=
  [(.key "product_id", [.required, .integer]), (.key "quantity", [.required, .integer, .min 0])]
    ++ rawMaterialsRules

/-- The request `updateProductStock` sends, with the product id in the path. -/
def updateProductStockRequest (request : Request) (productId : String) : HttpRequest :=
  jsonRequest .put (api ++ "/products/" ++ productId ++ "/stock")
    [("quantity", request.get "quantity"), ("raw_materials", request.get "raw_materials")]

def updateProductStock (request : Request) : Php Response :=
  submit "Failed to update stock: " "Stock updated successfully" updateProductStockRules request do
    return updateProductStockRequest request (← text (request.get "product_id"))

def insertRawMaterialRules : List (Attribute × List Rule) :=
  [(.key "name", [.required, .string, .max 255]), (.key "description", [.required, .string]),
    (.key "quantity", [.required, .integer, .min 0]), (.key "unit", [.required, .string, .max 50])]

/-- The request `insertRawMaterial` sends. -/
def insertRawMaterialRequest (request : Request) : HttpRequest :=
  jsonRequest .post (api ++ "/raw-materials")
    [("name", request.get "name"), ("description", request.get "description"),
      ("quantity", request.get "quantity"), ("unit", request.get "unit")]

def insertRawMaterial (request : Request) : Php Response :=
  submit "Failed to add raw material: " "Raw material added successfully"
    insertRawMaterialRules request (pure (insertRawMaterialRequest request))

/-- The rules of the two actions that delete by id. -/
def idRules : List (Attribute × List Rule) := [(.key "id", [.required, .integer])]

/-- The request of the two actions that delete by id: the id goes behind a path. -/
def deleteByIdRequest (path id : String) : HttpRequest := bareRequest .delete (api ++ path ++ id)

def deleteRawMaterial (request : Request) : Php Response :=
  submit "Failed to delete raw material: " "Raw material deleted successfully" idRules request do
    return deleteByIdRequest "/raw-materials/" (← text (request.get "id"))

def deleteStock (request : Request) : Php Response :=
  submit "Failed to delete stock: " "Stock deleted successfully" idRules request do
    return deleteByIdRequest "/stock/" (← text (request.get "id"))

/-! ### Listing -/

/-- Fetch a path of the backend without credentials and answer its body as data. -/
def listing (failure path : String) : Php Response :=
  attempt failure <| forward (bareRequest .get (api ++ path)) answerData

def getProducts : Php Response := listing "Failed to fetch products: " "/products"

def getStock : Php Response := listing "Failed to fetch stock: " "/stock"

def getRawMaterials : Php Response := listing "Failed to fetch raw materials: " "/raw-materials"

/-- Fetch a path of the backend with the session's token and answer its body as it is. -/
def salesListing (failure path : String) : Php Response :=
  attempt failure <|
    withToken "Unauthorized. Please login as sales." fun token => do
      forward (bearing (bareRequest .get (api ++ path)) (← bearer token)) fun response => do
        -- the body without an envelope
        json (← decode response)

def getStocksForSales : Php Response := salesListing "Failed to fetch stocks: " "/stocks"

def getRawMaterialsForSales : Php Response :=
  salesListing "Failed to fetch raw materials: " "/rawmaterial"

/-! ### `proxyToGo` -/

/-- The body `Http::$method($url, $data)` sends: a query string for `get` and `head`, JSON
otherwise, and nothing for a `delete` without data. -/
def proxyBody (verb : Verb) (data : Value) : Body :=
  match verb with
  | .get | .head => .query data
  | .delete => if data.truthy then .json data else .empty
  | _ => .json data

/-- The request `proxyToGo` sends: verb, path, input and `Authorization` header as received. -/
def proxyRequest (request : Request) : HttpRequest :=
  { HttpRequest.plain request.verb (api ++ "/" ++ request.path)
      (proxyBody request.verb request.all) with
    headers := [("Authorization", (request.authorization.map Value.str).getD .null)] }

/-- The client has no `options` method. -/
def proxyToGo (request : Request) : Php Response :=
  attempt "Failed to proxy request: " do
    if request.verb = .options then
      throw (.ofMessage "Method Illuminate\\Http\\Client\\PendingRequest::options does not exist.")
    forward (proxyRequest request) fun response => do json (← decode response)

/-! ### `midtransWebhook` -/

/-- The request `midtransWebhook` forwards: the whole notification. -/
def webhookRequest (request : Request) : HttpRequest :=
  .plain .post (api ++ "/midtrans/webhook") (.json request.all)

def midtransWebhook (request : Request) : Php Response :=
  attempt "Failed to process webhook: " do
    let orderId := request.all.getD "order_id" .null
    let transactionStatus := request.all.getD "transaction_status" .null
    -- `fraud_status` is read too and not used; the signature is not looked at
    if !orderId.truthy || !transactionStatus.truthy then
      throw (.ofMessage "Invalid webhook data")
    let response ← send (webhookRequest request)
    if !response.successful then
      throwBody "Failed to forward webhook: " response
    else json (.arr [("status", .str "success")])

end Artha.ApiController
