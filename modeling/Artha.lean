import Artha.ApiController.Account
import Artha.ApiController.Action
import Artha.ApiController.Basic
import Artha.ApiController.Customer
import Artha.ApiController.Inventory
import Artha.ApiController.Spec.Checkout
import Artha.ApiController.Spec.Envelope
import Artha.ApiController.Spec.Honest
import Artha.ApiController.Spec.Identity
import Artha.ApiController.Spec.Order
import Artha.ApiController.Spec.Outgoing
import Artha.ApiController.Spec.Paths
import Artha.ApiController.Spec.Rules
import Artha.ApiController.Spec.Session
import Artha.ApiController.Spec.Shape
import Artha.ApiController.Spec.Signup
import Artha.ApiController.Spec.Success
import Artha.ApiController.Spec.Webhook
import Artha.Binary64.Arithmetic
import Artha.Binary64.Basic
import Artha.Client.Auth
import Artha.Client.RateLimiter
import Artha.Client.Security
import Artha.Client.Session
import Artha.Client.Spec.Account
import Artha.Client.Spec.Auth
import Artha.Client.Spec.RateLimiter
import Artha.Client.Spec.Sanitize
import Artha.Client.Spec.Security
import Artha.Client.Spec.Session
import Artha.Client.Spec.Storage
import Artha.Client.Storage
import Artha.Codec.Base64
import Artha.Codec.Utf
import Artha.Config.Boot
import Artha.Config.Environment
import Artha.Config.Setup
import Artha.Config.Spec.MidtransEnv
import Artha.Config.Spec.Precedence
import Artha.Config.Spec.Reboot
import Artha.Config.Spec.Setup
import Artha.Dashboard.Answers
import Artha.Dashboard.Cart
import Artha.Dashboard.Products
import Artha.Dashboard.Quantity
import Artha.Dashboard.Spec.Answers
import Artha.Dashboard.Spec.Cart
import Artha.Dashboard.Spec.Products
import Artha.Dashboard.Spec.Quantity
import Artha.Effect.Basic
import Artha.Effect.Logic
import Artha.Effect.Run
import Artha.Exports.Spec.Table
import Artha.Exports.Spec.Transactions
import Artha.Exports.Transactions
import Artha.Html.Contents
import Artha.Html.NumberInput
import Artha.Html.References
import Artha.Html.Template
import Artha.Html.Tokenizer
import Artha.JavaScript.Call
import Artha.JavaScript.Json
import Artha.JavaScript.JsonText
import Artha.JavaScript.Number
import Artha.JavaScript.ParseFloat
import Artha.JavaScript.RoundTrip
import Artha.JavaScript.Sort
import Artha.JavaScript.Stringify
import Artha.JavaScript.Timer
import Artha.JavaScript.Trim
import Artha.JavaScript.Uri
import Artha.Laravel.Http
import Artha.Laravel.Validator
import Artha.Login.Page
import Artha.Login.Spec.Credentials
import Artha.MidtransHelper.Remote
import Artha.MidtransHelper.Snap
import Artha.MidtransHelper.Spec.Remote
import Artha.MidtransHelper.Spec.Snap
import Artha.MidtransHelper.Spec.Status
import Artha.MidtransHelper.Spec.Webhook
import Artha.MidtransHelper.Webhook
import Artha.Php.Number
import Artha.Php.Value
import Artha.Products.Cards
import Artha.Products.Catalog
import Artha.Products.Spec.Cards
import Artha.Products.Spec.Catalog
import Artha.Products.Spec.RenderProducts
import Artha.Products.Spec.Structure
import Artha.Regex.Basic
import Artha.Regex.Multiline
import Artha.Routes.Middleware
import Artha.Routes.Spec.Clients
import Artha.Routes.Spec.Expiry
import Artha.Routes.Spec.Guards
import Artha.Routes.Spec.Isolation
import Artha.Routes.Spec.Landing
import Artha.Routes.Spec.Sessions
import Artha.Routes.Web
import Artha.Sales.Materials
import Artha.Sales.NewProduct
import Artha.Sales.RawMaterials
import Artha.Sales.Spec.Materials
import Artha.Sales.Spec.NewProduct
import Artha.Sales.Spec.RawMaterials
import Artha.Sales.Spec.StockDialog
import Artha.Sales.Spec.StockManagement
import Artha.Sales.StockDialog
import Artha.Sales.StockManagement
import Artha.UserController.Actions
import Artha.UserController.Basic
import Artha.UserController.Spec.Admins
import Artha.UserController.Spec.Rows
