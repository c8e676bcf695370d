import Qiki.Transition.Run
import Qiki.Transition.Threads
import Qiki.Transition.LockOrder
import Qiki.Transition.SingleUse
import Qiki.Transition.Versions
import Qiki.Collections.Table
import Qiki.Text.Basic
import Qiki.Text.Regex
import Qiki.Text.Unicode
import Qiki.Text.Vietnamese
import Qiki.Text.Boundary
import Qiki.Text.Spelling
import Qiki.Text.Decimal
import Qiki.Text.LetterCase
import Qiki.Collections.Expiring
import Qiki.Collections.FixedWindow
import Qiki.Arithmetic.Rounding
import Qiki.Orders.Model
import Qiki.Orders.Session
import Qiki.Orders.Coupons
import Qiki.Orders.CreateOrder
import Qiki.Orders.Status
import Qiki.Orders.Deliveries
import Qiki.Orders.Runs
import Qiki.Orders.StockLedger
import Qiki.Orders.Allocation
import Qiki.Orders.DeliveredUnits
import Qiki.Orders.Faults
import Qiki.Orders.Retry
import Qiki.Concurrency.Cancellation
import Qiki.Concurrency.Checkout
import Qiki.Concurrency.CouponLimits
import Qiki.Concurrency.OrderNumbers
import Qiki.Concurrency.CheckoutProgress
import Qiki.Orders.Undisturbed
import Qiki.Concurrency.SerialOrder
import Qiki.Concurrency.Serializability
import Qiki.Concurrency.SharedStock
import Qiki.Orders.Splitting
import Qiki.Orders.Forward
import Qiki.Concurrency.FinishedDelivery
import Qiki.Data.Json
import Qiki.Safety.Checker
import Qiki.Agent.State
import Qiki.Agent.Tools
import Qiki.Agent.ToolExecutor
import Qiki.Agent.Graph
import Qiki.Agent.Turns
import Qiki.Agent.EmergencyReply
import Qiki.Agent.Leftovers
import Qiki.Agent.Injection
import Qiki.Agent.Approval
import Qiki.Admin.Chat
import Qiki.Admin.Confirmations
import Qiki.Concurrency.StockEdit
import Qiki.Chat.AddressLookup
import Qiki.Chat.Slots
import Qiki.Chat.Cues
import Qiki.Chat.Products
import Qiki.Chat.NormalForm
import Qiki.Chat.PhoneNumber
import Qiki.Chat.Extraction
import Qiki.Chat.Cart
import Qiki.Chat.History
import Qiki.Chat.StoredSlots
import Qiki.Chat.Replies
import Qiki.Chat.HandleOrder
import Qiki.Chat.PriceAnswers
import Qiki.Chat.Plan
import Qiki.Chat.EmergencyGate
import Qiki.Chat.Prepared
import Qiki.Chat.TurnReplies
import Qiki.Chat.NegatedConfirmation
import Qiki.Chat.OrderInProgress
import Qiki.Orders.Amounts
import Qiki.Chat.SummaryAmounts
import Qiki.Catalog.Storefront
import Qiki.Catalog.QuotedPrices
import Qiki.Text.Incremental
import Qiki.Client.SseFrames
import Qiki.Client.MessageList
import Qiki.Client.Sending
import Qiki.Data.Stages
import Qiki.Knowledge.Documents
import Qiki.Knowledge.FreshEmbeddings
import Qiki.Chat.CartIdentity
import Qiki.Chat.CartProducts
import Qiki.Chat.CartAfter
import Qiki.Chat.CartKept
import Qiki.Orders.Availability
import Qiki.Chat.Revalidated
import Qiki.Chat.ShownOrder
import Qiki.Chat.PlainYes
import Qiki.Chat.ConfirmedCheckout
import Qiki.Chat.SummaryCheckout
import Qiki.Orders.Discounts
import Qiki.Knowledge.Review
import Qiki.Knowledge.QueryCache
import Qiki.PriceAlerts.Subscriptions
import Qiki.PriceAlerts.DoubleOptIn
import Qiki.Auth.Model
import Qiki.Auth.SingleUse
import Qiki.Auth.Login
import Qiki.Auth.Lockout
import Qiki.Auth.Accounts
import Qiki.Auth.Revocation
import Qiki.Auth.EmailOtp
import Qiki.Concurrency.ConversationCodes
import Qiki.Orders.CheckoutPayload
import Qiki.Orders.CheckoutRows
import Qiki.Orders.Storable
import Qiki.Client.Cart
import Qiki.Client.CheckoutTotal
import Qiki.Data.Patch
import Qiki.Arithmetic.FixedPoint
import Qiki.Orders.CouponUpdate
import Qiki.Catalog.ProductUpdate
import Qiki.Catalog.MergedProduct
import Qiki.Catalog.Reorder
import Qiki.Client.CheckoutForm
import Qiki.Collections.FirstRows
import Qiki.Orders.BestSellers
import Qiki.Orders.Books
import Qiki.Orders.CouponLedger
import Qiki.Orders.Invoices
import Qiki.Orders.Tracking
import Qiki.Chat.ProductSearch
import Qiki.Chat.PriceRanking
import Qiki.Collections.Pages
import Qiki.Catalog.GroupedPages
import Qiki.Text.Search
import Qiki.Text.Digits
import Qiki.Catalog.PrintedPrices
import Qiki.Catalog.PriceAmounts
import Qiki.Catalog.ParsedPrices
import Qiki.Catalog.PriceRoundTrip
import Qiki.Collections.FirstMatch
import Qiki.Chat.CartAmounts
import Qiki.Client.DeliveryHint
import Qiki.Knowledge.Reranker
import Qiki.Llm.Fallback
import Qiki.Chat.InterruptedStream
import Qiki.PriceAlerts.ConfirmLink
import Qiki.Knowledge.HybridSearch
import Qiki.Data.JsonText
import Qiki.Chat.SlotsRoundTrip
import Qiki.Chat.ReusedContact
import Qiki.Chat.ProductNames
import Qiki.Text.Steps
import Qiki.Text.BaseLetters
import Qiki.Safety.PlainLetters
import Qiki.Safety.GreekLetters
import Qiki.Safety.Dilution
import Qiki.Collections.Families
import Qiki.Client.WaterFamilies
import Qiki.Orders.Statistics
import Qiki.Chat.StaffRouting
import Qiki.Collections.GroupCounts
import Qiki.Chat.Insights
import Qiki.Chat.RefusedSummary
import Qiki.Transition.Acyclic
import Qiki.Concurrency.LastAdmin
import Qiki.Text.Lines
import Qiki.Knowledge.FrontMatter
import Qiki.Chat.FollowupNotes
import Qiki.Orders.OrderPages
