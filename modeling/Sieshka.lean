import Sieshka.Transactions.Tables
import Sieshka.Transactions.Program
import Sieshka.Transactions.System
import Sieshka.Transactions.Logic
import Sieshka.Transactions.Soundness
import Sieshka.Transactions.Runs
import Sieshka.Transactions.Rules
import Sieshka.Transactions.Ledger
import Sieshka.Transactions.Counting
import Sieshka.Transactions.Reading
import Sieshka.Transactions.Alone
import Sieshka.Transactions.Serial
import Sieshka.Transactions.Queries
import Sieshka.Transactions.Checks
import Sieshka.Transactions.Index
import Sieshka.Python.Text
import Sieshka.Python.Values
import Sieshka.Python.Csv
import Sieshka.Python.Time
import Sieshka.Python.DateTime
import Sieshka.Python.Parameters
import Sieshka.Python.Floats
import Sieshka.Domains
import Sieshka.Database
import Sieshka.World
import Sieshka.Vm
import Sieshka.Tools.OrderTools
import Sieshka.Programs
import Sieshka.Services.OrderService
import Sieshka.Services.PaymentService
import Sieshka.Services.Checkout
import Sieshka.Services.Staff
import Sieshka.Services.MaxWebhook
import Sieshka.Services.MaxWebappAuth
import Sieshka.Services.InventoryService
import Sieshka.Shop
import Sieshka.Samples
import Sieshka.Evolution
import Sieshka.Effects
import Sieshka.Specs.Sessions
import Sieshka.Specs.OrderTools
import Sieshka.Specs.Transitions
import Sieshka.Specs.Settlement
import Sieshka.Specs.Payments
import Sieshka.Specs.Stock
import Sieshka.Specs.Staff
import Sieshka.Specs.MaxWebhook
import Sieshka.Specs.Checkout
import Sieshka.Specs.Shop
import Sieshka.Specs.Requests
import Sieshka.Properties.OrderGraph
import Sieshka.Properties.InventoryLedger
import Sieshka.Properties.Cooking
import Sieshka.Properties.KitchenTickets
import Sieshka.Properties.Authority
import Sieshka.Properties.StockState
import Sieshka.Properties.TerminalPayments
import Sieshka.Properties.PaidOrders
import Sieshka.Properties.CheckoutKeys
import Sieshka.Properties.OneOrder
import Sieshka.Properties.CheckoutRetry
import Sieshka.Properties.PaymentBinding
import Sieshka.Properties.Cancellations
import Sieshka.Services.DeliveryService
import Sieshka.Properties.Delivery
import Sieshka.Menu
import Sieshka.Tools.MenuAgentTools
import Sieshka.Tools.MenuImportTools
import Sieshka.Services.MenuImportService
import Sieshka.Specs.Menu
import Sieshka.Forests
import Sieshka.Traces
import Sieshka.Tallies
import Sieshka.Delimiters
import Sieshka.Migrations.SplitSql
import Sieshka.Upserts
import Sieshka.Properties.ProductNames
import Sieshka.Properties.CategoryForest
import Sieshka.Zones
import Sieshka.Tools.ZoneAgentTools
import Sieshka.Services.ZoneAgent
import Sieshka.Specs.Zones
import Sieshka.Transactions.Histories
import Sieshka.Properties.ZoneCommands
import Sieshka.Properties.ZoneEdits
import Sieshka.Promotions
import Sieshka.Tools.PromotionAgentTools
import Sieshka.Specs.Promotions
import Sieshka.Properties.PromotionNames
import Sieshka.Schedule
import Sieshka.Tools.ScheduleAgentTools
import Sieshka.Specs.Validators
import Sieshka.Properties.Validators
import Sieshka.Services.ScheduleService
import Sieshka.Storefront
import Sieshka.Services.MenuService
import Sieshka.Specs.Schedule
import Sieshka.Properties.ScheduleWindows
import Sieshka.Specs.Customers
import Sieshka.Properties.CustomerIdentity
import Sieshka.Properties.OrderReads
import Sieshka.Properties.Reservations
import Sieshka.Web.CustomerRoutes
import Sieshka.Web.Cart
import Sieshka.Properties.CartBounds
import Sieshka.Properties.Phones
import Sieshka.Properties.SqlSplitting
import Sieshka.Properties.InitData
import Sieshka.Properties.SignedUser
import Sieshka.Properties.CheckoutMoney
import Sieshka.Properties.PromotionValues
import Sieshka.Properties.MenuAvailability
import Sieshka.Properties.MenuImport
import Sieshka.Specs.MenuImport
import Sieshka.Properties.MenuImportTwice
import Sieshka.Properties.MenuImportCategories
import Sieshka.Services.InventoryExport
import Sieshka.Specs.InventoryExport
import Sieshka.Properties.ExportTotals
import Sieshka.Properties.PastSales
import Sieshka.FreeNames
import Sieshka.Services.SkuGeneration
import Sieshka.Specs.SkuGeneration
import Sieshka.Properties.GeneratedSkus
import Sieshka.Properties.SkuLinks
import Sieshka.Properties.CheckoutColumns
import Sieshka.Services.NarrativeReceipts
import Sieshka.Properties.Approvals
import Sieshka.Scripts.DuplicateItemSkus
import Sieshka.Properties.SkuCleanup
import Sieshka.Renumbering
import Sieshka.Web.MenuAdmin
import Sieshka.Properties.MenuOrder
import Sieshka.Doubles
import Sieshka.Web.ZaloEvents
import Sieshka.Properties.NumberTexts
import Sieshka.Properties.ValueTexts
import Sieshka.Properties.ZaloSignature
import Sieshka.Services.MessengerIds
import Sieshka.Web.ZaloWebhook
import Sieshka.Properties.ConsentRevocation
import Sieshka.Properties.StorefrontOrders
import Sieshka.Refreshes
import Sieshka.Web.CheckoutPage
import Sieshka.Properties.ShownTotals
import Sieshka.Properties.KitchenOrders
import Sieshka.Properties.OrderMilestones
import Sieshka.Transactions.Totals
import Sieshka.Properties.SoldOrders
import Sieshka.Services.MaxClient
import Sieshka.Services.MaxStaffNotify
import Sieshka.Specs.StaffCards
import Sieshka.Properties.StaffCards
import Sieshka.Properties.OneCard
import Sieshka.Specs.Presses
import Sieshka.Properties.StaffButtons
import Sieshka.Properties.ExportReadsBack
import Sieshka.Properties.KeptRecords
