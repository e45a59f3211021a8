import KnowledgeMarketplace.Accounts.Credentials
import KnowledgeMarketplace.Accounts.Enumeration
import KnowledgeMarketplace.Accounts.Revocation
import KnowledgeMarketplace.Accounts.Verification
import KnowledgeMarketplace.Assignments.Access
import KnowledgeMarketplace.Assignments.Convergence
import KnowledgeMarketplace.Assignments.FirstAccept
import KnowledgeMarketplace.Assignments.Floor
import KnowledgeMarketplace.Assignments.Quotes
import KnowledgeMarketplace.Assignments.Rebroadcast
import KnowledgeMarketplace.Assignments.StaleResponses
import KnowledgeMarketplace.Bidding.Counters
import KnowledgeMarketplace.Bidding.PendingOffers
import KnowledgeMarketplace.Core.Allocation
import KnowledgeMarketplace.Core.Rates
import KnowledgeMarketplace.Disputes.Agreement
import KnowledgeMarketplace.Disputes.StatusEdges
import KnowledgeMarketplace.Disputes.Submissions
import KnowledgeMarketplace.Experts.Decisions
import KnowledgeMarketplace.Experts.Editing
import KnowledgeMarketplace.Experts.Slugs
import KnowledgeMarketplace.Experts.Subjects
import KnowledgeMarketplace.Files.Uploads
import KnowledgeMarketplace.Messaging.Membership
import KnowledgeMarketplace.Messaging.Reading
import KnowledgeMarketplace.Messaging.Senders
import KnowledgeMarketplace.Messaging.Threads
import KnowledgeMarketplace.Notifications.Repeats
import KnowledgeMarketplace.Operations.LockOrder
import KnowledgeMarketplace.Orders.ApprovalWarnings
import KnowledgeMarketplace.Orders.DeliveryRuns
import KnowledgeMarketplace.Orders.DisputedTimer
import KnowledgeMarketplace.Orders.DueDates
import KnowledgeMarketplace.Orders.Proposals
import KnowledgeMarketplace.Orders.Stamps
import KnowledgeMarketplace.Orders.UnpaidSweep
import KnowledgeMarketplace.Payments.Earnings
import KnowledgeMarketplace.Payments.EventOrder
import KnowledgeMarketplace.Payments.Freeze
import KnowledgeMarketplace.Payments.LedgerIdentity
import KnowledgeMarketplace.Payments.LiveAttempts
import KnowledgeMarketplace.Payments.PayoutSweep
import KnowledgeMarketplace.Payments.Reconciliation
import KnowledgeMarketplace.Payments.Retries
import KnowledgeMarketplace.Payments.Reversals
import KnowledgeMarketplace.Payments.Settled
import KnowledgeMarketplace.Payments.Settlements
import KnowledgeMarketplace.Portal.Config
import KnowledgeMarketplace.Portal.Moderation
import KnowledgeMarketplace.Portal.Report
import KnowledgeMarketplace.Reviews.Convergence
import KnowledgeMarketplace.Reviews.Standing
import KnowledgeMarketplace.ServiceRequests.Budgets
import KnowledgeMarketplace.ServiceRequests.Coupling
import KnowledgeMarketplace.ServiceRequests.Eligibility
import KnowledgeMarketplace.ServiceRequests.Publication
import KnowledgeMarketplace.ServiceRequests.StatusEdges
import KnowledgeMarketplace.Web.Redirects
import KnowledgeMarketplace.Web.SocketRuns
