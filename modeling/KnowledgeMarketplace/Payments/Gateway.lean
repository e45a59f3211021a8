import KnowledgeMarketplace.Database.Rows
import KnowledgeMarketplace.Core.Errors

/-!
# Payment gateways

The manual gateway simulates a provider: a payment whose reference starts with
`fail` fails, every other one succeeds.  The Stripe gateway is a seam whose
operations raise until it is configured.
-/

namespace KnowledgeMarketplace

namespace Gateway

/-- What every operation of the Stripe seam raises without credentials. -/
def notReady : Error :=
  .gateway <|
    "StripeGateway is a prepared seam, not an active provider: Stripe " ++
    "credentials are not configured (missing: STRIPE_SECRET_KEY, " ++
    "STRIPE_WEBHOOK_SECRET, STRIPE_API_COUNTRY). Set them only after the " ++
    "activation checklist in docs/workflows/payments.md (jurisdiction, " ++
    "entity, KYC, currencies, fees, webhooks) has been verified."

/-- The prefix of references that simulate a failure. -/
def simulatedFailurePrefix : String := "fail"

/-- Collect money for an order; the manual gateway only gives instructions. -/
def createPayment : GatewayName → Except Error Unit
  | .manual => .ok ()
  | .stripe => .error notReady

/-- Whether the provider reports success for a payment reference. -/
def confirmPayment (reference : String) : GatewayName → Except Error Bool
  | .manual =>
      .ok !(simulatedFailurePrefix.toList.isPrefixOf reference.toList)
  | .stripe => .error notReady

/-- Send money back; returns the reference of the refund. -/
def refund (env : Env) : GatewayName → Except Error String
  | .manual => .ok ("manual-re-" ++ env.hex)
  | .stripe => .error notReady

/-- Pay an expert; returns the reference of the transfer. -/
def transfer (env : Env) : GatewayName → Except Error String
  | .manual => .ok ("manual-po-" ++ env.hex)
  | .stripe => .error notReady

end Gateway

end KnowledgeMarketplace
