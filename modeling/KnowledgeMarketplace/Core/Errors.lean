/-!
# Errors

Services raise domain errors with a status code, a machine-readable code and a
message.  The other constructors are the exceptions that the database, the
payment gateway and Python itself raise under the services.
-/

namespace KnowledgeMarketplace

/-- An expected failure, as the API reports it. -/
structure DomainError where
  message : String
  code : String
  statusCode : Nat := 400
  deriving DecidableEq

/-- Every exception a service can end with. -/
inductive Error where
  | domain (error : DomainError)
  | valueError (message : String)
  | typeError
  | gateway (message : String)
  | attemptFailed (reason : String)
  | attributeError
  | doesNotExist (model : String)
  | multipleObjects (model : String)
  | integrity (table : String)
  | transactionManagement
  deriving DecidableEq

namespace Error

/-- `DomainError(message, code=code)`. -/
def domainError (message code : String) : Error :=
  .domain { message, code }

/-- `PermissionDeniedError(message)`. -/
def permissionDenied (message : String) : Error :=
  .domain { message, code := "permission_denied", statusCode := 403 }

/-- `NotFoundError(message)`. -/
def notFound (message : String) : Error :=
  .domain { message, code := "not_found", statusCode := 404 }

/-- `PaymentFailedError(message)`. -/
def paymentFailed (message : String) : Error :=
  .domain { message, code := "payment_failed", statusCode := 402 }

end Error

end KnowledgeMarketplace
