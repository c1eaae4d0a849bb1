import CoopMessenger.Manager.Types

/-!
# Errors of the HTTP handlers

`errHTTP` of `server/errors.go`, with the errors that the modelled handlers
return.
-/

namespace CoopMessenger
namespace Server

/-- A generic HTTP error for any non-200 HTTP error. -/
structure ErrHTTP where
  code : Nat
  httpCode : Nat
  message : String
  link : String
deriving DecidableEq, Repr

/-- Appends a detail to the message. -/
def ErrHTTP.wrap
    (e : ErrHTTP)
    (message : String) : ErrHTTP :=
  { e with message := e.message ++ "; " ++ message }

/-- A handler fails with an HTTP error or passes on an error of the manager. -/
inductive HandlerError where
  | http (e : ErrHTTP)
  | manager (e : Manager.Error)
deriving DecidableEq, Repr

def errHTTPBadRequest : ErrHTTP :=
  ⟨40000, 400, "invalid request", ""⟩

def errHTTPUnauthorized : ErrHTTP :=
  ⟨40101, 401, "unauthorized",
    "https://ntfy.sh/docs/publish/#authentication"⟩

def errHTTPForbidden : ErrHTTP :=
  ⟨40301, 403, "forbidden", "https://ntfy.sh/docs/publish/#authentication"⟩

def errHTTPConflict : ErrHTTP :=
  ⟨40900, 409, "conflict", ""⟩

def errHTTPBadRequestTopicDisallowed : ErrHTTP :=
  ⟨40010, 400, "invalid request: topic name is not allowed", ""⟩

def errHTTPTooManyRequestsLimitTotalTopics : ErrHTTP :=
  ⟨42904, 429, "limit reached: the total number of topics on the server " ++
    "has been reached, please contact the admin",
    "https://ntfy.sh/docs/publish/#limitations"⟩

def errHTTPBadRequestTopicInvalid : ErrHTTP :=
  ⟨40009, 400, "invalid request: topic invalid", ""⟩

def errHTTPBadRequestJSONInvalid : ErrHTTP :=
  ⟨40024, 400, "invalid request: request body must be valid JSON", ""⟩

def errHTTPBadRequestPermissionInvalid : ErrHTTP :=
  ⟨40025, 400, "invalid request: incorrect permission string", ""⟩

def errHTTPBadRequestUserNotFound : ErrHTTP :=
  ⟨40031, 400, "invalid request: user does not exist", ""⟩

def errHTTPNotFound : ErrHTTP :=
  ⟨40401, 404, "page not found", ""⟩

def errHTTPConflictTopicReserved : ErrHTTP :=
  ⟨40902, 409, "conflict: access control entry for topic or topic pattern " ++
    "already exists", ""⟩

def errHTTPTooManyRequestsLimitReservations : ErrHTTP :=
  ⟨42907, 429, "limit reached: too many topic reservations for this user", ""⟩

def errHTTPInternalError : ErrHTTP :=
  ⟨50001, 500, "internal server error", ""⟩

def errHTTPBadRequestEmailDisabled : ErrHTTP :=
  ⟨40001, 400, "e-mail notifications are not enabled",
    "https://ntfy.sh/docs/config/#e-mail-notifications"⟩

def errHTTPBadRequestDelayNoCache : ErrHTTP :=
  ⟨40002, 400, "cannot disable cache for delayed message", ""⟩

def errHTTPBadRequestDelayNoEmail : ErrHTTP :=
  ⟨40003, 400, "delayed e-mail notifications are not supported", ""⟩

def errHTTPBadRequestDelayCannotParse : ErrHTTP :=
  ⟨40004, 400, "invalid delay parameter: unable to parse delay",
    "https://ntfy.sh/docs/publish/#scheduled-delivery"⟩

def errHTTPBadRequestDelayTooSmall : ErrHTTP :=
  ⟨40005, 400, "invalid delay parameter: too small, please refer to the docs",
    "https://ntfy.sh/docs/publish/#scheduled-delivery"⟩

def errHTTPBadRequestDelayTooLarge : ErrHTTP :=
  ⟨40006, 400, "invalid delay parameter: too large, please refer to the docs",
    "https://ntfy.sh/docs/publish/#scheduled-delivery"⟩

def errHTTPBadRequestPriorityInvalid : ErrHTTP :=
  ⟨40007, 400, "invalid priority parameter",
    "https://ntfy.sh/docs/publish/#message-priority"⟩

def errHTTPBadRequestMessageNotUTF8 : ErrHTTP :=
  ⟨40011, 400, "invalid request: message must be UTF-8 encoded", ""⟩

def errHTTPBadRequestAttachmentURLInvalid : ErrHTTP :=
  ⟨40013, 400, "invalid request: attachment URL is invalid",
    "https://ntfy.sh/docs/publish/#attachments"⟩

def errHTTPBadRequestAttachmentsDisallowed : ErrHTTP :=
  ⟨40014, 400, "invalid request: attachments not allowed",
    "https://ntfy.sh/docs/config/#attachments"⟩

def errHTTPBadRequestAttachmentsExpiryBeforeDelivery : ErrHTTP :=
  ⟨40015, 400, "invalid request: attachment expiry before delayed " ++
    "delivery date",
    "https://ntfy.sh/docs/publish/#scheduled-delivery"⟩

def errHTTPBadRequestActionsInvalid : ErrHTTP :=
  ⟨40018, 400, "invalid request: actions invalid",
    "https://ntfy.sh/docs/publish/#action-buttons"⟩

def errHTTPBadRequestIconURLInvalid : ErrHTTP :=
  ⟨40021, 400, "invalid request: icon URL is invalid",
    "https://ntfy.sh/docs/publish/#icons"⟩

def errHTTPBadRequestPhoneCallsDisabled : ErrHTTP :=
  ⟨40032, 400, "invalid request: calling is disabled",
    "https://ntfy.sh/docs/config/#phone-calls"⟩

def errHTTPBadRequestPhoneNumberInvalid : ErrHTTP :=
  ⟨40033, 400, "invalid request: phone number invalid",
    "https://ntfy.sh/docs/publish/#phone-calls"⟩

def errHTTPBadRequestPhoneNumberNotVerified : ErrHTTP :=
  ⟨40034, 400, "invalid request: phone number not verified, or no " ++
    "matching verified numbers found",
    "https://ntfy.sh/docs/publish/#phone-calls"⟩

def errHTTPBadRequestAnonymousCallsNotAllowed : ErrHTTP :=
  ⟨40035, 400, "invalid request: anonymous phone calls are not allowed",
    "https://ntfy.sh/docs/publish/#phone-calls"⟩

def errHTTPBadRequestDelayNoCall : ErrHTTP :=
  ⟨40037, 400, "invalid request: delayed call notifications are not supported",
    ""⟩

def errHTTPBadRequestTemplateMessageTooLarge : ErrHTTP :=
  ⟨40041, 400, "invalid request: message or title is too large after " ++
    "replacing template",
    "https://ntfy.sh/docs/publish/#message-templating"⟩

def errHTTPBadRequestTemplateFileNotFound : ErrHTTP :=
  ⟨40047, 400, "invalid request: template file not found",
    "https://ntfy.sh/docs/publish/#message-templating"⟩

def errHTTPBadRequestSequenceIDInvalid : ErrHTTP :=
  ⟨40049, 400, "invalid request: sequence ID invalid",
    "https://ntfy.sh/docs/publish/#updating-deleting-notifications"⟩

def errHTTPBadRequestSignupNotEnabled : ErrHTTP :=
  ⟨40022, 400, "invalid request: signup not enabled",
    "https://ntfy.sh/docs/config"⟩

def errHTTPBadRequestIncorrectPasswordConfirmation : ErrHTTP :=
  ⟨40026, 400, "invalid request: password confirmation is not correct", ""⟩

def errHTTPBadRequestTierInvalid : ErrHTTP :=
  ⟨40030, 400, "invalid request: tier does not exist", ""⟩

def errHTTPBadRequestInvalidUsername : ErrHTTP :=
  ⟨40046, 400, "invalid request: invalid username", ""⟩

def errHTTPBadRequestInviteNotFound : ErrHTTP :=
  ⟨40050, 400, "invalid request: invite not found", ""⟩

def errHTTPBadRequestInviteExpired : ErrHTTP :=
  ⟨40051, 400, "invalid request: invite has expired", ""⟩

def errHTTPBadRequestInviteMaxUsed : ErrHTTP :=
  ⟨40052, 400, "invalid request: invite has reached maximum uses", ""⟩

def errHTTPBadRequestInviteInvalid : ErrHTTP :=
  ⟨40053, 400, "invalid request: invite token is invalid", ""⟩

def errHTTPConflictUserExists : ErrHTTP :=
  ⟨40901, 409, "conflict: user already exists", ""⟩

def errHTTPConflictProvisionedUserChange : ErrHTTP :=
  ⟨40905, 409, "conflict: cannot change or delete provisioned user", ""⟩

def errHTTPTooManyRequestsLimitAccountCreation : ErrHTTP :=
  ⟨42906, 429, "limit reached: too many accounts created",
    "https://ntfy.sh/docs/publish/#limitations"⟩

def errHTTPEntityTooLargeAttachment : ErrHTTP :=
  ⟨41301, 413, "attachment too large, or bandwidth limit reached",
    "https://ntfy.sh/docs/publish/#limitations"⟩

def errHTTPEntityTooLargeJSONBody : ErrHTTP :=
  ⟨41303, 413, "JSON body too large", ""⟩

def errHTTPTooManyRequestsLimitRequests : ErrHTTP :=
  ⟨42901, 429, "limit reached: too many requests",
    "https://ntfy.sh/docs/publish/#limitations"⟩

def errHTTPTooManyRequestsLimitSubscriptions : ErrHTTP :=
  ⟨42903, 429, "limit reached: too many active subscriptions",
    "https://ntfy.sh/docs/publish/#limitations"⟩

def errHTTPBadRequestWebSocketsUpgradeHeaderMissing : ErrHTTP :=
  ⟨40016, 400, "invalid request: client not using the websocket protocol",
    "https://ntfy.sh/docs/subscribe/api/#websockets"⟩

def errHTTPTooManyRequestsLimitEmails : ErrHTTP :=
  ⟨42902, 429, "limit reached: too many emails",
    "https://ntfy.sh/docs/publish/#limitations"⟩

def errHTTPBadRequestSinceInvalid : ErrHTTP :=
  ⟨40008, 400, "invalid since parameter",
    "https://ntfy.sh/docs/subscribe/api/#fetch-cached-messages"⟩

def errHTTPTooManyRequests : ErrHTTP :=
  ⟨42900, 429, "too many requests", ""⟩

def errHTTPTooManyRequestsLimitMessages : ErrHTTP :=
  ⟨42908, 429, "limit reached: daily message quota reached",
    "https://ntfy.sh/docs/publish/#limitations"⟩

def errHTTPTooManyRequestsLimitCalls : ErrHTTP :=
  ⟨42910, 429, "limit reached: daily phone call quota reached",
    "https://ntfy.sh/docs/publish/#limitations"⟩

def errHTTPBadRequestWebPushSubscriptionInvalid : ErrHTTP :=
  ⟨40038, 400, "invalid request: web push payload malformed", ""⟩

def errHTTPBadRequestWebPushEndpointUnknown : ErrHTTP :=
  ⟨40039, 400, "invalid request: web push endpoint unknown", ""⟩

def errHTTPBadRequestWebPushTopicCountTooHigh : ErrHTTP :=
  ⟨40040, 400, "invalid request: too many web push topic subscriptions", ""⟩

def errHTTPInsufficientStorageUnifiedPush : ErrHTTP :=
  ⟨50701, 507, "cannot publish to UnifiedPush topic without previously " ++
    "active subscriber",
    ""⟩

end Server
end CoopMessenger
