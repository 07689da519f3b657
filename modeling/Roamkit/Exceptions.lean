import Roamkit.Lib.Decimal

/-!
# Exceptions

What a call may raise: the exceptions of the billing application, with the data
their messages are made of, and those of the database and of Python that pass
through it.
-/

namespace Roamkit

open Lib

/-- An amount as a caller gives it: `Decimal | int | str`. -/
inductive RawAmount where
  | decimal (d : PyDecimal)
  | int (n : Int)
  | str (s : String)
deriving DecidableEq

/-- Why an amount is no positive `Decimal(20, 6)`. -/
inductive InvalidAmount where
  | unreadable (amount : RawAmount)
  | notFinite
  | notPositive
  | outOfRange
deriving DecidableEq

inductive GoogleAuthErrorCode where
  | invalidToken
  | emailNotVerified
  | accountDisabled
  | subConflict
  | featureDisabled
  | verifyUnavailable
deriving DecidableEq

inductive Exc where
  /-- `CreditServiceError` -/
  | creditService (message : String)
  /-- `InsufficientFundsError`, in millionths. -/
  | insufficientFunds (accountBalance amountRequired : Int)
  /-- `InvalidAmountError` -/
  | invalidAmount (reason : InvalidAmount)
  /-- `InvalidReferenceTypeError` -/
  | invalidReferenceType (value : String)
  /-- `BillingDisabledError` -/
  | billingDisabled (message : String)
  /-- `DepositVerificationError` -/
  | depositVerification (message : String)
  /-- `DuplicateTransactionError` -/
  | duplicateTransaction (message : String)
  /-- `InsufficientConfirmationsError` -/
  | insufficientConfirmations (confirmations required : Int)
  /-- `DepositVerificationFailedError` -/
  | depositVerificationFailed (reason : String)
  /-- `AmountMismatchError`; the requested amount in millionths. -/
  | amountMismatch (onChain : PyDecimal) (requested : Int)
  /-- `BlockchainProviderError` -/
  | blockchainProvider (message : String)
  /-- `BlockchainRPCError` -/
  | blockchainRpc (message : String)
  /-- `TransferNotFoundError` -/
  | transferNotFound (message : String)
  /-- `SpendInProgressError` -/
  | spendInProgress (message : String)
  /-- `IdempotencyKeyRequiredError` -/
  | idempotencyKeyRequired (message : String)
  /-- `ProviderFulfillmentError` -/
  | providerFulfillment (message : String)
  /-- `TopupPackageNotFoundError` -/
  | topupPackageNotFound (message : String)
  /-- `EsimOwnershipChanged` -/
  | esimOwnershipChanged (message : String)
  /-- `EsimTransferInProgressError` -/
  | esimTransfer (message : String)
  /-- `InvalidLifecycleTransitionError` -/
  | invalidLifecycleTransition (current target : String)
  /-- `UnknownLifecycleEventTypeError` -/
  | unknownLifecycleEventType (eventType : String)
  /-- `WalletSeedNotConfiguredError` -/
  | walletSeedNotConfigured (message : String)
  /-- `WalletAllocationError` -/
  | walletAllocation (message : String)
  /-- `ObservationAttributionError` -/
  | observationAttribution (message : String)
  /-- `ObservationTransitionError` -/
  | observationTransition (message : String)
  /-- `SubscriptionsDisabledError` -/
  | subscriptionsDisabled (message : String)
  /-- `VouchersDisabledError` -/
  | vouchersDisabled (detail : String)
  /-- `VoucherInvalidError` -/
  | voucherInvalid (detail : String)
  /-- `VoucherExpiredError` -/
  | voucherExpired (detail : String)
  /-- `VoucherRevokedError` -/
  | voucherRevoked (detail : String)
  /-- `VoucherReservedError` -/
  | voucherReserved (detail : String)
  /-- `VoucherLimitError` -/
  | voucherLimit (detail : String)
  /-- `UnsupportedRewardType` -/
  | unsupportedRewardType (detail : String)
  /-- `VoucherAdminConflictError` -/
  | voucherAdminConflict (detail : String)
  /-- `VoucherAdminValidationError` -/
  | voucherAdminValidation (detail : String)
  /-- `VoucherBatchBusyError` -/
  | voucherBatchBusy (detail : String)
  /-- `NotAllowedError` -/
  | notAllowed (message : String)
  /-- `InviteConflictError` -/
  | inviteConflict (message : String)
  /-- `InviteInvalidError` -/
  | inviteInvalid (message : String)
  /-- `LastOwnerError` -/
  | lastOwner (message : String)
  /-- `DeviceBindingConflictError` -/
  | deviceBindingConflict (message : String)
  /-- `DeviceBindingNotFoundError` -/
  | deviceBindingNotFound (message : String)
  /-- `BlackberryUemClientError` -/
  | blackberryUemClient (message : String)
  /-- `UemSerialMatchError` -/
  | uemSerialMatch (message : String)
  /-- `DeviceNotFoundError` -/
  | deviceNotFound (message : String)
  /-- `DeviceAmbiguousError` -/
  | deviceAmbiguous (message : String)
  /-- `IccidNotFoundError` -/
  | iccidNotFound (message : String)
  /-- `IccidAmbiguousError` -/
  | iccidAmbiguous (message : String)
  /-- `UemInventoryUnavailableError` -/
  | uemInventoryUnavailable (message : String)
  /-- `FleetCredentialConflictError` -/
  | fleetCredentialConflict (message : String)
  /-- `FleetCredentialInvalidError` -/
  | fleetCredentialInvalid (message : String)
  /-- `EsimTransferDestinationError` -/
  | esimTransferDestination (message : String)
  /-- `GoogleAuthError` -/
  | googleAuth (code : GoogleAuthErrorCode)
  /-- `NotFound` -/
  | notFound (detail : String)
  /-- `PermissionDenied` -/
  | permissionDenied (detail : String)
  /-- `PartnerSelfReferralConflict` -/
  | partnerSelfReferral (message : String)
  /-- `CustomerAttributionExists` -/
  | customerAttributionExists (message : String)
  /-- `PartnerGrantError` -/
  | partnerGrant (message : String)
  /-- `PartnerChannelDisabled` -/
  | partnerChannelDisabled (message : String)
  /-- `PartnerGrantForbidden` -/
  | partnerGrantForbidden (message : String)
  /-- `CustomerNotAttributed` -/
  | customerNotAttributed (message : String)
  /-- `CustomerAttributionChanged` -/
  | customerAttributionChanged (message : String)
  /-- `PartnerGrantIdempotencyConflict` -/
  | partnerGrantIdempotencyConflict (message : String)
  /-- `PartnerGrantNegativeBalance` -/
  | partnerGrantNegativeBalance (message : String)
  /-- `PartnerGrantSameAccount` -/
  | partnerGrantSameAccount (message : String)
  /-- `PartnerInviteError` -/
  | partnerInvite (message : String)
  /-- `AiraloClientError` -/
  | airaloClient (message : String)
  /-- `PartnerSettlementAccountMissing`, `PartnerChannelOwnershipInvalid` -/
  | partnerSettlement (message : String)
  /-- `PartnerAccessDenied` -/
  | partnerAccessDenied (message : String)
  /-- `SignupCodeError` -/
  | signupCode (message : String)
  /-- `ActivationError` -/
  | activation (message code : String) (field : Option String)
  /-- `PasswordResetError` -/
  | passwordReset (message code : String) (field : Option String)
  /-- `WalletAddressNotFoundError` -/
  | walletAddressNotFound (message : String)
  /-- `AppendOnlyViolation` -/
  | appendOnlyViolation (message : String)
  /-- `SoftDeleteViolation` -/
  | softDeleteViolation (message : String)
  /-- `HardDeleteViolation` -/
  | hardDeleteViolation (message : String)
  /-- `django.db.models.ProtectedError` -/
  | protectedRows (model : String)
  /-- A model's `DoesNotExist`. -/
  | doesNotExist (model : String)
  /-- `django.core.exceptions.FieldDoesNotExist` -/
  | fieldDoesNotExist (model field : String)
  /-- `django.db.IntegrityError` -/
  | integrity
  /-- `django.db.DataError`: a value does not fit its column. -/
  | data
  /-- `django.db.DatabaseError`: a forced update changed no row. -/
  | noRowUpdated
  /-- `django.db.ProgrammingError`: an update sets one column twice. -/
  | programming
  /-- The database connection or the process is gone. -/
  | operational
  /-- A query in a transaction an error has broken. -/
  | transactionManagement
  /-- `django.core.exceptions.ValidationError` -/
  | validation
  /-- `decimal.InvalidOperation` -/
  | invalidOperation
  /-- `decimal.Overflow` -/
  | decimalOverflow
  | valueError
  | typeError
  | attributeError
  | overflowError
  | keyError
  /-- The HTTP connection broke off, or its bytes are no text. -/
  | transport
deriving DecidableEq

/-- The message of `AmountMismatchError`, which is also the reason on the row. -/
def amountMismatchMessage (onChain : PyDecimal) (requested : Int) : String :=
  "Amount mismatch: on-chain " ++ onChain.str ++ " != requested " ++ Dec.fixed 6 requested

/-- What returns has returned from each of its parts. -/
theorem bind_ok {ε α β : Type} {x : Except ε α} {f : α → Except ε β} {b : β}
    (h : (x >>= f) = .ok b) : ∃ a, x = .ok a ∧ f a = .ok b := by
  cases x with
  | error e => cases h
  | ok a => exact ⟨a, rfl, h⟩

/-- What raises has raised in one of its parts. -/
theorem bind_error {ε α β : Type} {x : Except ε α} {f : α → Except ε β} {e : ε}
    (h : (x >>= f) = .error e) : x = .error e ∨ ∃ a, x = .ok a ∧ f a = .error e := by
  cases x with
  | error e' =>
    cases h
    exact .inl rfl
  | ok a => exact .inr ⟨a, rfl, h⟩

/-- What returns a value made from another has returned that one. -/
theorem map_ok {ε α β : Type} {f : α → β} {x : Except ε α} {b : β} (h : f <$> x = .ok b) :
    ∃ a, x = .ok a ∧ f a = b := by
  cases x with
  | error e => cases h
  | ok a =>
    cases h
    exact ⟨a, rfl, rfl⟩

/-- Every element of a list that is mapped without raising has its image. -/
theorem mapM_image {ε α β : Type} {f : α → Except ε β} {xs : List α} {ys : List β}
    (h : xs.mapM f = .ok ys) {x : α} (hx : x ∈ xs) : ∃ y ∈ ys, f x = .ok y := by
  induction xs generalizing ys with
  | nil => cases hx
  | cons x' xs ih =>
    rw [List.mapM_cons] at h
    obtain ⟨z, hz, h⟩ := bind_ok h
    obtain ⟨zs, hzs, h⟩ := bind_ok h
    cases h
    rcases List.mem_cons.1 hx with rfl | hx
    · exact ⟨z, List.mem_cons_self, hz⟩
    · obtain ⟨y, hy, hf⟩ := ih hzs hx
      exact ⟨y, List.mem_cons_of_mem _ hy, hf⟩

/-- What is mapped over a list without raising is an element's image. -/
theorem mem_of_mapM {ε α β : Type} {f : α → Except ε β} {xs : List α} {ys : List β} {y : β}
    (h : xs.mapM f = .ok ys) (hy : y ∈ ys) : ∃ x ∈ xs, f x = .ok y := by
  induction xs generalizing ys with
  | nil =>
    rw [List.mapM_nil] at h
    cases h
    cases hy
  | cons x xs ih =>
    rw [List.mapM_cons] at h
    obtain ⟨z, hz, h⟩ := bind_ok h
    obtain ⟨zs, hzs, h⟩ := bind_ok h
    cases h
    rcases List.mem_cons.1 hy with rfl | hy
    · exact ⟨x, List.mem_cons_self .., hz⟩
    · obtain ⟨x', hx', hf⟩ := ih hzs hy
      exact ⟨x', List.mem_cons_of_mem _ hx', hf⟩

theorem mapM_length {ε α β : Type} {f : α → Except ε β} {xs : List α} {ys : List β}
    (h : xs.mapM f = .ok ys) : ys.length = xs.length := by
  induction xs generalizing ys with
  | nil =>
    rw [List.mapM_nil] at h
    cases h
    rfl
  | cons x xs ih =>
    rw [List.mapM_cons] at h
    obtain ⟨z, hz, h⟩ := bind_ok h
    obtain ⟨zs, hzs, h⟩ := bind_ok h
    cases h
    rw [List.length_cons, List.length_cons, ih hzs]

/-- What is read off the images is read off the elements. -/
theorem map_of_mapM {ε α β γ : Type} {f : α → Except ε β} {g : β → γ} {g' : α → γ}
    (hf : ∀ x y, f x = .ok y → g y = g' x) {xs : List α} {ys : List β} (h : xs.mapM f = .ok ys) :
    ys.map g = xs.map g' := by
  induction xs generalizing ys with
  | nil =>
    rw [List.mapM_nil] at h
    cases h
    rfl
  | cons x xs ih =>
    rw [List.mapM_cons] at h
    obtain ⟨y, hy, h⟩ := bind_ok h
    obtain ⟨zs, hzs, h⟩ := bind_ok h
    cases h
    rw [List.map_cons, List.map_cons, hf x y hy, ih hzs]

end Roamkit
