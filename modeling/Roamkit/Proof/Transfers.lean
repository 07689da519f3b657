import Roamkit.Lib.Rounding
import Roamkit.Lib.Singles
import Roamkit.Polygon.Provider

/-!
# What fetching a transfer comes to

The errors of the provider are a family of three. What Python raises of its own, of a text
that is no number, of logs or topics that are no list, of a number too large for a decimal
or too long to be written, is none of them, and nothing translates it. So the family is all
there is exactly when the node answers nothing of that kind where it is looked at.
-/

namespace Roamkit.Polygon.Proof

open Lib Billing Wallet

variable {p : PolygonProvider} {w : Json.Writer} {rpc : RpcAnswers} {txHash expectedTo : String}
  {toAddress : Option String}

/-! ## What is asked for -/

/-- `BlockchainProviderError` and what is derived from it. -/
def IsProviderError : Exc → Prop
  | .blockchainProvider _ | .blockchainRpc _ | .transferNotFound _ => True
  | _ => False

/-- A field that is not missing is a number. -/
def Legible (w : Json.Writer) (j : Json) : Prop := j = .null ∨ ∃ n, hexToInt w j = .ok n

/-- The logs of a receipt. -/
def LogsOf (receipt : Json) (logs : List Json) : Prop :=
  iterate ((receipt.get "logs").orElse (.list [])) = .ok logs

/-- The log is written by the token contract. -/
def OfToken (p : PolygonProvider) (w : Json.Writer) (log : Json) : Prop :=
  log.isDict = true ∧ ∃ address, ((log.get "address").orElse (.str "")).toStr w = some address
    ∧ normalizeEvmAddress address = p.usdtContract

/-- The log is a transfer of the token to the address. -/
def IsUsdtTransfer (p : PolygonProvider) (w : Json.Writer) (expectedTo : String)
    (log : Json) : Prop :=
  OfToken p w log ∧ ∃ topic sender recipient more name address,
    log.get "topics" = .list (topic :: sender :: recipient :: more)
      ∧ topic.toStr w = some name ∧ PyText.lower name = erc20TransferTopic
      ∧ recipient.toStr w = some address ∧ topicToAddress address = expectedTo

/-- The number that the log carries. -/
def HasValue (w : Json.Writer) (log : Json) (raw : Int) : Prop :=
  ∃ data, ((log.get "data").orElse (.str "0x0")).toStr w = some data
    ∧ hexToInt w (.str data) = .ok raw

/-- The log of a transfer, decoded: its number counts millionths. -/
structure Decodes (w : Json.Writer) (expectedTo : String) (log : Json)
    (found : MatchedLog) : Prop where
  matched : found.log = log
  recipient : found.toAddress = expectedTo
  amount : ∃ raw, HasValue w log raw ∧ found.amount = .finite (Dec.ofUnits 6 raw)
  sender : ∃ topic sender more address, log.get "topics" = .list (topic :: sender :: more)
    ∧ sender.toStr w = some address ∧ found.fromAddress = topicToAddress address

/-- The transaction is asked for on the chain that was meant. -/
def Asked (p : PolygonProvider) (w : Json.Writer) (rpc : RpcAnswers) (txHash : String)
    (toAddress : Option String) :
    Prop :=
  (∃ normalizedHash, fetchedTxHash txHash = .ok normalizedHash)
    ∧ (∃ remoteHex, rpc.chainId = .ok remoteHex ∧ hexToInt w remoteHex.1 = .ok p.chainId)
    ∧ expectedAddress p toAddress ≠ "0x"

/-- The node has a receipt. -/
def HasReceipt (rpc : RpcAnswers) (receipt : Loaded) : Prop :=
  rpc.receipt = .ok receipt ∧ receipt.1.isDict = true

/-- The result says what the receipt says of its first transfer to the address. -/
structure Describes (p : PolygonProvider) (w : Json.Writer) (rpc : RpcAnswers) (txHash : String)
    (toAddress : Option String) (receipt headHex : Loaded) (found : MatchedLog)
    (t : UsdtTransfer) : Prop where
  asked : Asked p w rpc txHash toAddress
  hash : fetchedTxHash txHash = .ok t.txHash
  answered : HasReceipt rpc receipt
  head : rpc.blockNumber = .ok headHex
  block : hexToInt w (receipt.1.get "blockNumber") = .ok t.blockNumber
  confirmations : ∃ headBlock, hexToInt w headHex.1 = .ok headBlock
    ∧ t.confirmations = if t.blockNumber ≤ headBlock then headBlock - t.blockNumber + 1 else 0
  first : ∃ logs log, LogsOf receipt.1 logs ∧ IsFirst logs (IsUsdtTransfer p w
    (expectedAddress p toAddress)) log
    ∧ Decodes w (expectedAddress p toAddress) log found
  status : receiptStatus w (receipt.1.get "status") = .ok t.status
  transfer : t.fromAddress = found.fromAddress ∧ t.toAddress = found.toAddress
    ∧ t.amount = found.amount
    ∧ t.tokenContract = p.usdtContract
  response : t.rawRpcResponse = .dict
    [("tx_hash", .str t.txHash), ("receipt", receipt.1), ("block_number", headHex.1),
      ("chain_id", .int p.chainId),
      ("matched_log", found.log), ("expected_to", .str (expectedAddress p toAddress))]

/-- A transfer is fetched where there is one, and otherwise an error of the family is raised. -/
structure FetchesWell (p : PolygonProvider) (w : Json.Writer) (rpc : RpcAnswers) (txHash : String)
    (toAddress : Option String) : Prop where
  found : ∀ t, fetchUsdtTransfer p w rpc txHash toAddress = .ok t
    ↔ ∃ receipt headHex found, Describes p w rpc txHash toAddress receipt headHex found t
  raised : RaisesOnly IsProviderError (fetchUsdtTransfer p w rpc txHash toAddress)

/-! ## What Python stumbles over -/

/-- The topics of a log of the token are a list, or a text, or an object that is too small. -/
def Sized (p : PolygonProvider) (w : Json.Writer) (log : Json) : Prop :=
  OfToken p w log → ∃ topics, firstTopics ((log.get "topics").orElse (.list [])) = .ok topics

/-- Up to the first transfer the topics of the logs can be counted, and the number of the transfer
is one that a decimal of millionths holds. -/
def LegibleLogs (p : PolygonProvider) (w : Json.Writer) (expectedTo : String) : List Json → Prop
  | [] => True
  | log :: logs => Sized p w log
      ∧ (IsUsdtTransfer p w expectedTo log
        → ∃ raw, HasValue w log raw ∧ raw.natAbs < 10 ^ precision)
      ∧ (¬ IsUsdtTransfer p w expectedTo log → LegibleLogs p w expectedTo logs)

/-- The receipt can be read as far as it is. -/
def LegibleReceipt (p : PolygonProvider) (w : Json.Writer) (expectedTo : String)
    (receipt headHex : Json) : Prop :=
  Legible w headHex ∧ (headHex ≠ .null → Legible w (receipt.get "blockNumber")
    ∧ (receipt.get "blockNumber" ≠ .null
      → ∃ logs, LogsOf receipt logs ∧ LegibleLogs p w expectedTo logs
      ∧ ((∃ log ∈ logs, IsUsdtTransfer p w expectedTo log) → Legible w (receipt.get "status"))))

/-- Nothing is answered that Python raises an error of its own for. -/
structure Clean (p : PolygonProvider) (w : Json.Writer) (rpc : RpcAnswers) (txHash : String)
    (toAddress : Option String) : Prop where
  chain : (∃ normalizedHash, fetchedTxHash txHash = .ok normalizedHash)
    → RaisesOnly IsProviderError rpc.chainId
    ∧ ∀ remoteHex, rpc.chainId = .ok remoteHex → Legible w remoteHex.1
      ∧ ∀ n, hexToInt w remoteHex.1 = .ok n → n ≠ p.chainId →
        (∃ s, writtenAs remoteHex.1 n = .ok s) ∧ ∃ s, written p.chainId = .ok s
  receipt : Asked p w rpc txHash toAddress → RaisesOnly IsProviderError rpc.receipt
  head : Asked p w rpc txHash toAddress → ∀ receipt, HasReceipt rpc receipt
    → RaisesOnly IsProviderError rpc.blockNumber
    ∧ ∀ headHex, rpc.blockNumber = .ok headHex →
      LegibleReceipt p w (expectedAddress p toAddress) receipt.1 headHex.1

/-! ## Numbers -/

variable {j log recipient sender topic : Json} {n raw : Int} {data : String} {r : Option MatchedLog}
  {logs : List Json} {found : MatchedLog} {t : UsdtTransfer}

theorem text_ok {s : String} : text w j = .ok s ↔ j.toStr w = some s := by
  unfold text
  cases j.toStr w with
  | none => exact iff_of_false (fun hc => nomatch hc) fun hc => nomatch hc
  | some s' => rw [Except.ok.injEq, Option.some.injEq]

theorem text_total (h : j.Writable) : ∃ s, j.toStr w = some s ∧ text w j = .ok s := by
  obtain ⟨s, hs⟩ := h.toStr w
  exact ⟨s, hs, text_ok.2 hs⟩

/-- What is no number and not missing is a `ValueError`. -/
theorem hexToInt_error {e : Exc} (h : hexToInt w j = .error e) :
    (j = .null ∧ IsProviderError e) ∨ (j ≠ .null ∧ e = .valueError) := by
  unfold hexToInt at h
  split at h
  · cases h
    exact .inl ⟨rfl, trivial⟩
  · cases h
  · cases h
  · rename_i hnull _ _
    refine .inr ⟨hnull, ?_⟩
    rcases bind_error h with htext | ⟨s, -, hread⟩
    · unfold text at htext
      split at htext
      · cases htext
      · cases htext
        rfl
    · split at hread
      · cases hread
      · cases hread
        rfl

theorem hexToInt_raises : RaisesOnly IsProviderError (hexToInt w j) ↔ Legible w j := by
  cases hn : hexToInt w j with
  | ok n => exact iff_of_true raisesOnly_ok (.inr ⟨n, hn⟩)
  | error e =>
    rw [raisesOnly_error]
    rcases hexToInt_error hn with ⟨hnull, he⟩ | ⟨hne, rfl⟩
    · exact iff_of_true he (.inl hnull)
    · refine iff_of_false id ?_
      rintro (hc | ⟨n, hc⟩)
      · exact hne hc
      · rw [hn] at hc
        cases hc

/-- A number that is read is not missing. -/
theorem ne_null_of_reads (h : hexToInt w j = .ok n) : j ≠ .null := by
  rintro rfl
  cases h

theorem receiptStatus_raises : RaisesOnly IsProviderError (receiptStatus w j) ↔ Legible w j := by
  by_cases hnull : j = .null
  · rw [hnull]
    exact iff_of_true raisesOnly_ok (.inl rfl)
  · have hrest : receiptStatus w j = hexToInt w j >>= fun status =>
        .ok (if status = 1 then "success" else if status = 0 then "reverted" else "unknown") := by
      unfold receiptStatus
      split
      · exact absurd rfl hnull
      · rfl
    rw [hrest, raisesOnly_bind, hexToInt_raises]
    exact and_iff_left fun _ _ => raisesOnly_ok

/-! ## Amounts -/

/-- A number of at most as many digits as a decimal keeps is counted in millionths as it stands. -/
theorem quantizeAmount_small (h : raw.natAbs < 10 ^ precision) :
    quantizeAmount (Dec.round ⟨raw, -6⟩) = .ok (.finite (Dec.ofUnits 6 raw)) := by
  have hdigits : (Nat.toDigits 10 raw.natAbs).length ≤ precision :=
    (Dec.digits_le_iff (by decide)).2 h
  have hround : Dec.round ⟨raw, -6⟩ = ⟨raw, -6⟩ := by
    unfold Dec.round
    dsimp only
    rw [if_pos hdigits]
  have hdown : quantizeDown 6 ⟨raw, -6⟩ = some raw := by
    have hunits : raw * 10 ^ ((-6 : Int) + (6 : Nat)).toNat = raw := by simp
    unfold quantizeDown
    dsimp only
    rw [if_pos (by omega : (0 : Int) ≤ -6 + (6 : Nat)), hunits, if_pos h]
  have hexponent : ¬ contextEmax < (-6 : Int) + (Nat.toDigits 10 raw.natAbs).length - 1 := by
    have hemax : contextEmax = 999999 := rfl
    have hprecision : precision = 28 := rfl
    omega
  unfold quantizeAmount
  rw [hround]
  dsimp only
  rw [if_neg hexponent, hdown]

/-- A larger one is more than a decimal holds, however it is rounded. -/
theorem quantizeAmount_large (h : 10 ^ precision ≤ raw.natAbs) :
    ∃ e, quantizeAmount (Dec.round ⟨raw, -6⟩) = .error e ∧ ¬ IsProviderError e := by
  have hlong : precision < Dec.digits raw.natAbs := by
    have hle := @Dec.digits_le_iff raw.natAbs precision (by decide)
    omega
  have hround : Dec.round ⟨raw, -6⟩
      = ⟨raw.sign * Dec.halfEven raw.natAbs (10 ^ Dec.dropped raw.natAbs),
        -6 + Dec.dropped raw.natAbs⟩ := by
    unfold Dec.round
    dsimp only
    rw [if_neg (by unfold Dec.digits at hlong; omega)]
    rfl
  have hpositive : 0 < raw.natAbs := (Nat.pow_pos (by omega)).trans_le h
  -- what is kept of it is no smaller than the power of ten of its first digit
  have hkeep : 10 ^ precision ≤ Dec.keep raw.natAbs := by
    have hfirst : 10 ^ (Dec.digits raw.natAbs - 1) ≤ raw.natAbs :=
      Dec.pow_le_of_lt_digits hpositive (by omega)
    have hdropped : Dec.dropped raw.natAbs ≤ Dec.digits raw.natAbs - 1 := by
      have hprecision : precision = 28 := rfl
      unfold Dec.dropped
      omega
    have hpow : 10 ^ precision ≤ 10 ^ (Dec.digits raw.natAbs - 1) :=
      Nat.pow_le_pow_right (by omega) (by omega)
    exact hpow.trans (Dec.le_keep hfirst (Nat.pow_dvd_pow 10 hdropped))
  have hsign : raw.sign.natAbs = 1 := Int.natAbs_sign_of_ne_zero (by omega)
  have hdown : quantizeDown 6 (Dec.round ⟨raw, -6⟩) = none := by
    have hexponent : (-6 : Int) + Dec.dropped raw.natAbs + (6 : Nat) = Dec.dropped raw.natAbs := by
      omega
    have hunits : (raw.sign * Dec.halfEven raw.natAbs (10 ^ Dec.dropped raw.natAbs)
        * 10 ^ Dec.dropped raw.natAbs).natAbs = Dec.keep raw.natAbs := by
      rw [Int.natAbs_mul, Int.natAbs_mul, hsign, Nat.one_mul, Int.natAbs_natCast, Int.natAbs_pow]
      rfl
    rw [hround]
    unfold quantizeDown
    dsimp only
    rw [hexponent, if_pos (Int.natCast_nonneg _), Int.toNat_natCast, hunits, if_neg (by omega)]
  unfold quantizeAmount
  split
  · exact ⟨_, rfl, id⟩
  · rw [hdown]
    exact ⟨_, rfl, id⟩

section Decimals

variable (hdecimals : p.tokenDecimals = 6)

include hdecimals

theorem amountFromData_eq (data : String) : amountFromData p w data
    = hexToInt w (.str data) >>= fun raw => quantizeAmount (Dec.round ⟨raw, -6⟩) := by
  have hscale : -(p.tokenDecimals : Int) = -6 := by rw [hdecimals]; rfl
  unfold amountFromData
  rw [hscale]

theorem amountFromData_raises : RaisesOnly IsProviderError (amountFromData p w data)
    ↔ ∃ raw, hexToInt w (.str data) = .ok raw ∧ raw.natAbs < 10 ^ precision := by
  rw [amountFromData_eq hdecimals, raisesOnly_bind, hexToInt_raises]
  constructor
  · rintro ⟨hnull | ⟨raw, hraw⟩, hrest⟩
    · cases hnull
    refine ⟨raw, hraw, Nat.lt_of_not_le fun hlarge => ?_⟩
    obtain ⟨e, herror, hfamily⟩ := quantizeAmount_large hlarge
    exact hfamily (hrest raw hraw e herror)
  · rintro ⟨raw, hraw, hsmall⟩
    refine ⟨.inr ⟨raw, hraw⟩, fun raw' hraw' => ?_⟩
    rw [hraw] at hraw'
    cases hraw'
    rw [quantizeAmount_small hsmall]
    exact raisesOnly_ok

theorem amountFromData_ok {amount : PyDecimal} (h : amountFromData p w data = .ok amount) :
    ∃ raw, hexToInt w (.str data) = .ok raw ∧ amount = .finite (Dec.ofUnits 6 raw) := by
  rw [amountFromData_eq hdecimals] at h
  obtain ⟨raw, hraw, hamount⟩ := bind_ok h
  refine ⟨raw, hraw, ?_⟩
  rcases Nat.lt_or_ge raw.natAbs (10 ^ precision) with hsmall | hlarge
  · rw [quantizeAmount_small hsmall] at hamount
    cases hamount
    rfl
  · obtain ⟨e, herror, -⟩ := quantizeAmount_large hlarge
    rw [herror] at hamount
    cases hamount

end Decimals

/-! ## Logs -/

theorem firstTopics_error {topics : Json} {e : Exc} (h : firstTopics topics = .error e) :
    ¬ IsProviderError e := by
  unfold firstTopics at h
  split at h
  · cases h
  · cases h
  · split at h
    · cases h
    · cases h
  · split at h
    · cases h
    · cases h
      exact id
  · cases h
    exact id

/-- Three topics are the first of a list, or three characters. -/
theorem firstTopics_some {topics a b c : Json} (h : firstTopics topics = .ok (some (a, b, c))) :
    (∃ more, topics = .list (a :: b :: c :: more))
      ∨ ∃ x y z : Char, a = .str (String.ofList [x]) ∧ b = .str (String.ofList [y])
        ∧ c = .str (String.ofList [z]) := by
  unfold firstTopics at h
  split at h
  · cases h
    exact .inl ⟨_, rfl⟩
  · cases h
  · split at h
    · cases h
      exact .inr ⟨_, _, _, rfl, rfl, rfl⟩
    · cases h
  · split at h
    · cases h
    · cases h
  · cases h

/-- A character is no name of an event. -/
theorem lower_char_ne (x : Char) : PyText.lower (String.ofList [x]) ≠ erc20TransferTopic := by
  intro h
  have hlength := congrArg (fun s : String => s.toList.length) h
  have hone : (PyText.lower (String.ofList [x])).toList.length = 1 := by
    unfold PyText.lower
    rw [String.toList_ofList, List.length_map, String.toList_ofList]
    rfl
  have hmany : erc20TransferTopic.toList.length = 66 := by decide
  omega

/-- The topics name a transfer to the address. -/
def Named (w : Json.Writer) (expectedTo : String) (topic recipient : Json) : Prop :=
  ∃ name address, topic.toStr w = some name ∧ PyText.lower name = erc20TransferTopic
    ∧ recipient.toStr w = some address ∧ topicToAddress address = expectedTo

/-- Whether a log of the token is a transfer is said by its first three topics. -/
theorem isUsdtTransfer_iff {topics : Option (Json × Json × Json)} (htoken : OfToken p w log)
    (htopics : firstTopics ((log.get "topics").orElse (.list [])) = .ok topics) :
    IsUsdtTransfer p w expectedTo log
      ↔ ∃ topic sender recipient, topics = some (topic, sender, recipient)
      ∧ Named w expectedTo topic recipient := by
  constructor
  · rintro ⟨-, topic, sender, recipient, more, name, address, hlist, hname⟩
    have hthree : (log.get "topics").orElse (.list [])
        = .list (topic :: sender :: recipient :: more) := by
      rw [hlist]
      rfl
    rw [hthree] at htopics
    cases htopics
    exact ⟨topic, sender, recipient, rfl, name, address, hname⟩
  · rintro ⟨topic, sender, recipient, rfl, name, address, hname⟩
    rcases firstTopics_some htopics with ⟨more, hlist⟩ | ⟨x, y, z, rfl, rfl, rfl⟩
    · refine ⟨htoken, topic, sender, recipient, more, name, address, ?_, hname⟩
      unfold Json.orElse at hlist
      split at hlist
      · exact hlist
      · cases hlist
    · -- a text in place of the list
      exfalso
      obtain ⟨hchar, hlower, -⟩ := hname
      cases hchar
      exact lower_char_ne x hlower

/-- What is written in a log can be written again. -/
theorem firstTopics_writable (h : log.Writable)
    (htopics : firstTopics ((log.get "topics").orElse (.list []))
      = .ok (some (topic, sender, recipient))) :
    topic.Writable ∧ sender.Writable ∧ recipient.Writable := by
  have hwritable : ((log.get "topics").orElse (.list [])).Writable :=
    (h.get "topics").orElse_of .nil
  rcases firstTopics_some htopics with ⟨more, hlist⟩ | ⟨x, y, z, rfl, rfl, rfl⟩
  · rw [hlist] at hwritable
    exact ⟨hwritable.item (by simp), hwritable.item (by simp), hwritable.item (by simp)⟩
  · exact ⟨.str _, .str _, .str _⟩

theorem matchTopics_skip (htopic : topic.Writable) (hrecipient : recipient.Writable)
    (h : ¬ Named w expectedTo topic recipient) :
    matchTopics p w expectedTo log (some (topic, sender, recipient)) = .ok none := by
  obtain ⟨name, hname, hnameOk⟩ := text_total (w := w) htopic
  obtain ⟨address, haddress, haddressOk⟩ := text_total (w := w) hrecipient
  unfold matchTopics
  dsimp only
  rw [hnameOk]
  by_cases hlower : PyText.lower name = erc20TransferTopic
  · have hother : topicToAddress address ≠ expectedTo :=
      fun hc => h ⟨name, address, hname, hlower, haddress, hc⟩
    simp [bind, Except.bind, hlower, haddressOk, hother]
  · simp [bind, Except.bind, hlower]

theorem matchTopics_named {source : String} (h : Named w expectedTo topic recipient)
    (hsender : text w sender = .ok source)
    (hdata : text w ((log.get "data").orElse (.str "0x0")) = .ok data) :
    matchTopics p w expectedTo log (some (topic, sender, recipient)) = amountFromData p w data
      >>= fun amount =>
      .ok (some ⟨topicToAddress source, expectedTo, amount, log⟩) := by
  obtain ⟨name, address, hname, hlower, haddress, hto⟩ := h
  unfold matchTopics
  dsimp only
  rw [text_ok.2 hname]
  simp [bind, Except.bind, hlower, text_ok.2 haddress, hto, hsender, hdata]

/-- A log that the contract has not written is passed over. -/
theorem matchLog_other (h : log.Writable) (hother : ¬ OfToken p w log) :
    matchLog p w expectedTo log = .ok none := by
  unfold matchLog
  by_cases hdict : log.isDict = true
  · obtain ⟨address, haddress, haddressOk⟩ := text_total (w := w) ((h.get "address").orElse "")
    have hne : normalizeEvmAddress address ≠ p.usdtContract :=
      fun hc => hother ⟨hdict, address, haddress, hc⟩
    rw [if_neg (not_not.2 hdict), haddressOk]
    simp [bind, Except.bind, hne]
  · rw [if_pos hdict]

theorem matchLog_token (h : OfToken p w log) : matchLog p w expectedTo log
    = firstTopics ((log.get "topics").orElse (.list [])) >>= matchTopics p w expectedTo log := by
  obtain ⟨hdict, address, haddress, hcontract⟩ := h
  unfold matchLog
  rw [if_neg (not_not.2 hdict), text_ok.2 haddress]
  simp [bind, Except.bind, hcontract]

/-- A log that is no transfer to the address is passed over, when its topics have a size. -/
theorem matchLog_skip (hwritable : log.Writable) (hsized : Sized p w log)
    (h : ¬ IsUsdtTransfer p w expectedTo log) : matchLog p w expectedTo log = .ok none := by
  by_cases htoken : OfToken p w log
  · obtain ⟨topics, htopics⟩ := hsized htoken
    rw [matchLog_token htoken, htopics]
    cases topics with
    | none => rfl
    | some triple =>
      obtain ⟨topic, sender, recipient⟩ := triple
      obtain ⟨htopic, -, hrecipient⟩ := firstTopics_writable hwritable htopics
      refine matchTopics_skip htopic hrecipient fun hnamed => h ?_
      exact (isUsdtTransfer_iff htoken htopics).2 ⟨topic, sender, recipient, rfl, hnamed⟩
  · exact matchLog_other hwritable htoken

/-- Topics without a size end the loop. -/
theorem matchLog_unsized (h : ¬ Sized p w log) :
    ∃ e, matchLog p w expectedTo log = .error e ∧ ¬ IsProviderError e := by
  unfold Sized at h
  rw [Classical.not_imp] at h
  obtain ⟨htoken, hnone⟩ := h
  cases htopics : firstTopics ((log.get "topics").orElse (.list [])) with
  | ok topics => exact absurd ⟨topics, htopics⟩ hnone
  | error e =>
    refine ⟨e, ?_, firstTopics_error htopics⟩
    rw [matchLog_token htoken, htopics]
    rfl

/-- The log of a transfer comes to its amount. -/
theorem matchLog_transfer (hwritable : log.Writable) (h : IsUsdtTransfer p w expectedTo log) :
    ∃ topic sender more source data, log.get "topics" = .list (topic :: sender :: more)
      ∧ sender.toStr w = some source ∧ ((log.get "data").orElse (.str "0x0")).toStr w = some data
      ∧ matchLog p w expectedTo log = amountFromData p w data >>= fun amount =>
        .ok (some ⟨topicToAddress source, expectedTo, amount, log⟩) := by
  obtain ⟨htoken, topic, sender, recipient, more, name, address, hlist, hname⟩ := h
  have htopics : firstTopics ((log.get "topics").orElse (.list []))
      = .ok (some (topic, sender, recipient)) := by
    rw [hlist]
    rfl
  obtain ⟨-, hsender, -⟩ := firstTopics_writable hwritable htopics
  obtain ⟨source, hsource, hsourceOk⟩ := text_total (w := w) hsender
  obtain ⟨data, hdata, hdataOk⟩ := text_total (w := w) ((hwritable.get "data").orElse "0x0")
  refine ⟨topic, sender, recipient :: more, source, data, hlist, hsource, hdata, ?_⟩
  rw [matchLog_token htoken, htopics]
  exact matchTopics_named ⟨name, address, hname⟩ hsourceOk hdataOk

/-! ## The loop -/

section Loop

variable (hdecimals : p.tokenDecimals = 6)

include hdecimals

theorem matchLog_raises (hwritable : log.Writable) (h : IsUsdtTransfer p w expectedTo log) :
    RaisesOnly IsProviderError (matchLog p w expectedTo log)
      ↔ ∃ raw, HasValue w log raw ∧ raw.natAbs < 10 ^ precision := by
  obtain ⟨topic, sender, more, source, data, -, -, hdata, heq⟩ := matchLog_transfer hwritable h
  rw [heq, raisesOnly_bind, amountFromData_raises hdecimals, and_iff_left fun _ _ => raisesOnly_ok]
  constructor
  · rintro ⟨raw, hraw, hsmall⟩
    exact ⟨raw, ⟨data, hdata, hraw⟩, hsmall⟩
  · rintro ⟨raw, ⟨data', hdata', hraw⟩, hsmall⟩
    rw [hdata] at hdata'
    cases hdata'
    exact ⟨raw, hraw, hsmall⟩

theorem matchLog_ok (hwritable : log.Writable) (h : IsUsdtTransfer p w expectedTo log)
    (hok : matchLog p w expectedTo log = .ok r) :
    ∃ found, r = some found ∧ Decodes w expectedTo log found := by
  obtain ⟨topic, sender, more, source, data, htopics, hsource, hdata, heq⟩ :=
    matchLog_transfer hwritable h
  rw [heq] at hok
  obtain ⟨amount, hamount, hok⟩ := bind_ok hok
  cases hok
  obtain ⟨raw, hraw, hunits⟩ := amountFromData_ok hdecimals hamount
  exact ⟨_, rfl, rfl, rfl, ⟨raw, ⟨data, hdata, hraw⟩, hunits⟩, topic, sender, more, source, htopics,
    hsource, rfl⟩

/-- The amount of a transfer whose number is small enough. -/
theorem matchLog_total (hwritable : log.Writable) (h : IsUsdtTransfer p w expectedTo log)
    (hvalue : HasValue w log raw) (hsmall : raw.natAbs < 10 ^ precision) :
    ∃ found, matchLog p w expectedTo log = .ok (some found) := by
  obtain ⟨topic, sender, more, source, data, -, -, hdata, heq⟩ := matchLog_transfer hwritable h
  obtain ⟨data', hdata', hraw⟩ := hvalue
  rw [hdata] at hdata'
  cases hdata'
  rw [heq, amountFromData_eq hdecimals, hraw]
  show ∃ found, (quantizeAmount (Dec.round ⟨raw, -6⟩) >>= _) = _
  rw [quantizeAmount_small hsmall]
  exact ⟨_, rfl⟩

theorem find_total (hwritable : ∀ log ∈ logs, log.Writable) (h : LegibleLogs p w expectedTo logs) :
    ∃ r, findUsdtTransferLog p w expectedTo logs = .ok r := by
  induction logs with
  | nil => exact ⟨none, rfl⟩
  | cons log logs ih =>
    have hlog := hwritable log List.mem_cons_self
    obtain ⟨hsized, hvalue, hrest⟩ := h
    unfold findUsdtTransferLog
    by_cases htransfer : IsUsdtTransfer p w expectedTo log
    · obtain ⟨raw, hraw, hsmall⟩ := hvalue htransfer
      obtain ⟨found, hfound⟩ := matchLog_total hdecimals hlog htransfer hraw hsmall
      rw [hfound]
      exact ⟨some found, rfl⟩
    · rw [matchLog_skip hlog hsized htransfer]
      exact ih (fun l hl => hwritable l (List.mem_cons_of_mem _ hl)) (hrest htransfer)

theorem find_raises (hwritable : ∀ log ∈ logs, log.Writable) :
    RaisesOnly IsProviderError (findUsdtTransferLog p w expectedTo logs)
      ↔ LegibleLogs p w expectedTo logs := by
  refine ⟨fun h => ?_, fun h => ?_⟩
  · induction logs with
    | nil => trivial
    | cons log logs ih =>
      have hlog := hwritable log List.mem_cons_self
      unfold findUsdtTransferLog at h
      by_cases hsized : Sized p w log
      · refine ⟨hsized, fun htransfer => ?_, fun htransfer => ?_⟩
        · exact (matchLog_raises hdecimals hlog htransfer).1 (raisesOnly_bind.1 h).1
        · rw [matchLog_skip hlog hsized htransfer] at h
          exact ih (fun l hl => hwritable l (List.mem_cons_of_mem _ hl)) h
      · -- its topics have no size, and Python says so
        obtain ⟨e, herror, hfamily⟩ :
            ∃ e, matchLog p w expectedTo log = .error e ∧ ¬ IsProviderError e :=
          matchLog_unsized hsized
        exact absurd ((raisesOnly_bind.1 h).1 e herror) hfamily
  · obtain ⟨r, hr⟩ := find_total hdecimals hwritable h
    rw [hr]
    exact raisesOnly_ok

/-- What the loop comes to is the first transfer to the address. -/
theorem find_ok (hwritable : ∀ log ∈ logs, log.Writable)
    (h : findUsdtTransferLog p w expectedTo logs = .ok r) :
    (r = none ∧ ∀ log ∈ logs, ¬ IsUsdtTransfer p w expectedTo log)
      ∨ ∃ found log, r = some found ∧ IsFirst logs (IsUsdtTransfer p w expectedTo) log
        ∧ Decodes w expectedTo log found := by
  induction logs with
  | nil =>
    cases h
    exact .inl ⟨rfl, fun log hlog => nomatch hlog⟩
  | cons log logs ih =>
    have hlog := hwritable log List.mem_cons_self
    have ih := ih fun l hl => hwritable l (List.mem_cons_of_mem _ hl)
    unfold findUsdtTransferLog at h
    by_cases htransfer : IsUsdtTransfer p w expectedTo log
    · obtain ⟨m, hm, h⟩ := bind_ok h
      obtain ⟨found, rfl, hdecodes⟩ := matchLog_ok hdecimals hlog htransfer hm
      cases h
      exact .inr ⟨found, log, rfl, ⟨[], logs, rfl, htransfer, fun l hl => nomatch hl⟩, hdecodes⟩
    · by_cases hsized : Sized p w log
      · rw [matchLog_skip hlog hsized htransfer] at h
        rcases ih h with ⟨hnone, hrest⟩
          | ⟨found, log', hsome, ⟨before, after, rfl, hfirst, hbefore⟩, hdecodes⟩
        · refine .inl ⟨hnone, ?_⟩
          rw [List.forall_mem_cons]
          exact ⟨htransfer, hrest⟩
        · refine .inr ⟨found, log', hsome, ⟨log :: before, after, rfl, hfirst, ?_⟩, hdecodes⟩
          rw [List.forall_mem_cons]
          exact ⟨htransfer, hbefore⟩
      · obtain ⟨e, herror, -⟩ : ∃ e, matchLog p w expectedTo log = .error e ∧ ¬ IsProviderError e :=
          matchLog_unsized hsized
        rw [herror] at h
        cases h

end Loop

/-- A log is decoded in one way. -/
theorem decodes_unique {found' : MatchedLog} (h : Decodes w expectedTo log found)
    (h' : Decodes w expectedTo log found') : found = found' := by
  obtain ⟨fromAddress, to_, amount, log₁⟩ := found
  obtain ⟨fromAddress', to', amount', log₂⟩ := found'
  obtain ⟨raw, ⟨data, hdata, hraw⟩, hamount⟩ := h.amount
  obtain ⟨raw', ⟨data', hdata', hraw'⟩, hamount'⟩ := h'.amount
  obtain ⟨topic, sender, more, address, htopics, haddress, hfrom⟩ := h.sender
  obtain ⟨topic', sender', more', address', htopics', haddress', hfrom'⟩ := h'.sender
  rw [hdata] at hdata'
  cases hdata'
  rw [hraw] at hraw'
  cases hraw'
  rw [htopics] at htopics'
  cases htopics'
  rw [haddress] at haddress'
  cases haddress'
  have hlog : log₁ = log₂ := h.matched.trans h'.matched.symm
  have hto : to_ = to' := h.recipient.trans h'.recipient.symm
  have hfromEq : fromAddress = fromAddress' := hfrom.trans hfrom'.symm
  have hamountEq : amount = amount' := hamount.trans hamount'.symm
  rw [hlog, hto, hfromEq, hamountEq]

/-! ## The receipt -/

theorem iterate_writable (h : j.Writable) {xs : List Json} (hxs : iterate j = .ok xs) :
    ∀ x ∈ xs, x.Writable := by
  intro x hx
  unfold iterate at hxs
  split at hxs
  · cases hxs
    exact h.item hx
  · cases hxs
    obtain ⟨c, -, rfl⟩ := List.mem_map.1 hx
    exact .str _
  · cases hxs
    obtain ⟨kv, -, rfl⟩ := List.mem_map.1 hx
    exact .str _
  · cases hxs

theorem iterate_raises : RaisesOnly IsProviderError (iterate j) ↔ ∃ xs, iterate j = .ok xs := by
  cases hxs : iterate j with
  | ok xs => exact iff_of_true raisesOnly_ok ⟨xs, rfl⟩
  | error e =>
    refine iff_of_false (fun h => ?_) fun ⟨xs, hc⟩ => nomatch hc
    have hfamily := raisesOnly_error.1 h
    unfold iterate at hxs
    split at hxs
    · cases hxs
    · cases hxs
    · cases hxs
    · cases hxs
      exact hfamily

theorem logs_writable {receipt : Json} (h : receipt.Writable) (hlogs : LogsOf receipt logs) :
    ∀ log ∈ logs, log.Writable :=
  iterate_writable ((h.get "logs").orElse_of .nil) hlogs

theorem checkMatched_raises {hash : String} :
    RaisesOnly IsProviderError (checkMatched hash r) := by
  cases r with
  | none => exact raisesOnly_error.2 trivial
  | some found => exact raisesOnly_ok

theorem checkMatched_ok {hash : String} :
    checkMatched hash r = .ok found ↔ r = some found := by
  cases r with
  | none => exact iff_of_false (fun hc => nomatch hc) fun hc => nomatch hc
  | some found' =>
    unfold checkMatched
    rw [Except.ok.injEq, Option.some.injEq]

/-- The count that the code writes with a maximum. -/
theorem confirmationsOf_eq (head block : Int) :
    confirmationsOf head block = if block ≤ head then head - block + 1 else 0 := by
  unfold confirmationsOf
  split
  · omega
  · omega

section Receipt

variable (hdecimals : p.tokenDecimals = 6) {receipt headHex : Json} {hash : String}

include hdecimals

theorem findTransfer_raises (hwritable : receipt.Writable) :
    RaisesOnly IsProviderError (findTransfer p w hash expectedTo receipt)
      ↔ ∃ logs, LogsOf receipt logs ∧ LegibleLogs p w expectedTo logs := by
  unfold findTransfer
  rw [raisesOnly_bind, iterate_raises]
  constructor
  · rintro ⟨⟨logs, hlogs⟩, hrest⟩
    have hfind := (raisesOnly_bind.1 (hrest logs hlogs)).1
    exact ⟨logs, hlogs, (find_raises hdecimals (logs_writable hwritable hlogs)).1 hfind⟩
  · rintro ⟨logs, hlogs, hlegible⟩
    refine ⟨⟨logs, hlogs⟩, fun logs' hlogs' => ?_⟩
    have heq := hlogs.symm.trans hlogs'
    cases heq
    rw [raisesOnly_bind]
    exact ⟨(find_raises hdecimals (logs_writable hwritable hlogs)).2 hlegible,
      fun r _ => checkMatched_raises⟩

theorem findTransfer_ok (hwritable : receipt.Writable)
    (h : findTransfer p w hash expectedTo receipt = .ok found) : ∃ logs log, LogsOf receipt logs
      ∧ IsFirst logs (IsUsdtTransfer p w expectedTo) log ∧ Decodes w expectedTo log found := by
  obtain ⟨logs, hlogs, h⟩ := bind_ok h
  obtain ⟨r, hfind, h⟩ := bind_ok h
  rw [checkMatched_ok] at h
  rcases find_ok hdecimals (logs_writable hwritable hlogs) hfind
    with ⟨hnone, -⟩ | ⟨found', log, hsome, hfirst, hdecodes⟩
  · rw [hnone] at h
    cases h
  · rw [hsome, Option.some.injEq] at h
    rw [h] at hdecodes
    exact ⟨logs, log, hlogs, hfirst, hdecodes⟩

/-- And the first transfer is found. -/
theorem findTransfer_first (hwritable : receipt.Writable) (hlogs : LogsOf receipt logs)
    (hlegible : LegibleLogs p w expectedTo logs)
    (hfirst : IsFirst logs (IsUsdtTransfer p w expectedTo) log)
    (hdecodes : Decodes w expectedTo log found) :
    findTransfer p w hash expectedTo receipt = .ok found := by
  have hall := logs_writable hwritable hlogs
  obtain ⟨r, hr⟩ := find_total hdecimals hall hlegible
  have hsome : r = some found := by
    rcases find_ok hdecimals hall hr with ⟨-, hnone⟩ | ⟨found', log', hsome, hfirst', hdecodes'⟩
    · obtain ⟨before, after, rfl, htransfer, -⟩ := hfirst
      exact absurd htransfer (hnone log (by simp))
    · rw [hfirst'.unique hfirst] at hdecodes'
      rw [hsome, decodes_unique hdecodes' hdecodes]
  exact bind_ok_iff.2 ⟨logs, hlogs, bind_ok_iff.2 ⟨r, hr, checkMatched_ok.2 hsome⟩⟩

/-- The status is looked at where there is a transfer. -/
theorem findTransfer_some (hwritable : receipt.Writable) (hlogs : LogsOf receipt logs)
    (hlegible : LegibleLogs p w expectedTo logs) :
    (∃ found, findTransfer p w hash expectedTo receipt = .ok found)
      ↔ ∃ log ∈ logs, IsUsdtTransfer p w expectedTo log := by
  constructor
  · rintro ⟨found, hfound⟩
    obtain ⟨logs', log, hlogs', ⟨before, after, rfl, htransfer, -⟩, -⟩ :=
      findTransfer_ok hdecimals hwritable hfound
    have heq := hlogs.symm.trans hlogs'
    cases heq
    exact ⟨log, by simp, htransfer⟩
  · rintro ⟨log, hlog, htransfer⟩
    have hall := logs_writable hwritable hlogs
    obtain ⟨r, hr⟩ := find_total hdecimals hall hlegible
    rcases find_ok hdecimals hall hr with ⟨-, hnone⟩ | ⟨found, log', hsome, -, -⟩
    · exact absurd htransfer (hnone log hlog)
    · exact ⟨found, bind_ok_iff.2 ⟨logs, hlogs, bind_ok_iff.2 ⟨r, hr, checkMatched_ok.2 hsome⟩⟩⟩

/-- Behind the two blocks. -/
theorem logsAndStatus_raises (hwritable : receipt.Writable)
    (result : MatchedLog → String → UsdtTransfer) :
    RaisesOnly IsProviderError (findTransfer p w hash expectedTo receipt >>= fun found =>
        receiptStatus w (receipt.get "status") >>= fun status => .ok (result found status))
      ↔ ∃ logs, LogsOf receipt logs ∧ LegibleLogs p w expectedTo logs
        ∧ ((∃ log ∈ logs, IsUsdtTransfer p w expectedTo log)
          → Legible w (receipt.get "status")) := by
  have hstatus : ∀ found, RaisesOnly IsProviderError
    (receiptStatus w (receipt.get "status") >>= fun status =>
      .ok (result found status)) ↔ Legible w (receipt.get "status") := by
    intro found
    rw [raisesOnly_bind, receiptStatus_raises]
    exact and_iff_left fun _ _ => raisesOnly_ok
  rw [raisesOnly_bind, findTransfer_raises hdecimals hwritable]
  constructor
  · rintro ⟨⟨logs, hlogs, hlegible⟩, hrest⟩
    refine ⟨logs, hlogs, hlegible, fun hsome => ?_⟩
    obtain ⟨found, hfound⟩ := (findTransfer_some hdecimals hwritable hlogs hlegible).2 hsome
    exact (hstatus found).1 (hrest found hfound)
  · rintro ⟨logs, hlogs, hlegible, hread⟩
    refine ⟨⟨logs, hlogs, hlegible⟩, fun found hfound => ?_⟩
    have hsome := (findTransfer_some hdecimals hwritable hlogs hlegible).1 ⟨found, hfound⟩
    exact (hstatus found).2 (hread hsome)

theorem readReceipt_raises (hwritable : receipt.Writable) :
    RaisesOnly IsProviderError (readReceipt p w hash expectedTo receipt headHex)
      ↔ LegibleReceipt p w expectedTo receipt headHex := by
  -- what comes after a number does not depend on the number
  have hguard : ∀ {j : Json} {q : Prop}
    {x : Int → Except Exc UsdtTransfer}, (∀ n, RaisesOnly IsProviderError (x n) ↔ q) →
      (RaisesOnly IsProviderError (hexToInt w j >>= x) ↔ Legible w j ∧ (j ≠ .null → q)) := by
    intro j q x hx
    rw [raisesOnly_bind, hexToInt_raises]
    refine and_congr_right fun hj => ?_
    constructor
    · intro h hne
      rcases hj with hnull | ⟨n, hn⟩
      · exact absurd hnull hne
      · exact (hx n).1 (h n hn)
    · intro h n hn
      exact (hx n).2 (h (ne_null_of_reads hn))
  unfold readReceipt LegibleReceipt
  refine hguard fun headBlock => hguard fun txBlock => ?_
  exact logsAndStatus_raises hdecimals hwritable _

theorem readReceipt_ok (hwritable : receipt.Writable)
    (h : readReceipt p w hash expectedTo receipt headHex = .ok t) :
    ∃ found headBlock logs log status,
      hexToInt w headHex = .ok headBlock
        ∧ hexToInt w (receipt.get "blockNumber") = .ok t.blockNumber
      ∧ LogsOf receipt logs ∧ IsFirst logs (IsUsdtTransfer p w expectedTo) log
        ∧ Decodes w expectedTo log found
      ∧ receiptStatus w (receipt.get "status") = .ok status
      ∧ t = transferResult p hash expectedTo receipt headHex headBlock t.blockNumber
        status found := by
  obtain ⟨headBlock, hhead, h⟩ := bind_ok h
  obtain ⟨txBlock, hblock, h⟩ := bind_ok h
  obtain ⟨found, hfound, h⟩ := bind_ok h
  obtain ⟨status, hstatus, h⟩ := bind_ok h
  cases h
  obtain ⟨logs, log, hlogs, hfirst, hdecodes⟩ := findTransfer_ok hdecimals hwritable hfound
  exact ⟨found, headBlock, logs, log, status, hhead, hblock, hlogs, hfirst, hdecodes, hstatus, rfl⟩

end Receipt

/-! ## All of it -/

/-- A number that cannot be written is no error of the family. -/
theorem written_error {e : Exc} (h : writtenAs j n = .error e) : ¬ IsProviderError e := by
  have hwritten : ∀ m : Int, written m = .error e → ¬ IsProviderError e := by
    intro m hm
    unfold written at hm
    split at hm
    · cases hm
    · cases hm
      exact id
  unfold writtenAs at h
  split at h
  · cases h
  · exact hwritten _ h

theorem writtenAs_raises :
    RaisesOnly IsProviderError (writtenAs j n) ↔ ∃ s, writtenAs j n = .ok s := by
  cases hs : writtenAs j n with
  | ok s => exact iff_of_true raisesOnly_ok ⟨s, rfl⟩
  | error e => exact iff_of_false (fun h => written_error hs (h e rfl)) fun ⟨s, hc⟩ => nomatch hc

theorem assertChainId_raises : RaisesOnly IsProviderError (assertChainId p w j)
    ↔ Legible w j ∧ ∀ n, hexToInt w j = .ok n → n ≠ p.chainId →
      (∃ s, writtenAs j n = .ok s) ∧ ∃ s, written p.chainId = .ok s := by
  unfold assertChainId
  rw [raisesOnly_bind, hexToInt_raises]
  refine and_congr_right fun _ => forall_congr' fun n => imp_congr_right fun _ => ?_
  by_cases hsame : n = p.chainId
  · rw [if_pos hsame]
    exact iff_of_true raisesOnly_ok fun hne => absurd hsame hne
  · have hchain : written p.chainId = writtenAs .null p.chainId := rfl
    rw [if_neg hsame, raisesOnly_bind, writtenAs_raises, hchain, forall_prop_of_true hsame]
    constructor
    · rintro ⟨⟨s, hs⟩, hrest⟩
      exact ⟨⟨s, hs⟩, writtenAs_raises.1 (raisesOnly_bind.1 (hrest s hs)).1⟩
    · rintro ⟨hs, hexpected⟩
      refine ⟨hs, fun s _ => ?_⟩
      rw [raisesOnly_bind]
      exact ⟨writtenAs_raises.2 hexpected, fun _ _ => raisesOnly_error.2 trivial⟩

theorem assertChainId_ok {v : Unit} :
    assertChainId p w j = .ok v ↔ hexToInt w j = .ok p.chainId := by
  unfold assertChainId
  constructor
  · intro h
    obtain ⟨n, hn, h⟩ := bind_ok h
    split at h
    · rename_i hsame
      rw [hn, hsame]
    · obtain ⟨_, -, h⟩ := bind_ok h
      obtain ⟨_, -, h⟩ := bind_ok h
      cases h
  · intro h
    exact bind_ok_iff.2 ⟨p.chainId, h, if_pos rfl⟩

theorem fetchedTxHash_raises : RaisesOnly IsProviderError (fetchedTxHash txHash) := by
  unfold fetchedTxHash
  rw [raisesOnly_mapError]
  exact fun _ _ => trivial

theorem checkExpected_raises : RaisesOnly IsProviderError (checkExpected expectedTo) := by
  unfold checkExpected
  split
  · exact raisesOnly_error.2 trivial
  · exact raisesOnly_ok

theorem checkExpected_ok {v : Unit} : checkExpected expectedTo = .ok v ↔ expectedTo ≠ "0x" := by
  unfold checkExpected
  split
  · rename_i h
    exact iff_of_false (fun hc => nomatch hc) fun hc => hc h
  · rename_i h
    exact iff_of_true rfl h

theorem checkReceipt_raises {hash : String} : RaisesOnly IsProviderError (checkReceipt hash j) := by
  unfold checkReceipt
  split
  · exact raisesOnly_error.2 trivial
  · exact raisesOnly_ok
  · exact raisesOnly_error.2 trivial

theorem checkReceipt_ok {hash : String} {v : Unit} :
    checkReceipt hash j = .ok v ↔ j.isDict = true := by
  cases j with
  | dict kvs => exact iff_of_true rfl rfl
  | _ => exact iff_of_false (fun hc => nomatch hc) fun hc => nomatch hc

/-- What is fetched once everything that is asked for has been answered. -/
theorem fetch_eq (h : Asked p w rpc txHash toAddress) {hash : String}
    (hhash : fetchedTxHash txHash = .ok hash) :
    fetchUsdtTransfer p w rpc txHash toAddress = rpc.receipt >>= fun receipt =>
      checkReceipt hash receipt.1 >>= fun _ => rpc.blockNumber >>= fun headHex =>
        readReceipt p w hash (expectedAddress p toAddress) receipt.1 headHex.1 := by
  obtain ⟨-, ⟨remoteHex, hremote, hchain⟩, hexpected⟩ := h
  unfold fetchUsdtTransfer
  rw [bind_of_ok hhash, bind_of_ok hremote, bind_of_ok (assertChainId_ok (v := ()) |>.2 hchain),
    bind_of_ok (checkExpected_ok (v := ()) |>.2 hexpected)]

theorem fetch_asked (h : fetchUsdtTransfer p w rpc txHash toAddress = .ok t) :
    Asked p w rpc txHash toAddress := by
  obtain ⟨hash, hhash, h⟩ := bind_ok h
  obtain ⟨remoteHex, hremote, h⟩ := bind_ok h
  obtain ⟨_, hchain, h⟩ := bind_ok h
  obtain ⟨_, hexpected, h⟩ := bind_ok h
  exact ⟨⟨hash, hhash⟩, ⟨remoteHex, hremote, assertChainId_ok.1 hchain⟩,
    checkExpected_ok.1 hexpected⟩

section Fetch

variable (hdecimals : p.tokenDecimals = 6)

include hdecimals

theorem fetch_raises : RaisesOnly IsProviderError (fetchUsdtTransfer p w rpc txHash toAddress)
    ↔ Clean p w rpc txHash toAddress := by
  -- what is looked at once the chain is the right one
  have hrest : ∀ hash, fetchedTxHash txHash = .ok hash → Asked p w rpc txHash toAddress →
      (RaisesOnly IsProviderError (fetchUsdtTransfer p w rpc txHash toAddress)
        ↔ RaisesOnly IsProviderError rpc.receipt ∧ ∀ receipt, HasReceipt rpc receipt →
          RaisesOnly IsProviderError rpc.blockNumber ∧ ∀ headHex, rpc.blockNumber = .ok headHex →
            LegibleReceipt p w (expectedAddress p toAddress) receipt.1 headHex.1) := by
    intro hash hhash hasked
    rw [fetch_eq hasked hhash, raisesOnly_bind]
    refine and_congr_right fun _ => forall_congr' fun receipt => ?_
    unfold HasReceipt
    rw [and_imp]
    refine imp_congr_right fun _ => ?_
    rw [raisesOnly_bind, and_iff_right checkReceipt_raises]
    have hread : RaisesOnly IsProviderError (rpc.blockNumber >>= fun headHex =>
        readReceipt p w hash (expectedAddress p toAddress) receipt.1 headHex.1)
        ↔ RaisesOnly IsProviderError rpc.blockNumber ∧ ∀ headHex, rpc.blockNumber = .ok headHex →
          LegibleReceipt p w (expectedAddress p toAddress) receipt.1 headHex.1 := by
      rw [raisesOnly_bind]
      refine and_congr_right fun _ => forall_congr' fun headHex => imp_congr_right fun _ => ?_
      exact readReceipt_raises hdecimals receipt.2
    constructor
    · intro h hdict
      exact hread.1 (h () (checkReceipt_ok.2 hdict))
    · intro h _ hcheck
      exact hread.2 (h (checkReceipt_ok.1 hcheck))
  have hchain : ∀ hash, fetchedTxHash txHash = .ok hash →
      RaisesOnly IsProviderError (fetchUsdtTransfer p w rpc txHash toAddress) →
      RaisesOnly IsProviderError rpc.chainId ∧ ∀ remoteHex, rpc.chainId = .ok remoteHex →
        RaisesOnly IsProviderError (assertChainId p w remoteHex.1) := by
    intro hash hhash h
    unfold fetchUsdtTransfer at h
    rw [bind_of_ok hhash, raisesOnly_bind] at h
    exact ⟨h.1, fun remoteHex hremote => (raisesOnly_bind.1 (h.2 remoteHex hremote)).1⟩
  constructor
  · intro h
    refine ⟨?_, fun hasked => ?_, fun hasked receipt hreceipt => ?_⟩
    · rintro ⟨hash, hhash⟩
      obtain ⟨hcall, hcheck⟩ := hchain hash hhash h
      exact ⟨hcall, fun remoteHex hremote => assertChainId_raises.1 (hcheck remoteHex hremote)⟩
    · obtain ⟨hash, hhash⟩ := hasked.1
      exact ((hrest hash hhash hasked).1 h).1
    · obtain ⟨hash, hhash⟩ := hasked.1
      exact ((hrest hash hhash hasked).1 h).2 receipt hreceipt
  · intro h
    by_cases hasked : Asked p w rpc txHash toAddress
    · obtain ⟨hash, hhash⟩ := hasked.1
      exact (hrest hash hhash hasked).2 ⟨h.receipt hasked, h.head hasked⟩
    · -- it ends at one of the first checks
      unfold fetchUsdtTransfer
      rw [raisesOnly_bind]
      refine ⟨fetchedTxHash_raises, fun hash hhash => ?_⟩
      obtain ⟨hcall, hcheck⟩ := h.chain ⟨hash, hhash⟩
      rw [raisesOnly_bind]
      refine ⟨hcall, fun remoteHex hremote => ?_⟩
      rw [raisesOnly_bind]
      refine ⟨assertChainId_raises.2 (hcheck remoteHex hremote), fun _ hassert => ?_⟩
      rw [raisesOnly_bind]
      refine ⟨checkExpected_raises, fun _ hexpected => ?_⟩
      have hchainId := assertChainId_ok.1 hassert
      exact absurd ⟨⟨hash, hhash⟩, ⟨remoteHex, hremote, hchainId⟩,
        checkExpected_ok.1 hexpected⟩ hasked

theorem fetch_ok {t : UsdtTransfer} (h : fetchUsdtTransfer p w rpc txHash toAddress = .ok t) :
    ∃ receipt headHex found, Describes p w rpc txHash toAddress receipt headHex found t := by
  have hasked := fetch_asked h
  obtain ⟨hash, hhash⟩ := hasked.1
  rw [fetch_eq hasked hhash] at h
  obtain ⟨receipt, hreceipt, h⟩ := bind_ok h
  obtain ⟨_, hdict, h⟩ := bind_ok h
  obtain ⟨headHex, hhead, h⟩ := bind_ok h
  obtain ⟨found, headBlock, logs, log, status, hheadBlock, hblock, hlogs, hfirst, hdecodes,
      hstatus, heq⟩ :=
    readReceipt_ok hdecimals receipt.2 h
  rw [heq]
  exact ⟨receipt, headHex, found, hasked, hhash, ⟨hreceipt, checkReceipt_ok.1 hdict⟩, hhead, hblock,
    ⟨headBlock, hheadBlock, confirmationsOf_eq _ _⟩, ⟨logs, log, hlogs, hfirst, hdecodes⟩, hstatus,
    ⟨rfl, rfl, rfl, rfl⟩, rfl⟩

theorem fetch_found (hclean : Clean p w rpc txHash toAddress) {receipt headHex : Loaded}
    (h : Describes p w rpc txHash toAddress receipt headHex found t) :
    fetchUsdtTransfer p w rpc txHash toAddress = .ok t := by
  obtain ⟨hreceipt, hdict⟩ := h.answered
  obtain ⟨headBlock, hheadBlock, hconfirmations⟩ := h.confirmations
  obtain ⟨logs, log, hlogs, hfirst, hdecodes⟩ := h.first
  -- the logs are read up to the transfer
  obtain ⟨-, hhead⟩ := hclean.head h.asked receipt h.answered
  obtain ⟨-, hblock⟩ := hhead headHex h.head
  obtain ⟨-, hread⟩ := hblock (ne_null_of_reads hheadBlock)
  obtain ⟨logs', hlogs', hlegible, -⟩ := hread (ne_null_of_reads h.block)
  have heq := hlogs.symm.trans hlogs'
  cases heq
  have hfound : findTransfer p w t.txHash (expectedAddress p toAddress) receipt.1 = .ok found :=
    findTransfer_first hdecimals receipt.2 hlogs hlegible hfirst hdecodes
  have hresult : transferResult p t.txHash
    (expectedAddress p toAddress) receipt.1 headHex.1 headBlock t.blockNumber
      t.status found = t := by
    obtain ⟨hsource, hto, hamount, hcontract⟩ := h.transfer
    unfold transferResult
    rw [confirmationsOf_eq, ← hconfirmations, ← hsource, ← hto, ← hamount, ← hcontract,
      ← h.response]
  rw [fetch_eq h.asked h.hash, bind_of_ok hreceipt,
    bind_of_ok (checkReceipt_ok (v := ()) |>.2 hdict), bind_of_ok h.head]
  unfold readReceipt
  rw [bind_of_ok hheadBlock, bind_of_ok h.block, bind_of_ok hfound, bind_of_ok h.status, hresult]

/--
**A transfer is fetched as the receipt has it, or an error of the provider's own is raised, exactly
when the node answers nothing that Python raises an error of its own for.**
-/
theorem fetches_iff : FetchesWell p w rpc txHash toAddress ↔ Clean p w rpc txHash toAddress := by
  constructor
  · intro h
    exact (fetch_raises hdecimals).1 h.raised
  · intro h
    refine ⟨fun t => ⟨fetch_ok hdecimals, ?_⟩, (fetch_raises hdecimals).2 h⟩
    rintro ⟨receipt, headHex, found, hdescribes⟩
    exact fetch_found hdecimals h hdescribes

end Fetch

/-! ## A transfer, and a log without a number -/

/-- The provider as it is configured for Polygon. -/
def usdt : PolygonProvider where
  usdtContract := "0xc2132d05d31c914a87c6611c10748aeb04b58e8f"
  platformWallet := "0x1111111111111111111111111111111111111111"
  chainId := 137
  tokenDecimals := 6

def anyWriter : Json.Writer := ⟨fun _ => "", fun _ => "", fun _ => ""⟩

/-- The receipt of one transfer to the platform's wallet, with this for its data. -/
def receiptOf (data : String) : Json :=
  .dict [("status", .str "0x1"), ("blockNumber", .str "0x100"), ("logs", .list [.dict
    [("address", .str usdt.usdtContract), ("topics", .list
      [.str erc20TransferTopic, .str "0x2222222222222222222222222222222222222222",
        .str usdt.platformWallet]),
      ("data", .str data)]])]

theorem receiptOf_writable (data : String) : (receiptOf data).Writable := by
  have hstr : ∀ s, (Json.str s).Writable := .str
  refine .dict ?_
  simp only [List.forall_mem_cons, List.not_mem_nil, false_imp_iff, implies_true, and_true]
  refine ⟨hstr _, hstr _, .list ?_⟩
  rw [List.forall_mem_singleton]
  refine .dict ?_
  simp only [List.forall_mem_cons, List.not_mem_nil, false_imp_iff, implies_true, and_true]
  refine ⟨hstr _, .list ?_, hstr _⟩
  simp only [List.forall_mem_cons, List.not_mem_nil, false_imp_iff, implies_true, and_true]
  exact ⟨hstr _, hstr _, hstr _⟩

/-- What the node answers for it, with the head of the chain nineteen blocks further. -/
def answersOf (data : String) : RpcAnswers where
  chainId := .ok ⟨.str "0x89", .str _⟩
  receipt := .ok ⟨receiptOf data, receiptOf_writable data⟩
  blockNumber := .ok ⟨.str "0x113", .str _⟩

/-- The hash of a transaction. -/
def someHash : String := String.ofList (List.replicate 64 'a')

/-- Fifteen and a half dollars are fetched. -/
theorem fetches_transfer : FetchesWell usdt anyWriter (answersOf "0xec82e0") someHash none
    ∧ ((fetchUsdtTransfer usdt anyWriter (answersOf "0xec82e0") someHash none).toOption.map fun t =>
      (t.amount, t.confirmations)) = some (.finite ⟨15500000, -6⟩, 20) := by
  have hvalue :
    ((fetchUsdtTransfer usdt anyWriter (answersOf "0xec82e0") someHash none).toOption.map fun t =>
      (t.amount, t.confirmations)) = some (.finite ⟨15500000, -6⟩, 20) := by
    decide
  refine ⟨(fetches_iff rfl).2 ((fetch_raises rfl).1 fun e he => ?_), hvalue⟩
  rw [he] at hvalue
  cases hvalue

/-- Where the transfer's data is `0x`, which is no number, Python's own error is raised. -/
theorem fetch_empty : ¬ FetchesWell usdt anyWriter (answersOf "0x") someHash none := by
  intro h
  have hvalue : (match fetchUsdtTransfer usdt anyWriter (answersOf "0x") someHash none with
      | .error e => some e
      | .ok _ => none) = some .valueError := by
    decide
  cases hfetch : fetchUsdtTransfer usdt anyWriter (answersOf "0x") someHash none with
  | ok t =>
    rw [hfetch] at hvalue
    cases hvalue
  | error e =>
    rw [hfetch] at hvalue
    cases hvalue
    exact h.raised _ hfetch

end Roamkit.Polygon.Proof
