import Roamkit.Lib.Raises
import Roamkit.Wallet.Cutover

/-!
# USDT transfers on Polygon

The node is asked for the receipt of a transaction; the transfer is the first log of the
receipt that the token contract has written for the address. The node is no part of the
application, and every field of what it answers may be anything that JSON can say.
-/

namespace Roamkit.Polygon

open Lib Billing Wallet

/-! ## The provider -/

/-- The fields of a `PolygonProvider`. -/
structure PolygonProvider where
  usdtContract : String
  platformWallet : String
  chainId : Int
  tokenDecimals : Nat

/-- What `json.loads` gives. -/
abbrev Loaded := {j : Json // j.Writable}

/-- What `PolygonRpcClient.call` comes to, each time that it is called. -/
structure RpcAnswers where
  /-- `eth_chainId` -/
  chainId : Except Exc Loaded
  /-- `eth_getTransactionReceipt` -/
  receipt : Except Exc Loaded
  /-- `eth_blockNumber` -/
  blockNumber : Except Exc Loaded

/-! ## Decoding -/

/-- `_normalize_tx_hash` of this module: as for a deposit, but with another exception. -/
def fetchedTxHash (value : String) : Except Exc String :=
  (normalizeTxHash value).mapError fun _ =>
    .transferNotFound ("Invalid transaction hash: " ++ PyText.repr value)

/-- `_topic_to_address` -/
def topicToAddress (topic : String) : String :=
  let text := topic.toList.map Char.toLower
  let text := if text.take 2 = "0x".toList then text.drop 2 else text
  String.ofList ("0x".toList ++ PyText.takeLast 40 text)

variable (w : Json.Writer)

/-- `str(value)` -/
def text (j : Json) : Except Exc String :=
  match j.toStr w with
  | some s => .ok s
  | none => .error .valueError

/-- A number written in a text, in base sixteen behind `0x` and in base ten otherwise. -/
def readInt? (s : String) : Option Int :=
  let text := (PyText.strip s).toList.map Char.toLower
  if text.take 2 = "0x".toList then hexInt? text else PyText.int? (String.ofList text)

/-- `_hex_to_int` -/
def hexToInt : Json → Except Exc Int
  | .null => .error (.blockchainRpc "missing hex integer in RPC response")
  | .int n => .ok n
  | .bool b => .ok (if b then 1 else 0)
  | j => do
    let s ← text w j
    match readInt? s with
    | some n => .ok n
    | none => .error .valueError

/-- `_receipt_status` -/
def receiptStatus : Json → Except Exc String
  | .null => .ok "unknown"
  | j => do
    let status ← hexToInt w j
    .ok (if status = 1 then "success" else if status = 0 then "reverted" else "unknown")

/-- `quantize(Decimal(1).scaleb(-places), ROUND_DOWN)`, counted in units of the last place; `none`
where it needs more digits than the context's precision. -/
def quantizeDown (places : Nat) (d : Dec) : Option Int :=
  let e := d.exp + places
  let units := if 0 ≤ e then d.coeff * 10 ^ e.toNat else d.coeff.tdiv (10 ^ (-e).toNat)
  if units.natAbs < 10 ^ precision then some units else none

/-- The largest adjusted exponent in Python's default context. -/
def contextEmax : Int := 999999

/-- `amount.quantize(_MONEY_QUANT, rounding=ROUND_DOWN)` of a quotient, which overflows before it is
quantized. -/
def quantizeAmount (amount : Dec) : Except Exc PyDecimal :=
  if contextEmax < amount.exp + (Nat.toDigits 10 amount.coeff.natAbs).length - 1 then
    .error .decimalOverflow
  else
    match quantizeDown 6 amount with
    | some units => .ok (.finite (Dec.ofUnits 6 units))
    | none => .error .invalidOperation

variable (p : PolygonProvider)

/-- `_amount_from_data` -/
def amountFromData (w : Json.Writer) (data : String) : Except Exc PyDecimal := do
  let raw ← hexToInt w (.str data)
  quantizeAmount (Dec.round ⟨raw, -p.tokenDecimals⟩)

/-! ## The logs -/

/-- keccak256("Transfer(address,address,uint256)") -/
def erc20TransferTopic : String :=
    "0xddf252ad1be2c89b69c2b068fc378daa952ba7f163c4a11628f55a4df523b3ef"

/-- What `for log in logs` goes through: the characters of a text and the keys of an object are no
logs. -/
def iterate : Json → Except Exc (List Json)
  | .list xs => .ok xs
  | .str s => .ok (s.toList.map fun c => .str (String.ofList [c]))
  | .dict kvs => .ok (kvs.map fun kv => .str kv.1)
  | _ => .error .typeError

/-- `topics[0]`, `topics[1]` and `topics[2]`, where `len(topics)` is three or more. -/
def firstTopics : Json → Except Exc (Option (Json × Json × Json))
  | .list (a :: b :: c :: _) => .ok (some (a, b, c))
  | .list _ => .ok none
  | .str s =>
    match s.toList with
    | a :: b :: c :: _ =>
      .ok (some (.str (String.ofList [a]), .str (String.ofList [b]), .str (String.ofList [c])))
    | _ => .ok none
  -- an object has no key that is a number
  | .dict kvs => if (kvs.map (·.1)).eraseDups.length < 3 then .ok none else .error .keyError
  | _ => .error .typeError

/-- A log that has matched, decoded. -/
structure MatchedLog where
  fromAddress : String
  toAddress : String
  amount : PyDecimal
  log : Json

/-- What a log of the token comes to. -/
def matchTopics (w : Json.Writer) (expectedTo : String) (log : Json) :
    Option (Json × Json × Json) → Except Exc (Option MatchedLog)
  | none => .ok none
  | some (topic, sender, recipient) => do
    let name ← text w topic
    if PyText.lower name ≠ erc20TransferTopic then .ok none
    else do
      let recipient ← text w recipient
      if topicToAddress recipient ≠ expectedTo then .ok none
      else do
        let sender ← text w sender
        let data ← text w ((log.get "data").orElse (.str "0x0"))
        let amount ← amountFromData p w data
        .ok (some ⟨topicToAddress sender, topicToAddress recipient, amount, log⟩)

/-- What a log comes to in the loop; `none` where it goes on to the next. -/
def matchLog (w : Json.Writer) (expectedTo : String) (log : Json) :
    Except Exc (Option MatchedLog) :=
  if ¬ log.isDict then .ok none
  else do
    let address ← text w ((log.get "address").orElse (.str ""))
    if normalizeEvmAddress address ≠ p.usdtContract then .ok none
    else do
      let topics ← firstTopics ((log.get "topics").orElse (.list []))
      matchTopics p w expectedTo log topics

/-- `_find_usdt_transfer_log` -/
def findUsdtTransferLog (p : PolygonProvider) (w : Json.Writer) (expectedTo : String) :
    List Json → Except Exc (Option MatchedLog)
  | [] => .ok none
  | log :: logs => do
    match ← matchLog p w expectedTo log with
    | some found => .ok (some found)
    | none => findUsdtTransferLog p w expectedTo logs

/-! ## A transfer -/

/-- A `TransferResult`, all of it. -/
structure UsdtTransfer extends OnChainTransfer where
  toAddress : String

/-- How `f"{n}"` writes a number, which it does not do for one of too many digits. -/
def written (n : Int) : Except Exc String :=
  if PyText.fitsStr n then .ok (toString n) else .error .valueError

/-- The text of a number that was read off an answer: a truth value is a number that is written in
words. -/
def writtenAs : Json → Int → Except Exc String
  | .bool b, _ => .ok (if b then "True" else "False")
  | _, n => written n

/-- `_assert_chain_id` -/
def assertChainId (w : Json.Writer) (remoteHex : Json) : Except Exc Unit := do
  let remoteId ← hexToInt w remoteHex
  if remoteId = p.chainId then .ok ()
  else do
    let remote ← writtenAs remoteHex remoteId
    let expected ← written p.chainId
    .error (.blockchainProvider ("Unexpected chain_id " ++ remote ++ "; expected " ++ expected))

/-- The address the transfer is to go to: the one that is given, or the platform's wallet. -/
def expectedAddress (toAddress : Option String) : String :=
  normalizeEvmAddress (match toAddress with
    | some address => if address = "" then p.platformWallet else address
    | none => p.platformWallet)

/-- The check of that address. -/
def checkExpected (expectedTo : String) : Except Exc Unit :=
  if expectedTo = "0x" then
    .error (.blockchainProvider "expected deposit to_address is empty") else .ok ()

/-- The checks of the receipt. -/
def checkReceipt (normalizedHash : String) : Json → Except Exc Unit
  | .null => .error (.transferNotFound ("Transaction receipt not found for " ++ normalizedHash))
  | .dict _ => .ok ()
  | _ => .error (.blockchainRpc "eth_getTransactionReceipt returned invalid type")

/-- The check of what the logs have come to. -/
def checkMatched (normalizedHash : String) : Option MatchedLog → Except Exc MatchedLog
  | none => .error (.transferNotFound ("No USDT transfer to expected wallet in " ++ normalizedHash))
  | some found => .ok found

/-- `confirmations = max(head_block - tx_block + 1, 0)` -/
def confirmationsOf (headBlock txBlock : Int) : Int := max (headBlock - txBlock + 1) 0

/-- The `TransferResult` at the end, with the answer it is made from. -/
def transferResult (normalizedHash expectedTo : String) (receipt headHex : Json)
    (headBlock txBlock : Int) (status : String) (found : MatchedLog) : UsdtTransfer where
  txHash := normalizedHash
  fromAddress := found.fromAddress
  toAddress := found.toAddress
  amount := found.amount
  confirmations := confirmationsOf headBlock txBlock
  blockNumber := txBlock
  tokenContract := p.usdtContract
  status
  rawRpcResponse := .dict
    [("tx_hash", .str normalizedHash), ("receipt", receipt), ("block_number", headHex),
      ("chain_id", .int p.chainId), ("matched_log", found.log), ("expected_to", .str expectedTo)]

/-- The first transfer of a receipt. -/
def findTransfer (w : Json.Writer) (normalizedHash expectedTo : String) (receipt : Json) :
    Except Exc MatchedLog := do
  let logs ← iterate ((receipt.get "logs").orElse (.list []))
  let matched ← findUsdtTransferLog p w expectedTo logs
  checkMatched normalizedHash matched

/-- The transfer of a receipt, once the head of the chain is asked for. -/
def readReceipt (w : Json.Writer) (normalizedHash expectedTo : String) (receipt headHex : Json) :
    Except Exc UsdtTransfer :=
  do
  let headBlock ← hexToInt w headHex
  let txBlock ← hexToInt w (receipt.get "blockNumber")
  let found ← findTransfer p w normalizedHash expectedTo receipt
  let status ← receiptStatus w (receipt.get "status")
  .ok (transferResult p normalizedHash expectedTo receipt headHex headBlock txBlock status found)

/-- `fetch_usdt_transfer` -/
def fetchUsdtTransfer (w : Json.Writer) (rpc : RpcAnswers) (txHash : String)
    (toAddress : Option String) : Except Exc UsdtTransfer := do
  let normalizedHash ← fetchedTxHash txHash
  let remoteHex ← rpc.chainId
  assertChainId p w remoteHex.1
  checkExpected (expectedAddress p toAddress)
  let receipt ← rpc.receipt
  checkReceipt normalizedHash receipt.1
  let headHex ← rpc.blockNumber
  readReceipt p w normalizedHash (expectedAddress p toAddress) receipt.1 headHex.1

end Roamkit.Polygon
