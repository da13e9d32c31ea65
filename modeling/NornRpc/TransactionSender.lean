import NornRpc.RpcClient

/-!
# Waiting for a receipt

`TransactionSender` of `transaction_sender.py`: its readers over `_make_request`, and
`wait_for_receipt`, which asks for the receipt of a transaction up to `max_retries` times and
returns the first one that is truthy.

The loop has a closed form (`waitForReceipt_eq`): the `j`-th poll goes out under request id
`request_id + 1 + j`, and the loop stops at the first poll whose receipt is not pending, a
truthy receipt, which it returns, or a failure, which it raises. When every one of the
`max_retries` polls is pending it returns `None`. A pending receipt is a falsy one: `None`, but
also an empty dict. A negative `max_retries` sends nothing. The `time.sleep` between polls is
left out.
-/

namespace NornRpc

/-- The sender's state: `request_id`. -/
structure TransactionSender where
  requestId : ℕ

namespace TransactionSender

/-- `_make_request(method, params)` on the sender's counter. -/
def makeRequest (s : TransactionSender) (method : String) (params : List Json) :
    TransactionSender × RpcCall :=
  let (requestId, call) := NornRpc.makeRequest s.requestId method params
  (⟨requestId⟩, call)

/-- The two quantity readers, `get_nonce` and `get_gas_price`: one request, and
`int(result.get("result", "0x0"), 16)`. -/
def readQuantityOf (s : TransactionSender) (node : RpcCall → Option Json) (method : String)
    (params : List Json) : TransactionSender × Except Failure ℤ :=
  let (s, call) := s.makeRequest method params
  (s, readQuantity (node call))

/-- `get_nonce(address)`. -/
def getNonce (s : TransactionSender) (node : RpcCall → Option Json) (address : String) :
    TransactionSender × Except Failure ℤ :=
  s.readQuantityOf node "eth_getTransactionCount" [.str address, .str "latest"]

/-- `get_gas_price()`. -/
def getGasPrice (s : TransactionSender) (node : RpcCall → Option Json) :
    TransactionSender × Except Failure ℤ :=
  s.readQuantityOf node "eth_gasPrice" []

/-- `send_raw_transaction(signed_tx)`: an `error` member raises, otherwise
`result.get("result", "")`. -/
def sendRawTransaction (s : TransactionSender) (node : RpcCall → Option Json)
    (signedTx : String) : TransactionSender × Except Failure Json :=
  let (s, call) := s.makeRequest "eth_sendRawTransaction" [.str signedTx]
  (s, match node call with
    | none => .error .requestFailed
    | some (.obj reply) =>
      match Json.getField "error" reply with
      | some error => .error (.rpcError "Transaction failed: " error)
      | none => .ok ((Json.getField "result" reply).getD (.str ""))
    | some _ => .error .replyNotDict)

/-- `get_transaction_receipt(tx_hash)`: `result.get("result")`. -/
def getTransactionReceipt (s : TransactionSender) (node : RpcCall → Option Json)
    (txHash : String) : TransactionSender × Except Failure Json :=
  let (s, call) := s.makeRequest "eth_getTransactionReceipt" [.str txHash]
  (s, readResult .null (node call))

/-- The loop of `wait_for_receipt` with `n` polls left. -/
def pollReceipt (node : RpcCall → Option Json) (txHash : String) :
    ℕ → TransactionSender → TransactionSender × Except Failure (Option Json)
  | 0, s => (s, .ok none)
  | n + 1, s =>
    match s.getTransactionReceipt node txHash with
    | (s, .error e) => (s, .error e)
    | (s, .ok receipt) =>
      if receipt.truthy then (s, .ok (some receipt)) else pollReceipt node txHash n s

/-- `wait_for_receipt(tx_hash, max_retries)`: `for attempt in range(max_retries)`. -/
def waitForReceipt (s : TransactionSender) (node : RpcCall → Option Json) (txHash : String)
    (maxRetries : ℤ) : TransactionSender × Except Failure (Option Json) :=
  pollReceipt node txHash maxRetries.toNat s

/-! ### The polling loop -/

/-- The `j`-th poll of `wait_for_receipt` from request id `k`. -/
def receiptCall (k : ℕ) (txHash : String) (j : ℕ) : RpcCall :=
  ⟨k + 1 + j, "eth_getTransactionReceipt", [.str txHash]⟩

/-- A poll whose receipt is still pending: the reply was read, and the receipt is falsy. -/
def pending : Except Failure Json → Bool
  | .ok receipt => !receipt.truthy
  | .error _ => false

theorem receiptCall_succ (k : ℕ) (txHash : String) (j : ℕ) :
    receiptCall (k + 1) txHash j = receiptCall k txHash (j + 1) := by
  simp only [receiptCall, RpcCall.mk.injEq, and_true]
  omega

theorem pollReceipt_eq (node : RpcCall → Option Json) (txHash : String) (n : ℕ)
    (s : TransactionSender) :
    pollReceipt node txHash n s =
      match (List.range n).find? fun j =>
        !pending (readResult .null (node (receiptCall s.requestId txHash j))) with
      | none => (⟨s.requestId + n⟩, .ok none)
      | some j => (⟨s.requestId + (j + 1)⟩,
          (readResult .null (node (receiptCall s.requestId txHash j))).map some) := by
  induction n generalizing s with
  | zero => rfl
  | succ n ih =>
    obtain ⟨k⟩ := s
    have hfirst : (⟨k⟩ : TransactionSender).getTransactionReceipt node txHash =
        (⟨k + 1⟩, readResult .null (node (receiptCall k txHash 0))) := rfl
    rw [pollReceipt, hfirst, List.range_succ_eq_map, List.find?_cons, List.find?_map]
    simp only [Function.comp_def, ← receiptCall_succ]
    cases hr : readResult .null (node (receiptCall k txHash 0)) with
    | error e => simp [pending, hr, Except.map]
    | ok receipt =>
      cases ht : receipt.truthy
      · -- a pending receipt: the rest of the loop, one request id on
        have hp : pending (.ok receipt) = true := by simp [pending, ht]
        simp only [hp, Bool.not_true, ht, Bool.false_eq_true, ite_false]
        rw [ih]
        cases (List.range n).find? _ <;> simp [receiptCall_succ, Nat.add_assoc, Nat.add_comm 1]
      · simp [pending, hr, ht, Except.map]

/-- **`wait_for_receipt` returns the first receipt that is not pending.** For every node and
every `max_retries`, polls go out under request ids `request_id + 1`, `request_id + 2`, … and
the loop stops at the first poll, among the first `max_retries`, whose receipt is not pending:
it returns that receipt when it is truthy and raises when the poll failed. When all
`max_retries` polls are pending it returns `None` after `max_retries` requests. -/
theorem waitForReceipt_eq (s : TransactionSender) (node : RpcCall → Option Json)
    (txHash : String) (maxRetries : ℤ) :
    s.waitForReceipt node txHash maxRetries =
      match (List.range maxRetries.toNat).find? fun j =>
        !pending (readResult .null (node (receiptCall s.requestId txHash j))) with
      | none => (⟨s.requestId + maxRetries.toNat⟩, .ok none)
      | some j => (⟨s.requestId + (j + 1)⟩,
          (readResult .null (node (receiptCall s.requestId txHash j))).map some) :=
  pollReceipt_eq node txHash _ s

end TransactionSender

end NornRpc
