import NornRpc.Json
import NornRpc.PyStr
import NornRpc.Float.PyFloat

/-!
# JSON-RPC over HTTP

`NornRPCClient`, `TransactionSender` and `BalanceChecker` share one `_make_request`: it moves
`request_id` on, posts `{"jsonrpc": "2.0", "id": request_id, "method": method, "params": params}`
and returns `response.json()`. It raises when the post fails or times out, when the status is an
error (`raise_for_status`), or when the body is not JSON. A node is the function from the request
it receives to its reply, `none` for a request that raises; since every request carries a fresh
id, the replies may change from one request to the next.

The methods read a reply with `result.get("result", default)` (`readResult`), which raises on a
reply that is not a dict, and quantities with `int(value, 16)` (`pyIntJson`). The readers of
`NornRPCClient` (`basic_rpc.py`) are this one step with their method, parameters and default.
-/

namespace NornRpc

/-- A JSON-RPC request as `_make_request` posts it. -/
structure RpcCall where
  id : ℕ
  method : String
  params : List Json

/-- `_make_request(method, params)`: the next `request_id`, and the request posted under it. -/
def makeRequest (requestId : ℕ) (method : String) (params : List Json) : ℕ × RpcCall :=
  (requestId + 1, ⟨requestId + 1, method, params⟩)

/-- Why a client method raises. -/
inductive Failure where
  /-- `requests.post`, `raise_for_status` or `response.json()` raises. -/
  | requestFailed
  /-- `in`, `[...]` or `.get` on a reply that is not a dict (`TypeError`, `AttributeError`). -/
  | replyNotDict
  /-- `int(value, 16)` on a `str` that is not a hex integer (`ValueError`), or on a value that is
  not a `str` (`TypeError`). -/
  | notHexInt
  /-- `raise Exception(f"{label}{result['error']}")`: `"Transaction failed: "` in
  `send_raw_transaction`, `"RPC Error: "` in the contract client. -/
  | rpcError (label : String) (error : Json)
  /-- `raise Exception(message)`. -/
  | exception (message : String)
  /-- A float operation raises: `wei / 1e18` on a balance past the largest double. -/
  | floatError (error : PyError)

/-- `result.get("result", default)` on the reply to a request. -/
def readResult (default : Json) : Option Json → Except Failure Json
  | none => .error .requestFailed
  | some (.obj reply) => .ok ((Json.getField "result" reply).getD default)
  | some _ => .error .replyNotDict

/-- `int(value, base)` on a decoded value: a `str` is parsed, anything else raises. -/
def pyIntJson (base : ℕ) : Json → Option ℤ
  | .str s => pyIntStr base s
  | _ => none

/-- `int(result.get("result", "0x0"), 16)`: the quantity `get_nonce`, `get_gas_price` and
`get_balance` read from a reply. -/
def readQuantity (reply : Option Json) : Except Failure ℤ := do
  let hex ← readResult (.str "0x0") reply
  match pyIntJson 16 hex with
  | some n => .ok n
  | none => .error .notHexInt

/-! ### `NornRPCClient` -/

/-- `NornRPCClient` of `basic_rpc.py`: its `request_id`. -/
structure NornRPCClient where
  requestId : ℕ

namespace NornRPCClient

/-- The readers of `NornRPCClient`: post `method` on `params`, and return
`result.get("result", default)`. -/
def readResultOf (c : NornRPCClient) (node : RpcCall → Option Json) (method : String)
    (params : List Json) (default : Json) : NornRPCClient × Except Failure Json :=
  let (requestId, call) := makeRequest c.requestId method params
  (⟨requestId⟩, readResult default (node call))

/-- `get_chain_id()`. -/
def getChainId (c : NornRPCClient) (node : RpcCall → Option Json) :
    NornRPCClient × Except Failure Json :=
  c.readResultOf node "eth_chainId" [] (.str "")

/-- `get_block_number()`. -/
def getBlockNumber (c : NornRPCClient) (node : RpcCall → Option Json) :
    NornRPCClient × Except Failure Json :=
  c.readResultOf node "eth_blockNumber" [] (.str "")

/-- `get_block_by_number(block_number, full_tx)`. -/
def getBlockByNumber (c : NornRPCClient) (node : RpcCall → Option Json) (blockNumber : String)
    (fullTx : Bool) : NornRPCClient × Except Failure Json :=
  c.readResultOf node "eth_getBlockByNumber" [.str blockNumber, .bool fullTx] (.obj [])

/-- `get_gas_price()`. -/
def getGasPrice (c : NornRPCClient) (node : RpcCall → Option Json) :
    NornRPCClient × Except Failure Json :=
  c.readResultOf node "eth_gasPrice" [] (.str "")

/-- `get_balance(address, block)`. -/
def getBalance (c : NornRPCClient) (node : RpcCall → Option Json) (address block : String) :
    NornRPCClient × Except Failure Json :=
  c.readResultOf node "eth_getBalance" [.str address, .str block] (.str "")

/-- `get_transaction_count(address, block)`. -/
def getTransactionCount (c : NornRPCClient) (node : RpcCall → Option Json)
    (address block : String) : NornRPCClient × Except Failure Json :=
  c.readResultOf node "eth_getTransactionCount" [.str address, .str block] (.str "")

/-- `send_raw_transaction(signed_tx)`: unlike `TransactionSender`'s, it reads no `error`. -/
def sendRawTransaction (c : NornRPCClient) (node : RpcCall → Option Json) (signedTx : String) :
    NornRPCClient × Except Failure Json :=
  c.readResultOf node "eth_sendRawTransaction" [.str signedTx] (.str "")

/-- `get_transaction_receipt(tx_hash)`: `{}` when the reply has no `result`. -/
def getTransactionReceipt (c : NornRPCClient) (node : RpcCall → Option Json) (txHash : String) :
    NornRPCClient × Except Failure Json :=
  c.readResultOf node "eth_getTransactionReceipt" [.str txHash] (.obj [])

end NornRPCClient

end NornRpc
