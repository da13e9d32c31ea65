import NornRpc.RpcClient
import NornRpc.Float.PyFloat

/-!
# The health check

`MonitoringClient` of `health_check_monitoring.py`. Each check posts one request (always with
`"id": 1`) and reads the reply; every check catches every exception and answers a default instead:
`0`, `"0x0"`, `"unknown"`, or `True` for "syncing". `perform_health_check` runs the nine checks in
order, and one depends on another: the timestamp it reports is that of the block named
`hex(latest_block)`, where `latest_block` is read from the reply to `eth_blockNumber` by
`int(result, 16)`.

`healthCheck_block` follows the block number through the two conversions, for every node. When
the node writes the block number as `hex()` does, the timestamp request names the very string
the node sent. When it writes it some other readable way (upper case, leading zeros) the request
names the same number. When the reply cannot be read, the check reports block `0` and the
timestamp of block `0x0`.
-/

namespace NornRpc

/-- `HealthStatus`. -/
structure HealthStatus where
  isConnected : Bool
  isSyncing : Bool
  latestBlock : ℤ
  latestBlockTime : ℤ
  gasPrice : Json
  peerCount : ℤ
  pendingTransactions : ℕ
  networkId : Json
  clientVersion : Json
  timestamp : ℤ

namespace MonitoringClient

open Json

/-- The request each check posts. -/
def call (method : String) (params : List Json) : RpcCall := ⟨1, method, params⟩

/-- `result["result"]` of a reply that is a dict with a `result`: on anything else each check
raises, or skips to its default. -/
def resultOf : Option Json → Option Json
  | some (.obj reply) => getField "result" reply
  | _ => none

/-- `check_connectivity()`: the HTTP status of the reply, `none` when the post raises. -/
def checkConnectivity (status : Option ℕ) : Bool := status == some 200

/-- `check_sync_status()`: `result["result"] is not False`, and `True` on anything else. -/
def checkSyncStatus (node : RpcCall → Option Json) : Bool :=
  match resultOf (node (call "eth_syncing" [])) with
  | some (.bool false) => false
  | _ => true

/-- The two counters, `get_latest_block` and `get_peer_count`: `int(result["result"], 16)`, and
`0` on anything else. -/
def hexResultOf (node : RpcCall → Option Json) (method : String) : ℤ :=
  ((resultOf (node (call method []))).bind (pyIntJson 16)).getD 0

/-- `get_latest_block()`. -/
def getLatestBlock (node : RpcCall → Option Json) : ℤ := hexResultOf node "eth_blockNumber"

/-- `get_peer_count()`. -/
def getPeerCount (node : RpcCall → Option Json) : ℤ := hexResultOf node "net_peerCount"

/-- `get_block_timestamp(block_num)`: `int(result["result"]["timestamp"], 16)` when the result is
truthy, and `0` on anything else. -/
def getBlockTimestamp (node : RpcCall → Option Json) (blockNum : ℤ) : ℤ :=
  match resultOf (node (call "eth_getBlockByNumber" [.str (pyHex blockNum), .bool false])) with
  | some (.obj block) =>
    if block.isEmpty then 0 else ((getField "timestamp" block).bind (pyIntJson 16)).getD 0
  | _ => 0

/-- The three readers that return the result as it is, or a default: `get_gas_price`,
`get_network_id` and `get_client_version`. -/
def resultOr (node : RpcCall → Option Json) (method : String) (default : Json) : Json :=
  (resultOf (node (call method []))).getD default

/-- `get_gas_price()`. -/
def getGasPrice (node : RpcCall → Option Json) : Json := resultOr node "eth_gasPrice" (.str "0x0")

/-- `get_network_id()`. -/
def getNetworkId (node : RpcCall → Option Json) : Json :=
  resultOr node "net_version" (.str "unknown")

/-- `get_client_version()`. -/
def getClientVersion (node : RpcCall → Option Json) : Json :=
  resultOr node "web3_clientVersion" (.str "unknown")

/-- `len(value)` for the values `len` accepts: a list, a `str` (its code points) and a dict (its
distinct keys). -/
def pyLen : Json → Option ℕ
  | .arr xs => some xs.length
  | .str s => some s.length
  | .obj fields => some (fields.map Prod.fst).dedup.length
  | _ => none

/-- `get_pending_tx_count()`: `len(result["result"].get("transactions", []))` when the result is
truthy, and `0` on anything else. -/
def getPendingTxCount (node : RpcCall → Option Json) : ℕ :=
  match resultOf (node (call "eth_getBlockByNumber" [.str "pending", .bool false])) with
  | some (.obj block) =>
    if block.isEmpty then 0 else (pyLen ((getField "transactions" block).getD (.arr []))).getD 0
  | _ => 0

/-- `perform_health_check()`, with `time.time()` read as `now`. -/
def performHealthCheck (status : Option ℕ) (node : RpcCall → Option Json) (now : ℚ) :
    HealthStatus :=
  let latestBlock := getLatestBlock node
  { isConnected := checkConnectivity status
    isSyncing := checkSyncStatus node
    latestBlock := latestBlock
    latestBlockTime := getBlockTimestamp node latestBlock
    gasPrice := getGasPrice node
    peerCount := getPeerCount node
    pendingTransactions := getPendingTxCount node
    networkId := getNetworkId node
    clientVersion := getClientVersion node
    timestamp := pyInt now }

/-! ### The block of the timestamp -/

/-- **The timestamp is that of the block the node reported.** For every node: the health check
reports the timestamp the node gives for the block `hex(latest_block)`. When the node's block
number is a quantity as `hex()` writes it, that request names the very string the node sent; when
it is any other string `int(s, 16)` reads, the request names the same number; when the reply
cannot be read, the check reports block `0` and asks for block `0x0`. -/
theorem healthCheck_block (status : Option ℕ) (node : RpcCall → Option Json) (now : ℚ) :
    (performHealthCheck status node now).latestBlockTime =
        getBlockTimestamp node (performHealthCheck status node now).latestBlock ∧
      (∀ s n, resultOf (node (call "eth_blockNumber" [])) = some (.str s) →
        pyIntStr 16 s = some n →
        (performHealthCheck status node now).latestBlock = n ∧
        pyIntStr 16 (pyHex (performHealthCheck status node now).latestBlock) = pyIntStr 16 s) ∧
      (∀ l, resultOf (node (call "eth_blockNumber" [])) = some (.str ⟨'0' :: 'x' :: l⟩) →
        IsQuantityDigits l →
        pyHex (performHealthCheck status node now).latestBlock = ⟨'0' :: 'x' :: l⟩) ∧
      ((resultOf (node (call "eth_blockNumber" []))).bind (pyIntJson 16) = none →
        (performHealthCheck status node now).latestBlock = 0 ∧
        pyHex (performHealthCheck status node now).latestBlock = "0x0") := by
  have hblock : (performHealthCheck status node now).latestBlock =
      ((resultOf (node (call "eth_blockNumber" []))).bind (pyIntJson 16)).getD 0 := rfl
  refine ⟨rfl, fun s n hs hn => ?_, fun l hs hl => ?_, fun hnone => ?_⟩
  · have hread : (performHealthCheck status node now).latestBlock = n := by
      rw [hblock, hs]
      simp [pyIntJson, hn]
    exact ⟨hread, by rw [hread, pyIntStr_pyHex, hn]⟩
  · obtain ⟨hparse, hhex⟩ := pyHex_pyIntStr hl
    rw [hblock, hs]
    simpa [pyIntJson, hparse] using hhex
  · rw [hblock, hnone]
    exact ⟨rfl, rfl⟩

end MonitoringClient

end NornRpc
