import NornRpc.Json
import Mathlib.Data.List.Infix

/-!
# Batch requests

`BatchRpcClient` of `batch_rpc_requests.py`. Its `get_*_batch` methods all build one request per
item, with id `index + 1`, send them as one JSON-RPC batch, and read the reply; the HTTP exchange
is outside the model, and the decoded reply array, of any JSON values, is an argument. The
builders are one function with the method and the parameters of an item as arguments
(`batchRequests`): every batch numbers its requests `1, ..., n` in order (`batchRequests_ids`).

Every reader tests an element with `"result" in response` and then reads `response["result"]`
(`responseResult`). On a dict that is a key lookup; on a `str` it is a substring test, on a `list`
a membership test, and on anything else a `TypeError`; a `str` or a `list` that passes the test
then raises `TypeError` at the subscript. So `[None]` and `["result"]` raise, while `["x"]` is
skipped.

`get_blocks_batch`, `get_transactions_batch` and `get_storage_batch` read every element, in the
reply's order (`collectResults`). `get_balances_batch` instead reads `responses[index]` for each
address: `responses[index]` answers `addresses[index]`, and the ids are never read. So it reads
only the reply's first `len(addresses)` elements, and a short reply raises `IndexError` once they
are read, which the other readers never do (`balances_batch_fails_only_short`).

`batch_request` documents its reply as "in the same order as the requests". When it is, every
balance goes to the address its request asked about (`balances_paired_by_position`). JSON-RPC 2.0
lets a server answer a batch in any order, and for a permuted reply the balances are still paired
by position (`balances_permuted_counterexample`).
-/

namespace NornRpc

/-- A parameter of these requests: a string, or a boolean (the full-transactions flag of
`eth_getBlockByNumber`). -/
inductive JsonParam where
  | str (s : String)
  | bool (b : Bool)
  deriving DecidableEq, Repr

/-- A JSON-RPC request of a batch (`jsonrpc`, `method`, `params`, `id`). -/
structure RpcRequest where
  jsonrpc : String
  method : String
  params : List JsonParam
  id : ℕ
  deriving DecidableEq, Repr

namespace BatchRpcClient

/-- The requests a `get_*_batch` method builds: a `method` call on each item's parameters, with id
`index + 1`. -/
def batchRequests {α : Type} (method : String) (params : α → List JsonParam) (items : List α) :
    List RpcRequest :=
  items.enum.map fun (index, item) => ⟨"2.0", method, params item, index + 1⟩

/-- The requests of `get_balances_batch(addresses)`. -/
def balanceRequests (addresses : List String) : List RpcRequest :=
  batchRequests "eth_getBalance" (fun address => [.str address, .str "latest"]) addresses

/-- The requests of `get_blocks_batch(block_numbers)`. -/
def blockRequests (blockNumbers : List String) : List RpcRequest :=
  batchRequests "eth_getBlockByNumber" (fun blockNum => [.str blockNum, .bool false]) blockNumbers

/-- The requests of `get_transactions_batch(tx_hashes)`. -/
def transactionRequests (txHashes : List String) : List RpcRequest :=
  batchRequests "eth_getTransactionByHash" (fun txHash => [.str txHash]) txHashes

/-- The requests of `get_storage_batch(contract_address, positions)`. -/
def storageRequests (contractAddress : String) (positions : List String) : List RpcRequest :=
  batchRequests "eth_getStorageAt"
    (fun position => [.str contractAddress, .str position, .str "latest"]) positions

/-- The requests of `mixed_batch_request(chain_id, gas_price, block_number)`: one per flag set, in
this order, `request_id` counting up from `1`. -/
def mixedBatchRequests (chainId gasPrice blockNumber : Bool) : List RpcRequest :=
  let add := fun (acc : List RpcRequest × ℕ) (flag : Bool) (method : String) =>
    if flag then (acc.1 ++ [⟨"2.0", method, [], acc.2⟩], acc.2 + 1) else acc
  (add (add (add ([], 1) chainId "eth_chainId") gasPrice "eth_gasPrice") blockNumber
    "eth_blockNumber").1

/-- Why reading a reply raises. -/
inductive ReplyError where
  /-- `responses[index]` past the end of the reply: `IndexError: list index out of range`. -/
  | indexError
  /-- `"result" in response` on a value that is neither a container nor a `str`:
  `TypeError: argument of type '…' is not iterable`, naming the value's type. -/
  | notIterable (response : Json)
  /-- `response["result"]` on a `str` or a `list`. -/
  | typeError (message : String)

/-- `if "result" in response:` and then `response["result"]`: the result, `none` when the test
fails. -/
def responseResult : Json → Except ReplyError (Option Json)
  | .obj fields => .ok (Json.getField "result" fields)
  | .str s =>
    if "result".toList <:+: s.toList then
      .error (.typeError "string indices must be integers, not 'str'")
    else .ok none
  | .arr xs =>
    if xs.any (Json.pyEq (.str "result")) then
      .error (.typeError "list indices must be integers or slices, not str")
    else .ok none
  | response => .error (.notIterable response)

/-- The loop of `get_blocks_batch`, `get_transactions_batch` and `get_storage_batch`: the
`"result"` of each response that has one, in the reply's order. -/
def collectResults : List Json → Except ReplyError (List Json)
  | [] => .ok []
  | response :: responses => do
    let result ← responseResult response
    let results ← collectResults responses
    pure (result.toList ++ results)

/-- `get_blocks_batch`, given the array `batch_request` returned. -/
def getBlocksBatch (responses : List Json) : Except ReplyError (List Json) :=
  collectResults responses

/-- `get_transactions_batch`, given the array `batch_request` returned. -/
def getTransactionsBatch (responses : List Json) : Except ReplyError (List Json) :=
  collectResults responses

/-- `get_storage_batch`, given the array `batch_request` returned. -/
def getStorageBatch (responses : List Json) : Except ReplyError (List Json) :=
  collectResults responses

/-- The second loop of `get_balances_batch`, from position `index` on: `responses[index]` for each
address, its `"result"` appended when present. -/
def collectBalances (responses : List Json) :
    ℕ → List String → List (String × Json) → Except ReplyError (List (String × Json))
  | _, [], balances => .ok balances
  | index, address :: addresses, balances => do
    let response ← match responses[index]? with
      | some response => .ok response
      | none => .error .indexError
    let balances := match ← responseResult response with
      | some balance => balances ++ [(address, balance)]
      | none => balances
    collectBalances responses (index + 1) addresses balances

/-- `get_balances_batch(addresses)`, given the array `batch_request` returned. -/
def getBalancesBatch (addresses : List String) (responses : List Json) :
    Except ReplyError (List (String × Json)) :=
  collectBalances responses 0 addresses []

/-- `response["result"]` on a response that is a dict with a result. -/
def resultField : Json → Option Json
  | .obj fields => Json.getField "result" fields
  | _ => none

/-- `response.get("id")` on a response that is a dict. -/
def responseId : Json → Option Json
  | .obj fields => Json.getField "id" fields
  | _ => none

/-- The balances matched by id, as JSON-RPC 2.0 pairs a response with its request: each address
with the result of the response whose `id` is its request's. -/
def balancesById (addresses : List String) (responses : List Json) : List (String × Json) :=
  addresses.enum.filterMap fun (index, address) =>
    ((responses.find? fun r => (responseId r).any (Json.pyEq (.num ((index + 1 : ℕ) : ℚ)))).bind
      resultField).map ((address, ·))

theorem batchRequests_ids {α : Type} (method : String) (params : α → List JsonParam)
    (items : List α) :
    (batchRequests method params items).map RpcRequest.id = List.range' 1 items.length := by
  rw [batchRequests, List.map_map, List.range'_eq_map_range, ← List.enum_map_fst, List.map_map]
  refine List.map_congr_left fun ⟨i, item⟩ _ => ?_
  simp [Nat.add_comm]

theorem balanceRequests_ids (addresses : List String) :
    (balanceRequests addresses).map RpcRequest.id = List.range' 1 addresses.length :=
  batchRequests_ids _ _ _

/-! ## Reading a reply -/

theorem responseResult_ne_indexError (response : Json) :
    responseResult response ≠ .error .indexError := by
  cases response <;> simp only [responseResult] <;> (try split_ifs) <;> simp

theorem collectResults_ne_indexError : ∀ responses : List Json,
    collectResults responses ≠ .error .indexError
  | [] => nofun
  | response :: responses => by
    have h1 := responseResult_ne_indexError response
    have h2 := collectResults_ne_indexError responses
    simp only [collectResults, bind, Except.bind]
    revert h1 h2
    cases responseResult response
    · simpa using fun h _ => h
    · cases collectResults responses <;> simp [pure, Except.pure]

theorem collectBalances_snd (responses : List Json) (addresses : List String) :
    ∀ (index : ℕ) (balances : List (String × Json)), index ≤ responses.length →
      (collectBalances responses index addresses balances).map (List.map Prod.snd) =
        (collectResults ((responses.drop index).take addresses.length)).bind fun results =>
          if responses.length < index + addresses.length then .error .indexError
          else .ok (balances.map Prod.snd ++ results) := by
  induction addresses with
  | nil =>
    intro index balances hidx
    simp [collectBalances, collectResults, bind, Except.bind, Except.map, not_lt.mpr hidx]
  | cons address addresses ih =>
    intro index balances hidx
    rcases hidx.lt_or_eq with hlt | rfl
    · rw [List.drop_eq_getElem_cons hlt, List.length_cons, List.take_succ_cons]
      simp only [collectBalances, List.getElem?_eq_getElem hlt, collectResults, bind,
        Except.bind]
      cases responseResult responses[index] with
      | error e => rfl
      | ok result =>
        simp only [ih (index + 1) _ hlt]
        cases collectResults ((responses.drop (index + 1)).take addresses.length) with
        | error e => rfl
        | ok results =>
          simp only [pure, Except.pure, List.length_cons, ← Nat.add_assoc, Nat.add_right_comm]
          split_ifs <;> cases result <;> simp [Except.bind]
    · simp [collectBalances, collectResults, bind, Except.bind, Except.map]

/-- **Only `get_balances_batch` can raise `IndexError`.** For every address list and every reply
array: `get_balances_batch` reads the reply's first `len(addresses)` elements as
`get_storage_batch`'s loop does, raising what it raises on them, and its balances, read without
their addresses, are the results that loop collects from them; a reply with fewer elements than
there are addresses then raises `IndexError`. `get_blocks_batch`, `get_transactions_batch` and
`get_storage_batch` never raise `IndexError`. -/
theorem balances_batch_fails_only_short (addresses : List String) (responses : List Json) :
    (getBalancesBatch addresses responses).map (List.map Prod.snd) =
        (getStorageBatch (responses.take addresses.length)).bind (fun results =>
          if responses.length < addresses.length then .error .indexError else .ok results) ∧
      getBlocksBatch responses ≠ .error .indexError ∧
      getTransactionsBatch responses ≠ .error .indexError ∧
      getStorageBatch responses ≠ .error .indexError := by
  refine ⟨?_, collectResults_ne_indexError _, collectResults_ne_indexError _,
    collectResults_ne_indexError _⟩
  simpa using collectBalances_snd responses addresses 0 [] (Nat.zero_le _)

/- `[None]` and `["result"]` raise `TypeError`; `["x"]` is skipped. -/
example : getBalancesBatch ["0xa"] [.null] = .error (.notIterable .null) ∧
    getStorageBatch [.arr [.str "result"]] =
      .error (.typeError "list indices must be integers or slices, not str") ∧
    getStorageBatch [.str "x"] = .ok [] :=
  ⟨rfl, rfl, rfl⟩

/-! ## Pairing by position -/

theorem collectBalances_eq (responses : List Json)
    (hdict : ∀ r ∈ responses, responseResult r = .ok (resultField r)) (addresses : List String) :
    ∀ (index : ℕ) (balances : List (String × Json)),
      index + addresses.length ≤ responses.length →
      collectBalances responses index addresses balances =
        .ok (balances ++ (addresses.enumFrom index).filterMap fun (i, address) =>
          (responses[i]?.bind resultField).map ((address, ·))) := by
  induction addresses with
  | nil => intro index balances _; simp [collectBalances]
  | cons address addresses ih =>
    intro index balances hlen
    simp only [List.length_cons] at hlen
    have hidx : index < responses.length := by omega
    rw [collectBalances, List.enumFrom_cons, List.filterMap_cons, List.getElem?_eq_getElem hidx]
    simp only [bind, Except.bind, hdict _ (List.getElem_mem hidx)]
    cases h : resultField responses[index] <;>
      simp [h, List.getElem?_eq_getElem hidx, ih (index + 1) _ (by omega)]

theorem find_id_eq_getElem (responses : List Json) :
    ∀ (k i j : ℕ), responses.map responseId =
        (List.range' k responses.length).map (fun n => some (.num n)) →
      i < responses.length → j = k + i →
      responses.find? (fun r => (responseId r).any (Json.pyEq (.num j))) = responses[i]? := by
  induction responses with
  | nil => intro k i j _ hi; simp at hi
  | cons r rs ih =>
    intro k i j hids hi hj
    simp only [List.map_cons, List.length_cons, List.range'_succ, List.cons.injEq] at hids
    rw [List.find?_cons, hids.1]
    cases i with
    | zero => simp [hj]
    | succ i =>
      have hne : ((j : ℚ) == (k : ℚ)) = false := beq_false_of_ne (by norm_cast; omega)
      simp only [Option.any_some, Json.pyEq_num_num, hne, List.getElem?_cons_succ]
      exact ih (k + 1) i j hids.2 (by simpa using hi) (by omega)

theorem responseResult_of_responseId {r : Json} (h : (responseId r).isSome) :
    responseResult r = .ok (resultField r) := by
  cases r <;> first | rfl | simp [responseId] at h

/-- **The balances are paired by position, and so with the right addresses when the reply is in
request order.** On a reply of dicts at least as long as the address list,
`get_balances_batch` returns `(addresses[i], responses[i]["result"])` for each `i` whose response
has a result, whatever the ids; when response `i` is the one of id `i + 1`, as `batch_request`
documents, that is the result of the response whose id is `i + 1`. -/
theorem balances_paired_by_position (addresses : List String) (responses : List Json) :
    ((∀ r ∈ responses, ∃ fields, r = .obj fields) → addresses.length ≤ responses.length →
      getBalancesBatch addresses responses =
        .ok (addresses.enum.filterMap fun (i, address) =>
          (responses[i]?.bind resultField).map ((address, ·)))) ∧
    (responses.map responseId =
        (balanceRequests addresses).map (fun request => some (.num request.id)) →
      getBalancesBatch addresses responses = .ok (balancesById addresses responses)) := by
  have hpos : (∀ r ∈ responses, responseResult r = .ok (resultField r)) →
      addresses.length ≤ responses.length →
      getBalancesBatch addresses responses = .ok (addresses.enum.filterMap fun (i, address) =>
          (responses[i]?.bind resultField).map ((address, ·))) := fun hdict hlen => by
    simpa using collectBalances_eq responses hdict addresses 0 [] (by simpa using hlen)
  refine ⟨fun hdict => hpos fun r hr => by obtain ⟨f, rfl⟩ := hdict r hr; rfl, fun hids => ?_⟩
  replace hids : responses.map responseId =
      (List.range' 1 addresses.length).map (fun n => some (.num n)) := by
    rw [hids, ← balanceRequests_ids, List.map_map]
    rfl
  have hlen : responses.length = addresses.length := by simpa using congrArg List.length hids
  have hdict : ∀ r ∈ responses, responseResult r = .ok (resultField r) := fun r hr => by
    obtain ⟨n, -, hn⟩ := List.mem_map.mp (hids ▸ List.mem_map_of_mem responseId hr)
    exact responseResult_of_responseId (by rw [← hn]; rfl)
  rw [hpos hdict hlen.ge, balancesById, List.enum]
  congr 1
  refine List.filterMap_congr fun ⟨i, address⟩ hmem => ?_
  have hi := (List.mem_enumFrom hmem).2.1
  dsimp only
  rw [find_id_eq_getElem responses 1 i (i + 1) (by rw [hids, hlen]) (by omega) (by omega)]

/-- **Balances are paired by position, not by id**: a reply listing the second request's response
first gives the first address the balance of the second, where matching by id would not. -/
theorem balances_permuted_counterexample :
    balanceRequests ["0xa", "0xb"] =
        [⟨"2.0", "eth_getBalance", [.str "0xa", .str "latest"], 1⟩,
          ⟨"2.0", "eth_getBalance", [.str "0xb", .str "latest"], 2⟩] ∧
      getBalancesBatch ["0xa", "0xb"]
          [.obj [("jsonrpc", .str "2.0"), ("id", .num 2), ("result", .str "0x2")],
            .obj [("jsonrpc", .str "2.0"), ("id", .num 1), ("result", .str "0x1")]] =
        .ok [("0xa", .str "0x2"), ("0xb", .str "0x1")] ∧
      balancesById ["0xa", "0xb"]
          [.obj [("jsonrpc", .str "2.0"), ("id", .num 2), ("result", .str "0x2")],
            .obj [("jsonrpc", .str "2.0"), ("id", .num 1), ("result", .str "0x1")]] =
        [("0xa", .str "0x1"), ("0xb", .str "0x2")] :=
  ⟨rfl, rfl, by with_unfolding_all rfl⟩

end BatchRpcClient

end NornRpc
