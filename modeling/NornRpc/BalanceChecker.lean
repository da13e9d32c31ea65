import NornRpc.RpcClient

/-!
# Checking many balances

`BalanceChecker` of `balance_checker.py`. `get_balance` posts one `eth_getBalance` request,
reads `int(result.get("result", "0x0"), 16)` wei, and converts it with `wei_to_ether`, `wei / 1e18`
in floats: the `int` is converted first, and raises `OverflowError` when it rounds past the
largest double (`weiToEther_eq`). `check_multiple_accounts` queries the addresses in turn, one
request each, and files each outcome under its address in a dict, a failure included: the loop
catches every exception. `track_balance_history` does the same over three blocks.

A Python dict keeps one entry per key, and an assignment to a key already there replaces the
value in place (`setItem`). So over any address list and any node (`checkMultipleAccounts_spec`):
the loop sends one request per address, under consecutive ids, and returns one entry per
distinct address, holding the outcome of that address's last query. An address given twice is
queried twice and reported once. The `ether` value, a float computed from `wei`, and the status
The status mark
follows the outcome, so an entry is the outcome: `(wei, ether)` or the failure.
-/

namespace NornRpc

/-- `d[key] = value` on a dict kept as its items in insertion order: a key already there keeps
its place. -/
def setItem {α : Type} (d : List (String × α)) (key : String) (value : α) :
    List (String × α) :=
  if key ∈ d.map Prod.fst then d.map fun m => if m.1 = key then (key, value) else m
  else d ++ [(key, value)]

/-- `d.get(key)`: the value under the key. -/
def lookupItem {α : Type} : List (String × α) → String → Option α
  | [], _ => none
  | (k, v) :: d, key => if k = key then some v else lookupItem d key

theorem lookupItem_isSome {α : Type} (d : List (String × α)) (key : String) :
    (lookupItem d key).isSome ↔ key ∈ d.map Prod.fst := by
  induction d with
  | nil => simp [lookupItem]
  | cons m d ih =>
    obtain ⟨k, v⟩ := m
    by_cases hk : k = key
    · simp [lookupItem, hk]
    · simp only [lookupItem, hk, if_false, ih, List.map_cons, List.mem_cons]
      exact ⟨Or.inr, fun h => h.resolve_left (Ne.symm hk)⟩

theorem lookupItem_replace {α : Type} (d : List (String × α)) (key key' : String) (value : α) :
    lookupItem (d.map fun m => if m.1 = key then (key, value) else m) key' =
      if key' = key then (if key ∈ d.map Prod.fst then some value else none)
      else lookupItem d key' := by
  induction d with
  | nil => simp [lookupItem]
  | cons m d ih =>
    obtain ⟨k, v⟩ := m
    by_cases hk : k = key
    · rw [List.map_cons, if_pos hk]
      by_cases h' : key' = key
      · simp [lookupItem, h', hk]
      · rw [lookupItem, if_neg (Ne.symm h'), ih, if_neg h', if_neg h', lookupItem,
          if_neg (hk ▸ Ne.symm h')]
    · rw [List.map_cons, if_neg hk, lookupItem, ih]
      by_cases h' : key' = key
      · subst h'
        have hne : key' ≠ k := Ne.symm hk
        rw [if_neg hk, if_pos rfl, if_pos rfl]
        simp only [List.map_cons, List.mem_cons, hne, false_or]
      · simp [lookupItem, h']

theorem lookupItem_append {α : Type} (d : List (String × α)) (key key' : String) (value : α) :
    lookupItem (d ++ [(key, value)]) key' =
      (lookupItem d key').or (if key = key' then some value else none) := by
  induction d with
  | nil => simp [lookupItem]
  | cons m d ih =>
    obtain ⟨k, v⟩ := m
    by_cases hk : k = key' <;> simp [lookupItem, hk, ih]

theorem lookupItem_setItem {α : Type} (d : List (String × α)) (key key' : String) (value : α) :
    lookupItem (setItem d key value) key' =
      if key' = key then some value else lookupItem d key' := by
  unfold setItem
  split_ifs with hmem hk hk
  · rw [lookupItem_replace, if_pos hk, if_pos hmem]
  · rw [lookupItem_replace, if_neg hk]
  · subst hk
    have hnone : lookupItem d key' = none := by
      simpa using mt (lookupItem_isSome d key').mp hmem
    simp [lookupItem_append, hnone]
  · simp [lookupItem_append, Ne.symm hk]

theorem keys_setItem {α : Type} (d : List (String × α)) (key : String) (value : α) :
    (setItem d key value).map Prod.fst =
      if key ∈ d.map Prod.fst then d.map Prod.fst else d.map Prod.fst ++ [key] := by
  unfold setItem
  split_ifs with hmem
  · simp only [List.map_map]
    exact List.map_congr_left fun m _ => by by_cases h : m.1 = key <;> simp [h]
  · simp

variable (R : Rounding)

/-- `wei_to_ether(wei)`: `wei / 1e18`. -/
def weiToEther (wei : ℤ) : Except PyError PyFloat := do
  let w ← PyFloat.ofInt R wei
  PyFloat.div R w (R.float (10 ^ 18))

theorem weiToEther_eq (wei : ℤ) : weiToEther R wei =
    if R.overflows (R.round wei) then .error (.overflowError "int too large to convert to float")
    else .ok (PyFloat.trueDiv R (.num (R.round wei)) (R.float (10 ^ 18))) := by
  have h18 : R.float (10 ^ 18) ≠ .num 0 := fun h => by
    have h53 : (2 : ℚ) ^ 53 ≤ R.round (10 ^ 18) := by
      have := R.round_mono (show ((2 ^ 53 : ℤ) : ℚ) ≤ 10 ^ 18 by norm_num)
      rwa [R.round_intCast _ (by norm_num), Int.cast_pow, Int.cast_ofNat] at this
    have h0 := (Rounding.float_eq_num R).mp h
    linarith [h0.2]
  rw [weiToEther, PyFloat.ofInt_eq]
  split_ifs <;> simp [bind, Except.bind, PyFloat.div, h18]

/-- `balance_wei = int(result.get("result", "0x0"), 16)` and `wei_to_ether(balance_wei)` on the
reply to `get_balance`'s request. -/
def readBalance (reply : Option Json) : Except Failure (ℤ × PyFloat) := do
  let wei ← readQuantity reply
  let ether ← (weiToEther R wei).mapError .floatError
  pure (wei, ether)

/-- The checker's state: `request_id`. -/
structure BalanceChecker where
  requestId : ℕ

namespace BalanceChecker

/-- `get_balance(address, block)`: the balance in wei and in ether, or the failure. -/
def getBalance (c : BalanceChecker) (node : RpcCall → Option Json) (address block : String) :
    BalanceChecker × Except Failure (ℤ × PyFloat) :=
  let (requestId, call) := makeRequest c.requestId "eth_getBalance" [.str address, .str block]
  (⟨requestId⟩, readBalance R (node call))

/-- One turn of `check_multiple_accounts`: query the address and file the outcome. -/
def checkAccount (node : RpcCall → Option Json)
    (acc : BalanceChecker × List (String × Except Failure (ℤ × PyFloat))) (address : String) :
    BalanceChecker × List (String × Except Failure (ℤ × PyFloat)) :=
  let (c, outcome) := acc.1.getBalance R node address "latest"
  (c, setItem acc.2 address outcome)

/-- `check_multiple_accounts(addresses)`. -/
def checkMultipleAccounts (c : BalanceChecker) (node : RpcCall → Option Json)
    (addresses : List String) : BalanceChecker × List (String × Except Failure (ℤ × PyFloat)) :=
  addresses.foldl (checkAccount R node) (c, [])

/-- `track_balance_history(address)`: the balance at blocks `0x0`, `0x1` and `latest`, `None`
where the query fails. -/
def trackBalanceHistory (c : BalanceChecker) (node : RpcCall → Option Json) (address : String) :
    BalanceChecker × List (String × Option (ℤ × PyFloat)) :=
  ["0x0", "0x1", "latest"].foldl (fun acc block =>
    let (c, outcome) := acc.1.getBalance R node address block
    (c, setItem acc.2 block (match outcome with
      | .ok balance => some balance
      | .error _ => none))) (c, [])

/-! ### Over any address list -/

/-- The query `check_multiple_accounts` sends for an address under request id `id`. -/
def balanceCall (id : ℕ) (address : String) : RpcCall :=
  ⟨id, "eth_getBalance", [.str address, .str "latest"]⟩

theorem foldl_checkAccount_append (node : RpcCall → Option Json)
    (acc : BalanceChecker × List (String × Except Failure (ℤ × PyFloat))) (addresses : List String)
    (a : String) :
    (addresses ++ [a]).foldl (checkAccount R node) acc =
      let r := addresses.foldl (checkAccount R node) acc
      (⟨r.1.requestId + 1⟩,
        setItem r.2 a (readBalance R (node (balanceCall (r.1.requestId + 1) a)))) := by
  rw [List.foldl_append]
  rfl

theorem foldl_checkAccount_requestId (node : RpcCall → Option Json)
    (acc : BalanceChecker × List (String × Except Failure (ℤ × PyFloat)))
    (addresses : List String) :
    (addresses.foldl (checkAccount R node) acc).1.requestId =
      acc.1.requestId + addresses.length := by
  induction addresses using List.reverseRecOn with
  | nil => rfl
  | append_singleton addresses a ih =>
    rw [foldl_checkAccount_append]
    simp [ih, Nat.add_assoc]

/-- **`check_multiple_accounts` over any address list.** In every rounding and for every node: one
request per address, under request ids `request_id + 1`, `request_id + 2`, …; the dict has one
entry per distinct address and no other; and the entry of an address holds the outcome of its
last query. -/
theorem checkMultipleAccounts_spec (c : BalanceChecker) (node : RpcCall → Option Json)
    (addresses : List String) :
    (c.checkMultipleAccounts R node addresses).1.requestId = c.requestId + addresses.length ∧
      ((c.checkMultipleAccounts R node addresses).2.map Prod.fst).Nodup ∧
      (∀ a, (lookupItem (c.checkMultipleAccounts R node addresses).2 a).isSome ↔
        a ∈ addresses) ∧
      ∀ pre a post, addresses = pre ++ a :: post → a ∉ post →
        lookupItem (c.checkMultipleAccounts R node addresses).2 a =
          some (readBalance R (node (balanceCall (c.requestId + pre.length + 1) a))) := by
  unfold checkMultipleAccounts
  refine ⟨by rw [foldl_checkAccount_requestId], ?_, ?_, ?_⟩
  · induction addresses using List.reverseRecOn with
    | nil => exact List.nodup_nil
    | append_singleton addresses a ih =>
      rw [foldl_checkAccount_append]
      dsimp only
      rw [keys_setItem]
      split_ifs with h
      · exact ih
      · exact ih.append (List.nodup_singleton a) (List.disjoint_singleton.mpr h)
  · intro a
    induction addresses using List.reverseRecOn with
    | nil => simp [lookupItem]
    | append_singleton addresses b ih =>
      rw [foldl_checkAccount_append]
      dsimp only
      rw [lookupItem_setItem]
      by_cases hab : a = b
      · simp [hab]
      · simp [hab, ih]
  · intro pre a post
    induction post using List.reverseRecOn generalizing addresses with
    | nil =>
      rintro rfl -
      simp only [foldl_checkAccount_append]
      rw [lookupItem_setItem, if_pos rfl, foldl_checkAccount_requestId]
    | append_singleton post b ih =>
      rintro rfl hpost
      have hab : a ≠ b := fun h => hpost (by simp [h])
      rw [← List.cons_append, ← List.append_assoc, foldl_checkAccount_append]
      dsimp only
      rw [lookupItem_setItem, if_neg hab]
      exact ih _ rfl fun h => hpost (List.mem_append_left _ h)

end BalanceChecker

end NornRpc
