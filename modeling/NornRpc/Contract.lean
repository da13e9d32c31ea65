import NornRpc.PyStr
import NornRpc.RpcClient

/-!
# ERC-20 calldata

`ContractClient` of `contract_interaction.py` writes the calldata of ERC-20 calls by hand: the
four-byte selector, then each argument as a 32-byte word of 64 hex digits. An address is
lowercased, stripped of `0x` and padded by `zfill(64)`; an amount is `int(amount_wei)`, written by
`hex(...)[2:].zfill(64)`. `decode_uint256` reads a word back with `int(..., 16)`.

For an address of `0x` and 40 hex digits the address word is a well-formed word that decodes to
the address's value (`addressWord_spec`). The amount word is well formed exactly when
`0 ≤ amount < 2 ^ 256` (`amountWord_isHexWord_iff`), and then decodes to the amount
(`amountWord_spec`). Nothing rejects an amount outside that range. `hex` of a negative number
starts with `-0x`, so after `[2:]` the word keeps an `x`: `hex(-1)[2:].zfill(64)` is 62 zeros and
`x1`, which `decode_uint256` reads as `1`. The hex of `2 ^ 256` or more has more than 64 digits,
and `zfill` leaves it as it is (`transfer_out_of_range_encoded`). `transfer_calldata_spec` puts the
cases together.

The client's requests (`call_function`, which `get_erc20_balance` calls with the `balanceOf`
calldata, `get_storage_at`, `get_code`) post one request each and return the reply's `result`,
raising on an `error` or on neither (`readReply`).
-/

namespace NornRpc.ContractClient

/-- A 32-byte ABI word written in hex: 64 hex digits. -/
def IsHexWord (w : String) : Prop := w.length = 64 ∧ ∀ c ∈ w.data, c ∈ hexdigits

instance : DecidablePred IsHexWord := fun w =>
  inferInstanceAs (Decidable (w.length = 64 ∧ ∀ c ∈ w.data, c ∈ hexdigits))

/-- The calldata of `get_erc20_balance(token_address, account_address)`: `balanceOf(address)`. -/
def getErc20BalanceData (accountAddress : String) : String :=
  let paddedAddress := pyZfill (pyReplace (pyLower accountAddress) '0' 'x' "") 64
  "0x70a08231" ++ paddedAddress

/-- `encode_erc20_transfer(recipient, amount_wei)`; `none` is the `ValueError` of `int()`. -/
def encodeErc20Transfer (recipient amountWei : String) : Option String := do
  let data := "0xa9059cbb"
  let paddedRecipient := pyZfill (pyReplace (pyLower recipient) '0' 'x' "") 64
  let data := data ++ paddedRecipient
  let amountInt ← pyIntStr 10 amountWei
  let amountHex := pyZfill (pySliceFrom (pyHex amountInt) 2) 64
  let data := data ++ amountHex
  return data

/-- `decode_uint256(hex_str)`; `none` is the `ValueError` of `int()`. -/
def decodeUint256 (hexStr : String) : Option ℤ :=
  let cleaned := pyReplace hexStr '0' 'x' ""
  if cleaned.data = [] then some 0 else pyIntStr 16 cleaned

theorem encodeErc20Transfer_eq (recipient amountWei : String) :
    encodeErc20Transfer recipient amountWei = (pyIntStr 10 amountWei).map fun n =>
      "0xa9059cbb" ++ pyZfill (pyReplace (pyLower recipient) '0' 'x' "") 64 ++
        pyZfill (pySliceFrom (pyHex n) 2) 64 := by
  unfold encodeErc20Transfer
  cases pyIntStr 10 amountWei <;> rfl

theorem decodeUint256_hex {l : List Char} (hne : l ≠ []) (hl : ∀ c ∈ l, c ∈ hexdigits) :
    decodeUint256 ⟨l⟩ = some (digitsValue 16 l : ℤ) := by
  rw [decodeUint256, pyReplace_of_not_mem fun h => x_not_mem_hexdigits (hl _ h), if_neg hne,
    pyIntStr_hex hne hl]

theorem decodeUint256_hexPrefix {l : List Char} (hne : l ≠ []) (hl : ∀ c ∈ l, c ∈ hexdigits) :
    decodeUint256 ⟨'0' :: 'x' :: l⟩ = pyIntStr 16 ⟨'0' :: 'x' :: l⟩ := by
  rw [decodeUint256, pyReplace_hexPrefix fun h => x_not_mem_hexdigits (hl _ h), if_neg hne,
    pyIntStr_hex hne hl, pyIntStr_hexPrefix hne hl]

theorem zeroPadded_word {k : ℕ} {l : List Char} (hlen : k + l.length = 64) (hne : l ≠ [])
    (hl : ∀ c ∈ l, c ∈ hexdigits) :
    IsHexWord ⟨List.replicate k '0' ++ l⟩ ∧
      decodeUint256 ⟨List.replicate k '0' ++ l⟩ = some (digitsValue 16 l : ℤ) := by
  have hword : ∀ c ∈ List.replicate k '0' ++ l, c ∈ hexdigits := by
    simp only [List.mem_append, List.mem_replicate]
    rintro c (⟨-, rfl⟩ | hc)
    · exact zero_mem_hexdigits
    · exact hl c hc
  refine ⟨⟨by simp [String.length, hlen], hword⟩, ?_⟩
  rw [decodeUint256_hex (by simp [hne]) hword, digitsValue_replicate_zero]

/-! ### The address word -/

/-- **The address word.** For an address of `0x` and 40 hex digits, the padded address is 24 zeros
and the lowercased digits: a well-formed word, which decodes to `int(address, 16)`. -/
theorem addressWord_spec {address : String} {digits : List Char}
    (haddr : address.data = '0' :: 'x' :: digits) (hlen : digits.length = 40)
    (hhex : ∀ c ∈ digits, c ∈ hexdigits) :
    (pyZfill (pyReplace (pyLower address) '0' 'x' "") 64).data =
        List.replicate 24 '0' ++ digits.map Char.toLower ∧
      IsHexWord (pyZfill (pyReplace (pyLower address) '0' 'x' "") 64) ∧
      decodeUint256 (pyZfill (pyReplace (pyLower address) '0' 'x' "") 64) =
        pyIntStr 16 address := by
  have hL : ∀ c ∈ digits.map Char.toLower, c ∈ hexdigits := by
    simp only [List.mem_map]
    rintro _ ⟨c, hc, rfl⟩
    exact (hexDigit_of_mem (hhex c hc)).lower_mem
  have hrep : pyReplace (pyLower address) '0' 'x' "" = ⟨digits.map Char.toLower⟩ := by
    rw [show pyLower address = ⟨'0' :: 'x' :: digits.map Char.toLower⟩ from
      String.ext (by rw [pyLower, haddr]; rfl),
      pyReplace_hexPrefix fun h => x_not_mem_hexdigits (hL _ h)]
  have hword : pyZfill (pyReplace (pyLower address) '0' 'x' "") 64 =
      ⟨List.replicate 24 '0' ++ digits.map Char.toLower⟩ := by
    rw [hrep, pyZfill_hex (by simp [hlen]) hL]
    simp [hlen]
  have hdne : digits ≠ [] := List.ne_nil_of_length_pos (by omega)
  obtain ⟨hw, hdec⟩ := zeroPadded_word (show 24 + (digits.map Char.toLower).length = 64 by
    simp [hlen]) (by simpa using hdne) hL
  refine ⟨congrArg String.data hword, hword ▸ hw, ?_⟩
  rw [hword, hdec, digitsValue_lower hhex, show address = ⟨'0' :: 'x' :: digits⟩ from
    String.ext haddr, pyIntStr_hexPrefix hdne hhex]

/-! ### The amount word -/

/-- **The amount word of an amount in range.** For `0 ≤ n < 2 ^ 256`, `hex(n)[2:].zfill(64)` is
a well-formed word that decodes to `n`. -/
theorem amountWord_spec {n : ℤ} (h0 : 0 ≤ n) (hlt : n < 2 ^ 256) :
    IsHexWord (pyZfill (pySliceFrom (pyHex n) 2) 64) ∧
      decodeUint256 (pyZfill (pySliceFrom (pyHex n) 2) 64) = some n := by
  have hlen := (hexDigits_length_le n.toNat (by norm_num : 0 < 64)).mpr (by omega)
  rw [pySliceFrom_pyHex_of_nonneg h0, pyZfill_hex hlen (hexDigits_mem _)]
  obtain ⟨hw, hdec⟩ := zeroPadded_word (show 64 - (hexDigits n.toNat).length +
    (hexDigits n.toNat).length = 64 by omega) (hexDigits_ne_nil _) (hexDigits_mem _)
  rw [digitsValue_hexDigits, Int.toNat_of_nonneg h0] at hdec
  exact ⟨hw, hdec⟩

/-- **The amount word is a word exactly in range.** A negative amount leaves the `x` of `-0x` in
the word; an amount of `2 ^ 256` or more has more than 64 hex digits, which `zfill` keeps. -/
theorem amountWord_isHexWord_iff (n : ℤ) :
    IsHexWord (pyZfill (pySliceFrom (pyHex n) 2) 64) ↔ 0 ≤ n ∧ n < 2 ^ 256 := by
  refine ⟨fun hw => ?_, fun h => (amountWord_spec h.1 h.2).1⟩
  rcases lt_or_le n 0 with hneg | h0
  · -- the word keeps the `x` of `-0x`
    refine absurd (hw.2 'x' (mem_pyZfill ?_)) x_not_mem_hexdigits
    simp [pySliceFrom_pyHex_of_neg hneg]
  · -- more than 64 hex digits would stay more than 64 characters
    have hlen : (hexDigits n.toNat).length ≤ 64 := by
      by_contra hlong
      have h64 := hw.1
      rw [pySliceFrom_pyHex_of_nonneg h0,
        pyZfill_of_le (show 64 ≤ String.length ⟨_⟩ from (not_le.mp hlong).le)] at h64
      exact hlong h64.le
    have := (hexDigits_length_le _ (by norm_num)).mp hlen
    exact ⟨h0, by omega⟩

/-! ### The calldata -/

/-- **The transfer calldata.** For a recipient of `0x` and 40 hex digits, `encode_erc20_transfer`
fails exactly when `int(amount_wei)` does. Otherwise the calldata is the selector, the recipient's
word, which decodes to the recipient, and the amount's word, which is a word exactly when the
amount lies in `[0, 2 ^ 256)` and then decodes to the amount. -/
theorem transfer_calldata_spec {recipient : String} {digits : List Char}
    (hrec : recipient.data = '0' :: 'x' :: digits) (hlen : digits.length = 40)
    (hhex : ∀ c ∈ digits, c ∈ hexdigits) (amountWei : String) :
    (encodeErc20Transfer recipient amountWei = none ↔ pyIntStr 10 amountWei = none) ∧
      ∀ n, pyIntStr 10 amountWei = some n →
        ∃ w1 w2, encodeErc20Transfer recipient amountWei = some ("0xa9059cbb" ++ w1 ++ w2) ∧
          IsHexWord w1 ∧ decodeUint256 w1 = pyIntStr 16 recipient ∧
          (IsHexWord w2 ↔ 0 ≤ n ∧ n < 2 ^ 256) ∧
          (0 ≤ n → n < 2 ^ 256 → decodeUint256 w2 = some n) := by
  obtain ⟨-, hw1, hdec1⟩ := addressWord_spec hrec hlen hhex
  refine ⟨by rw [encodeErc20Transfer_eq, Option.map_eq_none'], fun n hn => ?_⟩
  exact ⟨_, _, by rw [encodeErc20Transfer_eq, hn]; rfl, hw1, hdec1, amountWord_isHexWord_iff n,
    fun h0 hlt => (amountWord_spec h0 hlt).2⟩

theorem transfer_calldata_spec_dead :
    ("0x000000000000000000000000000000000000dEaD".data =
        '0' :: 'x' :: "000000000000000000000000000000000000dEaD".data ∧
      "000000000000000000000000000000000000dEaD".data.length = 40 ∧
      ∀ c ∈ "000000000000000000000000000000000000dEaD".data, c ∈ hexdigits) ∧
    ((encodeErc20Transfer "0x000000000000000000000000000000000000dEaD" "1000" = none ↔
        pyIntStr 10 "1000" = none) ∧
      ∀ n, pyIntStr 10 "1000" = some n →
        ∃ w1 w2, encodeErc20Transfer "0x000000000000000000000000000000000000dEaD" "1000" =
            some ("0xa9059cbb" ++ w1 ++ w2) ∧
          IsHexWord w1 ∧
          decodeUint256 w1 = pyIntStr 16 "0x000000000000000000000000000000000000dEaD" ∧
          (IsHexWord w2 ↔ 0 ≤ n ∧ n < 2 ^ 256) ∧
          (0 ≤ n → n < 2 ^ 256 → decodeUint256 w2 = some n)) :=
  ⟨⟨rfl, rfl, by decide⟩, @transfer_calldata_spec "0x000000000000000000000000000000000000dEaD"
    "000000000000000000000000000000000000dEaD".data rfl rfl (by decide) "1000"⟩


theorem not_two_words {w1 w2 : String} (hw1 : w1.length = 64) (hw2 : ¬ IsHexWord w2) :
    ¬ ∃ v1 v2, "0xa9059cbb" ++ w1 ++ w2 = "0xa9059cbb" ++ v1 ++ v2 ∧ IsHexWord v1 ∧
      IsHexWord v2 := by
  rintro ⟨v1, v2, heq, hv1, hv2⟩
  have hdata := congrArg String.data heq
  simp only [String.data_append, List.append_assoc, List.append_cancel_left_eq] at hdata
  obtain ⟨-, h2⟩ := List.append_inj hdata (hw1.trans hv1.1.symm)
  exact hw2 (String.ext h2 ▸ hv2)

theorem encode_out_of_range {recipient amountWei : String} {n : ℤ}
    (hrec : (pyZfill (pyReplace (pyLower recipient) '0' 'x' "") 64).length = 64)
    (hn : pyIntStr 10 amountWei = some n) (hout : ¬ (0 ≤ n ∧ n < 2 ^ 256)) :
    ∃ data, encodeErc20Transfer recipient amountWei = some data ∧
      ¬ ∃ w1 w2, data = "0xa9059cbb" ++ w1 ++ w2 ∧ IsHexWord w1 ∧ IsHexWord w2 := by
  refine ⟨_, by rw [encodeErc20Transfer_eq, hn]; rfl, ?_⟩
  rintro ⟨w1, w2, heq, hw⟩
  exact not_two_words hrec (mt (amountWord_isHexWord_iff n).mp hout) ⟨w1, w2, heq, hw⟩

/-- **Amounts out of range are encoded, not rejected.** To the address `0x…dEaD`, the amount `-1`
is written as 62 zeros and `x1`, which `decode_uint256` reads as `1`; neither `-1` nor `2 ^ 256`
gives the selector followed by two 64-digit hex words. -/
theorem transfer_out_of_range_encoded :
    encodeErc20Transfer "0x000000000000000000000000000000000000dEaD" "-1" =
        some ("0xa9059cbb" ++ "000000000000000000000000000000000000000000000000000000000000dead" ++
          "00000000000000000000000000000000000000000000000000000000000000x1") ∧
      decodeUint256 "00000000000000000000000000000000000000000000000000000000000000x1" = some 1 ∧
      ∀ amountWei ∈ ["-1",
          "115792089237316195423570985008687907853269984665640564039457584007913129639936"],
        ∃ data, encodeErc20Transfer "0x000000000000000000000000000000000000dEaD" amountWei =
          some data ∧
        ¬ ∃ w1 w2, data = "0xa9059cbb" ++ w1 ++ w2 ∧ IsHexWord w1 ∧ IsHexWord w2 := by
  have hrec := (@addressWord_spec "0x000000000000000000000000000000000000dEaD"
    "000000000000000000000000000000000000dEaD".data rfl rfl (by decide)).2.1.1
  have hminus : pyIntStr 10 "-1" = some (-1) := by decide
  have hmax : pyIntStr 10
      "115792089237316195423570985008687907853269984665640564039457584007913129639936" =
        some (2 ^ 256) := by
    set_option maxRecDepth 2000 in decide
  have hhex : pyHex (-1) = "-0x1" := by simp [pyHex, hexDigits, Nat.digitChar]
  refine ⟨?_, by decide, ?_⟩
  · rw [encodeErc20Transfer_eq, hminus, Option.map_some', hhex]
    decide
  · rw [List.forall_mem_cons, List.forall_mem_singleton]
    exact ⟨encode_out_of_range hrec hminus (by norm_num),
      encode_out_of_range hrec hmax (by norm_num)⟩

/-! ### The requests

`call_function`, `get_storage_at` and `get_code` each post one request with `"id": 1` and read the
reply alike. -/

/-- The reply reader of `call_function`, `get_storage_at` and `get_code`: `result["result"]` when
the reply has a `result`; otherwise `Exception(f"RPC Error: {result['error']}")` when it has an
`error`, and `Exception("Unexpected response format")` when it has neither. On a list `in` looks
for an element and on a `str` for a substring, and `[...]` on either raises; on any other value
`in` raises. -/
def readReply : Option Json → Except Failure Json
  | none => .error .requestFailed
  | some (.obj reply) =>
    match Json.getField "result" reply, Json.getField "error" reply with
    | some result, _ => .ok result
    | none, some error => .error (.rpcError "RPC Error: " error)
    | none, none => .error (.exception "Unexpected response format")
  | some (.arr xs) =>
    if xs.any (·.pyEq (.str "result")) || xs.any (·.pyEq (.str "error")) then .error .replyNotDict
    else .error (.exception "Unexpected response format")
  | some (.str s) =>
    if "result".data <:+: s.data ∨ "error".data <:+: s.data then .error .replyNotDict
    else .error (.exception "Unexpected response format")
  | some _ => .error .replyNotDict

/-- `call_function(from_address, contract_address, data)`: an `eth_call` at `latest`. -/
def callFunction (node : RpcCall → Option Json) (fromAddress contractAddress data : String) :
    Except Failure Json :=
  readReply (node ⟨1, "eth_call",
    [.obj [("from", .str fromAddress), ("to", .str contractAddress), ("data", .str data)],
      .str "latest"]⟩)

/-- `get_erc20_balance(token_address, account_address)`: `balanceOf(account_address)` called from
the zero address. -/
def getErc20Balance (node : RpcCall → Option Json) (tokenAddress accountAddress : String) :
    Except Failure Json :=
  callFunction node "0x0000000000000000000000000000000000000000" tokenAddress
    (getErc20BalanceData accountAddress)

/-- `get_storage_at(contract_address, position)`. -/
def getStorageAt (node : RpcCall → Option Json) (contractAddress position : String) :
    Except Failure Json :=
  readReply (node ⟨1, "eth_getStorageAt", [.str contractAddress, .str position, .str "latest"]⟩)

/-- `get_code(contract_address)`. -/
def getCode (node : RpcCall → Option Json) (contractAddress : String) : Except Failure Json :=
  readReply (node ⟨1, "eth_getCode", [.str contractAddress, .str "latest"]⟩)

end NornRpc.ContractClient
