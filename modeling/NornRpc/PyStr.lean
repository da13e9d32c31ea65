import Mathlib.Data.Nat.Digits

/-!
# Python's string builtins

The text functions `contract_interaction.py` calls, on the code points of a `str`: `s.lower()`,
`s.replace(old, new)` for the two-character `old` the file passes, `s.zfill(width)`, `s[k:]`,
`hex(n)` and `int(s, base)`. Case mapping is that of ASCII. `int()` first reads every decimal
digit and every space past ASCII as its ASCII counterpart (`transformDecimalAndSpace`), then
skips ASCII whitespace at both ends, and in base `10` refuses more than `4300` digits. Every
function is total: `int()` returns `none` where Python raises `ValueError`.

`int(s, 16)` reads back what `hex` writes, behind any number of zeros: a string of hex digits
denotes `digitsValue` of it (`pyIntStr_hex`, also behind a `0x`, `pyIntStr_hexPrefix`), and the
digits of `hex(n)` denote `n` (`digitsValue_hexDigits`). `hex(n)` has at most 64 digits exactly
when `n < 16 ^ 64` (`hexDigits_length_le`), and `zfill(64)` pads such a string to exactly 64
characters and leaves a longer one alone (`pyZfill_hex`, `pyZfill_of_le`); it never drops a
character (`mem_pyZfill`), so `hex(n)[2:]` of a negative `n` keeps the `x` of `-0x`
(`pySliceFrom_pyHex_of_neg`).

The clients read quantities with `int(x, 16)` and write block numbers with `hex()`. The two are
inverse on quantities as `hex()` writes them, `0x` and lower-case digits with no leading zero
(`quantity_round_trip`).
-/

namespace NornRpc

/-- `string.hexdigits`. -/
def hexdigits : List Char := "0123456789abcdefABCDEF".data

/-- `s.lower()`, on ASCII letters. -/
def pyLower (s : String) : String := ⟨s.data.map Char.toLower⟩

/-- The scan of `s.replace(old, new)` for a two-character `old = a b`, from the left and without
overlap; `pending` is an `a` read but not yet written. -/
def replacePair (a b : Char) (new : List Char) : Option Char → List Char → List Char
  | none, [] => []
  | some p, [] => [p]
  | none, c :: cs =>
    if c = a then replacePair a b new (some c) cs else c :: replacePair a b new none cs
  | some p, c :: cs =>
    if c = b then new ++ replacePair a b new none cs
    else if c = a then p :: replacePair a b new (some c) cs
    else p :: c :: replacePair a b new none cs

/-- `s.replace(a + b, new)`. -/
def pyReplace (s : String) (a b : Char) (new : String) : String :=
  ⟨replacePair a b new.data none s.data⟩

/-- `s.zfill(width)`: zeros on the left up to `width` characters, behind a leading sign. -/
def pyZfill (s : String) (width : ℕ) : String :=
  if width ≤ s.length then s
  else
    let fill := List.replicate (width - s.length) '0'
    match s.data with
    | c :: cs => if c = '+' ∨ c = '-' then ⟨c :: (fill ++ cs)⟩ else ⟨fill ++ c :: cs⟩
    | [] => ⟨fill⟩

/-- `s[k:]`. -/
def pySliceFrom (s : String) (k : ℕ) : String := ⟨s.data.drop k⟩

/-- The digits `hex` writes for `n ≥ 0`: lowercase, most significant first, `0` for zero. -/
def hexDigits (n : ℕ) : List Char :=
  if n = 0 then ['0'] else (Nat.digits 16 n).reverse.map Nat.digitChar

/-- `hex(n)`. -/
def pyHex (n : ℤ) : String :=
  if n < 0 then ⟨'-' :: '0' :: 'x' :: hexDigits n.natAbs⟩
  else ⟨'0' :: 'x' :: hexDigits n.toNat⟩

/-! ### `int(s, base)` -/

/-- The whitespace `int()` skips around its digits, once they are ASCII: `\t\n\v\f\r` and the
space. -/
def isAsciiSpace (c : Char) : Bool :=
  let n := c.toNat
  (9 ≤ n && n ≤ 13) || n == 32

/-- The whitespace of `str.isspace` past ASCII. -/
def isUnicodeSpace (n : ℕ) : Bool :=
  n == 0x85 || n == 0xA0 || n == 0x1680 || (0x2000 ≤ n && n ≤ 0x200A) || n == 0x2028 ||
    n == 0x2029 || n == 0x202F || n == 0x205F || n == 0x3000

/-- The zero of each run of ten decimal digits (general category `Nd`) past ASCII, in the Unicode
14.0 database of CPython 3.11. -/
def decimalZeros : List ℕ :=
  [0x660, 0x6F0, 0x7C0, 0x966, 0x9E6, 0xA66, 0xAE6, 0xB66, 0xBE6, 0xC66, 0xCE6, 0xD66, 0xDE6,
    0xE50, 0xED0, 0xF20, 0x1040, 0x1090, 0x17E0, 0x1810, 0x1946, 0x19D0, 0x1A80, 0x1A90, 0x1B50,
    0x1BB0, 0x1C40, 0x1C50, 0xA620, 0xA8D0, 0xA900, 0xA9D0, 0xA9F0, 0xAA50, 0xABF0, 0xFF10,
    0x104A0, 0x10D30, 0x11066, 0x110F0, 0x11136, 0x111D0, 0x112F0, 0x11450, 0x114D0, 0x11650,
    0x116C0, 0x11730, 0x118E0, 0x11950, 0x11C50, 0x11D50, 0x11DA0, 0x16A60, 0x16AC0, 0x16B50,
    0x1D7CE, 0x1D7D8, 0x1D7E2, 0x1D7EC, 0x1D7F6, 0x1E140, 0x1E2F0, 0x1E950, 0x1FBF0]

/-- `_PyUnicode_TransformDecimalAndSpaceToASCII` on one character, which `int()` applies first:
below `127` a character is kept, past it a space becomes `' '` and a decimal digit its ASCII
digit, and anything else ends the string in a `'?'`, which no parse accepts. -/
def transformDecimalAndSpace (c : Char) : Char :=
  if c.toNat < 127 then c
  else if isUnicodeSpace c.toNat then ' '
  else match decimalZeros.find? fun z => z ≤ c.toNat ∧ c.toNat < z + 10 with
    | some z => Char.ofNat (48 + (c.toNat - z))
    | none => '?'

/-- `sys.get_int_max_str_digits()`: the most digits `int()` converts in a base other than a power of
two. -/
def maxStrDigits : ℕ := 4300

/-- The value of a digit in `base`: `0`-`9`, then the letters of either case from `10` on. -/
def digitIn (base : ℕ) (c : Char) : Option ℕ :=
  let n := c.toNat
  let v := if 48 ≤ n ∧ n ≤ 57 then some (n - 48)
    else if 97 ≤ n ∧ n ≤ 122 then some (n - 87)
    else if 65 ≤ n ∧ n ≤ 90 then some (n - 55)
    else none
  v.filter (· < base)

/-- The whitespace `int()` skips at both ends. -/
def stripSpace (l : List Char) : List Char :=
  ((l.dropWhile isAsciiSpace).reverse.dropWhile isAsciiSpace).reverse

/-- A leading sign, `true` for `-`. -/
def splitSign : List Char → Bool × List Char
  | c :: r => if c = '-' then (true, r) else if c = '+' then (false, r) else (false, c :: r)
  | [] => (false, [])

/-- The one underscore allowed after a base prefix. -/
def dropUnderscore : List Char → List Char
  | c :: r => if c = '_' then r else c :: r
  | [] => []

/-- The `0x` or `0X` prefix `int(s, 16)` accepts. -/
def dropHexPrefix : List Char → List Char
  | c :: d :: r => if c = '0' ∧ (d = 'x' ∨ d = 'X') then dropUnderscore r else c :: d :: r
  | l => l

/-- The digits after the first, accumulated into `acc`; `afterUnderscore` records an underscore
just read, which must be followed by a digit. -/
def digitsAux (base acc : ℕ) (afterUnderscore : Bool) : List Char → Option ℕ
  | [] => if afterUnderscore then none else some acc
  | c :: cs =>
    if c = '_' then (if afterUnderscore then none else digitsAux base acc true cs)
    else (digitIn base c).bind fun d => digitsAux base (acc * base + d) false cs

/-- The digits of `int(s, base)`: at least one, the first not an underscore. -/
def parseDigits (base : ℕ) : List Char → Option ℕ
  | c :: cs => (digitIn base c).bind fun d => digitsAux base d false cs
  | [] => none

/-- `int(s, base)` on a `str`, for base `10` or `16`; `none` is the `ValueError`, for a string
that is not an integer or, in base `10`, for one of more than `4300` digits. -/
def pyIntStr (base : ℕ) (s : String) : Option ℤ :=
  let signed := splitSign (stripSpace (s.data.map transformDecimalAndSpace))
  let digits := if base = 16 then dropHexPrefix signed.2 else signed.2
  if base = 10 ∧ maxStrDigits < (digits.filter (· ≠ '_')).length then none
  else (parseDigits base digits).map fun n => if signed.1 then -(n : ℤ) else n

/- Decimal digits past ASCII count, the separators `\x1c`–`\x1f` that `str.isspace` accepts do
not. -/
example : pyIntStr 10 "١٠" = some 10 ∧ pyIntStr 16 " ٥\u3000" = some 5 ∧
    pyIntStr 10 "\x1c5" = none := by
  decide

/-- The number a string of digits denotes in `base`, most significant first. -/
def digitsValue (base : ℕ) (l : List Char) : ℕ :=
  l.foldl (fun acc c => acc * base + (digitIn base c).getD 0) 0

/-! ### Hex digits, one character at a time -/

/-- What a character of `string.hexdigits` is not, and how it reads. -/
structure HexDigit (c : Char) : Prop where
  ne_underscore : c ≠ '_'
  ne_x : c ≠ 'x'
  ne_X : c ≠ 'X'
  ne_minus : c ≠ '-'
  ne_plus : c ≠ '+'
  ascii : c.toNat < 127
  not_space : isAsciiSpace c = false
  isSome : (digitIn 16 c).isSome
  lower_mem : c.toLower ∈ hexdigits
  digitIn_lower : digitIn 16 c.toLower = digitIn 16 c

theorem hexDigit_of_mem {c : Char} (h : c ∈ hexdigits) : HexDigit c := by
  have hall : ∀ c ∈ hexdigits, c ≠ '_' ∧ c ≠ 'x' ∧ c ≠ 'X' ∧ c ≠ '-' ∧ c ≠ '+' ∧
      c.toNat < 127 ∧ isAsciiSpace c = false ∧ (digitIn 16 c).isSome ∧ c.toLower ∈ hexdigits ∧
      digitIn 16 c.toLower = digitIn 16 c := by decide
  obtain ⟨h1, h2, h3, h4, h5, h6, h7, h8, h9, h10⟩ := hall c h
  exact ⟨h1, h2, h3, h4, h5, h6, h7, h8, h9, h10⟩

theorem digitChar_mem_hexdigits {d : ℕ} (h : d < 16) : Nat.digitChar d ∈ hexdigits := by
  have hall : ∀ e ∈ List.range 16, Nat.digitChar e ∈ hexdigits := by decide
  exact hall d (List.mem_range.mpr h)

theorem digitIn_digitChar {d : ℕ} (h : d < 16) : digitIn 16 (Nat.digitChar d) = some d := by
  have hall : ∀ e ∈ List.range 16, digitIn 16 (Nat.digitChar e) = some e := by decide
  exact hall d (List.mem_range.mpr h)

theorem zero_mem_hexdigits : '0' ∈ hexdigits := by decide

theorem x_not_mem_hexdigits : 'x' ∉ hexdigits := by decide

/-! ### Reading a string of hex digits -/

theorem dropWhile_of_forall {p : Char → Bool} {l : List Char} (h : ∀ c ∈ l, p c = false) :
    l.dropWhile p = l := by
  cases l with
  | nil => rfl
  | cons c cs => exact List.dropWhile_cons_of_neg (by simp [h c (List.mem_cons_self _ _)])

theorem stripSpace_map_transform {l : List Char}
    (h : ∀ c ∈ l, c.toNat < 127 ∧ isAsciiSpace c = false) :
    stripSpace (l.map transformDecimalAndSpace) = l := by
  have hmap : l.map transformDecimalAndSpace = l := by
    conv_rhs => rw [← List.map_id l]
    exact List.map_congr_left fun c hc => if_pos (h c hc).1
  have hsp : ∀ c ∈ l, isAsciiSpace c = false := fun c hc => (h c hc).2
  rw [hmap, stripSpace, dropWhile_of_forall hsp, dropWhile_of_forall (by simpa using hsp),
    List.reverse_reverse]

theorem digitsAux_hex (acc : ℕ) (l : List Char) (hl : ∀ c ∈ l, c ∈ hexdigits) :
    digitsAux 16 acc false l = some (l.foldl (fun a c => a * 16 + (digitIn 16 c).getD 0) acc) := by
  induction l generalizing acc with
  | nil => rfl
  | cons c cs ih =>
    have hc := hexDigit_of_mem (hl c (List.mem_cons_self _ _))
    obtain ⟨v, hv⟩ := Option.isSome_iff_exists.mp hc.isSome
    rw [digitsAux, if_neg hc.ne_underscore, hv, Option.some_bind, List.foldl_cons, hv,
      Option.getD_some]
    exact ih _ fun c h => hl c (List.mem_cons_of_mem _ h)

theorem parseDigits_hex {l : List Char} (hne : l ≠ []) (hl : ∀ c ∈ l, c ∈ hexdigits) :
    parseDigits 16 l = some (digitsValue 16 l) := by
  obtain ⟨c, cs, rfl⟩ := List.exists_cons_of_ne_nil hne
  obtain ⟨v, hv⟩ :=
    Option.isSome_iff_exists.mp (hexDigit_of_mem (hl c (List.mem_cons_self _ _))).isSome
  rw [parseDigits, hv, Option.some_bind,
    digitsAux_hex _ _ fun c h => hl c (List.mem_cons_of_mem _ h),
    digitsValue, List.foldl_cons, hv, Option.getD_some, zero_mul, zero_add]

/-- **`int(s, 16)` of a string of hex digits.** -/
theorem pyIntStr_hex {l : List Char} (hne : l ≠ []) (hl : ∀ c ∈ l, c ∈ hexdigits) :
    pyIntStr 16 ⟨l⟩ = some (digitsValue 16 l : ℤ) := by
  obtain ⟨c, cs, rfl⟩ := List.exists_cons_of_ne_nil hne
  have hc := hexDigit_of_mem (hl c (List.mem_cons_self _ _))
  have hpre : dropHexPrefix (c :: cs) = c :: cs := by
    cases cs with
    | nil => rfl
    | cons d r =>
      have hd := hexDigit_of_mem (hl d (by simp))
      simp [dropHexPrefix, hd.ne_x, hd.ne_X]
  simp only [pyIntStr, stripSpace_map_transform fun c h =>
    ⟨(hexDigit_of_mem (hl c h)).ascii, (hexDigit_of_mem (hl c h)).not_space⟩]
  simp [splitSign, hc.ne_minus, hc.ne_plus, hpre, parseDigits_hex hne hl]

theorem pyIntStr_hexPrefix {l : List Char} (hne : l ≠ []) (hl : ∀ c ∈ l, c ∈ hexdigits) :
    pyIntStr 16 ⟨'0' :: 'x' :: l⟩ = some (digitsValue 16 l : ℤ) := by
  obtain ⟨c, cs, rfl⟩ := List.exists_cons_of_ne_nil hne
  have hc := hexDigit_of_mem (hl c (List.mem_cons_self _ _))
  have hspace : ∀ c' ∈ '0' :: 'x' :: c :: cs, c'.toNat < 127 ∧ isAsciiSpace c' = false := by
    rw [List.forall_mem_cons, List.forall_mem_cons]
    exact ⟨by decide, by decide, fun c' h =>
      ⟨(hexDigit_of_mem (hl c' h)).ascii, (hexDigit_of_mem (hl c' h)).not_space⟩⟩
  simp only [pyIntStr, stripSpace_map_transform hspace]
  simp [ splitSign, dropHexPrefix, dropUnderscore,
    hc.ne_underscore, parseDigits_hex hne hl]

/-! ### The value of a string of digits -/

theorem digitsValue_replicate_zero (k : ℕ) (l : List Char) :
    digitsValue 16 (List.replicate k '0' ++ l) = digitsValue 16 l := by
  suffices (List.replicate k '0').foldl (fun acc c => acc * 16 + (digitIn 16 c).getD 0) 0 = 0 by
    rw [digitsValue, List.foldl_append, this, digitsValue]
  induction k with
  | zero => rfl
  | succ k ih => rw [List.replicate_succ', List.foldl_append, ih]; rfl

theorem digitsValue_lower {l : List Char} (hl : ∀ c ∈ l, c ∈ hexdigits) :
    digitsValue 16 (l.map Char.toLower) = digitsValue 16 l := by
  rw [digitsValue, List.foldl_map, digitsValue]
  exact List.foldl_ext _ _ _ fun acc c h => by rw [(hexDigit_of_mem (hl c h)).digitIn_lower]

theorem foldl_reverse_eq_ofDigits (b : ℕ) (ds : List ℕ) :
    ds.reverse.foldl (fun a d => a * b + d) 0 = Nat.ofDigits b ds := by
  rw [List.foldl_reverse]
  induction ds with
  | nil => rfl
  | cons d ds ih => rw [List.foldr_cons, ih, Nat.ofDigits_cons]; ring

theorem hexDigits_mem (n : ℕ) : ∀ c ∈ hexDigits n, c ∈ hexdigits := by
  unfold hexDigits
  split_ifs
  · simpa using zero_mem_hexdigits
  · simp only [List.mem_map, List.mem_reverse]
    rintro _ ⟨d, hd, rfl⟩
    exact digitChar_mem_hexdigits (Nat.digits_lt_base (by norm_num) hd)

theorem hexDigits_ne_nil (n : ℕ) : hexDigits n ≠ [] := by
  unfold hexDigits
  split_ifs with h
  · simp
  · simpa using Nat.digits_ne_nil_iff_ne_zero.mpr h

/-- **`int(s, 16)` reads back the digits of `hex(n)`.** -/
theorem digitsValue_hexDigits (n : ℕ) : digitsValue 16 (hexDigits n) = n := by
  unfold hexDigits
  split_ifs with h
  · rw [h]; rfl
  · have hlt : ∀ d ∈ (Nat.digits 16 n).reverse, d < 16 := fun d hd =>
      Nat.digits_lt_base (by norm_num) (List.mem_reverse.mp hd)
    rw [digitsValue, List.foldl_map, List.foldl_ext _ (fun a d => a * 16 + d) _ fun a d hd => by
      rw [digitIn_digitChar (hlt d hd), Option.getD_some], foldl_reverse_eq_ofDigits,
      Nat.ofDigits_digits]

theorem hexDigits_length_le (n : ℕ) {k : ℕ} (hk : 0 < k) :
    (hexDigits n).length ≤ k ↔ n < 16 ^ k := by
  unfold hexDigits
  split_ifs with h
  · simp [h, hk, Nat.one_le_iff_ne_zero.mpr hk.ne']
  · rw [List.length_map, List.length_reverse, Nat.digits_len 16 n (by norm_num) h,
      Nat.lt_pow_iff_log_lt (by norm_num) h]
    omega

/-! ### `zfill` and `replace` -/

theorem pyZfill_of_le {s : String} {width : ℕ} (h : width ≤ s.length) : pyZfill s width = s :=
  if_pos h

theorem pyZfill_data {l : List Char} {width : ℕ} (hle : l.length ≤ width)
    (hsign : ∀ c ∈ l.head?, c ≠ '+' ∧ c ≠ '-') :
    (pyZfill ⟨l⟩ width).data = List.replicate (width - l.length) '0' ++ l := by
  rcases hle.eq_or_lt with heq | hlt
  · rw [pyZfill_of_le (show width ≤ String.length ⟨l⟩ from heq.ge), heq, Nat.sub_self]
    rfl
  · rw [pyZfill, if_neg (show ¬ width ≤ String.length ⟨l⟩ from not_le.mpr hlt)]
    cases l with
    | nil => simp
    | cons c cs =>
      have hc := hsign c rfl
      simp only [String.length, if_neg (not_or.mpr hc)]

theorem mem_pyZfill {s : String} {width : ℕ} {c : Char} (h : c ∈ s.data) :
    c ∈ (pyZfill s width).data := by
  obtain ⟨_ | ⟨d, ds⟩⟩ := s
  · exact absurd h (List.not_mem_nil c)
  · unfold pyZfill
    by_cases hsign : d = '+' ∨ d = '-' <;> split_ifs <;>
      simp only [hsign, List.mem_cons, List.mem_append, ite_true, ite_false] at h ⊢ <;> tauto

theorem pyZfill_hex {l : List Char} {width : ℕ} (hle : l.length ≤ width)
    (hl : ∀ c ∈ l, c ∈ hexdigits) :
    pyZfill ⟨l⟩ width = ⟨List.replicate (width - l.length) '0' ++ l⟩ :=
  String.ext <| pyZfill_data hle fun c hc =>
    have hc := hexDigit_of_mem (hl c (List.mem_of_mem_head? hc))
    ⟨hc.ne_plus, hc.ne_minus⟩

theorem pySliceFrom_pyHex_of_nonneg {n : ℤ} (h : 0 ≤ n) :
    pySliceFrom (pyHex n) 2 = ⟨hexDigits n.toNat⟩ := by
  simp [pySliceFrom, pyHex, not_lt.mpr h]

theorem pySliceFrom_pyHex_of_neg {n : ℤ} (h : n < 0) :
    pySliceFrom (pyHex n) 2 = ⟨'x' :: hexDigits n.natAbs⟩ := by
  simp [pySliceFrom, pyHex, h]

theorem replacePair_of_not_mem {a b : Char} {new : List Char} {l : List Char} (h : b ∉ l) :
    replacePair a b new none l = l ∧ ∀ p, replacePair a b new (some p) l = p :: l := by
  induction l with
  | nil => exact ⟨rfl, fun _ => rfl⟩
  | cons c cs ih =>
    have hc : c ≠ b := fun hc => h (hc ▸ List.mem_cons_self _ _)
    obtain ⟨ih1, ih2⟩ := ih fun h' => h (List.mem_cons_of_mem _ h')
    refine ⟨?_, fun p => ?_⟩ <;> by_cases ha : c = a
    · subst ha; simp [replacePair, ih2]
    · simp [replacePair, ha, ih1]
    · subst ha; simp [replacePair, hc, ih2]
    · simp [replacePair, hc, ha, ih1]

theorem replacePair_cons_cons (a b : Char) (new l : List Char) :
    replacePair a b new none (a :: b :: l) = new ++ replacePair a b new none l := by
  simp [replacePair]

theorem pyReplace_of_not_mem {l : List Char} (hx : 'x' ∉ l) : pyReplace ⟨l⟩ '0' 'x' "" = ⟨l⟩ :=
  congrArg String.mk (replacePair_of_not_mem hx).1

theorem pyReplace_hexPrefix {l : List Char} (hx : 'x' ∉ l) :
    pyReplace ⟨'0' :: 'x' :: l⟩ '0' 'x' "" = ⟨l⟩ :=
  congrArg String.mk ((replacePair_cons_cons '0' 'x' [] l).trans (replacePair_of_not_mem hx).1)

/-! ### `int(hex(n), 16)` and back -/

theorem pyIntStr_negHexPrefix {l : List Char} (hne : l ≠ []) (hl : ∀ c ∈ l, c ∈ hexdigits) :
    pyIntStr 16 ⟨'-' :: '0' :: 'x' :: l⟩ = some (-(digitsValue 16 l : ℤ)) := by
  obtain ⟨c, cs, rfl⟩ := List.exists_cons_of_ne_nil hne
  have hc := hexDigit_of_mem (hl c (List.mem_cons_self _ _))
  have hspace : ∀ c' ∈ '-' :: '0' :: 'x' :: c :: cs,
      c'.toNat < 127 ∧ isAsciiSpace c' = false := by
    rw [List.forall_mem_cons, List.forall_mem_cons, List.forall_mem_cons]
    exact ⟨by decide, by decide, by decide, fun c' h =>
      ⟨(hexDigit_of_mem (hl c' h)).ascii, (hexDigit_of_mem (hl c' h)).not_space⟩⟩
  simp only [pyIntStr, stripSpace_map_transform hspace]
  simp [ splitSign, dropHexPrefix, dropUnderscore,
    hc.ne_underscore, parseDigits_hex hne hl]

/-- **`int(hex(n), 16) == n`** for every integer. -/
theorem pyIntStr_pyHex (n : ℤ) : pyIntStr 16 (pyHex n) = some n := by
  unfold pyHex
  split_ifs with h
  · rw [pyIntStr_negHexPrefix (hexDigits_ne_nil _) (hexDigits_mem _), digitsValue_hexDigits]
    simp [abs_of_neg h]
  · rw [pyIntStr_hexPrefix (hexDigits_ne_nil _) (hexDigits_mem _), digitsValue_hexDigits,
      Int.toNat_of_nonneg (not_lt.mp h)]

/-- The hex digits `hex()` writes. -/
def lowerHexdigits : List Char := "0123456789abcdef".data

/-- The digits of a quantity as `hex()` writes it: lower case, with no leading zero but for `0`
itself. -/
def IsQuantityDigits (l : List Char) : Prop :=
  l = ['0'] ∨ (l ≠ [] ∧ l.head? ≠ some '0' ∧ ∀ c ∈ l, c ∈ lowerHexdigits)

theorem lowerHexdigit_facts : ∀ c ∈ lowerHexdigits, c ∈ hexdigits ∧
    (digitIn 16 c).getD 0 < 16 ∧ Nat.digitChar ((digitIn 16 c).getD 0) = c ∧
    (c ≠ '0' → (digitIn 16 c).getD 0 ≠ 0) := by
  decide

theorem IsQuantityDigits.mem_hexdigits {l : List Char} (hl : IsQuantityDigits l) :
    l ≠ [] ∧ ∀ c ∈ l, c ∈ hexdigits := by
  rcases hl with rfl | ⟨hne, -, hl⟩
  · exact ⟨List.cons_ne_nil _ _, by decide⟩
  · exact ⟨hne, fun c hc => (lowerHexdigit_facts c (hl c hc)).1⟩

theorem hexDigits_digitsValue {l : List Char} (hl : IsQuantityDigits l) :
    hexDigits (digitsValue 16 l) = l := by
  rcases hl with rfl | ⟨hne, hhead, hl⟩
  · rfl
  · set vals := l.map fun c => (digitIn 16 c).getD 0 with hvals
    have hval : digitsValue 16 l = Nat.ofDigits 16 vals.reverse := by
      have := foldl_reverse_eq_ofDigits 16 vals.reverse
      rw [List.reverse_reverse] at this
      rw [← this, hvals, List.foldl_map, digitsValue]
    have hlt : ∀ d ∈ vals.reverse, d < 16 := by
      simp only [List.mem_reverse, hvals, List.mem_map]
      rintro _ ⟨c, hc, rfl⟩
      exact (lowerHexdigit_facts c (hl c hc)).2.1
    obtain ⟨c, cs, rfl⟩ := List.exists_cons_of_ne_nil hne
    have hlast : ∀ h : vals.reverse ≠ [], vals.reverse.getLast h ≠ 0 := fun _ => by
      simp only [hvals, List.map_cons, List.reverse_cons, List.getLast_append_singleton]
      exact (lowerHexdigit_facts c (hl c (List.mem_cons_self _ _))).2.2.2
        fun h => hhead (by rw [h]; rfl)
    have hdig := Nat.digits_ofDigits 16 (by norm_num) _ hlt hlast
    have hn : Nat.ofDigits 16 vals.reverse ≠ 0 := fun h => by
      rw [h, Nat.digits_zero] at hdig
      simp [hvals] at hdig
    rw [hval, hexDigits, if_neg hn, hdig, List.reverse_reverse, hvals, List.map_map]
    conv_rhs => rw [← List.map_id (c :: cs)]
    exact List.map_congr_left fun d hd => (lowerHexdigit_facts d (hl d hd)).2.2.1

/-- **`hex(int(s, 16)) == s`** for a quantity `s` as `hex()` writes it: `0x` and lower-case digits
with no leading zero. -/
theorem pyHex_pyIntStr {l : List Char} (hl : IsQuantityDigits l) :
    pyIntStr 16 ⟨'0' :: 'x' :: l⟩ = some (digitsValue 16 l : ℤ) ∧
      pyHex (digitsValue 16 l) = ⟨'0' :: 'x' :: l⟩ := by
  obtain ⟨hne, hhex⟩ := hl.mem_hexdigits
  refine ⟨pyIntStr_hexPrefix hne hhex, ?_⟩
  rw [pyHex, if_neg (not_lt.mpr (Int.natCast_nonneg _)), Int.toNat_natCast,
    hexDigits_digitsValue hl]

theorem digitChar_facts :
    ∀ d < 16, Nat.digitChar d ∈ lowerHexdigits ∧ (Nat.digitChar d = '0' → d = 0) := by
  decide

theorem hexDigits_isQuantityDigits (n : ℕ) : IsQuantityDigits (hexDigits n) := by
  unfold hexDigits
  split_ifs with h
  · exact .inl rfl
  have hne : Nat.digits 16 n ≠ [] := Nat.digits_ne_nil_iff_ne_zero.mpr h
  have hlt : ∀ d ∈ Nat.digits 16 n, d < 16 := fun d hd => Nat.digits_lt_base (by norm_num) hd
  refine .inr ⟨by simpa using hne, ?_, ?_⟩
  · -- the leading digit is the last of `Nat.digits`, which is not zero
    rw [List.head?_map, List.head?_reverse, List.getLast?_eq_getLast _ hne, Option.map_some']
    intro h0
    exact Nat.getLast_digit_ne_zero 16 h
      ((digitChar_facts _ (hlt _ (List.getLast_mem hne))).2 (Option.some.inj h0))
  · simp only [List.mem_map, List.mem_reverse]
    rintro _ ⟨d, hd, rfl⟩
    exact (digitChar_facts d (hlt d hd)).1

/-- **Quantities round-trip through `hex()` and `int(s, 16)`.** `int(hex(n), 16)` is `n` for every
integer; `hex()` writes every natural number as a quantity; and every quantity `s` is
`hex(int(s, 16))`. So `hex` maps the natural numbers one to one onto the quantities, and
`int(s, 16)` inverts it. -/
theorem quantity_round_trip :
    (∀ n : ℤ, pyIntStr 16 (pyHex n) = some n) ∧
      (∀ n : ℕ, ∃ l, pyHex n = ⟨'0' :: 'x' :: l⟩ ∧ IsQuantityDigits l) ∧
      ∀ l, IsQuantityDigits l →
        ∃ n : ℕ, pyIntStr 16 ⟨'0' :: 'x' :: l⟩ = some n ∧ pyHex n = ⟨'0' :: 'x' :: l⟩ :=
  ⟨pyIntStr_pyHex, fun n => ⟨hexDigits n, by simp [pyHex], hexDigits_isQuantityDigits n⟩,
    fun l hl => ⟨_, pyHex_pyIntStr hl⟩⟩

end NornRpc
