import Mathlib.Data.Rat.Defs
import Mathlib.Data.List.Infix

/-!
# JSON values as `json.loads` returns them

The clients read every RPC reply and every WebSocket frame through `json.loads`, then test the
result with Python's own operations: `key in d`, `d.get(key)`, `d[key]`, `==` and truthiness.
`Json` is the decoded value: `None`, a `bool`, a number (`int` and `float` compare by value, so a
number is kept as an exact rational), a `str`, a `list`, or a `dict`, kept as the members of the
object in the order of the text. `json.loads` fills the dict member by member, so a repeated key
keeps its last value: `getField` reads the last member with the key.

`pyEq` is Python's `==` on these values: `True == 1`, `1 == 1.0`, lists element by element, and
dicts by their key sets and the value under each key. It is reflexive (`pyEq_refl`), which is
what lets a subscription id read back from an acknowledgement match the notifications that
carry it.
-/

namespace NornRpc

/-- A decoded JSON value. -/
inductive Json where
  | null
  | bool (b : Bool)
  | num (q : ℚ)
  | str (s : String)
  | arr (xs : List Json)
  | obj (fields : List (String × Json))

namespace Json

/-- `d[key]`, or `None` for `d.get(key)`, on the members of an object: the last member with the
key. -/
def getField (key : String) : List (String × Json) → Option Json
  | [] => none
  | (k, v) :: rest =>
    match getField key rest with
    | some w => some w
    | none => if k = key then some v else none

/-- The number a `bool` or a number stands for under `==`: `True == 1` and `False == 0`. -/
def numeric : Json → Option ℚ
  | bool b => some (if b then 1 else 0)
  | num q => some q
  | _ => none

/-- Python's `==` on decoded values. -/
def pyEq : Json → Json → Bool
  | null, null => true
  | str a, str b => a == b
  | arr xs, arr ys => listEq xs ys
  | obj a, obj b => fieldsEq a b && b.all fun m => (getField m.1 a).isSome
  | a, b =>
    match numeric a, numeric b with
    | some p, some q => p == q
    | _, _ => false
where
  /-- Lists: the same length and equal elements in order. -/
  listEq : List Json → List Json → Bool
    | [], [] => true
    | x :: xs, y :: ys => pyEq x y && listEq xs ys
    | _, _ => false
  /-- Every key of the first dict is a key of the second, under an equal value; a member a
  later member overrides is skipped. -/
  fieldsEq : List (String × Json) → List (String × Json) → Bool
    | [], _ => true
    | (k, v) :: rest, b =>
      (rest.any (·.1 == k) ||
        match getField k b with
        | some w => pyEq v w
        | none => false) && fieldsEq rest b

/-- `bool(value)`: Python's truthiness of a decoded value. -/
def truthy : Json → Bool
  | null => false
  | bool b => b
  | num q => q != 0
  | str s => !s.isEmpty
  | arr xs => !xs.isEmpty
  | obj fields => !fields.isEmpty

/-- Whether the value is a dict, the only decoded value with a `.get` method. -/
def isDict : Json → Bool
  | obj _ => true
  | _ => false

/-! ### Reading a member -/

theorem getField_append (key : String) (pre post : List (String × Json)) :
    getField key (pre ++ post) = (getField key post).or (getField key pre) := by
  induction pre with
  | nil => simp [getField]
  | cons m pre ih =>
    obtain ⟨k, v⟩ := m
    rw [List.cons_append, getField, ih, getField]
    cases getField key post <;> cases getField key pre <;> rfl

theorem getField_cons_of_not_any {k : String} {v : Json} {rest : List (String × Json)}
    (h : rest.any (·.1 == k) = false) : getField k ((k, v) :: rest) = some v := by
  have hnone : getField k rest = none := by
    induction rest with
    | nil => rfl
    | cons m rest ih =>
      obtain ⟨k', v'⟩ := m
      simp only [List.any_cons, Bool.or_eq_false_iff, beq_eq_false_iff_ne] at h
      simp [getField, ih h.2, h.1]
  simp [getField, hnone]

theorem getField_isSome_of_mem {k : String} {v : Json} {l : List (String × Json)}
    (h : (k, v) ∈ l) : (getField k l).isSome := by
  induction l with
  | nil => cases h
  | cons m l ih =>
    obtain ⟨k', v'⟩ := m
    simp only [getField]
    rcases List.mem_cons.mp h with h | h
    · cases h
      cases getField k l <;> simp
    · obtain ⟨w, hw⟩ := Option.isSome_iff_exists.mp (ih h)
      simp [hw]

/-! ### `==` -/

mutual

/-- **`==` is reflexive** on decoded values: every member of a dict is read back under its key. -/
theorem pyEq_refl : (j : Json) → pyEq j j = true
  | null => rfl
  | bool b => by cases b <;> rfl
  | num q => by simp [pyEq, numeric]
  | str s => by simp [pyEq]
  | arr xs => by rw [pyEq]; exact listEq_refl xs
  | obj fs => by
    rw [pyEq, fieldsEq_of_suffix fs fs (List.suffix_refl fs), Bool.true_and, List.all_eq_true]
    rintro ⟨k, v⟩ h
    exact getField_isSome_of_mem h

theorem listEq_refl : (xs : List Json) → pyEq.listEq xs xs = true
  | [] => rfl
  | x :: xs => by rw [pyEq.listEq, pyEq_refl x, listEq_refl xs]; rfl

theorem fieldsEq_of_suffix : (l b : List (String × Json)) → l <:+ b → pyEq.fieldsEq l b = true
  | [], _, _ => rfl
  | (k, v) :: rest, b, h => by
    rw [pyEq.fieldsEq, fieldsEq_of_suffix rest b ((List.suffix_cons _ _).trans h), Bool.and_true]
    cases hany : rest.any (·.1 == k)
    · obtain ⟨pre, rfl⟩ := h
      rw [Bool.false_or, getField_append, getField_cons_of_not_any hany]
      exact pyEq_refl v
    · rfl

end

@[simp] theorem pyEq_null_right (j : Json) : pyEq j null = (j matches null) := by
  cases j <;> rfl

@[simp] theorem pyEq_num_num (p q : ℚ) : pyEq (num p) (num q) = (p == q) := rfl

@[simp] theorem pyEq_str_str (a b : String) : pyEq (str a) (str b) = (a == b) := rfl

end Json

end NornRpc
