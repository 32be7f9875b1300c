import Mathlib.Data.BitVec
import Mathlib.Tactic.NormNum

/-!
# Primitive values of .NET

| here                  | there                                                        |
|-----------------------|--------------------------------------------------------------|
| `I32`                 | `int`: 32-bit two's complement, unchecked `+` and `-` wrap   |
| `I32.checkedSum`      | `Enumerable.Sum(int)`: the running sum is a `checked` one     |
| `Guid`                | `Guid` as the number its 32 hexadecimal digits denote         |
| `Guid.formatN`, `formatD` | `ToString("N")`, `ToString()`                            |
| `Guid.parseD`         | `Guid.Parse`, of the texts that `ToString()` writes           |
| `isNullOrWhiteSpace`  | `string.IsNullOrWhiteSpace`, `none` is the null reference     |
| `utf16Length`         | `string.Length`, counted in UTF-16 code units                 |

Guid texts are injective (`formatN_injective`), so a key built from one names one order.
-/

namespace TxPlatform

/-! ## 32-bit integers -/

abbrev I32 := BitVec 32

namespace I32

def minValue : Int := -2147483648
def maxValue : Int := 2147483647

/-- A `checked` addition: `none` is the `OverflowException`. -/
def checkedAdd (a b : I32) : Option I32 :=
  let sum := a.toInt + b.toInt
  if minValue ≤ sum ∧ sum ≤ maxValue then some (a + b) else none

/-- `Enumerable.Sum`: `int sum = 0; foreach (v in source) checked { sum += v; }`. -/
def checkedSum (values : List I32) : Option I32 :=
  values.foldlM checkedAdd 0

theorem toInt_bounds (a : I32) : minValue ≤ a.toInt ∧ a.toInt ≤ maxValue := by
  have h1 := BitVec.le_toInt a
  have h2 := BitVec.toInt_lt (x := a)
  simp only [minValue, maxValue] at *
  omega

/-- A number of the 32-bit range is represented by itself. -/
theorem toInt_ofInt {n : Int} (h : minValue ≤ n ∧ n ≤ maxValue) : (BitVec.ofInt 32 n).toInt = n := by
  rw [BitVec.toInt_ofInt, Int.bmod_eq_of_le] <;> simp only [minValue, maxValue] at h <;> omega

/-- Inside the 32-bit range an addition does not wrap. -/
theorem toInt_add {a b : I32} (h : minValue ≤ a.toInt + b.toInt ∧ a.toInt + b.toInt ≤ maxValue) :
    (a + b).toInt = a.toInt + b.toInt := by
  rw [BitVec.toInt_add, Int.bmod_eq_of_le] <;> simp only [minValue, maxValue] at h <;> omega

/-- Inside the 32-bit range a subtraction does not wrap. -/
theorem toInt_sub {a b : I32} (h : minValue ≤ a.toInt - b.toInt ∧ a.toInt - b.toInt ≤ maxValue) :
    (a - b).toInt = a.toInt - b.toInt := by
  rw [BitVec.toInt_sub, Int.bmod_eq_of_le] <;> simp only [minValue, maxValue] at h <;> omega

end I32

/-! ## Hexadecimal digits -/

/-- The `width` lowest hexadecimal digits of `v`, most significant first. -/
def hexDigits : Nat → Nat → List Char
  | 0, _ => []
  | width + 1, v => hexDigits width (v / 16) ++ [Nat.digitChar (v % 16)]

theorem length_hexDigits (width v : Nat) : (hexDigits width v).length = width := by
  induction width generalizing v with
  | zero => rfl
  | succ width ih => simp [hexDigits, ih]

theorem digitChar_injective {a b : Nat} (ha : a < 16) (hb : b < 16)
    (h : Nat.digitChar a = Nat.digitChar b) : a = b := by
  have key : ∀ x y : Fin 16, Nat.digitChar x = Nat.digitChar y → x = y := by decide
  simpa using key ⟨a, ha⟩ ⟨b, hb⟩ h

theorem hexDigits_injective {width v w : Nat} (hv : v < 16 ^ width) (hw : w < 16 ^ width)
    (h : hexDigits width v = hexDigits width w) : v = w := by
  induction width generalizing v w with
  | zero => simp at hv hw; omega
  | succ width ih =>
    simp only [hexDigits] at h
    obtain ⟨hq, hr⟩ := List.append_inj' h rfl
    have hr' := digitChar_injective (Nat.mod_lt v (by decide)) (Nat.mod_lt w (by decide))
      (List.cons.inj hr).1
    have hq' := ih (by rw [pow_succ] at hv; omega) (by rw [pow_succ] at hw; omega) hq
    omega

/-- The value of a lower-case hexadecimal digit. -/
def digitValue (c : Char) : Nat := if c.toNat < 'a'.toNat then c.toNat - '0'.toNat else c.toNat - 'a'.toNat + 10

theorem digitValue_digitChar {d : Nat} (h : d < 16) : digitValue (Nat.digitChar d) = d := by
  have key : ∀ d : Fin 16, digitValue (Nat.digitChar d) = d := by decide
  exact key ⟨d, h⟩

theorem digitChar_ne_hyphen {d : Nat} (h : d < 16) : Nat.digitChar d ≠ '-' := by
  have key : ∀ d : Fin 16, Nat.digitChar d ≠ '-' := by decide
  exact key ⟨d, h⟩

theorem foldl_hexDigits (width v : Nat) :
    (hexDigits width v).foldl (fun value c => 16 * value + digitValue c) 0 = v % 16 ^ width := by
  induction width generalizing v with
  | zero => simp [hexDigits, Nat.mod_one]
  | succ width ih =>
    rw [hexDigits, List.foldl_append, ih, List.foldl_cons, List.foldl_nil, digitValue_digitChar (Nat.mod_lt v (by decide)),
      pow_succ', Nat.mod_mul, Nat.add_comm]

theorem hyphen_notMem_hexDigits (width v : Nat) : '-' ∉ hexDigits width v := by
  induction width generalizing v with
  | zero => exact List.not_mem_nil
  | succ width ih =>
    rw [hexDigits, List.mem_append, List.mem_singleton]
    rintro (h | h)
    · exact ih _ h
    · exact digitChar_ne_hyphen (Nat.mod_lt v (by decide)) h.symm

/-! ## Guids -/

abbrev Guid := BitVec 128

namespace Guid

/-- `Guid.Empty`. -/
def empty : Guid := 0

/-- `ToString("N")`: 32 digits. -/
def formatN (id : Guid) : String := String.ofList (hexDigits 32 id.toNat)

/-- `ToString()`: the same digits in groups of 8, 4, 4, 4 and 12. -/
def formatD (id : Guid) : String :=
  let digits := hexDigits 32 id.toNat
  String.ofList (digits.take 8 ++ ['-'] ++ (digits.drop 8).take 4 ++ ['-'] ++ (digits.drop 12).take 4
    ++ ['-'] ++ (digits.drop 16).take 4 ++ ['-'] ++ digits.drop 20)

theorem formatN_injective {a b : Guid} (h : a.formatN = b.formatN) : a = b := by
  have hd := String.ofList_injective h
  have hlt : ∀ id : Guid, id.toNat < 16 ^ 32 := fun id => by have := id.isLt; norm_num at *; omega
  exact BitVec.eq_of_toNat_eq (hexDigits_injective (hlt a) (hlt b) hd)

/-- The id of a text in the form that `ToString` writes; a route accepts other forms as well. -/
def parseD (text : String) : Option Guid :=
  let value := (text.toList.filter (· ≠ '-')).foldl (fun value c => 16 * value + digitValue c) 0
  let id : Guid := BitVec.ofNat 128 value
  if id.formatD = text then some id else none

theorem groups_eq (digits : List Char) : digits.take 8 ++ ((digits.drop 8).take 4 ++ ((digits.drop 12).take 4 ++
    ((digits.drop 16).take 4 ++ digits.drop 20))) = digits := by
  have hgroup : ∀ n k, (digits.drop n).take k ++ digits.drop (n + k) = digits.drop n := fun n k => by
    rw [← List.drop_drop, List.take_append_drop]
  rw [hgroup 16 4, hgroup 12 4, hgroup 8 4, List.take_append_drop]

theorem filter_formatD (id : Guid) : id.formatD.toList.filter (· ≠ '-') = hexDigits 32 id.toNat := by
  have hno := hyphen_notMem_hexDigits 32 id.toNat
  have hkeep : ∀ part : List Char, part ⊆ hexDigits 32 id.toNat → part.filter (· ≠ '-') = part := by
    intro part hpart
    rw [List.filter_eq_self]
    intro c hc
    have hne : c ≠ '-' := by
      rintro rfl
      exact hno (hpart hc)
    simpa using hne
  have hdrop := fun n => List.drop_subset n (hexDigits 32 id.toNat)
  have htake := fun n k => List.Subset.trans (List.take_subset k _) (hdrop n)
  simp only [formatD, String.toList_ofList, List.filter_append, hkeep _ (List.take_subset 8 _), hkeep _ (htake _ _),
    hkeep _ (hdrop _)]
  simpa using groups_eq (hexDigits 32 id.toNat)

theorem parseD_formatD (id : Guid) : parseD id.formatD = some id := by
  have hvalue : BitVec.ofNat 128 (id.toNat % 16 ^ 32) = id := by
    apply BitVec.eq_of_toNat_eq
    have := id.isLt
    rw [BitVec.toNat_ofNat]
    norm_num at *
    omega
  simp only [parseD, filter_formatD, foldl_hexDigits, hvalue, if_true]

theorem formatD_injective {a b : Guid} (h : a.formatD = b.formatD) : a = b := by
  have hsame := congrArg parseD h
  rw [parseD_formatD, parseD_formatD] at hsame
  exact Option.some.inj hsame

end Guid

/-! ## Text -/

/-- `char.IsWhiteSpace`. -/
def isWhiteSpace (c : Char) : Bool :=
  let v := c.val
  (9 ≤ v && v ≤ 13) || v == 0x20 || v == 0x85 || v == 0xA0 || v == 0x1680
    || (0x2000 ≤ v && v ≤ 0x200A) || v == 0x2028 || v == 0x2029 || v == 0x202F || v == 0x205F
    || v == 0x3000

/-- `string.IsNullOrWhiteSpace`. -/
def isNullOrWhiteSpace : Option String → Bool
  | none => true
  | some s => s.toList.all isWhiteSpace

/-- `string.Length`: a character outside the basic plane takes two code units. -/
def utf16Length (s : String) : Nat :=
  (s.toList.map fun c => if c.val < 0x10000 then 1 else 2).sum

end TxPlatform
