import Mathlib.Data.List.TakeWhile
import TxPlatform.Python.Values

/-!
# Lines and words of a text

`splitlines` and `split` of a Python string, both read from the left with the part that is still open. A
newline closes every line before it, so the lines of two texts are put together (`splitlines_append`); words
are told apart by the blanks between them (`split_intercalate`).
-/

namespace TxPlatform

namespace Python

/-! ## Lines -/

/-- The characters at which `str.splitlines` cuts. -/
def isLineBreak (c : Char) : Bool :=
  let v := c.val
  (10 ≤ v && v ≤ 13) || (28 ≤ v && v ≤ 30) || v == 0x85 || v == 0x2028 || v == 0x2029

/-- The lines from an open one on; a newline right behind a carriage return belongs to it. -/
def splitlinesFrom : Bool → List Char → List Char → List (List Char)
  | _, line, [] => if line = [] then [] else [line]
  | returned, line, c :: text =>
    if c = '\n' ∧ returned then splitlinesFrom false line text
    else if isLineBreak c then line :: splitlinesFrom (c = '\r') [] text
    else splitlinesFrom false (line ++ [c]) text

/-- `str.splitlines`. -/
def splitlines (text : List Char) : List (List Char) := splitlinesFrom false [] text

theorem splitlinesFrom_append (front text : List Char) (returned : Bool) (line : List Char)
    (h : returned = true → line = []) :
    splitlinesFrom returned line (front ++ '\n' :: text) = splitlinesFrom returned line (front ++ ['\n']) ++ splitlines text := by
  induction front generalizing returned line with
  | nil =>
    have hbreak : isLineBreak '\n' = true := by decide
    cases returned with
    | false => simp [splitlinesFrom, hbreak, splitlines]
    | true => simp [splitlinesFrom, h rfl, splitlines]
  | cons c front ih =>
    simp only [List.cons_append, splitlinesFrom]
    split
    · rename_i hnewline
      exact ih false line (by simp)
    · split
      · rw [ih _ [] fun _ => rfl, List.cons_append]
      · exact ih false _ (by simp)

/-- The lines of a text that ends with a newline, then those of the next. -/
theorem splitlines_append (front text : List Char) :
    splitlines (front ++ '\n' :: text) = splitlines (front ++ ['\n']) ++ splitlines text :=
  splitlinesFrom_append front text false [] (by simp)

theorem splitlinesFrom_line {text : List Char} (h : ∀ c ∈ text, isLineBreak c = false) (line : List Char) :
    splitlinesFrom false line (text ++ ['\n']) = [line ++ text] := by
  have hbreak : isLineBreak '\n' = true := by decide
  induction text generalizing line with
  | nil => simp [splitlinesFrom, hbreak]
  | cons c text ih =>
    have hc := h c List.mem_cons_self
    simp [splitlinesFrom, hc, ih fun d hd => h d (List.mem_cons_of_mem c hd)]

theorem splitlinesFrom_last {text : List Char} (h : ∀ c ∈ text, isLineBreak c = false) {line : List Char}
    (hne : line ++ text ≠ []) : splitlinesFrom false line text = [line ++ text] := by
  induction text generalizing line with
  | nil =>
    rw [List.append_nil] at hne ⊢
    exact if_neg hne
  | cons c text ih =>
    have hc := h c List.mem_cons_self
    simp [splitlinesFrom, hc, ih fun d hd => h d (List.mem_cons_of_mem c hd)]

theorem splitlines_line {text : List Char} (h : ∀ c ∈ text, isLineBreak c = false) :
    splitlines (text ++ ['\n']) = [text] :=
  splitlinesFrom_line h []

theorem splitlines_line_append {line : List Char} (h : ∀ c ∈ line, isLineBreak c = false) (text : List Char) :
    splitlines (line ++ '\n' :: text) = line :: splitlines text := by
  rw [splitlines_append, splitlines_line h]
  rfl

/-- The last line need not end. -/
theorem splitlines_last {line : List Char} (h : ∀ c ∈ line, isLineBreak c = false) (hne : line ≠ []) :
    splitlines line = [line] := splitlinesFrom_last h hne

theorem isLineBreak_of_ascii {c : Char} (h : 0x20 ≤ c.toNat ∧ c.toNat ≤ 0x7e) : isLineBreak c = false := by
  have hval : c.val.toNat = c.toNat := rfl
  simp only [isLineBreak, Bool.or_eq_false_iff, Bool.and_eq_false_iff, decide_eq_false_iff_not, UInt32.le_iff_toNat_le,
    beq_eq_false_iff_ne, ne_eq, ← UInt32.toNat_inj, hval]
  refine ⟨⟨⟨⟨?_, ?_⟩, ?_⟩, ?_⟩, ?_⟩ <;> simp <;> omega

/-- What is no blank ends no line. -/
theorem isLineBreak_of_isSpace {c : Char} (h : isSpace c = false) : isLineBreak c = false := by
  simp only [isSpace, isLineBreak, Bool.or_eq_false_iff, Bool.and_eq_false_iff, decide_eq_false_iff_not] at h ⊢
  grind

/-! ## Words -/

/-- The words from an open one on. -/
def splitFrom : List Char → List Char → List (List Char)
  | word, [] => if word = [] then [] else [word]
  | word, c :: text =>
    if isSpace c then (if word = [] then splitFrom [] text else word :: splitFrom [] text) else splitFrom (word ++ [c]) text

/-- `str.split()`. -/
def split (text : List Char) : List (List Char) := splitFrom [] text

theorem splitFrom_append {word : List Char} (h : ∀ c ∈ word, isSpace c = false) (front text : List Char) :
    splitFrom front (word ++ text) = splitFrom (front ++ word) text := by
  induction word generalizing front with
  | nil => simp
  | cons c word ih =>
    have hc := h c List.mem_cons_self
    rw [List.cons_append, splitFrom, hc, if_neg (by decide), ih fun d hd => h d (List.mem_cons_of_mem c hd)]
    simp

theorem isSpace_of_isAlphanum {c : Char} (h : c.isAlphanum = true) : isSpace c = false := by
  delta Char.isAlphanum Char.isAlpha Char.isUpper Char.isLower Char.isDigit at h
  simp only [Bool.or_eq_true, Bool.and_eq_true, decide_eq_true_eq, ge_iff_le, UInt32.le_iff_toNat_le] at h
  simp only [isSpace, Bool.or_eq_false_iff, Bool.and_eq_false_iff, decide_eq_false_iff_not, beq_eq_false_iff_ne, ne_eq,
    UInt32.le_iff_toNat_le, ← UInt32.toNat_inj]
  simp at h ⊢
  omega

/-- Words with a blank between them. -/
theorem split_intercalate {words : List (List Char)} (h : ∀ word ∈ words, word ≠ [] ∧ ∀ c ∈ word, isSpace c = false) :
    split ([' '].intercalate words) = words := by
  have hblank : isSpace ' ' = true := by decide
  unfold split
  induction words with
  | nil => rfl
  | cons word words ih =>
    obtain ⟨hne, hword⟩ := h word List.mem_cons_self
    have hrest := ih fun other hmem => h other (List.mem_cons_of_mem word hmem)
    cases words with
    | nil =>
      have hlast := splitFrom_append hword [] []
      rw [List.append_nil, List.nil_append] at hlast
      rw [List.intercalate_singleton, hlast, splitFrom, if_neg hne]
    | cons next words =>
      rw [List.intercalate_cons_cons, List.append_assoc, splitFrom_append hword, List.nil_append, List.singleton_append,
        splitFrom, if_pos hblank, if_neg hne, hrest]

/-! ## `strip` before `split` -/

theorem split_dropWhile (text : List Char) : split (text.dropWhile isSpace) = split text := by
  induction text with
  | nil => rfl
  | cons c text ih =>
    rw [List.dropWhile_cons]
    split
    · rename_i hc
      rw [ih, split, split, splitFrom, if_pos hc, if_pos rfl]
    · rfl

theorem splitFrom_blanks {blanks : List Char} (h : ∀ c ∈ blanks, isSpace c = true) (word text : List Char) :
    splitFrom word (text ++ blanks) = splitFrom word text := by
  induction text generalizing word with
  | nil =>
    induction blanks generalizing word with
    | nil => rfl
    | cons c blanks ih =>
      have hnil := ih (fun d hd => h d (List.mem_cons_of_mem c hd)) []
      rw [List.nil_append] at hnil
      simp [splitFrom, h c List.mem_cons_self, hnil]
  | cons c text ih =>
    rw [List.cons_append, splitFrom, splitFrom, ih, ih]

/-- `text.strip().split()` is `text.split()`. -/
theorem split_trim (text : List Char) : split (trim text) = split text := by
  have hparts : text.dropWhile isSpace = trim text ++ ((text.dropWhile isSpace).reverse.takeWhile isSpace).reverse := by
    rw [trim, ← List.reverse_append, List.takeWhile_append_dropWhile, List.reverse_reverse]
  have hblanks : ∀ c ∈ ((text.dropWhile isSpace).reverse.takeWhile isSpace).reverse, isSpace c = true :=
    fun c hc => List.mem_takeWhile_imp (List.mem_reverse.1 hc)
  rw [← split_dropWhile text, hparts, split, split, splitFrom_blanks hblanks]

end Python

end TxPlatform
