import CollideOScope.Support.Text

/-!
# Splitting text at a separator

Text is joined from segments by a separator and split again.  Segments without
the separator come back as they were.
-/

namespace CollideOScope

open Nat List

section

variable {α : Type} [DecidableEq α]

/-- `split_once`: around the first separator. -/
def splitOnce (separator : α) : List α → Option (List α × List α)
  | [] => none
  | c :: rest =>
    if c = separator then some ([], rest)
    else (splitOnce separator rest).map fun split => (c :: split.1, split.2)

/-- `rsplit_once`: around the last separator. -/
def rsplitOnce (separator : α) : List α → Option (List α × List α)
  | [] => none
  | c :: rest =>
    match rsplitOnce separator rest with
    | some split => some (c :: split.1, split.2)
    | none => if c = separator then some ([], rest) else none

variable {separator : α} {front back : List α}

theorem splitOnce_append (h : separator ∉ front) :
    splitOnce separator (front ++ separator :: back) = some (front, back) := by
  induction front with
  | nil => simp [splitOnce]
  | cons c front ih =>
    rw [mem_cons, not_or] at h
    simp [splitOnce, Ne.symm h.1, ih h.2]

theorem rsplitOnce_of_notMem {text : List α} (h : separator ∉ text) :
    rsplitOnce separator text = none := by
  induction text with
  | nil => rfl
  | cons c rest ih =>
    rw [mem_cons, not_or] at h
    simp [rsplitOnce, ih h.2, Ne.symm h.1]

theorem rsplitOnce_append (h : separator ∉ back) :
    rsplitOnce separator (front ++ separator :: back) = some (front, back) := by
  induction front with
  | nil => simp [rsplitOnce, rsplitOnce_of_notMem h]
  | cons c front ih => simp [rsplitOnce, ih]

end

def segments (separator : Char) (text : String) : List String :=
  (text.toList.splitOn separator).map String.ofList

def joinSegments (separator : Char) (parts : List String) : String :=
  .ofList ([separator].intercalate (parts.map String.toList))

theorem segments_joinSegments {separator : Char} {parts : List String}
    (hne : parts ≠ []) (h : ∀ part ∈ parts, separator ∉ part.toList) :
    segments separator (joinSegments separator parts) = parts := by
  have hsplit : (joinSegments separator parts).toList.splitOn separator =
      parts.map String.toList := by
    rw [joinSegments, String.toList_ofList]
    refine splitOn_intercalate separator ?_ (by simpa using hne)
    intro part hpart
    obtain ⟨text, htext, rfl⟩ := mem_map.mp hpart
    exact h text htext
  rw [segments, hsplit]
  simp [map_map, Function.comp_def]

theorem toList_joinSegments (separator : Char) (first second : String) (rest : List String) :
    (joinSegments separator (first :: second :: rest)).toList =
      first.toList ++ separator ::
        (joinSegments separator (second :: rest)).toList := by
  simp [joinSegments, intercalate_cons_cons]

theorem head?_toList_of_segments {separator : Char} {text first : String}
    {rest : List String} (h : segments separator text = first :: rest)
    (hne : first.toList ≠ []) : text.toList.head? = first.toList.head? := by
  obtain ⟨front, parts, hsplit, rfl, -⟩ := map_eq_cons_iff.mp h
  rw [String.toList_ofList] at hne ⊢
  have htext : [separator].intercalate (text.toList.splitOn separator) =
      text.toList := intercalate_splitOn separator
  rw [← htext, hsplit]
  cases parts with
  | nil => rw [intercalate_singleton]
  | cons part parts =>
    rw [intercalate_cons_cons, head?_append, head?_append, head?_eq_some_head hne]
    rfl

def decimal (n : ℕ) : String := .ofList (toDigits 10 n)

/-- `str::parse` of an unsigned word of `limit` at most, all of it digits. -/
def parseDigits (limit : ℕ) (text : List Char) : Option ℕ :=
  if text ≠ [] ∧ text.all Char.isDigit ∧ ofDigitChars 10 text 0 ≤ limit then
    some (ofDigitChars 10 text 0)
  else none

variable {limit n : ℕ}

theorem parseDigits_eq_some {text : List Char} :
    parseDigits limit text = some n ↔ IsNumeral n text ∧ n ≤ limit := by
  constructor
  · intro h
    rw [parseDigits] at h
    split_ifs at h with hdigits
    cases h
    exact ⟨isNumeral_of_isDigit hdigits.1 hdigits.2.1, hdigits.2.2⟩
  · rintro ⟨hnum, hlim⟩
    rw [parseDigits, if_pos ⟨hnum.ne_nil, hnum.isDigit, hnum.value.symm ▸ hlim⟩, hnum.value]

theorem parseDigits_decimal (h : n ≤ limit) : parseDigits limit (decimal n).toList = some n := by
  rw [parseDigits_eq_some, decimal, String.toList_ofList]
  exact ⟨isNumeral_toDigits n, h⟩

theorem notMem_decimal {c : Char} (h : c.isDigit = false) (n : ℕ) : c ∉ (decimal n).toList := by
  intro hmem
  rw [decimal, String.toList_ofList] at hmem
  have hdigit := all_eq_true.mp (isNumeral_toDigits n).isDigit c hmem
  rw [h] at hdigit
  cases hdigit

end CollideOScope
