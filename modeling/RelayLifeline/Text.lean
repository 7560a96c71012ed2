import Mathlib.Data.List.Infix

/-!
# The string functions the source calls

Go strings are read as Lean strings, that is as valid UTF-8, and the standard
library's functions on them as functions on the list of runes.
-/

namespace RelayLifeline

/-- `unicode.IsSpace`. -/
def isSpace (c : Char) : Bool :=
  let n := c.toNat
  (9 ≤ n && n ≤ 13) || n == 0x20 || n == 0x85 || n == 0xA0 || n == 0x1680 ||
    (0x2000 ≤ n && n ≤ 0x200a) || n == 0x2028 || n == 0x2029 || n == 0x202f ||
    n == 0x205f || n == 0x3000

/-- `strings.TrimSpace`. -/
def trimSpace (s : String) : String :=
  String.ofList ((s.toList.dropWhile isSpace).reverse.dropWhile isSpace).reverse

/-- A text without spaces is its own trimming. -/
theorem trimSpace_of_no_space {s : String} (h : ∀ c ∈ s.toList, isSpace c = false) :
    trimSpace s = s := by
  have hkeep (l : List Char) (hl : ∀ c ∈ l, isSpace c = false) : l.dropWhile isSpace = l := by
    cases l with
    | nil => rfl
    | cons c l => simp [hl c List.mem_cons_self]
  rw [trimSpace, hkeep _ h, hkeep _ fun c hc => h c (List.mem_reverse.1 hc), List.reverse_reverse,
    String.ofList_toList]

/-- `strings.SplitN(s, sep, 2)` for a one-rune separator: the two sides of its
first occurrence, if it occurs. -/
def splitFirst (sep : Char) (s : String) : Option (String × String) :=
  match s.toList.dropWhile (· ≠ sep) with
  | [] => none
  | _ :: rest => some (String.ofList (s.toList.takeWhile (· ≠ sep)), String.ofList rest)

theorem splitFirst_append {sep : Char} {left right : String} (h : sep ∉ left.toList) :
    splitFirst sep (left ++ (String.singleton sep ++ right)) = some (left, right) := by
  have hall : ∀ c ∈ left.toList, decide (c ≠ sep) = true := by
    intro c hc
    simp only [decide_eq_true_eq]
    rintro rfl
    exact h hc
  have hdrop : (left.toList ++ sep :: right.toList).dropWhile (fun c => decide (c ≠ sep)) =
      sep :: right.toList := by
    rw [List.dropWhile_append_of_pos hall]
    simp
  have htake : (left.toList ++ sep :: right.toList).takeWhile (fun c => decide (c ≠ sep)) =
      left.toList := by
    rw [List.takeWhile_append_of_pos hall]
    simp
  have hlist : (left ++ (String.singleton sep ++ right)).toList =
      left.toList ++ sep :: right.toList := by
    simp
  unfold splitFirst
  rw [hlist, hdrop, htake]
  simp

/-- `strings.Contains`. -/
def contains (s substr : String) : Bool := decide (substr.toList <:+: s.toList)

/-- `strings.HasSuffix`. -/
def hasSuffix (s suffix : String) : Bool := suffix.toList.isSuffixOf s.toList

/-- `strings.TrimSuffix`. -/
def trimSuffix (s suffix : String) : String :=
  if hasSuffix s suffix then
    String.ofList (s.toList.take (s.toList.length - suffix.toList.length))
  else s

theorem trimSuffix_append (l : List Char) (suffix : String) :
    trimSuffix (String.ofList (l ++ suffix.toList)) suffix = String.ofList l := by
  have hsuffix : hasSuffix (String.ofList (l ++ suffix.toList)) suffix = true := by
    rw [hasSuffix, List.isSuffixOf_iff_suffix, String.toList_ofList]
    exact List.suffix_append _ _
  rw [trimSuffix, if_pos hsuffix, String.toList_ofList, List.length_append, Nat.add_sub_cancel,
    List.take_left]

end RelayLifeline
