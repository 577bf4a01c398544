import FiniteAutomata.Files.Tree
import FiniteAutomata.Proofs.Text.Pieces
import Mathlib.Data.List.Flatten
import Mathlib.Data.List.TakeWhile

namespace FiniteAutomata

/-!
# The normal form of a path

The normal form leaves out slashes and single dots of the text that a path is
read from and keeps the rest in its order, unless nothing is left and it is the
single dot.  So a text that can be the name of a file has a normal form that
can be one too.
-/

/-! ## Texts with parts left out -/

/-- Pieces may be left out of a text that is put together. -/
theorem Text.joined_sublist (between : String) {kept pieces : List String}
    (some : kept.Sublist pieces) :
    (joined between kept).toList.Sublist (joined between pieces).toList := by
  induction some with
  | slnil => exact List.Sublist.refl _
  | cons piece _ inductionHypothesis =>
    rename_i left rest _
    apply inductionHypothesis.trans
    cases rest with
    | nil => exact List.nil_sublist _
    | cons second others =>
      rw [toList_joined_cons, toList_joined_cons, List.flatMap_cons, List.append_assoc,
        ← List.append_assoc]
      exact List.sublist_append_right _ _
  | cons_cons piece others =>
    rw [toList_joined_cons, toList_joined_cons]
    exact (List.Sublist.refl _).append (others.flatMap _)

theorem utf8ByteSize_ofList_cons (c : Char) (rest : List Char) :
    (String.ofList (c :: rest)).utf8ByteSize =
      c.utf8Size + (String.ofList rest).utf8ByteSize := by
  have parts : String.ofList (c :: rest) = String.singleton c ++ String.ofList rest := by
    rw [← String.toList_inj]
    simp
  rw [parts, String.utf8ByteSize_append, String.utf8ByteSize_singleton]

/-- A text with characters left out has no more octets. -/
theorem utf8ByteSize_le_of_sublist {first second : List Char} (some : first.Sublist second) :
    (String.ofList first).utf8ByteSize ≤ (String.ofList second).utf8ByteSize := by
  induction some with
  | slnil => exact Nat.le_refl _
  | cons c _ inductionHypothesis =>
    rw [utf8ByteSize_ofList_cons]
    exact Nat.le_add_left_of_le inductionHypothesis
  | cons_cons c _ inductionHypothesis =>
    rw [utf8ByteSize_ofList_cons, utf8ByteSize_ofList_cons]
    exact Nat.add_le_add_left inductionHypothesis _

namespace Path

/-! ## Base and names -/

theorem toText_ofSlashes_sublist (count : Nat) :
    (Base.ofSlashes count).toText.toList.Sublist (List.replicate count '/') := by
  unfold Base.ofSlashes
  split
  · exact List.Sublist.refl _
  · exact List.Sublist.refl _
  · rename_i positive _
    cases count with
    | zero => exact absurd rfl positive
    | succ less => exact (List.nil_sublist _).cons_cons '/'

/-- Slashes in front make no names. -/
theorem filter_pieces_of_slashes (keep : String → Bool) (empty : keep "" = false) (count : Nat)
    (rest : List Char) :
    ((Text.splitAt '/' (List.replicate count '/' ++ rest)).map String.ofList).filter keep =
      ((Text.splitAt '/' rest).map String.ofList).filter keep := by
  induction count with
  | zero => rfl
  | succ less inductionHypothesis =>
    rw [List.replicate_succ, List.cons_append, Text.splitAt, if_pos rfl, List.map_cons,
      List.filter_cons_of_neg, inductionHypothesis]
    change ¬ keep "" = true
    simp [empty]

theorem joined_pieces (text : List Char) :
    (Text.joined "/" ((Text.splitAt '/' text).map String.ofList)).toList = text := by
  have lists : ((Text.splitAt '/' text).map String.ofList).map String.toList =
      Text.splitAt '/' text := by
    rw [List.map_map]
    exact List.map_id'' (fun _ => String.toList_ofList) _
  rw [Text.joined, String.toList_intercalate, lists, Text.splitAt_eq_splitOn]
  simp

/-- What stands in a normal form stands in the text, in the same order. -/
theorem toText_ofText_sublist (text : String) :
    (ofText text).toText = "." ∨ (ofText text).toText.toList.Sublist text.toList := by
  unfold toText
  split
  · exact .inl rfl
  · right
    have slashes : text.toList.takeWhile (· == '/') =
        List.replicate (text.toList.takeWhile (· == '/')).length '/' := by
      rw [List.eq_replicate_iff]
      refine ⟨rfl, fun c member => ?_⟩
      have same := List.mem_takeWhile_imp member
      simpa using same
    have whole : text.toList = List.replicate (text.toList.takeWhile (· == '/')).length '/' ++
        text.toList.dropWhile (· == '/') := by
      rw [← slashes, List.takeWhile_append_dropWhile]
    have names : (ofText text).names =
        ((Text.splitAt '/' (text.toList.dropWhile (· == '/'))).map String.ofList).filter
          fun piece => piece != "" && piece != "." := by
      change (pieces text).filter (fun piece => piece != "" && piece != ".") = _
      conv_lhs => rw [pieces, whole]
      exact filter_pieces_of_slashes _ (by decide) _ _
    have kept := Text.joined_sublist "/" (names ▸ List.filter_sublist)
    rw [joined_pieces] at kept
    rw [String.toList_append, whole]
    exact (toText_ofSlashes_sublist _).append kept

end Path

/-! ## Names of files -/

theorem FileFault.ofText?_eq_none_iff {text : String} :
    ofText? text = none ↔ '\x00' ∉ text.toList ∧ text.utf8ByteSize < Path.lengthLimit := by
  unfold ofText?
  by_cases null : '\x00' ∈ text.toList
  · simp [null]
  · by_cases long : Path.lengthLimit ≤ text.utf8ByteSize
    · simp [null, long]
    · simp [null, long, Nat.lt_of_not_le long]

/-- A text that can be the name of a file has a normal form that can be one. -/
theorem FileFault.ofText?_toText_ofText {text : String} (possible : ofText? text = none) :
    ofText? (Path.ofText text).toText = none := by
  rcases Path.toText_ofText_sublist text with single | kept
  · rw [single]
    decide
  · rcases ofText?_eq_none_iff.mp possible with ⟨clear, short⟩
    have size := utf8ByteSize_le_of_sublist kept
    rw [String.ofList_toList, String.ofList_toList] at size
    exact ofText?_eq_none_iff.mpr
      ⟨fun null => clear (kept.subset null), Nat.lt_of_le_of_lt size short⟩

end FiniteAutomata
