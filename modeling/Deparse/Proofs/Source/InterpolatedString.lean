import Deparse.Proofs.Literal.Interpolation
import Deparse.Proofs.Source.Outcome

/-!
# Interpolated strings in a tree

The node of an interpolated string holds a text to begin with, a first segment and a list of further
ones.  `stringParts` takes from the children the parts of the literal: the texts as they are, and
each interpolation with its own source.

`readLiteral_of_toSource` says of every such node that has a source text: the text is the literal of
the parts, each interpolation starts with an opener, and reading the literal finds the parts again
exactly if no two texts open an interpolation together.  `toSource_stray` is the shortest string of
which the literal is read as an interpolation that the tree does not hold.
-/

namespace Deparse

open Literal Layout Piece

/-! ### The parts of a node -/

/-- The parts that the beginning of a string contributes. -/
def openingParts : Value → List Part
  | .str t => [.text t]
  | _ => []

/-- The parts that a segment contributes: a text as it is, and an interpolation as its source text.
-/
def segmentParts : Value → List Part
  | .node tag cs line synthetic =>
    if tag = Tag.str.label then
      match child cs 0 with
      | .str t => [.text t]
      | _ => []
    else
      match (Value.node tag cs line synthetic).toSource with
      | .ok t => [.splice t]
      | .error _ => []
  | _ => []

/-- The parts of the interpolated string with the given children. -/
def stringParts (cs : List Value) : List Part :=
  openingParts (child cs 0) ++ segmentParts (child cs 1) ++
    (child cs 2).children.flatMap segmentParts

/-- Whether an interpolated string can begin with the value: a text or nothing. -/
def isOpening : Value → Bool
  | .nil | .str _ => true
  | _ => false

/-- A text node, an interpolation or nothing. -/
def isSegment : Value → Bool
  | .nil => true
  | .node tag _ _ _ => tag = Tag.str.label ∨ tag = Tag.evstr.label
  | _ => false

/-- A list of segments, or nothing. -/
def isSegmentList : Value → Bool
  | .nil => true
  | .node tag cs _ _ => tag = Tag.list.label && cs.all isSegment
  | _ => false

/-- The children of an interpolated string: what it begins with, a segment, and the list of all
others. -/
def isInterpolated (cs : List Value) : Bool :=
  isOpening (child cs 0) && isSegment (child cs 1) && isSegmentList (child cs 2)

/-- A text that starts as an interpolation does. -/
def StartsSplice (t : Text) : Prop :=
  ∃ u : Text, t = "#\x7b" ++ u

/-! ### Segments -/

/-- The source text of an interpolation starts as one. -/
theorem startsSplice_of_evstr {cs : List Value} {line : Option Int} {synthetic : Bool} {t : Text}
    (h : (Value.node Tag.evstr.label cs line synthetic).toSource = .ok t) : StartsSplice t := by
  have ok := Value.renders_none_iff.2 h
  unfold Value.Renders at ok
  cases synthetic with
  | true =>
    -- only a node of a tree can be an interpolation
    have refused : (Value.node Tag.evstr.label cs line true).script
        = [.fault (.refused (.unsupportedNode Tag.evstr.label line))] := by
      rw [script_eq_pieces, Value.layout, Tag.ofText?_label]
      rfl
    rw [refused] at ok
    cases ((yields_fault _).unique ok).2
  | false =>
    rw [script_node (Tag.ofText?_label .evstr) rfl] at ok
    cases cs with
    | nil => cases ((yields_fault _).unique ok).2
    | cons c cs =>
      simp only [ofTag, withFirst, pieces_append, pieces_word, List.append_assoc] at ok
      -- the first word of the layout is the opener
      obtain ⟨a, b, ha, -, rfl⟩ := ok.of_append_none
      obtain ⟨rfl, -⟩ := (yields_text _).unique ha
      exact ⟨b, rfl⟩

/-- A segment that can be rendered is written as its parts. -/
theorem segment_written {v : Value} {t : Text} (hv : isSegment v = true)
    (h : Yields (pieces (Layout.segment v)) t none) :
    t = spelling ((segmentParts v).flatMap Part.written) ∧
      ∀ s, .splice s ∈ segmentParts v → StartsSplice s := by
  cases v with
  | nil =>
    obtain ⟨rfl, -⟩ := yields_nil.unique h
    exact ⟨rfl, by simp [segmentParts]⟩
  | node tag cs line synthetic =>
    rcases of_decide_eq_true hv with rfl | rfl
    · -- a text node, which is refused unless it holds a text
      simp only [Layout.segment, ↓reduceIte] at h
      split at h
      · rename_i u hu
        obtain ⟨rfl, -⟩ := (yields_text _).unique h
        simp [segmentParts, hu, Part.written]
      · cases ((yields_fault _).unique h).2
    · -- an interpolation, which is rendered by itself
      have notText : Tag.evstr.label ≠ Tag.str.label := by decide
      simp only [Layout.segment, notText, ↓reduceIte, pieces_visit] at h
      have ok : (Value.node Tag.evstr.label cs line synthetic).toSource = .ok t :=
        Value.renders_none_iff.1 h
      simp only [segmentParts, notText, ↓reduceIte, ok]
      refine ⟨by simp [Part.written, Mark.text], fun s hs => ?_⟩
      obtain rfl := Part.splice.inj (List.mem_singleton.1 hs)
      exact startsSplice_of_evstr ok
  | _ => cases hv

/-- So are segments side by side. -/
theorem segments_written {vs : List Value} {t : Text} (hvs : vs.all isSegment = true)
    (h : Yields (pieces (vs.flatMap Layout.segment)) t none) :
    t = spelling ((vs.flatMap segmentParts).flatMap Part.written) ∧
      ∀ s, .splice s ∈ vs.flatMap segmentParts → StartsSplice s := by
  induction vs generalizing t with
  | nil =>
    obtain ⟨rfl, -⟩ := yields_nil.unique h
    exact ⟨rfl, by simp⟩
  | cons v vs ih =>
    rw [List.all_cons, Bool.and_eq_true] at hvs
    rw [List.flatMap_cons, pieces_append] at h
    -- nothing is at fault, so the first segment is written in full before the others
    obtain ⟨a, b, ha, hb, rfl⟩ := h.of_append_none
    obtain ⟨rfl, hsa⟩ := segment_written hvs.1 ha
    obtain ⟨rfl, hsb⟩ := ih hvs.2 hb
    refine ⟨by simp, fun s hs => ?_⟩
    rw [List.flatMap_cons] at hs
    exact (List.mem_append.1 hs).elim (hsa s) (hsb s)

/-- And the segments in a list, if there is one. -/
theorem furtherSegments_written {v : Value} {t : Text} (hv : isSegmentList v = true)
    (h : Yields (pieces (furtherSegments v)) t none) :
    t = spelling ((v.children.flatMap segmentParts).flatMap Part.written) ∧
      ∀ s, .splice s ∈ v.children.flatMap segmentParts → StartsSplice s := by
  cases v with
  | nil =>
    obtain ⟨rfl, -⟩ := yields_nil.unique h
    exact ⟨rfl, by simp [Value.children]⟩
  | node tag cs line synthetic => exact segments_written (Bool.and_eq_true_iff.1 hv).2 h
  | _ => cases hv

/-! ### Strings -/

/-- The beginning of a string is written as its parts. -/
theorem opening_written {v : Value} (h : isOpening v = true) :
    Layout.opening v = .ok (spelling ((openingParts v).flatMap Part.written)) := by
  cases v with
  | nil => rfl
  | str t =>
    cases t with
    | nil => rfl
    | cons c t =>
      simp [Layout.opening, Value.isBlank, Value.escapedBody, openingParts, Part.written]
  | _ => cases h

/-- The source text of an interpolated string is the literal of its parts. -/
theorem spelling_interpolated {cs : List Value} {line : Option Int} {t : Text}
    (hcs : isInterpolated cs = true)
    (h : (Value.node Tag.dstr.label cs line false).toSource = .ok t) :
    spelling (interpolated (stringParts cs)) = t ∧
      ∀ s, .splice s ∈ stringParts cs → StartsSplice s := by
  simp only [isInterpolated, Bool.and_eq_true] at hcs
  obtain ⟨⟨hopening, hfirst⟩, hfurther⟩ := hcs
  have ok := Value.renders_none_iff.2 h
  unfold Value.Renders at ok
  rw [script_node (Tag.ofText?_label .dstr) rfl] at ok
  simp only [ofTag, opening_written hopening, pieces_append, pieces_word] at ok
  -- nothing of it is at fault, so each of the four parts of the layout writes its share
  obtain ⟨abc, d, habc, hd, rfl⟩ := ok.of_append_none
  obtain ⟨ab, c, hab, hc, rfl⟩ := habc.of_append_none
  obtain ⟨a, b, ha, hb, rfl⟩ := hab.of_append_none
  obtain ⟨rfl, -⟩ := (yields_text _).unique ha
  obtain ⟨rfl, -⟩ := (yields_text _).unique hd
  obtain ⟨rfl, hsb⟩ := segment_written hfirst hb
  obtain ⟨rfl, hsc⟩ := furtherSegments_written hfurther hc
  constructor
  · simp only [interpolated, stringParts, spelling_cons, spelling_append, List.flatMap_append,
      List.append_assoc]
    rfl
  · intro s hs
    rcases List.mem_append.1 hs with hs | hs
    · rcases List.mem_append.1 hs with hs | hs
      · -- a string begins with a text at most
        unfold openingParts at hs
        split at hs <;> simp at hs
      · exact hsb s hs
    · exact hsc s hs

/-- **Interpolated strings are read back part by part**, exactly if no two of their texts open an
interpolation together: then only the interpolations of the tree are met, and the texts before,
between and after them are found as they were. -/
theorem readLiteral_of_toSource {cs : List Value} {line : Option Int} {t : Text}
    (hcs : isInterpolated cs = true)
    (h : (Value.node Tag.dstr.label cs line false).toSource = .ok t) :
    spelling (interpolated (stringParts cs)) = t ∧
      (∀ s, .splice s ∈ stringParts cs → StartsSplice s) ∧
      (¬ Stray (stringParts cs) →
        readLiteral (interpolated (stringParts cs))
          = some ((stringParts cs).flatMap Part.content, [])) ∧
      (Stray (stringParts cs) → readLiteral (interpolated (stringParts cs)) = none) := by
  obtain ⟨hspell, hsplice⟩ := spelling_interpolated hcs h
  obtain ⟨hread, hstray⟩ := readLiteral_interpolated (stringParts cs)
  exact ⟨hspell, hsplice, hread, hstray⟩

/-! Strings with texts that end with a `#`. -/

namespace Hashes

/-- An interpolation. -/
def one : Value :=
  .node "EVSTR" [.node "LIT" [.int 1] none false] none false

/-- Texts that end with a `#`, in front of an interpolation and in front of a text that opens none,
and one that starts with a brace, behind an interpolation. -/
def apart : List Value :=
  [.str "a#", one, .node "LIST"
    [.node "STR" [.str "\x7bb#"] none false, .nil, .node "STR" [.str ""] none false,
      .node "STR" [.str "c"] none false, one, .nil] none false]

/-- The source text of the string of these. -/
def source : Text := "\"a##\x7b1\x7d\x7bb#c#\x7b1\x7d\""

/-- Two texts that open an interpolation together. -/
def together : List Value :=
  [.str "#", .nil, .node "LIST" [.node "STR" [.str "\x7bx\x7d"] none false] none false]

end Hashes

open Hashes in
theorem readLiteral_of_toSource_hash :
    (isInterpolated apart = true ∧
      (Value.node Tag.dstr.label apart none false).toSource = .ok source ∧
      ¬ Stray (stringParts apart)) ∧
    spelling (interpolated (stringParts apart)) = source ∧
    readLiteral (interpolated (stringParts apart))
      = some (marks "a#" ++ .splice "#\x7b1\x7d" :: marks "\x7bb#c" ++ [.splice "#\x7b1\x7d"],
          []) := by
  have shape : isInterpolated apart = true := by decide
  have ok : (Value.node Tag.dstr.label apart none false).toSource = .ok source :=
    Value.renders_none_iff.1 ⟨by decide +kernel, by decide +kernel⟩
  have parts : stringParts apart = [.text "a#", .splice "#\x7b1\x7d", .text "\x7bb#", .text [],
      .text "c", .splice "#\x7b1\x7d"] := by decide +kernel
  have letter : opensSplice "c" = false := rfl
  have tame : ¬ Stray (stringParts apart) := by
    rw [parts]
    simp [stray_text, stray_splice, not_stray_nil, not_opening_splice, opening_text_nil,
      opening_text (t := "c") (by decide), letter]
  obtain ⟨spelled, -, read, -⟩ := readLiteral_of_toSource shape ok
  refine ⟨⟨shape, ok, tame⟩, spelled, ?_⟩
  rw [read tame, parts]
  rfl

open Hashes in
/-- The source text is read as a string with an interpolation, and the tree has none. -/
theorem toSource_stray :
    isInterpolated together = true ∧
      stringParts together = [.text "#", .text "\x7bx\x7d"] ∧
      (Value.node Tag.dstr.label together none false).toSource = .ok "\"#\x7bx\x7d\"" ∧
      readQuoted "\"#\x7bx\x7d\"" = none :=
  ⟨by decide, rfl, Value.renders_none_iff.1 ⟨by decide +kernel, by decide +kernel⟩,
    by decide +kernel⟩

end Deparse
