import Deparse.Document.Load
import Deparse.Proofs.Json.LongInteger

/-!
# Tolerant loading

Tolerant loading comes to a report that says either what the tree is or what the one thing is that
is wrong with the document.  The exceptions are a document that cannot be encoded, and one in which
the reader arrives at an integer of too many digits: they fail in either mode
(`load_tolerant_total_iff`).

A document without surrogates in which no more digits stand in a row than an integer may have is
always reported on (`exists_report`).
-/

namespace Deparse

theorem Text.utf8?_eq_none_iff {t : Text} : t.utf8? = none ↔ ¬ t.IsScalar := by
  have encodable : t.encodable = true ↔ t.IsScalar := Text.encodable_iff
  rw [← encodable, Text.encodable, Option.isSome_iff_ne_none]
  exact not_not.symm

namespace Document

/-- Whether a report either has a tree and no issue, or no tree and one issue. -/
def Report.IsConclusive (r : Report) : Prop :=
  (r.tree.isSome = true ∧ r.issues = []) ∨ (r.tree = none ∧ ∃ i, r.issues = [i])

/-- Whether the reader arrives at an integer of too many digits. -/
def HoldsLongInteger (source : Text) : Prop :=
  Json.MeetsLongInteger (.value []) source

/-! ### Parsing -/

theorem parse_eq_longInteger_iff {source : Text} :
    parse source = .error .longInteger ↔ HoldsLongInteger source := by
  rw [HoldsLongInteger, ← Json.read_eq_longInteger_iff, parse]
  split
  · rename_i read
    exact iff_of_true rfl read
  · rename_i p line read
    rw [read]
    simp
  · rename_i d read
    rw [read]
    split <;> simp

/-- Parsing alone does not ask whether a document can be encoded. -/
theorem parse_ne_unencodable (source : Text) : parse source ≠ .error .unencodable := by
  unfold parse
  split
  · simp
  · simp
  · split <;> simp

/-! ### Loading -/

/-- The two ways in which tolerant loading fails, and otherwise the report. -/
theorem load_tolerant_cases (name source : Text) :
    (¬ source.IsScalar ∧ load .tolerant name source = .error .unencodable) ∨
      (source.IsScalar ∧ HoldsLongInteger source ∧
        load .tolerant name source = .error .longInteger) ∨
      source.IsScalar ∧ ¬ HoldsLongInteger source ∧
        ∃ r : Report, load .tolerant name source = .ok r ∧ r.IsConclusive := by
  cases encoded : source.utf8? with
  | none =>
    refine .inl ⟨Text.utf8?_eq_none_iff.1 encoded, ?_⟩
    rw [load, encoded]
  | some bytes =>
    have scalar : source.IsScalar := by
      by_contra surrogate
      rw [Text.utf8?_eq_none_iff.2 surrogate] at encoded
      cases encoded
    refine .inr ?_
    -- a document that can be encoded is reported on unless parsing fails without rejecting it
    cases parsed : parse source with
    | ok t =>
      have short : ¬ HoldsLongInteger source := by
        rw [← parse_eq_longInteger_iff, parsed]
        simp
      exact .inr ⟨scalar, short, _, by rw [load, encoded, parsed], .inl ⟨rfl, rfl⟩⟩
    | error f =>
      cases f with
      | rejected e =>
        have short : ¬ HoldsLongInteger source := by
          rw [← parse_eq_longInteger_iff, parsed]
          simp
        exact .inr ⟨scalar, short, _, by rw [load, encoded, parsed], .inr ⟨rfl, _, rfl⟩⟩
      | longInteger =>
        exact .inl ⟨scalar, parse_eq_longInteger_iff.1 parsed, by rw [load, encoded, parsed]⟩
      | unencodable => exact absurd parsed (parse_ne_unencodable source)

/-- A document without surrogates in which no more digits stand in a row than an integer may have is
reported on. -/
theorem exists_report (name : Text) {source : Text} (scalar : source.IsScalar)
    (short : ∀ (before : Text) (ds : List Nat) (after : Text), (∀ d ∈ ds, d < 10) →
      source = before ++ ds.map (fun d => (Numeral.lowerDigit d : CodePoint)) ++ after →
        ds.length ≤ Json.integerDigits) :
    ∃ r : Report, load .tolerant name source = .ok r ∧ r.IsConclusive := by
  rcases load_tolerant_cases name source with ⟨surrogate, -⟩ | ⟨-, long, -⟩ | ⟨-, -, reported⟩
  · exact absurd scalar surrogate
  · obtain ⟨before, ds, after, spelled, digits, many⟩ := long.exists_digits
    exact absurd many (Nat.not_lt.2 (short before ds after digits spelled))
  · exact reported

/-- **Tolerant loading reports, but for long integers.**  A document without surrogates is loaded
tolerantly as a report that has a tree and no issue, or no tree and one issue, if and only if
reading it does not arrive at an integer of too many digits; if it does, loading fails for that
reason.  It fails for no other reason than this one and that the document cannot be encoded. -/
theorem load_tolerant_total_iff (name source : Text) :
    ((∃ r : Report, load .tolerant name source = .ok r ∧ r.IsConclusive) ↔
        source.IsScalar ∧ ¬ HoldsLongInteger source) ∧
      ∀ f, load .tolerant name source = .error f ↔
        (f = .longInteger ∧ source.IsScalar ∧ HoldsLongInteger source) ∨
          f = .unencodable ∧ ¬ source.IsScalar := by
  rcases load_tolerant_cases name source with
    ⟨surrogate, failed⟩ | ⟨scalar, long, failed⟩ | ⟨scalar, short, r, loaded, conclusive⟩
  · -- a surrogate: loading fails before anything is read
    rw [failed]
    refine ⟨iff_of_false (by rintro ⟨r, ⟨⟩, -⟩) fun h => surrogate h.1, fun f => ?_⟩
    constructor
    · rintro ⟨⟩
      exact .inr ⟨rfl, surrogate⟩
    · rintro (⟨-, scalar, -⟩ | ⟨rfl, -⟩)
      · exact absurd scalar surrogate
      · rfl
  · -- a long integer
    rw [failed]
    refine ⟨iff_of_false (by rintro ⟨r, ⟨⟩, -⟩) fun h => h.2 long, fun f => ?_⟩
    constructor
    · rintro ⟨⟩
      exact .inl ⟨rfl, scalar, long⟩
    · rintro (⟨rfl, -⟩ | ⟨-, surrogate⟩)
      · rfl
      · exact absurd scalar surrogate
  · rw [loaded]
    refine ⟨iff_of_true ⟨r, rfl, conclusive⟩ ⟨scalar, short⟩, fun f => iff_of_false (by simp) ?_⟩
    rintro (⟨-, -, long⟩ | ⟨-, surrogate⟩)
    · exact short long
    · exact surrogate scalar

/-! ### A tree that cannot be loaded -/

/-- The document of a literal, up to the number in it. -/
def literalStart : Text := "\x7b\"type\": \"LIT\", \"children\": ["

/-- The start is read up to the first child of the literal. -/
theorem reads_literalStart : Json.Reads Json.Anything (.value []) literalStart
    (.firstItem [.object [("type", .str "LIT")] "children"]) := by
  have spelled : literalStart = "\x7b" ++ (Json.quotedText false "type" ++ (":" ++ (" " ++
      (Json.quotedText false "LIT" ++ ("," ++ (" " ++ (Json.quotedText false "children" ++
        (":" ++ (" " ++ ("[" : Text)))))))))) := rfl
  have blank (s : Json.State) : Json.Reads Json.Anything s " " s :=
    Json.reads_blanks s (by decide)
  have quoted {s s' : Json.State} (t : Text)
      (step : ∀ line, s.step ⟨.text t, line⟩ = .ok s') :
      Json.Reads Json.Anything s (Json.quotedText false t) s' :=
    Json.reads_quotedText (by simp) step
  -- brace, key, colon and blank, and so on up to the bracket of the children
  rw [spelled]
  refine (Json.reads_punctuation rfl rfl rfl fun _ => rfl).then ?_
  refine (quoted "type" fun _ => rfl).then ?_
  refine (Json.reads_punctuation rfl rfl rfl fun _ => rfl).then ((blank _).then ?_)
  refine (quoted "LIT" fun _ => rfl).then ?_
  refine (Json.reads_punctuation rfl rfl rfl fun _ => rfl).then ((blank _).then ?_)
  refine (quoted "children" fun _ => rfl).then ?_
  refine (Json.reads_punctuation rfl rfl rfl fun _ => rfl).then ((blank _).then ?_)
  exact Json.reads_punctuation rfl rfl rfl fun _ => rfl

/-- One digit more than an integer may have, and no number goes on behind it. -/
theorem startsLong_replicate {rest : Text} (stop : Json.continuesNumber rest = false) :
    Json.StartsLong (List.replicate (Json.integerDigits + 1) (.scalar '1') ++ rest) := by
  refine .inl ⟨List.replicate (Json.integerDigits + 1) 1, rest, ?_, ?_, ?_, ?_, stop⟩
  · rw [List.map_replicate]
    rfl
  · intro d hd
    rw [List.eq_of_mem_replicate hd]
    decide
  · rw [List.replicate_succ]
    decide
  · rw [List.length_replicate]
    exact Nat.lt_succ_self _

/-- The document of a literal of one digit too many. -/
def longLiteral : Text :=
  literalStart ++ (List.replicate (Json.integerDigits + 1) (.scalar '1') ++ ("]\x7d" : Text))

theorem isScalar_longLiteral : longLiteral.IsScalar := by
  have digits : Text.IsScalar (List.replicate (Json.integerDigits + 1) (.scalar '1')) :=
    fun c hc => ⟨'1', List.eq_of_mem_replicate hc⟩
  exact (Text.isScalar_ofString _).append (digits.append (Text.isScalar_ofString _))

theorem holdsLongInteger_longLiteral : HoldsLongInteger longLiteral := by
  rw [HoldsLongInteger, ← Json.run_eq_longInteger_iff _ _ 1]
  obtain ⟨line, read⟩ := reads_literalStart 1
    (List.replicate (Json.integerDigits + 1) (.scalar '1') ++ ("]\x7d" : Text)) trivial
  rw [longLiteral, read]
  exact Json.run_eq_longInteger_of_arrives (.here _ _) rfl (startsLong_replicate rfl) line

/-- Tolerant loading of the document of a literal fails, though the document has no surrogates. -/
theorem load_tolerant_longLiteral :
    longLiteral.IsScalar ∧ load .tolerant "<input>" longLiteral = .error .longInteger ∧
      ¬ ∃ r : Report, load .tolerant "<input>" longLiteral = .ok r ∧ r.IsConclusive := by
  have failed : load .tolerant "<input>" longLiteral = .error .longInteger := by
    rcases load_tolerant_cases "<input>" longLiteral with
      ⟨surrogate, -⟩ | ⟨-, -, failed⟩ | ⟨-, short, -⟩
    · exact absurd isScalar_longLiteral surrogate
    · exact failed
    · exact absurd holdsLongInteger_longLiteral short
  refine ⟨isScalar_longLiteral, failed, ?_⟩
  rw [failed]
  rintro ⟨r, ⟨⟩, -⟩

end Document

end Deparse
