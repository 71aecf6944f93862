import Deparse.Document.Load
import Deparse.Proofs.Document.TreeData
import Deparse.Proofs.Json.Ascii

/-!
# Documents come back

A report on a document that was loaded holds the data of its tree.  Whoever reads the report finds
them, and can write them as a document of their own, which is then loaded as the same tree
(`load_of_toJson`).

The report is written with every character as it is, since the name of the document may be any text;
the data alone are written in ASCII, so that they can be encoded whatever surrogates the texts of
the tree hold.
-/

namespace Deparse

namespace Document

/-! ### Loading -/

theorem parse_eq_ok {source : Text} {t : Value} (h : parse source = .ok t) :
    ∃ d, Json.read source = .ok d ∧ d.ofNodeData = .ok t := by
  unfold parse at h
  split at h
  · cases h
  · cases h
  · rename_i d read
    split at h
    · cases h
    · rename_i tree built
      cases h
      exact ⟨d, read, built⟩

theorem parse_of_read {source : Text} {d t : Value} (read : Json.read source = .ok d)
    (built : d.ofNodeData = .ok t) : parse source = .ok t := by
  simp only [parse, read, built]

/-- A document that is loaded strictly can be encoded, and is a tree. -/
theorem load_strict_eq_ok {name source : Text} {r : Report} (h : load .strict name source = .ok r) :
    source.encodable = true ∧
      ∃ digest t, parse source = .ok t ∧ r = ⟨some t, [], digest, name⟩ := by
  unfold load at h
  split at h
  · cases h
  · rename_i bytes encoded
    refine ⟨by rw [Text.encodable, encoded]; rfl, ?_⟩
    simp only at h
    split at h
    · rename_i t parsed
      cases h
      exact ⟨_, t, parsed, rfl⟩
    · rename_i strict
      cases strict
    · cases h

theorem load_of_parse {source : Text} {t : Value} (encodable : source.encodable = true)
    (parsed : parse source = .ok t) (name : Text) :
    ∃ r, load .strict name source = .ok r ∧ r.tree = some t := by
  obtain ⟨bytes, encoded⟩ := Option.isSome_iff_exists.1 encodable
  exact ⟨⟨some t, [], Sha256.hexDigest bytes, name⟩, by simp only [load, encoded, parsed], rfl⟩

/-- The data of a tree that was loaded are a document in every style, if it has no floats. -/
theorem document_toData_of_parse {source : Text} {t : Value} (encodable : source.encodable = true)
    (parsed : parse source = .ok t) (floatFree : t.isFloatFree = true) (ascii : Bool) :
    Json.Document ascii t.toData := by
  obtain ⟨d, read, built⟩ := parse_eq_ok parsed
  have data : Json.Spellable d := Json.spellable_of_read (Text.encodable_iff.1 encodable) read
  obtain ⟨built, -⟩ := Value.exists_node_of_ofNodeData built
  exact Value.document_toData (Value.spellable_of_ofDataAt data built)
    (Value.isReal_of_ofData built) floatFree ascii

/-- The tree is read again from its data. -/
theorem parse_ofTree {source : Text} {t : Value} (encodable : source.encodable = true)
    (parsed : parse source = .ok t) (floatFree : t.isFloatFree = true) :
    (ofTree t).encodable = true ∧ parse (ofTree t) = .ok t := by
  have written : Json.Document true t.toData :=
    document_toData_of_parse encodable parsed floatFree true
  obtain ⟨d, -, built⟩ := parse_eq_ok parsed
  exact ⟨Text.encodable_iff.2 (Json.isScalar_write written),
    parse_of_read (Json.read_write .escaped written) (Value.ofNodeData_toData built)⟩

/-- Reloading finds the tree that was written. -/
theorem reload_eq {source : Text} {t : Value} (encodable : source.encodable = true)
    (parsed : parse source = .ok t) (floatFree : t.isFloatFree = true) :
    reload source = .ok (true, t.toSource) := by
  have again := (parse_ofTree encodable parsed floatFree).2
  simp [reload, parsed, again, bind, Except.bind, pure, Except.pure]

/-! ### Reading a report -/

/-- The member of an object with the key. -/
def member? (key : Text) : Value → Option Value
  | .object ms => ms.lookup key
  | _ => none

/-- The key of the data of the tree in a report. -/
def treeKey : Text := "ast"

/-- A report without issues is read back as what it says. -/
theorem read_toJson {t : Value} {digest name : Text} (data : Json.Document false t.toData) :
    Json.read (Report.toJson ⟨some t, [], digest, name⟩)
      = .ok (Report.toData ⟨some t, [], digest, name⟩) := by
  refine Json.read_write .indented (.object ?_ (fun h => by cases h) fun m hm => ?_)
  · have distinct : ([treeKey, "issues", "source_hash", "source_name"] : List Text).Nodup := by
      decide
    exact distinct
  · simp only [List.mem_cons, List.not_mem_nil, or_false] at hm
    rcases hm with rfl | rfl | rfl | rfl
    · exact data
    · exact .array (by simp)
    · exact .str fun h => by cases h
    · exact .str fun h => by cases h

/-- **A document comes back from a report on it.**  If a document was loaded as a tree without
floats, then the report is read as data with the data of the tree in them, and these, written as a
document, are loaded as the same tree, which has the same source or the same fault. -/
theorem load_of_toJson {name source : Text} {r : Report} {t : Value}
    (loaded : load .strict name source = .ok r) (tree : r.tree = some t)
    (floatFree : t.isFloatFree = true) (name' : Text) :
    ∃ d ast again, Json.read r.toJson = .ok d ∧ member? treeKey d = some ast ∧
      load .strict name' (Json.write .escaped ast) = .ok again ∧ again.tree = some t ∧
      again.tree.map Value.toSource = r.tree.map Value.toSource := by
  obtain ⟨encodable, digest, u, parsed, rfl⟩ := load_strict_eq_ok loaded
  obtain rfl : u = t := Option.some.inj tree
  have data := document_toData_of_parse encodable parsed floatFree false
  obtain ⟨encodable', again⟩ := parse_ofTree encodable parsed floatFree
  obtain ⟨r', reloaded, same⟩ := load_of_parse encodable' again name'
  exact ⟨_, u.toData, r', read_toJson data, rfl, reloaded, same, by rw [same]⟩

/-! A document with a surrogate pair, a surrogate that has no other half, and a key that is there
twice. -/

namespace Literals

/-- The document. -/
def source : Text :=
  "\x7b\"lineno\": 3, \"type\": \"STR\", \"children\": [\x7b\"sym\": \"a b\"\x7d, " ++
  "\"\\\"\\t\\ud83d\\ude00\", [null, true, -12, \"\\ud803x\"]], \"type\": \"LIT\"\x7d"

/-- Its tree. -/
def tree : Value :=
  .node "LIT" [.sym "a b", .str "\"\t😀",
    .seq [.nil, .bool true, .int (-12), .str [.ofUnit 0xD803, .scalar 'x']]] (some 3) false

end Literals

open Literals in
theorem load_of_toJson_literal :
    ∃ r, (load .strict "a" source = .ok r ∧ r.tree = some tree ∧ tree.isFloatFree = true) ∧
      ∃ d ast again, Json.read r.toJson = .ok d ∧ member? treeKey d = some ast ∧
        load .strict "b" (Json.write .escaped ast) = .ok again ∧ again.tree = some tree ∧
        again.tree.map Value.toSource = r.tree.map Value.toSource := by
  have encodable : source.encodable = true := by decide +kernel
  have parsed : parse source = .ok tree := by decide +kernel
  obtain ⟨r, loaded, same⟩ := load_of_parse encodable parsed "a"
  exact ⟨r, ⟨loaded, same, by decide⟩, load_of_toJson loaded same (by decide) "b"⟩

end Document

end Deparse
