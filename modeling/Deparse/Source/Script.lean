import Deparse.Source.Layout

/-!
# The rendering of a tree

Every layout is put together from words, faults, visits and whole scopes, and what it visits is made
of parts of the value laid out (`built_layout`).  So a layout visits only values that are smaller
(`size_lt_of_visit`), and the rendering of a tree ends.

The *script* of a value is the list of all pieces of its rendering: its layout with every visit
replaced by the script of the visited value (`script_eq`).  `Value.toSource` is the text of a script
without faults.
-/

namespace Deparse

/-! ### What layouts are made of -/

namespace Layout

/-- Steps put together from words, faults, visits and whole scopes, with `V` of all that they
visit. -/
inductive Built (V : Value → Prop) : List Step → Prop
  | nil : Built V []
  | text (t : Text) : Built V [.put (.text t)]
  | fault (f : Fault) : Built V [.put (.fault f)]
  | visit {v : Value} (h : V v) : Built V [.visit v]
  | scope {vs : List Value} (h : ∀ v ∈ vs, V v) : Built V (scope vs)
  | append {a b : List Step} (ha : Built V a) (hb : Built V b) : Built V (a ++ b)

variable {V : Value → Prop}

theorem Built.of_visit {steps : List Step} (h : Built V steps) :
    ∀ v, .visit v ∈ steps → V v := by
  induction h with
  | nil | text | fault => simp
  | visit h => simp [h]
  | @scope vs h =>
    intro v hv
    have member : v ∈ vs ∧ v.isPresent = true := by simpa [Layout.scope, word] using hv
    exact h v member.1
  | append _ _ iha ihb =>
    intro v hv
    exact (List.mem_append.1 hv).elim (iha v) (ihb v)

theorem Built.mono {W : Value → Prop} {steps : List Step} (h : Built V steps)
    (hVW : ∀ v, V v → W v) : Built W steps := by
  induction h with
  | nil => exact .nil
  | text t => exact .text t
  | fault f => exact .fault f
  | visit h => exact .visit (hVW _ h)
  | scope h => exact .scope fun v hv => hVW v (h v hv)
  | append _ _ iha ihb => exact .append iha ihb

@[simp] theorem built_word (t : Text) : Built V (word t) := .text t

@[simp] theorem built_refuse (r : Refusal) : Built V (refuse r) := .fault _

@[simp] theorem built_malformed (m : Malformation) : Built V (malformed m) := .fault _

theorem built_flatten {ls : List (List Step)} (h : ∀ l ∈ ls, Built V l) : Built V ls.flatten := by
  induction ls with
  | nil => exact .nil
  | cons l ls ih =>
    exact .append (h l (by simp)) (ih fun m hm => h m (List.mem_cons_of_mem _ hm))

theorem built_intercalate {ls : List (List Step)} (separator : Text) (h : ∀ l ∈ ls, Built V l) :
    Built V (List.intercalate (word separator) ls) := by
  apply built_flatten
  intro l hl
  -- the separators are words, and stand between any two of the lists
  induction ls with
  | nil => simp at hl
  | cons a ls ih =>
    cases ls with
    | nil => simp_all
    | cons b ls =>
      simp only [List.intersperse_cons_cons, List.mem_cons] at hl
      rcases hl with rfl | rfl | hl
      · exact h _ (by simp)
      · exact built_word separator
      · exact ih (fun l hl => h l (List.mem_cons_of_mem _ hl)) hl

theorem mem_of_mem_withoutSentinel {v : Value} {vs : List Value}
    (h : v ∈ withoutSentinel vs) : v ∈ vs := by
  unfold withoutSentinel at h
  split at h
  · exact (List.dropLast_sublist vs).mem h
  · exact h

/-! The slots and lists, of values that satisfy a property that passes on to parts. -/

section Parts

variable (hV : Value.Hereditary V)
include hV

theorem of_child {cs : List Value} (h : ∀ v ∈ cs, V v) (i : Nat) : V (child cs i) := by
  by_cases hi : i < cs.length
  · simpa [child, hi] using h _ (List.getElem_mem hi)
  · simpa [child, Nat.le_of_not_lt hi] using hV.nil

/-- A slot visits the value in it, or the members of a sequence. -/
theorem built_slot {v : Value} (h : V v) : Built V (slot v) := by
  cases v with
  | nil => exact .nil
  | str t => exact .text t
  | seq xs | array xs => exact .scope fun w hw => hV.part h hw
  | node tag cs line synthetic => exact .visit h
  | _ => exact .fault _

theorem built_map_slot {vs : List Value} (h : ∀ v ∈ vs, V v) : ∀ l ∈ vs.map slot, Built V l := by
  intro l hl
  obtain ⟨v, hv, rfl⟩ := List.mem_map.1 hl
  exact built_slot hV (h v hv)

theorem built_listed {vs : List Value} (h : ∀ v ∈ vs, V v) : Built V (listed vs) :=
  built_intercalate _ (built_map_slot hV fun v hv => h v (List.mem_filter.1 hv).1)

theorem built_withChildren {v : Value} {layout : List Value → List Step} (h : V v)
    (hl : ∀ cs, (∀ w ∈ cs, V w) → Built V (layout cs)) : Built V (withChildren v layout) := by
  cases v with
  | node tag cs line synthetic => exact hl cs fun w hw => hV.part h hw
  | _ => exact built_malformed _

omit hV in
theorem built_withFirst {cs : List Value} {layout : Value → List Step} (h : ∀ v ∈ cs, V v)
    (hl : ∀ v, V v → Built V (layout v)) : Built V (withFirst cs layout) := by
  cases cs with
  | nil => exact built_malformed _
  | cons v vs => exact hl v (h v (by simp))

/-! The parts of layouts. -/

theorem built_arguments {v : Value} (h : V v) : Built V (arguments v) := by
  unfold arguments
  split
  · split
    · exact built_listed hV fun w hw => hV.part h hw
    · exact built_slot hV h
  · exact built_slot hV h

/-- A value is among those that were paired, or is the absent one that a last key is paired with. -/
theorem of_mem_pairs {vs : List Value} (h : ∀ v ∈ vs, V v) {p : Value × Value}
    (hp : p ∈ pairs vs) : V p.1 ∧ V p.2 := by
  fun_induction pairs vs with
  | case1 | case2 => cases hp
  | case3 k =>
    cases List.mem_singleton.1 hp
    exact ⟨h k (List.mem_singleton_self k), hV.nil⟩
  | case4 k v vs hk ih =>
    rcases List.mem_cons.1 hp with rfl | hp
    · exact ⟨h k (by simp), h v (by simp)⟩
    · exact ih (fun w hw => h w (by simp [hw])) hp

theorem built_pairs {vs : List Value} (h : ∀ v ∈ vs, V v) :
    ∀ l ∈ (pairs vs).map pair, Built V l := by
  intro l hl
  obtain ⟨p, hp, rfl⟩ := List.mem_map.1 hl
  obtain ⟨key, value⟩ := of_mem_pairs hV h hp
  exact .append (.append (built_slot hV key) (built_word _)) (built_slot hV value)

theorem built_block (table spec : Value) {body : Value} (h : V body) :
    Built V (block table spec body) := by
  unfold block
  split
  · exact built_malformed _
  · refine .append (.append (.append (.append (built_word _) ?_) (built_word _))
      (built_slot hV h)) (built_word _)
    split
    · exact .nil
    · exact built_word _

omit hV in
theorem built_segment {v : Value} (h : V v) : Built V (segment v) := by
  unfold segment
  split
  · exact .nil
  · split
    · split <;> simp
    · split
      · exact .visit h
      · exact built_refuse _
  · exact built_refuse _

theorem built_furtherSegments {v : Value} (h : V v) : Built V (furtherSegments v) := by
  unfold furtherSegments
  split
  · exact .nil
  · refine built_withChildren hV h fun cs hcs => ?_
    rw [List.flatMap_def]
    apply built_flatten
    intro l hl
    obtain ⟨w, hw, rfl⟩ := List.mem_map.1 hl
    exact built_segment (hcs w hw)

theorem built_operation {left right : Value} (op : Text) (hl : V left) (hr : V right) :
    Built V (operation left op right) := by
  unfold operation
  split
  · exact .append (.append (built_word _) (built_slot hV hl)) (built_word _)
  · split
    · exact .append (.append (built_word _) (built_slot hV hl)) (built_word _)
    · refine built_withChildren hV hr fun cs hcs => built_withFirst hcs fun v hv => ?_
      exact .append (.append (built_slot hV hl) (built_word _)) (built_slot hV hv)

theorem built_conditional (keyword : Text) {cs : List Value} (h : ∀ v ∈ cs, V v) :
    Built V (conditional keyword cs) := by
  have slots (i : Nat) : Built V (slot (child cs i)) := built_slot hV (of_child hV h i)
  refine .append (.append (.append (.append (.append (built_word _) (slots 0)) (built_word _))
    (slots 1)) ?_) (built_word _)
  split
  · exact .append (built_word _) (slots 2)
  · exact .nil

theorem built_loop {test body : Value} (first : Value) (ht : V test) (hb : V body) :
    Built V (loop test body first) := by
  unfold loop
  split
  · exact .append (.append (.append (built_word _) (built_slot hV hb)) (built_word _))
      (built_slot hV ht)
  · exact .append (.append (.append (.append (built_word _) (built_slot hV ht)) (built_word _))
      (built_slot hV hb)) (built_word _)

theorem built_assignElement {receiver args : Value} (op : Text) (line : Option Int)
    (hr : V receiver) (ha : V args) : Built V (assignElement receiver op args line) := by
  unfold assignElement
  split
  · refine built_withChildren hV ha fun cs hcs => ?_
    split
    · exact built_malformed _
    · rename_i value last
      have hvalue := hcs value (mem_of_mem_withoutSentinel (List.mem_of_getLast? last))
      have subscript : ∀ v ∈ (withoutSentinel cs).dropLast, V v := fun v hv =>
        hcs v (mem_of_mem_withoutSentinel ((List.dropLast_sublist _).mem hv))
      exact .append (.append (.append (.append (built_slot hV hr) (built_word _))
        (built_listed hV subscript)) (built_word _)) (built_slot hV hvalue)
  · exact built_refuse _

/-- The layout of a node visits only what is made of its children. -/
theorem built_ofTag {cs : List Value} (h : ∀ v ∈ cs, V v) (line : Option Int) (g : Tag) :
    Built V (ofTag cs line g) := by
  have small (i : Nat) : V (child cs i) := of_child hV h i
  have slots (i : Nat) : Built V (slot (child cs i)) := built_slot hV (small i)
  -- what a tag looks at are children, members of a child, or the last child of a scope
  cases g with
  | scope =>
    have last : ∀ v ∈ [cs.getLast?.getD .nil], V v := by
      intro v hv
      rw [List.mem_singleton.1 hv]
      cases hl : cs.getLast? with
      | none => exact hV.nil
      | some w => exact h w (List.mem_of_getLast? hl)
    exact .append (.append (built_word _) (.scope last)) (built_word _)
  | block => exact built_intercalate _ (built_map_slot hV h)
  | iter =>
    refine built_withChildren hV (small 1) fun ds hds => ?_
    exact .append (slots 0) (built_block hV _ _ (of_child hV hds 2))
  | iterScope => exact built_block hV _ _ (small 2)
  | const | dvar | lvar | ivar | vcall => exact built_withFirst h (by simp)
  | nilWord | trueWord | falseWord => exact built_word _
  | begin => exact slots 0
  | colon2 => exact .append (slots 0) (built_word _)
  | dasgnCurr | dasgn | lasgn | iasgn => exact .append (built_word _) (slots 1)
  | conj | disj => exact .append (.append (slots 0) (built_word _)) (slots 1)
  | fcall => exact .append (.append (built_word _) (built_arguments hV (small 1))) (built_word _)
  | call =>
    simp only [ofTag]
    split <;> exact .append (.append (.append (slots 0) (built_word _))
      (built_arguments hV (small 2))) (built_word _)
  | opcall => exact built_operation hV _ (small 0) (small 2)
  | ifElse | unlessElse => exact built_conditional hV _ h
  | whileLoop => exact built_loop hV _ (small 0) (small 1)
  | lit | str =>
    refine built_withFirst h fun v _ => ?_
    split <;> simp
  | dstr =>
    simp only [ofTag]
    split
    · exact built_malformed _
    · exact .append (.append (.append (built_word _) (built_segment (small 1)))
        (built_furtherSegments hV (small 2))) (built_word _)
  | evstr =>
    refine built_withFirst h fun v hv => ?_
    exact .append (.append (built_word _) (built_slot hV hv)) (built_word _)
  | list =>
    have elements : Built V (listed (withoutSentinel cs)) :=
      built_listed hV fun v hv => h v (mem_of_mem_withoutSentinel hv)
    exact .append (.append (built_word _) elements) (built_word _)
  | listEmbedded => exact built_listed hV h
  | hash =>
    simp only [ofTag]
    split
    · exact .append (built_word _) (built_word _)
    · refine built_withChildren hV (small 0) fun ds hds => ?_
      exact .append (.append (built_word _) (built_intercalate _ (built_pairs hV hds)))
        (built_word _)
  | attrasgn => exact built_assignElement hV _ _ (small 0) (small 2)
  | rescue =>
    refine built_withChildren hV (small 1) fun ds hds => ?_
    exact .append (.append (slots 0) (built_word _)) (built_slot hV (of_child hV hds 1))

/-- A layout is put together from words, faults, visits and whole scopes, and visits only what is
made of parts of the value. -/
theorem built_layout {v : Value} (h : ∀ w ∈ v.parts, V w) : Built V v.layout := by
  cases v with
  | node tag cs line synthetic =>
    simp only [Value.layout]
    split
    · split
      · exact built_ofTag hV h line _
      · exact built_refuse _
    · exact built_refuse _
  | _ => exact built_refuse _

end Parts

end Layout

/-- What a layout visits is smaller than the value laid out. -/
theorem Layout.built_smaller (v : Value) : Built (fun w => w.size < v.size) v.layout := by
  by_cases hv : 0 < v.size
  · exact built_layout (Value.hereditary_size_lt hv) fun _ => Value.size_lt_of_mem_parts
  · -- a value without a size is a scalar, and its layout visits nothing
    cases v with
    | seq | array | object | node => exact absurd (Nat.succ_pos _) hv
    | _ => exact built_refuse _

theorem size_lt_of_visit {v w : Value} (h : .visit w ∈ v.layout) : w.size < v.size :=
  (Layout.built_smaller v).of_visit w h

/-! ### Scripts -/

/-- All pieces of the rendering of a value. -/
def Value.script (v : Value) : List Piece :=
  v.layout.attach.flatMap fun
    | ⟨.put p, _⟩ => [p]
    | ⟨.visit w, _⟩ => w.script
termination_by v.size
decreasing_by exact size_lt_of_visit (by assumption)

/-- The pieces that a step stands for. -/
def Step.pieces : Step → List Piece
  | put p => [p]
  | visit v => v.script

/-- The script of a value is its layout carried out. -/
theorem Value.script_eq (v : Value) : v.script = v.layout.flatMap Step.pieces := by
  rw [script]
  conv => rhs; rw [← List.attach_map_subtype_val v.layout, List.flatMap_map]
  congr 1
  funext ⟨s, _⟩
  cases s <;> rfl

/-- The source text of a value, or the first fault in its rendering. -/
def Value.toSource (v : Value) : Except Fault Text :=
  match Piece.firstFault? v.script with
  | none => .ok (Piece.written v.script)
  | some f => .error f

end Deparse
