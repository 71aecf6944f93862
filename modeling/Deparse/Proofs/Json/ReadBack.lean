import Deparse.Json.Reader
import Deparse.Proofs.Json.Integer
import Deparse.Proofs.Json.QuotedText

/-!
# Documents read back

`Reads P s t s'` says that a text takes the reader from one state to another, whatever comes after
it that satisfies `P`; only the numeral of an integer asks for anything.  The spelling of a value
takes the reader from where a value is expected to where it was supplied (`reads_render`), so that
writing a document and reading it again comes to the same (`read_write`).

This is said of the values that a document can hold and that have one spelling (`Document`), floats
apart: their integers are short, no object has a key twice, and if they are written in ASCII, no
surrogates of their texts meet.
-/

namespace Deparse.Json

/-! ### Documents -/

/-- The values without floats that are read back after they were written. -/
inductive Document (ascii : Bool) : Value → Prop
  | nil : Document ascii .nil
  | bool (b : Bool) : Document ascii (.bool b)
  | int {n : Int} (short : IsShort n) : Document ascii (.int n)
  | str {t : Text} (unpaired : ascii = true → t.IsUnpaired) : Document ascii (.str t)
  | array {vs : List Value} (items : ∀ v ∈ vs, Document ascii v) : Document ascii (.array vs)
  | object {ms : List (Text × Value)} (distinct : (ms.map Prod.fst).Nodup)
    (keys : ascii = true → ∀ m ∈ ms, m.1.IsUnpaired) (values : ∀ m ∈ ms, Document ascii m.2) :
    Document ascii (.object ms)

/-! ### From one state to another -/

/-- In front of any text with the property, the text takes the reader from the one state to the
other. -/
def Reads (P : Text → Prop) (s : State) (t : Text) (s' : State) : Prop :=
  ∀ line rest, P rest → ∃ line', s.run (tokens line (t ++ rest)) = s'.run (tokens line' rest)

/-- Any text. -/
def Anything (_ : Text) : Prop := True

variable {P Q : Text → Prop} {s s' s'' : State} {t u : Text}

theorem Reads.append (ht : Reads P s t s') (hu : Reads Q s' u s'')
    (next : ∀ rest, Q rest → P (u ++ rest)) : Reads Q s (t ++ u) s'' := by
  intro line rest hrest
  obtain ⟨line', first⟩ := ht line (u ++ rest) (next rest hrest)
  obtain ⟨line'', second⟩ := hu line' rest hrest
  exact ⟨line'', by rw [List.append_assoc, first, second]⟩

theorem Reads.mono (h : Reads P s t s') (hQ : ∀ rest, Q rest → P rest) : Reads Q s t s' :=
  fun line rest hrest => h line rest (hQ rest hrest)

/-- What can stand after anything can be appended. -/
theorem Reads.then (ht : Reads Anything s t s') (hu : Reads Q s' u s'') :
    Reads Q s (t ++ u) s'' :=
  ht.append hu fun _ _ => trivial

theorem reads_blanks (s : State) (h : ∀ c ∈ t, isBlank c = true) : Reads Anything s t s := by
  intro line rest _
  induction t generalizing line with
  | nil => exact ⟨line, rfl⟩
  | cons c t ih =>
    obtain ⟨line', read⟩ := ih (fun d hd => h d (List.mem_cons_of_mem _ hd)) _
    refine ⟨line', ?_⟩
    rw [List.cons_append, tokens, if_pos (h c (List.mem_cons_self ..))]
    exact read

/-- A token takes the reader one step. -/
theorem reads_token {c : CodePoint} {l : Lexeme} (visible : isBlank c = false)
    (token : ∀ rest, P rest → lexeme c (t ++ rest) = (l, rest)) (inner : l.isLast = false)
    (step : ∀ line, s.step ⟨l, line⟩ = .ok s') : Reads P s (c :: t) s' := by
  intro line rest hrest
  refine ⟨line, ?_⟩
  have cut := token rest hrest
  rw [List.cons_append, tokens, cut]
  simp only [visible, inner, Bool.false_eq_true, ↓reduceIte, State.run, step]
  rfl

/-! ### Tokens -/

/-- A token takes the reader to the same state as where a value is expected inside what is open,
unless it closes an array. -/
def ExpectsValue (s : State) (around : List Frame) : Prop :=
  ∀ t : Token, t.lexeme ≠ .closeArray → s.step t = State.startValue around t

theorem expectsValue_value (around : List Frame) : ExpectsValue (.value around) around :=
  fun _ _ => rfl

theorem expectsValue_firstItem (around : List Frame) :
    ExpectsValue (.firstItem around) (.array [] :: around) :=
  fun _ h => if_neg h

/-- The same of a key and the end of an object. -/
def ExpectsKey (s : State) (members : List (Text × Value)) (around : List Frame) : Prop :=
  ∀ t : Token, t.lexeme ≠ .closeObject → s.step t = State.startMember members around t

theorem expectsKey_key (members : List (Text × Value)) (around : List Frame) :
    ExpectsKey (.key members around) members around :=
  fun _ _ => rfl

theorem expectsKey_firstKey (around : List Frame) : ExpectsKey (.firstKey around) [] around :=
  fun _ h => if_neg h

variable {around : List Frame}

theorem reads_punctuation {c : CodePoint} {l : Lexeme} (h : punctuation? c = some l)
    (inner : l.isLast = false) (visible : isBlank c = false)
    (step : ∀ line, s.step ⟨l, line⟩ = .ok s') : Reads Anything s [c] s' := by
  refine reads_token visible (fun rest _ => ?_) inner step
  simp [lexeme, h]

theorem reads_word {c : CodePoint} {v : Value} (expects : ExpectsValue s around)
    (visible : isBlank c = false) (word : ∀ rest, lexeme c (t ++ rest) = (.scalar v, rest)) :
    Reads Anything s (c :: t) (.supply v around) :=
  reads_token visible (fun rest _ => word rest) rfl fun _ => expects _ (by simp)

/-- An integer is read where a value is expected and no number goes on behind it. -/
theorem reads_decimalInt {n : Int} (short : IsShort n) (expects : ExpectsValue s around) :
    Reads StopsNumber s (Numeral.decimalInt n) (.supply (.int n) around) := by
  obtain ⟨c, t, spelled, visible, token⟩ := lexeme_decimalInt short
  rw [spelled]
  exact reads_token visible token rfl fun _ => expects _ (by simp)

/-- A quoted text is read as one token. -/
theorem reads_quotedText {ascii : Bool} {t : Text} (unpaired : ascii = true → t.IsUnpaired)
    (step : ∀ line, s.step ⟨.text t, line⟩ = .ok s') :
    Reads Anything s (quotedText ascii t) s' := by
  have spelled : quotedText ascii t =
      .scalar '"' :: (t.flatMap (quotedPoint ascii) ++ ("\"" : Text)) := rfl
  rw [spelled]
  refine reads_token rfl (fun rest _ => ?_) rfl step
  rw [List.append_assoc]
  exact lexeme_quotedText ascii unpaired rest

/-! ### Arrays and objects -/

theorem stopsNumber_cons {c : CodePoint}
    (hc : Numeral.decimalDigit? c = none ∧ c ≠ '.' ∧ c ≠ 'e' ∧ c ≠ 'E') (t : Text) :
    StopsNumber (c :: t) := by
  intro d hd
  cases hd
  exact hc

/-- Blanks end a number, and without any it is ended by what comes after them. -/
theorem stopsNumber_of_blanks (ht : ∀ c ∈ t, isBlank c = true) (hu : StopsNumber u) :
    StopsNumber (t ++ u) := by
  cases t with
  | nil => exact hu
  | cons c t =>
    refine stopsNumber_cons ?_ _
    have blank := ht c (List.mem_cons_self ..)
    simp only [isBlank, Bool.or_eq_true, decide_eq_true_eq] at blank
    rcases blank with ((rfl | rfl) | rfl) | rfl <;> decide

/-- A value that takes the reader from where it is expected to where it was supplied. -/
def Supplies (t : Text) (v : Value) : Prop :=
  ∀ s around, ExpectsValue s around → Reads StopsNumber s t (.supply v around)

variable {gap : Text} {f : Value → Text}

/-- Items with commas between them are added to the array that is open. -/
theorem reads_items (blank : ∀ c ∈ gap, isBlank c = true) {v : Value} {vs items : List Value}
    (each : ∀ w ∈ v :: vs, Supplies (f w) w) (expects : ExpectsValue s (.array items :: around)) :
    Reads StopsNumber s (Text.joined ("," ++ gap) ((v :: vs).map f))
      (.afterItem ((v :: vs).reverse ++ items) around) := by
  have first : Reads StopsNumber s (f v) (.afterItem (v :: items) around) :=
    each v (List.mem_cons_self ..) s _ expects
  induction vs generalizing v items s with
  | nil => simpa [Text.joined] using first
  | cons w ws ih =>
    -- the comma takes the reader to where the next item is expected
    have others := each w (by simp) _ _ (expectsValue_value (.array (v :: items) :: around))
    have rest := ih (fun u hu => each u (List.mem_cons_of_mem _ hu)) (expectsValue_value _) others
    have comma : Reads Anything (.afterItem (v :: items) around) ("," ++ gap)
        (.value (.array (v :: items) :: around)) :=
      (reads_punctuation rfl rfl rfl fun _ => rfl).then (reads_blanks _ blank)
    have joined : Text.joined ("," ++ gap) ((v :: w :: ws).map f) =
        f v ++ (("," ++ gap) ++ Text.joined ("," ++ gap) ((w :: ws).map f)) := by
      simp only [Text.joined, List.map_cons, List.intercalate_cons_cons, List.append_assoc]
    rw [joined]
    -- no item is followed by what could belong to a number
    have all := first.append (comma.then rest) fun rest _ => stopsNumber_cons (by decide) _
    simpa using all

/-- A member as it is written. -/
def memberText (ascii : Bool) (f : Value → Text) (m : Text × Value) : Text :=
  quotedText ascii m.1 ++ ": " ++ f m.2

/-- A key, a colon and a value are bound in the object that is open. -/
theorem reads_member {ascii : Bool} {m : Text × Value} {members : List (Text × Value)}
    (key : ascii = true → m.1.IsUnpaired) (value : Supplies (f m.2) m.2)
    (expects : ExpectsKey s members around) :
    Reads StopsNumber s (memberText ascii f m)
      (.afterMember (Value.bind m.1 m.2 members) around) := by
  have name : Reads Anything s (quotedText ascii m.1) (.colon members m.1 around) :=
    reads_quotedText key fun _ => expects _ (by simp)
  have colon : Reads Anything (.colon members m.1 around) (":" ++ " ")
      (.value (.object members m.1 :: around)) :=
    (reads_punctuation rfl rfl rfl fun _ => rfl).then (reads_blanks _ (by decide))
  exact (name.then colon).then (value _ _ (expectsValue_value _))

/-- Members with commas between them are bound in the object that is open. -/
theorem reads_members {ascii : Bool} (blank : ∀ c ∈ gap, isBlank c = true) {m : Text × Value}
    {ms members : List (Text × Value)} (keys : ascii = true → ∀ l ∈ m :: ms, l.1.IsUnpaired)
    (values : ∀ l ∈ m :: ms, Supplies (f l.2) l.2) (expects : ExpectsKey s members around) :
    Reads StopsNumber s (Text.joined ("," ++ gap) ((m :: ms).map (memberText ascii f)))
      (.afterMember ((m :: ms).foldl (fun ms l => Value.bind l.1 l.2 ms) members) around) := by
  have first := reads_member (fun h => keys h m (List.mem_cons_self ..))
    (values m (List.mem_cons_self ..)) expects
  induction ms generalizing m members s with
  | nil => simpa [Text.joined] using first
  | cons l ls ih =>
    have keys' : ascii = true → ∀ k ∈ l :: ls, k.1.IsUnpaired :=
      fun h k hk => keys h k (List.mem_cons_of_mem _ hk)
    have values' : ∀ k ∈ l :: ls, Supplies (f k.2) k.2 :=
      fun k hk => values k (List.mem_cons_of_mem _ hk)
    -- the comma takes the reader to where the next key is expected
    have next := expectsKey_key (Value.bind m.1 m.2 members) around
    have rest := ih keys' values' next (reads_member (fun h => keys' h l (List.mem_cons_self ..))
      (values' l (List.mem_cons_self ..)) next)
    have comma : Reads Anything (.afterMember (Value.bind m.1 m.2 members) around) ("," ++ gap)
        (.key (Value.bind m.1 m.2 members) around) :=
      (reads_punctuation rfl rfl rfl fun _ => rfl).then (reads_blanks _ blank)
    have joined : Text.joined ("," ++ gap) ((m :: l :: ls).map (memberText ascii f)) =
        memberText ascii f m ++
          (("," ++ gap) ++ Text.joined ("," ++ gap) ((l :: ls).map (memberText ascii f))) := by
      simp only [Text.joined, List.map_cons, List.intercalate_cons_cons, List.append_assoc]
    rw [joined]
    exact first.append (comma.then rest) fun rest _ => stopsNumber_cons (by decide) _

/-! ### Values -/

theorem renderAll_eq_map (style : Style) (level : Nat) (vs : List Value) :
    renderAll style level vs = vs.map (render style level) := by
  induction vs with
  | nil => rfl
  | cons v vs ih => rw [renderAll, ih, List.map_cons]

theorem renderMembers_eq_map (style : Style) (level : Nat) (ms : List (Text × Value)) :
    renderMembers style level ms = ms.map (memberText style.ascii (render style level)) := by
  induction ms with
  | nil => rfl
  | cons m ms ih =>
    rw [renderMembers, ih, List.map_cons]
    rfl

theorem bind_of_notMem {k : Text} {v : Value} {ms : List (Text × Value)}
    (h : k ∉ ms.map Prod.fst) : Value.bind k v ms = ms ++ [(k, v)] := by
  induction ms with
  | nil => rfl
  | cons m ms ih =>
    rw [List.map_cons, List.mem_cons, not_or] at h
    rw [Value.bind, if_neg (Ne.symm h.1), ih h.2, List.cons_append]

/-- Members with distinct keys are bound in their order. -/
theorem foldl_bind {ms members : List (Text × Value)}
    (h : ((members ++ ms).map Prod.fst).Nodup) :
    ms.foldl (fun ms m => Value.bind m.1 m.2 ms) members = members ++ ms := by
  induction ms generalizing members with
  | nil => simp
  | cons m ms ih =>
    -- the key is not there yet, so it goes to the end
    have fresh : m.1 ∉ members.map Prod.fst := by
      rw [List.map_append, List.map_cons, List.nodup_append] at h
      exact fun hm => h.2.2 _ hm _ (List.mem_cons_self ..) rfl
    have bound : Value.bind m.1 m.2 members = members ++ [m] := bind_of_notMem fresh
    have shifted : members ++ m :: ms = (members ++ [m]) ++ ms := by simp
    rw [List.foldl_cons, bound, shifted]
    exact ih (by rwa [← shifted])

theorem isBlank_of_mem_lineStart {width level : Nat} {c : CodePoint}
    (h : c ∈ lineStart width level) : isBlank c = true := by
  rcases List.mem_cons.1 h with rfl | h
  · rfl
  · obtain ⟨t, ht, hc⟩ := List.mem_flatten.1 h
    rw [List.eq_of_mem_replicate ht] at hc
    rw [List.mem_singleton.1 hc]
    rfl

/-- What is enclosed stands between blanks, and commas with blanks separate it. -/
theorem exists_gaps (style : Style) (level : Nat) :
    ∃ before between after : Text,
      (∀ c ∈ before, isBlank c = true) ∧ (∀ c ∈ between, isBlank c = true) ∧
      (∀ c ∈ after, isBlank c = true) ∧
      ∀ first last parts, parts ≠ [] → enclosed style level first last parts =
        first ++ (before ++ (Text.joined ("," ++ between) parts ++ (after ++ last))) := by
  have present {parts : List Text} (h : parts ≠ []) : ¬ parts.isEmpty = true := by
    simpa using h
  -- without an indentation a blank stands behind commas only, and with one each part has a line
  cases indent : style.indent with
  | none =>
    refine ⟨[], " ", [], by simp, by decide, by simp, fun first last parts h => ?_⟩
    simp only [enclosed, if_neg (present h), indent, List.append_assoc]
    rfl
  | some width =>
    refine ⟨lineStart width (level + 1), lineStart width (level + 1), lineStart width level,
      fun _ => isBlank_of_mem_lineStart, fun _ => isBlank_of_mem_lineStart,
      fun _ => isBlank_of_mem_lineStart, fun first last parts h => ?_⟩
    simp only [enclosed, if_neg (present h), indent, List.append_assoc]

/-- An array supplies itself if its items do. -/
theorem supplies_array (style : Style) (level : Nat) {vs : List Value} {f : Value → Text}
    (each : ∀ v ∈ vs, Supplies (f v) v) :
    Supplies (enclosed style level "[" "]" (vs.map f)) (.array vs) := by
  intro s around expects
  have opening : Reads Anything s "[" (.firstItem around) :=
    reads_punctuation rfl rfl rfl fun _ => expects _ (by simp)
  cases vs with
  | nil =>
    have closing : Reads Anything (.firstItem around) "]" (.supply (.array []) around) :=
      reads_punctuation rfl rfl rfl fun _ => rfl
    exact (opening.then closing).mono fun _ _ => trivial
  | cons v vs =>
    obtain ⟨before, between, after, hbefore, hbetween, hafter, text⟩ := exists_gaps style level
    -- the items are collected in reverse until the bracket closes
    have items := reads_items hbetween each (expectsValue_firstItem around)
    rw [List.append_nil] at items
    have closing : Reads Anything (.afterItem (v :: vs).reverse around) (after ++ "]")
        (.supply (.array (v :: vs)) around) := by
      have supplied := reads_punctuation (c := .scalar ']') (l := .closeArray)
        (s := .afterItem (v :: vs).reverse around) rfl rfl rfl fun _ => rfl
      rw [List.reverse_reverse] at supplied
      exact (reads_blanks _ hafter).then supplied
    rw [text "[" "]" _ (by simp)]
    refine opening.then ((reads_blanks _ hbefore).then
      (items.append (closing.mono fun _ _ => trivial) fun rest _ => ?_))
    rw [List.append_assoc]
    exact stopsNumber_of_blanks hafter (stopsNumber_cons (by decide) _)

/-- An object supplies itself if its values do and no key is there twice. -/
theorem supplies_object (style : Style) (level : Nat) {ms : List (Text × Value)}
    {f : Value → Text} (distinct : (ms.map Prod.fst).Nodup)
    (keys : style.ascii = true → ∀ m ∈ ms, m.1.IsUnpaired)
    (each : ∀ m ∈ ms, Supplies (f m.2) m.2) :
    Supplies (enclosed style level "\x7b" "\x7d" (ms.map (memberText style.ascii f)))
      (.object ms) := by
  intro s around expects
  have opening : Reads Anything s "\x7b" (.firstKey around) :=
    reads_punctuation rfl rfl rfl fun _ => expects _ (by simp)
  cases ms with
  | nil =>
    have closing : Reads Anything (.firstKey around) "\x7d" (.supply (.object []) around) :=
      reads_punctuation rfl rfl rfl fun _ => rfl
    exact (opening.then closing).mono fun _ _ => trivial
  | cons m ms =>
    obtain ⟨before, between, after, hbefore, hbetween, hafter, text⟩ := exists_gaps style level
    have members := reads_members hbetween keys each (expectsKey_firstKey around)
    -- the members are bound one by one, and none is bound twice
    rw [foldl_bind (by simpa using distinct), List.nil_append] at members
    have closing : Reads Anything (.afterMember (m :: ms) around) (after ++ "\x7d")
        (.supply (.object (m :: ms)) around) :=
      (reads_blanks _ hafter).then (reads_punctuation rfl rfl rfl fun _ => rfl)
    rw [text "\x7b" "\x7d" _ (by simp)]
    refine opening.then ((reads_blanks _ hbefore).then
      (members.append (closing.mono fun _ _ => trivial) fun rest _ => ?_))
    rw [List.append_assoc]
    exact stopsNumber_of_blanks hafter (stopsNumber_cons (by decide) _)

/-- The spelling of a value supplies the value. -/
theorem supplies_render (style : Style) {v : Value} (h : Document style.ascii v) (level : Nat) :
    Supplies (render style level v) v := by
  have any {s : State} {t : Text} {v : Value} {around : List Frame}
      (h : Reads Anything s t (.supply v around)) : Reads StopsNumber s t (.supply v around) :=
    h.mono fun _ _ => trivial
  -- a number needs something behind it that ends it, and no other scalar does
  induction h generalizing level with
  | nil => exact fun s around expects => any (reads_word expects rfl fun _ => rfl)
  | bool b =>
    cases b <;> exact fun s around expects => any (reads_word expects rfl fun _ => rfl)
  | int short => exact fun s around expects => reads_decimalInt short expects
  | str unpaired =>
    exact fun s around expects => any (reads_quotedText unpaired fun _ => expects _ (by simp))
  | array items ih =>
    rw [render, renderAll_eq_map]
    exact supplies_array style level fun v hv => ih v hv (level + 1)
  | object distinct keys values ih =>
    rw [render, renderMembers_eq_map]
    exact supplies_object style level distinct keys fun m hm => ih m hm (level + 1)

/-- **What is written is read back.** -/
theorem read_write (style : Style) {v : Value} (h : Document style.ascii v) :
    read (write style v) = .ok v := by
  have stop : StopsNumber [] := fun c hc => by cases hc
  obtain ⟨line, supplied⟩ := supplies_render style h 0 _ _ (expectsValue_value []) 1 [] stop
  rw [List.append_nil, tokens] at supplied
  have complete : State.run (.value []) (tokens 1 (write style v)) = .ok (.complete v) := supplied
  have noMark : (write style v).head? ≠ some (.scalar '\ufeff') := by
    intro mark
    obtain ⟨t, spelled⟩ := List.head?_eq_some_iff.1 mark
    -- the mark is no token, so that the reader would have stopped at once
    rw [spelled, tokens] at complete
    cases complete
  rw [read, if_neg noMark, complete]

end Deparse.Json
