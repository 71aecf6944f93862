import Deparse.Json.Reader
import Deparse.Proofs.Json.Integer
import Deparse.Proofs.Json.QuotedText

/-!
# What is read can be written

A value is *spellable* if its integers are short and no surrogates of its texts meet, so that it can
be written in ASCII and read again.  Whatever is read from a text without surrogates is spellable
(`spellable_of_read`): a surrogate is then read from an escape only, and two escapes that form a
pair are one code point; an integer with too many digits ends the reading.

The reader keeps what it has read so far spellable with each token (`State.isSpellable_step`).
-/

namespace Deparse.Json

/-! ### Spellable values -/

/-- A value that can be written in ASCII and read again, but for its floats. -/
inductive Spellable : Value → Prop
  | nil : Spellable .nil
  | bool (b : Bool) : Spellable (.bool b)
  | float (x : Binary64) : Spellable (.float x)
  | bytes (bs : List UInt8) : Spellable (.bytes bs)
  | int {n : Int} (short : IsShort n) : Spellable (.int n)
  | str {t : Text} (unpaired : t.IsUnpaired) : Spellable (.str t)
  | sym {name : Text} (unpaired : name.IsUnpaired) : Spellable (.sym name)
  | seq {vs : List Value} (items : ∀ v ∈ vs, Spellable v) : Spellable (.seq vs)
  | array {vs : List Value} (items : ∀ v ∈ vs, Spellable v) : Spellable (.array vs)
  | object {ms : List (Text × Value)} (keys : ∀ m ∈ ms, m.1.IsUnpaired)
    (values : ∀ m ∈ ms, Spellable m.2) : Spellable (.object ms)
  | node {tag : Text} {cs : List Value} {line : Option Int} {synthetic : Bool}
    (tagged : tag.IsUnpaired) (children : ∀ v ∈ cs, Spellable v) (short : ∀ n ∈ line, IsShort n) :
    Spellable (.node tag cs line synthetic)

/-! ### Quoted texts -/

/-- The code points that were not escaped by number are from the text, or characters. -/
def Raw (t : Text) (ms : List (CodePoint × Bool)) : Prop :=
  ∀ m ∈ ms, m.2 = false → m.1 ∈ t ∨ ∃ c, m.1 = .scalar c

theorem isScalar_of_namedEscape? {e c : CodePoint} (h : namedEscape? e = some c) :
    ∃ d, c = .scalar d := by
  unfold namedEscape? at h
  split at h <;> cases h <;> exact ⟨_, rfl⟩

/-- What is read from a quoted text is raw, as each of its code points is read from the text or from
an escape. -/
theorem raw_of_unquote {t rest : Text} {ms : List (CodePoint × Bool)}
    (h : unquote t = .ok (ms, rest)) : Raw t ms := by
  -- one code point is read and then what follows it
  have step {t u : Text} {m : CodePoint × Bool} {ms : List (CodePoint × Bool)} {rest : Text}
      (hm : m.2 = false → m.1 ∈ t ∨ ∃ c, m.1 = .scalar c) (hu : u <:+ t)
      (ih : ∀ ms rest, unquote u = .ok (ms, rest) → Raw u ms)
      (h : (unquote u).map (prepend [m]) = .ok (ms, rest)) : Raw t ms := by
    cases read : unquote u with
    | error f =>
      rw [read] at h
      cases h
    | ok p =>
      have raw := ih p.1 p.2 read
      rw [read] at h
      cases h
      intro n hn plain
      rcases List.mem_cons.1 hn with rfl | hn
      · exact hm plain
      · exact (raw n hn plain).imp_left fun member => hu.subset member
  fun_induction unquote t generalizing ms rest with
  | case1 | case3 | case4 | case6 | case7 | case9 => cases h
  | case2 t =>
    cases h
    exact fun m hm => by cases hm
  | case5 a b c d e t n hn ih =>
    have left : e :: t <:+ .scalar '\\' :: .scalar 'u' :: a :: b :: c :: d :: e :: t :=
      ⟨[.scalar '\\', .scalar 'u', a, b, c, d], rfl⟩
    exact step (by simp) left (fun _ _ => ih) h
  | case8 e t _ _ c named ih =>
    have left : t <:+ .scalar '\\' :: e :: t := ⟨[.scalar '\\', e], rfl⟩
    exact step (fun _ => .inr (isScalar_of_namedEscape? named)) left (fun _ _ => ih) h
  | case10 c t _ _ _ _ _ _ ih =>
    exact step (fun _ => .inl (List.mem_cons_self ..)) (List.suffix_cons c t) (fun _ _ => ih) h

/-- A text of marks begins with the first of them, unless this one is half of a pair. -/
theorem head?_paired {c d : CodePoint} {escaped : Bool} {ms : List (CodePoint × Bool)}
    (h : d ∈ (paired ((c, escaped) :: ms)).head?) : d = c ∨ ∃ e, d = .scalar e := by
  match escaped, ms with
  | false, ms =>
    rw [paired_plain] at h
    cases h
    exact .inl rfl
  | true, [] | true, (low, false) :: ms =>
    cases h
    exact .inl rfl
  | true, (low, true) :: ms =>
    cases pair : CodePoint.ofPair? c low with
    | some e =>
      rw [paired_halves pair] at h
      cases h
      exact .inr (CodePoint.isScalar_of_ofPair? pair)
    | none =>
      have apart : ∀ e, ((low, true) :: ms).head? = some (e, true) →
          CodePoint.ofPair? c e = none := by
        intro e he
        cases he
        exact pair
      rw [paired_escaped apart] at h
      cases h
      exact .inl rfl

/-- Once pairs are joined no surrogates meet, if all of them were escaped by number. -/
theorem isUnpaired_paired {ms : List (CodePoint × Bool)}
    (raw : ∀ m ∈ ms, m.2 = false → ∃ c, m.1 = .scalar c) : (paired ms).IsUnpaired := by
  fun_induction paired ms with
  | case1 high low ms c pair ih =>
    obtain ⟨d, rfl⟩ := CodePoint.isScalar_of_ofPair? pair
    exact List.isChain_cons.2 ⟨fun _ _ => rfl, ih fun m hm => raw m (by simp [hm])⟩
  | case2 high low ms apart ih =>
    -- two escapes that form no pair
    refine List.isChain_cons.2 ⟨fun c hc => ?_, ih fun m hm => raw m (List.mem_cons_of_mem _ hm)⟩
    rcases head?_paired hc with rfl | ⟨d, rfl⟩
    · exact apart
    · exact CodePoint.ofPair?_scalar high d
  | case3 c escaped ms apart ih =>
    refine List.isChain_cons.2 ⟨fun d hd => ?_, ih fun m hm => raw m (List.mem_cons_of_mem _ hm)⟩
    -- any other code point is a scalar, or the one after it is
    match escaped, ms with
    | false, ms =>
      obtain ⟨e, rfl⟩ : ∃ e, c = .scalar e := raw (c, false) (List.mem_cons_self ..) rfl
      rfl
    | true, [] => cases hd
    | true, (low, true) :: ms => exact absurd rfl (apart low ms rfl)
    | true, (low, false) :: ms =>
      obtain ⟨e, rfl⟩ : ∃ e, low = .scalar e := raw (low, false) (by simp) rfl
      rw [paired_plain] at hd
      cases hd
      exact CodePoint.ofPair?_scalar c e
  | case4 => exact .nil

/-! ### Tokens -/

/-- The integer part of a number is made of digits, and there is one at least. -/
theorem integerPart?_cases {t rest : Text} {ds : List Nat}
    (h : integerPart? t = some (ds, rest)) : ds ≠ [] ∧ ∀ d ∈ ds, d < 10 := by
  unfold integerPart? at h
  split at h
  · cases h
  · cases h
    exact ⟨by simp, by simp⟩
  · rename_i present _
    cases h
    exact ⟨present, fun _ => Numeral.lt_of_mem_spanDecimal⟩

/-- A token of which the text or scalar is spellable. -/
def Lexeme.IsSpellable : Lexeme → Prop
  | text t => t.IsUnpaired
  | scalar v => Spellable v
  | _ => True

/-- A number that is short enough is an integer, and any with a fraction or a power a float. -/
theorem isSpellable_number {negative : Bool} {whole fraction : List Nat} {power : Option Int}
    (present : whole ≠ []) (digits : ∀ d ∈ whole, d < 10) :
    (number negative whole fraction power).IsSpellable := by
  unfold number
  split
  · split
    · trivial
    · rename_i short
      exact .int (isShort_of_ofDigits digits present (Nat.not_lt.1 short))
  · exact .float _

theorem isSpellable_of_unsignedNumber? {negative : Bool} {t rest : Text} {l : Lexeme}
    (h : unsignedNumber? negative t = some (l, rest)) : l.IsSpellable := by
  unfold unsignedNumber? at h
  split at h
  · cases h
  · rename_i whole u found
    obtain ⟨present, digits⟩ := integerPart?_cases found
    cases h
    exact isSpellable_number present digits

theorem isSpellable_punctuation {c : CodePoint} {l : Lexeme} (h : punctuation? c = some l) :
    l.IsSpellable := by
  unfold punctuation? at h
  split at h <;> cases h <;> trivial

theorem spellable_of_mem_words : ∀ w ∈ words, Spellable w.2 := by
  intro w hw
  simp only [words, List.mem_cons, List.not_mem_nil, or_false] at hw
  rcases hw with rfl | rfl | rfl | rfl | rfl | rfl
  · exact .nil
  · exact .bool _
  · exact .bool _
  · exact .float _
  · exact .float _
  · exact .float _

/-- A token of a text without surrogates is spellable. -/
theorem isSpellable_lexeme {c : CodePoint} {t : Text} (scalars : Text.IsScalar (c :: t)) :
    (lexeme c t).1.IsSpellable := by
  have number {negative : Bool} {u : Text} :
      ((unsignedNumber? negative u).getD (.junk, t)).1.IsSpellable := by
    cases read : unsignedNumber? negative u with
    | none => trivial
    | some p => exact isSpellable_of_unsignedNumber? read
  unfold lexeme
  split
  · rename_i l known
    exact isSpellable_punctuation known
  · split
    · split
      · rename_i ms rest read
        -- a code point that is not raw was escaped by its number
        refine isUnpaired_paired fun m hm plain => ?_
        rcases raw_of_unquote read m hm plain with member | scalar
        · exact scalars _ (List.mem_cons_of_mem _ member)
        · exact scalar
      · trivial
    · split
      · rename_i w v found
        exact spellable_of_mem_words _ (List.mem_of_find?_eq_some found)
      · split <;> exact number

theorem isSpellable_of_mem_tokens {t : Text} (scalars : t.IsScalar)
    (line : Nat) : ∀ k ∈ tokens line t, k.lexeme.IsSpellable := by
  fun_induction tokens line t with
  | case1 =>
    intro k hk
    rw [List.mem_singleton.1 hk]
    trivial
  | case2 line c t blank ih => exact ih fun d hd => scalars d (List.mem_cons_of_mem _ hd)
  | case3 line c t visible last =>
    intro k hk
    rw [List.mem_singleton.1 hk]
    exact isSpellable_lexeme scalars
  | case4 line c t visible inner ih =>
    -- the rest of the tokens is read from a suffix of the text
    have left : (lexeme c t).2 <:+ c :: t := (lexeme_suffix c t).trans (List.suffix_cons c t)
    intro k hk
    rcases List.mem_cons.1 hk with rfl | hk
    · exact isSpellable_lexeme scalars
    · exact ih (fun d hd => scalars d (left.subset hd)) k hk

/-! ### The state of the reader -/

/-- Members with spellable keys and values. -/
def MembersSpellable (ms : List (Text × Value)) : Prop :=
  ∀ m ∈ ms, m.1.IsUnpaired ∧ Spellable m.2

/-- An open array or object of which all that was read is spellable. -/
def Frame.IsSpellable : Frame → Prop
  | array items => ∀ v ∈ items, Spellable v
  | object members key => MembersSpellable members ∧ key.IsUnpaired

/-- A state in which all that was read so far is spellable. -/
def State.IsSpellable : State → Prop
  | value around | firstItem around | firstKey around => ∀ f ∈ around, f.IsSpellable
  | afterItem items around => (∀ v ∈ items, Spellable v) ∧ ∀ f ∈ around, f.IsSpellable
  | key members around | afterMember members around =>
    MembersSpellable members ∧ ∀ f ∈ around, f.IsSpellable
  | colon members k around =>
    MembersSpellable members ∧ k.IsUnpaired ∧ ∀ f ∈ around, f.IsSpellable
  | complete v => Spellable v

theorem membersSpellable_bind {k : Text} {v : Value} {ms : List (Text × Value)}
    (members : MembersSpellable ms) (key : k.IsUnpaired) (value : Spellable v) :
    MembersSpellable (Value.bind k v ms) := by
  induction ms with
  | nil =>
    intro m hm
    rw [List.mem_singleton.1 hm]
    exact ⟨key, value⟩
  | cons l ls ih =>
    have first := members l (List.mem_cons_self ..)
    have others : MembersSpellable ls := fun m hm => members m (List.mem_cons_of_mem _ hm)
    intro m hm
    rw [Value.bind] at hm
    -- a key that is bound already keeps its place and changes its value
    split at hm
    · rcases List.mem_cons.1 hm with rfl | hm
      · exact ⟨first.1, value⟩
      · exact others m hm
    · rcases List.mem_cons.1 hm with rfl | hm
      · exact first
      · exact ih others m hm

/-- A value is put into what is open, or is the document. -/
theorem State.isSpellable_supply {v : Value} {around : List Frame} (value : Spellable v)
    (frames : ∀ f ∈ around, f.IsSpellable) : (supply v around).IsSpellable := by
  cases around with
  | nil => exact value
  | cons f around =>
    have inner := frames f (List.mem_cons_self ..)
    have outer : ∀ f ∈ around, f.IsSpellable := fun g hg => frames g (List.mem_cons_of_mem _ hg)
    cases f with
    | array items => exact ⟨List.forall_mem_cons.2 ⟨value, inner⟩, outer⟩
    | object members k => exact ⟨membersSpellable_bind inner.1 inner.2 value, outer⟩

theorem State.isSpellable_startValue {around : List Frame} {t : Token} {s : State}
    (frames : ∀ f ∈ around, f.IsSpellable) (token : t.lexeme.IsSpellable)
    (h : startValue around t = .ok s) : s.IsSpellable := by
  unfold startValue at h
  split at h
  · cases h
    exact frames
  · cases h
    exact frames
  · rename_i found
    rw [found] at token
    cases h
    exact isSpellable_supply (.str token) frames
  · rename_i found
    rw [found] at token
    cases h
    exact isSpellable_supply token frames
  · cases h
  · cases h
  · cases h

theorem State.isSpellable_startMember {members : List (Text × Value)} {around : List Frame}
    {t : Token} {s : State} (spellable : MembersSpellable members)
    (frames : ∀ f ∈ around, f.IsSpellable) (token : t.lexeme.IsSpellable)
    (h : startMember members around t = .ok s) : s.IsSpellable := by
  unfold startMember at h
  split at h
  · rename_i found
    rw [found] at token
    cases h
    exact ⟨spellable, token, frames⟩
  · cases h
  · cases h

/-- A token leads from what is spellable to what is spellable. -/
theorem State.isSpellable_step {s s' : State} {t : Token} (spellable : s.IsSpellable)
    (token : t.lexeme.IsSpellable) (h : s.step t = .ok s') : s'.IsSpellable := by
  have noMembers : MembersSpellable [] := fun m hm => by cases hm
  have members {ms : List (Text × Value)} (h : MembersSpellable ms) : Spellable (.object ms) :=
    .object (fun m hm => (h m hm).1) fun m hm => (h m hm).2
  -- in each state a token is refused, or it opens, extends or closes what the state holds
  cases s with
  | value around => exact isSpellable_startValue spellable token h
  | firstItem around =>
    simp only [step] at h
    split at h
    · cases h
      exact isSpellable_supply (.array (by simp)) spellable
    · -- a first item, which stands in an array that holds none so far
      refine isSpellable_startValue (List.forall_mem_cons.2 ⟨?_, spellable⟩) token h
      exact fun v hv => by cases hv
  | afterItem items around =>
    obtain ⟨values, frames⟩ := spellable
    simp only [step] at h
    split at h
    · cases h
      exact List.forall_mem_cons.2 ⟨values, frames⟩
    · cases h
      exact isSpellable_supply (.array fun v hv => values v (List.mem_reverse.1 hv)) frames
    · cases h
  | firstKey around =>
    simp only [step] at h
    split at h
    · cases h
      exact isSpellable_supply (members noMembers) spellable
    · exact isSpellable_startMember noMembers spellable token h
  | key ms around => exact isSpellable_startMember spellable.1 spellable.2 token h
  | colon ms k around =>
    obtain ⟨values, key, frames⟩ := spellable
    simp only [step] at h
    split at h
    · cases h
      exact List.forall_mem_cons.2 ⟨⟨values, key⟩, frames⟩
    · cases h
  | afterMember ms around =>
    obtain ⟨values, frames⟩ := spellable
    simp only [step] at h
    split at h
    · cases h
      exact ⟨values, frames⟩
    · cases h
      exact isSpellable_supply (members values) frames
    · cases h
  | complete v =>
    simp only [step] at h
    split at h
    · cases h
      exact spellable
    · cases h

/-- Reading tokens leads from what is spellable to what is spellable. -/
theorem State.isSpellable_run {s s' : State} {ts : List Token} (spellable : s.IsSpellable)
    (tokens : ∀ t ∈ ts, t.lexeme.IsSpellable) (h : s.run ts = .ok s') : s'.IsSpellable := by
  induction ts generalizing s with
  | nil =>
    cases h
    exact spellable
  | cons t ts ih =>
    cases first : s.step t with
    | error f =>
      rw [run, first] at h
      cases h
    | ok s₁ =>
      rw [run, first] at h
      exact ih (isSpellable_step spellable (tokens t (List.mem_cons_self ..)) first)
        (fun u hu => tokens u (List.mem_cons_of_mem _ hu)) h

/-- **Whatever is read from a text without surrogates is spellable.** -/
theorem spellable_of_read {t : Text} {v : Value} (scalars : t.IsScalar)
    (h : read t = .ok v) : Spellable v := by
  unfold read at h
  split at h
  · cases h
  · split at h
    · rename_i complete
      cases h
      exact State.isSpellable_run (s := .value []) (fun f hf => by cases hf)
        (isSpellable_of_mem_tokens scalars 1) complete
    · cases h
    · cases h

end Deparse.Json
