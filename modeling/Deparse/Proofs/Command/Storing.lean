import Deparse.Command.Files

/-!
# What storing does to the files

Making folders adds folders where nothing was (`Grown`) and leaves the files alone, whether it ends
well or not.  Where a text is stored is settled before the text is looked at (`store_cases`): either
nothing can be stored to the path, or the file at its place is emptied, and then filled if the text
can be encoded.
-/

namespace Deparse.Command

namespace Files

variable {f g h : Files}

/-- The bytes of the file at a place. -/
def file? (f : Files) (l : Location) : Option (List UInt8) :=
  match f.entry? l with
  | some (.file bytes) => some bytes
  | _ => none

/-- Taking out what is at one place leaves the other places alone. -/
theorem lookup_filter_ne {l m : Location} (other : m ≠ l) (es : List (Location × Entry)) :
    (es.filter fun p => p.1 ≠ l).lookup m = es.lookup m := by
  induction es with
  | nil => rfl
  | cons p es ih =>
    obtain ⟨n, e⟩ := p
    by_cases same : n = l
    · -- what stands in front is taken out, and was not asked for
      subst same
      have unequal : (m == n) = false := beq_eq_false_iff_ne.2 other
      rw [List.filter_cons_of_neg (by simp), ih, List.lookup_cons, unequal]
    · rw [List.filter_cons_of_pos (by simpa using same), List.lookup_cons, List.lookup_cons, ih]

/-- What was put at a place is found there, and what is elsewhere is found as before. -/
theorem entry?_put (f : Files) {l : Location} (inner : l ≠ []) (e : Entry) (m : Location) :
    entry? (f.put l e) m = if m = l then some e else f.entry? m := by
  unfold entry? put
  by_cases here : m = l
  · -- the new entry is found first
    subst here
    rw [if_neg (by simpa using inner), if_pos rfl]
    exact List.lookup_cons_self
  · have unequal : (m == l) = false := beq_eq_false_iff_ne.2 here
    rw [if_neg here, List.lookup_cons, unequal, lookup_filter_ne here]

/-- There are new folders where nothing was, and otherwise the same as before. -/
def Grown (f g : Files) : Prop :=
  ∀ l, g.entry? l = f.entry? l ∨ (f.entry? l = none ∧ g.entry? l = some .folder)

theorem Grown.refl (f : Files) : Grown f f :=
  fun _ => .inl rfl

theorem Grown.trans (fg : Grown f g) (gh : Grown g h) : Grown f h := by
  intro l
  rcases gh l with same | ⟨missing, folder⟩
  · rw [same]
    exact fg l
  · rcases fg l with same | ⟨-, there⟩
    · exact .inr ⟨same.symm.trans missing, folder⟩
    · rw [missing] at there
      cases there

/-- New folders leave the files as they are. -/
theorem Grown.file?_eq (fg : Grown f g) (l : Location) : g.file? l = f.file? l := by
  rcases fg l with same | ⟨missing, folder⟩
  · rw [file?, same, file?]
  · rw [file?, folder, file?, missing]

theorem ne_nil_of_entry? {l : Location} (h : f.entry? l ≠ some .folder) : l ≠ [] := by
  rintro rfl
  exact h rfl

/-- A folder may be put where nothing is. -/
theorem grown_put {l : Location} (missing : f.entry? l = none) : Grown f (f.put l .folder) := by
  have noFolder : f.entry? l ≠ some .folder := by simp [missing]
  have inner : l ≠ [] := ne_nil_of_entry? noFolder
  intro m
  rw [entry?_put f inner]
  split
  · rename_i here
    exact .inr ⟨by rw [here, missing], rfl⟩
  · exact .inl rfl

/-- A file put at a place has the bytes that it was given. -/
theorem file?_put (f : Files) {l : Location} (inner : l ≠ []) (bytes : List UInt8) (m : Location) :
    (f.put l (.file bytes)).file? m = if m = l then some bytes else f.file? m := by
  rw [file?, entry?_put f inner]
  by_cases here : m = l
  · rw [if_pos here, if_pos here]
  · rw [if_neg here, if_neg here, file?]

end Files

namespace FileAction

open Files (Grown)

variable {α β : Type}

/-- An action that makes folders at most, whatever becomes of it. -/
def Grows (a : FileAction α) : Prop :=
  ∀ f, Grown f (a.run f).2

theorem grows_pure (x : α) : Grows (pure x) :=
  fun f => .refl f

theorem grows_throw (e : StoreFault) : Grows (throw e : FileAction α) :=
  fun f => .refl f

/-- The first action is followed by the next if it ends well. -/
theorem run_bind (a : FileAction α) (k : α → FileAction β) (f : Files) :
    (a >>= k).run f = match a.run f with
      | (.ok x, g) => (k x).run g
      | (.error e, g) => (.error e, g) := by
  show ((a.run >>= ExceptT.bindCont k : StateM Files _)) f = _
  simp only [bind, StateT.bind]
  rcases ended : a.run f with ⟨_ | _, g⟩
  · rfl
  · rfl

theorem run_get_bind (k : Files → FileAction α) (f : Files) : (get >>= k).run f = (k f).run f :=
  rfl

/-- Actions that make folders at most can be put in a row. -/
theorem Grows.bind {a : FileAction α} {k : α → FileAction β} (first : Grows a)
    (next : ∀ x, Grows (k x)) : Grows (a >>= k) := by
  intro f
  have made := first f
  rw [run_bind]
  rcases ended : a.run f with ⟨e | x, g⟩
  · rw [ended] at made
    exact made
  · rw [ended] at made
    exact made.trans (next x g)

/-- Making one folder makes no other. -/
theorem grows_makeFolder (l : Location) (names : List Text) : Grows (makeFolder l names) := by
  intro f
  unfold makeFolder
  rw [run_get_bind]
  split
  · exact .refl f
  · exact .refl f
  · split
    · exact .refl f
    · exact .refl f
    · rename_i place _ missing
      exact Files.grown_put missing

/-- Neither does making those around it. -/
theorem grows_makeFolders (l : Location) (names : List Text) : Grows (makeFolders l names) := by
  induction names with
  | nil => exact grows_pure ()
  | cons name names ih =>
    unfold makeFolders
    refine (grows_makeFolder l _).bind fun made => ?_
    split
    · exact grows_pure ()
    · -- the folder could not be made: first those around it, and then once more
      refine ih.bind fun _ => (grows_makeFolder l _).bind fun made => ?_
      split
      · exact grows_pure ()
      · exact grows_throw _

/-- Storing a text to a path fails whatever the text is, or there is a place for it, of which the
file is emptied and then filled if the text can be encoded. -/
theorem store_cases (current : Location) (path : Text) (f : Files) :
    (∃ e g, Grown f g ∧ ∀ content, (store current path content).run f = (.error e, g)) ∨
      ∃ place g, Grown f g ∧ g.entry? place ≠ some .folder ∧
        ∀ content, (store current path content).run f = match content.utf8? with
          | none => (.error .unencodable, g.put place (.file []))
          | some bytes => (.ok (), g.put place (.file bytes)) := by
  unfold store
  simp only
  split
  · exact .inl ⟨.unusablePath, f, .refl f, fun _ => rfl⟩
  · -- the folders are made before the file is opened, whatever is to be written
    have made := grows_makeFolders (Path.start current path) (Path.names path).dropLast.reverse f
    simp only [run_bind]
    generalize (makeFolders (Path.start current path) (Path.names path).dropLast.reverse).run f
      = ended at made ⊢
    obtain ⟨e | ⟨⟩, g⟩ := ended
    · exact .inl ⟨e, g, made, fun _ => rfl⟩
    · simp only
      split
      · exact .inl ⟨.unusablePath, g, made, fun _ => rfl⟩
      · simp only [run_get_bind]
        split
        · rename_i e _
          exact .inl ⟨e, g, made, fun _ => rfl⟩
        · rename_i place _
          split
          · exact .inl ⟨.isAFolder, g, made, fun _ => rfl⟩
          · rename_i noFolder
            refine .inr ⟨place, g, made, noFolder, fun content => ?_⟩
            cases content.utf8? <;> rfl

end FileAction

end Deparse.Command
