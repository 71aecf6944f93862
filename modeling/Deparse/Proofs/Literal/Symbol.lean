import Deparse.Literal.Symbol

/-!
# The characters of names

A name that is written without quotes consists of the characters that an identifier goes on with and
of a few more, which the end of a method name, the start of a variable and the operators add.  What
holds of all of these holds of every character of such a name (`forall_of_isPlainSymbol`).
-/

namespace Deparse.Literal

variable {P : CodePoint → Prop} {t : Text}

theorem forall_of_isIdentifier (continues : ∀ c, continuesName c = true → P c)
    (h : isIdentifier t = true) : ∀ c ∈ t, P c := by
  intro c hc
  cases t with
  | nil => cases hc
  | cons d t =>
    obtain ⟨first, rest⟩ := Bool.and_eq_true_iff.1 h
    apply continues
    rcases List.mem_cons.1 hc with rfl | hc
    · -- an identifier goes on with whatever it may start with
      cases c with
      | scalar c => exact Bool.or_eq_true_iff.2 (.inl first)
      | surrogate => cases first
    · exact List.all_eq_true.1 rest c hc

theorem forall_of_isMethodName (continues : ∀ c, continuesName c = true → P c)
    (suffixes : ∀ c ∈ methodSuffixes, P c) (h : isMethodName t = true) : ∀ c ∈ t, P c := by
  rcases Bool.or_eq_true_iff.1 h with identifier | suffixed
  · exact forall_of_isIdentifier continues identifier
  · split at suffixed
    · rename_i d last
      obtain ⟨suffix, stem⟩ := Bool.and_eq_true_iff.1 suffixed
      obtain ⟨u, rfl⟩ := List.getLast?_eq_some_iff.1 last
      rw [List.dropLast_concat] at stem
      intro c hc
      rcases List.mem_append.1 hc with hc | hc
      · exact forall_of_isIdentifier continues stem c hc
      · rw [List.mem_singleton.1 hc]
        exact suffixes d (List.contains_iff_mem.1 suffix)
    · cases suffixed

theorem forall_of_isSigilName (continues : ∀ c, continuesName c = true → P c)
    (sigils : ∀ c ∈ ("@$" : Text), P c) (h : isSigilName t = true) : ∀ c ∈ t, P c := by
  have identifier {u : Text} (h : isIdentifier u = true) : ∀ c ∈ u, P c :=
    forall_of_isIdentifier continues h
  have atSign : P '@' := sigils '@' (by decide)
  unfold isSigilName at h
  split at h
  · exact List.forall_mem_cons.2 ⟨atSign, List.forall_mem_cons.2 ⟨atSign, identifier h⟩⟩
  · exact List.forall_mem_cons.2 ⟨atSign, identifier h⟩
  · exact List.forall_mem_cons.2 ⟨sigils '$' (by decide), identifier h⟩
  · cases h

/-- What holds of the characters of identifiers and of the others that stand in names holds of every
character of a name that is written without quotes. -/
theorem forall_of_isPlainSymbol (continues : ∀ c, continuesName c = true → P c)
    (suffixes : ∀ c ∈ methodSuffixes, P c) (sigils : ∀ c ∈ ("@$" : Text), P c)
    (signs : ∀ op ∈ operators, ∀ c ∈ op, P c) (h : isPlainSymbol t = true) : ∀ c ∈ t, P c := by
  rcases Bool.or_eq_true_iff.1 h with h | operator
  · rcases Bool.or_eq_true_iff.1 h with method | sigil
    · exact forall_of_isMethodName continues suffixes method
    · exact forall_of_isSigilName continues sigils sigil
  · exact signs t (List.contains_iff_mem.1 operator)

end Deparse.Literal
