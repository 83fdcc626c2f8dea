import Recast.Proofs.Spelling
/-!
# Trailing text — what a reader says when a descriptor goes on

A component is read off the front of a text, and where it ends does not depend on what follows.  So a complete
descriptor with more text behind it is read to the same place, whatever the text looks like: another type, a bracket, a
parenthesis.  What is left is then reported as trailing, under the text as a whole.

One descriptor is not told to be complete.  The `V` of a method without a value is looked for as all that is left after
the parentheses.  With more text behind it the reader expects a type there and finds `void`, so the fault is a misplaced
`void` (`Descriptor.trailing_text_reported`), although the `void` is the return type
(`Descriptor.exists_trailing_text_misreported`).
-/
namespace Recast

namespace Descriptor

variable {t : Ty} {cs w s : List Char}

/-! ## After a type -/

theorem fieldType_append (h : fieldType cs = .ok t) (hs : s ≠ []) : fieldType (cs ++ s) = .error .trailing := by
  have hread : component 0 (cs ++ s) = .ok (t, s) := component_iff.2 ⟨cs, fieldType_iff.1 h, rfl⟩
  unfold fieldType
  rw [hread]
  cases s with
  | nil => exact absurd rfl hs
  | cons c s => rfl

/-! ## After a signature -/

/-- No component is `void`. -/
theorem Spells.ne_void (h : Spells t w) : t ≠ .ofPrimitive .void := by
  rintro rfl
  obtain ⟨n, e, he, -⟩ := h
  cases he

/-- A `void` that more text follows is read as a component. -/
theorem fieldType_void (s : List Char) : fieldType ('V' :: s) = .error .misplacedVoid := rfl

/-- **The fault of a signature that goes on**: what follows its result is trailing, but for `void`. -/
def resultFault (returns : Ty) : DescriptorFault :=
  if returns = .ofPrimitive .void then .misplacedVoid else .trailing

theorem fieldType_result_append (h : SpellsResult t w) (hs : s ≠ []) :
    fieldType (w ++ s) = .error (resultFault t) := by
  unfold resultFault
  rcases h with ⟨rfl, rfl⟩ | hw
  · rw [if_pos rfl]
    exact fieldType_void s
  · rw [if_neg hw.ne_void]
    exact fieldType_append (fieldType_iff.2 hw) hs

/-- No text that goes on after a result is the single `V`. -/
theorem result_append_ne_void (h : SpellsResult t w) (hs : s ≠ []) : w ++ s ≠ ['V'] := by
  intro heq
  have hpos : 0 < s.length := List.length_pos_iff.2 hs
  have hlen := congrArg List.length heq
  rw [List.length_append, List.length_singleton] at hlen
  have hw : w = [] := List.length_eq_zero_iff.1 (by omega)
  subst hw
  rcases h with ⟨-, hw⟩ | hw
  · cases hw
  · -- nothing at all spells no type
    cases fieldType_iff.2 hw

theorem methodType_append {m : MethodType} (h : methodType cs = .ok m) (hs : s ≠ []) :
    methodType (cs ++ s) = .error (resultFault m.returns) := by
  obtain ⟨ws, w, hws, hresult, rfl⟩ := methodType_iff.1 h
  have hread : parameters (ws.flatten ++ ')' :: w ++ s) = .ok (m.parameters, w ++ s) := by
    rw [List.append_assoc, List.cons_append]
    exact parameters_iff.2 ⟨ws, hws, rfl⟩
  have hne := result_append_ne_void hresult hs
  have hfault := fieldType_result_append hresult hs
  rw [List.cons_append]
  unfold methodType
  -- the match falls through to its second case, since what is left is not a `V` alone
  simp only [hread]
  rw [hfault]
  rfl

theorem toList_ne_nil {text : String} (h : text ≠ "") : text.toList ≠ [] := fun he => h (String.toList_eq_nil_iff.1 he)

/-- **Trailing text is reported as such**, under the whole text, after every field descriptor and after every method
descriptor with a value.  After a method descriptor without a value it is reported as a misplaced `void`. -/
theorem trailing_text_reported (d s : String) (hs : s ≠ "") :
    (∀ t, Ty.ofDescriptor d = .ok t → Ty.ofDescriptor (d ++ s) = .error ⟨.trailing, d ++ s⟩) ∧
    ∀ m, MethodType.ofDescriptor d = .ok m →
      MethodType.ofDescriptor (d ++ s) =
        .error ⟨if m.returns = .ofPrimitive .void then .misplacedVoid else .trailing, d ++ s⟩ := by
  have hne := toList_ne_nil hs
  constructor
  · intro t ht
    have hfield : fieldType d.toList = .ok t := fieldType_iff.2 (Ty.ofDescriptor_ok_iff.1 ht)
    unfold Ty.ofDescriptor
    rw [String.toList_append, fieldType_append hfield hne]
    rfl
  · intro m hm
    have hmethod : methodType d.toList = .ok m := MethodType.ofDescriptor_ok_iff.1 hm
    unfold MethodType.ofDescriptor
    rw [String.toList_append, methodType_append hmethod hne]
    rfl

/-- What follows may itself be a type, or look like the end of the parameters. -/
theorem trailing_text_reported_twice :
    Ty.ofDescriptor "[I[I" = .error ⟨.trailing, "[I[I"⟩ ∧
    MethodType.ofDescriptor "(I)[J)V" = .error ⟨.trailing, "(I)[J)V"⟩ ∧
    MethodType.ofDescriptor "()VV" = .error ⟨.misplacedVoid, "()VV"⟩ := by
  have hfield := (trailing_text_reported "[I" "[I" (by decide)).1 (.primitive .int 1) (by decide +kernel)
  have hvalue := (trailing_text_reported "(I)[J" ")V" (by decide)).2 ⟨[.ofPrimitive .int], .primitive .long 1⟩
    (by decide +kernel)
  have hvoid := (trailing_text_reported "()V" "V" (by decide)).2 ⟨[], .ofPrimitive .void⟩ (by decide +kernel)
  rw [if_neg (by simp [Ty.ofPrimitive])] at hvalue
  rw [if_pos rfl] at hvoid
  exact ⟨hfield, hvalue, hvoid⟩

/-- **Trailing text can be taken for a misplaced `void`**, after a complete signature. -/
theorem exists_trailing_text_misreported :
    ¬ ∀ (d s : String) (m : MethodType), s ≠ "" → MethodType.ofDescriptor d = .ok m →
      MethodType.ofDescriptor (d ++ s) = .error ⟨.trailing, d ++ s⟩ := by
  intro hall
  have htrailing := hall "()V" "I" ⟨[], .ofPrimitive .void⟩ (by decide) (by decide +kernel)
  have hvoid : MethodType.ofDescriptor ("()V" ++ "I") = .error ⟨.misplacedVoid, "()VI"⟩ := by decide +kernel
  rw [hvoid] at htrailing
  cases htrailing

end Descriptor

end Recast
